import Mathlib.Tactic.SplitIfs
import OriginMap.Json.Record

/-!
# What holds of collected members

A record is collected member by member, in an object or in a list. What holds before any member was met,
and goes on holding with each known member that is read, holds of what is judged at the end.
-/

namespace OriginMap.Json

variable {σ α : Type} {fields : List (RecordField σ)} {Holds : σ → Prop}

/-- What holds of the members met so far goes on holding with each one that is read. -/
def Maintain (fields : List (RecordField σ)) (Holds : σ → Prop) : Prop :=
  ∀ field ∈ fields, ∀ record bytes changed rest, Holds record →
    field.read record bytes = .ok (changed, rest) → Holds changed

/-- A step that was taken came from a first one. -/
theorem of_bind_eq_ok {ε β : Type} {first : Except ε α} {next : α → Except ε β} {result : β}
    (h : first >>= next = .ok result) : ∃ a, first = .ok a ∧ next a = .ok result := by
  cases first with
  | error e => cases h
  | ok a => exact ⟨a, rfl, h⟩

/-- It holds after a member, known or not. -/
theorem Maintain.member (h : Maintain fields Holds) {key : String} {record changed : σ}
    {bytes rest : Bytes} (hrecord : Holds record)
    (hread : member fields key record bytes = .ok (changed, rest)) : Holds changed := by
  unfold Json.member at hread
  cases hfind : fields.find? (·.key = key) with
  | none =>
    simp only [hfind] at hread
    obtain ⟨ahead, -, hread⟩ := of_bind_eq_ok hread
    obtain ⟨after, -, hread⟩ := of_bind_eq_ok hread
    cases hread
    exact hrecord
  | some field =>
    simp only [hfind] at hread
    split_ifs at hread
    obtain ⟨ahead, -, hread⟩ := of_bind_eq_ok hread
    exact h field (List.mem_of_find?_eq_some hfind) record ahead changed rest hrecord hread

/-- It holds after the members of an object. -/
theorem Maintain.members (h : Maintain fields Holds) {budget : Nat} {first : Bool}
    {record changed : σ} {bytes rest : Bytes} (hrecord : Holds record)
    (hread : members fields budget first record bytes = .ok (changed, rest)) : Holds changed := by
  induction budget generalizing first record bytes with
  | zero => cases hread
  | succ budget ih =>
    rw [Json.members] at hread
    obtain ⟨next, -, hread⟩ := of_bind_eq_ok hread
    cases next with
    | none =>
      cases hread
      exact hrecord
    | some next =>
      obtain ⟨⟨middle, after⟩, hmember, hread⟩ := of_bind_eq_ok hread
      exact ih (h.member hrecord hmember) hread

/-- It holds after the members in a list. -/
theorem Maintain.inOrder {left : List (RecordField σ)} (h : Maintain left Holds) {first : Bool}
    {record changed : σ} {bytes rest : Bytes} (hrecord : Holds record)
    (hread : inOrder left first record bytes = .ok (changed, rest)) : Holds changed := by
  induction left generalizing first record bytes with
  | nil =>
    cases hread
    exact hrecord
  | cons field left ih =>
    rw [Json.inOrder] at hread
    obtain ⟨next, -, hread⟩ := of_bind_eq_ok hread
    cases next with
    | none =>
      cases hread
      exact hrecord
    | some ahead =>
      obtain ⟨⟨middle, after⟩, hfield, hread⟩ := of_bind_eq_ok hread
      have hmiddle := h field List.mem_cons_self record ahead middle after hrecord hfield
      exact ih (fun other hother => h other (List.mem_cons_of_mem field hother)) hmiddle hread

/-- A record that was read is judged by members of which it holds. -/
theorem Maintain.record (h : Maintain fields Holds) {empty : σ} {finish : σ → Except Fault α}
    {value : α} {bytes rest : Bytes} (hempty : Holds empty)
    (hread : record fields empty finish bytes = .ok (value, rest)) :
    ∃ last, Holds last ∧ finish last = .ok value := by
  unfold Json.record at hread
  split at hread
  · cases hread
  · split_ifs at hread
    · obtain ⟨⟨last, after⟩, hmembers, hread⟩ := of_bind_eq_ok hread
      obtain ⟨result, hfinish, hread⟩ := of_bind_eq_ok hread
      cases hread
      exact ⟨last, h.members hempty hmembers, hfinish⟩
    · obtain ⟨⟨last, after⟩, hmembers, hread⟩ := of_bind_eq_ok hread
      obtain ⟨result, hfinish, hread⟩ := of_bind_eq_ok hread
      obtain ⟨closed, -, hread⟩ := of_bind_eq_ok hread
      cases hread
      exact ⟨last, h.inOrder hempty hmembers, hfinish⟩

/-- A document that was read holds a value that was read. -/
theorem of_document {read : Reader α} {value : α} {bytes : Bytes}
    (h : document read bytes = .ok value) : ∃ rest, read bytes = .ok (value, rest) := by
  obtain ⟨⟨found, rest⟩, hread, h⟩ := of_bind_eq_ok h
  simp only at h
  split_ifs at h
  cases h
  exact ⟨rest, hread⟩

end OriginMap.Json
