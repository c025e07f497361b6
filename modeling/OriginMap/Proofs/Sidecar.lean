import Mathlib.Data.Nat.Notation
import OriginMap.Proofs.Json.Collected
import OriginMap.Proofs.Json.Records
import OriginMap.Proofs.Time.Rfc3339
import OriginMap.Sidecar

/-!
# Sidecars read back

A sidecar is read back from the contents of its file, whatever characters its texts have. Only its
timestamp decides whether it can be read, and the instant that is read is the one that the timestamp
names. Whatever contents are read as a sidecar, its instant lies in the range that is kept.
-/

namespace OriginMap.Sidecar

open Json

/-- A timestamp that can be read is read from its string. -/
theorem reads_timestamp {text : String} {t : Time.Instant}
    (h : Time.Timestamp.read? text.toList = some t) : Reads timestamp (.text text) t := by
  intro before bytes rest hbefore hspelled hrest
  simp only [timestamp, reads_text text before bytes rest hbefore hspelled hrest, h, Bind.bind,
    Except.bind]
  rfl

/-- A timestamp that cannot be read is refused. -/
theorem refuses_timestamp {text : String} (h : Time.Timestamp.read? text.toList = none) :
    Refuses timestamp (.text text) .mismatched := by
  intro before bytes rest hbefore hspelled hrest
  simp only [timestamp, reads_text text before bytes rest hbefore hspelled hrest, h, Bind.bind,
    Except.bind]

/-- The members of a sidecar from its timestamp on. -/
def laterMembers (s : Sidecar) : List (String × Value) :=
  [("stored_at", .text (String.ofList s.storedAt.timestamp)),
    ("size_bytes", .natural s.sizeBytes.toNat), ("sha256", .text s.sha256)]

/-- The key of a sidecar is collected, whatever comes of the members behind it. -/
theorem collects_key (s : Sidecar) {last : Except Fault Members}
    (h : Collects fields s.laterMembers
      { application := some s.key.application, version := some s.key.version } last) :
    Collects fields (("application_id", .text s.key.application) ::
      ("version", .text s.key.version) :: s.laterMembers) {} last := by
  have happlication := (reads_text s.key.application).put
    fun value => { ({} : Members) with application := some value }
  have hversion := (reads_text s.key.version).put
    fun value => { ({ application := some s.key.application } : Members) with version := some value }
  exact .next rfl rfl happlication (.next rfl rfl hversion h)

variable {s : Sidecar} {t : Time.Instant}

/-- A sidecar whose timestamp can be read is read back with the instant of its timestamp. -/
theorem read_render (h : Time.Timestamp.read? s.storedAt.timestamp = some t) :
    read s.render = .ok { s with storedAt := t } := by
  have htext : Time.Timestamp.read? (String.ofList s.storedAt.timestamp).toList = some t := by
    rwa [String.toList_ofList]
  have hsize : Reads natural (.natural s.sizeBytes.toNat) s.sizeBytes := by
    have := reads_natural s.sizeBytes.toNat_lt_size
    rwa [UInt64.ofNat_toNat] at this
  have hstored := (reads_timestamp htext).put fun value =>
    ({ application := some s.key.application, version := some s.key.version,
       storedAt := some value } : Members)
  have hsized := hsize.put fun value =>
    ({ application := some s.key.application, version := some s.key.version,
       storedAt := some t, sizeBytes := some value } : Members)
  have hdigest := (reads_text s.sha256).put fun value =>
    ({ application := some s.key.application, version := some s.key.version,
       storedAt := some t, sizeBytes := some s.sizeBytes, sha256 := some value } : Members)
  have hcollects := collects_key s
    (.next rfl rfl hstored (.next rfl rfl hsized (.next rfl rfl hdigest (.done _))))
  exact document_render (reads_record hcollects rfl)

/-- A sidecar whose timestamp cannot be read is refused. -/
theorem read_render_refused (h : Time.Timestamp.read? s.storedAt.timestamp = none) :
    read s.render = .error .mismatched := by
  have htext : Time.Timestamp.read? (String.ofList s.storedAt.timestamp).toList = none := by
    rwa [String.toList_ofList]
  have hstored := (refuses_timestamp htext).put fun value =>
    ({ application := some s.key.application, version := some s.key.version,
       storedAt := some value } : Members)
  have hcollects := collects_key s (.refused _ rfl rfl hstored)
  exact document_render_refused (refuses_record hcollects)

/-- What is read from the file of a sidecar differs from it at most in when it was stored. -/
theorem of_read_render {found : Sidecar} (h : read s.render = .ok found) :
    Time.Timestamp.read? s.storedAt.timestamp = some found.storedAt ∧
      found = { s with storedAt := found.storedAt } := by
  cases ht : Time.Timestamp.read? s.storedAt.timestamp with
  | none =>
    rw [read_render_refused ht] at h
    cases h
  | some t =>
    rw [read_render ht] at h
    obtain rfl := Except.ok.inj h
    exact ⟨rfl, rfl⟩

/-- A sidecar is read back with the instant that its timestamp names. -/
theorem read_render_named (hkept : s.storedAt.kept = true)
    (hnanos : s.storedAt.nanos < 2 * Time.secondNanos) :
    read s.render = .ok { s with storedAt := s.storedAt.named } :=
  read_render (Time.Instant.read?_timestamp hkept hnanos)

/-! ## The instant of any sidecar -/

/-- The instant among the members met so far lies in the range that is kept. -/
def Members.Kept (m : Members) : Prop := ∀ t, m.storedAt = some t → t.kept = true

/-- Every member that is read maintains that the instant lies in the range that is kept. -/
theorem maintain_kept : Maintain fields Members.Kept := by
  intro field hfield m bytes changed rest hkept hread
  simp only [fields, List.mem_cons, List.not_mem_nil, or_false] at hfield
  rcases hfield with rfl | rfl | rfl | rfl | rfl
  all_goals
    obtain ⟨⟨value, after⟩, hvalue, hread⟩ := of_bind_eq_ok hread
    cases hread
  · exact hkept
  · exact hkept
  · intro found hfound
    obtain rfl : value = found := Option.some.inj hfound
    obtain ⟨⟨text, behind⟩, -, hvalue⟩ := of_bind_eq_ok hvalue
    simp only at hvalue
    split at hvalue
    · next t ht =>
      cases hvalue
      exact Time.Timestamp.kept_of_read? ht
    · cases hvalue
  · exact hkept
  · exact hkept

/-- The instant of a sidecar that can be read lies in the range that is kept. -/
theorem kept_of_read {contents : Bytes} {s : Sidecar} (h : read contents = .ok s) :
    s.storedAt.kept = true := by
  obtain ⟨rest, hread⟩ := of_document h
  have hempty : Members.Kept {} := by
    intro t ht
    cases ht
  obtain ⟨last, hkept, hfinish⟩ := maintain_kept.record hempty hread
  unfold Members.finish at hfinish
  split at hfinish
  · cases hfinish
    exact hkept _ rfl
  · cases hfinish

end OriginMap.Sidecar
