import Mathlib.Data.Int.Notation
import Mathlib.Data.List.Basic
import Mathlib.Tactic.SplitIfs
import OriginMap.Index

/-!
# Looking up the nearest entry

An index keeps the valid entries of its text, and files under each source the entries of that source in
their order. A search through entries whose lines do not decrease may stop at a line that is too far
away: what it has found by then is the first of the entries that are nearest to the position.
-/

namespace OriginMap

/-- How far an entry is off a position: by so many lines and so many columns. -/
def Entry.offBy (e : Entry) (line column : UInt32) : ℕ :=
  ((e.generatedLine.toNat : ℤ) - line.toNat).natAbs +
    ((e.generatedColumn.toNat : ℤ) - column.toNat).natAbs

/-- The distance of an entry is how far it is off. -/
theorem Entry.distance_eq (e : Entry) (line column : UInt32) :
    e.distance line column = e.offBy line column := by
  have hgap (a b : UInt32) : gap a b = ((a.toNat : ℤ) - b.toNat).natAbs := by
    rw [gap]
    split
    · next hle =>
      have := UInt32.le_iff_toNat_le.mp hle
      omega
    · next hle =>
      have := mt UInt32.le_iff_toNat_le.mpr hle
      omega
  rw [Entry.distance, Entry.offBy, hgap, hgap]

/-- An entry is valid if its source exists and its name, if it has one. -/
theorem Entry.valid_iff {e : Entry} {sourceCount nameCount : ℕ} :
    e.valid sourceCount nameCount = true ↔
      e.sourceIndex.toNat < sourceCount ∧ ∀ name ∈ e.nameIndex, name.toNat < nameCount := by
  rw [Entry.valid, Bool.and_eq_true, decide_eq_true_eq, Option.all_eq_true]
  simp only [decide_eq_true_eq, Option.mem_def]

/-- Lines of entries do not decrease. -/
def Ascending (entries : List Entry) : Prop :=
  entries.Pairwise fun a b => a.generatedLine ≤ b.generatedLine

/-- An entry is the first of those that are nearest to a position. -/
def FirstNearest (line column : UInt32) (entries : List Entry) (e : Entry) : Prop :=
  ∃ before after, entries = before ++ e :: after ∧
    (∀ other ∈ before, e.offBy line column < other.offBy line column) ∧
    ∀ other ∈ after, e.offBy line column ≤ other.offBy line column

/-- The first of the nearest entries is one of the entries. -/
theorem FirstNearest.mem {line column : UInt32} {entries : List Entry} {e : Entry}
    (h : FirstNearest line column entries e) : e ∈ entries := by
  obtain ⟨before, after, rfl, -⟩ := h
  exact List.mem_append_right _ List.mem_cons_self

/-- There is one first of the nearest entries. -/
theorem FirstNearest.unique {line column : UInt32} {entries : List Entry} {e e' : Entry}
    (h : FirstNearest line column entries e) (h' : FirstNearest line column entries e') : e = e' := by
  obtain ⟨before, after, rfl, hbefore, hafter⟩ := h
  obtain ⟨before', after', hsplit, hbefore', hafter'⟩ := h'
  rcases List.append_eq_append_iff.mp hsplit with
    ⟨_ | ⟨first, between⟩, hpart, hrest⟩ | ⟨_ | ⟨first, between⟩, hpart, hrest⟩
  · exact (List.cons.inj hrest).1
  · obtain ⟨rfl, rfl⟩ := List.cons.inj hrest
    have hnearer := hbefore' e (by simp [hpart])
    have hfarther := hafter e' (by simp)
    omega
  · exact (List.cons.inj hrest).1.symm
  · obtain ⟨rfl, rfl⟩ := List.cons.inj hrest
    have hnearer := hbefore e' (by simp [hpart])
    have hfarther := hafter' e (by simp)
    omega

namespace Index

/-! ## Searching -/

section Closest

variable {line column : UInt32} {entries : List Entry}

/-- An entry is off by its lines at least. -/
theorem le_offBy (e : Entry) (line column : UInt32) :
    e.generatedLine.toNat ≤ line.toNat + e.offBy line column := by
  rw [Entry.offBy]
  omega

/-- A search goes on from the best entry so far, of which it keeps the distance, and ends with the first
nearest of it and the entries ahead. -/
theorem firstNearest_closestFrom (best : Entry) (hascending : Ascending entries) :
    FirstNearest line column (best :: entries)
      (closestFrom line column best (best.offBy line column) entries) := by
  induction entries generalizing best with
  | nil => exact ⟨[], [], rfl, by simp, by simp⟩
  | cons e entries ih =>
    obtain ⟨hlater, hrest⟩ := List.pairwise_cons.mp hascending
    rw [closestFrom, e.distance_eq]
    split_ifs with hfar hnearer
    · refine ⟨[], e :: entries, rfl, by simp, fun other hother => ?_⟩
      have hline : e.generatedLine.toNat ≤ other.generatedLine.toNat := by
        rcases List.mem_cons.mp hother with rfl | hother
        · exact Nat.le_refl _
        · exact UInt32.le_iff_toNat_le.mp (hlater other hother)
      have hoff := le_offBy other line column
      rcases hfar with hthere | hfar
      · omega
      · omega
    · obtain ⟨before, after, hsplit, hbefore, hafter⟩ := ih e hrest
      generalize closestFrom line column e (e.offBy line column) entries = found at *
      -- What was found is not farther off than the entry that took the place of the best one.
      have hfound : found.offBy line column ≤ e.offBy line column := by
        cases before with
        | nil =>
          obtain rfl := (List.cons.inj hsplit).1
          exact Nat.le_refl _
        | cons first before =>
          obtain rfl := (List.cons.inj hsplit).1
          exact Nat.le_of_lt (hbefore e List.mem_cons_self)
      refine ⟨best :: before, after, congrArg (best :: ·) hsplit, fun other hother => ?_, hafter⟩
      rcases List.mem_cons.mp hother with rfl | hother
      · omega
      · exact hbefore other hother
    · obtain ⟨before, after, hsplit, hbefore, hafter⟩ := ih best hrest
      generalize closestFrom line column best (best.offBy line column) entries = found at *
      cases before with
      | nil =>
        obtain ⟨rfl, rfl⟩ := List.cons.inj hsplit
        refine ⟨[], e :: entries, rfl, by simp, fun other hother => ?_⟩
        rcases List.mem_cons.mp hother with rfl | hother
        · omega
        · exact hafter other hother
      | cons first before =>
        obtain ⟨rfl, rfl⟩ := List.cons.inj hsplit
        have hbest := hbefore best List.mem_cons_self
        refine ⟨best :: e :: before, after, rfl, fun other hother => ?_, hafter⟩
        rcases List.mem_cons.mp hother with rfl | hother
        · exact hbest
        · rcases List.mem_cons.mp hother with rfl | hother
          · omega
          · exact hbefore other (List.mem_cons_of_mem best hother)

/-- A search finds the first nearest entry, if there is any entry. -/
theorem closest?_eq_some {e : Entry} (hascending : Ascending entries)
    (h : closest? line column entries = some e) : FirstNearest line column entries e := by
  cases entries with
  | nil => cases h
  | cons first entries =>
    rw [closest?, first.distance_eq] at h
    rw [← Option.some.inj h]
    exact firstNearest_closestFrom first (List.pairwise_cons.mp hascending).2

/-- A search finds nothing only among no entries. -/
theorem closest?_eq_none : closest? line column entries = none ↔ entries = [] := by
  cases entries <;> simp [closest?]

end Closest

/-! ## Filing -/

/-- Under a source there are the positions that were there and, after them, those of its entries. -/
theorem toList_getD_file (buckets : Std.HashMap UInt32 (Array ℕ)) (items : List (Entry × ℕ))
    (source : UInt32) : ((items.foldl file buckets).getD source #[]).toList =
      (buckets.getD source #[]).toList ++
        (items.filter fun item => item.1.sourceIndex = source).map Prod.snd := by
  induction items generalizing buckets with
  | nil => simp
  | cons item items ih =>
    rw [List.foldl_cons, ih, file, Std.HashMap.getD_alter, List.filter_cons]
    by_cases hsource : item.1.sourceIndex = source
    · simp [hsource, Std.HashMap.getD_eq_getD_getElem?]
    · simp [hsource]

/-- The positions of entries lead to the entries. -/
theorem filterMap_getElem?_zipIdx (entries : List Entry) (condition : Entry → Bool) :
    ((entries.zipIdx.filter fun item => condition item.1).map Prod.snd).filterMap
      (fun position => entries[position]?) = entries.filter condition := by
  have hentry : ∀ item ∈ entries.zipIdx.filter fun item => condition item.1,
      ((fun position => entries[position]?) ∘ Prod.snd) item = (some ∘ Prod.fst) item := by
    intro item hitem
    exact List.mem_zipIdx_iff_getElem?.mp (List.mem_filter.mp hitem).1
  have hfirst : ((entries.zipIdx.map Prod.fst).filter condition) =
      (entries.zipIdx.filter fun item => condition item.1).map Prod.fst := List.filter_map
  calc _ = (entries.zipIdx.filter fun item => condition item.1).filterMap (some ∘ Prod.fst) := by
        rw [List.filterMap_map, List.filterMap_congr hentry]
    _ = (entries.zipIdx.filter fun item => condition item.1).map Prod.fst := by
        rw [List.filterMap_eq_map]
    _ = entries.filter condition := by rw [← hfirst, List.zipIdx_map_fst]

/-- Under a source an index has the valid entries of the source in the order of the text. -/
theorem candidates_build (text : String) (mode : Accumulation) (sourceCount nameCount : ℕ)
    (source : UInt32) : (build text mode sourceCount nameCount).candidates (some source) =
      ((Mappings.decode text mode).entries.filter (·.valid sourceCount nameCount)).filter
        (·.sourceIndex = source) := by
  have hbucket := toList_getD_file {}
    ((Mappings.decode text mode).entries.filter (·.valid sourceCount nameCount)).zipIdx source
  rw [candidates, build]
  simp only [hbucket, Std.HashMap.getD_empty, List.nil_append, List.getElem?_toArray]
  exact filterMap_getElem?_zipIdx _ fun e => e.sourceIndex = source

end Index

end OriginMap
