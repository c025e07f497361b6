import Mathlib.Algebra.BigOperators.Group.List.Basic
import Mathlib.Data.List.Sort
import Mathlib.Data.UInt
import OriginMap.Stats

/-!
# What statistics say

The rows of statistics are the artifacts, sorted by the bytes of their keys; rows of one key stay in the
order given. Keys are in a linear order, so statistics over artifacts of different keys do not depend on
the order in which the artifacts are given. The total is the sum of the sizes, and there are no statistics
when a word of sixty-four bits cannot hold that sum.
-/

namespace OriginMap

namespace Key

/-- The order of keys is that of two lists of bytes, one after the other. -/
theorem compare_eq : (compare : Key → Key → Ordering) =
    compareLex (compareOn fun key => utf8 key.application) (compareOn fun key => utf8 key.version) :=
  rfl

instance : Std.TransOrd Key :=
  inferInstanceAs (Std.TransCmp (compareLex (compareOn fun key : Key => utf8 key.application)
    (compareOn fun key : Key => utf8 key.version)))

/-- Of two texts the bytes compare as smaller if they come first in the order of lists of bytes. -/
theorem compare_bytes_eq_lt {a b : Bytes} : compare a b = .lt ↔ a < b := by
  rw [List.compare_eq_compareLex]
  induction a generalizing b with
  | nil => cases b <;> simp [List.compareLex]
  | cons x a ih =>
    cases b with
    | nil => simp [List.compareLex]
    | cons y b =>
      rw [List.compareLex_cons_cons, Ordering.then_eq_lt, Std.compare_eq_lt, Std.compare_eq_iff_eq, ih,
        List.cons_lt_cons_iff]

/-- They compare as no greater if the others do not come first. -/
theorem isLE_compare_bytes {a b : Bytes} : (compare a b).isLE = true ↔ a ≤ b := by
  rw [Ordering.isLE_iff_ne_gt, Std.OrientedCmp.gt_iff_lt, compare_bytes_eq_lt, List.not_lt]

/-- Texts with the same bytes are the same. -/
theorem utf8_injective {text text' : String} (h : utf8 text = utf8 text') : text = text' := by
  have hread := ofUtf8?_utf8 text
  rw [h, ofUtf8?_utf8] at hread
  exact (Option.some.inj hread).symm

/-- Keys that compare as equal are the same. -/
theorem eq_of_compare_eq {a b : Key} (h : compare a b = .eq) : a = b := by
  rw [compare_eq, compareLex_eq_eq] at h
  obtain ⟨happlication, hversion⟩ := h
  obtain ⟨application, version⟩ := a
  obtain ⟨application', version'⟩ := b
  rw [Key.mk.injEq]
  exact ⟨utf8_injective (Std.compare_eq_iff_eq.mp happlication),
    utf8_injective (Std.compare_eq_iff_eq.mp hversion)⟩

end Key

/-- Whether a row may stand before another. -/
def ArtifactStat.upTo (a b : ArtifactStat) : Prop := (compare a.key b.key).isLE = true

instance : DecidableRel ArtifactStat.upTo :=
  fun a b => inferInstanceAs (Decidable ((compare a.key b.key).isLE = true))

/-- Rows stand in the order of the bytes of their applications, and within one application of those of
their versions. -/
theorem ArtifactStat.upTo_iff {a b : ArtifactStat} : a.upTo b ↔
    utf8 a.key.application < utf8 b.key.application ∨
      utf8 a.key.application = utf8 b.key.application ∧ utf8 a.key.version ≤ utf8 b.key.version := by
  rw [ArtifactStat.upTo, Key.compare_eq, compareLex, compareOn, compareOn, Ordering.isLE_then_iff_or,
    Key.compare_bytes_eq_lt, Std.compare_eq_iff_eq, Key.isLE_compare_bytes]

/-- Rows that may stand in a row may be passed over. -/
theorem ArtifactStat.upTo_trans {a b c : ArtifactStat} (h : a.upTo b) (h' : b.upTo c) : a.upTo c :=
  Std.TransCmp.isLE_trans h h'

/-- Of two rows one may stand before the other. -/
theorem ArtifactStat.upTo_total (a b : ArtifactStat) : a.upTo b ∨ b.upTo a := by
  have hswap : compare b.key a.key = (compare a.key b.key).swap := Std.OrientedCmp.eq_swap
  rw [ArtifactStat.upTo, ArtifactStat.upTo, hswap]
  cases compare a.key b.key <;> simp

/-- The comparison that rows are sorted by can be passed over. -/
theorem ArtifactStat.isLE_trans (a b c : ArtifactStat) (h : (compare a.key b.key).isLE = true)
    (h' : (compare b.key c.key).isLE = true) : (compare a.key c.key).isLE = true :=
  ArtifactStat.upTo_trans h h'

/-- The comparison that rows are sorted by holds of two rows in one order or the other. -/
theorem ArtifactStat.isLE_total (a b : ArtifactStat) :
    ((compare a.key b.key).isLE || (compare b.key a.key).isLE) = true := by
  simpa only [Bool.or_eq_true, ArtifactStat.upTo] using ArtifactStat.upTo_total a b

instance : IsTrans ArtifactStat ArtifactStat.upTo := ⟨fun _ _ _ => ArtifactStat.upTo_trans⟩

instance : Std.Total ArtifactStat.upTo := ⟨ArtifactStat.upTo_total⟩

/-- Rows of different keys are sorted in one way only. -/
theorem eq_of_perm_of_pairwise {rows rows' : List ArtifactStat} (h : rows.Perm rows')
    (hkeys : (rows.map ArtifactStat.key).Nodup) (hrows : rows.Pairwise ArtifactStat.upTo)
    (hrows' : rows'.Pairwise ArtifactStat.upTo) : rows = rows' := by
  refine h.eq_of_pairwise ?_ hrows hrows'
  intro a b ha hb hab hba
  have hkey := Key.eq_of_compare_eq (Std.OrientedCmp.isLE_antisymm hab hba)
  exact List.inj_on_of_nodup_map hkeys ha (h.mem_iff.mpr hb) hkey

/-- Sorting keeps the artifacts. -/
theorem sorted_perm (artifacts : List ArtifactStat) :
    (ArtifactStat.sorted artifacts).Perm artifacts :=
  List.mergeSort_perm artifacts _

/-- Sorted artifacts stand in order. -/
theorem pairwise_sorted (artifacts : List ArtifactStat) :
    (ArtifactStat.sorted artifacts).Pairwise ArtifactStat.upTo :=
  List.pairwise_mergeSort ArtifactStat.isLE_trans ArtifactStat.isLE_total artifacts

/-- Artifacts of different keys are sorted alike, in whatever order they are given. -/
theorem sorted_eq {artifacts rows : List ArtifactStat} (h : artifacts.Perm rows)
    (hkeys : (rows.map ArtifactStat.key).Nodup) :
    ArtifactStat.sorted artifacts = rows.insertionSort ArtifactStat.upTo := by
  have hmerged := (sorted_perm artifacts).trans h
  exact eq_of_perm_of_pairwise (hmerged.trans (List.perm_insertionSort _ _).symm)
    ((hmerged.map ArtifactStat.key).nodup_iff.mpr hkeys) (pairwise_sorted artifacts)
    (List.pairwise_insertionSort _ _)

/-- Those of one key stand in the order in which they were given. -/
theorem filter_sorted (artifacts : List ArtifactStat) (key : Key) :
    (ArtifactStat.sorted artifacts).filter (·.key = key) = artifacts.filter (·.key = key) := by
  -- Rows of one key are in order as they are, and sorting is stable.
  have hrows : (artifacts.filter (·.key = key)).Pairwise
      fun a b => (compare a.key b.key).isLE = true := by
    refine List.pairwise_of_forall_mem_list fun a ha b hb => ?_
    rw [of_decide_eq_true (List.mem_filter.mp ha).2, of_decide_eq_true (List.mem_filter.mp hb).2]
    simp
  have hsublist := (List.sublist_mergeSort ArtifactStat.isLE_trans ArtifactStat.isLE_total hrows
    List.filter_sublist).filter (·.key = key)
  rw [List.filter_filter] at hsublist
  simp only [Bool.and_self] at hsublist
  have hperm := (sorted_perm artifacts).filter (·.key = key)
  exact (hsublist.eq_of_length hperm.length_eq.symm).symm

/-! ## Totals -/

/-- The sizes of some artifacts, added up without a bound. -/
def exactTotal (artifacts : List ArtifactStat) : ℕ :=
  (artifacts.map fun artifact => artifact.sizeBytes.toNat).sum

/-- The size of the first artifact and those of the others. -/
theorem exactTotal_cons (artifact : ArtifactStat) (artifacts : List ArtifactStat) :
    exactTotal (artifact :: artifacts) = artifact.sizeBytes.toNat + exactTotal artifacts := by
  rw [exactTotal, exactTotal, List.map_cons, List.sum_cons]

/-- What artifacts come to does not depend on their order. -/
theorem exactTotal_perm {artifacts rows : List ArtifactStat} (h : artifacts.Perm rows) :
    exactTotal artifacts = exactTotal rows :=
  (h.map fun artifact : ArtifactStat => artifact.sizeBytes.toNat).sum_eq

/-- Adding one size after another, with a check at every step, is a single check of what all of them come
to: a sum on the way is too large only if the last one is. -/
theorem foldlM_addTo (total : UInt64) (artifacts : List ArtifactStat) :
    artifacts.foldlM ArtifactStat.addTo total = long? (total.toNat + exactTotal artifacts : ℕ) := by
  induction artifacts generalizing total with
  | nil =>
    have htotal : ((total.toNat + exactTotal [] : ℕ) : ℤ) = total.toNat := by simp [exactTotal]
    exact (long?_eq_some_iff.mpr htotal).symm
  | cons artifact artifacts ih =>
    rw [List.foldlM_cons, exactTotal_cons]
    cases hstep : ArtifactStat.addTo total artifact with
    | none =>
      rw [ArtifactStat.addTo, ← Nat.cast_add, long?_natCast] at hstep
      split_ifs at hstep with hfits
      rw [long?_natCast, if_neg (by omega)]
      rfl
    | some next =>
      have hnext : ((total.toNat : ℤ) + artifact.sizeBytes.toNat) = next.toNat :=
        long?_eq_some_iff.mp hstep
      have hsum : total.toNat + (artifact.sizeBytes.toNat + exactTotal artifacts) =
          next.toNat + exactTotal artifacts := by omega
      rw [hsum]
      exact ih next

/-- There are statistics exactly when a word holds what the sizes come to, and then they say it. -/
theorem ofArtifacts_eq (artifacts : List ArtifactStat) :
    Stats.ofArtifacts artifacts =
      if exactTotal artifacts < UInt64.size then
        some ⟨artifacts.length, UInt64.ofNat (exactTotal artifacts), ArtifactStat.sorted artifacts⟩
      else none := by
  have htotal := foldlM_addTo 0 (ArtifactStat.sorted artifacts)
  rw [exactTotal_perm (sorted_perm artifacts), UInt64.toNat_zero, Nat.zero_add, long?_natCast] at htotal
  rw [Stats.ofArtifacts, htotal, (sorted_perm artifacts).length_eq]
  split_ifs <;> rfl

/-- Statistics over artifacts of different keys are the same in whatever order the artifacts are given. -/
theorem ofArtifacts_of_perm {artifacts rows : List ArtifactStat} (h : artifacts.Perm rows)
    (hkeys : (rows.map ArtifactStat.key).Nodup) :
    Stats.ofArtifacts artifacts =
      if exactTotal rows < UInt64.size then
        some ⟨rows.length, UInt64.ofNat (exactTotal rows), rows.insertionSort ArtifactStat.upTo⟩
      else none := by
  rw [ofArtifacts_eq, exactTotal_perm h, h.length_eq, sorted_eq h hkeys]

/-- Either the sizes of some artifacts come to more than a word holds, and there are no statistics over
them, or there are. They then have a row for each artifact, and the rows stand in the order of the bytes
of their applications and then of their versions, those of one key in the order in which they were given.
Their number is the count, and the total is the sum of the sizes. -/
theorem Stats.exact_or_absent (artifacts : List ArtifactStat) :
    (2 ^ 64 ≤ exactTotal artifacts ∧ Stats.ofArtifacts artifacts = none) ∨
      (exactTotal artifacts < 2 ^ 64 ∧ ∃ stats, Stats.ofArtifacts artifacts = some stats ∧
        stats.perArtifact.Perm artifacts ∧
        stats.perArtifact.Pairwise (fun a b => utf8 a.key.application < utf8 b.key.application ∨
          utf8 a.key.application = utf8 b.key.application ∧
            utf8 a.key.version ≤ utf8 b.key.version) ∧
        (∀ key, stats.perArtifact.filter (·.key = key) = artifacts.filter (·.key = key)) ∧
        stats.count = stats.perArtifact.length ∧
        stats.totalBytes.toNat = exactTotal artifacts) := by
  have hstats := ofArtifacts_eq artifacts
  by_cases hfits : exactTotal artifacts < UInt64.size
  · rw [if_pos hfits] at hstats
    refine Or.inr ⟨hfits, _, hstats, sorted_perm artifacts,
      (pairwise_sorted artifacts).imp ArtifactStat.upTo_iff.mp, filter_sorted artifacts, ?_, ?_⟩
    · exact (sorted_perm artifacts).length_eq.symm
    · exact UInt64.toNat_ofNat_of_lt' hfits
  · rw [if_neg hfits] at hstats
    exact Or.inl ⟨Nat.le_of_not_lt hfits, hstats⟩

/-- There are no statistics over two artifacts of which one has the largest size and the other a single
byte. -/
theorem Stats.absent_of_oversized :
    let artifacts : List ArtifactStat :=
      [⟨⟨"web", "1"⟩, 18446744073709551615, ⟨0, 0⟩⟩, ⟨⟨"web", "2"⟩, 1, ⟨0, 0⟩⟩]
    Stats.ofArtifacts artifacts = none ∧ exactTotal artifacts = 18446744073709551616 := by
  intro artifacts
  have htotal : exactTotal artifacts = 18446744073709551616 := by decide
  have hstats : Stats.ofArtifacts artifacts = none := by
    rw [ofArtifacts_eq, htotal, if_neg (by decide)]
  exact ⟨hstats, htotal⟩

end OriginMap
