/-!
# Machine words

Which integers fit a word: an unsigned one of thirty-two or sixty-four bits, or a signed one of
sixty-four. Main statements: an integer gives a word exactly when it is the word's value.
-/

namespace OriginMap

/-- Whether an integer fits a signed word of sixty-four bits. -/
def fitsSigned (n : Int) : Bool := -9223372036854775808 ≤ n && n < 9223372036854775808

/-- The 32-bit word of an integer, if it fits one. -/
def word? (n : Int) : Option UInt32 :=
  if 0 ≤ n ∧ n < UInt32.size then some (UInt32.ofNat n.toNat) else none

/-- The 64-bit word of an integer, if it fits one. -/
def long? (n : Int) : Option UInt64 :=
  if 0 ≤ n ∧ n < UInt64.size then some (UInt64.ofNat n.toNat) else none

/-- An integer gives the 32-bit word of which it is the value. -/
theorem word?_eq_some_iff {n : Int} {w : UInt32} : word? n = some w ↔ n = w.toNat := by
  rw [word?]
  constructor
  · intro h
    split at h
    · next hn =>
      obtain rfl := Option.some.inj h
      have hsize : n.toNat < UInt32.size := by omega
      rw [UInt32.toNat_ofNat_of_lt' hsize]
      omega
    · cases h
  · rintro rfl
    have hsize := w.toNat_lt_size
    rw [if_pos (by omega), Int.toNat_natCast, UInt32.ofNat_toNat]

/-- A natural number gives a 64-bit word if it is below the number of these words. -/
theorem long?_natCast (n : Nat) :
    long? n = if n < UInt64.size then some (UInt64.ofNat n) else none := by
  rw [long?, Int.toNat_natCast]
  by_cases hn : n < UInt64.size
  · rw [if_pos hn, if_pos (by omega)]
  · rw [if_neg hn, if_neg (by omega)]

/-- An integer gives the 64-bit word of which it is the value. -/
theorem long?_eq_some_iff {n : Int} {w : UInt64} : long? n = some w ↔ n = w.toNat := by
  rw [long?]
  constructor
  · intro h
    split at h
    · next hn =>
      obtain rfl := Option.some.inj h
      have hsize : n.toNat < UInt64.size := by omega
      rw [UInt64.toNat_ofNat_of_lt' hsize]
      omega
    · cases h
  · rintro rfl
    have hsize := w.toNat_lt_size
    rw [if_pos (by omega), Int.toNat_natCast, UInt64.ofNat_toNat]

end OriginMap
