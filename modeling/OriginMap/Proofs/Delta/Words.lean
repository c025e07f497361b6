import Mathlib.Data.List.DropRight
import OriginMap.Proofs.Delta.Runs

/-!
# The words of a reader

A reader of segments computes in machine words: what it holds of a number in a signed one of sixty-four
bits, the place of the next digit in one of thirty-two. The first is wide enough for every segment, since
a reader takes in twelve digits at most. The second counts on past them, five for each digit, and is wide
enough exactly for numbers of fewer than 858993460 digits; after that many it comes round to the place
four, and the next digit is taken in once more.
-/

namespace OriginMap.Delta

/-! ## Between two bytes -/

/-- What a reader goes on with after a byte: the number that goes on, or the next one, of which nothing is
read yet. -/
def Accumulator.next (acc : Accumulator) (byte : UInt8) : Accumulator :=
  if goesOn byte then acc.read byte else .start

/-- What a reader holds after some bytes. -/
def Accumulator.reached (front : List UInt8) : Accumulator := front.foldl Accumulator.next .start

/-- How many digits some bytes end with of a number that goes on. -/
def pending (front : List UInt8) : ℕ := (front.rtakeWhile goesOn).length

/-- The numbers of some bytes and of those after them, which are read with what is held by then. -/
theorem decodeFrom_append_eq (acc : Accumulator) (front rest : List UInt8) :
    decodeFrom acc (front ++ rest) =
      decodeFrom acc front ++ decodeFrom (front.foldl Accumulator.next acc) rest := by
  induction front generalizing acc with
  | nil => rfl
  | cons byte front ih =>
    rw [List.cons_append, decodeFrom, decodeFrom, List.foldl_cons, Accumulator.next]
    by_cases hgoes : goesOn byte = true
    · rw [if_pos ((le_digit_iff byte).mpr hgoes), if_pos ((le_digit_iff byte).mpr hgoes), if_pos hgoes]
      exact ih _
    · have hends : ¬32 ≤ digit byte := (le_digit_iff byte).not.mpr hgoes
      rw [if_neg hends, if_neg hends, if_neg hgoes, ih, List.cons_append]

/-- One more digit is pending after a byte after which the number goes on, and none after another. -/
theorem pending_concat (front : List UInt8) (byte : UInt8) :
    pending (front ++ [byte]) = if goesOn byte then pending front + 1 else 0 := by
  rw [pending, List.rtakeWhile_concat, apply_ite List.length, List.length_append]
  rfl

/-- Bytes after which a number goes on are all pending. -/
theorem pending_of_goesOn {front : List UInt8} (h : ∀ byte ∈ front, goesOn byte = true) :
    pending front = front.length := by
  rw [pending, List.rtakeWhile_eq_self_iff.mpr h]

/-- They are taken in one after another. -/
theorem Accumulator.reached_of_goesOn {front : List UInt8} (h : ∀ byte ∈ front, goesOn byte = true) :
    reached front = front.foldl Accumulator.read .start := by
  refine List.foldl_ext _ _ _ fun acc byte hbyte => ?_
  rw [next, if_pos (h byte hbyte)]

/-- No more digits are pending than there are bytes. -/
theorem pending_le_length (front : List UInt8) : pending front ≤ front.length :=
  (List.rtakeWhile_suffix goesOn front).length_le

/-- Before a byte with some digits pending there was one with each smaller number of them. -/
theorem exists_pending_eq {front : List UInt8} {k : ℕ} (h : k ≤ pending front) (byte : UInt8)
    (rest : List UInt8) : ∃ (before : List UInt8) (byte' : UInt8) (rest' : List UInt8),
      front ++ byte :: rest = before ++ byte' :: rest' ∧ pending before = k := by
  induction front using List.reverseRecOn generalizing byte rest with
  | nil => exact ⟨[], byte, rest, rfl, (Nat.le_zero.mp h).symm⟩
  | append_singleton front last ih =>
    rcases h.eq_or_lt with hall | hearlier
    · exact ⟨front ++ [last], byte, rest, rfl, hall.symm⟩
    · have hfront : k ≤ pending front := by
        rw [pending_concat] at hearlier
        split at hearlier <;> omega
      obtain ⟨before, byte', rest', hsplit, hbefore⟩ := ih hfront last (byte :: rest)
      refine ⟨before, byte', rest', ?_, hbefore⟩
      rw [← hsplit, List.append_assoc, List.singleton_append]

/-! ## Ranges -/

/-- What words hold while `k` digits of a number are pending: no more than sixty bits of the number, and
the count of places, which may have come round. -/
structure Accumulator.Holds (acc : Accumulator) (k : ℕ) : Prop where
  /-- The bits read so far are sixty at most. -/
  value_lt : acc.value < 2 ^ 60
  /-- Five places were counted for each digit. -/
  shift_eq : acc.shift = UInt32.ofNat (5 * k)

/-- At the start of a number nothing is pending. -/
theorem Accumulator.holds_start : Accumulator.start.Holds 0 := ⟨by decide, rfl⟩

/-- With one more byte taken in, one more digit is pending. -/
theorem Accumulator.Holds.read {acc : Accumulator} {k : ℕ} (h : acc.Holds k) (byte : UInt8) :
    (acc.read byte).Holds (k + 1) where
  value_lt := value_read_lt h.value_lt byte
  shift_eq := by
    rw [← place_succ, ← h.shift_eq]
    rfl

/-- After any bytes, a reader holds what is pending of them. -/
theorem Accumulator.holds_reached (front : List UInt8) : (reached front).Holds (pending front) := by
  induction front using List.reverseRecOn with
  | nil => exact holds_start
  | append_singleton front byte ih =>
    rw [reached, List.foldl_append, List.foldl_cons, List.foldl_nil, next, pending_concat]
    split
    · exact ih.read byte
    · exact holds_start

variable {acc : Accumulator} {k : ℕ}

/-- The count of places is what thirty-two bits hold of it. -/
theorem Accumulator.Holds.toNat_shift (h : acc.Holds k) : acc.shift.toNat = 5 * k % 2 ^ 32 := by
  rw [h.shift_eq, UInt32.toNat_ofNat']

/-- The count of places is exact up to the largest value of its word. -/
theorem Accumulator.Holds.toNat_shift_of_lt (h : acc.Holds k) (hk : k < 858993460) :
    acc.shift.toNat = 5 * k := by
  rw [h.toNat_shift, Nat.mod_eq_of_lt (by omega)]

/-- Until then, only the first twelve digits of a number are taken in. -/
theorem Accumulator.Holds.taken_iff (h : acc.Holds k) (hk : k < 858993460) :
    acc.shift ≤ lastPlace ↔ k < 12 := by
  rw [UInt32.le_iff_toNat_le, h.toNat_shift_of_lt hk]
  show 5 * k ≤ 55 ↔ k < 12
  omega

/-! ## Segments -/

/-- The words of a reader suffice at every byte of every segment, but for the count of places. The bits
that it has, those that it shifts into place, and those that come of both are sixty at most; it shifts by
fifty-five at most; and the finished number has fifty-nine, so that its negation fits as well. The count of
places stays exact all along a segment exactly when no number in it has more than 858993459 digits, and
then no digit of a number is taken in after the twelfth. -/
theorem words_suffice_iff (segment : List Char) :
    let bytes := segment.flatMap String.utf8EncodeChar
    (∀ front byte rest, bytes = front ++ byte :: rest →
      let acc := Accumulator.reached front
      decode segment = decodeFrom .start front ++ decodeFrom acc (byte :: rest) ∧
      acc.value < 2 ^ 60 ∧ (acc.read byte).value < 2 ^ 60 ∧
      (acc.shift ≤ lastPlace → acc.shift.toNat ≤ 55 ∧ bits byte <<< acc.shift.toNat < 2 ^ 60) ∧
      (signed (acc.read byte).value).natAbs < 2 ^ 59 ∧
      acc.shift.toNat = 5 * pending front % 2 ^ 32) ∧
    ((∀ front byte rest, bytes = front ++ byte :: rest →
        let acc := Accumulator.reached front
        acc.shift.toNat + 5 < 2 ^ 32 ∧ (acc.shift ≤ lastPlace ↔ pending front < 12)) ↔
      ∀ front byte rest, bytes = front ++ byte :: rest → pending front < 858993459) := by
  intro bytes
  constructor
  · intro front byte rest hsplit acc
    have hholds := Accumulator.holds_reached front
    have hnext := (hholds.read byte).value_lt
    have hread := decodeFrom_append_eq .start front (byte :: rest)
    rw [← hsplit] at hread
    refine ⟨hread, hholds.value_lt, hnext, fun hplace => ?_, natAbs_signed_lt hnext, hholds.toNat_shift⟩
    have hshift : acc.shift.toNat ≤ 55 := UInt32.le_iff_toNat_le.mp hplace
    exact ⟨hshift, bits_shiftLeft_lt hshift byte⟩
  constructor
  · -- The count overflows at the first byte with so many digits pending, which need not be this one.
    intro hwords front byte rest hsplit
    by_contra hlong
    obtain ⟨before, byte', rest', hbefore, hpending⟩ :=
      exists_pending_eq (Nat.le_of_not_lt hlong) byte rest
    have hfits := (hwords before byte' rest' (hsplit.trans hbefore)).1
    have hlargest := (Accumulator.holds_reached before).toNat_shift_of_lt (by omega)
    omega
  · intro hshort front byte rest hsplit acc
    have hholds := Accumulator.holds_reached front
    have hpending := hshort front byte rest hsplit
    have hcount : acc.shift.toNat = 5 * pending front := hholds.toNat_shift_of_lt (by omega)
    exact ⟨by omega, hholds.taken_iff (by omega)⟩

/-- Of forty digits with all bits set and a last one, the first twelve fill the sixty bits; the others are
counted, and leave the number as it is. -/
theorem words_suffice_iff_of_oversized :
    let bytes := (List.replicate 40 '/' ++ ['A']).flatMap String.utf8EncodeChar
    let front := List.replicate 40 (47 : UInt8)
    let acc := Accumulator.reached front
    bytes = front ++ 65 :: [] ∧ acc = ⟨1152921504606846975, 200⟩ ∧ acc.value < 2 ^ 60 ∧
      (signed (acc.read 65).value).natAbs < 2 ^ 59 ∧
      (∀ front byte rest, bytes = front ++ byte :: rest → pending front < 858993459) ∧
      acc.shift.toNat + 5 < 2 ^ 32 ∧ (acc.shift ≤ lastPlace ↔ pending front < 12) := by
  intro bytes front acc
  have hsplit : bytes = front ++ 65 :: [] := by decide +kernel
  have hshort : ∀ front byte rest, bytes = front ++ byte :: rest → pending front < 858993459 := by
    intro before byte rest hsplit'
    have hlength := congrArg List.length (hsplit.symm.trans hsplit')
    have hpending := pending_le_length before
    simp only [List.length_append, List.length_cons, List.length_nil, front, List.length_replicate]
      at hlength
    omega
  obtain ⟨hsteps, hcounts⟩ := words_suffice_iff (List.replicate 40 '/' ++ ['A'])
  obtain ⟨-, hvalue, -, -, hsigned, -⟩ := hsteps front 65 [] hsplit
  have hplace := hcounts.mpr hshort front 65 [] hsplit
  exact ⟨hsplit, by decide +kernel, hvalue, hsigned, hshort, hplace.1, hplace.2⟩

/-- The word that counts places holds its largest value after 858993459 digits of a number and is four
after the next, so that the digit after that is taken in again. -/
theorem counter_comes_round :
    let digits := fun count => List.replicate count (103 : UInt8)
    (List.replicate 858993460 'g' ++ ['D']).flatMap String.utf8EncodeChar = digits 858993460 ++ [68] ∧
      (Accumulator.reached (digits 858993459)).shift.toNat = 2 ^ 32 - 1 ∧
      pending (digits 858993460) = 858993460 ∧
      Accumulator.reached (digits 858993460) = ⟨0, 4⟩ ∧
      decode (List.replicate 858993460 'g' ++ ['D']) = [24] := by
  intro digits
  have hreached (count : ℕ) :
      Accumulator.reached (digits count) = ⟨0, UInt32.ofNat (5 * count)⟩ := by
    rw [Accumulator.reached_of_goesOn (goesOn_replicate count), Accumulator.foldl_read_replicate]
  refine ⟨utf8_replicate_append _ _, ?_, ?_, ?_, ?_⟩
  · rw [hreached]
    decide
  · rw [pending_of_goesOn (goesOn_replicate _), List.length_replicate]
  · rw [hreached]
    decide
  · rw [decode_replicate_append]
    decide

end OriginMap.Delta
