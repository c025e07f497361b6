import OriginMap.Proofs.Delta.Runs

/-!
# Segments are read back

A segment that holds given numbers is read as those numbers, whatever follows it. Every number is
written as a run of digits of five bits. Twelve of them fit the reader's word, one bit of which is the
sign, and this bounds the numbers: one of more than fifty-nine bits is read without the bits above.
-/

namespace OriginMap.Delta

/-- A Base64 digit is a single byte, which stands for it. -/
theorem map_digit_digitChar :
    ∀ d < 64, (String.utf8EncodeChar (digitChar d)).map digit = [d] := by
  decide

/-- A Base64 digit separates neither lines nor pieces. -/
theorem digitChar_ne_separator : ∀ d < 64, digitChar d ≠ ';' ∧ digitChar d ≠ ',' := by
  decide

/-- The byte of a Base64 digit. -/
theorem utf8EncodeChar_digitChar {d : ℕ} (hd : d < 64) :
    ∃ byte, String.utf8EncodeChar (digitChar d) = [byte] ∧ digit byte = d := by
  obtain ⟨byte, hbyte, hdigit⟩ := List.map_eq_singleton_iff.mp (map_digit_digitChar d hd)
  exact ⟨byte, hbyte, hdigit⟩

/-- The digits of a magnitude are a run, of which they are the bits. A magnitude below `32 ^ (k + 1)` has
no more than `k` digits before the last. -/
theorem exists_run_encodeMagnitude (m : ℕ) : ∃ run : Run,
    (encodeMagnitude m).flatMap String.utf8EncodeChar = run.bytes ∧
      Nat.ofDigits 32 (run.bytes.map bits) = m ∧
      ∀ k, m < 32 ^ (k + 1) → run.front.length ≤ k := by
  induction m using Nat.strongRecOn with
  | ind m ih =>
    rw [encodeMagnitude]
    by_cases hlast : m < 32
    · obtain ⟨byte, hbyte, hdigit⟩ := utf8EncodeChar_digitChar (show m < 64 by omega)
      have hbits : bits byte = m := by rw [bits, hdigit, Nat.mod_eq_of_lt hlast]
      have hends : goesOn byte = false := by
        rw [← Bool.not_eq_true, ← le_digit_iff, hdigit]
        omega
      refine ⟨⟨[], byte, by simp, hends⟩, ?_, ?_, fun k _ => Nat.zero_le k⟩
      · rw [if_pos hlast, List.flatMap_singleton, hbyte]
        rfl
      · rw [Run.bytes, List.nil_append, List.map_singleton, Nat.ofDigits_singleton, hbits]
    · obtain ⟨byte, hbyte, hdigit⟩ := utf8EncodeChar_digitChar (show m % 32 + 32 < 64 by omega)
      have hbits : bits byte = m % 32 := by rw [bits, hdigit, Nat.add_mod_right, Nat.mod_mod]
      have hgoes : goesOn byte = true := by
        rw [← le_digit_iff, hdigit]
        omega
      obtain ⟨run, hrun, hdigits, hlength⟩ := ih (m / 32) (by omega)
      have hfront : ∀ other ∈ byte :: run.front, goesOn other = true :=
        List.forall_mem_cons.mpr ⟨hgoes, run.goes⟩
      refine ⟨⟨byte :: run.front, run.last, hfront, run.ends⟩, ?_, ?_, fun k hm => ?_⟩
      · rw [if_neg hlast, List.flatMap_cons, hbyte, hrun]
        rfl
      · show Nat.ofDigits 32 ((byte :: run.bytes).map bits) = m
        rw [List.map_cons, Nat.ofDigits_cons, hdigits, hbits, Nat.mod_add_div]
      · cases k with
        | zero =>
          rw [Nat.zero_add, pow_one] at hm
          exact absurd hm hlast
        | succ k =>
          have hquotient : m / 32 < 32 ^ (k + 1) := by
            rw [pow_succ] at hm
            omega
          exact Nat.succ_le_succ (hlength k hquotient)

/-- Of a magnitude the twelve lowest digits are read, if the places of all its digits fit the word in
which they are counted. -/
theorem decodeFrom_encodeMagnitude {m k : ℕ} (hm : m < 32 ^ (k + 1)) (hk : 5 * k < UInt32.size)
    (rest : List UInt8) :
    decodeFrom .start ((encodeMagnitude m).flatMap String.utf8EncodeChar ++ rest) =
      signed (m % 32 ^ 12) :: decodeFrom .start rest := by
  obtain ⟨run, hrun, hdigits, hlength⟩ := exists_run_encodeMagnitude m
  have hfits : run.Fits := by
    have hfront := hlength k hm
    unfold Run.Fits
    omega
  have hvalue : magnitudeOf run.bytes = m % 32 ^ 12 := by
    have hbits : ∀ b ∈ run.bytes.map bits, b < 32 := by
      intro b hb
      obtain ⟨byte, -, rfl⟩ := List.mem_map.mp hb
      exact bits_lt byte
    rw [magnitudeOf, List.map_take, ← Nat.ofDigits_mod_pow_eq_ofDigits_take 12 (by decide) _ hbits,
      hdigits]
  rw [hrun, decodeFrom_run, hfits.signed_held, Run.value, hvalue]

/-- The signed number of a number's magnitude is the number. -/
theorem signed_magnitude (value : ℤ) : signed (magnitude value) = value := by
  unfold signed magnitude
  by_cases hneg : value < 0
  · rw [if_pos hneg, if_pos (by omega)]
    omega
  · rw [if_neg hneg, if_neg (by omega)]
    omega

/-- Numbers of up to fifty-nine bits are read back, and then what follows them. -/
theorem decode_encode_append {values : List ℤ} (hvalues : ∀ value ∈ values, value.natAbs < 2 ^ 59)
    (rest : List Char) : decode (encode values ++ rest) = values ++ decode rest := by
  induction values with
  | nil => rfl
  | cons value values ih =>
    have hvalue := hvalues value (by simp)
    have hmagnitude : magnitude value < 32 ^ (11 + 1) := by
      unfold magnitude
      split <;> omega
    have htail := ih fun other hother => hvalues other (by simp [hother])
    have hhead := decodeFrom_encodeMagnitude hmagnitude (by decide)
      ((encode values ++ rest).flatMap String.utf8EncodeChar)
    rw [Nat.mod_eq_of_lt hmagnitude, signed_magnitude] at hhead
    rw [List.cons_append, ← htail]
    simpa [decode, encode, List.flatMap_append] using hhead

/-- Numbers of up to fifty-nine bits are read back from their segment. -/
theorem decode_encode {values : List ℤ} (hvalues : ∀ value ∈ values, value.natAbs < 2 ^ 59) :
    decode (encode values) = values := by
  simpa [decode, decodeFrom] using decode_encode_append hvalues []

/-- The magnitude of a number of up to sixty-two bits fits the writer's signed word of sixty-four. -/
theorem magnitude_lt {value : ℤ} (h : value.natAbs < 2 ^ 62) : magnitude value < 2 ^ 63 := by
  unfold magnitude
  split <;> omega

/-- Without the bits past the sixtieth of its magnitude, a number keeps its sign and has no bits past
the fifty-ninth. -/
theorem signed_magnitude_mod (value : ℤ) :
    signed (magnitude value % 32 ^ 12) = value.sign * (value.natAbs % 2 ^ 59 : ℕ) := by
  unfold signed magnitude
  by_cases hneg : value < 0
  · rw [if_pos hneg, if_pos (by omega), Int.sign_eq_neg_one_of_neg hneg]
    omega
  · rw [if_neg hneg, if_neg (by omega)]
    rcases (Int.not_lt.mp hneg).eq_or_lt with hzero | hpos
    · simp [← hzero]
    · rw [Int.sign_eq_one_of_pos hpos]
      omega

/-- Of a number of up to sixty-two bits the lowest fifty-nine are read, with its sign. -/
theorem decode_encode_singleton {value : ℤ} (h : value.natAbs < 2 ^ 62) :
    decode (encode [value]) = [value.sign * (value.natAbs % 2 ^ 59 : ℕ)] := by
  have hmagnitude : magnitude value < 32 ^ (12 + 1) := (magnitude_lt h).trans (by norm_num)
  have hread := decodeFrom_encodeMagnitude hmagnitude (by decide) []
  rw [List.append_nil, signed_magnitude_mod] at hread
  rw [decode, encode, List.flatMap_singleton, hread]
  rfl

/-- Fifty-nine bits are the exact range of numbers that are read back. Numbers within it are read back
from their segment, whatever follows them. Of a number beyond it the lowest fifty-nine bits are read, with
its sign, and so another number; this is said of all numbers whose magnitudes fit the writer's word. -/
theorem decode_encode_exact :
    (∀ values : List ℤ, (∀ value ∈ values, value.natAbs < 2 ^ 59) →
      decode (encode values) = values ∧
        ∀ rest, decode (encode values ++ rest) = values ++ decode rest) ∧
    ∀ value : ℤ, 2 ^ 59 ≤ value.natAbs → value.natAbs < 2 ^ 62 →
      decode (encode [value]) = [value.sign * (value.natAbs % 2 ^ 59 : ℕ)] ∧
        decode (encode [value]) ≠ [value] := by
  refine ⟨fun values hvalues => ⟨decode_encode hvalues, decode_encode_append hvalues⟩,
    fun value hlow hhigh => ?_⟩
  have hread := decode_encode_singleton hhigh
  refine ⟨hread, fun hsame => ?_⟩
  rw [hread] at hsame
  have hvalue := congrArg Int.natAbs (List.head_eq_of_cons_eq hsame)
  have hlost : value.natAbs % 2 ^ 59 < 2 ^ 59 := Nat.mod_lt _ (by decide)
  rw [Int.natAbs_mul, Int.natAbs_natCast] at hvalue
  have hsign : value.sign.natAbs ≤ 1 := by
    rcases Int.sign_trichotomy value with h | h | h <;> simp [h]
  have hbound := Nat.mul_le_mul_right (value.natAbs % 2 ^ 59) hsign
  omega

/-- Numbers at both ends of the range are read back before an unfinished one; the first beyond it is read
as zero, and one of sixty-two bits as what its lowest bits are. -/
theorem decode_encode_exact_at_ends :
    decode (encode [576460752303423487, -576460752303423487] ++ ['!', 'g']) =
        [576460752303423487, -576460752303423487, 0] ∧
      decode (encode [-576460752303423488]) = [0] ∧
      decode (encode [-4611686018427387903]) = [-576460752303423487] := by
  obtain ⟨hwithin, hbeyond⟩ := decode_encode_exact
  have hends := (hwithin [576460752303423487, -576460752303423487] (by decide)).2 ['!', 'g']
  have hfirst := (hbeyond (-576460752303423488) (by decide) (by decide)).1
  have hlast := (hbeyond (-4611686018427387903) (by decide) (by decide)).1
  exact ⟨hends, hfirst, hlast⟩

/-- A magnitude is written in Base64 digits, of which there is at least one. -/
theorem encodeMagnitude_digits (m : ℕ) :
    encodeMagnitude m ≠ [] ∧ ∀ c ∈ encodeMagnitude m, ∃ d < 64, c = digitChar d := by
  induction m using Nat.strongRecOn with
  | ind m ih =>
    rw [encodeMagnitude]
    by_cases hlast : m < 32
    · rw [if_pos hlast]
      exact ⟨by simp, fun c hc => ⟨m, by omega, by simpa using hc⟩⟩
    · rw [if_neg hlast]
      refine ⟨by simp, fun c hc => ?_⟩
      rcases List.mem_cons.mp hc with rfl | hc
      · exact ⟨m % 32 + 32, by omega, rfl⟩
      · exact (ih (m / 32) (by omega)).2 c hc

/-- No segment holds a separator of lines or pieces. -/
theorem separator_notMem_encode (values : List ℤ) : ';' ∉ encode values ∧ ',' ∉ encode values := by
  have hdigit : ∀ c ∈ encode values, c ≠ ';' ∧ c ≠ ',' := by
    intro c hc
    obtain ⟨value, _, hc⟩ := List.mem_flatMap.mp hc
    obtain ⟨d, hd, rfl⟩ := (encodeMagnitude_digits _).2 c hc
    exact digitChar_ne_separator d hd
  exact ⟨fun h => (hdigit _ h).1 rfl, fun h => (hdigit _ h).2 rfl⟩

/-- The segment of some numbers is not empty. -/
theorem encode_ne_nil {values : List ℤ} (hvalues : values ≠ []) : encode values ≠ [] := by
  obtain ⟨value, rest, rfl⟩ := List.exists_cons_of_ne_nil hvalues
  simp [encode, (encodeMagnitude_digits _).1]

end OriginMap.Delta
