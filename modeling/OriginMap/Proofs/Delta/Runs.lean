import Mathlib.Data.Nat.Digits.Lemmas
import Mathlib.Tactic.Ring
import OriginMap.Delta.Meaning

/-!
# Segments are read run by run

The bytes of any segment fall into runs and a rest without an end, and a reader takes one number from each
run. Inside a run it holds the sum of the bits of the first twelve bytes: the bits of the next one fall
beside those it has, and there is no room for more. This goes on as long as the word in which the reader
counts the places does not come round to zero.
-/

namespace OriginMap.Delta

/-! ## Bytes -/

/-- The digit of a byte is its place in the alphabet. -/
theorem digit_of_getElem? {byte : UInt8} {d : ℕ}
    (h : alphabet[d]? = some (Char.ofNat byte.toNat)) : digit byte = d := by
  have hall : ∀ d < 64, (alphabet[d]?.map fun c => digit (UInt8.ofNat c.toNat)) = some d := by
    decide +kernel
  have hd : d < 64 := (List.getElem?_eq_some_iff.mp h).1
  have hcode : (Char.ofNat byte.toNat).toNat = byte.toNat := by
    have hvalid : byte.toNat.isValidChar := Or.inl (by have := byte.toNat_lt; omega)
    rw [Char.ofNat, dif_pos hvalid]
    rfl
  have hdigit := hall d hd
  rw [h, Option.map_some, hcode, UInt8.ofNat_toNat] at hdigit
  exact Option.some.inj hdigit

/-- A byte outside of the alphabet stands for zero. -/
theorem digit_of_notMem {byte : UInt8} (h : Char.ofNat byte.toNat ∉ alphabet) : digit byte = 0 := by
  have hall : ∀ n < 256, digit (UInt8.ofNat n) = 0 ∨
      alphabet[digit (UInt8.ofNat n)]? = some (Char.ofNat n) := by decide +kernel
  have hdigit := hall byte.toNat byte.toNat_lt
  rw [UInt8.ofNat_toNat] at hdigit
  exact hdigit.resolve_right fun hmem => h (List.mem_of_getElem? hmem)

/-- A number goes on after a digit that has the sixth bit. -/
theorem le_digit_iff (byte : UInt8) : 32 ≤ digit byte ↔ goesOn byte = true := by
  have hall : ∀ n < 256, 32 ≤ digit (UInt8.ofNat n) ↔ goesOn (UInt8.ofNat n) = true := by
    decide +kernel
  simpa using hall byte.toNat byte.toNat_lt

/-- The bits of a byte are five. -/
theorem bits_lt (byte : UInt8) : bits byte < 32 := Nat.mod_lt _ (by decide)

/-! ## Runs -/

/-- Takes in the bits of a byte. -/
def Accumulator.read (acc : Accumulator) (byte : UInt8) : Accumulator := acc.add (bits byte)

/-- Bytes after which a number goes on are taken in one after another. -/
theorem decodeFrom_append {front : List UInt8} (hfront : ∀ byte ∈ front, goesOn byte = true)
    (acc : Accumulator) (rest : List UInt8) :
    decodeFrom acc (front ++ rest) = decodeFrom (front.foldl Accumulator.read acc) rest := by
  induction front generalizing acc with
  | nil => rfl
  | cons byte front ih =>
    have hgoes := (le_digit_iff byte).mpr (hfront byte List.mem_cons_self)
    rw [List.cons_append, decodeFrom, if_pos hgoes, List.foldl_cons]
    exact ih (fun other hother => hfront other (List.mem_cons_of_mem byte hother)) _

/-- The accumulator after a whole run. -/
def Run.held (run : Run) : Accumulator := run.bytes.foldl Accumulator.read .start

/-- A run gives one number, and the next is begun anew. -/
theorem decodeFrom_run (run : Run) (rest : List UInt8) :
    decodeFrom .start (run.bytes ++ rest) = signed run.held.value :: decodeFrom .start rest := by
  have hends : ¬32 ≤ digit run.last := by simp [le_digit_iff, run.ends]
  rw [Run.bytes, List.append_assoc, decodeFrom_append run.goes, List.singleton_append, decodeFrom,
    if_neg hends, Run.held, Run.bytes, List.foldl_append]
  rfl

/-- Runs give one number each, in their order, and a rest without an end gives none. -/
theorem decodeFrom_runs (runs : List Run) {rest : List UInt8}
    (hrest : ∀ byte ∈ rest, goesOn byte = true) :
    decodeFrom .start (runs.flatMap Run.bytes ++ rest) = runs.map fun run => signed run.held.value := by
  induction runs with
  | nil =>
    have hnone := decodeFrom_append hrest .start []
    rw [List.append_nil] at hnone
    exact hnone
  | cons run runs ih =>
    rw [List.flatMap_cons, List.append_assoc, decodeFrom_run, ih, List.map_cons]

/-- Bytes after which a number goes on, and any bytes behind them, fall into runs and a rest. -/
theorem exists_runs {front : List UInt8} (hfront : ∀ byte ∈ front, goesOn byte = true)
    (bytes : List UInt8) : ∃ (runs : List Run) (rest : List UInt8),
      front ++ bytes = runs.flatMap Run.bytes ++ rest ∧ ∀ byte ∈ rest, goesOn byte = true := by
  induction bytes generalizing front with
  | nil => exact ⟨[], front, List.append_nil front, hfront⟩
  | cons byte bytes ih =>
    cases hbyte : goesOn byte with
    | true =>
      have hlonger : ∀ other ∈ front ++ [byte], goesOn other = true := by
        intro other hother
        rcases List.mem_append.mp hother with hother | hother
        · exact hfront other hother
        · rwa [List.mem_singleton.mp hother]
      obtain ⟨runs, rest, hsplit, hrest⟩ := ih hlonger
      exact ⟨runs, rest, by rw [← hsplit, List.append_assoc, List.singleton_append], hrest⟩
    | false =>
      have hnone : ∀ other ∈ ([] : List UInt8), goesOn other = true := by simp
      obtain ⟨runs, rest, hsplit, hrest⟩ := ih hnone
      refine ⟨⟨front, byte, hfront, hbyte⟩ :: runs, rest, ?_, hrest⟩
      rw [List.flatMap_cons, List.append_assoc, ← hsplit, Run.bytes, List.append_assoc]
      rfl

/-- There are as many runs as bytes that end a number. -/
theorem countP_runs (runs : List Run) {rest : List UInt8} (hrest : ∀ byte ∈ rest, goesOn byte = true) :
    (runs.flatMap Run.bytes ++ rest).countP (!goesOn ·) = runs.length := by
  have hnone {bytes : List UInt8} (hbytes : ∀ byte ∈ bytes, goesOn byte = true) :
      bytes.countP (!goesOn ·) = 0 := by
    rw [List.countP_eq_zero]
    intro byte hbyte
    simp [hbytes byte hbyte]
  induction runs with
  | nil => exact hnone hrest
  | cons run runs ih =>
    have hone : run.bytes.countP (!goesOn ·) = 1 := by
      rw [Run.bytes, List.countP_append, hnone run.goes]
      simp [run.ends]
    rw [List.flatMap_cons, List.append_assoc, List.countP_append, ih, hone, List.length_cons,
      Nat.add_comm]

/-! ## Numbers -/

/-- The place after the next digit is five on, in the word in which places are counted. -/
theorem place_succ (k : ℕ) : UInt32.ofNat (5 * k) + 5 = UInt32.ofNat (5 * (k + 1)) := by
  rw [Nat.mul_add, UInt32.ofNat_add]
  rfl

/-- The five bits of the digit with `k` digits before it stand at `32 ^ k`, as long as they fit the
word. -/
theorem Accumulator.add_of_lt {k v bits : ℕ} (hk : k ≤ 11) (hv : v < 32 ^ k) :
    Accumulator.add ⟨v, UInt32.ofNat (5 * k)⟩ bits =
      ⟨v + bits * 32 ^ k, UInt32.ofNat (5 * (k + 1))⟩ := by
  have hshift : (UInt32.ofNat (5 * k)).toNat = 5 * k := by
    rw [UInt32.toNat_ofNat_of_lt' (by simp [UInt32.size]; omega)]
  have hplace : UInt32.ofNat (5 * k) ≤ lastPlace := by
    rw [UInt32.le_iff_toNat_le, hshift]
    show 5 * k ≤ 55
    omega
  have hpow : (32 : ℕ) ^ k = 2 ^ (5 * k) := by rw [pow_mul]; norm_num
  have hor : v ||| bits <<< (5 * k) = v + bits * 32 ^ k := by
    rw [hpow] at hv
    rw [Nat.or_comm, ← Nat.shiftLeft_add_eq_or_of_lt hv, Nat.shiftLeft_eq, hpow]
    ring
  simp only [Accumulator.add, if_pos hplace, hshift, hor, place_succ]

/-- Past the twelfth digit there is no room, as long as the count of places fits its word. -/
theorem Accumulator.add_of_le {k v bits : ℕ} (hk : 12 ≤ k) (hplace : 5 * k < UInt32.size) :
    Accumulator.add ⟨v, UInt32.ofNat (5 * k)⟩ bits = ⟨v, UInt32.ofNat (5 * (k + 1))⟩ := by
  have hfull : ¬UInt32.ofNat (5 * k) ≤ lastPlace := by
    rw [UInt32.le_iff_toNat_le, UInt32.toNat_ofNat_of_lt' hplace]
    show ¬5 * k ≤ 55
    omega
  simp only [Accumulator.add, if_neg hfull, place_succ]

/-- Some bytes come to less than as many digits can. -/
theorem magnitudeOf_lt (bytes : List UInt8) : magnitudeOf bytes < 32 ^ bytes.length := by
  have hbits : ∀ b ∈ (bytes.take 12).map bits, b < 32 := by
    intro b hb
    obtain ⟨byte, -, rfl⟩ := List.mem_map.mp hb
    exact bits_lt byte
  refine (Nat.ofDigits_lt_base_pow_length (by decide) hbits).trans_le ?_
  refine Nat.pow_le_pow_right (by decide) ?_
  rw [List.length_map, List.length_take]
  omega

/-- What an accumulator holds after some bytes of a number. -/
def Accumulator.after (bytes : List UInt8) : Accumulator :=
  ⟨magnitudeOf bytes, UInt32.ofNat (5 * bytes.length)⟩

/-- One more byte is taken in while its place fits the word in which places are counted. -/
theorem Accumulator.read_after (bytes : List UInt8) (byte : UInt8)
    (hplace : 5 * bytes.length < UInt32.size) :
    (Accumulator.after bytes).read byte = .after (bytes ++ [byte]) := by
  have hlength : (bytes ++ [byte]).length = bytes.length + 1 := by simp
  rcases Nat.lt_or_ge bytes.length 12 with hroom | hfull
  · have hmagnitude : magnitudeOf (bytes ++ [byte]) =
        magnitudeOf bytes + bits byte * 32 ^ bytes.length := by
      have hall : bytes.take 12 = bytes := List.take_of_length_le (by omega)
      have hall' : (bytes ++ [byte]).take 12 = bytes ++ [byte] := List.take_of_length_le (by omega)
      rw [magnitudeOf, magnitudeOf, hall, hall', List.map_append, Nat.ofDigits_append,
        List.length_map, List.map_singleton, Nat.ofDigits_singleton, Nat.mul_comm]
    rw [after, read, add_of_lt (by omega) (magnitudeOf_lt bytes), after, hmagnitude, hlength]
  · have hmagnitude : magnitudeOf (bytes ++ [byte]) = magnitudeOf bytes := by
      rw [magnitudeOf, List.take_append_of_le_length hfull, magnitudeOf]
    rw [after, read, add_of_le hfull hplace, after, hmagnitude, hlength]

/-- After bytes whose places fit the word, an accumulator holds what they come to. -/
theorem Accumulator.foldl_read {bytes : List UInt8} (hplaces : 5 * bytes.length < UInt32.size) :
    bytes.foldl Accumulator.read .start = .after bytes := by
  induction bytes using List.reverseRecOn with
  | nil => rfl
  | append_singleton bytes byte ih =>
    rw [List.length_append, List.length_singleton] at hplaces
    rw [List.foldl_append, List.foldl_cons, List.foldl_nil, ih (by omega),
      read_after bytes byte (by omega)]

/-- The number of a run is read as it is, if the run fits. -/
theorem Run.Fits.signed_held {run : Run} (h : run.Fits) : signed run.held.value = run.value := by
  rw [Run.held, Run.bytes, List.foldl_append, List.foldl_cons, List.foldl_nil,
    Accumulator.foldl_read h, Accumulator.read_after run.front run.last h]
  rfl

/-- The bits of a byte stay within sixty at any place that they are shifted to. -/
theorem bits_shiftLeft_lt {place : ℕ} (hplace : place ≤ 55) (byte : UInt8) :
    bits byte <<< place < 2 ^ 60 := by
  have hbits := bits_lt byte
  calc bits byte <<< place = bits byte * 2 ^ place := Nat.shiftLeft_eq _ _
    _ ≤ bits byte * 2 ^ 55 := Nat.mul_le_mul_left _ (Nat.pow_le_pow_right (by decide) hplace)
    _ < 2 ^ 60 := by omega

/-- An accumulator never holds more than sixty bits. -/
theorem Accumulator.value_read_lt {acc : Accumulator} (h : acc.value < 2 ^ 60) (byte : UInt8) :
    (acc.read byte).value < 2 ^ 60 := by
  rw [read, add]
  simp only
  split
  · next hplace => exact Nat.or_lt_two_pow h (bits_shiftLeft_lt (UInt32.le_iff_toNat_le.mp hplace) byte)
  · exact h

/-- A number of sixty bits, the sign among them, has a magnitude of fifty-nine. -/
theorem natAbs_signed_lt {m : ℕ} (h : m < 2 ^ 60) : (signed m).natAbs < 2 ^ 59 := by
  unfold signed
  split <;> omega

/-- Whatever a run holds, its number has at most fifty-nine bits. -/
theorem Run.natAbs_signed_held_lt (run : Run) : (signed run.held.value).natAbs < 2 ^ 59 := by
  refine natAbs_signed_lt ?_
  rw [Run.held]
  generalize run.bytes = bytes
  induction bytes using List.reverseRecOn with
  | nil => decide
  | append_singleton bytes byte ih =>
    rw [List.foldl_append]
    exact Accumulator.value_read_lt ih byte

/-! ## Segments -/

/-- What a segment is read as. The digit of a byte is its place in the alphabet, and zero if it has none.
The bytes of the segment fall into runs and a rest after which a number only goes on; the rest gives no
number, and the runs give one each, in their order, so there is one for each byte after which no number
goes on. All numbers have at most fifty-nine bits. Each is the number that its run holds, if the places
of the run's bits fit the word in which they are counted. -/
theorem decode_eq_runs (segment : List Char) :
    let bytes := segment.flatMap String.utf8EncodeChar
    (∀ byte : UInt8, (∀ d, alphabet[d]? = some (Char.ofNat byte.toNat) → digit byte = d) ∧
      (Char.ofNat byte.toNat ∉ alphabet → digit byte = 0 ∧ goesOn byte = false)) ∧
    (decode segment).length = bytes.countP (!goesOn ·) ∧
    (∀ value ∈ decode segment, value.natAbs < 2 ^ 59) ∧
    ∃ (runs : List Run) (rest : List UInt8), bytes = runs.flatMap Run.bytes ++ rest ∧
      (∀ byte ∈ rest, goesOn byte = true) ∧ (decode segment).length = runs.length ∧
      ∀ (i : ℕ) (run : Run), runs[i]? = some run → run.Fits → (decode segment)[i]? = some run.value := by
  intro bytes
  have hnone : ∀ byte ∈ ([] : List UInt8), goesOn byte = true := by simp
  obtain ⟨runs, rest, hsplit, hrest⟩ := exists_runs hnone bytes
  rw [List.nil_append] at hsplit
  have hread : decode segment = runs.map fun run => signed run.held.value := by
    rw [← decodeFrom_runs runs hrest, ← hsplit]
    rfl
  refine ⟨fun byte => ⟨fun d => digit_of_getElem?, fun hbyte => ?_⟩, ?_, fun value hvalue => ?_,
    runs, rest, hsplit, hrest, by rw [hread, List.length_map], fun i run hrun hfits => ?_⟩
  · have hzero := digit_of_notMem hbyte
    refine ⟨hzero, ?_⟩
    rw [← Bool.not_eq_true, ← le_digit_iff, hzero]
    decide
  · rw [hread, hsplit, countP_runs runs hrest, List.length_map]
  · rw [hread] at hvalue
    obtain ⟨run, -, rfl⟩ := List.mem_map.mp hvalue
    exact run.natAbs_signed_held_lt
  · rw [hread, List.getElem?_map, hrun, Option.map_some, hfits.signed_held]

/-- Each byte of a character outside of the alphabet is a zero of its own, the thirteenth digit of a number
and those after it do not count, and digits without an end hold none. -/
theorem decode_eq_runs_of_oversized :
    let segment := "Cé//////////////Dg".toList
    let bytes := segment.flatMap String.utf8EncodeChar
    decode segment = [1, 0, 0, -576460752303423487] ∧ bytes.length = 19 ∧
      ∃ (runs : List Run) (rest : List UInt8), bytes = runs.flatMap Run.bytes ++ rest ∧
        (∀ run ∈ runs, run.Fits) ∧ decode segment = runs.map Run.value := by
  intro segment bytes
  obtain ⟨-, -, -, runs, rest, hsplit, -, hcount, hvalues⟩ := decode_eq_runs segment
  have hlength : bytes.length = 19 := by decide +kernel
  have hfits : ∀ run ∈ runs, run.Fits := by
    intro run hrun
    have hshare : run.bytes.length ≤ (runs.flatMap Run.bytes).length :=
      (List.sublist_flatten_of_mem (List.mem_map_of_mem hrun)).length_le
    have hwhole : bytes.length = (runs.flatMap Run.bytes ++ rest).length := congrArg List.length hsplit
    rw [hlength, List.length_append] at hwhole
    rw [Run.bytes, List.length_append] at hshare
    simp only [Run.Fits, UInt32.size]
    omega
  refine ⟨by decide +kernel, hlength, runs, rest, hsplit, hfits, List.ext_getElem? fun i => ?_⟩
  rw [List.getElem?_map]
  cases hrun : runs[i]? with
  | none =>
    rw [List.getElem?_eq_none_iff] at hrun
    exact List.getElem?_eq_none (by omega)
  | some run => exact hvalues i run hrun (hfits run (List.mem_of_getElem? hrun))

/-- So many digits without bits, and one with. -/
def Run.belated (count : ℕ) : Run where
  front := List.replicate count 103
  last := 67
  goes byte hbyte := by
    rw [List.eq_of_mem_replicate hbyte]
    decide
  ends := by decide

/-- Digits without bits only move the place of the next ones. -/
theorem Accumulator.foldl_read_replicate (count : ℕ) :
    (List.replicate count 103).foldl Accumulator.read .start = ⟨0, UInt32.ofNat (5 * count)⟩ := by
  induction count with
  | zero => rfl
  | succ count ih =>
    have hbits : bits 103 = 0 := by decide
    rw [List.replicate_succ', List.foldl_append, ih, List.foldl_cons, List.foldl_nil, read, hbits, add,
      place_succ]
    simp

/-- The bytes of digits without bits, and of what follows them. -/
theorem utf8_replicate_append (count : ℕ) (rest : List Char) :
    (List.replicate count 'g' ++ rest).flatMap String.utf8EncodeChar =
      List.replicate count 103 ++ rest.flatMap String.utf8EncodeChar := by
  have hg : String.utf8EncodeChar 'g' = [103] := by decide
  rw [List.flatMap_append, List.flatMap_replicate, hg, List.flatten_replicate_singleton]

/-- A number goes on after digits without bits. -/
theorem goesOn_replicate (count : ℕ) : ∀ byte ∈ List.replicate count (103 : UInt8), goesOn byte = true := by
  intro byte hbyte
  rw [List.eq_of_mem_replicate hbyte]
  decide

/-- What follows digits without bits is read at a later place. -/
theorem decode_replicate_append (count : ℕ) (rest : List Char) :
    decode (List.replicate count 'g' ++ rest) =
      decodeFrom ⟨0, UInt32.ofNat (5 * count)⟩ (rest.flatMap String.utf8EncodeChar) := by
  rw [decode, utf8_replicate_append, decodeFrom_append (goesOn_replicate count),
    Accumulator.foldl_read_replicate]

/-- Bits past the twelfth digit do not count in the number that a run holds. -/
theorem Run.value_belated {count : ℕ} (h : 12 ≤ count) : (Run.belated count).value = 0 := by
  have htake : (Run.belated count).bytes.take 12 = List.replicate 12 103 := by
    rw [bytes, belated, List.take_append_of_le_length (by simpa using h), List.take_replicate,
      Nat.min_eq_left h]
  rw [value, magnitudeOf, htake]
  decide

/-- When the word that counts places has come round, bits are taken in again, at the place four: the digit
after so many is the first to be. Its run holds zero, and is read as another number. -/
theorem bits_taken_in_again :
    ∃ run : Run, (List.replicate 858993460 'g' ++ ['C']).flatMap String.utf8EncodeChar = run.bytes ∧
      run.value = 0 ∧ decode (List.replicate 858993460 'g' ++ ['C']) = [16] := by
  refine ⟨.belated 858993460, utf8_replicate_append _ _, Run.value_belated (by decide), ?_⟩
  rw [decode_replicate_append]
  decide

end OriginMap.Delta
