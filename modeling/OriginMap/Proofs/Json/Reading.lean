import Mathlib.Data.Nat.Notation
import OriginMap.Json.Record
import OriginMap.Proofs.Json.Spelling

/-!
# Spellings read back

The readers of texts, numbers, lists and records give back what was spelled, whatever the spelling is, and
stop right behind it. As every value is written in one of its spellings, what was written is read back.
-/

namespace OriginMap.Json

/-! ## Blanks -/

/-- Blanks are skipped. -/
theorem skipBlank_append {blanks : Bytes} (hblanks : Blanks blanks) (rest : Bytes) :
    skipBlank (blanks ++ rest) = skipBlank rest :=
  List.dropWhile_append_of_pos hblanks

/-- Nothing is skipped before what is no blank. -/
theorem skipBlank_cons {b : UInt8} (hb : isBlank b = false) (rest : Bytes) :
    skipBlank (b :: rest) = b :: rest := by
  rw [skipBlank, List.dropWhile_cons_of_neg (by simp [hb])]

/-! ## Strings -/

/-- A character that needs no escape has no byte that would need one. -/
theorem plain_of_mem_utf8EncodeChar {c : Char} (hcontrol : 0x20 ≤ c.toNat) (hquote : c ≠ '"')
    (hslash : c ≠ '\\') : ∀ b ∈ String.utf8EncodeChar c,
      ¬b < 0x20 ∧ b ≠ ascii '"' ∧ b ≠ ascii '\\' := by
  intro b hb
  rcases Nat.lt_or_ge c.toNat 128 with hc | hc
  · rw [utf8EncodeChar_of_lt hc, List.mem_singleton] at hb
    subst hb
    have hvalue : (ascii c).toNat = c.toNat := by
      rw [ascii, UInt8.toNat_ofNat']
      omega
    have happart (d : Char) (hd : d.toNat < 128) (hne : c ≠ d) : ascii c ≠ ascii d := by
      intro h
      have := congrArg UInt8.toNat h
      rw [hvalue, ascii, UInt8.toNat_ofNat'] at this
      exact hne (Char.toNat_inj.mp (by omega))
    refine ⟨?_, happart _ (by decide) hquote, happart _ (by decide) hslash⟩
    rw [UInt8.lt_iff_toNat_lt, hvalue]
    exact Nat.not_lt.mpr hcontrol
  · have hlarge := le_of_mem_utf8EncodeChar hc b hb
    refine ⟨?_, ?_, ?_⟩
    · rw [UInt8.lt_iff_toNat_lt]
      exact Nat.not_lt.mpr (Nat.le_trans (by decide) hlarge)
    all_goals
      rintro rfl
      revert hlarge
      decide

/-- A quote ends a string. -/
theorem stringBytes_quote (seen rest : Bytes) :
    stringBytes seen (ascii '"' :: rest) = .ok (seen.reverse, rest) := by
  rw [stringBytes.eq_def]
  exact if_pos rfl

/-- A byte that needs no escape is taken in as it is. -/
theorem stringBytes_cons {b : UInt8} (hb : ¬b < 0x20 ∧ b ≠ ascii '"' ∧ b ≠ ascii '\\')
    (seen rest : Bytes) : stringBytes seen (b :: rest) = stringBytes (b :: seen) rest := by
  rw [stringBytes.eq_def]
  simp only [if_neg hb.1, if_neg hb.2.1, if_pos hb.2.2]

/-- A backslash starts an escape. -/
theorem backslash_escapes : ascii '\\' ≠ ascii '"' ∧ ¬ascii '\\' < 0x20 := by
  decide

/-- An escape of one letter is taken in as what it stands for. -/
theorem stringBytes_short {e b : UInt8} (he : shortEscape? e = some b) (seen rest : Bytes) :
    stringBytes seen (ascii '\\' :: e :: rest) = stringBytes (b :: seen) rest := by
  have hletter : e ≠ ascii 'u' := by
    rintro rfl
    rw [show shortEscape? (ascii 'u') = none by decide] at he
    cases he
  rw [stringBytes.eq_def]
  simp only [if_neg backslash_escapes.1, if_neg backslash_escapes.2, ne_eq, not_true_eq_false,
    if_false, if_pos hletter, he]

/-- An escape of four hexadecimal digits is taken in as its character. -/
theorem stringBytes_hexadecimal {a₀ a₁ a₂ a₃ : UInt8} {n : ℕ}
    (hn : hexValue4? a₀ a₁ a₂ a₃ = some n) (hwhole : isSurrogate n = false) (seen rest : Bytes) :
    stringBytes seen (ascii '\\' :: ascii 'u' :: a₀ :: a₁ :: a₂ :: a₃ :: rest) =
      stringBytes (pushChar (Char.ofNat n) seen) rest := by
  obtain ⟨hleading, htrailing⟩ := Bool.or_eq_false_iff.mp hwhole
  rw [stringBytes.eq_def]
  simp only [if_neg backslash_escapes.1, if_neg backslash_escapes.2, ne_eq, not_true_eq_false,
    if_false, hn, hleading, htrailing, Bool.false_eq_true]

/-- Two escapes of a surrogate pair are taken in as its character. -/
theorem stringBytes_pair {a₀ a₁ a₂ a₃ b₀ b₁ b₂ b₃ : UInt8} {n m : ℕ}
    (hn : hexValue4? a₀ a₁ a₂ a₃ = some n) (hm : hexValue4? b₀ b₁ b₂ b₃ = some m)
    (hleading : isLeading n = true) (htrailing : isTrailing m = true) (seen rest : Bytes) :
    stringBytes seen (ascii '\\' :: ascii 'u' :: a₀ :: a₁ :: a₂ :: a₃ ::
        ascii '\\' :: ascii 'u' :: b₀ :: b₁ :: b₂ :: b₃ :: rest) =
      stringBytes (pushChar (pairChar n m) seen) rest := by
  have hother : isTrailing n = false := by
    simp only [isLeading, isTrailing, Bool.and_eq_true, decide_eq_true_eq, Bool.and_eq_false_iff,
      decide_eq_false_iff_not] at hleading ⊢
    omega
  rw [stringBytes.eq_def]
  simp only [if_neg backslash_escapes.1, if_neg backslash_escapes.2, ne_eq, not_true_eq_false,
    if_false, hn, hm, hleading, htrailing, hother, Bool.false_eq_true, if_true]

/-- Bytes that need no escape are taken in as they are. -/
theorem stringBytes_plain {bytes : Bytes}
    (hbytes : ∀ b ∈ bytes, ¬b < 0x20 ∧ b ≠ ascii '"' ∧ b ≠ ascii '\\') (seen rest : Bytes) :
    stringBytes seen (bytes ++ rest) = stringBytes (bytes.reverse ++ seen) rest := by
  induction bytes generalizing seen with
  | nil => rfl
  | cons b bytes ih =>
    rw [List.cons_append, stringBytes_cons (hbytes b (by simp)),
      ih (fun c hc => hbytes c (by simp [hc]))]
    simp

/-- What a one-letter escape stands for is a character of one byte. -/
theorem utf8EncodeChar_shortEscape {e b : UInt8} (he : shortEscape? e = some b) :
    String.utf8EncodeChar (Char.ofNat b.toNat) = [b] := by
  simp only [shortEscape?] at he
  split_ifs at he <;>
    · obtain rfl := Option.some.inj he
      decide

/-- The spelling of some characters is taken in as their bytes. -/
theorem stringBytes_spelled {chars : List Char} {bytes : Bytes} (h : SpellsChars chars bytes)
    (seen rest : Bytes) :
    stringBytes seen (bytes ++ ascii '"' :: rest) = .ok (seen.reverse ++ bytesOf chars, rest) := by
  induction h generalizing seen with
  | nil => rw [List.nil_append, stringBytes_quote, bytesOf_nil, List.append_nil]
  | plain hlarge hquote hslash h ih =>
    rw [List.append_assoc, stringBytes_plain (plain_of_mem_utf8EncodeChar hlarge hquote hslash), ih]
    simp [bytesOf_cons]
  | short he h ih =>
    rw [List.cons_append, List.cons_append, stringBytes_short he, ih]
    simp [bytesOf_cons, utf8EncodeChar_shortEscape he]
  | hexadecimal hn hwhole h ih =>
    simp only [List.cons_append]
    rw [stringBytes_hexadecimal hn hwhole, ih]
    simp [bytesOf_cons, pushChar]
  | pair hn hm hleading htrailing h ih =>
    simp only [List.cons_append]
    rw [stringBytes_pair hn hm hleading htrailing, ih]
    simp [bytesOf_cons, pushChar]

/-- A spelled string is read up to its closing quote. -/
theorem string_spelled {s : String} {bytes : Bytes} (h : SpellsChars s.toList bytes)
    (rest : Bytes) : string (bytes ++ ascii '"' :: rest) = .ok (s, rest) := by
  have htext : ofUtf8? (bytesOf s.toList) = some s := ofUtf8?_utf8 s
  simp only [string, stringBytes_spelled h, Bind.bind, Except.bind, List.reverse_nil,
    List.nil_append, htext]
  rfl

/-! ## Readers and values -/

/-- What may stand behind a value: nothing, or a blank, a comma or a closing bracket. -/
def Stops (rest : Bytes) : Prop :=
  ∀ b ∈ rest.head?, isBlank b = true ∨ b = ascii ',' ∨ b = ascii ']' ∨ b = ascii '\x7d'

/-- A reader reads a value, however it is spelled. -/
def Reads {α : Type} (read : Reader α) (v : Value) (a : α) : Prop :=
  ∀ before bytes rest, Blanks before → Spells (.value v) bytes → Stops rest →
    read (before ++ (bytes ++ rest)) = .ok (a, rest)

/-- A reader refuses a value, however it is spelled. -/
def Refuses {α : Type} (read : Reader α) (v : Value) (fault : Fault) : Prop :=
  ∀ before bytes rest, Blanks before → Spells (.value v) bytes → Stops rest →
    read (before ++ (bytes ++ rest)) = .error fault

/-- Texts are read. -/
theorem reads_text (s : String) : Reads text (.text s) s := by
  intro before bytes rest hbefore hspelled _
  cases hspelled with
  | text h =>
    rw [text, skipBlank_append hbefore, List.append_assoc, List.cons_append, List.singleton_append,
      skipBlank_cons (by decide)]
    simp only [if_true, string_spelled h]

/-! ## Numbers -/

/-- A digit as a byte. -/
theorem digitValue_ascii_digitChar : ∀ d < 10, digitValue (ascii (Nat.digitChar d)) = d := by
  decide

/-- The digits of a number below the bound of a word are all taken in. -/
theorem pushAll_toDigits {n : ℕ} (hn : n < UInt64.size) :
    Significand.pushAll ⟨0, 0⟩ ((Nat.toDigits 10 n).map ascii) = ⟨n, 0⟩ := by
  induction n using Nat.strong_induction_on with
  | _ n ih =>
    by_cases hsmall : n < 10
    · rw [Nat.toDigits_of_lt_base hsmall]
      simp [Significand.pushAll, Significand.push, digitValue_ascii_digitChar n hsmall, hn]
    · have hfront := ih (n / 10) (by omega) (by omega)
      have hlast : n / 10 * 10 + n % 10 = n := Nat.div_add_mod' n 10
      rw [Significand.pushAll] at hfront ⊢
      rw [Nat.toDigits_of_base_le (by omega) (by omega), List.map_append, List.foldl_append, hfront]
      simp [Significand.push, digitValue_ascii_digitChar (n % 10) (by omega), hlast, hn]

/-- Digits are digits as bytes, too. -/
theorem isDigit_ascii {c : Char} (hc : Text.isDigit c = true) : isDigit (ascii c) = true := by
  obtain ⟨hlow, hhigh⟩ := Text.isDigit_iff.mp hc
  have hvalue : (ascii c).toNat = c.toNat := by
    rw [ascii, UInt8.toNat_ofNat']
    omega
  simp only [isDigit, Bool.and_eq_true, decide_eq_true_eq, UInt8.le_iff_toNat_le, hvalue]
  exact ⟨hlow, hhigh⟩

/-- The digits of a number are digits. -/
theorem isDigit_of_mem_toDigits {n : ℕ} {b : UInt8}
    (hb : b ∈ (Nat.toDigits 10 n).map ascii) : isDigit b = true := by
  obtain ⟨c, hc, rfl⟩ := List.mem_map.mp hb
  apply isDigit_ascii
  rw [Text.isDigit_eq]
  exact Nat.isDigit_of_mem_toDigits (by omega) (by omega) hc

/-- A digit is neither a blank nor a sign. -/
theorem not_isBlank_of_isDigit {b : UInt8} (hb : isDigit b = true) :
    isBlank b = false ∧ b ≠ ascii '-' := by
  constructor
  · rw [Bool.eq_false_iff]
    intro h
    simp only [isBlank, Bool.or_eq_true, decide_eq_true_eq] at h
    rcases h with ((rfl | rfl) | rfl) | rfl <;> revert hb <;> decide
  · rintro rfl
    revert hb
    decide

/-- The byte behind a number belongs to no number. -/
theorem Stops.apart {b : UInt8} {rest : Bytes} (h : Stops (b :: rest)) :
    isDigit b = false ∧ b ≠ ascii '.' ∧ b ≠ ascii 'e' ∧ b ≠ ascii 'E' := by
  have hb := h b rfl
  simp only [isBlank, Bool.or_eq_true, decide_eq_true_eq] at hb
  rcases hb with ((((rfl | rfl) | rfl) | rfl) | rfl | rfl | rfl) <;> decide

/-- The digits of a number do not start with a zero that others follow. -/
theorem leadingZero_toDigits {n : ℕ} {b : UInt8} {more : Bytes}
    (hdigits : (Nat.toDigits 10 n).map ascii = b :: more) {rest : Bytes} (hrest : Stops rest) :
    (b = ascii '0' && (more ++ rest).head?.any isDigit) = false := by
  rcases Nat.eq_zero_or_pos n with rfl | hpos
  · have hzero : b = ascii '0' ∧ more = [] := by
      simpa [Nat.toDigits_zero, eq_comm] using hdigits
    rw [hzero.2, List.nil_append]
    cases rest with
    | nil => simp
    | cons d rest => simp [hrest.apart.1]
  · cases hchars : Nat.toDigits 10 n with
    | nil => exact absurd hchars Nat.toDigits_ne_nil
    | cons c chars =>
      have hfront := Text.head?_toDigits hpos
      have hdigit : Text.isDigit c = true := by
        rw [Text.isDigit_eq]
        exact Nat.isDigit_of_mem_toDigits (b := 10) (n := n) (by omega) (by omega) (by simp [hchars])
      obtain ⟨hlow, hhigh⟩ := Text.isDigit_iff.mp hdigit
      rw [hchars] at hdigits hfront
      have hb : b = ascii c := (List.cons.inj hdigits).1.symm
      have hne : b ≠ ascii '0' := by
        intro h
        have hvalue := congrArg UInt8.toNat (hb.symm.trans h)
        simp only [ascii, UInt8.toNat_ofNat'] at hvalue
        have hzero : c = '0' := by
          have : '0'.toNat = 48 := rfl
          exact Char.toNat_inj.mp (by omega)
        exact hfront (congrArg some hzero)
      simp [hne]

/-- The digits of a number are read as that number. -/
theorem number_toDigits {n : ℕ} (hn : n < UInt64.size) {rest : Bytes} (hrest : Stops rest) :
    number false ((Nat.toDigits 10 n).map ascii ++ rest) = .ok (some (UInt64.ofNat n), rest) := by
  have hdigits : ∀ b ∈ (Nat.toDigits 10 n).map ascii, isDigit b = true :=
    fun b hb => isDigit_of_mem_toDigits hb
  have hstop : rest.takeWhile isDigit = [] ∧ rest.dropWhile isDigit = rest := by
    cases rest with
    | nil => exact ⟨rfl, rfl⟩
    | cons b rest => simp [hrest.apart.1]
  have htake : ((Nat.toDigits 10 n).map ascii ++ rest).takeWhile isDigit =
      (Nat.toDigits 10 n).map ascii := by
    rw [List.takeWhile_append_of_pos hdigits, hstop.1, List.append_nil]
  have hdrop : ((Nat.toDigits 10 n).map ascii ++ rest).dropWhile isDigit = rest := by
    rw [List.dropWhile_append_of_pos hdigits, hstop.2]
  have hpush := pushAll_toDigits hn
  cases hbytes : (Nat.toDigits 10 n).map ascii with
  | nil => exact absurd (List.map_eq_nil_iff.mp hbytes) Nat.toDigits_ne_nil
  | cons b more =>
    have hzero := leadingZero_toDigits hbytes hrest
    rw [hbytes] at hdigits htake hdrop hpush
    rw [List.cons_append] at htake hdrop ⊢
    rw [number, if_neg (by simp [hdigits b (by simp)]), if_neg (by rw [hzero]; decide), htake, hdrop, hpush]
    cases rest with
    | nil => rfl
    | cons d rest =>
      obtain ⟨-, hpoint, hlower, hupper⟩ := hrest.apart
      simp [hpoint, hlower, hupper, number.plain, number.whole]

/-- A natural number is written as its digits. -/
theorem numberText_natural (n : ℕ) : numberText n 0 = Nat.toDigits 10 n := by
  have hlength : 1 - (Nat.toDigits 10 n).length = 0 :=
    Nat.sub_eq_zero_of_le Nat.length_toDigits_pos
  have hsign : ¬(n : ℤ) < 0 := by omega
  rw [numberText, if_neg hsign, if_pos rfl, List.nil_append, Text.padded, Int.natAbs_natCast,
    Nat.zero_add, hlength]
  rfl

/-- Natural numbers below the bound of a word are read. -/
theorem reads_natural {n : ℕ} (hn : n < UInt64.size) :
    Reads natural (.natural n) (UInt64.ofNat n) := by
  intro before bytes rest hbefore hspelled hrest
  have hbytes : bytes = (Nat.toDigits 10 n).map ascii := by
    rw [← numberText_natural]
    rw [Value.natural] at hspelled
    cases hspelled
    rfl
  have hnumber := number_toDigits hn hrest
  rw [← hbytes] at hnumber
  rw [natural, skipBlank_append hbefore]
  cases bytes with
  | nil => exact absurd (List.map_eq_nil_iff.mp hbytes.symm) Nat.toDigits_ne_nil
  | cons b more =>
    have hdigit : isDigit b = true := isDigit_of_mem_toDigits (hbytes ▸ List.mem_cons_self)
    obtain ⟨hblank, hsign⟩ := not_isBlank_of_isDigit hdigit
    rw [List.cons_append] at hnumber ⊢
    rw [skipBlank_cons hblank]
    simp only [hdigit, Bool.or_true, if_true, if_neg hsign, hnumber, Bind.bind, Except.bind]
    rfl

/-! ## Brackets -/

/-- A number starts with a sign or a digit. -/
theorem numberText_eq_cons (digits : ℤ) (places : ℕ) :
    ∃ c chars, numberText digits places = c :: chars ∧ (c = '-' ∨ Text.isDigit c = true) := by
  have hlength := Text.le_length_padded (places + 1) digits.natAbs
  obtain ⟨c, chars, hall, hc⟩ := Text.padded_eq_cons (Nat.succ_pos places) digits.natAbs
  rw [numberText, hall]
  by_cases hsign : digits < 0
  · rw [if_pos hsign]
    exact ⟨'-', _, rfl, Or.inl rfl⟩
  · rw [if_neg hsign, List.nil_append]
    by_cases hplaces : places = 0
    · rw [if_pos hplaces]
      exact ⟨c, chars, rfl, Or.inr hc⟩
    · rw [hall, List.length_cons] at hlength
      obtain ⟨count, hcount⟩ := Nat.exists_eq_add_of_lt hlength
      have htake : (c :: chars).length - places = count + 1 := by
        rw [List.length_cons]
        omega
      rw [if_neg hplaces, htake]
      exact ⟨c, _, rfl, Or.inr hc⟩

/-- The first byte of a value is no blank, comma or closing bracket, and says whether it is null. -/
theorem spells_value_eq_cons {v : Value} {bytes : Bytes} (h : Spells (.value v) bytes) :
    ∃ b more, bytes = b :: more ∧ isBlank b = false ∧ b ≠ ascii ']' ∧ b ≠ ascii '\x7d' ∧
      (b = ascii 'n' → v = .null) := by
  cases h with
  | number digits places =>
    obtain ⟨c, chars, htext, hc⟩ := numberText_eq_cons digits places
    refine ⟨ascii c, chars.map ascii, by rw [htext, List.map_cons], ?_⟩
    rcases hc with rfl | hc
    · exact ⟨by decide, by decide, by decide, fun h => absurd h (by decide)⟩
    · have hdigit := isDigit_ascii hc
      have happart (d : UInt8) (hd : isDigit d = false) : ascii c ≠ d := by
        rintro rfl
        rw [hdigit] at hd
        cases hd
      exact ⟨(not_isBlank_of_isDigit hdigit).1, happart _ (by decide), happart _ (by decide),
        fun hn => absurd hn (happart _ (by decide))⟩
  | null => exact ⟨_, _, rfl, by decide, by decide, by decide, fun _ => rfl⟩
  | true => exact ⟨_, _, rfl, by decide, by decide, by decide, fun h => absurd h (by decide)⟩
  | false => exact ⟨_, _, rfl, by decide, by decide, by decide, fun h => absurd h (by decide)⟩
  | text => exact ⟨_, _, rfl, by decide, by decide, by decide, fun h => absurd h (by decide)⟩
  | emptyList => exact ⟨_, _, rfl, by decide, by decide, by decide, fun h => absurd h (by decide)⟩
  | list => exact ⟨_, _, rfl, by decide, by decide, by decide, fun h => absurd h (by decide)⟩
  | emptyObject => exact ⟨_, _, rfl, by decide, by decide, by decide, fun h => absurd h (by decide)⟩
  | object => exact ⟨_, _, rfl, by decide, by decide, by decide, fun h => absurd h (by decide)⟩

/-- The first part in a bracket, and what comes behind it. -/
theorem spells_inside_cons {closing : Char} {part : Part} {parts : List Part} {bytes : Bytes}
    (h : Spells (.inside closing (part :: parts)) bytes) :
    ∃ before first after more, Blanks before ∧ Spells part first ∧ Blanks after ∧
      bytes = before ++ (first ++ (after ++ more)) ∧
        ((parts = [] ∧ more = [ascii closing]) ∨
          ∃ rest, more = ascii ',' :: rest ∧ Spells (.inside closing parts) rest) := by
  cases h with
  | last hbefore h hafter =>
    exact ⟨_, _, _, _, hbefore, h, hafter, by simp, Or.inl ⟨rfl, rfl⟩⟩
  | more hbefore h hafter hrest =>
    exact ⟨_, _, _, _, hbefore, h, hafter, by simp, Or.inr ⟨_, rfl, hrest⟩⟩

/-- There are as many commas and brackets as there are parts. -/
theorem length_le_of_spells_inside {closing : Char} {parts : List Part} {bytes : Bytes}
    (h : Spells (.inside closing parts) bytes) : parts.length ≤ bytes.length := by
  induction parts generalizing bytes with
  | nil => exact Nat.zero_le _
  | cons part parts ih =>
    obtain ⟨before, first, after, more, -, -, -, rfl, ⟨rfl, rfl⟩ | ⟨rest, rfl, hrest⟩⟩ :=
      spells_inside_cons h
    · simp only [List.length_append, List.length_cons, List.length_nil]
      omega
    · have := ih hrest
      simp only [List.length_append, List.length_cons]
      omega

/-- Blanks before a value are skipped, and nothing of the value. -/
theorem skipBlank_spelled {v : Value} {before bytes : Bytes} (hbefore : Blanks before)
    (h : Spells (.value v) bytes) (more rest : Bytes) :
    skipBlank (before ++ (bytes ++ more) ++ rest) = [] ++ (bytes ++ (more ++ rest)) := by
  obtain ⟨b, tail, rfl, hblank, -⟩ := spells_value_eq_cons h
  rw [List.append_assoc, skipBlank_append hbefore, List.cons_append, List.cons_append,
    skipBlank_cons hblank]
  simp

/-- Blanks with a comma or a closing bracket behind them may stand behind a value. -/
theorem stops_append {after : Bytes} (hafter : Blanks after) {b : UInt8}
    (hb : b = ascii ',' ∨ b = ascii ']' ∨ b = ascii '\x7d') (rest : Bytes) :
    Stops (after ++ b :: rest) := by
  intro c hc
  cases after with
  | nil =>
    obtain rfl : b = c := by simpa using hc
    exact Or.inr hb
  | cons a after =>
    obtain rfl : a = c := by simpa using hc
    exact Or.inl (hafter a List.mem_cons_self)

/-! ## Lists -/

section List

variable {α : Type} {read : Reader α} {write : α → Value}

/-- Behind a comma stands the next element. -/
theorem nextElement_comma {after : Bytes} (hafter : Blanks after) {input : Bytes} {b : UInt8}
    {more : Bytes} (hinput : skipBlank input = b :: more) (hb : b ≠ ascii ']') :
    nextElement false (after ++ ascii ',' :: input) = .ok (some (b :: more)) := by
  rw [nextElement, skipBlank_append hafter, skipBlank_cons (by decide)]
  simp only [show ascii ',' ≠ ascii ']' by decide, if_false, if_true, hinput, if_neg hb,
    Bool.false_eq_true]

/-- Behind the last element stands the closing bracket. -/
theorem nextElement_closing {after : Bytes} (hafter : Blanks after) (first : Bool) (rest : Bytes) :
    nextElement first (after ++ ascii ']' :: rest) = .ok none := by
  rw [nextElement, skipBlank_append hafter, skipBlank_cons (by decide)]
  exact if_pos rfl

/-- The closing bracket is passed over. -/
theorem closeList_closing {after : Bytes} (hafter : Blanks after) (rest : Bytes) :
    closeList (after ++ ascii ']' :: rest) = .ok rest := by
  rw [closeList, skipBlank_append hafter, skipBlank_cons (by decide)]
  exact if_pos rfl

/-- The elements in a bracket are read, whatever stands before the first of them. -/
theorem elements_spelled {a : α} {values : List α}
    (hread : ∀ b ∈ a :: values, Reads read (write b) b) {bytes : Bytes}
    (hspelled : Spells (.inside ']' (((a :: values).map write).map .value)) bytes) (rest : Bytes)
    {budget : ℕ} (hbudget : values.length + 1 < budget) {first : Bool} {seen : List α}
    {input : Bytes} (hinput : nextElement first input = .ok (some (skipBlank (bytes ++ rest)))) :
    elements read budget first seen input = .ok (seen.reverse ++ a :: values, rest) := by
  induction values generalizing a bytes budget first seen input with
  | nil =>
    obtain ⟨before, item, after, more, hbefore, hitem, hafter, rfl, ⟨-, rfl⟩ | ⟨others, -, hothers⟩⟩ :=
      spells_inside_cons hspelled
    · obtain ⟨budget, rfl⟩ : ∃ count, budget = count + 2 := ⟨budget - 2, by simp at hbudget; omega⟩
      have hstops : Stops (after ++ [ascii ']'] ++ rest) := by
        simpa using stops_append hafter (by simp) rest
      have hvalue := hread a List.mem_cons_self [] item _ blanks_nil hitem hstops
      rw [skipBlank_spelled hbefore hitem] at hinput
      rw [List.append_assoc, List.singleton_append] at hinput hvalue
      simp only [elements, hinput, hvalue, nextElement_closing hafter, closeList_closing hafter,
        Bind.bind, Except.bind]
      simp [pure, Except.pure]
    · cases hothers
  | cons next values ih =>
    obtain ⟨before, item, after, more, hbefore, hitem, hafter, rfl, ⟨hnone, -⟩ | ⟨others, rfl, hothers⟩⟩ :=
      spells_inside_cons hspelled
    · cases hnone
    · obtain ⟨budget, rfl⟩ : ∃ count, budget = count + 1 := ⟨budget - 1, by omega⟩
      have hstops : Stops (after ++ ascii ',' :: others ++ rest) := by
        simpa using stops_append hafter (by simp) (others ++ rest)
      have hvalue := hread a List.mem_cons_self [] item _ blanks_nil hitem hstops
      have hnext : nextElement false (after ++ ascii ',' :: others ++ rest) =
          .ok (some (skipBlank (others ++ rest))) := by
        obtain ⟨before', item', after', more', hbefore', hitem', -, rfl, -⟩ :=
          spells_inside_cons hothers
        obtain ⟨b, tail, rfl, -, hclosing, -⟩ := spells_value_eq_cons hitem'
        have hskip := skipBlank_spelled hbefore' hitem' (after' ++ more') rest
        rw [List.append_assoc, List.cons_append, nextElement_comma hafter hskip hclosing, hskip]
        rfl
      have hrest : elements read budget false (a :: seen) (after ++ ascii ',' :: others ++ rest) =
          .ok ((a :: seen).reverse ++ next :: values, rest) :=
        ih (fun c hc => hread c (by simp [hc])) hothers (by simpa using hbudget) hnext
      rw [skipBlank_spelled hbefore hitem] at hinput
      simp only [elements, hinput, hvalue, hrest, Bind.bind, Except.bind]
      simp

/-- Lists are read if their elements are. -/
theorem reads_list {values : List α} (hread : ∀ a ∈ values, Reads read (write a) a) :
    Reads (list read) (.list (values.map write)) values := by
  intro before bytes rest hbefore hspelled _
  rw [list, skipBlank_append hbefore]
  cases values with
  | nil =>
    rw [List.map_nil] at hspelled
    cases hspelled with
    | emptyList hblanks =>
      rw [List.append_assoc, List.cons_append, List.singleton_append, skipBlank_cons (by decide)]
      simp only [if_true, elements, nextElement_closing hblanks, closeList_closing hblanks,
        Bind.bind, Except.bind]
      rfl
    | list h => cases h
  | cons a values =>
    cases hspelled with
    | @list _ bytes h =>
      have hlength := length_le_of_spells_inside h
      obtain ⟨before', item, after, more, hbefore', hitem, hafter, hbytes, -⟩ := spells_inside_cons h
      obtain ⟨b, tail, rfl, -, hclosing, -⟩ := spells_value_eq_cons hitem
      have hskip := skipBlank_spelled hbefore' hitem (after ++ more) rest
      have hfirst : nextElement true (bytes ++ rest) = .ok (some (skipBlank (bytes ++ rest))) := by
        rw [hbytes, nextElement, hskip]
        simp only [List.nil_append, List.cons_append, if_neg hclosing, if_true]
      rw [List.cons_append, skipBlank_cons (by decide)]
      simp only [if_true]
      rw [elements_spelled hread h rest _ hfirst]
      · rfl
      · simp only [List.length_map, List.length_cons, List.length_append] at hlength ⊢
        omega

end List

/-! ## Null -/

/-- A null is read as nothing. -/
theorem reads_nullable_null {α : Type} (read : Reader α) : Reads (nullable read) .null none := by
  intro before bytes rest hbefore hspelled _
  cases hspelled with
  | null =>
    rw [nullable, skipBlank_append hbefore]
    rfl

/-- Any other value is read as what it is without a null in its place. -/
theorem reads_nullable {α : Type} {read : Reader α} {v : Value} {a : α} (hnull : v ≠ .null)
    (hread : Reads read v a) : Reads (nullable read) v (some a) := by
  intro before bytes rest hbefore hspelled hrest
  have hvalue := hread [] bytes rest blanks_nil hspelled hrest
  obtain ⟨b, tail, rfl, hblank, -, -, hb⟩ := spells_value_eq_cons hspelled
  rw [nullable, skipBlank_append hbefore, List.cons_append, skipBlank_cons hblank]
  rw [List.nil_append, List.cons_append] at hvalue
  simp only [if_neg fun h => hnull (hb h), hvalue, Bind.bind, Except.bind]
  rfl

/-- The value of what may be absent: a null in its absence. -/
def Value.orNull {α : Type} (write : α → Value) : Option α → Value
  | none => .null
  | some a => write a

/-- What may be null is read if all that is not null is. -/
theorem reads_orNull {α : Type} {read : Reader α} (write : α → Value)
    (hnull : ∀ a, write a ≠ .null) {a : Option α} (hread : ∀ b ∈ a, Reads read (write b) b) :
    Reads (nullable read) (.orNull write a) a := by
  cases a with
  | none => exact reads_nullable_null read
  | some b => exact reads_nullable (hnull b) (hread b rfl)

end OriginMap.Json
