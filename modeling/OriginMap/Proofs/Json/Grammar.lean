import Mathlib.Data.List.DropRight
import Mathlib.Data.Nat.Notation
import OriginMap.Json.Skip
import OriginMap.Proofs.Json.Reading

/-!
# The grammar of JSON

The grammar says which bytes are a value, and nothing about what they mean: a string may hold half a
surrogate pair, and a number may have any size. It is an inductive relation, apart from any reader.
Whatever has the grammar of a value is passed over, to any depth, and what stands behind it is left.
-/

namespace OriginMap.Json

/-! ## Strings -/

/-- What may stand between quotes. -/
inductive Quotable : Bytes → Prop
  /-- Nothing. -/
  | nil : Quotable []
  /-- A byte as it is. -/
  | plain {b : UInt8} {bytes : Bytes} (hb : ¬b < 0x20 ∧ b ≠ ascii '"' ∧ b ≠ ascii '\\')
      (h : Quotable bytes) : Quotable (b :: bytes)
  /-- An escape of one letter. -/
  | short {e : UInt8} {bytes : Bytes} (he : (shortEscape? e).isSome) (h : Quotable bytes) :
      Quotable (ascii '\\' :: e :: bytes)
  /-- An escape of four hexadecimal digits. -/
  | hexadecimal {a₀ a₁ a₂ a₃ : UInt8} {bytes : Bytes} (hn : (hexValue4? a₀ a₁ a₂ a₃).isSome)
      (h : Quotable bytes) :
      Quotable (ascii '\\' :: ascii 'u' :: a₀ :: a₁ :: a₂ :: a₃ :: bytes)

/-- A string is passed over up to its closing quote. -/
theorem skipString_quotable {bytes : Bytes} (h : Quotable bytes) (rest : Bytes) :
    skipString (bytes ++ ascii '"' :: rest) = .ok rest := by
  induction h with
  | nil =>
    rw [List.nil_append, skipString.eq_def]
    exact if_pos rfl
  | plain hb h ih =>
    rw [List.cons_append, skipString.eq_def]
    simp only [if_neg hb.1, if_neg hb.2.1, if_pos hb.2.2, ih]
  | @short e bytes he h ih =>
    have hletter : e ≠ ascii 'u' := by
      rintro rfl
      revert he
      decide
    rw [List.cons_append, List.cons_append, skipString.eq_def]
    simp only [if_neg backslash_escapes.1, if_neg backslash_escapes.2, ne_eq, not_true_eq_false,
      if_false, if_pos hletter, he, if_true, ih]
  | hexadecimal hn h ih =>
    simp only [List.cons_append]
    rw [skipString.eq_def]
    simp only [if_neg backslash_escapes.1, if_neg backslash_escapes.2, ne_eq, not_true_eq_false,
      if_false, hn, if_true, ih]

/-! ## Numbers -/

/-- One digit or more. -/
def Digits (bytes : Bytes) : Prop := bytes ≠ [] ∧ ∀ b ∈ bytes, isDigit b = true

/-- One digit or more, with no zero before another. -/
def WholeDigits (bytes : Bytes) : Prop :=
  Digits bytes ∧ (bytes.head? = some (ascii '0') → bytes = [ascii '0'])

/-- The fraction of a number, or nothing. -/
inductive Fraction : Bytes → Prop
  /-- Nothing. -/
  | none : Fraction []
  /-- Digits behind a point. -/
  | some {digits : Bytes} (h : Digits digits) : Fraction (ascii '.' :: digits)

/-- The exponent of a number, or nothing. -/
inductive Exponent : Bytes → Prop
  /-- Nothing. -/
  | none : Exponent []
  /-- Digits behind a mark, with or without a sign. -/
  | some {mark : UInt8} {sign digits : Bytes} (hmark : mark = ascii 'e' ∨ mark = ascii 'E')
      (hsign : sign = [] ∨ sign = [ascii '+'] ∨ sign = [ascii '-']) (h : Digits digits) :
      Exponent (mark :: (sign ++ digits))

/-- A number. -/
inductive Numeral : Bytes → Prop
  /-- Digits with or without a minus sign, a fraction and an exponent. -/
  | mk {sign whole fraction exponent : Bytes} (hsign : sign = [] ∨ sign = [ascii '-'])
      (hwhole : WholeDigits whole) (hfraction : Fraction fraction) (hexponent : Exponent exponent) :
      Numeral (sign ++ (whole ++ (fraction ++ exponent)))

/-- The bytes do not start with a digit. -/
def NoDigit (bytes : Bytes) : Prop := ∀ b ∈ bytes.head?, isDigit b = false

/-- Digits are passed over as far as they go. -/
theorem skipDigits_append {digits rest : Bytes} (hdigits : ∀ b ∈ digits, isDigit b = true)
    (hrest : NoDigit rest) : skipDigits (digits ++ rest) = rest := by
  rw [skipDigits, List.dropWhile_append_of_pos hdigits]
  cases rest with
  | nil => rfl
  | cons b rest => rw [List.dropWhile_cons_of_neg (by simp [hrest b rfl])]

/-- One digit or more are passed over. -/
theorem skipSomeDigits_append {digits rest : Bytes} (hdigits : Digits digits)
    (hrest : NoDigit rest) : skipSomeDigits (digits ++ rest) = .ok rest := by
  cases digits with
  | nil => exact absurd rfl hdigits.1
  | cons b digits =>
    rw [List.cons_append, skipSomeDigits, if_pos (hdigits.2 b List.mem_cons_self),
      skipDigits_append (fun c hc => hdigits.2 c (List.mem_cons_of_mem b hc)) hrest]

/-- Behind a number stands no digit. -/
theorem Stops.noDigit {rest : Bytes} (h : Stops rest) : NoDigit rest := by
  cases rest with
  | nil => exact fun b hb => by cases hb
  | cons b rest =>
    intro c hc
    obtain rfl : b = c := by simpa using hc
    exact h.apart.1

/-- An exponent starts with no digit and no point. -/
theorem Exponent.head {exponent rest : Bytes} (h : Exponent exponent) (hrest : Stops rest) :
    NoDigit (exponent ++ rest) ∧ ∀ b ∈ (exponent ++ rest).head?, b ≠ ascii '.' := by
  cases h with
  | none =>
    refine ⟨hrest.noDigit, fun b hb => ?_⟩
    cases rest with
    | nil => cases hb
    | cons c rest =>
      obtain rfl : c = b := by simpa using hb
      exact hrest.apart.2.1
  | some hmark =>
    constructor <;>
      · intro b hb
        obtain rfl := Option.some.inj hb
        rcases hmark with rfl | rfl <;> decide

/-- An exponent is passed over. -/
theorem skipExponent_append {exponent rest : Bytes} (h : Exponent exponent) (hrest : Stops rest) :
    skipExponent (exponent ++ rest) = .ok rest := by
  cases h with
  | none =>
    cases rest with
    | nil => rfl
    | cons b rest =>
      obtain ⟨-, -, hlower, hupper⟩ := hrest.apart
      simp [skipExponent, hlower, hupper]
  | @some mark sign digits hmark hsign h =>
    have hdigits := skipSomeDigits_append h hrest.noDigit
    have hmarked : (mark = ascii 'e' || mark = ascii 'E') = true := by simpa using hmark
    rw [List.cons_append, skipExponent.eq_def]
    simp only [if_pos hmarked]
    rcases hsign with rfl | rfl | rfl
    · cases digits with
      | nil => exact absurd rfl h.1
      | cons b digits =>
        have hb := h.2 b List.mem_cons_self
        have hunsigned : ¬(b = ascii '+' || b = ascii '-') = true := by
          rw [Bool.or_eq_true, decide_eq_true_eq, decide_eq_true_eq]
          rintro (rfl | rfl) <;> revert hb <;> decide
        rw [List.cons_append] at hdigits
        simp only [List.nil_append, List.cons_append, if_neg hunsigned, hdigits]
    · simpa using hdigits
    · simpa using hdigits

/-- A number is passed over from its first digit. -/
theorem skipNumber_append {whole fraction exponent rest : Bytes} (hwhole : WholeDigits whole)
    (hfraction : Fraction fraction) (hexponent : Exponent exponent) (hrest : Stops rest) :
    skipNumber (whole ++ (fraction ++ (exponent ++ rest))) = .ok rest := by
  obtain ⟨⟨hnil, hdigits⟩, hzero⟩ := hwhole
  obtain ⟨hnoDigit, hnoPoint⟩ := hexponent.head hrest
  have htail : NoDigit (fraction ++ (exponent ++ rest)) := by
    cases hfraction with
    | none => exact hnoDigit
    | some =>
      intro b hb
      obtain rfl := Option.some.inj hb
      decide
  cases whole with
  | nil => exact absurd rfl hnil
  | cons b more =>
    have hleading : ¬(b = ascii '0' &&
        (more ++ (fraction ++ (exponent ++ rest))).head?.any isDigit) = true := by
      simp only [Bool.and_eq_true, decide_eq_true_eq, not_and]
      rintro rfl
      obtain rfl : more = [] := by simpa using hzero rfl
      rw [List.nil_append]
      cases hhead : (fraction ++ (exponent ++ rest)).head? with
      | none => simp
      | some c => simp [htail c hhead]
    rw [List.cons_append, skipNumber, if_neg (by simp [hdigits b List.mem_cons_self]), if_neg hleading,
      skipDigits_append (fun c hc => hdigits c (List.mem_cons_of_mem b hc)) htail]
    cases hfraction with
    | some h =>
      simp only [List.cons_append, if_true, skipSomeDigits_append h hnoDigit, Bind.bind, Except.bind,
        skipExponent_append hexponent hrest]
    | none =>
      have hskip := skipExponent_append hexponent hrest
      rw [List.nil_append]
      cases hbytes : exponent ++ rest with
      | nil =>
        obtain rfl := (List.append_eq_nil_iff.mp hbytes).2
        rfl
      | cons c after =>
        rw [hbytes] at hskip hnoPoint
        simp only [if_neg (hnoPoint c rfl), hskip]

/-! ## Values -/

/-- The byte that opens a bracket. -/
def Frame.opening : Frame → UInt8
  | list => ascii '['
  | object => ascii '\x7b'

/-- What stands before a value in a bracket: nothing in a list, a key and a colon in an object. -/
inductive Leads : Frame → Bytes → Prop
  /-- An element of a list. -/
  | list : Leads .list []
  /-- A member of an object. -/
  | object {name before after : Bytes} (hname : Quotable name) (hbefore : Blanks before)
      (hafter : Blanks after) :
      Leads .object (ascii '"' :: (name ++ ascii '"' :: (before ++ ascii ':' :: after)))

/-- What the grammar tells apart. -/
inductive Shape where
  /-- A value. -/
  | value
  /-- What follows an opening bracket, up to the closing one, if it is not empty. -/
  | inside (frame : Frame)

/-- The bytes of each shape. -/
inductive Grammatical : Shape → Bytes → Prop
  /-- A literal. -/
  | literal {word : List Char}
      (hword : word ∈ [['n', 'u', 'l', 'l'], ['t', 'r', 'u', 'e'], ['f', 'a', 'l', 's', 'e']]) :
      Grammatical .value (word.map ascii)
  /-- A number. -/
  | number {bytes : Bytes} (h : Numeral bytes) : Grammatical .value bytes
  /-- A string. -/
  | string {bytes : Bytes} (h : Quotable bytes) :
      Grammatical .value (ascii '"' :: (bytes ++ [ascii '"']))
  /-- An empty bracket. -/
  | empty (frame : Frame) {blanks : Bytes} (hblanks : Blanks blanks) :
      Grammatical .value (frame.opening :: (blanks ++ [frame.closing]))
  /-- A bracket. -/
  | bracket {frame : Frame} {bytes : Bytes} (h : Grammatical (.inside frame) bytes) :
      Grammatical .value (frame.opening :: bytes)
  /-- The last value in a bracket. -/
  | last {frame : Frame} {before lead bytes after : Bytes} (hbefore : Blanks before)
      (hlead : Leads frame lead) (h : Grammatical .value bytes) (hafter : Blanks after) :
      Grammatical (.inside frame) (before ++ (lead ++ (bytes ++ (after ++ [frame.closing]))))
  /-- A value in a bracket that others follow. -/
  | more {frame : Frame} {before lead bytes after rest : Bytes} (hbefore : Blanks before)
      (hlead : Leads frame lead) (h : Grammatical .value bytes) (hafter : Blanks after)
      (hrest : Grammatical (.inside frame) rest) :
      Grammatical (.inside frame) (before ++ (lead ++ (bytes ++ (after ++ ascii ',' :: rest))))

/-- A number starts with a minus sign or a digit. -/
theorem Numeral.eq_cons {bytes : Bytes} (h : Numeral bytes) :
    ∃ b more, bytes = b :: more ∧ (b = ascii '-' ∨ isDigit b = true) := by
  obtain ⟨hsign, ⟨⟨hnil, hdigits⟩, -⟩, -, -⟩ := h
  rename_i sign whole fraction exponent
  rcases hsign with rfl | rfl
  · cases whole with
    | nil => exact absurd rfl hnil
    | cons b more => exact ⟨b, _, rfl, Or.inr (hdigits b List.mem_cons_self)⟩
  · exact ⟨ascii '-', _, rfl, Or.inl rfl⟩

/-- A value starts with no blank and no closing bracket. -/
theorem Grammatical.eq_cons {bytes : Bytes} (h : Grammatical .value bytes) :
    ∃ b more, bytes = b :: more ∧ isBlank b = false ∧ b ≠ ascii ']' ∧ b ≠ ascii '\x7d' := by
  cases h with
  | literal hword =>
    simp only [List.mem_cons, List.not_mem_nil, or_false] at hword
    rcases hword with rfl | rfl | rfl <;> exact ⟨_, _, rfl, by decide⟩
  | number h =>
    obtain ⟨b, more, rfl, rfl | hb⟩ := h.eq_cons
    · exact ⟨_, _, rfl, by decide⟩
    · refine ⟨_, _, rfl, (not_isBlank_of_isDigit hb).1, ?_, ?_⟩ <;>
        · rintro rfl
          revert hb
          decide
  | string h => exact ⟨_, _, rfl, by decide⟩
  | empty frame hblanks => cases frame <;> exact ⟨_, _, rfl, by decide⟩
  | @bracket frame _ h => cases frame <;> exact ⟨_, _, rfl, by decide⟩

/-! ## Passing over -/

/-- How passing over goes on behind a value. -/
def resume (budget : ℕ) (opened : List Frame) (rest : Bytes) : Except Fault Bytes :=
  (skipToValue opened false rest).bind fun (opened, rest) =>
    if opened.isEmpty then .ok rest else skipOpen budget opened rest

/-- Blanks are skipped once. -/
theorem skipBlank_skipBlank (bytes : Bytes) : skipBlank (skipBlank bytes) = skipBlank bytes :=
  List.dropWhile_idempotent isBlank bytes

/-- Blanks before a value make no difference. -/
theorem skipOpen_skipBlank (budget : ℕ) (opened : List Frame) (bytes : Bytes) :
    skipOpen budget opened (skipBlank bytes) = skipOpen budget opened bytes := by
  cases budget with
  | zero => rfl
  | succ budget => rw [skipOpen, skipOpen, skipScalar, skipScalar, skipBlank_skipBlank]

/-- A value without parts is passed over and the next one sought. -/
theorem skipOpen_scalar {bytes rest : Bytes} (h : skipScalar bytes = .ok (none, rest)) (budget : ℕ)
    (opened : List Frame) : skipOpen (budget + 1) opened bytes = resume budget opened rest := by
  rw [skipOpen, h, resume]
  rfl

/-- Behind its last value a bracket is closed. -/
theorem resume_closing {after : Bytes} (hafter : Blanks after) (frame : Frame) (budget : ℕ)
    (opened : List Frame) (rest : Bytes) :
    resume budget (frame :: opened) (after ++ frame.closing :: rest) = resume budget opened rest := by
  have hclosing : isBlank frame.closing = false := by cases frame <;> decide
  rw [resume, skipToValue, skipBlank_append hafter, skipBlank_cons hclosing]
  simp only [if_true]
  rfl

/-- Behind a comma the next value of a bracket stands. -/
theorem resume_comma {after : Bytes} (hafter : Blanks after) (frame : Frame) (budget : ℕ)
    (opened : List Frame) (rest : Bytes) :
    resume budget (frame :: opened) (after ++ ascii ',' :: rest) =
      (skipKey frame rest).bind (skipOpen budget (frame :: opened)) := by
  have hclosing : ascii ',' ≠ frame.closing := by cases frame <;> decide
  rw [resume, skipToValue, skipBlank_append hafter, skipBlank_cons (by decide)]
  simp only [if_neg hclosing, Bool.false_eq_true, if_false, if_true]
  cases skipKey frame rest <;> rfl

/-- What stands before a value in a bracket is passed over. -/
theorem skipKey_leads {frame : Frame} {before lead : Bytes} (hbefore : Blanks before)
    (hlead : Leads frame lead) (more : Bytes) :
    ∃ blanks, Blanks blanks ∧ skipKey frame (before ++ (lead ++ more)) = .ok (blanks ++ more) := by
  cases hlead with
  | list => exact ⟨before, hbefore, rfl⟩
  | @object name pre post hname hpre hpost =>
    refine ⟨post, hpost, ?_⟩
    rw [skipKey, skipBlank_append hbefore, List.cons_append, skipBlank_cons (by decide)]
    simp only [ne_eq, not_true_eq_false, if_false, List.append_assoc, List.cons_append,
      skipString_quotable hname, Bind.bind, Except.bind, skipBlank_append hpre,
      skipBlank_cons (show isBlank (ascii ':') = false by decide), if_true]

/-- A value in a bracket starts, with what stands before it, with no blank and no closing bracket. -/
theorem Leads.append_eq_cons {frame : Frame} {lead bytes : Bytes} (hlead : Leads frame lead)
    (h : Grammatical .value bytes) (more : Bytes) :
    ∃ b tail, lead ++ (bytes ++ more) = b :: tail ∧ isBlank b = false ∧ b ≠ frame.closing := by
  cases hlead with
  | list =>
    obtain ⟨b, tail, rfl, hblank, hclosing, -⟩ := h.eq_cons
    exact ⟨b, _, rfl, hblank, hclosing⟩
  | object => exact ⟨ascii '"', _, rfl, by decide, by decide⟩

/-- A bracket that is not empty starts with a value of it. -/
theorem skipBlank_inside {frame : Frame} {bytes : Bytes} (h : Grammatical (.inside frame) bytes)
    (rest : Bytes) : ∃ b tail, skipBlank (bytes ++ rest) = b :: tail ∧ b ≠ frame.closing := by
  have hfirst {before lead value : Bytes} (hbefore : Blanks before) (hlead : Leads frame lead)
      (hvalue : Grammatical .value value) (more : Bytes) :
      ∃ b tail, skipBlank ((before ++ (lead ++ (value ++ more))) ++ rest) = b :: tail ∧
        b ≠ frame.closing := by
    obtain ⟨b, tail, hcons, hblank, hclosing⟩ := hlead.append_eq_cons hvalue more
    refine ⟨b, tail ++ rest, ?_, hclosing⟩
    rw [List.append_assoc, skipBlank_append hbefore, hcons, List.cons_append, skipBlank_cons hblank]
  cases h with
  | last hbefore hlead hvalue hafter => exact hfirst hbefore hlead hvalue _
  | more hbefore hlead hvalue hafter hrest => exact hfirst hbefore hlead hvalue _

/-- Blanks before the first value of a bracket make no difference. -/
theorem skipKey_skipBlank (frame : Frame) (budget : ℕ) (opened : List Frame) (bytes : Bytes) :
    (skipKey frame (skipBlank bytes)).bind (skipOpen budget opened) =
      (skipKey frame bytes).bind (skipOpen budget opened) := by
  cases frame with
  | list => exact skipOpen_skipBlank budget opened bytes
  | object => rw [skipKey, skipKey, skipBlank_skipBlank]

/-- A number is passed over. -/
theorem skipScalar_number {before bytes rest : Bytes} (hbefore : Blanks before) (h : Numeral bytes)
    (hrest : Stops rest) : skipScalar (before ++ (bytes ++ rest)) = .ok (none, rest) := by
  obtain ⟨hsign, hwhole, hfraction, hexponent⟩ := h
  rename_i sign whole fraction exponent
  have hskip := skipNumber_append hwhole hfraction hexponent hrest
  rw [skipScalar, skipBlank_append hbefore]
  rcases hsign with rfl | rfl
  · cases whole with
    | nil => exact absurd rfl hwhole.1.1
    | cons b more =>
      have hb := hwhole.1.2 b List.mem_cons_self
      have happart {c : UInt8} (hc : isDigit c = false) : b ≠ c := by
        rintro rfl
        rw [hb] at hc
        cases hc
      rw [List.cons_append] at hskip
      simp only [List.nil_append, List.cons_append, List.append_assoc,
        skipBlank_cons (not_isBlank_of_isDigit hb).1,
        if_neg (happart (show isDigit (ascii 'n') = false by decide)),
        if_neg (happart (show isDigit (ascii 't') = false by decide)),
        if_neg (happart (show isDigit (ascii 'f') = false by decide)),
        if_neg (happart (show isDigit (ascii '-') = false by decide)), hb, if_true, hskip, Bind.bind,
        Except.bind]
      rfl
  · simp only [List.cons_append, List.nil_append, List.append_assoc,
      skipBlank_cons (show isBlank (ascii '-') = false by decide), hskip, Bind.bind, Except.bind]
    rfl

/-- Behind the byte that opens a bracket its inside stands. -/
theorem skipScalar_opening {before : Bytes} (hbefore : Blanks before) (frame : Frame) (rest : Bytes) :
    skipScalar (before ++ frame.opening :: rest) = .ok (some frame, rest) := by
  have hopening : isBlank frame.opening = false := by cases frame <;> decide
  rw [skipScalar, skipBlank_append hbefore, skipBlank_cons hopening]
  cases frame <;> rfl

/-- In a bracket that was opened and is not empty its first value stands. -/
theorem skipOpen_bracket {before bytes : Bytes} (hbefore : Blanks before) {frame : Frame}
    (h : Grammatical (.inside frame) bytes) (budget : ℕ) (opened : List Frame) (rest : Bytes) :
    skipOpen (budget + 1) opened (before ++ frame.opening :: (bytes ++ rest)) =
      (skipKey frame (bytes ++ rest)).bind (skipOpen budget (frame :: opened)) := by
  obtain ⟨b, tail, hfirst, hclosing⟩ := skipBlank_inside h rest
  have hvalue : skipToValue (frame :: opened) true (bytes ++ rest) =
      (skipKey frame (skipBlank (bytes ++ rest))).map fun rest => (frame :: opened, rest) := by
    rw [skipToValue, hfirst]
    simp only [if_neg hclosing, if_true]
    cases skipKey frame (b :: tail) <;> rfl
  rw [skipOpen, skipScalar_opening hbefore, ← skipKey_skipBlank]
  simp only [Bind.bind, Except.bind, hvalue]
  cases skipKey frame (skipBlank (bytes ++ rest)) <;> rfl

/-- Whatever has the grammar of a value is passed over, and so is what stands in a bracket, up to its
end. -/
theorem skipOpen_grammatical {shape : Shape} {bytes : Bytes} (h : Grammatical shape bytes)
    (opened : List Frame) (rest : Bytes) :
    match shape with
    | .value => ∀ before, Blanks before → Stops rest → ∃ count ≤ bytes.length, ∀ budget,
        skipOpen (budget + count) opened (before ++ (bytes ++ rest)) = resume budget opened rest
    | .inside frame => ∃ count ≤ bytes.length, ∀ budget,
        (skipKey frame (bytes ++ rest)).bind (skipOpen (budget + count) (frame :: opened)) =
          resume budget opened rest := by
  -- Each value takes one step and has one byte or more, so the bytes are budget enough.
  induction h generalizing opened rest with
  | literal hword =>
    intro before hbefore _
    simp only [List.mem_cons, List.not_mem_nil, or_false] at hword
    refine ⟨1, ?_, fun budget => skipOpen_scalar ?_ budget opened⟩
    · rcases hword with rfl | rfl | rfl <;> simp
    · rw [skipScalar, skipBlank_append hbefore]
      rcases hword with rfl | rfl | rfl <;> rfl
  | number h =>
    intro before hbefore hrest
    refine ⟨1, ?_, fun budget => skipOpen_scalar (skipScalar_number hbefore h hrest) budget opened⟩
    obtain ⟨b, more, rfl, -⟩ := h.eq_cons
    simp
  | string h =>
    intro before hbefore _
    refine ⟨1, by simp, fun budget => skipOpen_scalar ?_ budget opened⟩
    rw [skipScalar, skipBlank_append hbefore, List.cons_append, List.append_assoc,
      List.singleton_append, skipBlank_cons (by decide)]
    simp only [skipString_quotable h, Bind.bind, Except.bind]
    rfl
  | @empty frame blanks hblanks =>
    intro before hbefore _
    refine ⟨1, by simp, fun budget => ?_⟩
    have hopened : skipToValue (frame :: opened) true (blanks ++ frame.closing :: rest) =
        skipToValue opened false rest := by
      rw [skipToValue, skipBlank_append hblanks,
        skipBlank_cons (show isBlank frame.closing = false by cases frame <;> decide)]
      exact if_pos rfl
    rw [skipOpen, List.cons_append, List.append_assoc, List.singleton_append,
      skipScalar_opening hbefore]
    simp only [Bind.bind, Except.bind, hopened]
    rfl
  | bracket h ih =>
    intro before hbefore _
    obtain ⟨count, hcount, hskip⟩ := ih opened rest
    refine ⟨count + 1, Nat.succ_le_succ hcount, fun budget => ?_⟩
    rw [List.cons_append, ← Nat.add_assoc, skipOpen_bracket hbefore h, hskip]
  | @last frame before lead bytes after hbefore hlead h hafter ih =>
    have hstops : Stops (after ++ frame.closing :: rest) :=
      stops_append hafter (by cases frame <;> simp [Frame.closing]) rest
    obtain ⟨blanks, hblanks, hkey⟩ :=
      skipKey_leads hbefore hlead (bytes ++ (after ++ frame.closing :: rest))
    obtain ⟨count, hcount, hskip⟩ := ih (frame :: opened) _ blanks hblanks hstops
    refine ⟨count, ?_, fun budget => ?_⟩
    · simp only [List.length_append]
      omega
    · simp only [List.append_assoc, List.singleton_append, hkey, Except.bind]
      rw [hskip, resume_closing hafter]
  | @more frame before lead bytes after others hbefore hlead h hafter hrest ih ihrest =>
    have hstops : Stops (after ++ ascii ',' :: (others ++ rest)) := stops_append hafter (by simp) _
    obtain ⟨blanks, hblanks, hkey⟩ :=
      skipKey_leads hbefore hlead (bytes ++ (after ++ ascii ',' :: (others ++ rest)))
    obtain ⟨count, hcount, hskip⟩ := ih (frame :: opened) _ blanks hblanks hstops
    obtain ⟨countRest, hcountRest, hskipRest⟩ := ihrest opened rest
    refine ⟨countRest + count, ?_, fun budget => ?_⟩
    · simp only [List.length_append, List.length_cons]
      omega
    · simp only [List.append_assoc, List.cons_append, hkey, Except.bind]
      rw [← Nat.add_assoc, hskip, resume_comma hafter, hskipRest]

/-- A value is passed over, and what stands behind it is left. -/
theorem skip_grammatical {before bytes rest : Bytes} (hbefore : Blanks before)
    (h : Grammatical .value bytes) (hrest : Stops rest) :
    skip (before ++ (bytes ++ rest)) = .ok rest := by
  obtain ⟨count, hcount, hskip⟩ := skipOpen_grammatical h [] rest before hbefore hrest
  have hlength : (before ++ (bytes ++ rest)).length - count + count =
      (before ++ (bytes ++ rest)).length := by
    simp only [List.length_append]
    omega
  rw [skip, ← hlength, hskip]
  rfl

end OriginMap.Json
