import Mathlib.Data.Nat.Notation
import OriginMap.Json.Token
import OriginMap.Json.Value
import OriginMap.Proofs.Text.Decimal

/-!
# The spellings of JSON

A JSON value may be spelled in many ways: blanks may stand between its tokens, and characters of its
strings may be escaped. The spellings of a value are an inductive relation, which says nothing about how
they are read. The way in which values are written is one of them.
-/

namespace OriginMap.Json

/-! ## Bytes of characters -/

/-- The bytes of some characters. -/
def bytesOf (chars : List Char) : Bytes := chars.flatMap String.utf8EncodeChar

/-- A text made of characters has their bytes. -/
theorem utf8_ofList (chars : List Char) : utf8 (String.ofList chars) = bytesOf chars := by
  rw [utf8, String.toList_ofList, bytesOf]

/-- No character has no bytes. -/
@[simp] theorem bytesOf_nil : bytesOf [] = [] := rfl

/-- The bytes of characters in a row. -/
@[simp] theorem bytesOf_append (chars more : List Char) :
    bytesOf (chars ++ more) = bytesOf chars ++ bytesOf more :=
  List.flatMap_append

/-- The bytes of one character and more. -/
theorem bytesOf_cons (c : Char) (chars : List Char) :
    bytesOf (c :: chars) = String.utf8EncodeChar c ++ bytesOf chars :=
  List.flatMap_cons

/-- A character of ASCII is one byte. -/
theorem utf8EncodeChar_of_lt {c : Char} (hc : c.toNat < 128) :
    String.utf8EncodeChar c = [ascii c] := by
  have hle : c.val.toNat ≤ 127 := Nat.le_of_lt_succ hc
  simp only [String.utf8EncodeChar, if_pos hle]
  rfl

/-- The bytes of any other character are none of ASCII. -/
theorem le_of_mem_utf8EncodeChar {c : Char} (hc : 128 ≤ c.toNat) :
    ∀ b ∈ String.utf8EncodeChar c, 128 ≤ b.toNat := by
  have hlt : ¬c.val.toNat ≤ 127 := Nat.not_le.mpr hc
  intro b hb
  simp only [String.utf8EncodeChar, if_neg hlt] at hb
  split_ifs at hb <;>
    · simp only [List.mem_cons, List.not_mem_nil, or_false] at hb
      rcases hb with rfl | rfl | rfl | rfl <;> simp only [UInt8.toNat_ofNat'] <;> omega

/-- A character of ASCII before others is one byte before theirs. -/
theorem bytesOf_cons_of_lt {c : Char} (hc : c.toNat < 128) (chars : List Char) :
    bytesOf (c :: chars) = ascii c :: bytesOf chars := by
  rw [bytesOf_cons, utf8EncodeChar_of_lt hc, List.singleton_append]

/-- Characters of ASCII are as many bytes. -/
theorem bytesOf_of_lt {chars : List Char} (hchars : ∀ c ∈ chars, c.toNat < 128) :
    bytesOf chars = chars.map ascii := by
  induction chars with
  | nil => rfl
  | cons c chars ih =>
    rw [bytesOf_cons_of_lt (hchars c (by simp)), ih fun d hd => hchars d (by simp [hd])]
    rfl

/-! ## Spellings -/

/-- Nothing but blanks. -/
def Blanks (bytes : Bytes) : Prop := ∀ b ∈ bytes, isBlank b = true

/-- Nothing is nothing but blanks. -/
theorem blanks_nil : Blanks [] := List.forall_mem_nil _

/-- Whether a number is half of a surrogate pair. -/
def isSurrogate (n : ℕ) : Bool := isLeading n || isTrailing n

/-- The spellings of characters between quotes. -/
inductive SpellsChars : List Char → Bytes → Prop
  /-- Of no character. -/
  | nil : SpellsChars [] []
  /-- A character as it is. -/
  | plain {c : Char} {chars : List Char} {bytes : Bytes} (hcontrol : 0x20 ≤ c.toNat)
      (hquote : c ≠ '"') (hslash : c ≠ '\\') (h : SpellsChars chars bytes) :
      SpellsChars (c :: chars) (String.utf8EncodeChar c ++ bytes)
  /-- An escape of one letter. -/
  | short {e b : UInt8} {chars : List Char} {bytes : Bytes} (he : shortEscape? e = some b)
      (h : SpellsChars chars bytes) :
      SpellsChars (Char.ofNat b.toNat :: chars) (ascii '\\' :: e :: bytes)
  /-- An escape of four hexadecimal digits. -/
  | hexadecimal {a₀ a₁ a₂ a₃ : UInt8} {n : ℕ} {chars : List Char} {bytes : Bytes}
      (hn : hexValue4? a₀ a₁ a₂ a₃ = some n) (hwhole : isSurrogate n = false)
      (h : SpellsChars chars bytes) :
      SpellsChars (Char.ofNat n :: chars)
        (ascii '\\' :: ascii 'u' :: a₀ :: a₁ :: a₂ :: a₃ :: bytes)
  /-- Two escapes of four hexadecimal digits. -/
  | pair {a₀ a₁ a₂ a₃ b₀ b₁ b₂ b₃ : UInt8} {n m : ℕ} {chars : List Char} {bytes : Bytes}
      (hn : hexValue4? a₀ a₁ a₂ a₃ = some n) (hm : hexValue4? b₀ b₁ b₂ b₃ = some m)
      (hleading : isLeading n = true) (htrailing : isTrailing m = true)
      (h : SpellsChars chars bytes) :
      SpellsChars (pairChar n m :: chars)
        (ascii '\\' :: ascii 'u' :: a₀ :: a₁ :: a₂ :: a₃ ::
          ascii '\\' :: ascii 'u' :: b₀ :: b₁ :: b₂ :: b₃ :: bytes)

/-- What can be spelled. -/
inductive Part where
  /-- A value. -/
  | value (v : Value)
  /-- A member of an object. -/
  | member (key : String) (v : Value)
  /-- What follows an opening bracket, up to the closing one: something, separated by commas. -/
  | inside (closing : Char) (parts : List Part)

/-- The spellings of a part, from its first byte that is not blank. -/
inductive Spells : Part → Bytes → Prop
  /-- The literal `null`. -/
  | null : Spells (.value .null) (['n', 'u', 'l', 'l'].map ascii)
  /-- The literal `true`. -/
  | true : Spells (.value (.boolean true)) (['t', 'r', 'u', 'e'].map ascii)
  /-- The literal `false`. -/
  | false : Spells (.value (.boolean false)) (['f', 'a', 'l', 's', 'e'].map ascii)
  /-- A number. -/
  | number (digits : ℤ) (places : ℕ) :
      Spells (.value (.number digits places)) ((numberText digits places).map ascii)
  /-- A string. -/
  | text {s : String} {bytes : Bytes} (h : SpellsChars s.toList bytes) :
      Spells (.value (.text s)) (ascii '"' :: bytes ++ [ascii '"'])
  /-- A list without elements. -/
  | emptyList {blanks : Bytes} (hblanks : Blanks blanks) :
      Spells (.value (.list [])) (ascii '[' :: blanks ++ [ascii ']'])
  /-- A list. -/
  | list {items : List Value} {bytes : Bytes} (h : Spells (.inside ']' (items.map .value)) bytes) :
      Spells (.value (.list items)) (ascii '[' :: bytes)
  /-- An object without members. -/
  | emptyObject {blanks : Bytes} (hblanks : Blanks blanks) :
      Spells (.value (.object [])) (ascii '\x7b' :: blanks ++ [ascii '\x7d'])
  /-- An object. -/
  | object {members : List (String × Value)} {bytes : Bytes}
      (h : Spells (.inside '\x7d' (members.map fun m => .member m.1 m.2)) bytes) :
      Spells (.value (.object members)) (ascii '\x7b' :: bytes)
  /-- A member of an object. -/
  | member {key : String} {v : Value} {name before after bytes : Bytes}
      (hname : SpellsChars key.toList name) (hbefore : Blanks before) (hafter : Blanks after)
      (h : Spells (.value v) bytes) :
      Spells (.member key v)
        (ascii '"' :: name ++ ascii '"' :: before ++ ascii ':' :: after ++ bytes)
  /-- The last part in a bracket. -/
  | last {closing : Char} {part : Part} {before bytes after : Bytes} (hbefore : Blanks before)
      (h : Spells part bytes) (hafter : Blanks after) :
      Spells (.inside closing [part]) (before ++ bytes ++ after ++ [ascii closing])
  /-- A part in a bracket that others follow. -/
  | more {closing : Char} {part : Part} {parts : List Part} {before bytes after rest : Bytes}
      (hbefore : Blanks before) (h : Spells part bytes) (hafter : Blanks after)
      (hrest : Spells (.inside closing parts) rest) :
      Spells (.inside closing (part :: parts)) (before ++ bytes ++ after ++ ascii ',' :: rest)

/-! ## What is written -/

/-- The escapes of control characters are four hexadecimal digits. -/
theorem hexValue4?_control : ∀ n < 0x20,
    hexValue4? (ascii '0') (ascii '0') (ascii (Nat.digitChar (n / 16)))
      (ascii (Nat.digitChar (n % 16))) = some n := by
  decide

/-- The digits of those escapes are of ASCII. -/
theorem digitChar_lt : ∀ d < 16, (Nat.digitChar d).toNat < 128 := by
  decide

/-- Escaped characters are a spelling of the characters. -/
theorem spellsChars_escape (chars : List Char) :
    SpellsChars chars (bytesOf (chars.flatMap escape)) := by
  induction chars with
  | nil => exact .nil
  | cons c chars ih =>
    rw [List.flatMap_cons, bytesOf_append]
    rw [escape]
    split_ifs with hquote hslash hfeed hreturn htab hback hform hcontrol
    · subst hquote
      exact .short (show shortEscape? (ascii '"') = some (ascii '"') by decide) ih
    · subst hslash
      exact .short (show shortEscape? (ascii '\\') = some (ascii '\\') by decide) ih
    · subst hfeed
      exact .short (show shortEscape? (ascii 'n') = some 0x0A by decide) ih
    · subst hreturn
      exact .short (show shortEscape? (ascii 'r') = some 0x0D by decide) ih
    · subst htab
      exact .short (show shortEscape? (ascii 't') = some 0x09 by decide) ih
    · obtain rfl : c = Char.ofNat 0x08 := by rw [← hback, Char.ofNat_toNat]
      exact .short (show shortEscape? (ascii 'b') = some 0x08 by decide) ih
    · obtain rfl : c = Char.ofNat 0x0C := by rw [← hform, Char.ofNat_toNat]
      exact .short (show shortEscape? (ascii 'f') = some 0x0C by decide) ih
    · have hhigh := digitChar_lt (c.toNat / 16) (by omega)
      have hlow := digitChar_lt (c.toNat % 16) (by omega)
      have hwhole : isSurrogate c.toNat = false := by
        simp only [isSurrogate, isLeading, isTrailing, Bool.or_eq_false_iff, Bool.and_eq_false_iff,
          decide_eq_false_iff_not]
        omega
      have hspelled := SpellsChars.hexadecimal (hexValue4?_control c.toNat hcontrol) hwhole ih
      rw [Char.ofNat_toNat] at hspelled
      rw [bytesOf_of_lt]
      · exact hspelled
      · simp only [List.mem_cons, List.not_mem_nil, or_false]
        rintro d (rfl | rfl | rfl | rfl | rfl | rfl)
        all_goals first | assumption | decide
    · rw [bytesOf_cons, bytesOf_nil, List.append_nil]
      exact .plain (by omega) hquote hslash ih

/-- A string with its quotes is a spelling of its text. -/
theorem spells_quoted (s : String) : Spells (.value (.text s)) (bytesOf (quoted s)) := by
  have hquote : bytesOf ['"'] = [ascii '"'] := bytesOf_of_lt (by simp)
  rw [quoted, List.cons_append, bytesOf_cons_of_lt (by decide), bytesOf_append, hquote]
  exact .text (spellsChars_escape s.toList)

/-- The start of a line is blank. -/
theorem blanks_newline (depth : ℕ) : Blanks (bytesOf (newline depth)) := by
  have hchars : ∀ c ∈ newline depth, c = '\n' ∨ c = ' ' := by
    intro c hc
    rcases List.mem_cons.mp hc with hc | hc
    · exact Or.inl hc
    · exact Or.inr (List.mem_replicate.mp hc).2
  rw [bytesOf_of_lt fun c hc => by rcases hchars c hc with rfl | rfl <;> decide]
  intro b hb
  obtain ⟨c, hc, rfl⟩ := List.mem_map.mp hb
  rcases hchars c hc with rfl | rfl <;> decide

/-- A number is written in characters of ASCII. -/
theorem lt_of_mem_numberText (digits : ℤ) (places : ℕ) :
    ∀ c ∈ numberText digits places, c.toNat < 128 := by
  have hdigit : ∀ c ∈ Text.padded (places + 1) digits.natAbs, c.toNat < 128 := by
    intro c hc
    have := Text.isDigit_iff.mp (Text.isDigit_of_mem_padded _ _ c hc)
    omega
  intro c hc
  simp only [numberText] at hc
  rcases List.mem_append.mp hc with hc | hc
  · split_ifs at hc
    · obtain rfl := List.mem_singleton.mp hc
      decide
    · cases hc
  · split_ifs at hc
    · exact hdigit c hc
    · rcases List.mem_append.mp hc with hc | hc
      · exact hdigit c (List.mem_of_mem_take hc)
      · rcases List.mem_cons.mp hc with rfl | hc
        · decide
        · exact hdigit c (List.mem_of_mem_drop hc)

/-- The elements of a list are written in a spelling of them. -/
theorem spells_items {depth : ℕ} {item : Value} {items : List Value}
    (hitem : Spells (.value item) (bytesOf (item.pretty (depth + 1))))
    (hitems : ∀ next ∈ items, Spells (.value next) (bytesOf (next.pretty (depth + 1)))) :
    Spells (.inside ']' ((item :: items).map .value))
      (bytesOf (newline (depth + 1) ++ item.pretty (depth + 1) ++ prettyItems (depth + 1) items
        ++ newline depth ++ [']'])) := by
  induction items generalizing item with
  | nil =>
    have h : Spells (.inside ']' [.value item]) _ :=
      .last (blanks_newline (depth + 1)) hitem (blanks_newline depth)
    simpa [prettyItems, bytesOf_cons_of_lt] using h
  | cons next items ih =>
    have hrest := ih (hitems next (by simp)) fun other hother => hitems other (by simp [hother])
    have h := Spells.more (blanks_newline (depth + 1)) hitem blanks_nil hrest
    simpa [prettyItems, bytesOf_cons_of_lt] using h

/-- A member of an object is written in a spelling of it. -/
theorem spells_member {depth : ℕ} (key : String) {value : Value}
    (h : Spells (.value value) (bytesOf (value.pretty depth))) :
    Spells (.member key value) (bytesOf (quoted key ++ ':' :: ' ' :: value.pretty depth)) := by
  have hspace : Blanks [ascii ' '] := List.forall_mem_singleton.mpr (by decide)
  have hspelled := Spells.member (spellsChars_escape key.toList) blanks_nil hspace h
  simpa [quoted, bytesOf_cons_of_lt] using hspelled

/-- The members of an object are written in a spelling of them. -/
theorem spells_members {depth : ℕ} (key : String) {value : Value}
    {members : List (String × Value)}
    (hvalue : Spells (.value value) (bytesOf (value.pretty (depth + 1))))
    (hmembers : ∀ next ∈ members, Spells (.value next.2) (bytesOf (next.2.pretty (depth + 1)))) :
    Spells (.inside '\x7d' (((key, value) :: members).map fun m => .member m.1 m.2))
      (bytesOf (newline (depth + 1) ++ (quoted key ++ ':' :: ' ' :: value.pretty (depth + 1))
        ++ prettyMembers (depth + 1) members ++ newline depth ++ ['\x7d'])) := by
  induction members generalizing key value with
  | nil =>
    have h : Spells (.inside '\x7d' [.member key value]) _ :=
      .last (blanks_newline (depth + 1)) (spells_member key hvalue) (blanks_newline depth)
    simpa [prettyMembers, bytesOf_cons_of_lt] using h
  | cons next members ih =>
    obtain ⟨nextKey, nextValue⟩ := next
    have hrest := ih nextKey (hmembers (nextKey, nextValue) (by simp))
      fun other hother => hmembers other (by simp [hother])
    have h := Spells.more (blanks_newline (depth + 1)) (spells_member key hvalue) blanks_nil hrest
    simpa [prettyMembers, bytesOf_cons_of_lt] using h

/-- What is written for a value is one of its spellings. -/
theorem spells_pretty (value : Value) (depth : ℕ) :
    Spells (.value value) (bytesOf (value.pretty depth)) := by
  match value with
  | .null => exact .null
  | .boolean true => exact .true
  | .boolean false => exact .false
  | .number digits places =>
    rw [Value.pretty, bytesOf_of_lt (lt_of_mem_numberText digits places)]
    exact .number digits places
  | .text s =>
    rw [Value.pretty]
    exact spells_quoted s
  | .list [] => exact .emptyList blanks_nil
  | .list (item :: items) =>
    have hitems : ∀ next ∈ items, Spells (.value next) (bytesOf (next.pretty (depth + 1))) :=
      fun next hnext => spells_pretty next (depth + 1)
    have h := Spells.list (spells_items (spells_pretty item (depth + 1)) hitems)
    simpa [Value.pretty, bytesOf_cons_of_lt] using h
  | .object [] => exact .emptyObject blanks_nil
  | .object ((key, value) :: members) =>
    have hmembers : ∀ next ∈ members,
        Spells (.value next.2) (bytesOf (next.2.pretty (depth + 1))) :=
      fun next hnext => spells_pretty next.2 (depth + 1)
    have h := Spells.object (spells_members key (spells_pretty value (depth + 1)) hmembers)
    simpa [Value.pretty, bytesOf_cons_of_lt] using h
termination_by value
decreasing_by
  all_goals simp_wf
  · have := List.sizeOf_lt_of_mem hnext
    omega
  · omega
  · have := List.sizeOf_lt_of_mem hnext
    obtain ⟨nextKey, nextValue⟩ := next
    simp only [Prod.mk.sizeOf_spec] at this ⊢
    omega
  · omega

end OriginMap.Json
