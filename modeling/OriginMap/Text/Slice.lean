/-!
# Slices by bytes

Parts of a text between positions that count the bytes of its UTF-8 form. There is no such part where a
position falls inside a character. Main statement: after as many bytes as the front of a text has,
exactly the front is gone.
-/

namespace OriginMap.Text

/-- How many bytes the UTF-8 form of a text has. -/
def byteLength : List Char → Nat
  | [] => 0
  | c :: text => c.utf8Size + byteLength text

/-- A text without its first bytes. -/
def dropBytes? : Nat → List Char → Option (List Char)
  | 0, text => some text
  | _ + 1, [] => none
  | count + 1, c :: text =>
    if c.utf8Size ≤ count + 1 then dropBytes? (count + 1 - c.utf8Size) text else none

/-- The first bytes of a text. -/
def takeBytes? : Nat → List Char → Option (List Char)
  | 0, _ => some []
  | _ + 1, [] => none
  | count + 1, c :: text =>
    if c.utf8Size ≤ count + 1 then (c :: ·) <$> takeBytes? (count + 1 - c.utf8Size) text else none

/-- The part of a text from one position to another. -/
def slice? (text : List Char) (start stop : Nat) : Option (List Char) :=
  dropBytes? start text >>= takeBytes? (stop - start)

/-! ## Laws -/

/-- Dropping as many bytes as the front of a text has leaves the rest. -/
theorem dropBytes?_append (front rest : List Char) :
    dropBytes? (byteLength front) (front ++ rest) = some rest := by
  induction front with
  | nil => rw [byteLength, List.nil_append, dropBytes?]
  | cons c front ih =>
    obtain ⟨n, hn⟩ : ∃ n, c.utf8Size + byteLength front = n + 1 :=
      ⟨c.utf8Size + byteLength front - 1, by have := c.utf8Size_pos; omega⟩
    rw [byteLength, List.cons_append, hn, dropBytes?, if_pos (by omega), ← hn,
      Nat.add_sub_cancel_left, ih]

/-- Taking as many bytes as the front of a text has gives the front. -/
theorem takeBytes?_append (front rest : List Char) :
    takeBytes? (byteLength front) (front ++ rest) = some front := by
  induction front with
  | nil => rw [byteLength, takeBytes?]
  | cons c front ih =>
    obtain ⟨n, hn⟩ : ∃ n, c.utf8Size + byteLength front = n + 1 :=
      ⟨c.utf8Size + byteLength front - 1, by have := c.utf8Size_pos; omega⟩
    rw [byteLength, List.cons_append, hn, takeBytes?, if_pos (by omega), ← hn,
      Nat.add_sub_cancel_left, ih]
    rfl

end OriginMap.Text
