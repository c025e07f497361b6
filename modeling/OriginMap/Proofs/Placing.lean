import OriginMap.Mappings.Meaning
import OriginMap.Proofs.Text.Parts

/-!
# Where pieces stand

The pieces of a text that are not empty are what stands between its separators, be they semicolons or
commas. Each is placed once and in the order of the text: it stands behind the pieces before it, in the
line that has as many semicolons before it.
-/

namespace OriginMap.Mappings

open Text

variable {before piece line front back after : List Char} {p : Piece}

/-- The pieces of a text that are not empty, between either separator. -/
def textPieces (text : List Char) : List (List Char) :=
  (text.splitOnP fun c => c = ';' || c = ',').filter (!·.isEmpty)

/-- The pieces that are placed are those that stand between the separators, in order. -/
theorem values_placed (text : List Char) :
    (placed text).map Piece.values = (textPieces text).map Delta.decode := by
  have hline : (fun line => (linePieces line).map Piece.values) =
      (fun line => (pieces line).map Delta.decode) ∘ Prod.fst := by
    funext line
    rw [linePieces, List.map_map]
    rfl
  calc (placed text).map Piece.values
      = ((text.splitOn ';').zipIdx.map Prod.fst).flatMap fun line => (pieces line).map Delta.decode := by
        rw [placed, List.map_flatMap, hline, List.flatMap_map]
        rfl
    _ = ((text.splitOn ';').flatMap pieces).map Delta.decode := by
        rw [List.zipIdx_map_fst, List.map_flatMap]
    _ = (textPieces text).map Delta.decode := by
        rw [textPieces, ← Text.flatMap_splitOn, List.filter_flatMap]
        rfl

/-- As many pieces are placed as stand between the separators. -/
theorem length_placed (text : List Char) : (placed text).length = (textPieces text).length := by
  have hlength := congrArg List.length (values_placed text)
  rwa [List.length_map, List.length_map] at hlength

/-! ## Pieces of a line -/

/-- Pieces left of a comma and right of it are pieces of the line. -/
theorem pieces_append_comma (first second : List Char) :
    pieces (first ++ ',' :: second) = pieces first ++ pieces second := by
  rw [pieces, List.splitOn_append_cons_self, List.filter_append]
  rfl

/-- Pieces before a place with a comma on one side, and after it, are pieces of the line. -/
theorem pieces_append {first second : List Char}
    (h : (∀ c ∈ first.getLast?, c = ',') ∨ ∀ c ∈ second.head?, c = ',') :
    pieces (first ++ second) = pieces first ++ pieces second := by
  have hnil : pieces [] = [] := rfl
  rcases h with h | h
  · rcases List.eq_nil_or_concat first with rfl | ⟨front, c, rfl⟩
    · rw [hnil, List.nil_append, List.nil_append]
    · obtain rfl : c = ',' := h c (by simp)
      rw [List.concat_eq_append, List.append_assoc, List.singleton_append, pieces_append_comma,
        pieces_append_comma, hnil, List.append_nil]
  · cases second with
    | nil => rw [hnil, List.append_nil, List.append_nil]
    | cons c back =>
      obtain rfl : c = ',' := h c rfl
      have hback := pieces_append_comma [] back
      rw [List.nil_append] at hback
      rw [pieces_append_comma, hback, hnil, List.nil_append]

/-- A piece is the only piece of its text. -/
theorem pieces_eq_singleton (h : Between [','] front piece back) (hne : piece ≠ []) :
    pieces piece = [piece] := by
  rw [pieces, List.splitOn_eq_singleton h.notMem]
  simpa using hne

/-- A piece has the pieces before it and after it on its line on either side. -/
theorem pieces_between (h : Between [','] front piece back) (hne : piece ≠ []) :
    pieces (front ++ piece ++ back) = pieces front ++ piece :: pieces back := by
  have hbefore : ∀ c ∈ front.getLast?, c = ',' := fun c hc => List.mem_singleton.mp (h.before c hc)
  have hafter : ∀ c ∈ back.head?, c = ',' := fun c hc => List.mem_singleton.mp (h.after c hc)
  rw [pieces_append (Or.inr hafter), pieces_append (Or.inl hbefore), pieces_eq_singleton h hne,
    List.append_assoc, List.singleton_append]

/-! ## Pieces of a text -/

/-- Before a line stand as many lines as separators. -/
theorem length_above (before : List Char) :
    (before.splitOn ';').dropLast.length = before.count ';' := by
  rw [List.length_dropLast, length_splitOn, Nat.add_sub_cancel]

/-- The pieces up to a place in a line are those of the lines before and of the start of the line. -/
theorem placed_append (h : Between [';'] before front []) :
    placed (before ++ front) = (before.splitOn ';').dropLast.zipIdx.flatMap linePieces ++
      linePieces (front, before.count ';') := by
  have hsplit := h.splitOn_eq
  rw [List.append_nil, List.splitOn_nil, List.tail_cons] at hsplit
  rw [placed, hsplit, List.zipIdx_append, List.flatMap_append, length_above, Nat.zero_add]
  simp

/-- A piece stands behind those of the text before it, in the line that has as many semicolons before
it. -/
theorem placed_between (h : Between [';', ','] before piece after) (hne : piece ≠ []) :
    ∃ later, placed (before ++ piece ++ after) =
      placed before ++ ⟨before.count ';', Delta.decode piece⟩ :: later := by
  obtain ⟨top, front, back, bottom, rfl, rfl, hline, hpiece⟩ := h.unnest
  have htop : Between [';'] top front [] :=
    ⟨fun c hc => hline.free c (by simp [hc]), hline.before, by simp⟩
  have hcount : (top ++ front).count ';' = top.count ';' := by
    rw [List.count_append, List.count_eq_zero.mpr htop.notMem, Nat.add_zero]
  have hwhole : top ++ front ++ piece ++ (back ++ bottom) =
      top ++ (front ++ piece ++ back) ++ bottom := by simp
  rw [placed_append htop, hcount, hwhole, placed, hline.splitOn_eq, List.zipIdx_append,
    List.flatMap_append, List.zipIdx_cons, List.flatMap_cons, length_above, Nat.zero_add, linePieces,
    pieces_between hpiece hne, List.map_append, List.map_cons]
  simp only [linePieces, List.append_assoc, List.cons_append]
  exact ⟨_, rfl⟩

/-- Every piece that is not empty is placed, behind as many as stand before it. -/
theorem getElem?_placed (h : Between [';', ','] before piece after) (hne : piece ≠ []) :
    (placed (before ++ piece ++ after))[(textPieces before).length]? =
      some ⟨before.count ';', Delta.decode piece⟩ := by
  obtain ⟨later, hlater⟩ := placed_between h hne
  rw [hlater, ← length_placed, List.getElem?_append_right (Nat.le_refl _), Nat.sub_self,
    List.getElem?_cons_zero]

/-- Every piece that is placed stands between separators of its text, in the line that has as many
semicolons before it. -/
theorem of_mem_placed {text : List Char} (h : p ∈ placed text) :
    ∃ before piece after, text = before ++ piece ++ after ∧
      Between [';', ','] before piece after ∧ piece ≠ [] ∧
        p = ⟨before.count ';', Delta.decode piece⟩ := by
  obtain ⟨⟨line, number⟩, hline, hp⟩ := List.mem_flatMap.mp h
  obtain ⟨piece, hpiece, rfl⟩ := List.mem_map.mp hp
  obtain ⟨hpiece, hne⟩ := List.mem_filter.mp hpiece
  obtain ⟨n, hn⟩ := List.mem_iff_getElem?.mp hpiece
  have hnumber : (text.splitOn ';')[number]? = some line := List.mem_zipIdx_iff_getElem?.mp hline
  obtain ⟨before, after, htext, houter, hcount⟩ := of_getElem?_splitOn hnumber
  obtain ⟨front, back, hparts, hinner, -⟩ := of_getElem?_splitOn hn
  obtain rfl : line = front ++ piece ++ back := hparts
  have hfront : front.count ';' = 0 :=
    List.count_eq_zero.mpr fun hmem => houter.notMem (by simp [hmem])
  refine ⟨before ++ front, piece, back ++ after, ?_, houter.nested hinner, by simpa using hne, ?_⟩
  · simp only [htext, List.append_assoc]
  · rw [List.count_append, hcount, hfront, Nat.add_zero]

end OriginMap.Mappings
