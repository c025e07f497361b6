import Mathlib.Data.List.Basic

/-!
# Parts of a text

A text split at a separator has its parts between separators and ends of the text. Before each part
stand as many separators as parts; a part of a part stands between the separators of both splits. Other
parts stay what they are when one is exchanged.
-/

namespace OriginMap.Text

/-- A part of a text stands between separators or ends of the text, and holds no separator. -/
structure Between (separators before part after : List Char) : Prop where
  /-- No character of the part is a separator. -/
  free : ∀ c ∈ part, c ∉ separators
  /-- What stands before it ends with one, if anything does. -/
  before : ∀ c ∈ before.getLast?, c ∈ separators
  /-- What stands after it starts with one, if anything does. -/
  after : ∀ c ∈ after.head?, c ∈ separators

/-- A part does not hold the separator that it stands between. -/
theorem Between.notMem {separator : Char} {before part after : List Char}
    (h : Between [separator] before part after) : separator ∉ part :=
  fun hmem => h.free separator hmem (List.mem_singleton.mpr rfl)

/-- Between the same separators there may stand any other text of characters of a part. -/
theorem Between.of_subset {separators before part after other : List Char}
    (h : Between separators before part after) (hsubset : other ⊆ part) :
    Between separators before other after :=
  ⟨fun c hc => h.free c (hsubset hc), h.before, h.after⟩

/-- What stands before a part may be put after one more character, if this is a separator or there is
some. -/
theorem Between.cons {separators before part after : List Char} {c : Char}
    (h : Between separators before part after) (hc : c ∈ separators ∨ before ≠ []) :
    Between separators (c :: before) part after := by
  refine ⟨h.free, fun last hlast => ?_, h.after⟩
  rw [List.getLast?_cons] at hlast
  obtain rfl := Option.some.inj hlast
  cases hbefore : before.getLast? with
  | none =>
    have hnil : before = [] := List.getLast?_eq_none_iff.mp hbefore
    exact hc.resolve_right fun hne => hne hnil
  | some last => exact h.before last hbefore

/-- If no separator stands before a part, nothing does. -/
theorem Between.eq_nil {separator : Char} {before part after : List Char}
    (h : Between [separator] before part after) (hcount : before.count separator = 0) : before = [] := by
  by_contra hne
  have hlast := h.before _ (List.getLast?_eq_some_getLast hne)
  rw [List.mem_singleton] at hlast
  exact List.count_eq_zero.mp hcount (hlast ▸ List.getLast_mem hne)

/-- A separator at the start leaves an empty part before it. -/
theorem splitOn_cons_self (separator : Char) (rest : List Char) :
    (separator :: rest).splitOn separator = [] :: rest.splitOn separator := by
  rw [List.splitOn_eq_splitOnP, List.splitOn_eq_splitOnP, List.splitOnP_cons_eq_if_modifyHead,
    if_pos (by simp)]

/-- Another character at the start goes to the first part. -/
theorem splitOn_cons_of_ne {separator c : Char} (hc : c ≠ separator) (rest : List Char) :
    ∃ first others, rest.splitOn separator = first :: others ∧
      (c :: rest).splitOn separator = (c :: first) :: others := by
  rw [List.splitOn_eq_splitOnP, List.splitOn_eq_splitOnP, List.splitOnP_cons_eq_if_modifyHead,
    if_neg (by simpa using hc)]
  obtain ⟨first, others, hsplit⟩ := List.exists_cons_of_ne_nil (List.splitOnP_ne_nil (· == separator) rest)
  exact ⟨first, others, hsplit, by rw [hsplit, List.modifyHead_cons]⟩

/-- The parts of a text stand between separators, and before each as many of these as parts. -/
theorem of_getElem?_splitOn {separator : Char} {text part : List Char} {n : ℕ}
    (h : (text.splitOn separator)[n]? = some part) :
    ∃ before after, text = before ++ part ++ after ∧ Between [separator] before part after ∧
      before.count separator = n := by
  induction text generalizing part n with
  | nil =>
    obtain ⟨rfl, rfl⟩ : n = 0 ∧ part = [] := by
      cases n with
      | zero => simpa using h.symm
      | succ n => simp at h
    exact ⟨[], [], rfl, ⟨by simp, by simp, by simp⟩, rfl⟩
  | cons c rest ih =>
    by_cases hc : c = separator
    · subst hc
      rw [splitOn_cons_self] at h
      cases n with
      | zero =>
        obtain rfl : [] = part := by simpa using h
        exact ⟨[], c :: rest, rfl, ⟨by simp, by simp, by simp⟩, rfl⟩
      | succ n =>
        obtain ⟨before, after, rfl, hbetween, hcount⟩ := ih (by simpa using h)
        exact ⟨c :: before, after, rfl, hbetween.cons (Or.inl (by simp)), by simp [hcount]⟩
    · obtain ⟨first, others, hrest, hsplit⟩ := splitOn_cons_of_ne hc rest
      rw [hsplit] at h
      cases n with
      | zero =>
        obtain rfl : c :: first = part := by simpa using h
        have hfirst : (rest.splitOn separator)[0]? = some first := by simp [hrest]
        obtain ⟨before, after, rfl, hbetween, hcount⟩ := ih hfirst
        obtain rfl := hbetween.eq_nil hcount
        have hfree : ∀ d ∈ c :: first, d ∉ [separator] := by
          intro d hd
          rcases List.mem_cons.mp hd with rfl | hd
          · simpa using hc
          · exact hbetween.free d hd
        exact ⟨[], after, rfl, ⟨hfree, by simp, hbetween.after⟩, rfl⟩
      | succ n =>
        have hlater : (rest.splitOn separator)[n + 1]? = some part := by simpa [hrest] using h
        obtain ⟨before, after, rfl, hbetween, hcount⟩ := ih hlater
        have hne : before ≠ [] := by
          rintro rfl
          simp at hcount
        exact ⟨c :: before, after, rfl, hbetween.cons (Or.inr hne), by simp [hc, hcount]⟩

/-- A part of a part stands between the separators of both. -/
theorem Between.nested {outer inner : Char} {before front part back after : List Char}
    (h : Between [outer] before (front ++ part ++ back) after) (h' : Between [inner] front part back) :
    Between [outer, inner] (before ++ front) part (back ++ after) := by
  refine ⟨fun c hc => ?_, fun c hc => ?_, fun c hc => ?_⟩
  · have houter := h.free c (by simp [hc])
    have hinner := h'.free c hc
    simp only [List.mem_singleton] at houter hinner
    simp [houter, hinner]
  · rw [List.getLast?_append] at hc
    rcases Option.or_eq_some_iff.mp hc with hc | ⟨-, hc⟩
    · exact List.mem_cons_of_mem outer (h'.before c hc)
    · exact List.mem_cons.mpr (Or.inl (List.mem_singleton.mp (h.before c hc)))
  · rw [List.head?_append] at hc
    rcases Option.or_eq_some_iff.mp hc with hc | ⟨-, hc⟩
    · exact List.mem_cons_of_mem outer (h'.after c hc)
    · exact List.mem_cons.mpr (Or.inl (List.mem_singleton.mp (h.after c hc)))

/-! ## A part and the others -/

/-- Before the parts after the first stand the separators. -/
theorem length_splitOn (separator : Char) (text : List Char) :
    (text.splitOn separator).length = text.count separator + 1 := by
  induction text with
  | nil => rfl
  | cons c rest ih =>
    by_cases hc : c = separator
    · subst hc
      rw [splitOn_cons_self, List.length_cons, ih, List.count_cons_self]
    · obtain ⟨first, others, hrest, hsplit⟩ := splitOn_cons_of_ne hc rest
      rw [hrest, List.length_cons] at ih
      rw [hsplit, List.length_cons, ih, List.count_cons_of_ne hc]

/-- A text with a part is split into the parts of what stands before, the part, and the parts of what stands
after. -/
theorem Between.splitOn_eq {separator : Char} {before part after : List Char}
    (h : Between [separator] before part after) :
    (before ++ part ++ after).splitOn separator =
      (before.splitOn separator).dropLast ++ part :: (after.splitOn separator).tail := by
  have hpart : part.splitOn separator = [part] := List.splitOn_eq_singleton h.notMem
  have hrest : (part ++ after).splitOn separator = part :: (after.splitOn separator).tail := by
    cases after with
    | nil => rw [List.append_nil, hpart, List.splitOn_nil, List.tail_cons]
    | cons c rest =>
      obtain rfl : c = separator := List.mem_singleton.mp (h.after c rfl)
      rw [List.splitOn_append_cons_self, hpart, splitOn_cons_self, List.tail_cons,
        List.singleton_append]
  rcases List.eq_nil_or_concat before with rfl | ⟨front, c, rfl⟩
  · rw [List.nil_append, hrest, List.splitOn_nil]
    rfl
  · obtain rfl : c = separator := by
      simpa using h.before c (by simp)
    rw [List.concat_eq_append, List.append_assoc, List.append_assoc, List.singleton_append,
      List.splitOn_append_cons_self, hrest, List.splitOn_append_cons_self, List.splitOn_nil,
      List.dropLast_concat]

/-- If no separator stands after a part, nothing does. -/
theorem Between.eq_nil_after {separator : Char} {before part after : List Char}
    (h : Between [separator] before part after) (hcount : after.count separator = 0) : after = [] := by
  cases after with
  | nil => rfl
  | cons c rest =>
    obtain rfl : c = separator := List.mem_singleton.mp (h.after c rfl)
    simp at hcount

/-- A text starts with a part. -/
theorem exists_between_start (separator : Char) (text : List Char) :
    ∃ part after, text = part ++ after ∧ Between [separator] [] part after := by
  have hlength := length_splitOn separator text
  obtain ⟨part, hpart⟩ : ∃ part, (text.splitOn separator)[0]? = some part :=
    ⟨_, List.getElem?_eq_getElem (by omega)⟩
  obtain ⟨before, after, htext, hbetween, hcount⟩ := of_getElem?_splitOn hpart
  obtain rfl := hbetween.eq_nil hcount
  exact ⟨part, after, htext, hbetween⟩

/-- The parts of the parts of a text are what stands between either separator. -/
theorem flatMap_splitOn (outer inner : Char) (text : List Char) :
    (text.splitOn outer).flatMap (·.splitOn inner) =
      text.splitOnP fun c => c = outer || c = inner := by
  induction text with
  | nil => rfl
  | cons c rest ih =>
    rw [List.splitOnP_cons_eq_if_modifyHead]
    by_cases hc : c = outer
    · subst hc
      rw [splitOn_cons_self, List.flatMap_cons, ih, List.splitOn_nil, if_pos (by simp)]
      rfl
    · obtain ⟨first, others, hrest, hsplit⟩ := splitOn_cons_of_ne hc rest
      rw [hrest, List.flatMap_cons] at ih
      rw [hsplit, List.flatMap_cons]
      by_cases hinner : c = inner
      · subst hinner
        rw [splitOn_cons_self, List.cons_append, ih, if_pos (by simp)]
      · obtain ⟨front, back, hfirst, hcut⟩ := splitOn_cons_of_ne hinner first
        rw [hfirst, List.cons_append] at ih
        rw [hcut, List.cons_append, ← ih, if_neg (by simp [hc, hinner]), List.modifyHead_cons]

/-- A text ends with a part. -/
theorem exists_between_end (separator : Char) (text : List Char) :
    ∃ before part, text = before ++ part ∧ Between [separator] before part [] := by
  have hlength := length_splitOn separator text
  obtain ⟨part, hpart⟩ : ∃ part, (text.splitOn separator)[text.count separator]? = some part :=
    ⟨_, List.getElem?_eq_getElem (by omega)⟩
  obtain ⟨before, after, htext, hbetween, hcount⟩ := of_getElem?_splitOn hpart
  have htotal := congrArg (List.count separator) htext
  rw [List.count_append, List.count_append] at htotal
  obtain rfl := hbetween.eq_nil_after (by omega)
  exact ⟨before, part, htext.trans (List.append_nil _), hbetween⟩

/-- A part between two separators is a part of a part. -/
theorem Between.unnest {outer inner : Char} {before part after : List Char}
    (h : Between [outer, inner] before part after) :
    ∃ top front back bottom, before = top ++ front ∧ after = back ++ bottom ∧
      Between [outer] top (front ++ part ++ back) bottom ∧ Between [inner] front part back := by
  obtain ⟨top, front, rfl, htop⟩ := exists_between_end outer before
  obtain ⟨back, bottom, rfl, hbottom⟩ := exists_between_start outer after
  have hinner {c : Char} (hc : c ∉ [outer]) (hboth : c ∈ [outer, inner]) : c ∈ [inner] := by
    simp only [List.mem_cons, List.not_mem_nil, or_false] at hc hboth ⊢
    exact hboth.resolve_left hc
  refine ⟨top, front, back, bottom, rfl, rfl, ⟨fun c hc => ?_, htop.before, hbottom.after⟩,
    fun c hc => ?_, fun c hc => ?_, fun c hc => ?_⟩
  · rcases List.mem_append.mp hc with hc | hc
    · rcases List.mem_append.mp hc with hc | hc
      · exact htop.free c hc
      · exact fun houter => h.free c hc (List.mem_cons.mpr (Or.inl (List.mem_singleton.mp houter)))
    · exact hbottom.free c hc
  · exact fun hmem => h.free c hc (List.mem_cons_of_mem outer hmem)
  · refine hinner (htop.free c (List.mem_of_getLast? hc)) (h.before c ?_)
    rw [List.getLast?_append]
    simp [Option.mem_def.mp hc]
  · refine hinner (hbottom.free c (List.mem_of_head? hc)) (h.after c ?_)
    rw [List.head?_append]
    simp [Option.mem_def.mp hc]

end OriginMap.Text
