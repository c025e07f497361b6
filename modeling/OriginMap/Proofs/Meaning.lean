import Mathlib.Algebra.BigOperators.Group.List.Basic
import Mathlib.Tactic.IntervalCases
import OriginMap.Proofs.Mappings
import OriginMap.Proofs.Placing

/-!
# Running values are totals

Reading a mapping text carries five running values along. At every piece they are the totals of the
pieces that count so far, and so a text has the entries that its totals tell. A piece that counts moves
each running value by the number that it has at that place; at the start of a line the totals that are
made in each line on its own fall back to zero.
-/

namespace OriginMap.Mappings

open Text

variable {mode : Accumulation} {counted : List Piece} {p : Piece} {line other place : ℕ}

/-! ## Totals -/

/-- A total is a sum. -/
theorem total_eq_sum (mode : Accumulation) (counted : List Piece) (line place : ℕ) :
    total mode counted line place =
      ((counted.filter (·.reaches mode line place)).filterMap (·.values[place]?)).sum := rfl

/-- One more piece adds the number that it has at a place. -/
theorem total_append (h : p.reaches mode line place = true) :
    total mode (counted ++ [p]) line place =
      total mode counted line place + (p.values[place]?).getD 0 := by
  rw [total_eq_sum, total_eq_sum, List.filter_append, List.filterMap_append, List.sum_append]
  cases hvalue : p.values[place]? <;> simp [h, hvalue]

/-- A piece adds its numbers to the totals of its own line. -/
theorem total_append_self (mode : Accumulation) (counted : List Piece) (p : Piece) (place : ℕ) :
    total mode (counted ++ [p]) p.line place =
      total mode counted p.line place + (p.values[place]?).getD 0 :=
  total_append (by simp [Piece.reaches])

/-- Across lines the totals on the source side go on. -/
theorem total_crossLine (hplace : place ≠ 0) :
    total .crossLine counted line place = total .crossLine counted other place := by
  simp [total, Piece.reaches, hplace]

/-- Before any piece of a line, the totals that are made in each line on its own are zero. -/
theorem total_eq_zero (hbefore : ∀ p ∈ counted, p.line < line) (hplace : place = 0 ∨ mode = .perLine) :
    total mode counted line place = 0 := by
  have hnone : counted.filter (·.reaches mode line place) = [] := by
    rw [List.filter_eq_nil_iff]
    intro p hp
    have hline := hbefore p hp
    rcases hplace with rfl | rfl
    · simp [Piece.reaches, hline.ne]
    · simp [Piece.reaches, hline.ne]
  rw [total, hnone]
  rfl

/-! ## Pieces -/

/-- The position that the pieces which count lead to at a line. -/
def positionAt (mode : Accumulation) (counted : List Piece) (line : ℕ) : Position :=
  ⟨total mode counted line 0, ⟨total mode counted line 1, total mode counted line 2,
    total mode counted line 3, total mode counted line 4⟩⟩

/-- The first line starts from the totals of no pieces. -/
theorem lineStart_zero (mode : Accumulation) : lineStart mode .zero = positionAt mode [] 0 := by
  cases mode <;> rfl

/-- The next line starts from the totals. -/
theorem lineStart_positionAt (hbefore : ∀ p ∈ counted, p.line ≤ line) :
    lineStart mode (positionAt mode counted line).running = positionAt mode counted (line + 1) := by
  have hearlier : ∀ p ∈ counted, p.line < line + 1 := fun p hp => Nat.lt_succ_of_le (hbefore p hp)
  have hgenerated : total mode counted (line + 1) 0 = 0 := total_eq_zero hearlier (Or.inl rfl)
  cases mode with
  | crossLine =>
    have hgoesOn (place : ℕ) (hplace : place ≠ 0) :
        total .crossLine counted line place = total .crossLine counted (line + 1) place :=
      total_crossLine hplace
    simp only [lineStart, positionAt, hgenerated, hgoesOn 1 (by decide), hgoesOn 2 (by decide),
      hgoesOn 3 (by decide), hgoesOn 4 (by decide)]
  | perLine =>
    have hfresh (place : ℕ) : total .perLine counted (line + 1) place = 0 :=
      total_eq_zero hearlier (Or.inr rfl)
    simp only [lineStart, positionAt, hfresh, Running.zero]

/-- A piece is accepted if it has one, four or five numbers and no sum of a running value and its number
overflows. -/
theorem accepted_iff : Accepted mode counted p ↔
    (p.values.length = 1 ∨ p.values.length = 4 ∨ p.values.length = 5) ∧
      ∀ place value, p.values[place]? = some value →
        fitsSigned (total mode counted p.line place + value) = true := by
  refine and_congr_right fun _ => ⟨fun h place value hvalue => ?_, fun h place hplace => ?_⟩
  · obtain ⟨hplace, -⟩ := List.getElem?_eq_some_iff.mp hvalue
    have hfits := h place hplace
    rwa [total_append_self, hvalue] at hfits
  · have hvalue := List.getElem?_eq_getElem hplace
    rw [total_append_self, hvalue]
    exact h place _ hvalue

/-- A property of all items of a list by their places, told of the first and of the rest. -/
theorem forall_getElem?_cons {α : Type} {holds : ℕ → α → Prop} {first : α} {rest : List α} :
    (∀ i a, (first :: rest)[i]? = some a → holds i a) ↔
      holds 0 first ∧ ∀ i a, rest[i]? = some a → holds (i + 1) a := by
  constructor
  · exact fun h => ⟨h 0 first rfl, fun i a ha => h (i + 1) a ha⟩
  · rintro ⟨hfirst, hrest⟩ i a ha
    cases i with
    | zero => exact Option.some.inj ha ▸ hfirst
    | succ i => exact hrest i a ha

/-- A piece of four or five numbers is accepted if none of the sums overflows. -/
theorem accepted_mapping_iff (mode : Accumulation) (counted : List Piece) (line : ℕ)
    (generated source sourceLine column : ℤ) (name : Option ℤ) :
    Accepted mode counted ⟨line, generated :: source :: sourceLine :: column :: name.toList⟩ ↔
      fitsSigned (total mode counted line 0 + generated) = true ∧
        (∀ delta ∈ name, fitsSigned (total mode counted line 4 + delta) = true) ∧
        fitsSigned (total mode counted line 1 + source) = true ∧
        fitsSigned (total mode counted line 2 + sourceLine) = true ∧
        fitsSigned (total mode counted line 3 + column) = true := by
  simp only [accepted_iff, forall_getElem?_cons]
  cases name with
  | none => simp
  | some delta =>
    simp only [Option.toList_some, forall_getElem?_cons, Option.mem_some_iff, forall_eq',
      List.length_cons, List.length_nil, List.getElem?_nil, reduceCtorEq]
    tauto

/-- What follows a sum is reached if the sum fits. -/
theorem sum?_bind {α : Type} (a b : ℤ) (next : ℤ → Option α) :
    (sum? a b).bind next = if fitsSigned (a + b) = true then next (a + b) else none := by
  rw [sum?]
  split <;> rfl

/-- A position is led on by the numbers of a piece exactly if the piece is accepted. -/
theorem advance_positionAt (mode : Accumulation) (counted : List Piece) (line : ℕ)
    (generated source sourceLine column : ℤ) (name : Option ℤ) :
    let p : Piece := ⟨line, generated :: source :: sourceLine :: column :: name.toList⟩
    (positionAt mode counted line).advance generated source sourceLine column name =
      if Accepted mode counted p then some (positionAt mode (counted ++ [p]) line) else none := by
  intro p
  have hself (place : ℕ) : total mode (counted ++ [p]) line place =
      total mode counted line place + (p.values[place]?).getD 0 := total_append_self mode counted p place
  simp only [positionAt, hself, p, accepted_mapping_iff, ite_and]
  cases name with
  | none => simp [Position.advance, sum?_bind]
  | some delta => simp [Position.advance, sum?_bind]

/-- In a line that has a word for its number, the entry of an accepted piece is that of the position it
leads to. -/
theorem mapped?_positionAt (haccepted : Accepted mode counted p) (hlength : 4 ≤ p.values.length)
    (hline : p.line < UInt32.size) :
    Position.entry? (positionAt mode (counted ++ [p]) p.line) (UInt32.ofNat p.line)
      (decide (p.values.length = 5)) = p.mapped? mode counted := by
  have hword : word? (p.line : ℤ) = some (UInt32.ofNat p.line) := by
    rw [word?_eq_some_iff, UInt32.toNat_ofNat_of_lt' hline]
  rw [Piece.mapped?, if_pos ⟨haccepted, hlength⟩]
  by_cases hfive : p.values.length = 5
  · simp [hword, hfive, positionAt, Position.entry?]
  · simp [hword, hfive, positionAt, Position.entry?]

/-- The entry of what becomes of a piece is that of the piece. -/
@[simp]
theorem entry?_outcome (mode : Accumulation) (counted : List Piece) (p : Piece) :
    Outcome.entry? (p.outcome mode counted) = p.mapped? mode counted := by
  rw [Piece.outcome]
  cases p.mapped? mode counted with
  | some e => rfl
  | none =>
    show Outcome.entry? (if Accepted mode counted p ∧ p.values.length = 1 then .unmapped else .skipped) = none
    split <;> rfl

/-- A piece that is not accepted is skipped. -/
theorem outcome_of_not_accepted (h : ¬Accepted mode counted p) : p.outcome mode counted = .skipped := by
  have hnone : p.mapped? mode counted = none := if_neg fun haccepted => h haccepted.1
  simp only [Piece.outcome, hnone, if_neg fun haccepted => h (And.left haccepted)]

/-- What a piece of four or five numbers is read as, and where it leads. -/
theorem map_positionAt (mode : Accumulation) (counted : List Piece) (hline : line < UInt32.size)
    (generated source sourceLine column : ℤ) (name : Option ℤ) :
    let p : Piece := ⟨line, generated :: source :: sourceLine :: column :: name.toList⟩
    (positionAt mode counted line).map (UInt32.ofNat line) generated source sourceLine column name =
      (p.outcome mode counted, positionAt mode (extend mode counted p) line) := by
  intro p
  have hadvance := advance_positionAt mode counted line generated source sourceLine column name
  by_cases haccepted : Accepted mode counted p
  · replace hadvance := hadvance.trans (if_pos haccepted)
    have hentry := mapped?_positionAt haccepted (by simp [p]) hline
    have hnamed : decide (p.values.length = 5) = name.isSome := by cases name <;> rfl
    have hsingle : ¬(Accepted mode counted p ∧ p.values.length = 1) := fun h => absurd h.2 (by simp [p])
    rw [hnamed] at hentry
    simp only [Position.map, hadvance, extend, if_pos haccepted, Piece.outcome, ← hentry, if_neg hsingle]
    cases Position.entry? (positionAt mode (counted ++ [p]) line) (UInt32.ofNat line) name.isSome <;> rfl
  · replace hadvance := hadvance.trans (if_neg haccepted)
    simp only [Position.map, hadvance, extend, if_neg haccepted, outcome_of_not_accepted haccepted]

/-- With a piece of one number only the total of the generated column moves. -/
theorem positionAt_append_single (mode : Accumulation) (counted : List Piece) (line : ℕ)
    (generated : ℤ) : positionAt mode (counted ++ [⟨line, [generated]⟩]) line =
      ⟨total mode counted line 0 + generated, (positionAt mode counted line).running⟩ := by
  have hself (place : ℕ) : total mode (counted ++ [⟨line, [generated]⟩]) line place =
      total mode counted line place + ([generated][place]?).getD 0 :=
    total_append_self mode counted ⟨line, [generated]⟩ place
  simp [positionAt, hself]

/-- A piece of one number is accepted if the generated column does not overflow. -/
theorem accepted_single_iff (mode : Accumulation) (counted : List Piece) (line : ℕ)
    (generated : ℤ) :
    Accepted mode counted ⟨line, [generated]⟩ ↔
      fitsSigned (total mode counted line 0 + generated) = true := by
  simp [accepted_iff, forall_getElem?_cons]

/-- A piece that is not accepted leads nowhere. -/
theorem extend_of_not_accepted (h : ¬Accepted mode counted p) : extend mode counted p = counted :=
  if_neg h

/-- A piece of another number of numbers is skipped and does not count. -/
theorem skipped_of_length (mode : Accumulation) (counted : List Piece)
    (h : ¬(p.values.length = 1 ∨ p.values.length = 4 ∨ p.values.length = 5)) :
    (Outcome.skipped, positionAt mode counted line) =
      (p.outcome mode counted, positionAt mode (extend mode counted p) line) := by
  have hnot : ¬Accepted mode counted p := fun haccepted => h haccepted.1
  rw [outcome_of_not_accepted hnot, extend_of_not_accepted hnot]

/-- What a piece of one number is read as, and where it leads. -/
theorem move_positionAt (mode : Accumulation) (counted : List Piece) (line : ℕ) (generated : ℤ) :
    let p : Piece := ⟨line, [generated]⟩
    let read : Outcome × Position := match sum? (positionAt mode counted line).generated generated with
      | some column => (.unmapped, { positionAt mode counted line with generated := column })
      | none => (.skipped, positionAt mode counted line)
    read = (p.outcome mode counted, positionAt mode (extend mode counted p) line) := by
  intro p read
  by_cases haccepted : Accepted mode counted p
  · have hfits := (accepted_single_iff mode counted line generated).mp haccepted
    have hsum : sum? (positionAt mode counted line).generated generated =
        some (total mode counted line 0 + generated) := if_pos hfits
    have hnone : p.mapped? mode counted = none := if_neg fun h => absurd h.2 (by simp [p])
    have hsingle : Accepted mode counted p ∧ p.values.length = 1 := ⟨haccepted, rfl⟩
    simp only [read, hsum, extend, if_pos haccepted, Piece.outcome, hnone, if_pos hsingle,
      p, positionAt_append_single]
  · have hsum : sum? (positionAt mode counted line).generated generated = none :=
      if_neg fun hfits => haccepted ((accepted_single_iff mode counted line generated).mpr hfits)
    simp only [read, hsum, outcome_of_not_accepted haccepted, extend_of_not_accepted haccepted]

/-- A piece is read as the totals tell, and leads to those with it if it counts. -/
theorem readPiece_positionAt (mode : Accumulation) (counted : List Piece) (hline : line < UInt32.size)
    (piece : List Char) :
    let p : Piece := ⟨line, Delta.decode piece⟩
    readPiece (UInt32.ofNat line) piece (positionAt mode counted line) =
      (p.outcome mode counted, positionAt mode (extend mode counted p) line) := by
  unfold readPiece
  rcases Delta.decode piece with _ | ⟨generated, _ | ⟨source, _ | ⟨sourceLine, _ | ⟨column, names⟩⟩⟩⟩
  · exact skipped_of_length mode counted (by simp)
  · exact move_positionAt mode counted line generated
  · exact skipped_of_length mode counted (by simp)
  · exact skipped_of_length mode counted (by simp)
  · rcases names with _ | ⟨name, _ | ⟨next, others⟩⟩
    · exact map_positionAt mode counted hline generated source sourceLine column none
    · exact map_positionAt mode counted hline generated source sourceLine column (some name)
    · refine skipped_of_length mode counted ?_
      simp only [List.length_cons]
      omega

/-! ## Lines -/

/-- What becomes of some pieces after those that count so far. -/
def outcomesFrom (mode : Accumulation) (counted : List Piece) : List Piece → List Outcome
  | [] => []
  | p :: rest => p.outcome mode counted :: outcomesFrom mode (extend mode counted p) rest

/-- What becomes of pieces in a row. -/
theorem outcomesFrom_append (mode : Accumulation) (counted first second : List Piece) :
    outcomesFrom mode counted (first ++ second) =
      outcomesFrom mode counted first ++
        outcomesFrom mode (first.foldl (extend mode) counted) second := by
  induction first generalizing counted with
  | nil => rfl
  | cons p rest ih => simp only [List.cons_append, outcomesFrom, ih, List.foldl_cons]

/-- The entries of some pieces after those that count so far. -/
def entriesFrom (mode : Accumulation) (counted : List Piece) : List Piece → List Entry
  | [] => []
  | p :: rest => (p.mapped? mode counted).toList ++ entriesFrom mode (extend mode counted p) rest

/-- They are the entries of what becomes of the pieces. -/
theorem entriesFrom_eq (mode : Accumulation) (counted added : List Piece) :
    entriesFrom mode counted added = (outcomesFrom mode counted added).filterMap Outcome.entry? := by
  induction added generalizing counted with
  | nil => rfl
  | cons p rest ih =>
    rw [entriesFrom, outcomesFrom, List.filterMap_cons, entry?_outcome, ih]
    cases p.mapped? mode counted <;> rfl

/-- The entries of pieces in a row. -/
theorem entriesFrom_append (mode : Accumulation) (counted first second : List Piece) :
    entriesFrom mode counted (first ++ second) =
      entriesFrom mode counted first ++
        entriesFrom mode (first.foldl (extend mode) counted) second := by
  simp only [entriesFrom_eq, outcomesFrom_append, List.filterMap_append]

/-- What counts did so before or is one of the pieces added. -/
theorem mem_foldl_extend {added : List Piece} (h : p ∈ added.foldl (extend mode) counted) :
    p ∈ counted ∨ p ∈ added := by
  induction added generalizing counted with
  | nil => exact Or.inl h
  | cons next rest ih =>
    rcases ih h with hcounted | hrest
    · unfold extend at hcounted
      split at hcounted
      · rcases List.mem_append.mp hcounted with hcounted | hnext
        · exact Or.inl hcounted
        · exact Or.inr (List.mem_cons.mpr (Or.inl (List.mem_singleton.mp hnext)))
      · exact Or.inl hcounted
    · exact Or.inr (List.mem_cons_of_mem next hrest)

/-- The pieces of a line are read as the totals tell. -/
theorem run_mapM_readPiece (mode : Accumulation) (counted : List Piece) (hline : line < UInt32.size)
    (texts : List (List Char)) :
    let added : List Piece := texts.map fun piece => ⟨line, Delta.decode piece⟩
    (texts.mapM (readPiece (UInt32.ofNat line))).run (positionAt mode counted line) =
      (outcomesFrom mode counted added, positionAt mode (added.foldl (extend mode) counted) line) := by
  induction texts generalizing counted with
  | nil => rfl
  | cons piece texts ih =>
    intro added
    have hpiece : (readPiece (UInt32.ofNat line) piece).run (positionAt mode counted line) = _ :=
      readPiece_positionAt mode counted hline piece
    rw [List.mapM_cons, StateT.run_bind, hpiece]
    show ((texts.mapM (readPiece (UInt32.ofNat line)) >>= fun others => pure (_ :: others)).run _) = _
    rw [StateT.run_bind, ih]
    rfl

/-- Lines that have words for their numbers are read as the totals tell, one after another, and the line
after them starts from the totals with their pieces. -/
theorem run_mapM_readLine {running : Running}
    (hstart : lineStart mode running = positionAt mode counted line)
    (hbefore : ∀ p ∈ counted, p.line < line) {lines : List (List Char)}
    (hlines : line + lines.length ≤ UInt32.size) :
    let added := (lines.zipIdx line).flatMap linePieces
    let read := ((lines.zipIdx line).mapM (readLine mode)).run running
    read.1.flatten = outcomesFrom mode counted added ∧
      lineStart mode read.2 =
        positionAt mode (added.foldl (extend mode) counted) (line + lines.length) := by
  induction lines generalizing counted running line with
  | nil => exact ⟨rfl, hstart⟩
  | cons text lines ih =>
    intro added read
    rw [List.length_cons] at hlines
    let first := linePieces (text, line)
    have hcounted : ∀ p ∈ first.foldl (extend mode) counted, p.line ≤ line := by
      intro p hp
      rcases mem_foldl_extend hp with hp | hp
      · exact (hbefore p hp).le
      · obtain ⟨piece, -, rfl⟩ := List.mem_map.mp hp
        exact le_rfl
    obtain ⟨hrest, hafter⟩ := ih (lineStart_positionAt hcounted)
      (fun p hp => Nat.lt_succ_of_le (hcounted p hp)) (by omega)
    have hline : (readLine mode (text, line)).run running = (outcomesFrom mode counted first,
        (positionAt mode (first.foldl (extend mode) counted) line).running) := by
      rw [run_readLine, hstart, run_mapM_readPiece mode counted (by omega : line < UInt32.size)]
      rfl
    have hadded : added = first ++ (lines.zipIdx (line + 1)).flatMap linePieces := by
      rw [← List.flatMap_cons, ← List.zipIdx_cons]
    simp only [read, List.zipIdx_cons, List.mapM_cons, StateT.run_bind, hline]
    rw [hadded, outcomesFrom_append, ← hrest, List.foldl_append, List.length_cons, ← Nat.add_assoc,
      Nat.add_right_comm, ← hafter]
    exact ⟨rfl, rfl⟩

/-- Pieces in lines that have no words for their numbers have no entries. -/
theorem entriesFrom_eq_nil {added : List Piece} (h : ∀ p ∈ added, UInt32.size ≤ p.line) :
    entriesFrom mode counted added = [] := by
  induction added generalizing counted with
  | nil => rfl
  | cons p rest ih =>
    have hline := h p List.mem_cons_self
    have hword : word? (p.line : ℤ) = none := if_neg (by omega)
    have hnone : p.mapped? mode counted = none := by simp [Piece.mapped?, hword]
    rw [entriesFrom, hnone, ih fun other hother => h other (List.mem_cons_of_mem p hother)]
    rfl

/-- A text has the entries that its totals tell. -/
theorem entries_decode (text : String) (mode : Accumulation) :
    (decode text mode).entries = entriesFrom mode [] (placed text.toList) := by
  -- Reading stops at the first line without a word for its number; from there on no piece has an entry.
  let lines := text.toList.splitOn ';'
  let later := (lines.drop UInt32.size).zipIdx (lines.take UInt32.size).length
  have hsplit : placed text.toList =
      (numberedLines text.toList).flatMap linePieces ++ later.flatMap linePieces := by
    have hlines : text.toList.splitOn ';' = lines.take UInt32.size ++ lines.drop UInt32.size :=
      (List.take_append_drop UInt32.size lines).symm
    rw [placed, hlines, List.zipIdx_append, Nat.zero_add, List.flatMap_append]
    rfl
  have hlater : ∀ p ∈ later.flatMap linePieces, UInt32.size ≤ p.line := by
    intro p hp
    obtain ⟨⟨text, number⟩, hnumber, hp⟩ := List.mem_flatMap.mp hp
    obtain ⟨piece, -, rfl⟩ := List.mem_map.mp hp
    obtain ⟨hfirst, hlast, -⟩ := List.mem_zipIdx hnumber
    rw [List.length_take] at hfirst hlast
    rw [List.length_drop] at hlast
    show UInt32.size ≤ number
    omega
  have hlength : 0 + (lines.take UInt32.size).length ≤ UInt32.size := by
    rw [List.length_take]
    omega
  obtain ⟨hread, -⟩ := run_mapM_readLine (lineStart_zero mode) (by simp) hlength
  rw [hsplit, entriesFrom_append, entriesFrom_eq_nil hlater, List.append_nil, entriesFrom_eq, numberedLines,
    ← hread]
  rfl

/-- If every line of a text has a word for its number, each piece becomes what the totals tell. -/
theorem outcomes_eq_outcomesFrom {text : List Char} (h : (text.splitOn ';').length ≤ UInt32.size)
    (mode : Accumulation) : outcomes text mode = outcomesFrom mode [] (placed text) := by
  obtain ⟨hread, -⟩ := run_mapM_readLine (lineStart_zero mode) (by simp)
    (show 0 + (text.splitOn ';').length ≤ UInt32.size by omega)
  rw [outcomes, numberedLines, List.take_of_length_le h, hread]
  rfl

/-- Told piece by piece, each becomes what it does after those before it. -/
theorem outcomesFrom_accepted (mode : Accumulation) (before added : List Piece) :
    outcomesFrom mode (accepted mode before) added =
      (added.zipIdx before.length).map fun (p, i) =>
        p.outcome mode (accepted mode ((before ++ added).take i)) := by
  induction added generalizing before with
  | nil => rfl
  | cons p rest ih =>
    have hextend : extend mode (accepted mode before) p = accepted mode (before ++ [p]) := by
      rw [accepted, accepted, List.foldl_append]
      rfl
    have hrest := ih (before ++ [p])
    rw [List.append_assoc, List.singleton_append, List.length_append, List.length_singleton] at hrest
    rw [outcomesFrom, hextend, hrest, List.zipIdx_cons, List.map_cons]
    simp only [List.take_left]

/-- Told piece by piece, each entry is that of a piece after those before it. -/
theorem entriesFrom_accepted (mode : Accumulation) (before added : List Piece) :
    entriesFrom mode (accepted mode before) added =
      (added.zipIdx before.length).filterMap fun (p, i) =>
        p.mapped? mode (accepted mode ((before ++ added).take i)) := by
  rw [entriesFrom_eq, outcomesFrom_accepted, List.filterMap_map]
  simp only [Function.comp_def, entry?_outcome]

/-! ## Entries -/

/-- An entry consists of the line of a piece and the totals with it; it has a name if the piece has five
numbers. -/
structure Told (mode : Accumulation) (counted : List Piece) (p : Piece) (e : Entry) : Prop where
  /-- The generated line is that of the piece. -/
  line : number e.generatedLine = p.line
  /-- The generated column is the total of the first numbers. -/
  column : number e.generatedColumn = total mode (counted ++ [p]) p.line 0
  /-- The source is the total of the second numbers. -/
  source : number e.sourceIndex = total mode (counted ++ [p]) p.line 1
  /-- The line in the source is the total of the third numbers. -/
  sourceLine : number e.sourceLine = total mode (counted ++ [p]) p.line 2
  /-- The column in the source is the total of the fourth numbers. -/
  sourceColumn : number e.sourceColumn = total mode (counted ++ [p]) p.line 3
  /-- The name is the total of the fifth numbers. -/
  name : e.nameIndex.map number =
    if p.values.length = 5 then some (total mode (counted ++ [p]) p.line 4) else none

/-- An integer gives a word if it is the number of the word. -/
theorem word?_eq_some_iff_number {n : ℤ} {w : UInt32} : word? n = some w ↔ number w = n := by
  rw [word?_eq_some_iff, number, eq_comm]

/-- A name that may be missing is read if it is the number of its word or is to be missing. -/
theorem nameIndex_eq_some {named : Prop} [Decidable named] {n : ℤ} {name : Option UInt32} :
    (if named then (word? n).map some else some none) = some name ↔
      name.map number = if named then some n else none := by
  by_cases hnamed : named
  · rw [if_pos hnamed, if_pos hnamed]
    simp only [Option.map_eq_some_iff, word?_eq_some_iff_number]
    exact exists_congr fun w => and_comm.trans (and_congr_left' eq_comm)
  · rw [if_neg hnamed, if_neg hnamed]
    simp only [Option.some.injEq, Option.map_eq_none_iff]
    exact eq_comm

/-- The entry of a piece is what is told by the totals. -/
theorem mapped?_eq_some {e : Entry} : p.mapped? mode counted = some e ↔
    Accepted mode counted p ∧ 4 ≤ p.values.length ∧ Told mode counted p e := by
  rw [Piece.mapped?]
  by_cases hcounts : Accepted mode counted p ∧ 4 ≤ p.values.length
  · rw [if_pos hcounts]
    simp only [Option.bind_eq_bind, Option.bind_eq_some_iff, Option.pure_def, Option.some.injEq,
      nameIndex_eq_some, word?_eq_some_iff_number]
    constructor
    · rintro ⟨name, hname, line, hline, column, hcolumn, source, hsource, sourceLine, hsourceLine,
        sourceColumn, hsourceColumn, rfl⟩
      exact ⟨hcounts.1, hcounts.2, hline, hcolumn, hsource, hsourceLine, hsourceColumn, hname⟩
    · rintro ⟨-, -, htold⟩
      exact ⟨_, htold.name, _, htold.line, _, htold.column, _, htold.source, _, htold.sourceLine, _,
        htold.sourceColumn, rfl⟩
  · rw [if_neg hcounts]
    exact ⟨nofun, fun h => absurd ⟨h.1, h.2.1⟩ hcounts⟩

/-- An integer is the number of a word exactly if it is in the range of words. -/
theorem exists_number_iff {n : ℤ} : (∃ w : UInt32, number w = n) ↔ 0 ≤ n ∧ n < UInt32.size := by
  constructor
  · rintro ⟨w, rfl⟩
    exact number_inRange w
  · intro hrange
    exact ⟨UInt32.ofNat n.toNat, word?_eq_some_iff_number.mp (if_pos hrange)⟩

/-- A piece has an entry exactly if it is accepted, has four numbers or five, and its line and the
totals of these are in the range of words. -/
theorem exists_mapped?_iff : (∃ e, p.mapped? mode counted = some e) ↔
    Accepted mode counted p ∧ 4 ≤ p.values.length ∧ p.line < UInt32.size ∧
      ∀ place < p.values.length, 0 ≤ total mode (counted ++ [p]) p.line place ∧
        total mode (counted ++ [p]) p.line place < UInt32.size := by
  constructor
  · rintro ⟨e, he⟩
    obtain ⟨haccepted, hlength, htold⟩ := mapped?_eq_some.mp he
    refine ⟨haccepted, hlength, ?_, fun place hplace => exists_number_iff.mp ?_⟩
    · have hline := number_inRange e.generatedLine
      rw [htold.line] at hline
      omega
    · have hfour : place ≤ 4 := by
        have := haccepted.1
        omega
      interval_cases place
      · exact ⟨_, htold.column⟩
      · exact ⟨_, htold.source⟩
      · exact ⟨_, htold.sourceLine⟩
      · exact ⟨_, htold.sourceColumn⟩
      · have hname := htold.name
        have hfive : p.values.length = 5 := by
          have := haccepted.1
          omega
        rw [if_pos hfive] at hname
        obtain ⟨name, -, hnumber⟩ := Option.map_eq_some_iff.mp hname
        exact ⟨name, hnumber⟩
  · rintro ⟨haccepted, hlength, hline, htotals⟩
    have hword (place : ℕ) (hplace : place < p.values.length) :
        ∃ w : UInt32, number w = total mode (counted ++ [p]) p.line place :=
      exists_number_iff.mpr (htotals place hplace)
    obtain ⟨line, hline⟩ : ∃ w : UInt32, number w = p.line := exists_number_iff.mpr (by omega)
    obtain ⟨column, hcolumn⟩ := hword 0 (by omega)
    obtain ⟨source, hsource⟩ := hword 1 (by omega)
    obtain ⟨sourceLine, hsourceLine⟩ := hword 2 (by omega)
    obtain ⟨sourceColumn, hsourceColumn⟩ := hword 3 (by omega)
    obtain ⟨name, hname⟩ : ∃ name : Option UInt32, name.map number =
        if p.values.length = 5 then some (total mode (counted ++ [p]) p.line 4) else none := by
      by_cases hfive : p.values.length = 5
      · obtain ⟨name, hname⟩ := hword 4 (by omega)
        exact ⟨some name, by rw [if_pos hfive, Option.map_some, hname]⟩
      · exact ⟨none, by rw [if_neg hfive, Option.map_none]⟩
    exact ⟨⟨line, column, source, sourceLine, sourceColumn, name⟩, mapped?_eq_some.mpr
      ⟨haccepted, hlength, hline, hcolumn, hsource, hsourceLine, hsourceColumn, hname⟩⟩

/-- What a mapping text means, in either mode. Its entries are those of its pieces, in the order of the
text, each after the pieces before it that are accepted. The pieces are what stands between the separators
and is not empty, each placed once, behind those before it and in the line that has as many semicolons
before it. A piece has an entry exactly if it is accepted, has four numbers or five, and its line and the
totals with it are in the range of words; and the entry then consists of these. -/
theorem decode_eq_totals (text : String) (mode : Accumulation) :
    let pieces := placed text.toList
    (decode text mode).entries = (pieces.zipIdx.filterMap fun (p, i) =>
        p.mapped? mode (accepted mode (pieces.take i))) ∧
      pieces.map Piece.values = (textPieces text.toList).map Delta.decode ∧
      (∀ before piece after, text.toList = before ++ piece ++ after →
        Between [';', ','] before piece after → piece ≠ [] →
          pieces[(textPieces before).length]? = some ⟨before.count ';', Delta.decode piece⟩) ∧
      (∀ p ∈ pieces, ∃ before piece after, text.toList = before ++ piece ++ after ∧
        Between [';', ','] before piece after ∧ piece ≠ [] ∧
          p = ⟨before.count ';', Delta.decode piece⟩) ∧
      ∀ counted p,
        ((∃ e, p.mapped? mode counted = some e) ↔
          Accepted mode counted p ∧ 4 ≤ p.values.length ∧ p.line < UInt32.size ∧
            ∀ place < p.values.length, 0 ≤ total mode (counted ++ [p]) p.line place ∧
              total mode (counted ++ [p]) p.line place < UInt32.size) ∧
        ∀ e, p.mapped? mode counted = some e → Told mode counted p e := by
  intro pieces
  refine ⟨?_, values_placed text.toList, ?_, fun p hp => of_mem_placed hp,
    fun counted p => ⟨exists_mapped?_iff, fun e he => ?_⟩⟩
  · have hentries := entriesFrom_accepted mode [] pieces
    rw [List.length_nil, List.nil_append] at hentries
    exact (entries_decode text mode).trans hentries
  · intro before piece after htext hbetween hne
    have hplace := getElem?_placed hbetween hne
    rwa [← htext] at hplace
  · obtain ⟨-, -, htold⟩ := mapped?_eq_some.mp he
    exact htold

/-- A piece of two numbers does not count, and one whose column is out of range has no entry and counts all
the same: the piece after it tells its column from it. -/
theorem decode_eq_totals_of_each_kind :
    let text := "AAAA,AA,DAAA,EAAA;,AAAA"
    let pieces := placed text.toList
    let before := ['A', 'A', 'A', 'A', ',']
    let after := ",DAAA,EAAA;,AAAA".toList
    let short : Piece := ⟨0, [0, 0]⟩
    let early : Piece := ⟨0, [-1, 0, 0, 0]⟩
    text.toList = before ++ ['A', 'A'] ++ after ∧ Between [';', ','] before ['A', 'A'] after ∧
      pieces[1]? = some short ∧ ¬Accepted .perLine (accepted .perLine (pieces.take 1)) short ∧
      pieces[2]? = some early ∧ Accepted .perLine (accepted .perLine (pieces.take 2)) early ∧
      early.mapped? .perLine (accepted .perLine (pieces.take 2)) = none ∧
      (pieces.zipIdx.filterMap fun (p, i) =>
        p.mapped? .perLine (accepted .perLine (pieces.take i))) =
          [⟨0, 0, 0, 0, 0, none⟩, ⟨0, 1, 0, 0, 0, none⟩, ⟨1, 0, 0, 0, 0, none⟩] := by
  intro text pieces before after short early
  obtain ⟨hentries, -, hplaces, -, hranges⟩ := decode_eq_totals text .perLine
  have htext : text.toList = before ++ ['A', 'A'] ++ after := by decide +kernel
  have hbetween : Between [';', ','] before ['A', 'A'] after :=
    ⟨by simp, by simp [before], by simp [after]⟩
  have hshort : pieces[1]? = some short := hplaces before ['A', 'A'] after htext hbetween (by decide)
  have hearly : pieces[2]? = some early := by decide +kernel
  have hcounts : Accepted .perLine (accepted .perLine (pieces.take 2)) early := by decide +kernel
  have hnone : early.mapped? .perLine (accepted .perLine (pieces.take 2)) = none := by
    -- Its column is minus one.
    rw [Option.eq_none_iff_forall_ne_some]
    intro e he
    obtain ⟨-, -, -, hrange⟩ := (hranges _ early).1.mp ⟨e, he⟩
    exact absurd (hrange 0 (by decide)).1 (by decide +kernel)
  refine ⟨htext, hbetween, hshort, fun haccepted => ?_, hearly, hcounts, hnone, ?_⟩
  · exact absurd haccepted.1 (by decide)
  · rw [← hentries]
    decide +kernel

end OriginMap.Mappings
