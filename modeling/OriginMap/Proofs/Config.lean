import Mathlib.Data.List.Basic
import Mathlib.Tactic.SplitIfs
import OriginMap.Config.Source

/-!
# Settings come from the last source that sets them

Sources are loaded in the order of their precedence, and those of one precedence in the order given. The
first that fails decides. If none does, each setting is on its own: it has the value of the last layer
that sets it, or its default, whatever sections the layers have. Only then it is judged whether the
settings make sense.
-/

namespace OriginMap.Config

open Files

/-! ## The order of sources -/

/-- The sources of one precedence, in the order given. -/
def ofPrecedence (precedence : Precedence) (sources : List Source) : List Source :=
  sources.filter (·.precedence = precedence)

/-- The sources of each precedence in the order given, from least to most. -/
def inOrder (sources : List Source) : List Source :=
  ofPrecedence .defaults sources ++ ofPrecedence .file sources ++ ofPrecedence .environment sources

/-- Sources whose precedences do not decrease are in order. -/
theorem inOrder_eq_self {sources : List Source}
    (hsorted : sources.Pairwise fun a b => a.precedence.rank ≤ b.precedence.rank) :
    inOrder sources = sources := by
  induction sources with
  | nil => rfl
  | cons source sources ih =>
    obtain ⟨hlater, hrest⟩ := List.pairwise_cons.mp hsorted
    have hrest := ih hrest
    -- A precedence below that of the first source does not come later.
    have hnone (lower : Precedence) (hlower : lower.rank < source.precedence.rank) :
        ofPrecedence lower sources = [] := by
      refine List.filter_eq_nil_iff.mpr fun later hmem heq => ?_
      have hle := hlater later hmem
      rw [of_decide_eq_true heq] at hle
      omega
    unfold inOrder ofPrecedence at hrest ⊢
    cases hprecedence : source.precedence with
    | defaults => simpa [List.filter_cons, hprecedence] using hrest
    | file =>
      have hdefaults := hnone .defaults (by rw [hprecedence]; decide)
      unfold ofPrecedence at hdefaults
      simpa [List.filter_cons, hprecedence, hdefaults] using hrest
    | environment =>
      have hdefaults := hnone .defaults (by rw [hprecedence]; decide)
      have hfile := hnone .file (by rw [hprecedence]; decide)
      unfold ofPrecedence at hdefaults hfile
      simpa [List.filter_cons, hprecedence, hdefaults, hfile] using hrest

/-- The order of precedences is transitive. -/
theorem precedence_trans (a b c : Source) (hab : decide (a.precedence.rank ≤ b.precedence.rank) = true)
    (hbc : decide (b.precedence.rank ≤ c.precedence.rank) = true) :
    decide (a.precedence.rank ≤ c.precedence.rank) = true :=
  decide_eq_true (Nat.le_trans (of_decide_eq_true hab) (of_decide_eq_true hbc))

/-- The order of precedences is total. -/
theorem precedence_total (a b : Source) :
    (decide (a.precedence.rank ≤ b.precedence.rank) ||
      decide (b.precedence.rank ≤ a.precedence.rank)) = true := by
  simpa using Nat.le_total a.precedence.rank b.precedence.rank

/-- Sorting leaves the sources of one precedence as they were given. -/
theorem ofPrecedence_byPrecedence (precedence : Precedence) (sources : List Source) :
    ofPrecedence precedence (byPrecedence sources) = ofPrecedence precedence sources := by
  have hsame : (ofPrecedence precedence sources).Pairwise fun a b =>
      decide (a.precedence.rank ≤ b.precedence.rank) = true := by
    refine List.pairwise_of_forall_mem_list fun a ha b hb => decide_eq_true (Nat.le_of_eq ?_)
    rw [of_decide_eq_true (List.mem_filter.mp ha).2, of_decide_eq_true (List.mem_filter.mp hb).2]
  have hstable : (ofPrecedence precedence sources).Sublist (byPrecedence sources) :=
    List.sublist_mergeSort precedence_trans precedence_total hsame List.filter_sublist
  have hkept : (ofPrecedence precedence sources).Sublist
      (ofPrecedence precedence (byPrecedence sources)) := by
    have hfiltered := hstable.filter (·.precedence = precedence)
    rwa [List.filter_eq_self.mpr fun source (hsource : source ∈ ofPrecedence precedence sources) =>
      (List.mem_filter.mp hsource).2] at hfiltered
  have hlength : (ofPrecedence precedence (byPrecedence sources)).length =
      (ofPrecedence precedence sources).length :=
    ((List.mergeSort_perm sources _).filter _).length_eq
  exact (hkept.eq_of_length_le (Nat.le_of_eq hlength)).symm

/-- Sorting puts sources in order. -/
theorem byPrecedence_eq_inOrder (sources : List Source) : byPrecedence sources = inOrder sources := by
  have hsorted : (byPrecedence sources).Pairwise fun a b =>
      decide (a.precedence.rank ≤ b.precedence.rank) = true :=
    List.pairwise_mergeSort precedence_trans precedence_total sources
  calc byPrecedence sources = inOrder (byPrecedence sources) :=
        (inOrder_eq_self (hsorted.imp of_decide_eq_true)).symm
    _ = inOrder sources := by simp only [inOrder, ofPrecedence_byPrecedence]

/-! ## Settings one by one -/

/-- The data directory that a layer sets. -/
def Layer.dataDir? (layer : Layer) : Option String := layer.store.bind StoreLayer.dataDir

/-- The days of keeping that a layer sets. -/
def Layer.retentionDays? (layer : Layer) : Option UInt32 := layer.store.bind StoreLayer.retentionDays

/-- The seconds between two sweeps that a layer sets. -/
def Layer.sweepIntervalSecs? (layer : Layer) : Option UInt64 :=
  layer.store.bind StoreLayer.sweepIntervalSecs

/-- The mode that a layer sets. -/
def Layer.accumulation? (layer : Layer) : Option Accumulation :=
  layer.store.bind StoreLayer.accumulation

/-- The level of the log that a layer sets. -/
def Layer.level? (layer : Layer) : Option String := layer.logging.bind LoggingLayer.level

/-- The value that the last of the layers sets, among those that set one. -/
def lastSet (setting : Layer → Option α) (layers : List Layer) : Option α :=
  (layers.filterMap setting).getLast?

/-- The settings of layers: each has the value that is set last, or its default. -/
def settingsOf (layers : List Layer) : Settings :=
  let defaults : Settings := {}
  { store := {
      dataDir := (lastSet Layer.dataDir? layers).getD defaults.store.dataDir
      retentionDays := (lastSet Layer.retentionDays? layers).getD defaults.store.retentionDays
      sweepIntervalSecs :=
        (lastSet Layer.sweepIntervalSecs? layers).getD defaults.store.sweepIntervalSecs
      accumulation := (lastSet Layer.accumulation? layers).getD defaults.store.accumulation }
    logging := { level := (lastSet Layer.level? layers).getD defaults.logging.level } }

/-- One layer sets what it sets. -/
@[simp] theorem lastSet_singleton (setting : Layer → Option α) (layer : Layer) :
    lastSet setting [layer] = setting layer := by
  unfold lastSet
  cases hset : setting layer <;> simp [hset]

/-- The settings of one layer are those that it settles on. -/
theorem settle_eq (layer : Layer) : layer.settle = settingsOf [layer] := by
  obtain ⟨store, logging⟩ := layer
  simp only [settingsOf, lastSet_singleton]
  rcases store with _ | store <;> rcases logging with _ | logging <;> rfl

/-- A setting counts on its own: a layer over another has its value, or else that of the lower one. -/
structure Independent (setting : Layer → Option α) : Prop where
  /-- The upper layer counts where it sets a value. -/
  combined : ∀ upper lower : Layer, setting (upper.over lower) = (setting upper).or (setting lower)
  /-- The empty layer sets nothing. -/
  empty : setting {} = none

/-- What combining sections does to one field, it does where sections may be left out. -/
theorem bind_sectionOver {combine : α → α → α} {field : α → Option β}
    (hfield : ∀ upper lower, field (combine upper lower) = (field upper).or (field lower))
    (upper lower : Option α) :
    (sectionOver combine upper lower).bind field = (upper.bind field).or (lower.bind field) := by
  rcases upper with _ | upper
  · rfl
  · rcases lower with _ | lower
    · exact Option.or_none.symm
    · exact hfield upper lower

/-- A field of the store's section is a setting on its own. -/
theorem independent_store (field : StoreLayer → Option α)
    (hfield : ∀ upper lower : StoreLayer, field (upper.over lower) = (field upper).or (field lower)) :
    Independent fun layer => layer.store.bind field :=
  ⟨fun upper lower => bind_sectionOver hfield upper.store lower.store, rfl⟩

/-- A field of the log's section is a setting on its own. -/
theorem independent_logging (field : LoggingLayer → Option α)
    (hfield : ∀ upper lower : LoggingLayer,
      field (upper.over lower) = (field upper).or (field lower)) :
    Independent fun layer => layer.logging.bind field :=
  ⟨fun upper lower => bind_sectionOver hfield upper.logging lower.logging, rfl⟩

/-- Layers, each laid over those before, above the lowest one. -/
def stacked (lower : Layer) (layers : List Layer) : Layer :=
  layers.foldl (fun lower upper => upper.over lower) lower

/-- A stack of layers sets what the last of them sets. -/
theorem Independent.stacked {setting : Layer → Option α} (h : Independent setting) (lower : Layer)
    (layers : List Layer) :
    setting (stacked lower layers) = (lastSet setting layers).or (setting lower) := by
  induction layers generalizing lower with
  | nil => rfl
  | cons layer layers ih =>
    have hrest := ih (layer.over lower)
    rw [h.combined layer lower] at hrest
    refine hrest.trans ?_
    unfold lastSet
    rw [List.filterMap_cons]
    cases hset : setting layer with
    | none => rfl
    | some value =>
      rw [List.getLast?_cons]
      cases (layers.filterMap setting).getLast? <;> rfl

/-- Each setting of a stack of layers has the value that is set last, or its default. -/
theorem settle_stacked (layers : List Layer) : (stacked {} layers).settle = settingsOf layers := by
  have hlast {α : Type} {setting : Layer → Option α} (h : Independent setting) :
      setting (stacked {} layers) = lastSet setting layers := by
    rw [h.stacked, h.empty, Option.or_none]
  have hdataDir : Independent Layer.dataDir? := independent_store StoreLayer.dataDir fun _ _ => rfl
  have hdays : Independent Layer.retentionDays? :=
    independent_store StoreLayer.retentionDays fun _ _ => rfl
  have hinterval : Independent Layer.sweepIntervalSecs? :=
    independent_store StoreLayer.sweepIntervalSecs fun _ _ => rfl
  have hmode : Independent Layer.accumulation? :=
    independent_store StoreLayer.accumulation fun _ _ => rfl
  have hlevel : Independent Layer.level? := independent_logging LoggingLayer.level fun _ _ => rfl
  rw [settle_eq]
  simp only [settingsOf, lastSet_singleton, hlast hdataDir, hlast hdays, hlast hinterval, hlast hmode,
    hlast hlevel]

/-! ## Loading -/

/-- What sources answer that are loaded in a row. -/
def answers : List Source → Tree → List (Except ConfigError Layer)
  | [], _ => []
  | source :: sources, tree => (source.load.run tree).1 :: answers sources (source.load.run tree).2

/-- The error of an answer, if it is one. -/
def failure? : Except ConfigError Layer → Option ConfigError
  | .error e => some e
  | .ok _ => none

/-- The layer of an answer, if it is one. -/
def layer? : Except ConfigError Layer → Option Layer
  | .error _ => none
  | .ok layer => some layer

/-- Loading in a row comes to the first failure, or to the stack of all layers. -/
theorem run_loadOver (lower : Layer) (sources : List Source) (tree : Tree) :
    ((loadOver lower sources).run tree).1 =
      match (answers sources tree).findSome? failure? with
      | some e => .error e
      | none => .ok (stacked lower ((answers sources tree).filterMap layer?)) := by
  induction sources generalizing lower tree with
  | nil => rfl
  | cons source sources ih =>
    rw [loadOver, Script.run_bind, answers]
    cases hanswer : (source.load.run tree).1 with
    | error e => rfl
    | ok layer => exact ih (layer.over lower) _

/-- Settings that are loaded keep artifacts some days and have a pause between sweeps. -/
theorem ne_zero_of_load {sources : List Source} {tree : Tree} {settings : Settings}
    (h : ((load sources).run tree).1 = .ok settings) :
    settings.store.retentionDays ≠ 0 ∧ settings.store.sweepIntervalSecs ≠ 0 := by
  rw [load, Script.run_bind] at h
  cases hlayer : ((loadOver {} (byPrecedence sources)).run tree).1 with
  | error e =>
    rw [hlayer] at h
    cases h
  | ok layer =>
    rw [hlayer] at h
    change checked layer = .ok settings at h
    unfold checked at h
    simp only at h
    split_ifs at h with hdays hinterval
    obtain rfl := Except.ok.inj h
    exact ⟨hdays, hinterval⟩

/-- Settings are loaded from sources in any order as follows. Let them be in the order of their precedence,
those of one precedence as given. The first failure in that order is the result. If there is none, each
setting has the value of the last layer that sets it, or its default; it is an error if then no day is
kept, or else if sweeps have no pause. And the order given matters within a precedence only. -/
theorem load_by_precedence (sources : List Source) (tree : Tree) :
    (((load sources).run tree).1 =
      match (answers (inOrder sources) tree).findSome? failure? with
      | some e => .error e
      | none =>
        let settings := settingsOf ((answers (inOrder sources) tree).filterMap layer?)
        if settings.store.retentionDays = 0 then .error .zeroRetention
        else if settings.store.sweepIntervalSecs = 0 then .error .zeroInterval
        else .ok settings) ∧
    ∀ others : List Source,
      (∀ precedence, ofPrecedence precedence others = ofPrecedence precedence sources) →
        load others = load sources := by
  constructor
  · rw [load, Script.run_bind, byPrecedence_eq_inOrder, run_loadOver]
    cases (answers (inOrder sources) tree).findSome? failure? with
    | some e => rfl
    | none =>
      show checked (stacked {} ((answers (inOrder sources) tree).filterMap layer?)) = _
      rw [checked, settle_stacked]
  · intro others hothers
    have horder : inOrder others = inOrder sources := by simp only [inOrder, hothers]
    rw [load, load, byPrecedence_eq_inOrder, byPrecedence_eq_inOrder, horder]

/-- A file that keeps artifacts no day at all does no harm where a variable says otherwise, whichever of the
two is given first. -/
theorem load_by_precedence_of_zero_overridden :
    let file := Source.fixed .file { store := some { dataDir := "maps", retentionDays := some 0 } }
    let week := Source.environment [("RETRACE_RETENTION_DAYS", "7")]
    (∀ precedence, ofPrecedence precedence [week, file] =
        ofPrecedence precedence [file, week]) ∧
      load [week, file] = load [file, week] ∧
      ((load [week, file]).run (.ofFiles [])).1 =
        .ok { store := { dataDir := "maps", retentionDays := 7 } } := by
  intro file week
  have hsame (precedence : Precedence) : ofPrecedence precedence [week, file] =
      ofPrecedence precedence [file, week] := by
    cases precedence <;> rfl
  refine ⟨hsame, (load_by_precedence [file, week] (.ofFiles [])).2 _ hsame, ?_⟩
  rw [(load_by_precedence [week, file] (.ofFiles [])).1]
  decide +kernel

end OriginMap.Config
