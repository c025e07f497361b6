import Mathlib.Data.List.TakeWhile
import OriginMap.Proofs.Json.Grammar

/-!
# Records read back

An object is read as a record one member at a time: each known member changes what was collected from
those before it, and any other is passed over. A whole document is read if its value is.
-/

namespace OriginMap.Json

variable {σ : Type} {fields : List (RecordField σ)}

/-- What is collected from members that are all known and of which none was met before: a record, or the
fault of the first member that is refused. -/
inductive Collects (fields : List (RecordField σ)) :
    List (String × Value) → σ → Except Fault σ → Prop
  /-- No members are left. -/
  | done (record : σ) : Collects fields [] record (.ok record)
  /-- A member is read. -/
  | next {key : String} {v : Value} {members : List (String × Value)} {field : RecordField σ}
      {record middle : σ} {last : Except Fault σ} (hfind : fields.find? (·.key = key) = some field)
      (hmet : field.met record = false) (hread : Reads (field.read record) v middle)
      (h : Collects fields members middle last) : Collects fields ((key, v) :: members) record last
  /-- A member is refused. -/
  | refused {key : String} {v : Value} (members : List (String × Value)) {field : RecordField σ}
      {record : σ} {fault : Fault} (hfind : fields.find? (·.key = key) = some field)
      (hmet : field.met record = false) (hread : Refuses (field.read record) v fault) :
      Collects fields ((key, v) :: members) record (.error fault)

/-- The spellings of a member of an object: of a known one, or of any other. -/
inductive SpellsMember (fields : List (RecordField σ)) : Option (String × Value) → Bytes → Prop
  /-- A member that counts. -/
  | known {key : String} {v : Value} {bytes : Bytes} (h : Spells (.member key v) bytes) :
      SpellsMember fields (some (key, v)) bytes
  /-- A member whose key is that of no field, with any value. -/
  | other {key : String} {name before after bytes : Bytes}
      (hkey : fields.find? (·.key = key) = none) (hname : SpellsChars key.toList name)
      (hbefore : Blanks before) (hafter : Blanks after) (h : Grammatical .value bytes) :
      SpellsMember fields none
        (ascii '"' :: (name ++ ascii '"' :: (before ++ ascii ':' :: (after ++ bytes))))

/-- The spellings of the members that count, among any others, from behind the opening bracket up to the
closing one. -/
inductive SpellsMembers (fields : List (RecordField σ)) : List (String × Value) → Bytes → Prop
  /-- The last member. -/
  | last {item : Option (String × Value)} {before bytes after : Bytes} (hbefore : Blanks before)
      (h : SpellsMember fields item bytes) (hafter : Blanks after) :
      SpellsMembers fields item.toList (before ++ (bytes ++ (after ++ [ascii '\x7d'])))
  /-- A member that others follow. -/
  | more {item : Option (String × Value)} {members : List (String × Value)}
      {before bytes after rest : Bytes} (hbefore : Blanks before)
      (h : SpellsMember fields item bytes) (hafter : Blanks after)
      (hrest : SpellsMembers fields members rest) :
      SpellsMembers fields (item.toList ++ members)
        (before ++ (bytes ++ (after ++ ascii ',' :: rest)))

/-- The spellings of an object with the members that count, among any others. -/
inductive SpellsRecord (fields : List (RecordField σ)) : List (String × Value) → Bytes → Prop
  /-- An object without members. -/
  | empty {blanks : Bytes} (hblanks : Blanks blanks) :
      SpellsRecord fields [] (ascii '\x7b' :: (blanks ++ [ascii '\x7d']))
  /-- An object. -/
  | object {members : List (String × Value)} {bytes : Bytes}
      (h : SpellsMembers fields members bytes) :
      SpellsRecord fields members (ascii '\x7b' :: bytes)

/-- Members that all count are spelled among no others. -/
theorem spellsMembers_of_spells (fields : List (RecordField σ)) (key : String) (v : Value)
    {members : List (String × Value)} {bytes : Bytes}
    (h : Spells (.inside '\x7d' (((key, v) :: members).map fun m => .member m.1 m.2)) bytes) :
    SpellsMembers fields ((key, v) :: members) bytes := by
  induction members generalizing key v bytes with
  | nil =>
    obtain ⟨before, item, after, more, hbefore, hitem, hafter, rfl, ⟨-, rfl⟩ | ⟨others, -, hothers⟩⟩ :=
      spells_inside_cons h
    · exact .last hbefore (.known hitem) hafter
    · cases hothers
  | cons next members ih =>
    obtain ⟨before, item, after, more, hbefore, hitem, hafter, rfl, ⟨hnone, -⟩ | ⟨others, rfl, hothers⟩⟩ :=
      spells_inside_cons h
    · cases hnone
    · exact .more hbefore (.known hitem) hafter (ih next.1 next.2 hothers)

/-- An object whose members all count is spelled among no others. -/
theorem spellsRecord_of_spells (fields : List (RecordField σ)) {members : List (String × Value)}
    {bytes : Bytes} (h : Spells (.value (.object members)) bytes) :
    SpellsRecord fields members bytes := by
  cases h with
  | emptyObject hblanks => exact .empty hblanks
  | object h =>
    cases members with
    | nil => cases h
    | cons member members => exact .object (spellsMembers_of_spells fields member.1 member.2 h)

/-- What is read may be put anywhere. -/
theorem Reads.put {α β : Type} {read : Reader α} {v : Value} {a : α} (h : Reads read v a)
    (f : α → β) : Reads (fun bytes => do
      let (value, rest) ← read bytes
      return (f value, rest)) v (f a) := by
  intro before bytes rest hbefore hspelled hrest
  simp only [h before bytes rest hbefore hspelled hrest, Bind.bind, Except.bind]
  rfl

/-- What is refused cannot be put anywhere. -/
theorem Refuses.put {α β : Type} {read : Reader α} {v : Value} {fault : Fault}
    (h : Refuses read v fault) (f : α → β) : Refuses (fun bytes => do
      let (value, rest) ← read bytes
      return (f value, rest)) v fault := by
  intro before bytes rest hbefore hspelled hrest
  simp only [h before bytes rest hbefore hspelled hrest, Bind.bind, Except.bind]

/-- The colon behind a key is passed over. -/
theorem colon_append {before : Bytes} (hbefore : Blanks before) (rest : Bytes) :
    colon (before ++ ascii ':' :: rest) = .ok rest := by
  rw [colon, skipBlank_append hbefore, skipBlank_cons (by decide)]
  exact if_pos rfl

/-- Up to the closing bracket stands no key. -/
theorem nextKey_closing {after : Bytes} (hafter : Blanks after) (first : Bool) (rest : Bytes) :
    nextKey first (after ++ ascii '\x7d' :: rest) = .ok none := by
  rw [nextKey, skipBlank_append hafter, skipBlank_cons (by decide)]
  exact if_pos rfl

/-- Behind a comma stands the next key. -/
theorem nextKey_comma {after : Bytes} (hafter : Blanks after) (input : Bytes) :
    nextKey false (after ++ ascii ',' :: input) = nextKey.key (skipBlank input) := by
  rw [nextKey, skipBlank_append hafter, skipBlank_cons (by decide)]
  simp [show ascii ',' ≠ ascii '\x7d' by decide]

/-- Behind the opening bracket stands the first key. -/
theorem nextKey_first {input : Bytes} {b : UInt8} {more : Bytes}
    (hinput : skipBlank input = b :: more) (hb : b ≠ ascii '\x7d') :
    nextKey true input = nextKey.key (skipBlank input) := by
  rw [nextKey, hinput]
  simp [hb]

/-- A key is read up to its closing quote. -/
theorem key_spelled {key : String} {before name : Bytes} (hbefore : Blanks before)
    (hname : SpellsChars key.toList name) (rest : Bytes) :
    nextKey.key (skipBlank (before ++ ascii '"' :: (name ++ ascii '"' :: rest))) =
      .ok (some (key, rest)) := by
  rw [skipBlank_append hbefore, skipBlank_cons (by decide), nextKey.key]
  simp only [if_true, string_spelled hname]
  rfl

/-- A spelled member is read together with its key. -/
theorem members_step {key : String} {v : Value} {field : RecordField σ} {record : σ}
    (hfind : fields.find? (·.key = key) = some field) (hmet : field.met record = false)
    {before bytes more : Bytes} (hbefore : Blanks before) (hspelled : Spells (.member key v) bytes)
    (budget : ℕ) {first : Bool} {input : Bytes}
    (hinput : nextKey first input = nextKey.key (skipBlank (before ++ (bytes ++ more)))) :
    ∃ after value, Blanks after ∧ Spells (.value v) value ∧
      Json.members fields (budget + 1) first record input =
        (field.read record (after ++ (value ++ more))).bind fun (next, rest) =>
          Json.members fields budget false next rest := by
  cases hspelled with
  | @member _ _ name pre post value hname hpre hpost hvalue =>
    have hkey := key_spelled hbefore hname (pre ++ ascii ':' :: (post ++ (value ++ more)))
    simp only [List.append_assoc, List.cons_append] at hinput
    rw [hkey] at hinput
    refine ⟨post, value, hpost, hvalue, ?_⟩
    simp only [Json.members, hinput, member, hfind, hmet, Bool.false_eq_true, if_false,
      colon_append hpre, Bind.bind, Except.bind]

/-- A member that no field asks for is passed over together with its key. -/
theorem members_pass {record : σ} {before bytes more : Bytes} (hbefore : Blanks before)
    (hspelled : SpellsMember fields none bytes) (hmore : Stops more) (budget : ℕ) {first : Bool}
    {input : Bytes}
    (hinput : nextKey first input = nextKey.key (skipBlank (before ++ (bytes ++ more)))) :
    Json.members fields (budget + 1) first record input =
      Json.members fields budget false record more := by
  cases hspelled with
  | @other key name pre post value hkey hname hpre hpost hvalue =>
    have hnext := key_spelled hbefore hname (pre ++ ascii ':' :: (post ++ (value ++ more)))
    simp only [List.append_assoc, List.cons_append] at hinput
    rw [hnext] at hinput
    simp only [Json.members, hinput, member, hkey, colon_append hpre,
      skip_grammatical hpost hvalue hmore, Bind.bind, Except.bind, pure, Except.pure]

/-- A member starts with a quote. -/
theorem SpellsMember.eq_cons {item : Option (String × Value)} {bytes : Bytes}
    (h : SpellsMember fields item bytes) : ∃ more, bytes = ascii '"' :: more := by
  cases h with
  | known h =>
    cases h
    exact ⟨_, rfl⟩
  | other => exact ⟨_, rfl⟩

/-- Behind the opening bracket the first key stands. -/
theorem nextKey_members {members : List (String × Value)} {bytes : Bytes}
    (hspelled : SpellsMembers fields members bytes) (rest : Bytes) :
    nextKey true (bytes ++ rest) = nextKey.key (skipBlank (bytes ++ rest)) := by
  have hquote {item : Option (String × Value)} {before member : Bytes} (hbefore : Blanks before)
      (h : SpellsMember fields item member) (more : Bytes) :
      nextKey true ((before ++ (member ++ more)) ++ rest) =
        nextKey.key (skipBlank ((before ++ (member ++ more)) ++ rest)) := by
    obtain ⟨tail, rfl⟩ := h.eq_cons
    have hskip : skipBlank ((before ++ (ascii '"' :: tail ++ more)) ++ rest) =
        ascii '"' :: (tail ++ (more ++ rest)) := by
      rw [List.append_assoc, skipBlank_append hbefore, List.cons_append, List.cons_append,
        skipBlank_cons (by decide), List.append_assoc]
    exact nextKey_first hskip (by decide)
  cases hspelled with
  | last hbefore h hafter => exact hquote hbefore h _
  | more hbefore h hafter hrest => exact hquote hbefore h _

/-- One member is read or passed over, or refused for all that follows. -/
theorem members_item {item : Option (String × Value)} {members : List (String × Value)} {record : σ}
    {last : Except Fault σ} (hcollects : Collects fields (item.toList ++ members) record last)
    {before bytes more : Bytes} (hbefore : Blanks before) (hspelled : SpellsMember fields item bytes)
    (hmore : Stops more) (budget : ℕ) {first : Bool} {input : Bytes}
    (hinput : nextKey first input = nextKey.key (skipBlank (before ++ (bytes ++ more)))) :
    (∃ middle, Collects fields members middle last ∧
      Json.members fields (budget + 1) first record input =
        Json.members fields budget false middle more) ∨
      ∃ fault, last = .error fault ∧
        Json.members fields (budget + 1) first record input = .error fault := by
  cases hspelled with
  | other hkey hname hpre hpost hvalue =>
    exact Or.inl ⟨record, hcollects, members_pass hbefore (.other hkey hname hpre hpost hvalue) hmore
      budget hinput⟩
  | known h =>
    cases hcollects with
    | next hfind hmet hread hcollects =>
      obtain ⟨pre, value, hpre, hvalue, hstep⟩ := members_step hfind hmet hbefore h budget hinput
      refine Or.inl ⟨_, hcollects, ?_⟩
      rw [hstep, hread pre value _ hpre hvalue hmore]
      rfl
    | refused _ hfind hmet hread =>
      obtain ⟨pre, value, hpre, hvalue, hstep⟩ := members_step hfind hmet hbefore h budget hinput
      refine Or.inr ⟨_, rfl, ?_⟩
      rw [hstep, hread pre value _ hpre hvalue hmore]
      rfl

/-- The members in a bracket are read, whatever stands before the first of them, and reading stops
before the closing bracket. -/
theorem members_spelled {members : List (String × Value)} {record : σ} {last : Except Fault σ}
    {bytes : Bytes} (hspelled : SpellsMembers fields members bytes)
    (hcollects : Collects fields members record last) (rest : Bytes) {budget : ℕ}
    (hbudget : bytes.length < budget) {first : Bool} {input : Bytes}
    (hinput : nextKey first input = nextKey.key (skipBlank (bytes ++ rest))) :
    ∃ after, Blanks after ∧ Json.members fields budget first record input =
      last.map fun record => (record, after ++ ascii '\x7d' :: rest) := by
  induction hspelled generalizing budget first record input with
  | @last item before bytes after hbefore h hafter =>
    obtain ⟨tail, rfl⟩ := h.eq_cons
    obtain ⟨budget, rfl⟩ : ∃ count, budget = count + 2 := by
      simp only [List.length_append, List.length_cons, List.length_nil] at hbudget
      exact ⟨budget - 2, by omega⟩
    have hstops : Stops (after ++ ascii '\x7d' :: rest) := stops_append hafter (by simp) rest
    rw [← List.append_nil item.toList] at hcollects
    simp only [List.append_assoc, List.singleton_append] at hinput
    refine ⟨after, hafter, ?_⟩
    rcases members_item hcollects hbefore h hstops (budget + 1) hinput with
      ⟨middle, hdone, hstep⟩ | ⟨fault, rfl, hstep⟩
    · cases hdone
      rw [hstep, Json.members, nextKey_closing hafter]
      rfl
    · exact hstep
  | @more item members before bytes after others hbefore h hafter hrest ih =>
    obtain ⟨budget, rfl⟩ : ∃ count, budget = count + 1 := ⟨budget - 1, by omega⟩
    have hstops : Stops (after ++ ascii ',' :: (others ++ rest)) := stops_append hafter (by simp) _
    simp only [List.append_assoc, List.cons_append] at hinput
    rcases members_item hcollects hbefore h hstops budget hinput with
      ⟨middle, hcollects, hstep⟩ | ⟨fault, rfl, hstep⟩
    · rw [hstep]
      refine ih hcollects ?_ (nextKey_comma hafter _)
      simp only [List.length_append, List.length_cons] at hbudget
      omega
    · exact ⟨after, hafter, hstep⟩

/-- An object is read member by member, and what was collected is judged at the end. -/
theorem record_spelled {α : Type} {members : List (String × Value)} {empty : σ}
    {last : Except Fault σ} (hcollects : Collects fields members empty last)
    (finish : σ → Except Fault α) {before bytes : Bytes} (hbefore : Blanks before)
    (hspelled : SpellsRecord fields members bytes) (rest : Bytes) :
    record fields empty finish (before ++ (bytes ++ rest)) =
      (last.bind finish).map fun a => (a, rest) := by
  have hclosing {after : Bytes} (hafter : Blanks after) :
      (skipBlank (after ++ ascii '\x7d' :: rest)).tail = rest := by
    rw [skipBlank_append hafter, skipBlank_cons (by decide), List.tail_cons]
  rw [record, skipBlank_append hbefore]
  cases hspelled with
  | empty hblanks =>
    cases hcollects
    rw [List.cons_append, List.append_assoc, List.singleton_append, skipBlank_cons (by decide)]
    simp only [if_true, Json.members, nextKey_closing hblanks, Bind.bind, Except.bind]
    cases hfinish : finish empty <;> simp [pure, Except.pure, hclosing hblanks, hfinish, Except.map]
  | @object _ bytes h =>
    have hbudget : bytes.length < (bytes ++ rest).length + 1 := by
      rw [List.length_append]
      omega
    obtain ⟨after, hafter, hmembers⟩ :=
      members_spelled h hcollects rest hbudget (nextKey_members h rest)
    rw [List.cons_append, skipBlank_cons (by decide)]
    simp only [if_true, hmembers]
    cases last with
    | error fault => rfl
    | ok last =>
      simp only [Except.map, Except.bind, Bind.bind, hclosing hafter]
      cases finish last <;> rfl

/-- An object is read as a record if its members are all known, each stands once, and they suffice. -/
theorem reads_record {α : Type} {members : List (String × Value)} {empty last : σ}
    {finish : σ → Except Fault α} {a : α} (hcollects : Collects fields members empty (.ok last))
    (hfinish : finish last = .ok a) : Reads (record fields empty finish) (.object members) a := by
  intro before bytes rest hbefore hspelled _
  rw [record_spelled hcollects finish hbefore (spellsRecord_of_spells fields hspelled)]
  simp only [Except.bind, hfinish, Except.map]

/-- An object is refused as a record if one of its members is. -/
theorem refuses_record {α : Type} {members : List (String × Value)} {empty : σ} {fault : Fault}
    {finish : σ → Except Fault α} (hcollects : Collects fields members empty (.error fault)) :
    Refuses (record fields empty finish) (.object members) fault := by
  intro before bytes rest hbefore hspelled _
  rw [record_spelled hcollects finish hbefore (spellsRecord_of_spells fields hspelled)]
  rfl

/-- A document spells a value, with blanks around it. -/
def Documents (v : Value) (document : Bytes) : Prop :=
  ∃ before bytes after, Blanks before ∧ Spells (.value v) bytes ∧ Blanks after ∧
    document = before ++ (bytes ++ after)

/-- What is written documents its value. -/
theorem documents_render (v : Value) : Documents v (utf8 v.render) := by
  refine ⟨[], _, [], blanks_nil, spells_pretty v 0, blanks_nil, ?_⟩
  rw [List.nil_append, List.append_nil, ← utf8_ofList]
  rfl

/-- A document is read if what stands before its last blanks is. -/
theorem document_of_read {α : Type} {read : Reader α} {a : α} {bytes after : Bytes}
    (hread : read bytes = .ok (a, after)) (hafter : Blanks after) : document read bytes = .ok a := by
  have hskip : skipBlank after = [] := List.dropWhile_eq_nil_iff.mpr hafter
  simp only [document, hread, hskip, Bind.bind, Except.bind]
  rfl

/-- A document is read if its value is. -/
theorem document_spelled {α : Type} {read : Reader α} {v : Value} {a : α} (hread : Reads read v a)
    {bytes : Bytes} (hdocument : Documents v bytes) : document read bytes = .ok a := by
  obtain ⟨before, bytes, after, hbefore, hspelled, hafter, rfl⟩ := hdocument
  have hstops : Stops after := fun b hb => Or.inl (hafter b (List.mem_of_mem_head? hb))
  exact document_of_read (hread before bytes after hbefore hspelled hstops) hafter

/-- What was written is read back. -/
theorem document_render {α : Type} {read : Reader α} {v : Value} {a : α} (hread : Reads read v a) :
    document read (utf8 v.render) = .ok a :=
  document_spelled hread (documents_render v)

/-- A document whose value is refused is refused. -/
theorem document_render_refused {α : Type} {read : Reader α} {v : Value} {fault : Fault}
    (hread : Refuses read v fault) : document read (utf8 v.render) = .error fault := by
  have h := hread [] _ [] blanks_nil (spells_pretty v 0) (by simp [Stops])
  rw [List.nil_append, List.append_nil, ← utf8_ofList] at h
  simp only [document, Value.render, h, Bind.bind, Except.bind]

end OriginMap.Json
