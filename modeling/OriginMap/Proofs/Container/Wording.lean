import Mathlib.Data.List.Nodup
import Mathlib.Data.List.Perm.Basic
import OriginMap.Proofs.Container

/-!
# Containers in any wording

A container may give its members in any order, spell them in any way, and have any other members among
them. What is taken from it depends on what its members say alone: which refusal it meets, and if it
meets none, every part of its artifact.
-/

namespace OriginMap.Container

open Json

/-! ## What is given -/

/-- The members of a container that are given. -/
def Members.given (m : Members) : List Member :=
  (m.version.map Member.version).toList ++ ((m.file.map Member.file).toList ++
    ((m.sources.map Member.sources).toList ++ ((m.sourcesContent.map Member.sourcesContent).toList ++
      ((m.names.map Member.names).toList ++ (m.mappings.map Member.mappings).toList))))

/-- A text is one object with the given members, in any order and spelling, among any others. -/
def Members.Worded (m : Members) (data : Bytes) : Prop :=
  ∃ (members : List Member) (before bytes after : Bytes), members.Perm m.given ∧ Blanks before ∧
    SpellsRecord fields (members.map fun member => (member.key, member.value)) bytes ∧
    Blanks after ∧ data = before ++ (bytes ++ after)

/-- No key is given twice. -/
theorem Members.nodup_given (m : Members) : (m.given.map Member.key).Nodup := by
  have hkeys : (m.given.map Member.key).Sublist
      (["version"] ++ (["file"] ++ (["sources"] ++ (["sourcesContent"] ++ (["names"] ++
        ["mappings"]))))) := by
    have hone {α : Type} (give : α → Member) (key : String) (hkey : ∀ a, (give a).key = key)
        (said : Option α) : ((said.map give).toList.map Member.key).Sublist [key] := by
      cases said <;> simp [hkey]
    simp only [given, List.map_append]
    exact (hone .version _ (fun _ => rfl) _).append ((hone .file _ (fun _ => rfl) _).append
      ((hone .sources _ (fun _ => rfl) _).append ((hone .sourcesContent _ (fun _ => rfl) _).append
        ((hone .names _ (fun _ => rfl) _).append (hone .mappings _ (fun _ => rfl) _)))))
  exact hkeys.nodup (by decide)

/-- Meeting the given members collects what they say. -/
theorem Members.foldl_given (m : Members) : m.given.foldl put {} = m := by
  obtain ⟨version, file, sources, sourcesContent, names, mappings⟩ := m
  cases version <;> cases file <;> cases sources <;> cases sourcesContent <;> cases names <;>
    cases mappings <;> rfl

/-- The order in which members of different keys are met makes no difference. -/
theorem Members.foldl_put_of_perm {members others : List Member} (h : members.Perm others)
    (hdistinct : (members.map Member.key).Nodup) (m : Members) :
    members.foldl put m = others.foldl put m := by
  refine h.foldl_eq' (fun a ha b hb m => ?_) m
  by_cases hkey : a.key = b.key
  · rw [List.inj_on_of_nodup_map hdistinct ha hb hkey]
  · exact m.put_comm hkey

/-- What the members of a container say is read, whatever its wording. -/
theorem read_worded {m : Members} {data : Bytes} (h : m.Worded data) : read data = .ok m := by
  obtain ⟨members, before, bytes, after, hperm, hbefore, hspelled, hafter, rfl⟩ := h
  have hdistinct : (members.map Member.key).Nodup :=
    (hperm.map Member.key).nodup_iff.mpr m.nodup_given
  have hcollects := collects_members hdistinct (m := {}) fun member _ => by cases member <;> rfl
  have hrecord := record_spelled hcollects Except.ok hbefore hspelled after
  rw [Members.foldl_put_of_perm hperm hdistinct, m.foldl_given] at hrecord
  exact document_of_read hrecord hafter

/-! ## What is taken -/

/-- There are as many texts as there are sources. -/
theorem length_aligned (length : ℕ) (contents : List (Option String)) :
    (aligned length contents).length = length := by
  simp only [aligned, List.length_append, List.length_take, List.length_replicate]
  omega

/-- Each source has the text that is given at its place, if one is. -/
theorem getElem?_aligned {length i : ℕ} (hi : i < length) (contents : List (Option String)) :
    (aligned length contents)[i]? = some contents[i]?.join := by
  rw [aligned, List.getElem?_append]
  split_ifs with hgiven
  · rw [List.length_take] at hgiven
    rw [List.getElem?_take_of_lt hi, List.getElem?_eq_getElem (by omega)]
    rfl
  · rw [List.length_take] at hgiven ⊢
    rw [List.getElem?_replicate, if_pos (by omega), List.getElem?_eq_none (by omega)]
    rfl

/-- A container is refused for a version that is given and not understood, then for the want of sources,
then for the want of a mapping text. Otherwise its artifact has what its members say, a text or none for
each source, and the size and the digest of the whole container. All this depends on what the members say,
and not on their wording. -/
theorem parse_worded {m : Members} {data : Bytes} (h : m.Worded data) (key : Key)
    (storedAt : Time.Instant) :
    (∀ version, m.version.join = some version → version ≠ supportedVersion →
        parse key data storedAt = .error (.unsupported version)) ∧
      ((m.version.join = none ∨ m.version.join = some supportedVersion) →
        (m.sources.join = none → parse key data storedAt = .error (.missing .sources)) ∧
        ∀ sources, m.sources.join = some sources →
          (m.mappings.join = none → parse key data storedAt = .error (.missing .mappings)) ∧
          ∀ mappings, m.mappings.join = some mappings →
            ∃ artifact, parse key data storedAt = .ok artifact ∧ artifact.key = key ∧
              artifact.file = m.file.join ∧ artifact.sources = sources ∧
              artifact.names = m.names.getD [] ∧ artifact.mappings = mappings ∧
              artifact.sourcesContent.length = sources.length ∧
              (∀ i < sources.length, artifact.sourcesContent[i]? =
                some (m.sourcesContent.join.getD [])[i]?.join) ∧
              artifact.storedAt = storedAt ∧ artifact.sizeBytes = UInt64.ofNat data.length ∧
              artifact.sha256 = Sha256.hexDigest data) := by
  have hread := read_worded h
  refine ⟨fun version hversion hother => ?_, fun hversion => ?_⟩
  · have hrefused : m.version.join.filter (· ≠ supportedVersion) = some version := by
      rw [hversion, Option.filter_some, if_pos (decide_eq_true hother)]
    simp only [parse, hread, hrefused]
  · have hunderstood : m.version.join.filter (· ≠ supportedVersion) = none := by
      rcases hversion with hversion | hversion <;> rw [hversion] <;> rfl
    refine ⟨fun hsources => ?_, fun sources hsources => ⟨fun hmappings => ?_,
      fun mappings hmappings => ?_⟩⟩
    · simp only [parse, hread, hunderstood, hsources]
    · simp only [parse, hread, hunderstood, hsources, hmappings]
    · have hparse : parse key data storedAt =
          .ok (m.artifact sources mappings key data storedAt) :=
        parse_eq_ok.mpr ⟨m, sources, mappings, hread, hunderstood, hsources, hmappings, rfl⟩
      exact ⟨_, hparse, rfl, rfl, rfl, rfl, rfl, length_aligned _ _,
        fun i hi => getElem?_aligned hi _, rfl, rfl, rfl⟩

/-- A container may have a nested value that nobody asks for before its members, escapes in its strings,
blanks between its tokens, and more texts than sources. -/
theorem parse_worded_among_others :
    let m : Members :=
      { sources := some (some ["a/b"]), sourcesContent := some (some [none, some "t"])
        mappings := some (some "A") }
    let data := utf8 ("\x7b \"x\":[-1.5e3, \x7b\"\\ud800\":null\x7d],\"mappings\" :\"\\u0041\",\n" ++
      "\"sourcesContent\":[null,\"t\"],\"sources\":[\"a\\/b\"]\x7d")
    m.Worded data ∧ ∃ artifact, parse ⟨"web", "1"⟩ data ⟨0, 0⟩ = .ok artifact ∧
      artifact.sources = ["a/b"] ∧ artifact.mappings = "A" ∧
      artifact.sourcesContent.length = 1 ∧ artifact.sourcesContent[0]? = some none := by
  intro m data
  have hspace : Blanks [ascii ' '] := List.forall_mem_singleton.mpr (by decide)
  have hfeed : Blanks [ascii '\n'] := List.forall_mem_singleton.mpr (by decide)
  have hdigit (c : Char) (h : isDigit (ascii c) = true) : Digits [ascii c] :=
    ⟨by simp, List.forall_mem_singleton.mpr h⟩
  have hnumeral : Numeral _ :=
    .mk (Or.inr rfl) (show WholeDigits [ascii '1'] from ⟨hdigit '1' rfl, by simp⟩)
      (.some (hdigit '5' rfl)) (.some (Or.inl rfl) (Or.inl rfl) (hdigit '3' rfl))
  -- Half a surrogate pair is no text, but it may stand in a key that nobody reads.
  have hhalf : Quotable _ :=
    .hexadecimal (show (hexValue4? (ascii 'd') (ascii '8') (ascii '0') (ascii '0')).isSome by decide)
      .nil
  have hinner : Grammatical .value _ :=
    .bracket (.last blanks_nil (.object hhalf blanks_nil blanks_nil)
      (.literal (show ['n', 'u', 'l', 'l'] ∈ _ from List.mem_cons_self)) blanks_nil)
  have hunasked : SpellsMember fields none _ :=
    .other (show fields.find? (·.key = "x") = none from rfl) (spellsChars_escape "x".toList)
      blanks_nil blanks_nil
      (.bracket (.more blanks_nil .list (.number hnumeral) blanks_nil
        (.last hspace .list hinner blanks_nil)))
  have hnull : Spells (.value (.orNull .text none)) _ := .null
  have htext : Spells (.value (.orNull .text (some "t"))) _ := .text (spellsChars_escape "t".toList)
  have hmappings : SpellsMember fields (some ("mappings", (Member.mappings (some "A")).value)) _ :=
    .known (.member (spellsChars_escape "mappings".toList) hspace blanks_nil
      (.text (.hexadecimal (show hexValue4? (ascii '0') (ascii '0') (ascii '4') (ascii '1') =
        some 'A'.toNat by decide) (by decide) .nil)))
  have htexts : SpellsMember fields (some ("sourcesContent",
      (Member.sourcesContent (some [none, some "t"])).value)) _ :=
    .known (.member (spellsChars_escape "sourcesContent".toList) blanks_nil blanks_nil
      (.list (.more blanks_nil hnull blanks_nil (.last blanks_nil htext blanks_nil))))
  have hsources : SpellsMember fields (some ("sources", (Member.sources (some ["a/b"])).value)) _ :=
    .known (.member (spellsChars_escape "sources".toList) blanks_nil blanks_nil
      (.list (.last blanks_nil (.text (.plain (by decide) (by decide) (by decide)
        (.short (show shortEscape? (ascii '/') = some (ascii '/') by decide)
          (spellsChars_escape ['b'])))) blanks_nil)))
  have hworded : m.Worded data :=
    ⟨[.mappings (some "A"), .sourcesContent (some [none, some "t"]), .sources (some ["a/b"])],
      [], _, [], by decide, blanks_nil,
      .object (.more hspace hunasked blanks_nil (.more blanks_nil hmappings blanks_nil
        (.more hfeed htexts blanks_nil (.last blanks_nil hsources blanks_nil)))),
      blanks_nil, by decide +kernel⟩
  obtain ⟨artifact, hparse, -, -, hsources, -, hmappings, hlength, htexts, -⟩ :=
    (((parse_worded hworded ⟨"web", "1"⟩ ⟨0, 0⟩).2 (Or.inl rfl)).2 ["a/b"] rfl).2 "A" rfl
  exact ⟨hworded, artifact, hparse, hsources, hmappings, hlength, htexts 0 (by decide)⟩

end OriginMap.Container
