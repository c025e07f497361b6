import OriginMap.Artifact.Container
import OriginMap.Proofs.Json.Records

/-!
# Containers and their artifacts

A container holds an artifact exactly if it can be read, is of no other version than the one that is
understood, and has sources and a mapping text. Its members may come in any order and be spelled in any
way: what each of them says is in the artifact.
-/

namespace OriginMap.Container

/-- The artifact of the members of a container with these sources and this mapping text. -/
def Members.artifact (m : Members) (sources : List String) (mappings : String) (key : Key)
    (data : Bytes) (storedAt : Time.Instant) : Artifact where
  key := key
  file := m.file.join
  sources := sources
  sourcesContent := aligned sources.length (m.sourcesContent.join.getD [])
  names := m.names.getD []
  mappings := mappings
  storedAt := storedAt
  sizeBytes := UInt64.ofNat data.length
  sha256 := Sha256.hexDigest data

section Parse

variable {key : Key} {data : Bytes} {storedAt : Time.Instant} {artifact : Artifact}

/-- What a container must be to hold an artifact. -/
theorem parse_eq_ok : parse key data storedAt = .ok artifact ↔
    ∃ members sources mappings, read data = .ok members ∧
      members.version.join.filter (· ≠ supportedVersion) = none ∧
      members.sources.join = some sources ∧ members.mappings.join = some mappings ∧
      artifact = members.artifact sources mappings key data storedAt := by
  unfold parse
  cases hread : read data with
  | error fault => simp
  | ok members =>
    simp only [Except.ok.injEq, exists_and_left, exists_eq_left']
    cases hversion : members.version.join.filter (· ≠ supportedVersion) with
    | some version => simp
    | none =>
      cases hsources : members.sources.join with
      | none => simp
      | some sources =>
        cases hmappings : members.mappings.join with
        | none => simp
        | some mappings => simp [Members.artifact, eq_comm]

/-- An artifact keeps the size and the digest of its container. -/
theorem of_parse (h : parse key data storedAt = .ok artifact) :
    artifact.sizeBytes = UInt64.ofNat data.length ∧ artifact.sha256 = Sha256.hexDigest data := by
  obtain ⟨members, sources, mappings, -, -, -, -, rfl⟩ := parse_eq_ok.mp h
  exact ⟨rfl, rfl⟩

end Parse

/-! ## Members -/

open Json

/-- A known member of a container, with what it says. -/
inductive Member where
  /-- The container's version. -/
  | version (version : Option UInt64)
  /-- The name of the built file. -/
  | file (name : Option String)
  /-- The sources. -/
  | sources (sources : Option (List String))
  /-- The texts of the sources. -/
  | sourcesContent (contents : Option (List (Option String)))
  /-- The names. -/
  | names (names : List String)
  /-- The mapping text. -/
  | mappings (text : Option String)
  deriving DecidableEq, Repr

/-- The key of a member. -/
def Member.key : Member → String
  | version _ => "version"
  | file _ => "file"
  | sources _ => "sources"
  | sourcesContent _ => "sourcesContent"
  | names _ => "names"
  | mappings _ => "mappings"

/-- The value of a member. -/
def Member.value : Member → Value
  | version number => .orNull (fun n : UInt64 => .natural n.toNat) number
  | file name => .orNull .text name
  | sources found => .orNull (fun all => .list (all.map .text)) found
  | sourcesContent contents => .orNull (fun all => .list (all.map (.orNull .text))) contents
  | names all => .list (all.map .text)
  | mappings text => .orNull .text text

/-- A container of some members. -/
def object (members : List Member) : Value :=
  .object (members.map fun member => (member.key, member.value))

/-- The members met after one more. -/
def Members.put (m : Members) : Member → Members
  | .version version => { m with version := some version }
  | .file name => { m with file := some name }
  | .sources sources => { m with sources := some sources }
  | .sourcesContent contents => { m with sourcesContent := some contents }
  | .names names => { m with names := some names }
  | .mappings text => { m with mappings := some text }

/-- Whether a member of this kind was met. -/
def Members.met (m : Members) : Member → Bool
  | .version _ => m.version.isSome
  | .file _ => m.file.isSome
  | .sources _ => m.sources.isSome
  | .sourcesContent _ => m.sourcesContent.isSome
  | .names _ => m.names.isSome
  | .mappings _ => m.mappings.isSome

/-- Members of different keys may be met in any order. -/
theorem Members.put_comm (m : Members) {a b : Member} (h : a.key ≠ b.key) :
    (m.put a).put b = (m.put b).put a := by
  cases a <;> cases b <;> first | rfl | exact absurd rfl h

/-- A member that was met says nothing more. -/
theorem Members.put_put (m : Members) (a : Member) : (m.put a).put a = m.put a := by
  cases a <;> rfl

/-- Whether a member was met does not depend on one of another key. -/
theorem Members.met_put (m : Members) {a b : Member} (h : a.key ≠ b.key) :
    (m.put a).met b = m.met b := by
  cases a <;> cases b <;> first | rfl | exact absurd rfl h

/-- What members say is kept while others are met. -/
theorem Members.foldl_put_of_put {m : Members} {a : Member} (h : m.put a = m) {members : List Member}
    (hother : ∀ b ∈ members, a.key ≠ b.key) : (members.foldl put m).put a = members.foldl put m := by
  induction members generalizing m with
  | nil => exact h
  | cons b members ih =>
    have hkey := hother b List.mem_cons_self
    refine ih ?_ fun c hc => hother c (List.mem_cons_of_mem b hc)
    rw [← m.put_comm hkey, h]

/-- In the end each member has been met. -/
theorem Members.foldl_put (m : Members) {members : List Member}
    (hdistinct : (members.map Member.key).Nodup) {a : Member} (ha : a ∈ members) :
    (members.foldl put m).put a = members.foldl put m := by
  induction members generalizing m with
  | nil => cases ha
  | cons b members ih =>
    obtain ⟨hkey, hdistinct⟩ := List.nodup_cons.mp hdistinct
    rcases List.mem_cons.mp ha with rfl | ha
    · refine foldl_put_of_put (m.put_put a) fun c hc hsame => hkey ?_
      rw [hsame]
      exact List.mem_map_of_mem hc
    · exact ih (m.put b) hdistinct ha

/-! ## Reading -/

/-- A list of texts is read. -/
theorem reads_texts (texts : List String) : Reads (list text) (.list (texts.map .text)) texts :=
  reads_list fun s _ => reads_text s

/-- Every known member has a field that reads what it says. -/
theorem reads_member (member : Member) (m : Members) :
    ∃ field, fields.find? (·.key = member.key) = some field ∧ field.met m = m.met member ∧
      Reads (field.read m) member.value (m.put member) := by
  cases member with
  | version version =>
    have hread : Reads (nullable natural) _ version :=
      reads_orNull (fun n => .natural n.toNat) (by simp [Value.natural]) fun n _ => by
        have := reads_natural n.toNat_lt_size
        rwa [UInt64.ofNat_toNat] at this
    exact ⟨_, rfl, rfl, hread.put fun value => { m with version := some value }⟩
  | file name =>
    have hread : Reads (nullable text) (.orNull .text name) name :=
      reads_orNull .text (by simp) fun s _ => reads_text s
    exact ⟨_, rfl, rfl, hread.put fun value => { m with file := some value }⟩
  | sources sources =>
    have hread : Reads (nullable (list text)) _ sources :=
      reads_orNull (fun all => .list (all.map .text)) (by simp) fun all _ => reads_texts all
    exact ⟨_, rfl, rfl, hread.put fun value => { m with sources := some value }⟩
  | sourcesContent contents =>
    have hread : Reads (nullable (list (nullable text))) _ contents :=
      reads_orNull (fun all => .list (all.map (.orNull .text))) (by simp) fun all _ =>
        reads_list fun content _ => reads_orNull .text (by simp) fun s _ => reads_text s
    exact ⟨_, rfl, rfl, hread.put fun value => { m with sourcesContent := some value }⟩
  | names names =>
    exact ⟨_, rfl, rfl, (reads_texts names).put fun value => { m with names := some value }⟩
  | mappings text =>
    have hread : Reads (nullable Json.text) (.orNull .text text) text :=
      reads_orNull .text (by simp) fun s _ => reads_text s
    exact ⟨_, rfl, rfl, hread.put fun value => { m with mappings := some value }⟩

/-- Members of different keys are collected one after another. -/
theorem collects_members {members : List Member} (hdistinct : (members.map Member.key).Nodup)
    {m : Members} (hunmet : ∀ member ∈ members, m.met member = false) :
    Collects fields (members.map fun member => (member.key, member.value)) m
      (.ok (members.foldl Members.put m)) := by
  induction members generalizing m with
  | nil => exact .done m
  | cons member members ih =>
    obtain ⟨hkey, hdistinct⟩ := List.nodup_cons.mp hdistinct
    obtain ⟨field, hfind, hmet, hread⟩ := reads_member member m
    rw [hunmet member List.mem_cons_self] at hmet
    refine .next hfind hmet hread (ih hdistinct fun other hother => ?_)
    have hne : member.key ≠ other.key := fun hsame => hkey (hsame ▸ List.mem_map_of_mem hother)
    rw [m.met_put hne]
    exact hunmet other (List.mem_cons_of_mem member hother)

/-- A container of members of different keys is read, however it is spelled. -/
theorem read_object {members : List Member} {data : Bytes} (hdistinct : (members.map Member.key).Nodup)
    (hdata : Documents (object members) data) :
    read data = .ok (members.foldl Members.put {}) := by
  have hcollects := collects_members hdistinct (m := {}) fun member _ => by cases member <;> rfl
  exact document_spelled (reads_record hcollects rfl) hdata

/-- Members that make a container of the version that is understood. -/
structure Complete (members : List Member) (sources names : List String) (mappings : String) :
    Prop where
  /-- No key stands twice. -/
  distinct : (members.map Member.key).Nodup
  /-- The version is the one that is understood. -/
  version : .version (some supportedVersion) ∈ members
  /-- The sources. -/
  sources : .sources (some sources) ∈ members
  /-- The names. -/
  names : .names names ∈ members
  /-- The mapping text. -/
  mappings : .mappings (some mappings) ∈ members

/-- A complete container is taken in, whatever its key and the instant, and its artifact has its sources,
its names and its mapping text. -/
theorem parse_of_complete {members : List Member} {sources names : List String} {mappings : String}
    {data : Bytes} (h : Complete members sources names mappings)
    (hdata : Documents (object members) data) (key : Key) (storedAt : Time.Instant) :
    ∃ artifact, parse key data storedAt = .ok artifact ∧ artifact.sources = sources ∧
      artifact.names = names ∧ artifact.mappings = mappings := by
  have hread := read_object h.distinct hdata
  have hput {member : Member} (hmember : member ∈ members) :=
    Members.foldl_put {} h.distinct hmember
  generalize members.foldl Members.put {} = last at hread hput
  have hversion : last.version = some (some supportedVersion) :=
    (congrArg Members.version (hput h.version)).symm
  have hsources : last.sources = some (some sources) :=
    (congrArg Members.sources (hput h.sources)).symm
  have hnames : last.names = some names := (congrArg Members.names (hput h.names)).symm
  have hmappings : last.mappings = some (some mappings) :=
    (congrArg Members.mappings (hput h.mappings)).symm
  have hsupported : last.version.join.filter (· ≠ supportedVersion) = none := by
    rw [hversion]
    rfl
  refine ⟨last.artifact sources mappings key data storedAt, ?_, rfl, ?_, rfl⟩
  · exact parse_eq_ok.mpr ⟨last, sources, mappings, hread, hsupported, by rw [hsources]; rfl,
      by rw [hmappings]; rfl, rfl⟩
  · rw [Members.artifact, hnames]
    rfl

end OriginMap.Container
