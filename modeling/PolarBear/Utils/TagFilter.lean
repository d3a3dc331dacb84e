import PolarBear.Lib.Dict
import PolarBear.Py.Value
import PolarBear.Utils.Hostname

/-!
# `filter_and_format_resource_metadata`

A tag of a resource is returned if it satisfies every filter block, and a block is
satisfied by one of the patterns it gives for the key and one of those for the value.
The code asks `isinstance(pattern_list, str)` to tell a single pattern from a list of
them. A unicode pattern is not a `str`, so it is iterated over, and each of its
characters is a pattern: `returnsMatching_iff`.

`re.match` is a parameter, a relation between patterns and texts.
-/

namespace PolarBear.Utils

open PolarBear.Py PolarBear.Dict

/-! ## The code -/

/-- The patterns of a filter: a single one, or a list. -/
inductive Patterns where
  | one (pattern : Text)
  | many (patterns : List Text)
  deriving DecidableEq, Repr

/-- `bool(patterns)`. -/
def Patterns.truthy : Patterns → Bool
  | .one pattern => !pattern.chars.isEmpty
  | .many patterns => !patterns.isEmpty

/-- A filter block; what it gives is not empty. -/
structure FilterBlock where
  resourceId : Option (List String)
  key : Option Patterns
  value : Option Patterns
  resourceId_ne : ∀ ids ∈ resourceId, ids ≠ []
  key_truthy : ∀ patterns ∈ key, patterns.truthy
  value_truthy : ∀ patterns ∈ value, patterns.truthy

/-- The argument `search_filts`. -/
inductive SearchFilts where
  | dict (block : FilterBlock)
  | list (blocks : List FilterBlock)

def SearchFilts.blocks : SearchFilts → List FilterBlock
  | .dict block => [block]
  | .list blocks => blocks

/-- A resource with its dictionaries of metadata, by their names. -/
structure Resource where
  uuid : String
  metadata : List (String × List (String × String))
  nodup : ∀ entry ∈ metadata, (keys entry.2).Nodup

/-- `res.get(metadata_type, {})`. -/
def Resource.get (res : Resource) (metadataType : String) : List (String × String) :=
  (res.metadata.lookup metadataType).getD []

/-- `{'key': key, 'value': value, '<type>_id': id}`. -/
structure FormattedMetadata where
  key : String
  value : String
  idName : String
  id : String
  deriving DecidableEq, Repr

section

variable (accepts : Text → String → Bool)

/-- What `for pattern in pattern_list` goes through: a `str` was put into a list. -/
def Patterns.iterated : Patterns → List Text
  | .one (.bytes chars) => [.bytes chars]
  | .one (.unicode chars) => chars.map (fun c => .unicode [c])
  | .many patterns => patterns

/-- `_match_any`. -/
def matchAny (patternList : Patterns) (string : String) : Bool :=
  patternList.iterated.any (fun pattern => accepts pattern string)

/-- The `continue`s of the loop of `_filter_metadata`. -/
def isSkipped (keysFilter valuesFilter : Patterns) (kv : String × String) : Bool :=
  if keysFilter.truthy && valuesFilter.truthy && !matchAny accepts keysFilter kv.1 &&
      !matchAny accepts valuesFilter kv.2 then true
  else (keysFilter.truthy && !matchAny accepts keysFilter kv.1) ||
    (valuesFilter.truthy && !matchAny accepts valuesFilter kv.2)

/-- `_filter_metadata`. -/
def filterMetadata (resource : Resource) (searchFilt : FilterBlock)
    (inputMetadata : List (String × String)) : List (String × String) :=
  let ids := searchFilt.resourceId.getD []
  let keysFilter := searchFilt.key.getD (.many [])
  let valuesFilter := searchFilt.value.getD (.many [])
  if !ids.isEmpty && !ids.contains resource.uuid then []
  else inputMetadata.foldl (fun output kv =>
    if isSkipped accepts keysFilter valuesFilter kv then output else set kv.1 kv.2 output) []

/-- The entries of one resource. -/
def formatResource (resourceType metadataType : String) (searchFilts : List FilterBlock)
    (res : Resource) : List FormattedMetadata :=
  (searchFilts.foldl (fun metadata filt => filterMetadata accepts res filt metadata)
    (res.get metadataType)).map (fun kv => ⟨kv.1, kv.2, resourceType ++ "_id", res.uuid⟩)

/-- `metadata` is only bound for instances. -/
def unboundMetadata : PyError :=
  .of .unboundLocalError "local variable 'metadata' referenced before assignment"

def filterAndFormatResourceMetadata (resourceType : String) (resourceList : List Resource)
    (searchFilts : SearchFilts) (metadataType : Option String) :
    Except PyError (List FormattedMetadata) :=
  if resourceType = "instance" then
    .ok (resourceList.flatMap
      (formatResource accepts resourceType (metadataType.getD "metadata") searchFilts.blocks))
  else if resourceList.isEmpty then .ok []
  else .error unboundMetadata

/-! ## What is to be returned -/

/-- A single pattern stands for the list of it. -/
def Patterns.asList : Patterns → List Text
  | .one pattern => [pattern]
  | .many patterns => patterns

/-- A block is satisfied by a resource, a key and a value. -/
structure FilterBlock.Satisfied (block : FilterBlock) (uuid : String) (kv : String × String) :
    Prop where
  resourceId : ∀ ids ∈ block.resourceId, uuid ∈ ids
  key : ∀ patterns ∈ block.key, ∃ pattern ∈ patterns.asList, accepts pattern kv.1
  value : ∀ patterns ∈ block.value, ∃ pattern ∈ patterns.asList, accepts pattern kv.2

instance (block : FilterBlock) (uuid : String) (kv : String × String) :
    Decidable (block.Satisfied accepts uuid kv) :=
  decidable_of_iff
    ((∀ ids ∈ block.resourceId, uuid ∈ ids) ∧
      (∀ patterns ∈ block.key, ∃ pattern ∈ patterns.asList, accepts pattern kv.1) ∧
      ∀ patterns ∈ block.value, ∃ pattern ∈ patterns.asList, accepts pattern kv.2)
    ⟨fun h => ⟨h.1, h.2.1, h.2.2⟩, fun h => ⟨h.resourceId, h.key, h.value⟩⟩

/-- One entry for each resource and each of its tags that satisfies every block. -/
def matching (resourceList : List Resource) (searchFilts : List FilterBlock)
    (metadataType : String) : List FormattedMetadata :=
  resourceList.flatMap (fun res =>
    ((res.get metadataType).filter (fun kv =>
      decide (∀ block ∈ searchFilts, block.Satisfied accepts res.uuid kv))).map
        (fun kv => ⟨kv.1, kv.2, "instance_id", res.uuid⟩))

omit accepts in
theorem Patterns.truthy_asList {patterns : Patterns} (h : patterns.truthy) :
    (Patterns.many patterns.asList).truthy := by
  cases patterns with
  | one pattern => rfl
  | many patterns => exact h

/-- A block with its single patterns put into lists. -/
def FilterBlock.listed (block : FilterBlock) : FilterBlock where
  resourceId := block.resourceId
  key := block.key.map (fun patterns => .many patterns.asList)
  value := block.value.map (fun patterns => .many patterns.asList)
  resourceId_ne := block.resourceId_ne
  key_truthy := by
    intro patterns hpatterns
    obtain ⟨given, hgiven, rfl⟩ := Option.map_eq_some_iff.mp hpatterns
    exact Patterns.truthy_asList (block.key_truthy given hgiven)
  value_truthy := by
    intro patterns hpatterns
    obtain ⟨given, hgiven, rfl⟩ := Option.map_eq_some_iff.mp hpatterns
    exact Patterns.truthy_asList (block.value_truthy given hgiven)

/-- The result has exactly the matching tags, and it is the same for single patterns and
for lists of one. -/
structure ReturnsMatching (resourceList : List Resource) (searchFilts : SearchFilts)
    (metadataType : Option String) : Prop where
  tags : ∃ out, filterAndFormatResourceMetadata accepts "instance" resourceList searchFilts
    metadataType = .ok out ∧
      out.Perm (matching accepts resourceList searchFilts.blocks (metadataType.getD "metadata"))
  single : filterAndFormatResourceMetadata accepts "instance" resourceList searchFilts
      metadataType =
    filterAndFormatResourceMetadata accepts "instance" resourceList
      (.list (searchFilts.blocks.map FilterBlock.listed)) metadataType

/-! ## When it is returned -/

/-- A single unicode pattern. -/
def Patterns.unicode : Patterns → Option (List Char)
  | .one (.unicode chars) => some chars
  | _ => none

/-- The single unicode patterns of a block, with the texts they are for. -/
def FilterBlock.unicodePatterns (block : FilterBlock) (kv : String × String) :
    List (List Char × String) :=
  ((block.key.bind Patterns.unicode).map (fun chars => (chars, kv.1))).toList ++
    ((block.value.bind Patterns.unicode).map (fun chars => (chars, kv.2))).toList

/-- What a block asks for besides its single unicode patterns. -/
structure FilterBlock.Others (block : FilterBlock) (uuid : String) (kv : String × String) :
    Prop where
  resourceId : ∀ ids ∈ block.resourceId, uuid ∈ ids
  key : ∀ patterns ∈ block.key, patterns.unicode = none →
    ∃ pattern ∈ patterns.asList, accepts pattern kv.1
  value : ∀ patterns ∈ block.value, patterns.unicode = none →
    ∃ pattern ∈ patterns.asList, accepts pattern kv.2

/-- For a tag that satisfies everything else, the characters of the single unicode patterns
decide what the patterns decide. -/
def CharactersDecide (resourceList : List Resource) (searchFilts : List FilterBlock)
    (metadataType : String) : Prop :=
  ∀ res ∈ resourceList, ∀ kv ∈ res.get metadataType,
    (∀ block ∈ searchFilts, block.Others accepts res.uuid kv) →
      ((∀ block ∈ searchFilts, ∀ q ∈ block.unicodePatterns kv, accepts (.unicode q.1) q.2) ↔
        ∀ block ∈ searchFilts, ∀ q ∈ block.unicodePatterns kv,
          ∃ c ∈ q.1, accepts (.unicode [c]) q.2)

end

/-! ## One block -/

section

variable {accepts : Text → String → Bool}

theorem matchAny_iff (patternList : Patterns) (string : String) :
    matchAny accepts patternList string ↔
      match patternList.unicode with
      | some chars => ∃ c ∈ chars, accepts (.unicode [c]) string
      | none => ∃ pattern ∈ patternList.asList, accepts pattern string := by
  unfold matchAny
  rw [List.any_eq_true]
  cases patternList with
  | many patterns => rfl
  | one pattern =>
    cases pattern with
    | bytes chars => rfl
    | unicode chars => simp [Patterns.iterated, Patterns.unicode]

/-- What the code makes of a block. -/
structure FilterBlock.Passes (accepts : Text → String → Bool) (block : FilterBlock)
    (uuid : String) (kv : String × String) : Prop where
  resourceId : ∀ ids ∈ block.resourceId, uuid ∈ ids
  key : ∀ patterns ∈ block.key, matchAny accepts patterns kv.1
  value : ∀ patterns ∈ block.value, matchAny accepts patterns kv.2

/-- A filter that is given is one that is looked at. -/
theorem skipped_iff {given : Option Patterns} (htruthy : ∀ patterns ∈ given, patterns.truthy)
    (string : String) :
    ((given.getD (.many [])).truthy && !matchAny accepts (given.getD (.many [])) string) = false ↔
      ∀ patterns ∈ given, matchAny accepts patterns string := by
  cases given with
  | none => simp [Patterns.truthy]
  | some patterns => simp [htruthy patterns rfl]

theorem isSkipped_eq_false_iff (block : FilterBlock) (kv : String × String) :
    isSkipped accepts (block.key.getD (.many [])) (block.value.getD (.many [])) kv = false ↔
      (∀ patterns ∈ block.key, matchAny accepts patterns kv.1) ∧
        ∀ patterns ∈ block.value, matchAny accepts patterns kv.2 := by
  rw [← skipped_iff block.key_truthy, ← skipped_iff block.value_truthy, ← Bool.or_eq_false_iff]
  unfold isSkipped
  split
  · next hboth =>
    -- the first `continue` says no more than the second
    simp only [Bool.and_eq_true] at hboth
    simp [hboth.1.1.1, hboth.1.2]
  · rfl

theorem ids_iff (block : FilterBlock) (uuid : String) :
    (!(block.resourceId.getD []).isEmpty && !(block.resourceId.getD []).contains uuid) = false ↔
      ∀ ids ∈ block.resourceId, uuid ∈ ids := by
  cases hids : block.resourceId with
  | none => simp
  | some ids => simp [block.resourceId_ne ids hids]

/-- The tests of a block on a tag, as the code makes them. -/
def FilterBlock.passes (accepts : Text → String → Bool) (block : FilterBlock) (uuid : String)
    (kv : String × String) : Bool :=
  !(!(block.resourceId.getD []).isEmpty && !(block.resourceId.getD []).contains uuid) &&
    !isSkipped accepts (block.key.getD (.many [])) (block.value.getD (.many [])) kv

theorem FilterBlock.passes_iff {block : FilterBlock} {uuid : String} {kv : String × String} :
    block.passes accepts uuid kv ↔ block.Passes accepts uuid kv := by
  unfold FilterBlock.passes
  rw [Bool.and_eq_true, Bool.not_eq_true', Bool.not_eq_true', ids_iff, isSkipped_eq_false_iff]
  exact ⟨fun h => ⟨h.1, h.2.1, h.2.2⟩, fun h => ⟨h.resourceId, h.key, h.value⟩⟩

theorem filterMetadata_eq (resource : Resource) (block : FilterBlock)
    {input : List (String × String)} (hinput : (keys input).Nodup) :
    filterMetadata accepts resource block input =
      input.filter (block.passes accepts resource.uuid) := by
  unfold filterMetadata FilterBlock.passes
  dsimp only
  split
  · next hids => simp only [hids, Bool.not_true, Bool.false_and, List.filter_false]
  · next hids =>
    rw [Bool.not_eq_true] at hids
    simp only [hids, Bool.not_false, Bool.true_and]
    generalize hskip : isSkipped accepts (block.key.getD (.many []))
      (block.value.getD (.many [])) = skip
    have hkept : input.filterMap (Option.guard (fun kv => !skip kv)) =
        input.filter (fun kv => !skip kv) := List.filterMap_eq_filter ▸ rfl
    rw [foldl_eq_update (f := Option.guard (fun kv => !skip kv)), hkept, update_nil]
    · exact hinput.sublist (List.filter_sublist.map _)
    · intro output kv
      cases hkv : skip kv <;> simp [Option.guard, hkv]

/-- All blocks, one after the other. -/
theorem foldl_filterMetadata (resource : Resource) :
    ∀ (blocks : List FilterBlock) {input : List (String × String)}, (keys input).Nodup →
      blocks.foldl (fun metadata filt => filterMetadata accepts resource filt metadata) input =
        input.filter (fun kv => blocks.all (fun block => block.passes accepts resource.uuid kv))
  | [], input, _ => by simp
  | block :: blocks, input, hinput => by
    have hfiltered : (keys (input.filter (block.passes accepts resource.uuid))).Nodup :=
      hinput.sublist (List.filter_sublist.map _)
    rw [List.foldl_cons, filterMetadata_eq resource block hinput,
      foldl_filterMetadata resource blocks hfiltered, List.filter_filter]
    simp only [List.all_cons, Bool.and_comm]

/-! ## Single unicode patterns -/

theorem forall_unicodePatterns {block : FilterBlock} {kv : String × String}
    {P : List Char → String → Prop} :
    (∀ q ∈ block.unicodePatterns kv, P q.1 q.2) ↔
      (∀ chars ∈ block.key.bind Patterns.unicode, P chars kv.1) ∧
        ∀ chars ∈ block.value.bind Patterns.unicode, P chars kv.2 := by
  unfold FilterBlock.unicodePatterns
  cases block.key.bind Patterns.unicode <;> cases block.value.bind Patterns.unicode <;> simp

theorem given_satisfied_iff (given : Option Patterns) (string : String) :
    (∀ patterns ∈ given, ∃ pattern ∈ patterns.asList, accepts pattern string) ↔
      (∀ patterns ∈ given, patterns.unicode = none →
        ∃ pattern ∈ patterns.asList, accepts pattern string) ∧
      ∀ chars ∈ given.bind Patterns.unicode, accepts (.unicode chars) string := by
  cases given with
  | none => simp
  | some patterns =>
    cases patterns with
    | many patterns => simp [Patterns.unicode]
    | one pattern => cases pattern <;> simp [Patterns.unicode, Patterns.asList]

theorem given_passes_iff (given : Option Patterns) (string : String) :
    (∀ patterns ∈ given, matchAny accepts patterns string) ↔
      (∀ patterns ∈ given, patterns.unicode = none →
        ∃ pattern ∈ patterns.asList, accepts pattern string) ∧
      ∀ chars ∈ given.bind Patterns.unicode, ∃ c ∈ chars, accepts (.unicode [c]) string := by
  cases given with
  | none => simp
  | some patterns =>
    simp only [Option.mem_some_iff, forall_eq', matchAny_iff, Option.bind_some]
    cases patterns.unicode <;> simp

theorem satisfied_iff (block : FilterBlock) (uuid : String) (kv : String × String) :
    block.Satisfied accepts uuid kv ↔ block.Others accepts uuid kv ∧
      ∀ q ∈ block.unicodePatterns kv, accepts (.unicode q.1) q.2 := by
  rw [forall_unicodePatterns (P := fun chars string => accepts (.unicode chars) string)]
  constructor
  · intro h
    have hkey := (given_satisfied_iff block.key kv.1).mp h.key
    have hvalue := (given_satisfied_iff block.value kv.2).mp h.value
    exact ⟨⟨h.resourceId, hkey.1, hvalue.1⟩, hkey.2, hvalue.2⟩
  · intro h
    exact {
      resourceId := h.1.resourceId
      key := (given_satisfied_iff block.key kv.1).mpr ⟨h.1.key, h.2.1⟩
      value := (given_satisfied_iff block.value kv.2).mpr ⟨h.1.value, h.2.2⟩ }

theorem passes_iff_others (block : FilterBlock) (uuid : String) (kv : String × String) :
    block.Passes accepts uuid kv ↔ block.Others accepts uuid kv ∧
      ∀ q ∈ block.unicodePatterns kv, ∃ c ∈ q.1, accepts (.unicode [c]) q.2 := by
  rw [forall_unicodePatterns
    (P := fun chars string => ∃ c ∈ chars, accepts (.unicode [c]) string)]
  constructor
  · intro h
    have hkey := (given_passes_iff block.key kv.1).mp h.key
    have hvalue := (given_passes_iff block.value kv.2).mp h.value
    exact ⟨⟨h.resourceId, hkey.1, hvalue.1⟩, hkey.2, hvalue.2⟩
  · intro h
    exact {
      resourceId := h.1.resourceId
      key := (given_passes_iff block.key kv.1).mpr ⟨h.1.key, h.2.1⟩
      value := (given_passes_iff block.value kv.2).mpr ⟨h.1.value, h.2.2⟩ }

/-- A block of lists is read as it is meant. -/
theorem passes_listed_iff (block : FilterBlock) (uuid : String) (kv : String × String) :
    block.listed.Passes accepts uuid kv ↔ block.Satisfied accepts uuid kv := by
  have hgiven : ∀ (given : Option Patterns) (string : String),
      (∀ patterns ∈ given.map (fun patterns => Patterns.many patterns.asList),
        matchAny accepts patterns string) ↔
      ∀ patterns ∈ given, ∃ pattern ∈ patterns.asList, accepts pattern string := by
    intro given string
    cases given with
    | none => simp
    | some patterns => simp [matchAny, Patterns.iterated]
  constructor
  · intro h
    exact ⟨h.resourceId, (hgiven block.key kv.1).mp h.key, (hgiven block.value kv.2).mp h.value⟩
  · intro h
    exact ⟨h.resourceId, (hgiven block.key kv.1).mpr h.key, (hgiven block.value kv.2).mpr h.value⟩

/-! ## All resources -/

variable {resourceList : List Resource} {searchFilts : SearchFilts} {metadataType : Option String}

theorem nodup_get (res : Resource) (metadataType : String) :
    (keys (res.get metadataType)).Nodup := by
  unfold Resource.get
  cases hlookup : res.metadata.lookup metadataType with
  | none => exact List.nodup_nil
  | some metadata => exact res.nodup _ (mem_of_lookup hlookup)

/-- The tags that pass every block. -/
def passing (accepts : Text → String → Bool) (resourceList : List Resource)
    (searchFilts : List FilterBlock) (metadataType : String) : List FormattedMetadata :=
  resourceList.flatMap (fun res =>
    ((res.get metadataType).filter (fun kv =>
      searchFilts.all (fun block => block.passes accepts res.uuid kv))).map
        (fun kv => ⟨kv.1, kv.2, "instance_id", res.uuid⟩))

theorem filterAndFormat_eq (accepts : Text → String → Bool) (resourceList : List Resource)
    (searchFilts : SearchFilts) (metadataType : Option String) :
    filterAndFormatResourceMetadata accepts "instance" resourceList searchFilts metadataType =
      .ok (passing accepts resourceList searchFilts.blocks (metadataType.getD "metadata")) := by
  unfold filterAndFormatResourceMetadata passing formatResource
  rw [if_pos rfl]
  simp only [foldl_filterMetadata _ _ (nodup_get _ _)]
  rfl

theorem mem_passing {entry : FormattedMetadata} {blocks : List FilterBlock} {type : String} :
    entry ∈ passing accepts resourceList blocks type ↔
      ∃ res ∈ resourceList, ∃ kv ∈ res.get type,
        (∀ block ∈ blocks, block.Passes accepts res.uuid kv) ∧
          entry = ⟨kv.1, kv.2, "instance_id", res.uuid⟩ := by
  unfold passing
  simp only [List.mem_flatMap, List.mem_map, List.mem_filter, List.all_eq_true,
    FilterBlock.passes_iff]
  constructor
  · rintro ⟨res, hres, kv, ⟨hkv, hpasses⟩, rfl⟩
    exact ⟨res, hres, kv, hkv, hpasses, rfl⟩
  · rintro ⟨res, hres, kv, hkv, hpasses, rfl⟩
    exact ⟨res, hres, kv, ⟨hkv, hpasses⟩, rfl⟩

theorem mem_matching {entry : FormattedMetadata} {blocks : List FilterBlock} {type : String} :
    entry ∈ matching accepts resourceList blocks type ↔
      ∃ res ∈ resourceList, ∃ kv ∈ res.get type,
        (∀ block ∈ blocks, block.Satisfied accepts res.uuid kv) ∧
          entry = ⟨kv.1, kv.2, "instance_id", res.uuid⟩ := by
  unfold matching
  simp only [List.mem_flatMap, List.mem_map, List.mem_filter, decide_eq_true_eq]
  constructor
  · rintro ⟨res, hres, kv, ⟨hkv, hsatisfied⟩, rfl⟩
    exact ⟨res, hres, kv, hkv, hsatisfied, rfl⟩
  · rintro ⟨res, hres, kv, hkv, hsatisfied, rfl⟩
    exact ⟨res, hres, kv, ⟨hkv, hsatisfied⟩, rfl⟩

/-- Blocks of lists return the matching tags. -/
theorem passing_listed (blocks : List FilterBlock) (type : String) :
    passing accepts resourceList (blocks.map FilterBlock.listed) type =
      matching accepts resourceList blocks type := by
  unfold passing matching
  congr 1
  funext res
  congr 1
  refine List.filter_congr (fun kv _ => ?_)
  rw [Bool.eq_iff_iff, decide_eq_true_eq, List.all_eq_true]
  simp only [List.forall_mem_map, FilterBlock.passes_iff, passes_listed_iff]

/-- Each tag passes the blocks exactly if it satisfies them. -/
theorem charactersDecide_iff {blocks : List FilterBlock} {type : String} :
    CharactersDecide accepts resourceList blocks type ↔
      ∀ res ∈ resourceList, ∀ kv ∈ res.get type,
        ((∀ block ∈ blocks, block.Satisfied accepts res.uuid kv) ↔
          ∀ block ∈ blocks, block.Passes accepts res.uuid kv) := by
  unfold CharactersDecide
  refine forall₂_congr (fun res _ => forall₂_congr (fun kv _ => ?_))
  simp only [satisfied_iff, passes_iff_others, forall_and]
  exact and_congr_right_iff.symm

/-- **Tag filtering returns the matching tags** exactly where the single unicode patterns and
their characters decide alike. -/
theorem returnsMatching_iff (accepts : Text → String → Bool) (resourceList : List Resource)
    (searchFilts : SearchFilts) (metadataType : Option String) :
    ReturnsMatching accepts resourceList searchFilts metadataType ↔
      CharactersDecide accepts resourceList searchFilts.blocks
        (metadataType.getD "metadata") := by
  rw [charactersDecide_iff]
  constructor
  · intro h
    obtain ⟨out, hout, hperm⟩ := h.tags
    rw [filterAndFormat_eq] at hout
    cases hout
    intro res hres kv hkv
    have hiff := hperm.mem_iff (a := ⟨kv.1, kv.2, "instance_id", res.uuid⟩)
    rw [mem_passing, mem_matching] at hiff
    constructor
    · intro hsatisfied
      obtain ⟨res', -, kv', -, hpasses, hentry⟩ := hiff.mpr ⟨res, hres, kv, hkv, hsatisfied, rfl⟩
      obtain ⟨hkey, hvalue, -, huuid⟩ := FormattedMetadata.mk.inj hentry
      rw [huuid, Prod.ext hkey hvalue]
      exact hpasses
    · intro hpasses
      obtain ⟨res', -, kv', -, hsatisfied, hentry⟩ := hiff.mp ⟨res, hres, kv, hkv, hpasses, rfl⟩
      obtain ⟨hkey, hvalue, -, huuid⟩ := FormattedMetadata.mk.inj hentry
      rw [huuid, Prod.ext hkey hvalue]
      exact hsatisfied
  · intro h
    have heq : passing accepts resourceList searchFilts.blocks (metadataType.getD "metadata") =
        matching accepts resourceList searchFilts.blocks (metadataType.getD "metadata") := by
      unfold passing matching
      refine List.flatMap_congr (fun res hres => ?_)
      congr 1
      refine List.filter_congr (fun kv hkv => ?_)
      rw [Bool.eq_iff_iff, decide_eq_true_eq, List.all_eq_true]
      simp only [FilterBlock.passes_iff]
      exact (h res hres kv hkv).symm
    constructor
    · exact ⟨_, filterAndFormat_eq accepts resourceList searchFilts metadataType, heq ▸ .refl _⟩
    · rw [filterAndFormat_eq, filterAndFormat_eq, heq]
      exact congrArg Except.ok (passing_listed searchFilts.blocks _).symm

end

/-! ## A unicode pattern -/

/-- `re.match` of a pattern of plain characters. -/
def matchPlain (pattern : Text) (string : String) : Bool :=
  pattern.chars.isPrefixOf string.toList

/-- `{'key': u'env'}`. -/
def envBlock : FilterBlock where
  resourceId := none
  key := some (.one (.unicode ['e', 'n', 'v']))
  value := none
  resourceId_ne := by simp
  key_truthy := by simp [Patterns.truthy, Text.chars]
  value_truthy := by simp

def namedInstance : Resource where
  uuid := "i1"
  metadata := [("metadata", [("name", "web")])]
  nodup := by simp [keys]

/-- The tag `name` is returned, as one of the characters is an `n`. -/
theorem returns_name_for_env :
    filterAndFormatResourceMetadata matchPlain "instance" [namedInstance] (.dict envBlock) none =
        .ok [⟨"name", "web", "instance_id", "i1"⟩] ∧
      ¬ReturnsMatching matchPlain [namedInstance] (.dict envBlock) none := by
  refine ⟨rfl, ?_⟩
  intro h
  obtain ⟨out, hout, hperm⟩ := h.tags
  cases hout
  exact absurd hperm.length_eq (by decide)

end PolarBear.Utils
