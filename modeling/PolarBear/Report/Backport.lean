import PolarBear.Lib.Fallible
import PolarBear.Objects.Fields

/-!
# Backporting a `TestCase`

`obj_make_compatible` takes from the primitive of a `TestCase` what a receiver of an older
version does not know. It was written for `ComputeNode` and still speaks of its fields: most
of what it takes away a `TestCase` never has. Taking away is harmless (`Trimmed`), and what
is left loads like the whole (`loads_of_trimmed`).

Below version 1.13 it also puts a `service_id` in, which no version of `TestCase` has. So a
backport only drops fields exactly for the versions from 1.13 on (`backports_iff`).

What `Service.get_by_compute_host` finds is a parameter, and so is reading a time
(`parseIsotime`).
-/

namespace PolarBear.Report

open PolarBear.Py
open PolarBear.Objects

variable {δ : Type}

/-! ## Fields -/

inductive FieldType where
  | integer
  | uuid
  | string
  | dateTime
  | boolean
  deriving DecidableEq, Repr

structure Field where
  type : FieldType
  nullable : Bool
  default : Option Bool
  deriving DecidableEq, Repr

/-- `NovaPersistentObject.fields`. -/
def persistentFields : List (String × Field) := [
  ("created_at", ⟨.dateTime, true, none⟩),
  ("updated_at", ⟨.dateTime, true, none⟩),
  ("deleted_at", ⟨.dateTime, true, none⟩),
  ("deleted", ⟨.boolean, false, some false⟩)]

/-- `TestCase.fields`, with those of the base class. -/
def testCaseFields : List (String × Field) := [
  ("id", ⟨.integer, false, none⟩),
  ("uuid", ⟨.uuid, false, none⟩),
  ("case_name", ⟨.string, false, none⟩),
  ("status", ⟨.string, false, none⟩),
  ("host", ⟨.string, false, none⟩),
  ("beginning", ⟨.dateTime, false, none⟩),
  ("ending", ⟨.dateTime, false, none⟩),
  ("message", ⟨.string, false, none⟩),
  ("errors", ⟨.integer, false, none⟩)] ++ persistentFields

/-! ## Loading -/

/-- A value of a field, with times `δ`. -/
inductive Attr (δ : Type) where
  | none
  | bool (b : Bool)
  | int (n : Int)
  | text (s : String)
  | time (t : δ)
  deriving DecidableEq, Repr

/-- What a field makes of a value, with `timeutils.parse_isotime`. -/
structure Readers (δ : Type) extends Conversions where
  parseIsotime : String → Option δ

section

variable (readers : Readers δ)

/-- `DateTime.from_primitive`. -/
def readTime : Json → Except PyError δ
  | .str s =>
    match readers.parseIsotime s with
    | some t => .ok t
    | none => .error (.of .valueError ("Unable to parse date string " ++ s))
  | _ => .error (.of .valueError "Expecting a string")

/-- `from_primitive` and then `coerce` of a field type. -/
def FieldType.load (attr : String) (type : FieldType) (v : Json) : Except PyError (Attr δ) :=
  match type with
  | .integer => do
    let n ← coerceInteger readers.toConversions v
    .ok (.int n)
  | .uuid => do
    let s ← v.pyStr readers.strOther
    .ok (.text s)
  | .string => do
    let s ← coerceString readers.toConversions attr v
    .ok (.text s)
  | .dateTime => do
    let t ← readTime readers v
    .ok (.time t)
  | .boolean => .ok (.bool v.truthy)

/-- `Field.from_primitive` and then the setter, which coerces. -/
def Field.load (f : Field) (attr : String) : Json → Except PyError (Attr δ)
  | .null =>
    if f.nullable then .ok .none
    else match f.default with
      | some b => .ok (.bool b)
      | none => .error (cannotBeNone attr)
  | v => f.type.load readers attr v

/-- The fields that stand in the data. -/
def present (data : List (String × Json)) : List (String × Field × Json) :=
  testCaseFields.filterMap (fun nf => (data.lookup nf.1).map (fun v => (nf.1, nf.2, v)))

/-- `TestCase._obj_from_primitive`: the fields that the data have, and nothing else. -/
def objFromPrimitive (data : List (String × Json)) : Except PyError (List (String × Attr δ)) :=
  (present data).mapM (fun e => do
    let v ← e.2.1.load readers e.1 e.2.2
    .ok (e.1, v))

end

/-! ## Backporting -/

/-- `versionutils.convert_version_to_tuple`. -/
def convertVersionToTuple (version : String) : Except PyError (List Int) :=
  (split '.' version).mapM (fun part =>
    match pyInt part with
    | some n => .ok n
    | none => .error (.of .valueError ("invalid literal for int() with base 10: " ++ part)))

inductive CompatError where
  | computeHostNotFound (host : Json)
  | raised (e : PyError)
  deriving Repr

/-- `except (exception.ComputeHostNotFound, KeyError)`. -/
def CompatError.caught : CompatError → Bool
  | .computeHostNotFound _ => true
  | .raised e => e.cls == .keyError

/-- The keys that go, if the target is below a version. -/
def deleteBelow (version target : List Int) (names : List String)
    (primitive : List (String × Json)) : List (String × Json) :=
  if target < version then primitive.filter (fun kv => !names.contains kv.1) else primitive

section

variable (getByComputeHost : Json → Except CompatError Int)

/-- The id of the service on the host of the test case. -/
def serviceOf (primitive : List (String × Json)) : Except CompatError Int :=
  match primitive.lookup "host" with
  | none => .error (.raised (.key "host"))
  | some host => getByComputeHost host

/-- The `service_id` that a version below 1.13 is given, `-1` where no service is found. -/
def addServiceId (primitive : List (String × Json)) :
    Except CompatError (List (String × Json)) :=
  match serviceOf getByComputeHost primitive with
  | .ok serviceId => .ok (Dict.set "service_id" (.int serviceId) primitive)
  | .error e =>
    if e.caught then .ok (Dict.set "service_id" (.int (-1)) primitive) else .error e

/-- The middle of `obj_make_compatible`: the only step that puts something in. -/
def demandServiceId (target : List Int) (primitive : List (String × Json)) :
    Except CompatError (List (String × Json)) :=
  if target < [1, 13] ∧ ((primitive.lookup "service_id").getD .null).isNull = true then
    addServiceId getByComputeHost primitive
  else .ok primitive

/-- `TestCase.obj_make_compatible`; the base class does nothing, as no field is an object. -/
def objMakeCompatible (primitive : List (String × Json)) (targetVersion : String) :
    Except CompatError (List (String × Json)) :=
  match convertVersionToTuple targetVersion with
  | .error e => .error (.raised e)
  | .ok target => do
    let primitive := deleteBelow [1, 16] target ["disk_allocation_ratio"] primitive
    let primitive := deleteBelow [1, 15] target ["uuid"] primitive
    let primitive := deleteBelow [1, 14] target ["ram_allocation_ratio", "cpu_allocation_ratio"]
      primitive
    let primitive ← demandServiceId getByComputeHost target primitive
    let primitive := deleteBelow [1, 7] target ["host"] primitive
    let primitive := deleteBelow [1, 5] target ["numa_topology"] primitive
    let primitive := deleteBelow [1, 4] target ["host_ip"] primitive
    .ok (deleteBelow [1, 3] target ["stats"] primitive)

end

/-! ## What a backport should do -/

/-- What `obj_to_primitive` makes of a `TestCase`: distinct fields of it, with values that
load. -/
structure IsPrimitive (readers : Readers δ) (primitive : List (String × Json)) : Prop where
  names : ∀ k ∈ Dict.keys primitive, k ∈ Dict.keys testCaseFields
  nodup : (Dict.keys primitive).Nodup
  loads : ∃ o, objFromPrimitive readers primitive = .ok o

/-- The fields of the `TestCase` of a version. -/
def fieldsAt (target : List Int) : List String :=
  (Dict.keys testCaseFields).filter (fun k =>
    !(decide (target < [1, 15]) && k == "uuid") && !(decide (target < [1, 7]) && k == "host"))

/-- The result has nothing new, nothing changed and nothing that the version does not have,
and it loads. -/
structure DropsOnly (readers : Readers δ) (target : List Int)
    (primitive result : List (String × Json)) : Prop where
  keys : ∀ k ∈ Dict.keys result, k ∈ Dict.keys primitive
  values : ∀ k v, result.lookup k = some v → primitive.lookup k = some v
  fields : ∀ k ∈ Dict.keys result, k ∈ fieldsAt target
  loads : ∃ o, objFromPrimitive readers result = .ok o

def Backports (readers : Readers δ) (getByComputeHost : Json → Except CompatError Int)
    (target : List Int) (targetVersion : String) (primitive : List (String × Json)) : Prop :=
  ∃ result, objMakeCompatible getByComputeHost primitive targetVersion = .ok result ∧
    DropsOnly readers target primitive result

/-! ## Dropping -/

variable {readers : Readers δ} {getByComputeHost : Json → Except CompatError Int}
  {version target : List Int} {names : List String} {k targetVersion : String}
  {primitive result : List (String × Json)}

theorem deleteBelow_sublist (version target : List Int) (names : List String)
    (primitive : List (String × Json)) :
    (deleteBelow version target names primitive).Sublist primitive := by
  unfold deleteBelow
  split
  · exact List.filter_sublist
  · exact List.Sublist.refl _

theorem notMem_deleteBelow (htarget : target < version) (hk : k ∈ names) :
    k ∉ Dict.keys (deleteBelow version target names primitive) := by
  intro hmem
  unfold deleteBelow at hmem
  rw [if_pos htarget] at hmem
  obtain ⟨kv, hkv, rfl⟩ := List.mem_map.mp hmem
  have hnot := (List.mem_filter.mp hkv).2
  rw [List.contains_iff_mem.mpr hk] at hnot
  cases hnot

theorem mem_deleteBelow (hk : k ∉ names) (hmem : k ∈ Dict.keys primitive) :
    k ∈ Dict.keys (deleteBelow version target names primitive) := by
  unfold deleteBelow
  split
  · obtain ⟨kv, hkv, rfl⟩ := List.mem_map.mp hmem
    refine List.mem_map_of_mem (List.mem_filter.mpr ⟨hkv, ?_⟩)
    rw [Bool.not_eq_true', ← Bool.not_eq_true, List.contains_iff_mem]
    exact hk
  · exact hmem

theorem keys_sublist (h : result.Sublist primitive) :
    (Dict.keys result).Sublist (Dict.keys primitive) := h.map Prod.fst

/-- What is left reads what it read. -/
theorem lookup_of_sublist (hnodup : (Dict.keys primitive).Nodup) (h : result.Sublist primitive)
    {v : Json} (hk : result.lookup k = some v) : primitive.lookup k = some v :=
  Dict.lookup_of_mem hnodup (h.mem (Dict.mem_of_lookup hk))

/-- **What is left loads**: every field of it is a field of the whole. -/
theorem loads_of_sublist (h : IsPrimitive readers primitive) (hsub : result.Sublist primitive) :
    ∃ o, objFromPrimitive readers result = .ok o := by
  obtain ⟨o, ho⟩ := h.loads
  refine Fallible.mapM_exists_ok (fun e he => Fallible.mapM_mem_ok ho e ?_)
  obtain ⟨nf, hnf, hlook⟩ := List.mem_filterMap.mp he
  obtain ⟨v, hv, rfl⟩ := Option.map_eq_some_iff.mp hlook
  refine List.mem_filterMap.mpr ⟨nf, hnf, ?_⟩
  rw [lookup_of_sublist h.nodup hsub hv]
  rfl

theorem dropsOnly_of_sublist (h : IsPrimitive readers primitive)
    (hsub : result.Sublist primitive)
    (huuid : target < [1, 15] → "uuid" ∉ Dict.keys result)
    (hhost : target < [1, 7] → "host" ∉ Dict.keys result) :
    DropsOnly readers target primitive result where
  keys k hk := (keys_sublist hsub).mem hk
  values k v hk := lookup_of_sublist h.nodup hsub hk
  loads := loads_of_sublist h hsub
  fields k hk := by
    refine List.mem_filter.mpr ⟨h.names k ((keys_sublist hsub).mem hk), ?_⟩
    rw [Bool.and_eq_true, Bool.not_eq_true', Bool.not_eq_true', ← Bool.not_eq_true,
      ← Bool.not_eq_true, Bool.and_eq_true, Bool.and_eq_true, decide_eq_true_eq,
      decide_eq_true_eq, beq_iff_eq, beq_iff_eq]
    constructor
    · rintro ⟨htarget, rfl⟩
      exact huuid htarget hk
    · rintro ⟨htarget, rfl⟩
      exact hhost htarget hk

/-! ## The service id -/

theorem demandServiceId_of_le (htarget : ¬ target < [1, 13]) :
    demandServiceId getByComputeHost target primitive = .ok primitive :=
  if_neg (fun h => htarget h.1)

/-- Below 1.13 a primitive without `service_id` gets one, if nothing is raised. -/
theorem mem_demandServiceId (htarget : target < [1, 13])
    (hnone : "service_id" ∉ Dict.keys primitive)
    (h : demandServiceId getByComputeHost target primitive = .ok result) :
    "service_id" ∈ Dict.keys result := by
  have hset : ∀ n : Int, "service_id" ∈ Dict.keys (Dict.set "service_id" (.int n) primitive) :=
    fun n => (Dict.mem_keys_iff _ _).mpr ⟨_, Dict.lookup_set_self _ _ _⟩
  have hlook : primitive.lookup "service_id" = none := by
    cases hv : primitive.lookup "service_id" with
    | none => rfl
    | some v => exact absurd ((Dict.mem_keys_iff _ _).mpr ⟨v, hv⟩) hnone
  unfold demandServiceId at h
  rw [hlook, if_pos ⟨htarget, rfl⟩] at h
  unfold addServiceId at h
  split at h
  · cases h
    exact hset _
  · split at h
    · cases h
      exact hset _
    · cases h

/-! ## The result -/

/-- **Main result.** A backport of a `TestCase` only drops fields exactly if the target is
not below version 1.13. -/
theorem backports_iff (h : IsPrimitive readers primitive)
    (hversion : convertVersionToTuple targetVersion = .ok target) :
    Backports readers getByComputeHost target targetVersion primitive ↔
      ¬ target < [1, 13] := by
  -- what stands before and after the step that puts something in
  let before := deleteBelow [1, 14] target ["ram_allocation_ratio", "cpu_allocation_ratio"]
    (deleteBelow [1, 15] target ["uuid"]
      (deleteBelow [1, 16] target ["disk_allocation_ratio"] primitive))
  let after : List (String × Json) → List (String × Json) := fun d =>
    deleteBelow [1, 3] target ["stats"] (deleteBelow [1, 4] target ["host_ip"]
      (deleteBelow [1, 5] target ["numa_topology"] (deleteBelow [1, 7] target ["host"] d)))
  have hmake : objMakeCompatible getByComputeHost primitive targetVersion =
      (demandServiceId getByComputeHost target before >>= fun d => .ok (after d)) := by
    unfold objMakeCompatible
    rw [hversion]
  have hbefore : before.Sublist primitive :=
    (deleteBelow_sublist _ _ _ _).trans
      ((deleteBelow_sublist _ _ _ _).trans (deleteBelow_sublist _ _ _ _))
  have hafter : ∀ d, (after d).Sublist (deleteBelow [1, 7] target ["host"] d) := fun d =>
    (deleteBelow_sublist _ _ _ _).trans
      ((deleteBelow_sublist _ _ _ _).trans (deleteBelow_sublist _ _ _ _))
  constructor
  · rintro ⟨result, hresult, hdrops⟩ htarget
    rw [hmake] at hresult
    obtain ⟨d, hd, heq⟩ := Fallible.bind_ok_iff.mp hresult
    cases heq
    -- no `TestCase` has a `service_id`, so the step puts one in and no later one takes it out
    have hnone : "service_id" ∉ Dict.keys before := fun hmem =>
      absurd (h.names _ ((keys_sublist hbefore).mem hmem)) (by decide)
    have hmem : "service_id" ∈ Dict.keys (after d) :=
      mem_deleteBelow (by decide) (mem_deleteBelow (by decide) (mem_deleteBelow (by decide)
        (mem_deleteBelow (by decide) (mem_demandServiceId htarget hnone hd))))
    exact absurd (h.names _ (hdrops.keys _ hmem)) (by decide)
  · intro htarget
    refine ⟨after before, ?_, dropsOnly_of_sublist h
      ((hafter _).trans ((deleteBelow_sublist _ _ _ _).trans hbefore)) ?_ ?_⟩
    · rw [hmake, demandServiceId_of_le htarget]
      rfl
    · -- the uuid goes at its version and does not come back
      intro huuid hmem
      have hleft : "uuid" ∈ Dict.keys (deleteBelow [1, 15] target ["uuid"]
          (deleteBelow [1, 16] target ["disk_allocation_ratio"] primitive)) :=
        (keys_sublist ((hafter _).trans ((deleteBelow_sublist _ _ _ _).trans
          (deleteBelow_sublist _ _ _ _)))).mem hmem
      exact notMem_deleteBelow huuid (List.mem_singleton_self _) hleft
    · exact fun hhost hmem => notMem_deleteBelow hhost (List.mem_singleton_self _)
        ((keys_sublist (hafter _)).mem hmem)

/-! ## Test cases -/

/-- Times as their texts, and floats without their fractions. -/
def textReaders : Readers String where
  parseIsotime := some
  floatInt := fun r => pyInt (String.ofList (r.toList.takeWhile (fun c => c != '.')))
  strOther := fun _ => ""

/-- No host has a service. -/
def noService : Json → Except CompatError Int := fun host => .error (.computeHostNotFound host)

def bootCase : List (String × Json) := [
  ("id", .int 7), ("uuid", .str "9f2c"), ("case_name", .str "boot"), ("status", .str "PASS"),
  ("host", .str "node1"), ("beginning", .str "2017-03-01T10:00:00Z"), ("errors", .int 0),
  ("deleted", .bool false), ("deleted_at", .null)]

def bootAttrs : List (String × Attr String) := [
  ("id", .int 7), ("uuid", .text "9f2c"), ("case_name", .text "boot"), ("status", .text "PASS"),
  ("host", .text "node1"), ("beginning", .time "2017-03-01T10:00:00Z"), ("errors", .int 0),
  ("deleted_at", .none), ("deleted", .bool false)]

theorem bootCase_loads : objFromPrimitive textReaders bootCase = .ok bootAttrs := rfl

theorem bootCase_isPrimitive : IsPrimitive textReaders bootCase where
  names := by decide
  nodup := by decide
  loads := ⟨bootAttrs, bootCase_loads⟩

theorem bootCase_backports :
    Backports textReaders noService [1, 14] "1.14" bootCase :=
  (backports_iff bootCase_isPrimitive rfl).mpr (by decide)

/-- A receiver of version 1.12 gets a `service_id`. -/
theorem backport_adds_serviceId :
    IsPrimitive textReaders bootCase ∧ convertVersionToTuple "1.12" = .ok [1, 12] ∧
    ¬ Backports textReaders noService [1, 12] "1.12" bootCase := by
  refine ⟨bootCase_isPrimitive, rfl, ?_⟩
  rintro ⟨result, hresult, hdrops⟩
  cases hresult
  have hkey := hdrops.keys "service_id" (by decide)
  exact absurd hkey (by decide)

end PolarBear.Report
