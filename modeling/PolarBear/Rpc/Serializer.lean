import PolarBear.Api.Submit
import PolarBear.Lib.Fallible
import PolarBear.Py.Builtins
import PolarBear.Py.Tree

/-!
# `NovaObjectSerializer`: what an RPC argument becomes

The serializer replaces every versioned object in an argument by a dictionary
that describes it, and the receiver turns the dictionaries back into objects. It
knows them by one reserved key, `nova_object.name`, and looks for it in every
dictionary, at any depth.

So plain data arrives as it was sent unless it contains that key: then the
receiver either raises or puts an object where a dictionary was. `received_iff`
says that this is the only exception.
-/

namespace PolarBear.Rpc

open PolarBear.Py

/-- The built-in classes of a sequence. -/
inductive SeqClass where
  | list
  | tuple
  | set
  deriving DecidableEq, Repr

/-- An argument of a call: plain values and, anywhere in them, objects. -/
inductive Entity (Obj : Type) where
  | null
  | bool (b : Bool)
  | int (n : Int)
  | float (repr : String)
  | str (s : String)
  | seq (cls : SeqClass) (xs : List (Entity Obj))
  | dict (fields : List (String × Entity Obj))
  | object (o : Obj)

/-- The exceptions of the serializer's own code; `objectCode` is one of the
object classes. -/
inductive SerializerError (Obj : Type) where
  | keyError (key : String)
  | attributeError
  | unsupportedObject (objns objname : Entity Obj)
  | incompatibleVersion (objname objver : Entity Obj)
  | objectCode (error : PyError)

variable {Obj : Type}

/-- What the object classes contribute: `obj_to_primitive`; the class registry
with its hydration, `obj_class_from_name` and `_obj_from_primitive`; the version
manifest; and the conductor's `object_backport_versions`. -/
structure ObjectCode (Obj : Type) where
  objToPrimitive : Obj → Except (SerializerError Obj) (Entity Obj)
  hydrate : List (String × Entity Obj) → (objname objver : Entity Obj) →
    Except (SerializerError Obj) Obj
  inManifest : (objname : Entity Obj) → Bool
  backport : List (String × Entity Obj) → Except (SerializerError Obj) Obj

/-- `_obj_primitive_key`. -/
def objPrimitiveKey (field : String) : String := "nova_object." ++ field

/-- `_obj_primitive_field` without a default. -/
def objPrimitiveField (primitive : List (String × Entity Obj)) (field : String) :
    Except (SerializerError Obj) (Entity Obj) :=
  match primitive.lookup (objPrimitiveKey field) with
  | some v => .ok v
  | none => .error (.keyError (objPrimitiveKey field))

/-- `objns == 'nova'`. -/
def isNova : Entity Obj → Bool
  | .str s => s == "nova"
  | _ => false

variable (code : ObjectCode Obj)

/-- `NovaObject.obj_from_primitive`. -/
def objFromPrimitive (primitive : List (String × Entity Obj)) :
    Except (SerializerError Obj) Obj := do
  let objns ← objPrimitiveField primitive "namespace"
  let objname ← objPrimitiveField primitive "name"
  let objver ← objPrimitiveField primitive "version"
  if !isNova objns then .error (.unsupportedObject objns objname)
  else code.hydrate primitive objname objver

/-- The end of the handler of `_process_object`: a known object is backported,
otherwise the exception is raised again. -/
def backportOr (objprim : List (String × Entity Obj)) (raised : SerializerError Obj) :
    Except (SerializerError Obj) (Entity Obj) := do
  let objname ← objPrimitiveField objprim "name"
  if code.inManifest objname then .object <$> code.backport objprim else .error raised

/-- `_process_object`. A version `x.y.z` is cut to `x.y`, which cannot be cut
again, so the call it makes of itself ends in the backport. -/
def processObject (objprim : List (String × Entity Obj)) :
    Except (SerializerError Obj) (Entity Obj) :=
  match objFromPrimitive code objprim with
  | .ok objinst => .ok (.object objinst)
  | .error (.incompatibleVersion objname objver) =>
    match objprim.lookup (objPrimitiveKey "version") with
    | some (.str ver) =>
      -- the call of itself, with the version cut
      if ver.toList.count '.' = 2 then
        let objprim := Dict.set (objPrimitiveKey "version")
          (.str (".".intercalate ((split '.' ver).take 2))) objprim
        match objFromPrimitive code objprim with
        | .ok objinst => .ok (.object objinst)
        | .error (.incompatibleVersion objname objver) =>
          backportOr code objprim (.incompatibleVersion objname objver)
        | .error e => .error e
      else backportOr code objprim (.incompatibleVersion objname objver)
    | _ => .error .attributeError
  | .error e => .error e

/-- The class `_process_iterable` builds for a sequence. -/
def SeqClass.processed : SeqClass → SeqClass
  | .set => .list
  | cls => cls

mutual

/-- `serialize_entity`. -/
def serializeEntity : Entity Obj → Except (SerializerError Obj) (Entity Obj)
  | .seq cls xs => .seq cls.processed <$> serializeItems xs
  | .dict fields => .dict <$> serializeValues fields
  | .object o => code.objToPrimitive o
  | entity => .ok entity

/-- `_process_iterable` with `serialize_entity`, on a sequence. -/
def serializeItems : List (Entity Obj) → Except (SerializerError Obj) (List (Entity Obj))
  | [] => .ok []
  | x :: xs => do .ok ((← serializeEntity x) :: (← serializeItems xs))

/-- The same on a dictionary. -/
def serializeValues : List (String × Entity Obj) →
    Except (SerializerError Obj) (List (String × Entity Obj))
  | [] => .ok []
  | (k, x) :: fields => do .ok ((k, ← serializeEntity x) :: (← serializeValues fields))

end

mutual

/-- `deserialize_entity`. -/
def deserializeEntity : Entity Obj → Except (SerializerError Obj) (Entity Obj)
  | .seq cls xs => .seq cls.processed <$> deserializeItems xs
  | .dict fields =>
    -- any dictionary with this key is taken for an object
    if (fields.lookup (objPrimitiveKey "name")).isSome then processObject code fields
    else .dict <$> deserializeValues fields
  | entity => .ok entity

/-- `_process_iterable` with `deserialize_entity`, on a sequence. -/
def deserializeItems : List (Entity Obj) → Except (SerializerError Obj) (List (Entity Obj))
  | [] => .ok []
  | x :: xs => do .ok ((← deserializeEntity x) :: (← deserializeItems xs))

/-- The same on a dictionary. -/
def deserializeValues : List (String × Entity Obj) →
    Except (SerializerError Obj) (List (String × Entity Obj))
  | [] => .ok []
  | (k, x) :: fields => do .ok ((k, ← deserializeEntity x) :: (← deserializeValues fields))

end

/-- What the receiver of an argument gets. -/
def received (x : Entity Obj) : Except (SerializerError Obj) (Entity Obj) := do
  deserializeEntity code (← serializeEntity code x)

/-! ## The two loops -/

theorem serializeItems_eq (xs : List (Entity Obj)) :
    serializeItems code xs = xs.mapM (serializeEntity code) := by
  induction xs with
  | nil => rfl
  | cons x xs ih =>
    rw [serializeItems, ih, List.mapM_cons]
    rfl

theorem serializeValues_eq (fields : List (String × Entity Obj)) :
    serializeValues code fields =
      fields.mapM (fun kv => do .ok (kv.1, ← serializeEntity code kv.2)) := by
  induction fields with
  | nil => rfl
  | cons e fields ih =>
    obtain ⟨k, x⟩ := e
    rw [serializeValues, ih, List.mapM_cons]
    cases serializeEntity code x <;> rfl

theorem deserializeItems_eq (xs : List (Entity Obj)) :
    deserializeItems code xs = xs.mapM (deserializeEntity code) := by
  induction xs with
  | nil => rfl
  | cons x xs ih =>
    rw [deserializeItems, ih, List.mapM_cons]
    rfl

theorem deserializeValues_eq (fields : List (String × Entity Obj)) :
    deserializeValues code fields =
      fields.mapM (fun kv => do .ok (kv.1, ← deserializeEntity code kv.2)) := by
  induction fields with
  | nil => rfl
  | cons e fields ih =>
    obtain ⟨k, x⟩ := e
    rw [deserializeValues, ih, List.mapM_cons]
    cases deserializeEntity code x <;> rfl

/-! ## Plain data -/

mutual

/-- A JSON value as an argument. -/
def ofJson : Json → Entity Obj
  | .null => .null
  | .bool b => .bool b
  | .int n => .int n
  | .float r => .float r
  | .str s => .str s
  | .arr xs => .seq .list (ofItems xs)
  | .obj fields => .dict (ofFields fields)

def ofItems : List Json → List (Entity Obj)
  | [] => []
  | x :: xs => ofJson x :: ofItems xs

def ofFields : List (String × Json) → List (String × Entity Obj)
  | [] => []
  | (k, x) :: fields => (k, ofJson x) :: ofFields fields

end

theorem mem_ofItems {xs : List Json} {e : Entity Obj} :
    e ∈ ofItems xs ↔ ∃ x ∈ xs, ofJson x = e := by
  induction xs with
  | nil => simp [ofItems]
  | cons x xs ih => simp [ofItems, ih, eq_comm]

theorem mem_ofFields {fields : List (String × Json)} {e : String × Entity Obj} :
    e ∈ ofFields fields ↔ ∃ kv ∈ fields, (kv.1, ofJson kv.2) = e := by
  induction fields with
  | nil => simp [ofFields]
  | cons kv fields ih =>
    obtain ⟨k, x⟩ := kv
    simp [ofFields, ih, eq_comm]

/-- The entries keep their keys. -/
theorem lookup_ofFields (k : String) (fields : List (String × Json)) :
    (ofFields fields : List (String × Entity Obj)).lookup k = (fields.lookup k).map ofJson := by
  induction fields with
  | nil => rfl
  | cons kv fields ih =>
    obtain ⟨a, x⟩ := kv
    rw [ofFields]
    by_cases h : a = k
    · rw [h, List.lookup_cons_self, List.lookup_cons_self]
      rfl
    · rw [Dict.lookup_cons_ne h, Dict.lookup_cons_ne h, ih]

/-- The receiver looks for the reserved key. -/
theorem reserved_isSome (fields : List (String × Json)) :
    ((ofFields fields : List (String × Entity Obj)).lookup (objPrimitiveKey "name")).isSome = true
      ↔ objPrimitiveKey "name" ∈ Dict.keys fields := by
  rw [lookup_ofFields, Option.isSome_map, Option.isSome_iff_exists, Dict.mem_keys_iff]

/-- Plain data is sent as it is. -/
theorem serialize_ofJson (x : Json) :
    serializeEntity code (ofJson x) = .ok (ofJson x) := by
  induction x using Json.induct with
  | null => rfl
  | bool b => rfl
  | int n => rfl
  | float r => rfl
  | str s => rfl
  | arr xs ih =>
    have hitems : serializeItems code (ofItems xs) = .ok (ofItems xs) := by
      rw [serializeItems_eq, Fallible.mapM_eq_self_iff]
      intro e he
      obtain ⟨x, hx, rfl⟩ := mem_ofItems.mp he
      exact ih x hx
    rw [ofJson, serializeEntity, hitems]
    rfl
  | obj fields ih =>
    have hvalues : serializeValues code (ofFields fields) = .ok (ofFields fields) := by
      rw [serializeValues_eq, Fallible.mapM_eq_self_iff]
      intro e he
      obtain ⟨kv, hkv, rfl⟩ := mem_ofFields.mp he
      dsimp only
      rw [ih kv hkv]
      rfl
    rw [ofJson, serializeEntity, hvalues]
    rfl

/-- A dictionary with the reserved key never becomes a dictionary. -/
theorem processObject_ne_dict (objprim fields : List (String × Entity Obj)) :
    processObject code objprim ≠ .ok (.dict fields) := by
  have hbackport : ∀ objprim raised, backportOr code objprim raised ≠ .ok (.dict fields) := by
    intro objprim raised h
    unfold backportOr at h
    obtain ⟨objname, -, h⟩ := Fallible.bind_ok_iff.mp h
    split at h
    · cases hb : code.backport objprim with
      | error e =>
        rw [hb] at h
        cases h
      | ok o =>
        rw [hb] at h
        cases h
    · cases h
  intro h
  unfold processObject at h
  split at h
  · cases h
  · split at h
    · split at h
      · dsimp only at h
        split at h
        · cases h
        · exact hbackport _ _ h
        · cases h
      · exact hbackport _ _ h
    · cases h
  · cases h

/-- **Plain data is read as it is exactly if it has no reserved key.** -/
theorem deserialize_ofJson (x : Json) :
    deserializeEntity code (ofJson x) = .ok (ofJson x) ↔
      x.hasKey (objPrimitiveKey "name") = false := by
  induction x using Json.induct with
  | null => exact ⟨fun _ => rfl, fun _ => rfl⟩
  | bool b => exact ⟨fun _ => rfl, fun _ => rfl⟩
  | int n => exact ⟨fun _ => rfl, fun _ => rfl⟩
  | float r => exact ⟨fun _ => rfl, fun _ => rfl⟩
  | str s => exact ⟨fun _ => rfl, fun _ => rfl⟩
  | arr xs ih =>
    have hinj : Function.Injective (fun xs : List (Entity Obj) => Entity.seq .list xs) := by
      intro a b h
      cases h
      rfl
    rw [ofJson, deserializeEntity, hasKey_arr]
    refine (Fallible.map_ok_iff hinj).trans ?_
    rw [deserializeItems_eq, Fallible.mapM_eq_self_iff]
    constructor
    · intro h x hx
      exact (ih x hx).mp (h _ (mem_ofItems.mpr ⟨x, hx, rfl⟩))
    · intro h e he
      obtain ⟨x, hx, rfl⟩ := mem_ofItems.mp he
      exact (ih x hx).mpr (h x hx)
  | obj fields ih =>
    have hinj : Function.Injective
        (fun fields : List (String × Entity Obj) => Entity.dict fields) := by
      intro a b h
      cases h
      rfl
    rw [ofJson, deserializeEntity, hasKey_obj]
    by_cases hkey : objPrimitiveKey "name" ∈ Dict.keys fields
    · rw [if_pos ((reserved_isSome fields).mpr hkey)]
      exact ⟨fun h => absurd h (processObject_ne_dict code _ _), fun h => absurd hkey h.1⟩
    · rw [if_neg (fun h => hkey ((reserved_isSome fields).mp h))]
      refine (Fallible.map_ok_iff hinj).trans ?_
      rw [deserializeValues_eq, Fallible.mapM_eq_self_iff]
      constructor
      · intro h
        refine ⟨hkey, fun kv hkv => ?_⟩
        have hround := h _ (mem_ofFields.mpr ⟨kv, hkv, rfl⟩)
        obtain ⟨v, hv, hpair⟩ := Fallible.bind_ok_iff.mp hround
        cases hpair
        exact (ih kv hkv).mp hv
      · intro h e he
        obtain ⟨kv, hkv, rfl⟩ := mem_ofFields.mp he
        dsimp only
        rw [(ih kv hkv).mpr (h.2 kv hkv)]
        rfl

/-! ## The cast of a plan -/

/-- The argument `data` of `ComputeTaskAPI.handle_testplan`. -/
def planData (m : Api.PlanMessage) : Json :=
  .obj [("name", m.name), ("environment", m.environment), ("testplan", m.testplan)]

/-- The data of a plan has the reserved key only inside its parts. -/
theorem data_hasKey (m : Api.PlanMessage) :
    (planData m).hasKey (objPrimitiveKey "name") = false ↔
      m.name.hasKey (objPrimitiveKey "name") = false ∧
        m.environment.hasKey (objPrimitiveKey "name") = false ∧
        m.testplan.hasKey (objPrimitiveKey "name") = false := by
  unfold planData
  rw [hasKey_obj]
  simp only [List.forall_mem_cons, List.not_mem_nil, IsEmpty.forall_iff, implies_true, and_true]
  have hkeys : objPrimitiveKey "name" ∉ ["name", "environment", "testplan"] := by decide
  exact and_iff_right hkeys

/-- **Arguments arrive as sent, except for the reserved key**: a JSON value comes
back as it is, without an exception, exactly if no dictionary in it has the key
`nova_object.name`; and the handler gets the data of a plan exactly if none of
its parts has it. -/
theorem received_iff :
    (∀ x : Json, received code (ofJson x) = .ok (ofJson x) ↔
      x.hasKey "nova_object.name" = false) ∧
    ∀ m : Api.PlanMessage, received code (ofJson (planData m)) =
        .ok (ofJson (planData m)) ↔
      m.name.hasKey "nova_object.name" = false ∧
        m.environment.hasKey "nova_object.name" = false ∧
        m.testplan.hasKey "nova_object.name" = false := by
  have hkey : objPrimitiveKey "name" = "nova_object.name" := by decide
  have hroundtrip : ∀ x : Json, received code (ofJson x) = .ok (ofJson x) ↔
      x.hasKey "nova_object.name" = false := by
    intro x
    have hsent : received code (ofJson x) = deserializeEntity code (ofJson x) := by
      unfold received
      rw [serialize_ofJson]
      rfl
    rw [hsent, deserialize_ofJson, hkey]
  refine ⟨hroundtrip, fun m => ?_⟩
  rw [hroundtrip, ← hkey, data_hasKey]

/-- A process that registered no object class. -/
def noObjects : ObjectCode Empty where
  objToPrimitive := fun o => nomatch o
  hydrate := fun _ _ _ => .error (.objectCode (.of .external "Unsupported object type"))
  inManifest := fun _ => false
  backport := fun _ => .error .attributeError

/-- **A plan with the reserved key is not received**: the environment
`{"nova_object.name": "Service"}` makes the receiver raise a `KeyError`. -/
theorem reserved_key_raises :
    received noObjects (ofJson (planData
      ⟨.str "plan", .obj [("nova_object.name", .str "Service")], .obj []⟩)) =
      .error (.keyError "nova_object.namespace") := by
  rfl

end PolarBear.Rpc
