import PolarBear.Lib.Fallible
import PolarBear.Objects.Fields
import PolarBear.Py.JsonRoundTrip

/-!
# Pools of PCI devices

A pool was a dictionary before it was an object, with its tags beside its fields.
`to_dict` still writes that dictionary and `from_dict` reads it: it takes the fields out of a
copy, and what is left are the tags. `from_pci_stats` reads what the database holds, JSON
text of one dictionary, of a list of them, or of a serialized object.

Both ways agree (`poolOf_toDict`, `fromPciStats_dumps`), and the dictionary that is read
stays as it is (`fromDict_run`). But `from_pci_stats` asks any JSON value whether it contains
a text and takes anything but a list for a dictionary, so it raises on JSON that is neither:
`pciStats_iff` says on which texts it raises nothing but a missing key.

Hydrating a serialized object is a parameter (`hydrate`), after the three keys it is found
by.
-/

namespace PolarBear.Objects

open PolarBear.Py
open PolarBear.Fallible

/-- `PciDevicePool`, with all its fields set. -/
structure PciDevicePool where
  productId : String
  vendorId : String
  numaNode : Option Int
  tags : List (String × Option String)
  count : Int
  deriving DecidableEq, Repr

/-- `PciDevicePool.fields`. -/
def poolFields : List String := ["product_id", "vendor_id", "numa_node", "tags", "count"]

abbrev Entries : Type := List (String × Json)

/-! ## Dictionaries that change -/

/-- The dictionaries of the interpreter, by their addresses. -/
structure Heap where
  cells : List Entries

def Heap.get (h : Heap) (address : Nat) : Entries := h.cells.getD address []

abbrev HeapM : Type → Type := EStateM PyError Heap

/-- `copy.copy(value)`. -/
def copy (value : Nat) : HeapM Nat := fun h =>
  .ok h.cells.length ⟨h.cells ++ [h.get value]⟩

def without (k : String) (d : Entries) : Entries := d.filter (fun kv => kv.1 != k)

/-- `d.pop(k)`, or `d.pop(k, default)`. -/
def pop (address : Nat) (k : String) (default : Option Json) : HeapM Json := fun h =>
  match ((h.get address).lookup k).or default with
  | some v => .ok v ⟨h.cells.set address (without k (h.get address))⟩
  | none => .error (.key k) h

def read (address : Nat) : HeapM Entries := fun h => .ok (h.get address) h

section

variable (conv : Conversions)

/-- The items of a `CoercedDict` of nullable strings. -/
def coerceTags (d : Entries) : Except PyError (List (String × Option String)) :=
  d.mapM (fun kv => do
    let v ← nullable (coerceString conv ("tags[" ++ kv.1 ++ "]")) kv.2
    .ok (kv.1, v))

/-- What `from_dict` does to its copy. -/
def fromCopy (poolDict : Nat) : HeapM PciDevicePool := do
  let vendorId ← pop poolDict "vendor_id" none
  let vendorId ← ofExcept (required "vendor_id" (coerceString conv "vendor_id") vendorId)
  let productId ← pop poolDict "product_id" none
  let productId ← ofExcept (required "product_id" (coerceString conv "product_id") productId)
  let numaNode ← pop poolDict "numa_node" (some .null)
  let numaNode ← ofExcept (nullable (coerceInteger conv) numaNode)
  let count ← pop poolDict "count" none
  let count ← ofExcept (required "count" (coerceInteger conv) count)
  let tags ← read poolDict
  let tags ← ofExcept (coerceTags conv tags)
  pure ⟨productId, vendorId, numaNode, tags, count⟩

/-- `PciDevicePool.from_dict` of the dictionary at an address. -/
def fromDict (value : Nat) : HeapM PciDevicePool := do
  let poolDict ← copy value
  fromCopy conv poolDict

end

/-- A nullable text as a value. -/
def ofText : Option String → Json
  | some s => .str s
  | none => .null

/-- `PciDevicePool.to_dict`. -/
def PciDevicePool.toDict (pool : PciDevicePool) : Entries :=
  Dict.update [
    ("product_id", .str pool.productId),
    ("vendor_id", .str pool.vendorId),
    ("numa_node", (pool.numaNode.map Json.int).getD .null),
    ("count", .int pool.count)] (pool.tags.map (fun kv => (kv.1, ofText kv.2)))

/-! ## Reading without a heap -/

section

variable (conv : Conversions)

/-- The value of a key, coerced, and the entries that are left. -/
def take {α : Type} (k : String) (default : Option Json) (coerce : Json → Except PyError α)
    (d : Entries) : Except PyError (α × Entries) :=
  match (d.lookup k).or default with
  | some v => do
    let a ← coerce v
    .ok (a, without k d)
  | none => .error (.key k)

/-- What `from_dict` makes of entries. -/
def poolOf (d : Entries) : Except PyError PciDevicePool := do
  let (vendorId, d) ← take "vendor_id" none (required "vendor_id" (coerceString conv "vendor_id")) d
  let (productId, d) ←
    take "product_id" none (required "product_id" (coerceString conv "product_id")) d
  let (numaNode, d) ← take "numa_node" (some .null) (nullable (coerceInteger conv)) d
  let (count, d) ← take "count" none (required "count" (coerceInteger conv)) d
  let tags ← coerceTags conv d
  .ok ⟨productId, vendorId, numaNode, tags, count⟩

/-- `from_dict` of any value: only dictionaries and lists have `pop`, and a list wants a
number. -/
def poolOfValue : Json → Except PyError PciDevicePool
  | .obj d => poolOf conv d
  | .arr _ => .error (.of .typeError "an integer is required")
  | v => .error (.of .attributeError ("'" ++ v.typeName ++ "' object has no attribute 'pop'"))

end

/-! ## What the database holds -/

/-- `pci_stats`: a value, whose texts are strings, or a byte string that does not decode. -/
inductive PciStats where
  | value (v : Json)
  | undecodable
  deriving Repr

/-- What is returned: a list of pools, or the object that was hydrated. -/
inductive Pools (ω : Type) where
  | pools (l : List PciDevicePool)
  | object (o : ω)
  deriving DecidableEq, Repr

/-- `s in v` for a text `s`. -/
def containsText (s : String) : Json → Except PyError Bool
  | .str t => .ok (isInText s t)
  | .arr xs => .ok (xs.any (fun x => x.isText s))
  | .obj d => .ok (decide (s ∈ Dict.keys d))
  | v => .error (.of .typeError ("argument of type '" ++ v.typeName ++ "' is not iterable"))

section

variable {ω : Type} (conv : Conversions) (floatRepr : String → String)
  (hydrate : Json → Json → Json → Except PyError ω)

/-- `obj_from_primitive`, up to looking the class up. -/
def objFromPrimitive (primitive : Json) : Except PyError ω := do
  let objns ← primitive.getItem "nova_object.namespace"
  let objname ← primitive.getItem "nova_object.name"
  let objver ← primitive.getItem "nova_object.version"
  if objns.isText "nova" then hydrate objname objver primitive
  else .error (.of .external "Unsupported object type")

/-- `pci_stats` after `jsonutils.loads`, where it is a string. -/
def decodeStats : PciStats → Json
  | .value (.str s) => (loads floatRepr s).getD .null
  | .value v => v
  | .undecodable => .null

/-- The two old formats. -/
def oldFormat : Json → Except PyError (List PciDevicePool)
  | .arr stats => stats.mapM (poolOfValue conv)
  | v => do
    let pool ← poolOfValue conv v
    .ok [pool]

/-- `from_pci_stats` of decoded data. -/
def fromStats (stats : Json) : Except PyError (Pools ω) :=
  if stats.truthy then do
    let serialized ← containsText "nova_object.namespace" stats
    if serialized then do
      let o ← objFromPrimitive hydrate stats
      .ok (.object o)
    else do
      let pools ← oldFormat conv stats
      .ok (.pools pools)
  else .ok (.pools [])

/-- `from_pci_stats`. -/
def fromPciStats (stats : PciStats) : Except PyError (Pools ω) :=
  fromStats conv hydrate (decodeStats floatRepr stats)

end

/-! ## The heap -/

variable {conv : Conversions} {floatRepr : String → String} {α β ω : Type}
  {hydrate : Json → Json → Json → Except PyError ω}

theorem get_last (cells : List Entries) (d : Entries) :
    (⟨cells ++ [d]⟩ : Heap).get cells.length = d := by
  unfold Heap.get
  rw [List.getD_eq_getElem?_getD, List.getElem?_append_right (Nat.le_refl _), Nat.sub_self]
  rfl

theorem get_append {cells : List Entries} {address : Nat} (h : address < cells.length)
    (d : Entries) : (⟨cells ++ [d]⟩ : Heap).get address = (⟨cells⟩ : Heap).get address := by
  unfold Heap.get
  rw [List.getD_eq_getElem?_getD, List.getD_eq_getElem?_getD, List.getElem?_append_left h]

theorem run_pop (cells : List Entries) (d : Entries) (k : String) (default : Option Json) :
    (pop cells.length k default).run ⟨cells ++ [d]⟩ =
      match (d.lookup k).or default with
      | some v => .ok v ⟨cells ++ [without k d]⟩
      | none => .error (.key k) ⟨cells ++ [d]⟩ := by
  have hset : (cells ++ [d]).set cells.length (without k d) = cells ++ [without k d] := by
    rw [List.set_append_right _ _ (Nat.le_refl _), Nat.sub_self]
    rfl
  unfold pop EStateM.run
  dsimp only
  rw [get_last, hset]

/-- A result that leaves this heap. -/
def leaving (h : Heap) : Except PyError α → EStateM.Result PyError Heap α
  | .ok a => .ok a h
  | .error e => .error e h

/-- A program that works on the last dictionary ends as `x`, and leaves the others alone. -/
def RunsAs (cells : List Entries) (m : HeapM α) (d : Entries) (x : Except PyError α) : Prop :=
  ∃ d', m.run ⟨cells ++ [d]⟩ = leaving ⟨cells ++ [d']⟩ x

/-- What is computed leaves the heap alone. -/
theorem RunsAs.coerce {cells : List Entries} {d : Entries} (x : Except PyError α)
    {rest : α → HeapM β} {y : α → Except PyError β}
    (hrest : ∀ a, x = .ok a → RunsAs cells (rest a) d (y a)) :
    RunsAs cells (ofExcept x >>= rest) d (x >>= y) := by
  cases x with
  | error e => exact ⟨d, rfl⟩
  | ok a => exact hrest a rfl

theorem take_none {d : Entries} {k : String} {default : Option Json}
    {coerce : Json → Except PyError α} (h : (d.lookup k).or default = none) :
    take k default coerce d = .error (.key k) := by
  unfold take
  rw [h]

theorem bind_take_some {d : Entries} {k : String} {default : Option Json} {v : Json}
    {coerce : Json → Except PyError α} {y : α × Entries → Except PyError β}
    (h : (d.lookup k).or default = some v) :
    take k default coerce d >>= y = coerce v >>= fun a => y (a, without k d) := by
  have htake : take k default coerce d = coerce v >>= fun a => .ok (a, without k d) := by
    unfold take
    rw [h]
  rw [htake]
  cases coerce v <;> rfl

theorem bind_take_ok {d : Entries} {k : String} {default : Option Json} {v : Json} {a : α}
    {coerce : Json → Except PyError α} {y : α × Entries → Except PyError β}
    (h : (d.lookup k).or default = some v) (ha : coerce v = .ok a) :
    take k default coerce d >>= y = y (a, without k d) := by
  rw [bind_take_some h, ha]
  rfl

/-- One field: what `pop` takes is coerced, and the rest goes on with what is left. -/
theorem RunsAs.take {cells : List Entries} {d : Entries} (k : String) (default : Option Json)
    (coerce : Json → Except PyError α) {rest : α → HeapM β}
    {y : α × Entries → Except PyError β}
    (hrest : ∀ a d', RunsAs cells (rest a) d' (y (a, d'))) :
    RunsAs cells (do
      let v ← pop cells.length k default
      let a ← ofExcept (coerce v)
      rest a) d (Objects.take k default coerce d >>= y) := by
  have hpop := run_pop cells d k default
  cases hv : (d.lookup k).or default with
  | none =>
    rw [hv] at hpop
    rw [take_none hv]
    -- `pop` raises before it has changed anything
    exact ⟨d, run_bind_error hpop⟩
  | some v =>
    rw [hv] at hpop
    obtain ⟨d', hd'⟩ := RunsAs.coerce (d := without k d) (coerce v)
      (fun a _ => hrest a (without k d))
    rw [bind_take_some hv]
    exact ⟨d', (run_bind_ok hpop).trans hd'⟩

variable (conv) in
theorem fromCopy_runsAs (cells : List Entries) (d : Entries) :
    RunsAs cells (fromCopy conv cells.length) d (poolOf conv d) := by
  unfold fromCopy poolOf
  refine RunsAs.take "vendor_id" none _ (fun vendorId d => ?_)
  refine RunsAs.take "product_id" none _ (fun productId d => ?_)
  refine RunsAs.take "numa_node" (some .null) _ (fun numaNode d => ?_)
  refine RunsAs.take "count" none _ (fun count d => ?_)
  -- what is left now are the tags
  refine ⟨d, ?_⟩
  have hread : (read cells.length).run ⟨cells ++ [d]⟩ = .ok d ⟨cells ++ [d]⟩ :=
    congrArg (fun d' => EStateM.Result.ok d' (⟨cells ++ [d]⟩ : Heap)) (get_last cells d)
  rw [run_bind_ok hread]
  dsimp only
  cases coerceTags conv d <;> rfl

variable (conv) in
/-- **`from_dict` on the heap** is `poolOf`, and changes no dictionary that was there. -/
theorem fromDict_run (h : Heap) (value : Nat) :
    ∃ d, (fromDict conv value).run h = leaving ⟨h.cells ++ [d]⟩ (poolOf conv (h.get value)) := by
  obtain ⟨d, hd⟩ := fromCopy_runsAs conv h.cells (h.get value)
  exact ⟨d, (run_bind_ok rfl).trans hd⟩

/-! ## The round trip -/

/-- Tags are keys of their own, none of them a field. -/
structure PlainTags (pool : PciDevicePool) : Prop where
  nodup : (Dict.keys pool.tags).Nodup
  names : ∀ k ∈ Dict.keys pool.tags, k ∉ poolFields

/-- The entries of the tags. -/
def tagEntries (pool : PciDevicePool) : Entries :=
  pool.tags.map (fun kv => (kv.1, ofText kv.2))

theorem keys_tagEntries (pool : PciDevicePool) :
    Dict.keys (tagEntries pool) = Dict.keys pool.tags := List.map_map

theorem toDict_eq {pool : PciDevicePool} (h : PlainTags pool) :
    pool.toDict = [
      ("product_id", .str pool.productId),
      ("vendor_id", .str pool.vendorId),
      ("numa_node", (pool.numaNode.map Json.int).getD .null),
      ("count", .int pool.count)] ++ tagEntries pool := by
  refine Dict.update_eq_append ?_
  show (["product_id", "vendor_id", "numa_node", "count"] ++ Dict.keys (tagEntries pool)).Nodup
  rw [keys_tagEntries]
  refine List.nodup_append'.mpr ⟨by decide, h.nodup, fun k hk hmem => h.names k hmem ?_⟩
  exact (by decide : ∀ k ∈ ["product_id", "vendor_id", "numa_node", "count"], k ∈ poolFields) k hk

/-- Taking out a key that the tags do not have. -/
theorem without_tags {pool : PciDevicePool} (h : PlainTags pool) {k : String}
    (hk : k ∈ poolFields) : without k (tagEntries pool) = tagEntries pool := by
  refine List.filter_eq_self.mpr (fun kv hkv => bne_iff_ne.mpr (fun heq => ?_))
  have hmem : kv.1 ∈ Dict.keys (tagEntries pool) := List.mem_map_of_mem hkv
  rw [keys_tagEntries, heq] at hmem
  exact h.names k hmem hk

variable (conv) in
theorem coerceTags_tagEntries (pool : PciDevicePool) :
    coerceTags conv (tagEntries pool) = .ok pool.tags := by
  unfold coerceTags tagEntries
  rw [List.mapM_map]
  refine (mapM_ok (g := id) (fun kv _ => ?_)).trans (congrArg Except.ok (List.map_id _))
  obtain ⟨k, tag⟩ := kv
  cases tag <;> rfl

variable (conv) in
/-- **A pool comes back** from its dictionary. -/
theorem poolOf_toDict {pool : PciDevicePool} (h : PlainTags pool) :
    poolOf conv pool.toDict = .ok pool := by
  rw [toDict_eq h]
  have hnuma : nullable (coerceInteger conv) ((pool.numaNode.map Json.int).getD .null) =
      .ok pool.numaNode := by
    cases pool.numaNode <;> rfl
  -- no tag has the name of a field, so taking out the fields leaves them alone
  have hleft : coerceTags conv (without "count" (without "numa_node" (without "product_id"
      (without "vendor_id" (tagEntries pool))))) = .ok pool.tags := by
    rw [without_tags h (by decide), without_tags h (by decide), without_tags h (by decide),
      without_tags h (by decide)]
    exact coerceTags_tagEntries conv pool
  unfold poolOf
  rw [bind_take_ok (v := .str pool.vendorId) (a := pool.vendorId) rfl rfl]
  dsimp only
  rw [bind_take_ok (v := .str pool.productId) (a := pool.productId) rfl rfl]
  dsimp only
  rw [bind_take_ok (v := (pool.numaNode.map Json.int).getD .null) (a := pool.numaNode) rfl hnuma]
  dsimp only
  rw [bind_take_ok (v := .int pool.count) (a := pool.count) rfl rfl]
  show (coerceTags conv (without "count" (without "numa_node" (without "product_id"
      (without "vendor_id" (tagEntries pool))))) >>= fun tags => _) = _
  rw [hleft]
  rfl

/-- The entries of a pool are plain JSON. -/
theorem plain_toDict {pool : PciDevicePool} (h : PlainTags pool) :
    (Json.obj pool.toDict).plain = true := by
  have hfields : (["product_id", "vendor_id", "numa_node", "count"] : List String).Nodup := by
    decide
  have hkeys : (Dict.keys pool.toDict).Nodup := Dict.nodup_keys_update hfields
  refine (plain_obj _).mpr ⟨hkeys, fun kv hkv => ?_⟩
  rw [toDict_eq h, List.mem_append] at hkv
  rcases hkv with hfield | htag
  · simp only [List.mem_cons, List.not_mem_nil, or_false] at hfield
    rcases hfield with rfl | rfl | rfl | rfl
    · rfl
    · rfl
    · cases pool.numaNode <;> rfl
    · rfl
  · obtain ⟨⟨k, tag⟩, -, rfl⟩ := List.mem_map.mp htag
    cases tag <;> rfl

/-! ## The old formats -/

/-- A list of dictionaries is read one by one. -/
theorem fromStats_dicts (ds : List Entries) :
    fromStats conv hydrate (.arr (ds.map Json.obj)) = (do
      let pools ← ds.mapM (poolOf conv)
      .ok (.pools pools)) := by
  cases ds with
  | nil => rfl
  | cons d ds =>
    -- a dictionary is no text, so the list is not taken for a serialized object
    have hnot : (((d :: ds).map Json.obj).any (fun x => x.isText "nova_object.namespace")) =
        false := by
      refine List.any_eq_false.mpr (fun v hv => ?_)
      obtain ⟨d', -, rfl⟩ := List.mem_map.mp hv
      exact Bool.false_ne_true
    have hread : oldFormat conv (.arr ((d :: ds).map Json.obj)) =
        (d :: ds).mapM (poolOf conv) := List.mapM_map
    have htruthy : (Json.arr ((d :: ds).map Json.obj)).truthy = true := rfl
    unfold fromStats
    rw [if_pos htruthy, hread]
    show (if (((d :: ds).map Json.obj).any _) = true then _ else _) = _
    rw [hnot, if_neg Bool.false_ne_true]

variable (conv floatRepr hydrate) in
/-- **Text, list and dictionaries agree.** -/
theorem fromPciStats_dicts {ds : List Entries}
    (hplain : ∀ d ∈ ds, (Json.obj d).plain = true) :
    fromPciStats conv floatRepr hydrate (.value (.str (dumps (.arr (ds.map Json.obj))))) =
        fromPciStats conv floatRepr hydrate (.value (.arr (ds.map Json.obj))) ∧
      fromPciStats conv floatRepr hydrate (.value (.arr (ds.map Json.obj))) = (do
        let pools ← ds.mapM (poolOf conv)
        .ok (.pools pools)) := by
  have hall : (Json.arr (ds.map Json.obj)).plain = true := by
    refine (plain_arr _).mpr (fun v hv => ?_)
    obtain ⟨d, hd, rfl⟩ := List.mem_map.mp hv
    exact hplain d hd
  refine ⟨?_, fromStats_dicts ds⟩
  show fromStats conv hydrate ((loads floatRepr (dumps _)).getD .null) = _
  rw [loads_dumps floatRepr hall]
  rfl

/-! ## What is raised -/

/-- An exception for a missing key, where these are allowed. -/
def Missing (allowed : Prop) (e : PyError) : Prop := allowed ∧ e.cls = .keyError

/-- What `int` takes. -/
def isInteger (conv : Conversions) : Json → Bool
  | .int _ | .bool _ => true
  | .float r => (conv.floatInt r).isSome
  | .str s => (pyInt s).isSome
  | _ => false

/-- A field as it is read: its key, what it defaults to, and what it takes. -/
structure Part where
  key : String
  default : Option Json
  accepts : Json → Bool

/-- The fields of a pool in the order in which they are read. -/
def parts (conv : Conversions) : List Part := [
  ⟨"vendor_id", none, isString⟩,
  ⟨"product_id", none, isString⟩,
  ⟨"numa_node", some .null, fun v => v.isNull || isInteger conv v⟩,
  ⟨"count", none, isInteger conv⟩]

/-- Every value is of the type of its field, and what is left are tags; or, where that is
allowed, a required key is missing and the values read before it are of their types. -/
def Fits (allowed : Prop) : List Part → Entries → Prop
  | [], d => ∀ kv ∈ d, (kv.2.isNull || isString kv.2) = true
  | part :: rest, d =>
    match (d.lookup part.key).or part.default with
    | some v => part.accepts v = true ∧ Fits allowed rest (without part.key d)
    | none => allowed

/-- A value that `from_dict` takes, up to missing keys where these are allowed. -/
def FitsValue (conv : Conversions) (allowed : Prop) : Json → Prop
  | .obj d => Fits allowed (parts conv) d
  | _ => False

/-- The values before the first one that lacks a key fit, and so does that one. -/
def FitAll (conv : Conversions) : List Json → Prop
  | [] => True
  | v :: vs => FitsValue conv True v ∧ (FitsValue conv False v → FitAll conv vs)

/-- A serialized object that lacks a key, or is of the namespace and hydrates. -/
def Hydrates (hydrate : Json → Json → Json → Except PyError ω) (d : Entries) : Prop :=
  ∀ objns objname objver, d.lookup "nova_object.namespace" = some objns →
    d.lookup "nova_object.name" = some objname →
    d.lookup "nova_object.version" = some objver →
    objns.isText "nova" = true ∧ Raises (Missing True) (hydrate objname objver (.obj d))

/-- The data that `from_pci_stats` can read: nothing, a dictionary or a list of dictionaries
that fit, or a serialized object. -/
def Harmless (conv : Conversions) (hydrate : Json → Json → Json → Except PyError ω)
    (stats : Json) : Prop :=
  stats.truthy = true →
    match stats with
    | .obj d =>
      if "nova_object.namespace" ∈ Dict.keys d then Hydrates hydrate d
      else Fits True (parts conv) d
    | .arr vs =>
      (∀ v ∈ vs, v.isText "nova_object.namespace" = false) ∧ FitAll conv vs
    | _ => False

/-! ## What is raised, exactly -/

variable {allowed : Prop} {accepts : Json → Bool}

theorem raises_error_iff {P : PyError → Prop} {e : PyError} :
    Raises P (.error e : Except PyError α) ↔ P e :=
  ⟨fun h => h e rfl, Raises.error⟩

/-- A coercion that takes these values, and never complains about a key. -/
def Checks (accepts : Json → Bool) (coerce : Json → Except PyError α) : Prop :=
  ∀ (allowed : Prop) (v : Json), Raises (Missing allowed) (coerce v) ↔ accepts v = true

theorem not_missing {cls : ExcClass} (h : cls ≠ .keyError) (message : String) :
    ¬ Missing allowed (.of cls message) := fun hmissing => h hmissing.2

/-- A value that is refused. -/
theorem refused {cls : ExcClass} (h : cls ≠ .keyError) (message : String) :
    Raises (Missing allowed) (.error (.of cls message) : Except PyError α) ↔ false = true := by
  rw [raises_error_iff]
  exact iff_of_false (not_missing h message) Bool.false_ne_true

/-- A value that is taken. -/
theorem taken (a : α) :
    Raises (Missing allowed) (.ok a : Except PyError α) ↔ true = true :=
  iff_of_true (Raises.ok a) rfl

theorem Checks.ok {coerce : Json → Except PyError α} (h : Checks accepts coerce) {v : Json}
    (hv : accepts v = true) : ∃ a, coerce v = .ok a :=
  raises_false_iff.mp (fun e he => ((h False v).mpr hv e he).1)

variable (conv) in
theorem checks_coerceString (attr : String) : Checks isString (coerceString conv attr) := by
  intro allowed v
  cases v with
  | str s => exact taken s
  | bool b => exact taken _
  | int n => exact taken _
  | float r => exact taken _
  | null => exact refused (by decide) _
  | arr xs => exact refused (by decide) _
  | obj d => exact refused (by decide) _

theorem checks_coerceInteger : Checks (isInteger conv) (coerceInteger conv) := by
  intro allowed v
  cases v with
  | int n => exact taken n
  | bool b => exact taken _
  | float r =>
    unfold coerceInteger isInteger
    dsimp only
    cases conv.floatInt r with
    | some n => exact taken n
    | none => exact refused (by decide) _
  | str s =>
    unfold coerceInteger isInteger
    dsimp only
    cases pyInt s with
    | some n => exact taken n
    | none => exact refused (by decide) _
  | null => exact refused (by decide) _
  | arr xs => exact refused (by decide) _
  | obj d => exact refused (by decide) _

theorem checks_required {coerce : Json → Except PyError α} (attr : String)
    (h : Checks accepts coerce) (hnull : accepts .null = false) :
    Checks accepts (required attr coerce) := by
  intro allowed v
  cases v with
  | null =>
    rw [hnull]
    exact refused (by decide) _
  | _ => exact h allowed _

theorem checks_nullable {coerce : Json → Except PyError α} (h : Checks accepts coerce) :
    Checks (fun v => v.isNull || accepts v) (nullable coerce) := by
  have hsome : ∀ (allowed : Prop) (v : Json),
      Raises (Missing allowed) (coerce v >>= fun a => .ok (some a)) ↔ accepts v = true := by
    intro allowed v
    rw [raises_bind_iff, and_iff_left (fun a _ => Raises.ok (some a))]
    exact h allowed v
  intro allowed v
  cases v with
  | null => exact taken none
  | _ => exact hsome allowed _

/-- One field: a required key may be missing where that is allowed; a value that is there is
of the type of the field, and the rest goes on. -/
theorem raises_take (part : Part) {coerce : Json → Except PyError α}
    (hc : Checks part.accepts coerce) {y : α × Entries → Except PyError β} {Q : Entries → Prop}
    (hQ : ∀ a d, Raises (Missing allowed) (y (a, d)) ↔ Q d) (d : Entries) :
    Raises (Missing allowed) (take part.key part.default coerce d >>= y) ↔
      match (d.lookup part.key).or part.default with
      | some v => part.accepts v = true ∧ Q (without part.key d)
      | none => allowed := by
  cases hv : (d.lookup part.key).or part.default with
  | none =>
    rw [take_none hv]
    show Raises (Missing allowed) (.error (.key part.key) : Except PyError β) ↔ allowed
    rw [raises_error_iff]
    exact and_iff_left rfl
  | some v =>
    rw [bind_take_some hv, raises_bind_iff, hc allowed v]
    refine and_congr_right (fun haccepts => ?_)
    obtain ⟨a, ha⟩ := hc.ok haccepts
    constructor
    · intro h
      exact (hQ a _).mp (h a ha)
    · intro h a' _
      exact (hQ a' _).mpr h

theorem raises_coerceTags (d : Entries) :
    Raises (Missing allowed) (coerceTags conv d) ↔
      ∀ kv ∈ d, (kv.2.isNull || isString kv.2) = true := by
  unfold coerceTags
  induction d with
  | nil => exact iff_of_true (Raises.ok []) (fun kv hkv => absurd hkv List.not_mem_nil)
  | cons kv d ih =>
    have hc := checks_nullable (checks_coerceString conv ("tags[" ++ kv.1 ++ "]"))
    rw [List.mapM_cons, raises_bind_iff, raises_bind_iff, List.forall_mem_cons,
      and_iff_left (fun v _ => Raises.ok (kv.1, v)), hc allowed kv.2]
    refine and_congr_right (fun haccepts => ?_)
    obtain ⟨v, hv⟩ := hc.ok haccepts
    rw [← ih]
    constructor
    · intro h
      have htail := h (kv.1, v) (by rw [hv]; rfl)
      exact (raises_bind_iff.mp htail).1
    · intro h entry _
      exact raises_bind_iff.mpr ⟨h, fun l _ => Raises.ok _⟩

/-- **What `from_dict` raises.** -/
theorem raises_poolOf (d : Entries) :
    Raises (Missing allowed) (poolOf conv d) ↔ Fits allowed (parts conv) d := by
  have hstring : ∀ attr, Checks isString (required attr (coerceString conv attr)) :=
    fun attr => checks_required attr (checks_coerceString conv attr) rfl
  refine raises_take ⟨"vendor_id", none, isString⟩ (hstring _)
    (fun vendorId d => ?_) d
  refine raises_take ⟨"product_id", none, isString⟩ (hstring _)
    (fun productId d => ?_) d
  refine raises_take ⟨"numa_node", some .null, fun v => v.isNull || isInteger conv v⟩
    (checks_nullable checks_coerceInteger) (fun numaNode d => ?_) d
  refine raises_take ⟨"count", none, isInteger conv⟩
    (checks_required "count" checks_coerceInteger rfl) (fun count d => ?_) d
  show Raises _ (coerceTags conv d >>= fun tags => _) ↔ _
  rw [raises_bind_iff, and_iff_left (fun tags _ => Raises.ok _)]
  exact raises_coerceTags d

theorem raises_poolOfValue {v : Json} :
    Raises (Missing allowed) (poolOfValue conv v) ↔ FitsValue conv allowed v := by
  have hrefused : ∀ (cls : ExcClass) (message : String), cls ≠ .keyError →
      (Raises (Missing allowed) (.error (.of cls message) : Except PyError PciDevicePool) ↔
        False) := fun cls message h => by
    rw [raises_error_iff]
    exact iff_of_false (not_missing h message) id
  cases v with
  | obj d => exact raises_poolOf d
  | arr xs => exact hrefused _ _ (by decide)
  | _ => exact hrefused _ _ (by decide)

theorem raises_mapM_poolOfValue : ∀ vs : List Json,
    Raises (Missing True) (vs.mapM (poolOfValue conv)) ↔ FitAll conv vs
  | [] => iff_of_true (Raises.ok []) trivial
  | v :: vs => by
    rw [List.mapM_cons, raises_bind_iff, raises_poolOfValue]
    refine and_congr_right (fun _ => ?_)
    have hnext : ∀ pool, Raises (Missing True) (vs.mapM (poolOfValue conv) >>= fun pools =>
        (pure (pool :: pools) : Except PyError (List PciDevicePool))) ↔ FitAll conv vs := by
      intro pool
      rw [raises_bind_iff]
      exact (and_iff_left (fun pools _ => Raises.ok (pool :: pools))).trans
        (raises_mapM_poolOfValue vs)
    constructor
    · intro h hcomplete
      obtain ⟨pool, hpool⟩ := raises_false_iff.mp
        (fun e he => (raises_poolOfValue.mpr hcomplete e he).1)
      exact (hnext pool).mp (h pool hpool)
    · intro h pool hpool
      refine (hnext pool).mpr (h (raises_poolOfValue.mp ?_))
      rw [hpool]
      exact Raises.ok pool

/-! ## The stored data -/

theorem getItem_obj {d : Entries} {k : String} {v : Json} (h : d.lookup k = some v) :
    (Json.obj d).getItem k = .ok v := by
  unfold Json.getItem
  dsimp only
  rw [h]

theorem getItem_missing {d : Entries} {k : String} (h : d.lookup k = none) :
    (Json.obj d).getItem k = .error (.key k) := by
  unfold Json.getItem
  dsimp only
  rw [h]

/-- A key that is missing ends the reading, and that is allowed. -/
theorem raises_missing (k : String) : Raises (Missing True) (.error (.key k) : Except PyError α) :=
  Raises.error ⟨trivial, rfl⟩

theorem raises_objFromPrimitive {d : Entries}
    (hserialized : "nova_object.namespace" ∈ Dict.keys d) :
    Raises (Missing True) (objFromPrimitive hydrate (.obj d)) ↔ Hydrates hydrate d := by
  obtain ⟨objns, hns⟩ := (Dict.mem_keys_iff _ _).mp hserialized
  unfold objFromPrimitive Hydrates
  rw [getItem_obj hns]
  cases hname : d.lookup "nova_object.name" with
  | none =>
    rw [getItem_missing hname]
    exact iff_of_true (raises_missing _) (fun _ _ _ _ h => nomatch h)
  | some objname =>
    rw [getItem_obj hname]
    cases hver : d.lookup "nova_object.version" with
    | none =>
      rw [getItem_missing hver]
      exact iff_of_true (raises_missing _) (fun _ _ _ _ _ h => nomatch h)
    | some objver =>
      rw [getItem_obj hver]
      show Raises _ (if objns.isText "nova" = true then hydrate objname objver (.obj d)
        else .error (.of .external "Unsupported object type")) ↔ _
      constructor
      · intro h objns' objname' objver' hns' hname' hver'
        obtain rfl := Option.some.inj (hns.symm.trans hns')
        obtain rfl := Option.some.inj hname'
        obtain rfl := Option.some.inj hver'
        by_cases hnova : objns.isText "nova" = true
        · rw [if_pos hnova] at h
          exact ⟨hnova, h⟩
        · rw [if_neg hnova, raises_error_iff] at h
          exact absurd h (not_missing (by decide) _)
      · intro h
        obtain ⟨hnova, hhydrate⟩ := h objns objname objver hns rfl rfl
        rw [if_pos hnova]
        exact hhydrate

/-- What is returned is wrapped, which raises nothing. -/
theorem raises_wrapped {x : Except PyError α} (wrap : α → Pools ω) :
    Raises (Missing True) (x >>= fun a => .ok (wrap a)) ↔ Raises (Missing True) x := by
  rw [raises_bind_iff]
  exact and_iff_left (fun a _ => Raises.ok (wrap a))

variable (conv hydrate) in
/-- A value that is neither a dictionary nor a list. -/
theorem not_raises_text (s : String) :
    ¬ Raises (Missing True) (objFromPrimitive hydrate (.str s)) ∧
    ¬ Raises (Missing True) (oldFormat conv (.str s)) :=
  ⟨fun h => not_missing (by decide) _ (raises_error_iff.mp h),
    fun h => not_missing (by decide) _ (raises_error_iff.mp h)⟩

/-- **What `from_pci_stats` raises**: nothing but a missing key exactly if the data are
harmless. -/
theorem raises_fromStats (stats : Json) :
    Raises (Missing True) (fromStats conv hydrate stats) ↔ Harmless conv hydrate stats := by
  unfold fromStats Harmless
  by_cases htruthy : stats.truthy = true
  swap
  · rw [if_neg htruthy]
    exact iff_of_true (Raises.ok _) (fun h => absurd h htruthy)
  rw [if_pos htruthy, forall_prop_of_true htruthy]
  have hnumber : ∀ message, ¬ Raises (Missing True)
      (.error (.of .typeError message) : Except PyError (Pools ω)) :=
    fun message h => not_missing (by decide) _ (raises_error_iff.mp h)
  cases stats with
  | obj d =>
    show Raises _ (if decide ("nova_object.namespace" ∈ Dict.keys d) = true then _ else _) ↔ _
    by_cases hserialized : "nova_object.namespace" ∈ Dict.keys d
    · rw [if_pos (decide_eq_true hserialized), raises_wrapped Pools.object]
      dsimp only
      rw [if_pos hserialized]
      exact raises_objFromPrimitive hserialized
    · rw [if_neg (fun h => hserialized (of_decide_eq_true h)), raises_wrapped Pools.pools]
      dsimp only
      rw [if_neg hserialized]
      unfold oldFormat
      rw [raises_bind_iff, and_iff_left (fun pool _ => Raises.ok [pool])]
      exact raises_poolOf d
  | arr vs =>
    show Raises _ (if (vs.any (fun v => v.isText "nova_object.namespace")) = true then _
      else _) ↔ _
    by_cases hcontains : vs.any (fun v => v.isText "nova_object.namespace") = true
    · rw [if_pos hcontains, raises_wrapped Pools.object]
      refine iff_of_false
        (fun h => not_missing (by decide) _ (raises_error_iff.mp h)) (fun h => ?_)
      obtain ⟨v, hv, htext⟩ := List.any_eq_true.mp hcontains
      rw [h.1 v hv] at htext
      cases htext
    · rw [if_neg hcontains, raises_wrapped Pools.pools]
      rw [Bool.not_eq_true, List.any_eq_false] at hcontains
      refine (raises_mapM_poolOfValue vs).trans (and_iff_right (fun v hv => ?_)).symm
      exact Bool.eq_false_iff.mpr (hcontains v hv)
  | str s =>
    obtain ⟨hobject, hpool⟩ := not_raises_text conv hydrate s
    refine iff_of_false ?_ id
    show ¬ Raises _ (if isInText "nova_object.namespace" s = true then _ else _)
    split
    · rw [raises_wrapped Pools.object]
      exact hobject
    · rw [raises_wrapped Pools.pools]
      exact hpool
  | null => cases htruthy
  | bool b => exact iff_of_false (hnumber _) id
  | int n => exact iff_of_false (hnumber _) id
  | float r => exact iff_of_false (hnumber _) id

/-! ## The result -/

variable (conv floatRepr hydrate) in
/-- **Main result.** A pool comes back from its dictionary, which stays as it is; text, list
and dictionaries agree; what is no JSON gives no pools; and a text raises nothing but a
missing key exactly if what it says is harmless. -/
theorem poolConversion :
    (∀ (pool : PciDevicePool) (h : Heap) (value : Nat), PlainTags pool →
      value < h.cells.length → h.get value = pool.toDict →
      ∃ h', (fromDict conv value).run h = .ok pool h' ∧ h'.get value = h.get value) ∧
    (∀ pools : List PciDevicePool, (∀ pool ∈ pools, PlainTags pool) →
      fromPciStats conv floatRepr hydrate
          (.value (.str (dumps (.arr (pools.map (fun pool => .obj pool.toDict)))))) =
        .ok (.pools pools) ∧
      fromPciStats conv floatRepr hydrate
          (.value (.arr (pools.map (fun pool => .obj pool.toDict)))) = .ok (.pools pools) ∧
      pools.mapM (fun pool => poolOf conv pool.toDict) = .ok pools) ∧
    (fromPciStats conv floatRepr hydrate .undecodable = .ok (.pools []) ∧
      ∀ s, loads floatRepr s = none →
      fromPciStats conv floatRepr hydrate (.value (.str s)) = .ok (.pools [])) ∧
    ∀ s, (∀ e, fromPciStats conv floatRepr hydrate (.value (.str s)) = .error e →
        e.cls = .keyError) ↔
      ∀ stats, loads floatRepr s = some stats → Harmless conv hydrate stats := by
  refine ⟨fun pool h value htags hlt hvalue => ?_, fun pools htags => ?_,
    ⟨rfl, fun s hloads => ?_⟩, fun s => ?_⟩
  · obtain ⟨d, hd⟩ := fromDict_run conv h value
    rw [hvalue, poolOf_toDict conv htags] at hd
    exact ⟨_, hd, get_append hlt d⟩
  · have hpools : pools.mapM (fun pool => poolOf conv pool.toDict) = .ok pools :=
      (mapM_ok (g := id) (fun pool hpool => poolOf_toDict conv (htags pool hpool))).trans
        (congrArg Except.ok (List.map_id pools))
    have hdicts : (pools.map PciDevicePool.toDict).mapM (poolOf conv) = .ok pools :=
      List.mapM_map.trans hpools
    have hplain : ∀ d ∈ pools.map PciDevicePool.toDict, (Json.obj d).plain = true := by
      intro d hd
      obtain ⟨pool, hpool, rfl⟩ := List.mem_map.mp hd
      exact plain_toDict (htags pool hpool)
    obtain ⟨htext, hlist⟩ := fromPciStats_dicts conv floatRepr hydrate hplain
    rw [List.map_map, hdicts] at hlist
    rw [List.map_map] at htext
    exact ⟨htext.trans hlist, hlist, hpools⟩
  · show fromStats conv hydrate ((loads floatRepr s).getD .null) = _
    rw [hloads]
    rfl
  · have hraises : Raises (Missing True)
        (fromPciStats conv floatRepr hydrate (.value (.str s))) ↔
          Harmless conv hydrate ((loads floatRepr s).getD .null) := raises_fromStats _
    have hclass : ∀ e : PyError, e.cls = .keyError ↔ Missing True e := fun e =>
      (and_iff_right trivial).symm
    simp only [hclass]
    refine hraises.trans ?_
    cases loads floatRepr s with
    | none => exact iff_of_true (fun h => nomatch h) (fun stats h => nomatch h)
    | some stats => exact ⟨fun h stats' hstats => Option.some.inj hstats ▸ h, fun h => h stats rfl⟩

/-! ## A text that holds a number -/

/-- No float is rounded and no object is known. -/
def plainConversions : Conversions := ⟨fun _ => none, fun _ => ""⟩

def noClasses : Json → Json → Json → Except PyError Unit :=
  fun _ _ _ => .error (.of .external "Unsupported object type")

theorem number_raises_typeError :
    fromPciStats plainConversions (fun text => text) noClasses (.value (.str "5")) =
      .error (.of .typeError "argument of type 'int' is not iterable") ∧
    ¬ ∀ s e, fromPciStats plainConversions (fun text => text) noClasses (.value (.str s)) =
      .error e → e.cls = .keyError := by
  refine ⟨rfl, fun h => ?_⟩
  have hclass := h "5" (.of .typeError "argument of type 'int' is not iterable") rfl
  cases hclass

end PolarBear.Objects
