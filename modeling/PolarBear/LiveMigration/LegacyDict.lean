import PolarBear.Lib.Fallible
import PolarBear.Py.JsonFloat

/-!
# `LibvirtLiveMigrateData` and its legacy dictionary

A sender that has to use the old RPC version sends a nested dictionary in place of the
object. `to_legacy_dict` puts most fields under their names, the addresses into the result
of the pre-migration, and the block device mappings into a dictionary of their own by
serial; `from_legacy_dict` reads them from there.

The reader of a mapping looks for `format` and `boot_index` beside `disk_info`, where the
writer never puts them: it puts them inside.

`netaddr` and what a field makes of a value of another type are parameters (`Externals`).
-/

namespace PolarBear.LiveMigration

open PolarBear.Py

variable {α μ : Type}

/-- A value of a field or of a legacy dictionary, with addresses `α` and `Migration` objects
`μ`. -/
inductive Value (α μ : Type) where
  | none
  | bool (b : Bool)
  | int (n : Int)
  | text (s : String)
  | ints (ns : List Int)
  | texts (ss : List String)
  | address (a : α)
  | migration (m : μ)
  | json (j : Json)
  | dict (entries : List (String × Value α μ))

inductive FieldType where
  | boolean
  | integer
  | string
  | ipAddress
  | listOfIntegers
  | listOfStrings
  | object (name : String)
  | listOfObjects (name : String)
  deriving DecidableEq, Repr

structure Field where
  type : FieldType
  nullable : Bool
  deriving DecidableEq, Repr

/-- `LiveMigrateData.fields`. -/
def baseFields : List (String × Field) :=
  [("is_volume_backed", ⟨.boolean, false⟩), ("migration", ⟨.object "Migration", false⟩)]

/-- `LibvirtLiveMigrateData.fields`, with those of the base class. -/
def fields : List (String × Field) := baseFields ++ [
  ("filename", ⟨.string, false⟩),
  ("image_type", ⟨.string, false⟩),
  ("block_migration", ⟨.boolean, false⟩),
  ("disk_over_commit", ⟨.boolean, false⟩),
  ("disk_available_mb", ⟨.integer, true⟩),
  ("is_shared_instance_path", ⟨.boolean, false⟩),
  ("is_shared_block_storage", ⟨.boolean, false⟩),
  ("instance_relative_path", ⟨.string, false⟩),
  ("graphics_listen_addr_vnc", ⟨.ipAddress, true⟩),
  ("graphics_listen_addr_spice", ⟨.ipAddress, true⟩),
  ("serial_listen_addr", ⟨.string, true⟩),
  ("serial_listen_ports", ⟨.listOfIntegers, false⟩),
  ("bdms", ⟨.listOfObjects "LibvirtLiveMigrateBDMInfo", false⟩),
  ("target_connect_addr", ⟨.string, true⟩),
  ("supported_perf_events", ⟨.listOfStrings, false⟩)]

/-- A `LibvirtLiveMigrateBDMInfo` with its mandatory fields; `format` and `boot_index` may be
unset, and be null. -/
structure BDMInfo where
  serial : String
  bus : String
  dev : String
  type : String
  format : Option (Option String)
  bootIndex : Option (Option Int)
  connectionInfoJson : String
  deriving DecidableEq, Repr

/-- An object: the attributes that are set, and its mappings. -/
structure LiveMigrateData (α μ : Type) where
  attrs : List (String × Value α μ)
  bdms : Option (List BDMInfo)

def LiveMigrateData.fresh : LiveMigrateData α μ := ⟨[], none⟩

/-- `netaddr.IPAddress`, its `str` and its truth value; what a field makes of a value of
another type; `dumps` of what is not plain JSON. -/
structure Externals (α μ : Type) where
  ipAddress : String → Option α
  str : α → String
  truth : α → Bool
  coerceOther : Field → Value α μ → Except PyError (Value α μ)
  dumpsOther : Value α μ → Except PyError String

/-- The value is of the type of the field. -/
def Field.holds (f : Field) (v : Value α μ) : Bool :=
  match f.type, v with
  | _, .none => f.nullable
  | .boolean, .bool _ => true
  | .integer, .int _ => true
  | .string, .text _ => true
  | .ipAddress, .address _ => true
  | .listOfIntegers, .ints _ => true
  | .listOfStrings, .texts _ => true
  | .object _, .migration _ => true
  | _, _ => false

section

variable (ext : Externals α μ)

/-- `Field.coerce`. -/
def Field.coerce (f : Field) (attr : String) (v : Value α μ) : Except PyError (Value α μ) :=
  match v with
  | .none =>
    if f.nullable then .ok .none
    else .error (.of .valueError s!"Field `{attr}' cannot be None")
  | v =>
    if f.holds v then .ok v
    else match f.type, v with
      | .ipAddress, .text s =>
        match ext.ipAddress s with
        | some a => .ok (.address a)
        | none => .error (.of .valueError s!"failed to detect a valid IP address from '{s}'")
      | _, v => ext.coerceOther f v

/-- The setter of a field. -/
def LiveMigrateData.setattr (o : LiveMigrateData α μ) (k : String) (v : Value α μ) :
    Except PyError (LiveMigrateData α μ) :=
  match fields.lookup k with
  | none => .error (.of .attributeError k)
  | some f => do
    let v ← f.coerce ext k v
    .ok { o with attrs := Dict.set k v o.attrs }

/-! ## Writing -/

variable (floatRepr : String → String)

/-- The property `connection_info`. -/
def BDMInfo.connectionInfo (b : BDMInfo) : Except PyError Json :=
  match loads floatRepr b.connectionInfoJson with
  | some j => .ok j
  | none => .error (.of .valueError "No JSON object could be decoded")

/-- `as_disk_info`. -/
def BDMInfo.asDiskInfo (b : BDMInfo) : List (String × Value α μ) :=
  [("dev", .text b.dev), ("bus", .text b.bus), ("type", .text b.type)] ++
    (match b.format with
      | some (some format) => if format = "" then [] else [("format", .text format)]
      | _ => []) ++
    match b.bootIndex with
    | some (some n) => [("boot_index", .text (String.ofList (intText n)))]
    | _ => []

/-- `LiveMigrateData.to_legacy_dict`. -/
def LiveMigrateData.baseToLegacyDict (o : LiveMigrateData α μ) (preMigrationResult : Bool) :
    List (String × Value α μ) :=
  let legacy := (Dict.keys baseFields).filterMap (fun k => (o.attrs.lookup k).map (fun v => (k, v)))
  if preMigrationResult then Dict.set "pre_live_migration_result" (.dict []) legacy else legacy

/-- `_bdms_to_legacy`. -/
def LiveMigrateData.bdmsToLegacy (o : LiveMigrateData α μ) (legacy : List (String × Value α μ)) :
    Except PyError (List (String × Value α μ)) :=
  match o.bdms with
  | none => .ok legacy
  | some bdms => do
    let volume ← bdms.foldlM (fun volume (b : BDMInfo) => do
      let info ← b.connectionInfo floatRepr
      .ok (Dict.set b.serial
        (.dict [("disk_info", .dict b.asDiskInfo), ("connection_info", .json info)]) volume)) []
    .ok (Dict.set "volume" (.dict volume) legacy)

/-- `set(self.fields.keys()) - set(LiveMigrateData.fields.keys()) - {'bdms'}`. -/
def libvirtKeys : List String :=
  (Dict.keys fields).filter (fun k => k ∉ Dict.keys baseFields && k != "bdms")

/-- `d.pop(k, None)`. -/
def pop (k : String) (d : List (String × Value α μ)) : Value α μ × List (String × Value α μ) :=
  ((d.lookup k).getD .none, d.filter (fun kv => kv.1 != k))

/-- `address and str(address)`, of a field that holds an address or `None`. -/
def andStr (v : Value α μ) : Value α μ :=
  match v with
  | .address a => if ext.truth a then .text (ext.str a) else .address a
  | v => v

/-- `to_legacy_dict`. -/
def LiveMigrateData.toLegacyDict (o : LiveMigrateData α μ) (preMigrationResult : Bool) :
    Except PyError (List (String × Value α μ)) :=
  let legacy := Dict.update (o.baseToLegacyDict false)
    (libvirtKeys.filterMap (fun k => (o.attrs.lookup k).map (fun v => (k, v))))
  let (graphicsVnc, legacy) := pop "graphics_listen_addr_vnc" legacy
  let (graphicsSpice, legacy) := pop "graphics_listen_addr_spice" legacy
  let (transportTarget, legacy) := pop "target_connect_addr" legacy
  let (serialListenAddr, legacy) := pop "serial_listen_addr" legacy
  let liveResult : List (String × Value α μ) := [
    ("graphics_listen_addrs",
      .dict [("vnc", andStr ext graphicsVnc), ("spice", andStr ext graphicsSpice)]),
    ("serial_listen_addr", serialListenAddr),
    ("target_connect_addr", transportTarget)]
  if preMigrationResult then do
    let liveResult ← o.bdmsToLegacy floatRepr liveResult
    .ok (Dict.set "pre_live_migration_result" (.dict liveResult) legacy)
  else .ok legacy

/-! ## Reading -/

/-- A value that is read by keys. -/
def Value.asDict (v : Value α μ) : Except PyError (List (String × Value α μ)) :=
  match v with
  | .dict entries => .ok entries
  | _ => .error (.of .typeError "object has no attribute '__getitem__'")

/-- `d[k]`. -/
def getItem (d : List (String × Value α μ)) (k : String) : Except PyError (Value α μ) :=
  match d.lookup k with
  | some v => .ok v
  | none => .error (.key k)

/-- A text field of a mapping is set. -/
def coerceText (attr : String) (v : Value α μ) : Except PyError String := do
  match ← (⟨.string, false⟩ : Field).coerce ext attr v with
  | .text s => .ok s
  | _ => .error (.of .valueError attr)

/-- The setter of `connection_info`. -/
def dumpInfo (v : Value α μ) : Except PyError String :=
  match v with
  | .json j => .ok (dumps j)
  | v => ext.dumpsOther v

/-- One mapping of `_bdms_from_legacy`. -/
def bdmFromLegacy (volume : List (String × Value α μ)) (serial : String) :
    Except PyError BDMInfo := do
  let vol ← (← getItem volume serial).asDict
  let connectionInfoJson ← dumpInfo ext (← getItem vol "connection_info")
  let diskInfo ← (← getItem vol "disk_info").asDict
  let bus ← coerceText ext "bus" (← getItem diskInfo "bus")
  let dev ← coerceText ext "dev" (← getItem diskInfo "dev")
  let type ← coerceText ext "type" (← getItem diskInfo "type")
  let format ← if "format" ∈ Dict.keys vol then do
      match ← getItem diskInfo "format" with
      | .none => .ok (some none)
      | v => (coerceText ext "format" v).map (fun s => some (some s))
    else .ok none
  let bootIndex ← if "boot_index" ∈ Dict.keys vol then do
      match pyInt (← coerceText ext "boot_index" (← getItem diskInfo "boot_index")) with
      | some n => .ok (some (some n))
      | none => .error (.of .valueError "invalid literal for int() with base 10")
    else .ok none
  .ok ⟨serial, bus, dev, type, format, bootIndex, connectionInfoJson⟩

-- a dictionary is gone through in an order of its own
variable (order : List String → List String)

/-- `_bdms_from_legacy`. -/
def LiveMigrateData.bdmsFromLegacy (o : LiveMigrateData α μ)
    (legacyPreResult : List (String × Value α μ)) : Except PyError (LiveMigrateData α μ) := do
  let volume ← ((legacyPreResult.lookup "volume").getD (.dict [])).asDict
  let bdms ← (order (Dict.keys volume)).mapM (bdmFromLegacy ext volume)
  .ok { o with bdms := some bdms }

/-- `if k in legacy: setattr(self, k, legacy[k])`. -/
def LiveMigrateData.setFrom (legacy : List (String × Value α μ)) (o : LiveMigrateData α μ)
    (k : String) : Except PyError (LiveMigrateData α μ) :=
  match legacy.lookup k with
  | some v => o.setattr ext k v
  | none => .ok o

/-- The fields that the pre-migration result holds. -/
def LiveMigrateData.fromPreResult (o : LiveMigrateData α μ)
    (preResult : List (String × Value α μ)) : Except PyError (LiveMigrateData α μ) := do
  let addrs ← (← getItem preResult "graphics_listen_addrs").asDict
  let o ← o.setattr ext "graphics_listen_addr_vnc" ((addrs.lookup "vnc").getD .none)
  let o ← o.setattr ext "graphics_listen_addr_spice" ((addrs.lookup "spice").getD .none)
  let o ← o.setattr ext "target_connect_addr" ((preResult.lookup "target_connect_addr").getD .none)
  let o ← o.setFrom ext preResult "serial_listen_addr"
  o.bdmsFromLegacy ext order preResult

/-- `from_legacy_dict`, after that of the base class. -/
def LiveMigrateData.fromLegacyDict (o : LiveMigrateData α μ) (legacy : List (String × Value α μ)) :
    Except PyError (LiveMigrateData α μ) := do
  let o ← (Dict.keys baseFields).foldlM (setFrom ext legacy) o
  let o ← libvirtKeys.foldlM (setFrom ext legacy) o
  match legacy.lookup "pre_live_migration_result" with
  | none => .ok o
  | some preResult => do
    let preResult ← preResult.asDict
    o.fromPreResult ext order preResult

end

end PolarBear.LiveMigration
