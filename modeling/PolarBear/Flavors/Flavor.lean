import PolarBear.Lib.Dict
import PolarBear.Db.Paginate

/-!
# Flavors in two databases

A flavor lives in the API database or, until it is migrated, in the main one.
Its extra specs and the projects it is granted to are rows of their own, joined
to it; here they are part of the row. The API table has three unique constraints,
which are fields of `ApiFlavors`; in the main table a flavor is deleted softly,
and a deleted one keeps neither specs nor grants in its relations.

Both databases filter what a context may see in the same way: an administrator
sees everything, anyone else a flavor that is public or granted to the project
(`shownTo`). The readers of the object ask the API database first and fall back
on the main one.
-/

namespace PolarBear.Flavors

open Transactions Db
open Transactions.Prog (transaction reading compute)

/-- The columns of a flavor with its specs and grants; times are seconds. -/
structure FlavorRow where
  id : Nat
  name : String
  memoryMb : Int
  vcpus : Int
  rootGb : Option Int
  ephemeralGb : Option Int
  flavorid : String
  swap : Int
  rxtxFactor : Option Rat
  vcpuWeight : Option Int
  disabled : Option Bool
  isPublic : Option Bool
  createdAt : Option Nat
  updatedAt : Option Nat
  extraSpecs : List (String × Option String)
  projects : List String
  deriving DecidableEq, Repr

/-- A row of the main table. Ids count from one. -/
structure MainFlavorRow extends FlavorRow where
  deleted : Nat
  deletedAt : Option Nat
  id_pos : 0 < id
  deriving DecidableEq, Repr

def MainFlavorRow.live (r : MainFlavorRow) : Bool := r.deleted == 0

/-- The API table, with its unique constraints. -/
structure ApiFlavors where
  rows : List FlavorRow
  uniqId : (rows.map FlavorRow.id).Nodup
  uniqFlavorid : (rows.map FlavorRow.flavorid).Nodup
  uniqName : (rows.map FlavorRow.name).Nodup

/-- Both databases. -/
structure Databases where
  api : ApiFlavors
  main : List MainFlavorRow

/-- The transactions. -/
inductive Tx where
  | flavorGetFromDb
  | flavorGetAllFromDb
  | getProjectsFromDb
  | flavorCreate
  | flavorAddProject
  | flavorDelProject
  | flavorExtraSpecsAdd
  | flavorExtraSpecsDel
  | flavorGet
  | flavorGetAll
  | flavorAccessGetByFlavorId
  | flavorDestroy
  | destroyFlavorHard
  | getMainDbFlavorIds
  deriving DecidableEq, Repr

/-- Programs on flavors; the input of a transaction is the time. -/
abbrev FlavorProg := Prog Nat Tx Databases NovaError

/-! ## The object -/

/-- A row as a dictionary. The API model has no `deleted` and no `deleted_at`. -/
structure DbFlavor where
  row : FlavorRow
  extraSpecs : List (String × Option String)
  deprecated : Option (Nat × Option Nat)
  deriving DecidableEq, Repr

/-- `_dict_with_extra_specs`. -/
def FlavorRow.dictWithExtraSpecs (r : FlavorRow) (deprecated : Option (Nat × Option Nat)) :
    DbFlavor := ⟨r, Dict.update [] r.extraSpecs, deprecated⟩

def MainFlavorRow.dictWithExtraSpecs (r : MainFlavorRow) : DbFlavor :=
  r.toFlavorRow.dictWithExtraSpecs (some (r.deleted, r.deletedAt))

/-- A `Flavor` object, its `projects` not loaded. -/
structure Flavor where
  id : Nat
  name : String
  memoryMb : Int
  vcpus : Int
  rootGb : Int
  ephemeralGb : Int
  flavorid : String
  swap : Int
  rxtxFactor : Option Rat
  vcpuWeight : Int
  disabled : Bool
  isPublic : Bool
  createdAt : Option Nat
  updatedAt : Option Nat
  deletedAt : Option Nat
  deleted : Bool
  extraSpecs : List (String × String)
  deriving DecidableEq, Repr

/-- A field that is not nullable. -/
def notNone {α : Type} (field : String) : Option α → Except NovaError α
  | some a => .ok a
  | none => .error (.valueError s!"Field `{field}' cannot be None")

/-- A dictionary of strings. -/
def dictOfStrings (field : String) (d : List (String × Option String)) :
    Except NovaError (List (String × String)) :=
  d.mapM (fun kv => do
    let v ← notNone s!"{field}[{kv.1}]" kv.2
    .ok (kv.1, v))

/-- `_from_db_object` with the extra specs expected: a null integer is read as zero, and
what an API row lacks is filled in. -/
def DbFlavor.fromDbObject (f : DbFlavor) : Except NovaError Flavor := do
  let disabled ← notNone "disabled" f.row.disabled
  let isPublic ← notNone "is_public" f.row.isPublic
  let extraSpecs ← dictOfStrings "extra_specs" f.extraSpecs
  .ok {
    id := f.row.id
    name := f.row.name
    memoryMb := f.row.memoryMb
    vcpus := f.row.vcpus
    rootGb := f.row.rootGb.getD 0
    ephemeralGb := f.row.ephemeralGb.getD 0
    flavorid := f.row.flavorid
    swap := f.row.swap
    rxtxFactor := f.row.rxtxFactor
    vcpuWeight := f.row.vcpuWeight.getD 0
    disabled := disabled
    isPublic := isPublic
    createdAt := f.row.createdAt
    updatedAt := f.row.updatedAt
    deletedAt := (f.deprecated.map Prod.snd).getD none
    deleted := (f.deprecated.map (fun p => p.1 != 0)).getD false
    extraSpecs := extraSpecs }

/-! ## What a context may see -/

/-- The filter both databases put on a query. -/
def shownTo (ctxt : Context) (r : FlavorRow) : Bool :=
  ctxt.isAdmin || (r.isPublic == some true || r.projects.any (fun p => some p == ctxt.projectId))

/-- `Flavor._flavor_get_query_from_db`. -/
def flavorGetQueryFromDb (ctxt : Context) (t : ApiFlavors) : List FlavorRow :=
  t.rows.filter (shownTo ctxt)

/-- `_flavor_get_query`, on the main database. -/
def flavorGetQuery (ctxt : Context) (readDeleted : Option String) (rows : List MainFlavorRow) :
    Except NovaError (List MainFlavorRow) := do
  let shown ← modelQuery ctxt readDeleted
  .ok (rows.filter (fun r => shown r.deleted && shownTo ctxt r.toFlavorRow))

/-! ## The readers -/

/-- `_flavor_get_from_db`. -/
def flavorGetFromDb (ctxt : Context) (id : Nat) : FlavorProg DbFlavor := do
  compute (requireContext ctxt)
  reading .flavorGetFromDb (fun s =>
    match (flavorGetQueryFromDb ctxt s.api).find? (fun r => r.id == id) with
    | some r => .ok (r.dictWithExtraSpecs none)
    | none => .error (.flavorNotFound id))

/-- `_flavor_get_by_name_from_db`. -/
def flavorGetByNameFromDb (ctxt : Context) (name : String) : FlavorProg DbFlavor := do
  compute (requireContext ctxt)
  reading .flavorGetFromDb (fun s =>
    match (flavorGetQueryFromDb ctxt s.api).find? (fun r => r.name == name) with
    | some r => .ok (r.dictWithExtraSpecs none)
    | none => .error (.flavorNotFoundByName name))

/-- `_flavor_get_by_flavor_id_from_db`. -/
def flavorGetByFlavorIdFromDb (ctxt : Context) (flavorid : String) : FlavorProg DbFlavor := do
  compute (requireContext ctxt)
  reading .flavorGetFromDb (fun s =>
    let hits := (flavorGetQueryFromDb ctxt s.api).filter (fun r => r.flavorid == flavorid)
    match (hits.mergeSort (fun r s => r.id ≤ s.id)).head? with
    | some r => .ok (r.dictWithExtraSpecs none)
    | none => .error (.flavorNotFoundByFlavorId flavorid))

/-- `flavor_get`. -/
def flavorGet (ctxt : Context) (id : Nat) : FlavorProg DbFlavor := do
  compute (requireContext ctxt)
  reading .flavorGet (fun s => do
    let rows ← flavorGetQuery ctxt none s.main
    match rows.find? (fun r => r.id == id) with
    | some r => .ok r.dictWithExtraSpecs
    | none => .error (.flavorNotFound id))

/-- `flavor_get_by_name`. -/
def flavorGetByName (ctxt : Context) (name : String) : FlavorProg DbFlavor := do
  compute (requireContext ctxt)
  reading .flavorGet (fun s => do
    let rows ← flavorGetQuery ctxt none s.main
    match rows.find? (fun r => r.name == name) with
    | some r => .ok r.dictWithExtraSpecs
    | none => .error (.flavorNotFoundByName name))

/-- `flavor_get_by_flavor_id`: a live row comes before a deleted one. -/
def flavorGetByFlavorId (ctxt : Context) (flavorid : String) (readDeleted : Option String) :
    FlavorProg DbFlavor := do
  compute (requireContext ctxt)
  reading .flavorGet (fun s => do
    let rows ← flavorGetQuery ctxt readDeleted s.main
    let hits := rows.filter (fun r => r.flavorid == flavorid)
    match (hits.mergeSort
        (fun r s => r.deleted < s.deleted || (r.deleted == s.deleted && r.id ≤ s.id))).head? with
    | some r => .ok r.dictWithExtraSpecs
    | none => .error (.flavorNotFoundByFlavorId flavorid))

/-- `except exception.FlavorNotFound:` the main database is asked. `FlavorNotFoundByName` is a
subclass. -/
def exceptFlavorNotFound {α : Type} (fallback : FlavorProg α) : NovaError → FlavorProg α
  | .flavorNotFound _ => fallback
  | .flavorNotFoundByFlavorId _ => fallback
  | .flavorNotFoundByName _ => fallback
  | e => throw e

/-- `except exception.FlavorNotFoundByName:`. -/
def exceptFlavorNotFoundByName {α : Type} (fallback : FlavorProg α) : NovaError → FlavorProg α
  | .flavorNotFoundByName _ => fallback
  | e => throw e

/-- `Flavor.get_by_id`. -/
def getById (ctxt : Context) (id : Nat) : FlavorProg Flavor := do
  let dbFlavor ← tryCatch (flavorGetFromDb ctxt id) (exceptFlavorNotFound (flavorGet ctxt id))
  compute dbFlavor.fromDbObject

/-- `Flavor.get_by_name`. -/
def getByName (ctxt : Context) (name : String) : FlavorProg Flavor := do
  let dbFlavor ← tryCatch (flavorGetByNameFromDb ctxt name)
    (exceptFlavorNotFoundByName (flavorGetByName ctxt name))
  compute dbFlavor.fromDbObject

/-- `Flavor.get_by_flavor_id`. -/
def getByFlavorId (ctxt : Context) (flavorid : String) (readDeleted : Option String) :
    FlavorProg Flavor := do
  let dbFlavor ← tryCatch (flavorGetByFlavorIdFromDb ctxt flavorid)
    (exceptFlavorNotFound (flavorGetByFlavorId ctxt flavorid readDeleted))
  compute dbFlavor.fromDbObject

end PolarBear.Flavors
