import Mathlib.Data.List.Dedup
import PolarBear.Db.Batch
import PolarBear.Flavors.Flavor

/-!
# `migrate_flavors`

The migration reads a batch of live flavor ids from the main database. Each
flavor is read as an object (from the API database first), its projects are
loaded, and it is created in the API database in one transaction and deleted from
the main one in another. A flavor is counted when its copy is made. A flavor that
disappeared and one whose copy collides with a flavor of the API database are
logged and skipped; any other exception ends the call.
-/

namespace PolarBear.Flavors

open Transactions Db
open Transactions.Prog (transaction reading compute)

def Databases.liveRows (s : Databases) : List MainFlavorRow := s.main.filter MainFlavorRow.live

/-! ## The projects of a flavor -/

/-- `_get_projects_from_db`. -/
def getProjectsFromDb (flavorid : String) : FlavorProg (List String) :=
  reading .getProjectsFromDb (fun s =>
    match s.api.rows.find? (fun r => r.flavorid == flavorid) with
    | some r => .ok r.projects
    | none => .error (.flavorNotFoundByFlavorId flavorid))

/-- `flavor_access_get_by_flavor_id`: the id of the flavor is a subquery, which must not
give two rows. -/
def flavorAccessGetByFlavorId (flavorid : String) : FlavorProg (List String) :=
  reading .flavorAccessGetByFlavorId (fun s =>
    match s.liveRows.filter (fun r => r.flavorid == flavorid) with
    | [] => .ok []
    | [r] => .ok r.projects
    | _ => .error .dbError)

/-- `_load_projects`. -/
def loadProjects (flavorid : String) : FlavorProg (List String) :=
  tryCatch (getProjectsFromDb flavorid)
    (exceptFlavorNotFound (flavorAccessGetByFlavorId flavorid))

/-! ## Creating the copy -/

/-- The row a flavor object is created as. The model has defaults for the columns that
may be null in the object. -/
def Flavor.toRow (f : Flavor) (projects : List String) (now : Nat) : FlavorRow where
  id := f.id
  name := f.name
  memoryMb := f.memoryMb
  vcpus := f.vcpus
  rootGb := some f.rootGb
  ephemeralGb := some f.ephemeralGb
  flavorid := f.flavorid
  swap := f.swap
  rxtxFactor := some (f.rxtxFactor.getD 1)
  vcpuWeight := some f.vcpuWeight
  disabled := some f.disabled
  isPublic := some f.isPublic
  createdAt := some (f.createdAt.getD now)
  updatedAt := f.updatedAt
  extraSpecs := f.extraSpecs.map (fun kv => (kv.1, some kv.2))
  projects := projects.dedup

/-- Add a row, if the constraints allow it. What order rows have is not looked at. -/
def ApiFlavors.insert (t : ApiFlavors) (r : FlavorRow) : Except NovaError ApiFlavors :=
  if hid : r.id ∈ t.rows.map FlavorRow.id then .error (.flavorExists r.name)
  else if hflavorid : r.flavorid ∈ t.rows.map FlavorRow.flavorid then
    .error (.flavorIdExists r.flavorid)
  else if hname : r.name ∈ t.rows.map FlavorRow.name then .error (.flavorExists r.name)
  else .ok {
    rows := r :: t.rows
    uniqId := List.nodup_cons.mpr ⟨hid, t.uniqId⟩
    uniqFlavorid := List.nodup_cons.mpr ⟨hflavorid, t.uniqFlavorid⟩
    uniqName := List.nodup_cons.mpr ⟨hname, t.uniqName⟩ }

/-- `_flavor_create`. -/
def flavorCreate (f : Flavor) (projects : List String) : FlavorProg Unit :=
  transaction .flavorCreate (fun now s => do
    let api ← s.api.insert (f.toRow projects now)
    .ok ((), { s with api := api }))

/-! ## Deleting the original -/

/-- `soft_delete` of a flavor, with its specs and grants. -/
def MainFlavorRow.softDelete (now : Nat) (r : MainFlavorRow) : MainFlavorRow :=
  { r with deleted := r.id, deletedAt := some now, updatedAt := some now, extraSpecs := [],
           projects := [] }

/-- A live row with a flavor id. -/
def MainFlavorRow.isLive (flavorid : String) (r : MainFlavorRow) : Bool :=
  r.live && r.flavorid == flavorid

/-- `flavor_destroy`. -/
def flavorDestroy (flavorid : String) : FlavorProg Unit :=
  transaction .flavorDestroy (fun now s =>
    let ref := MainFlavorRow.isLive flavorid
    if s.main.any ref then .ok ((), { s with main := updateFirst ref (·.softDelete now) s.main })
    else .error (.flavorNotFoundByFlavorId flavorid))

/-- `_destroy_flavor_hard`. -/
def destroyFlavorHard (name : String) : FlavorProg Unit :=
  transaction .destroyFlavorHard (fun _ s =>
    .ok ((), { s with main := s.main.filter (fun r => r.name != name) }))

/-! ## The migration -/

/-- `_get_main_db_flavor_ids`. -/
def getMainDbFlavorIds (limit : Nat) : FlavorProg (List Nat) :=
  liveIds .getMainDbFlavorIds Databases.liveRows (fun r => r.id) limit

/-- The exceptions that are logged, and what is counted then. -/
def logged (countHit : Nat) : NovaError → FlavorProg Nat
  | .flavorNotFound _ => pure countHit
  | .flavorNotFoundByFlavorId _ => pure countHit
  | .flavorNotFoundByName _ => pure countHit
  | .flavorExists _ => pure countHit
  | .flavorIdExists _ => pure countHit
  | e => throw e

/-- `if hard_delete:` the original goes for good, or else softly. -/
def destroyOriginal (hardDelete : Bool) (flavor : Flavor) : FlavorProg Unit :=
  if hardDelete then destroyFlavorHard flavor.name else flavorDestroy flavor.flavorid

/-- One round of `migrate_flavors`. -/
def migrateFlavor (ctxt : Context) (hardDelete : Bool) (countHit id : Nat) : FlavorProg Nat :=
  tryCatch (do
    let flavor ← getById ctxt id
    let projects ← loadProjects flavor.flavorid
    flavorCreate flavor projects
    -- counted from here on, also if the original cannot be deleted
    tryCatch (do
      destroyOriginal hardDelete flavor
      pure (countHit + 1)) (logged (countHit + 1)))
    (logged countHit)

/-- `migrate_flavors`: how many flavors were found, and how many were copied. -/
def migrateFlavors (ctxt : Context) (count : Nat) (hardDelete : Bool) :
    FlavorProg (Nat × Nat) :=
  migrateBatch (getMainDbFlavorIds count) (migrateFlavor ctxt hardDelete)

end PolarBear.Flavors
