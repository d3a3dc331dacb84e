import PolarBear.Flavors.Migrate
import PolarBear.Flavors.Listing

/-!
# Saving a flavor

A `Flavor` object remembers the extra specs and the projects it was loaded with, and
`save` writes the difference. What was assigned is also marked as changed, and the mark
goes only with a write: where nothing is to be added and nothing to be deleted, nothing is
written and the mark stays.

The projects of an object that never loaded them are compared with the empty list. The
flavors of the main database are written by calls of their own (`MainAccess`).
-/

namespace PolarBear.Flavors

open Transactions Db
open Transactions.Prog (transaction reading compute)

/-! ## The rows of a flavor -/

/-- The row with an id gets other specs and other projects. -/
def ApiFlavors.modify (t : ApiFlavors) (id : Nat)
    (specs : List (String × Option String) → List (String × Option String))
    (projects : List String → List String) : ApiFlavors :=
  let f : FlavorRow → FlavorRow := fun r =>
    if r.id == id then
      { r with extraSpecs := specs r.extraSpecs, projects := projects r.projects }
    else r
  { rows := t.rows.map f
    uniqId := by
      rw [List.map_map, List.map_congr_left (g := FlavorRow.id)]
      · exact t.uniqId
      · intro r _
        dsimp only [f, Function.comp_apply]
        split <;> rfl
    uniqFlavorid := by
      rw [List.map_map, List.map_congr_left (g := FlavorRow.flavorid)]
      · exact t.uniqFlavorid
      · intro r _
        dsimp only [f, Function.comp_apply]
        split <;> rfl
    uniqName := by
      rw [List.map_map, List.map_congr_left (g := FlavorRow.name)]
      · exact t.uniqName
      · intro r _
        dsimp only [f, Function.comp_apply]
        split <;> rfl }

def ApiFlavors.find? (t : ApiFlavors) (id : Nat) : Option FlavorRow :=
  t.rows.find? (fun r => r.id == id)

def Databases.modify (s : Databases) (id : Nat)
    (specs : List (String × Option String) → List (String × Option String))
    (projects : List String → List String) : Databases :=
  { s with api := s.api.modify id specs projects }

/-- `_flavor_add_project`. A grant needs its flavor. -/
def flavorAddProject (flavorId : Nat) (projectId : String) : FlavorProg Unit :=
  transaction .flavorAddProject (fun _ s =>
    match s.api.find? flavorId with
    | none => .error .dbError
    | some r =>
      if projectId ∈ r.projects then .error (.flavorAccessExists flavorId projectId)
      else .ok ((), s.modify flavorId (fun rows => rows) (fun projects => projects ++ [projectId])))

/-- `_flavor_del_project`. -/
def flavorDelProject (flavorId : Nat) (projectId : String) : FlavorProg Unit :=
  transaction .flavorDelProject (fun _ s =>
    match s.api.find? flavorId with
    | none => .error (.flavorAccessNotFound flavorId projectId)
    | some r =>
      if projectId ∈ r.projects then
        .ok ((), s.modify flavorId (fun rows => rows)
          (fun projects => projects.filter (fun p => p != projectId)))
      else .error (.flavorAccessNotFound flavorId projectId))

/-- A stored spec gets its new value. -/
def updateSpec (specs : List (String × String)) (ref : String × Option String) :
    String × Option String :=
  match specs.lookup ref.1 with
  | some value => (ref.1, some value)
  | none => ref

/-- The rows of the specs after `_flavor_extra_specs_add`. -/
def withSpecs (specs : List (String × String)) (rows : List (String × Option String)) :
    List (String × Option String) :=
  rows.map (updateSpec specs) ++
    (specs.filter (fun kv => kv.1 ∉ Dict.keys rows)).map (fun kv => (kv.1, some kv.2))

/-- `_flavor_extra_specs_add`. Its first attempt is its last: nobody else writes. -/
def flavorExtraSpecsAdd (flavorId : Nat) (specs : List (String × String)) : FlavorProg Unit :=
  transaction .flavorExtraSpecsAdd (fun _ s =>
    match s.api.find? flavorId with
    | none => .error .dbError
    | some _ => .ok ((), s.modify flavorId (withSpecs specs) (fun projects => projects)))

/-- `_flavor_extra_specs_del`. -/
def flavorExtraSpecsDel (flavorId : Nat) (key : String) : FlavorProg Unit :=
  transaction .flavorExtraSpecsDel (fun _ s =>
    match s.api.find? flavorId with
    | none => .error (.flavorExtraSpecsNotFound flavorId key)
    | some r =>
      if key ∈ Dict.keys r.extraSpecs then
        .ok ((), s.modify flavorId (fun rows => rows.filter (fun kv => kv.1 != key))
          (fun projects => projects))
      else .error (.flavorExtraSpecsNotFound flavorId key))

/-! ## The object -/

/-- A `Flavor` object with what it keeps track of. Its `projects` may not be loaded. -/
structure FlavorObject where
  context : Context
  flavor : Flavor
  projects : Option (List String)
  origExtraSpecs : List (String × String)
  origProjects : List String
  inApi : Bool
  changedFields : List String

/-- Equal as dictionaries. -/
def sameDict (d e : List (String × String)) : Bool :=
  (Dict.keys d ++ Dict.keys e).all (fun k => d.lookup k == e.lookup k)

namespace FlavorObject

/-- `obj_reset_changes`, of the fields that are given. -/
def objResetChanges (o : FlavorObject) (fields : List String) : FlavorObject :=
  { o with
    changedFields := o.changedFields.filter (fun f => f ∉ fields)
    origExtraSpecs := if "extra_specs" ∈ fields then o.flavor.extraSpecs else o.origExtraSpecs
    origProjects := if "projects" ∈ fields then o.projects.getD [] else o.origProjects }

/-- `_from_db_object` leaves nothing changed. -/
def ofFlavor (ctxt : Context) (flavor : Flavor) : FlavorObject where
  context := ctxt
  flavor := flavor
  projects := none
  origExtraSpecs := flavor.extraSpecs
  origProjects := []
  inApi := false
  changedFields := []

/-- `obj_what_changed`. -/
def objWhatChanged (o : FlavorObject) : List String :=
  o.changedFields ++
    (if sameDict o.flavor.extraSpecs o.origExtraSpecs then [] else ["extra_specs"]) ++
    match o.projects with
    | some projects => if projects = o.origProjects then [] else ["projects"]
    | none => []

/-- `_load_projects`. -/
def loadProjects (o : FlavorObject) : FlavorProg FlavorObject := do
  let projects ← Flavors.loadProjects o.flavor.flavorid
  pure ({ o with projects := some projects }.objResetChanges ["projects"])

/-- Reading the attribute `projects`. -/
def getProjects (o : FlavorObject) : FlavorProg (List String × FlavorObject) :=
  match o.projects with
  | some projects => pure (projects, o)
  | none => do
    let o ← o.loadProjects
    pure (o.projects.getD [], o)

/-- The property `in_api`, which remembers when it was found to hold. -/
def checkInApi (o : FlavorObject) : FlavorProg FlavorObject :=
  if o.inApi then pure o
  else tryCatch (do
      let _ ← flavorGetFromDb o.context o.flavor.id
      pure { o with inApi := true })
    (exceptFlavorNotFound (pure o))

end FlavorObject

/-- The calls that write a flavor of the main database. -/
structure MainAccess where
  flavorAccessAdd : Context → String → String → FlavorProg Unit
  flavorAccessRemove : Context → String → String → FlavorProg Unit
  flavorExtraSpecsUpdateOrCreate :
    Context → String → List (String × String) → FlavorProg Unit
  flavorExtraSpecsDelete : Context → String → String → FlavorProg Unit

/-- The elements of a set difference, once each. -/
def setDifference (xs ys : List String) : List String := (xs.filter (fun x => x ∉ ys)).dedup

namespace FlavorObject

/-! What `save` adds and deletes; nothing where a field has not changed. -/

def addedKeys (o : FlavorObject) : List (String × String) :=
  if "extra_specs" ∈ o.objWhatChanged then o.flavor.extraSpecs else []

def deletedKeys (o : FlavorObject) : List String :=
  if "extra_specs" ∈ o.objWhatChanged then
    setDifference (Dict.keys o.origExtraSpecs) (Dict.keys o.flavor.extraSpecs)
  else []

def addedProjects (o : FlavorObject) : List String :=
  if "projects" ∈ o.objWhatChanged then setDifference (o.projects.getD []) o.origProjects else []

def deletedProjects (o : FlavorObject) : List String :=
  if "projects" ∈ o.objWhatChanged then setDifference o.origProjects (o.projects.getD []) else []

-- a set is gone through in an order of its own
variable (main : MainAccess) (order : List String → List String)

/-- `_add_access`. -/
def addAccess (o : FlavorObject) (projectId : String) : FlavorProg FlavorObject := do
  let o ← o.checkInApi
  if o.inApi then flavorAddProject o.flavor.id projectId
  else main.flavorAccessAdd o.context o.flavor.flavorid projectId
  pure o

/-- `_remove_access`. -/
def removeAccess (o : FlavorObject) (projectId : String) : FlavorProg FlavorObject := do
  let o ← o.checkInApi
  if o.inApi then flavorDelProject o.flavor.id projectId
  else main.flavorAccessRemove o.context o.flavor.flavorid projectId
  pure o

/-- `save_projects`. -/
def saveProjects (o : FlavorObject) (toAdd toDelete : List String) :
    FlavorProg FlavorObject := do
  let o ← (order toAdd).foldlM (addAccess main) o
  let o ← (order toDelete).foldlM (removeAccess main) o
  pure (o.objResetChanges ["projects"])

/-- What `save_extra_specs` adds or updates. -/
def addSpecs (o : FlavorObject) (toAdd : List (String × String)) : FlavorProg Unit :=
  if toAdd = [] then pure ()
  else if o.inApi then flavorExtraSpecsAdd o.flavor.id toAdd
  else main.flavorExtraSpecsUpdateOrCreate o.context o.flavor.flavorid toAdd

/-- The deletions of `save_extra_specs`. -/
def deleteSpec (o : FlavorObject) (key : String) : FlavorProg Unit :=
  if o.inApi then flavorExtraSpecsDel o.flavor.id key
  else main.flavorExtraSpecsDelete o.context o.flavor.flavorid key

/-- `save_extra_specs`. -/
def saveExtraSpecs (o : FlavorObject) (toAdd : List (String × String)) (toDelete : List String) :
    FlavorProg FlavorObject := do
  let o ← o.checkInApi
  o.addSpecs main toAdd
  (order toDelete).foldlM (fun _ key => o.deleteSpec main key) ()
  pure (o.objResetChanges ["extra_specs"])

/-- `if added_keys or deleted_keys:` -/
def saveChangedSpecs (o : FlavorObject) : FlavorProg FlavorObject :=
  if o.addedKeys ≠ [] ∨ o.deletedKeys ≠ [] then
    o.saveExtraSpecs main order o.flavor.extraSpecs o.deletedKeys
  else pure o

/-- `if added_projects or deleted_projects:`, with the differences of the object before its
specs were saved. -/
def saveChangedProjects (before o : FlavorObject) : FlavorProg FlavorObject :=
  if before.addedProjects ≠ [] ∨ before.deletedProjects ≠ [] then
    o.saveProjects main order before.addedProjects before.deletedProjects
  else pure o

/-- `save`. -/
def save (o : FlavorObject) : FlavorProg FlavorObject :=
  if o.objWhatChanged.any (fun f => f != "projects" && f != "extra_specs") then
    throw (.objectActionError "save" "read-only fields were changed")
  else do
    let written ← o.saveChangedSpecs main order
    o.saveChangedProjects main order written

end FlavorObject

end PolarBear.Flavors
