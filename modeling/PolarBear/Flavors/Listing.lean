import PolarBear.Flavors.Flavor

/-!
# `FlavorList.get_all`

A listing takes a page from the API database and fills it up from the main one.
Each database filters what the context may see, then by the filters of the
request, then pages from the marker, which is looked up among what the context
may see. A marker that the API database does not have is looked up in the main
one, and nothing is listed from the API database then; one that it has is not
passed on.
-/

namespace PolarBear.Flavors

open Transactions Db
open Transactions.Prog (transaction reading compute)

/-- The filters of a listing. An `is_public` that is absent and one that is `None` are the same. -/
structure FlavorFilters where
  minMemoryMb : Option Int
  minRootGb : Option Int
  disabled : Option (Option Bool)
  isPublic : Option Bool
  deriving DecidableEq, Repr

/-- What a listing is asked for. -/
structure Listing where
  inactive : Bool
  filters : FlavorFilters
  sortKey : String
  sortDir : Option String
  limit : Option Int
  deriving DecidableEq, Repr

/-- The columns of a flavor. -/
def flavorColumn : String → Option (FlavorRow → SqlValue)
  | "id" => some (fun r => .int r.id)
  | "name" => some (fun r => .str r.name)
  | "memory_mb" => some (fun r => .int r.memoryMb)
  | "vcpus" => some (fun r => .int r.vcpus)
  | "root_gb" => some (fun r => .ofInt? r.rootGb)
  | "ephemeral_gb" => some (fun r => .ofInt? r.ephemeralGb)
  | "flavorid" => some (fun r => .str r.flavorid)
  | "swap" => some (fun r => .int r.swap)
  | "rxtx_factor" => some (fun r => .ofFloat? r.rxtxFactor)
  | "vcpu_weight" => some (fun r => .ofInt? r.vcpuWeight)
  | "disabled" => some (fun r => .ofBool? r.disabled)
  | "is_public" => some (fun r => .ofBool? r.isPublic)
  | "created_at" => some (fun r => .ofTime? r.createdAt)
  | "updated_at" => some (fun r => .ofTime? r.updatedAt)
  | _ => none

/-- `api_models.Flavors`. -/
def apiModel : Model FlavorRow := ⟨flavorColumn, ["extra_specs", "projects"]⟩

/-- `models.InstanceTypes`. -/
def mainModel : Model MainFlavorRow where
  column := fun key =>
    if key = "deleted" then some (fun r => .int r.deleted)
    else if key = "deleted_at" then some (fun r => .ofTime? r.deletedAt)
    else (flavorColumn key).map (fun column r => column r.toFlavorRow)
  relationships := ["extra_specs", "projects"]

/-- The filters of a request. A filter on public flavors keeps those granted to the project. -/
def FlavorFilters.keeps (filters : FlavorFilters) (ctxt : Context) (r : FlavorRow) : Bool :=
  (match filters.minMemoryMb with
    | none => true
    | some n => n ≤ r.memoryMb) &&
  (match filters.minRootGb with
    | none => true
    | some n => match r.rootGb with
      | none => false
      | some gb => n ≤ gb) &&
  (match filters.disabled with
    | none => true
    | some b => r.disabled == b) &&
  (match filters.isPublic with
    | none => true
    | some b => r.isPublic == some b ||
      (b && ctxt.projectId.isSome && r.projects.any (fun p => some p == ctxt.projectId)))

/-- `filter_by(flavorid=marker).first()`. -/
def markerRow {ρ : Type} (flavorid : ρ → String) (rows : List ρ) :
    Option String → Except NovaError (Option ρ)
  | none => .ok none
  | some marker => match rows.find? (fun r => flavorid r == marker) with
    | some r => .ok (some r)
    | none => .error (.markerNotFound marker)

/-- `_flavor_get_all_from_db`. -/
def flavorGetAllFromDb (d : Dialect) (ctxt : Context) (listing : Listing)
    (marker : Option String) : FlavorProg (List DbFlavor) :=
  reading .flavorGetAllFromDb (fun s => do
    let query := flavorGetQueryFromDb ctxt s.api
    let row ← markerRow FlavorRow.flavorid query marker
    let page ← paginateQuery d apiModel (query.filter (listing.filters.keeps ctxt)) listing.limit
      [listing.sortKey, "id"] row listing.sortDir
    .ok (page.map (fun r => r.dictWithExtraSpecs none)))

/-- `flavor_get_all`, with what is left of the limit. -/
def flavorGetAll (d : Dialect) (ctxt : Context) (listing : Listing) (limit : Option Int)
    (marker : Option String) : FlavorProg (List DbFlavor) := do
  compute (requireContext ctxt)
  reading .flavorGetAll (fun s => do
    let query ← flavorGetQuery ctxt (some (if listing.inactive then "yes" else "no")) s.main
    let row ← markerRow (fun r => r.flavorid) query marker
    let page ← paginateQuery d mainModel
      (query.filter (fun r => listing.filters.keeps ctxt r.toFlavorRow)) limit
      [listing.sortKey, "id"] row listing.sortDir
    .ok (page.map MainFlavorRow.dictWithExtraSpecs))

/-- `except exception.MarkerNotFound:` nothing is listed, and the marker is kept. -/
def exceptMarkerNotFound (marker : Option String) :
    NovaError → FlavorProg (List DbFlavor × Option String)
  | .markerNotFound _ => pure ([], marker)
  | e => throw e

/-- `FlavorList.get_all`. -/
def getAll (d : Dialect) (ctxt : Context) (listing : Listing) (marker : Option String) :
    FlavorProg (List Flavor) := do
  let (apiDbFlavors, marker) ←
    tryCatch (flavorGetAllFromDb d ctxt listing marker >>= fun flavors => pure (flavors, none))
      (exceptMarkerNotFound marker)
  let limitMore := listing.limit.map (fun n : Int => n - apiDbFlavors.length)
  let dbFlavors ←
    if limitMore.all (fun n => 0 < n) then flavorGetAll d ctxt listing limitMore marker
    else pure []
  compute ((apiDbFlavors ++ dbFlavors).mapM DbFlavor.fromDbObject)

end PolarBear.Flavors
