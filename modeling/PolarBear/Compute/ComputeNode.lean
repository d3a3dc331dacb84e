import PolarBear.Db.Query
import PolarBear.Lib.Fallible
import PolarBear.Lib.Table
import PolarBear.Services.Table

/-!
# The `compute_nodes` table

A row describes the compute node of a host. Its ids are given by the database,
and `(host, deleted)` is unique; a null host escapes the constraint. The writers
work on the table in a transaction, which the constraint may refuse.

The readers build their query in `_compute_node_select`. It hides deleted rows
for `read_deleted = "no"` and for no other value, and of the filters it is given
it does not look at `compute_node_type`.
-/

namespace PolarBear.Compute

open PolarBear.Db
open PolarBear.Fallible
open PolarBear.Services (sqlEq)

/-- A row of `compute_nodes`; times are seconds. -/
structure ComputeNodeRow where
  id : Nat
  serviceId : Option Int
  host : Option String
  uuid : Option String
  computeNodeType : String
  computeNodeMethod : Option String
  createdAt : Option Nat
  updatedAt : Option Nat
  deletedAt : Option Nat
  deleted : Nat
  deriving DecidableEq, Repr

inductive ComputeError where
  | nova (e : NovaError)
  | computeHostNotFound (host : String)
  deriving DecidableEq, Repr

/-- Two rows the unique constraint does not allow together. -/
def hostClash (r s : ComputeNodeRow) : Bool := sqlEq r.host s.host && r.deleted == s.deleted

/-- The table, with its constraint. -/
structure ComputeNodeTable where
  table : Table ComputeNodeRow ComputeNodeRow.id
  unique : table.rows.Pairwise (fun r s => hostClash r s = false)

abbrev ComputeNodeTable.rows (t : ComputeNodeTable) : List ComputeNodeRow := t.table.rows

/-- The end of a transaction. -/
def commit (t : Table ComputeNodeRow ComputeNodeRow.id) : Except ComputeError ComputeNodeTable :=
  if h : t.rows.Pairwise (fun r s => hostClash r s = false) then .ok ⟨t, h⟩
  else .error (.nova (.dbDuplicateEntry ["host", "deleted"]))

/-- The values a write sets; a column without one keeps what it has. -/
structure Values where
  serviceId : Option (Option Int)
  host : Option (Option String)
  uuid : Option (Option String)
  computeNodeType : Option (Option String)
  computeNodeMethod : Option (Option String)
  createdAt : Option (Option Nat)
  updatedAt : Option (Option Nat)
  deletedAt : Option (Option Nat)

/-- `compute_ref.update(values)`; `compute_node_type` is not nullable. -/
def Values.apply (values : Values) (r : ComputeNodeRow) : ComputeNodeRow where
  id := r.id
  serviceId := values.serviceId.getD r.serviceId
  host := values.host.getD r.host
  uuid := values.uuid.getD r.uuid
  computeNodeType := (values.computeNodeType.getD (some r.computeNodeType)).getD r.computeNodeType
  computeNodeMethod := values.computeNodeMethod.getD r.computeNodeMethod
  createdAt := values.createdAt.getD r.createdAt
  updatedAt := values.updatedAt.getD r.updatedAt
  deletedAt := values.deletedAt.getD r.deletedAt
  deleted := r.deleted

/-! ## Writers -/

/-- A new row, before `values`. -/
def blankRow (now id : Nat) : ComputeNodeRow :=
  ⟨id, none, none, none, "", none, some now, none, none, 0⟩

/-- `compute_node_create`, at time `now`. -/
def computeNodeCreate (now : Nat) (values : Values) (t : ComputeNodeTable) :
    Except ComputeError ComputeNodeTable :=
  match values.computeNodeType with
  | some (some _) =>
    commit (t.table.insert (fun id => values.apply (blankRow now id)) (fun _ => rfl))
  | _ => .error (.nova .dbError)

/-- The filter of `model_query`. -/
def shownRows (ctxt : Context) : Except ComputeError (Nat → Bool) :=
  match modelQuery ctxt none with
  | .ok shown => .ok shown
  | .error e => .error (.nova e)

/-- `compute_node_get_model`. -/
def computeNodeGetModel (ctxt : Context) (computeId : Nat) (t : ComputeNodeTable) :
    Except ComputeError ComputeNodeRow := do
  let shown ← shownRows ctxt
  match t.rows.find? (fun r => shown r.deleted && r.id == computeId) with
  | some r => .ok r
  | none => .error (.computeHostNotFound (toString computeId))

/-- `compute_node_update`; `updated_at` is always set. -/
def computeNodeUpdate (ctxt : Context) (now computeId : Nat) (values : Values)
    (t : ComputeNodeTable) : Except ComputeError ComputeNodeTable := do
  let computeRef ← computeNodeGetModel ctxt computeId t
  -- `NULL` where the column forbids it
  if values.computeNodeType = some none then .error (.nova .dbError)
  else
    let values := { values with updatedAt := some (some now) }
    commit (t.table.modify (fun r => r.id == computeRef.id) values.apply (fun _ => rfl))

/-- A row that `soft_delete` marks. -/
def ComputeNodeRow.softDelete (now : Nat) (r : ComputeNodeRow) : ComputeNodeRow :=
  { r with deleted := r.id, deletedAt := some now }

/-- `compute_node_delete`. -/
def computeNodeDelete (ctxt : Context) (now computeId : Nat) (t : ComputeNodeTable) :
    Except ComputeError ComputeNodeTable := do
  let shown ← shownRows ctxt
  let matched : ComputeNodeRow → Bool := fun r => shown r.deleted && r.id == computeId
  if t.rows.any matched then
    -- every row that the query finds is marked
    commit (t.table.modify matched (ComputeNodeRow.softDelete now) (fun _ => rfl))
  else .error (.computeHostNotFound (toString computeId))

/-! ## Readers -/

/-- The filters the readers pass. -/
structure Filters where
  computeId : Option Nat
  serviceId : Option (Option Int)
  host : Option (Option String)
  computeNodeType : Option (Option String)

/-- `filters is None`. -/
def Filters.none : Filters := ⟨.none, .none, .none, .none⟩

/-- The rows a context is shown. -/
def visible (ctxt : Context) (r : ComputeNodeRow) : Bool :=
  if ctxt.readDeleted = "no" then r.deleted == 0 else true

/-- `_compute_node_select` on the rows of a database, in the order of their ids. -/
def computeNodeSelect (ctxt : Context) (filters : Filters) (rows : List ComputeNodeRow) :
    List ComputeNodeRow :=
  rows.filter (fun r => visible ctxt r &&
    (match filters.computeId with
      | some id => r.id == id
      | .none => true) &&
    (match filters.serviceId with
      | some serviceId => r.serviceId == serviceId
      | .none => true) &&
    (match filters.host with
      | some host => r.host == host
      | .none => true))

/-! ## What the writers leave -/

theorem commit_table {t : Table ComputeNodeRow ComputeNodeRow.id} {t' : ComputeNodeTable}
    (h : commit t = .ok t') : t'.table = t := by
  unfold commit at h
  split at h
  · cases h
    rfl
  · cases h

/-- **What a deletion does**: the row of that id is marked, and no other row changes. -/
theorem computeNodeDelete_ok {ctxt : Context} {now computeId : Nat} {t t' : ComputeNodeTable}
    (h : computeNodeDelete ctxt now computeId t = .ok t') :
    (∃ r ∈ t.rows, r.id = computeId ∧ r.softDelete now ∈ t'.rows) ∧
      ∀ r ∈ t.rows, r.id ≠ computeId → r ∈ t'.rows := by
  unfold computeNodeDelete at h
  obtain ⟨shown, -, h⟩ := bind_ok_iff.mp h
  dsimp only at h
  split at h
  · next hany =>
    have htable := commit_table h
    obtain ⟨r, hr, hmatch⟩ := List.any_eq_true.mp hany
    refine ⟨⟨r, hr, ?_, ?_⟩, fun s hs hne => ?_⟩
    · exact beq_iff_eq.mp (Bool.and_eq_true_iff.mp hmatch).2
    · show _ ∈ t'.table.rows
      rw [htable]
      exact (Table.mem_modify _).mpr ⟨r, hr, by rw [if_pos hmatch]⟩
    · show _ ∈ t'.table.rows
      rw [htable]
      refine (Table.mem_modify _).mpr ⟨s, hs, ?_⟩
      rw [if_neg]
      intro hs'
      exact hne (beq_iff_eq.mp (Bool.and_eq_true_iff.mp hs').2)
  · cases h

end PolarBear.Compute
