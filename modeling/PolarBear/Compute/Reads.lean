import PolarBear.Compute.ComputeNode
import PolarBear.Lib.Replication

/-!
# Reading compute nodes after writing them

The writers of compute nodes work in a session of the database that the context
selects. The readers build a connection of their own: `_compute_node_fetchall`
calls `get_engine(context)`, and the first parameter of `get_engine` is
`use_slave`. So the context is taken for a flag, no context is passed, and every
read goes to the slave of the main database (`reads_iff`). A read sees the last
write where the context selects the main database and its slave has caught up
(`reads_see_writes`).
-/

namespace PolarBear.Compute

open PolarBear.Db
open PolarBear.Fallible
open PolarBear.Replication

variable {κ : Type}

/-- A request context with the database it selects, if it selects one. -/
structure CellContext (κ : Type) extends Context where
  dbConnection : Option κ

/-- The databases: the main one under `none`. -/
abbrev Databases (κ : Type) : Type := Cluster (Option κ) ComputeNodeTable

/-- `get_context_manager`. -/
def getContextManager (context : Option (CellContext κ)) : Option κ :=
  context.bind CellContext.dbConnection

/-- What an engine reads: `get_engine(use_slave=, context=)`. -/
def getEngine (useSlave : Bool) (context : Option (CellContext κ)) (c : Databases κ) :
    ComputeNodeTable :=
  let db := c (getContextManager context)
  if useSlave then db.replica else db.primary

/-- A context as a truth value: it is an object without a length. -/
def CellContext.truth (_ : CellContext κ) : Bool := true

/-- `_compute_node_fetchall`, with the call `get_engine(context)`. -/
def computeNodeFetchall (ctxt : CellContext κ) (filters : Filters) (c : Databases κ) :
    List ComputeNodeRow :=
  -- the context stands where `use_slave` is expected
  let engine := getEngine ctxt.truth none c
  computeNodeSelect ctxt.toContext filters engine.rows

/-- `results[0]`, or the exception where there is none. -/
def firstResult (host : String) : List ComputeNodeRow → Except ComputeError ComputeNodeRow
  | [] => .error (.computeHostNotFound host)
  | r :: _ => .ok r

/-- The filters of `compute_node_get`. -/
def byComputeId (computeId : Nat) : Filters := { Filters.none with computeId := some computeId }

/-- The filters of `compute_node_get_by_host_and_nodename`. -/
def byHostAndType (host computeNodeType : Option String) : Filters :=
  { Filters.none with host := some host, computeNodeType := some computeNodeType }

def computeNodeGet (ctxt : CellContext κ) (computeId : Nat) (c : Databases κ) :
    Except ComputeError ComputeNodeRow :=
  firstResult (toString computeId) (computeNodeFetchall ctxt (byComputeId computeId) c)

def computeNodeGetByHostAndNodename (ctxt : CellContext κ) (host computeNodeType : Option String)
    (c : Databases κ) : Except ComputeError ComputeNodeRow :=
  firstResult (host.getD "None") (computeNodeFetchall ctxt (byHostAndType host computeNodeType) c)

def computeNodeGetAll (ctxt : CellContext κ) (c : Databases κ) : List ComputeNodeRow :=
  computeNodeFetchall ctxt Filters.none c

/-! ## Writes of a context -/

/-- The writers, with their arguments and the time. -/
inductive Write where
  | create (now : Nat) (values : Values)
  | update (now computeId : Nat) (values : Values)
  | delete (now computeId : Nat)

def applyWrite (ctxt : Context) : Write → ComputeNodeTable → Except ComputeError ComputeNodeTable
  | .create now values => computeNodeCreate now values
  | .update now computeId values => computeNodeUpdate ctxt now computeId values
  | .delete now computeId => computeNodeDelete ctxt now computeId

/-- The three reads answer as their queries do on the rows of `t`. -/
structure ReadsAre (ctxt : CellContext κ) (c : Databases κ) (t : ComputeNodeTable) : Prop where
  get : ∀ computeId, computeNodeGet ctxt computeId c =
    firstResult (toString computeId)
      (computeNodeSelect ctxt.toContext (byComputeId computeId) t.rows)
  byHost : ∀ host computeNodeType, computeNodeGetByHostAndNodename ctxt host computeNodeType c =
    firstResult (host.getD "None")
      (computeNodeSelect ctxt.toContext (byHostAndType host computeNodeType) t.rows)
  all : computeNodeGetAll ctxt c = computeNodeSelect ctxt.toContext Filters.none t.rows

/-! ## What the reads see -/

/-- A query sees no more than the query for everything. -/
theorem computeNodeSelect_none (ctxt : Context) (filters : Filters) (rows : List ComputeNodeRow) :
    computeNodeSelect ctxt filters (computeNodeSelect ctxt Filters.none rows) =
      computeNodeSelect ctxt filters rows := by
  unfold computeNodeSelect
  rw [List.filter_filter]
  refine List.filter_congr (fun r _ => ?_)
  cases visible ctxt r with
  | true => simp [Filters.none]
  | false => simp

/-- **The reads see the slave of the main database**, whatever the context selects. -/
theorem reads_iff (ctxt : CellContext κ) (c : Databases κ) (t : ComputeNodeTable) :
    ReadsAre ctxt c t ↔
      computeNodeSelect ctxt.toContext Filters.none (c none).replica.rows =
        computeNodeSelect ctxt.toContext Filters.none t.rows := by
  constructor
  · exact fun h => h.all
  · intro hshown
    have hfetch : ∀ filters, computeNodeFetchall ctxt filters c =
        computeNodeSelect ctxt.toContext filters t.rows := by
      intro filters
      show computeNodeSelect ctxt.toContext filters (c none).replica.rows = _
      rw [← computeNodeSelect_none, hshown, computeNodeSelect_none]
    exact {
      get := fun computeId => congrArg _ (hfetch _)
      byHost := fun host computeNodeType => congrArg _ (hfetch _)
      all := hfetch _ }

/-- **Reads after writes.** Along every run of writes and replication steps, the reads of a
context that selects no database see the last write once the main slave has caught up. -/
theorem reads_see_writes [DecidableEq κ] (ctxt : CellContext κ)
    (events : List (Event (Option κ) Write)) (c c' : Databases κ)
    (hrun : runEvents (applyWrite ctxt.toContext) (getContextManager (some ctxt)) events c = .ok c')
    (hmain : ctxt.dbConnection = none) (hcaught : (c' none).CaughtUp) :
    ∃ t, applyAll (applyWrite ctxt.toContext) (writes events)
        (c (getContextManager (some ctxt))).primary = .ok t ∧ ReadsAre ctxt c' t := by
  have hprimary := primary_runEvents hrun
  have hdb : getContextManager (some ctxt) = none := hmain
  refine ⟨_, hprimary, (reads_iff ctxt c' _).mpr ?_⟩
  rw [hdb, hcaught.replica_eq]

/-! ## A new compute node -/

/-- No rows on either side. -/
def emptyDatabases : Databases String := fun _ => ⟨⟨⟨[], 1, List.Pairwise.nil, by
  intro r hr
  cases hr⟩, List.Pairwise.nil⟩, []⟩

/-- A compute node on `lab`. -/
def labValues : Values :=
  ⟨none, some (some "lab"), none, some (some "docker"), none, none, none, none⟩

/-- It is created, and then replicated. -/
theorem reads_see_writes_replicated :
    ∃ c' t, runEvents (applyWrite adminContext) none
        [.write (.create 60 labValues), .replicate none] emptyDatabases = .ok c' ∧
      t.rows.map ComputeNodeRow.host = [some "lab"] ∧
      ReadsAre ⟨adminContext, none⟩ c' t := by
  obtain ⟨t, ht, hreads⟩ := reads_see_writes ⟨adminContext, none⟩
    [.write (.create 60 labValues), .replicate none] emptyDatabases _ rfl rfl rfl
  refine ⟨_, t, rfl, ?_, hreads⟩
  cases ht
  rfl

/-- Read before it is replicated, or with a context that selects a database, it is not there. -/
theorem reads_miss_writes :
    (∃ c' t, runEvents (applyWrite adminContext) none [.write (.create 60 labValues)]
        emptyDatabases = .ok c' ∧
      applyAll (applyWrite adminContext) [.create 60 labValues] (emptyDatabases none).primary =
        .ok t ∧ ¬ ReadsAre ⟨adminContext, none⟩ c' t) ∧
    (∃ c' t, runEvents (applyWrite adminContext) (some "cell1")
        [.write (.create 60 labValues), .replicate (some "cell1"), .replicate none]
        emptyDatabases = .ok c' ∧
      applyAll (applyWrite adminContext) [.create 60 labValues]
        (emptyDatabases (some "cell1")).primary = .ok t ∧
      ¬ ReadsAre ⟨adminContext, some "cell1"⟩ c' t) := by
  refine ⟨⟨_, _, rfl, rfl, fun h => ?_⟩, ⟨_, _, rfl, rfl, fun h => ?_⟩⟩
  · have hall := congrArg List.length h.all
    exact absurd hall (by decide)
  · have hall := congrArg List.length h.all
    exact absurd hall (by decide)

end PolarBear.Compute
