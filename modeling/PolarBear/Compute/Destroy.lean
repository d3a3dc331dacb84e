import PolarBear.Api.CaseSubmit
import PolarBear.Compute.ComputeNode

/-!
# Destroying a plan or a case

`TestPlan.destroy` and `TestCase.destroy` both call `compute_node_delete` with the
id of the object. So the compute node that happens to have that id is marked as
deleted, or none is found, and the object's own row stays live
(`destroy_other_table`, `destroy_not_own`).
-/

namespace PolarBear.Compute

open PolarBear.Api (TestCase)
open PolarBear.Db
open PolarBear.Fallible
open PolarBear.Report (TestPlan)
open PolarBear.Services (ServiceTable)

/-- A row with the columns that time stamps and soft deletion add. -/
structure Stored (ρ : Type) where
  columns : ρ
  createdAt : Option Nat
  updatedAt : Option Nat
  deletedAt : Option Nat
  deleted : Nat

/-- The tables of the main database that a plan, a case or a compute node touches. -/
structure MainDatabase where
  testPlans : Table (Stored TestPlan) (fun r => r.columns.id)
  testCases : Table (Stored TestCase) (fun r => r.columns.id)
  computeNodes : ComputeNodeTable
  services : ServiceTable

/-- An object that was loaded or created: its context and its id. -/
structure Loaded where
  ctxt : Context
  id : Nat

/-- `db.compute_node_delete` on the whole database; what raises is rolled back. -/
def MainDatabase.computeNodeDelete (ctxt : Context) (now computeId : Nat) (db : MainDatabase) :
    Except ComputeError MainDatabase := do
  let computeNodes ← Compute.computeNodeDelete ctxt now computeId db.computeNodes
  .ok { db with computeNodes := computeNodes }

/-- `TestPlan.destroy`. -/
def testPlanDestroy (now : Nat) (self : Loaded) (db : MainDatabase) :
    Except ComputeError MainDatabase :=
  db.computeNodeDelete self.ctxt now self.id

/-- `TestCase.destroy`. -/
def testCaseDestroy (now : Nat) (self : Loaded) (db : MainDatabase) :
    Except ComputeError MainDatabase :=
  db.computeNodeDelete self.ctxt now self.id

/-! ## The row that should be marked -/

/-- The two classes. -/
inductive Owner where
  | testPlan
  | testCase

def destroy (now : Nat) : Owner → Loaded → MainDatabase → Except ComputeError MainDatabase
  | .testPlan => testPlanDestroy now
  | .testCase => testCaseDestroy now

/-- `deleted` of the object's own row. -/
def ownMark (db : MainDatabase) (id : Nat) : Owner → Option Nat
  | .testPlan => (db.testPlans.byId id).map Stored.deleted
  | .testCase => (db.testCases.byId id).map Stored.deleted

/-- No row but the one with this id in the object's own table is changed. -/
def OnlyOwn (id : Nat) (db db' : MainDatabase) : Owner → Prop
  | .testPlan => (∀ n ≠ id, db'.testPlans.byId n = db.testPlans.byId n) ∧
      db'.testCases = db.testCases ∧ db'.computeNodes = db.computeNodes ∧
      db'.services = db.services
  | .testCase => (∀ n ≠ id, db'.testCases.byId n = db.testCases.byId n) ∧
      db'.testPlans = db.testPlans ∧ db'.computeNodes = db.computeNodes ∧
      db'.services = db.services

/-- The object's own row is marked as deleted, and nothing else is changed. -/
def DestroysOwn (now : Nat) (owner : Owner) (self : Loaded) (db : MainDatabase) : Prop :=
  ∃ db', destroy now owner self db = .ok db' ∧
    (∃ mark, ownMark db' self.id owner = some mark ∧ mark ≠ 0) ∧ OnlyOwn self.id db db' owner

/-! ## The row that is -/

theorem destroy_eq (now : Nat) (owner : Owner) (self : Loaded) (db : MainDatabase) :
    destroy now owner self db = db.computeNodeDelete self.ctxt now self.id := by
  cases owner <;> rfl

/-- **What a destruction does** when it returns: it marks the compute node with the object's
id, and changes nothing else in the database. -/
theorem destroy_other_table {now : Nat} {owner : Owner} {self : Loaded} {db db' : MainDatabase}
    (h : destroy now owner self db = .ok db') :
    db'.testPlans = db.testPlans ∧ db'.testCases = db.testCases ∧ db'.services = db.services ∧
      (∃ r ∈ db.computeNodes.rows, r.id = self.id ∧ r.softDelete now ∈ db'.computeNodes.rows) ∧
      ∀ r ∈ db.computeNodes.rows, r.id ≠ self.id → r ∈ db'.computeNodes.rows := by
  rw [destroy_eq] at h
  unfold MainDatabase.computeNodeDelete at h
  obtain ⟨computeNodes, hdelete, hdb⟩ := bind_ok_iff.mp h
  cases hdb
  obtain ⟨hmarked, hothers⟩ := computeNodeDelete_ok hdelete
  exact ⟨rfl, rfl, rfl, hmarked, hothers⟩

/-- **No live plan or case is destroyed**, whatever the database holds. -/
theorem destroy_not_own (now : Nat) (owner : Owner) (self : Loaded) (db : MainDatabase)
    (hlive : ownMark db self.id owner = some 0) : ¬ DestroysOwn now owner self db := by
  rintro ⟨db', hdestroy, ⟨mark, hmark, hne⟩, -⟩
  obtain ⟨hplans, hcases, -⟩ := destroy_other_table hdestroy
  have hsame : ownMark db' self.id owner = ownMark db self.id owner := by
    cases owner with
    | testPlan =>
      unfold ownMark
      rw [hplans]
    | testCase =>
      unfold ownMark
      rw [hcases]
  rw [hsame, hlive] at hmark
  exact hne (Option.some.inj hmark).symm

/-- A database with one live plan, one live case and one live compute node, all with id `1`. -/
def oneOfEach : MainDatabase where
  testPlans :=
    { rows := [⟨⟨⟨"", .obj [], .obj []⟩, 1, "u1", "nightly", "initing", 0, 0⟩,
        some 0, none, none, 0⟩]
      next := 2
      sorted := List.pairwise_singleton _ _
      below := by
        intro r hr
        rw [List.mem_singleton.mp hr]
        decide }
  testCases :=
    { rows := [⟨⟨1, "u2", "login", "initing", "lab", 0, 0, "0", 0⟩, some 0, none, none, 0⟩]
      next := 2
      sorted := List.pairwise_singleton _ _
      below := by
        intro r hr
        rw [List.mem_singleton.mp hr]
        decide }
  computeNodes :=
    { table :=
        { rows := [⟨1, some 1, some "lab", none, "docker", none, some 0, none, none, 0⟩]
          next := 2
          sorted := List.pairwise_singleton _ _
          below := by
            intro r hr
            rw [List.mem_singleton.mp hr]
            decide }
      unique := List.pairwise_singleton _ _ }
  services := ⟨[], ServiceTable.sound_nil⟩

/-- The plan with id `1` is live, and it is not destroyed. -/
theorem destroy_not_own_plan :
    ownMark oneOfEach 1 .testPlan = some 0 ∧
      ¬ DestroysOwn 60 .testPlan ⟨adminContext, 1⟩ oneOfEach :=
  ⟨by decide, destroy_not_own 60 .testPlan ⟨adminContext, 1⟩ oneOfEach (by decide)⟩

/-- Destroying the plan marks the compute node. -/
theorem destroy_plan_marks_node :
    ¬ DestroysOwn 60 .testPlan ⟨adminContext, 1⟩ oneOfEach ∧
      ∃ db', destroy 60 .testPlan ⟨adminContext, 1⟩ oneOfEach = .ok db' ∧
        db'.computeNodes.rows.map ComputeNodeRow.deleted = [1] := by
  have hmarks : ∃ db', destroy 60 .testPlan ⟨adminContext, 1⟩ oneOfEach = .ok db' ∧
      db'.computeNodes.rows.map ComputeNodeRow.deleted = [1] := ⟨_, rfl, rfl⟩
  refine ⟨?_, hmarks⟩
  rintro ⟨db', hdestroy, -, -, -, hnodes, -⟩
  obtain ⟨db'', hdestroy', hmarked⟩ := hmarks
  rw [hdestroy] at hdestroy'
  cases hdestroy'
  rw [hnodes] at hmarked
  cases hmarked

end PolarBear.Compute
