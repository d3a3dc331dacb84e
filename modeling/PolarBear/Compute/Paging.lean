import PolarBear.Compute.Lookup
import PolarBear.Lib.Paging

/-!
# Paging over compute nodes

`compute_node_get_all_by_pagination` asks for the rows after a marker. The marker
is looked up first, with the query that the page itself is read with, so what is
hidden is no marker. Over a fixed table the pages are what `compute_node_get_all`
returns (`paging_exact`).
-/

namespace PolarBear.Compute

open PolarBear.Db
open PolarBear.Fallible
open PolarBear.Paging

variable {κ : Type}

/-- `select.limit`. -/
def limited (limit : Option Nat) (rows : List ComputeNodeRow) : List ComputeNodeRow :=
  match limit with
  | some limit => rows.take limit
  | none => rows

/-- The check of a marker: `compute_node_get`, with its exception translated. -/
def checkMarker (ctxt : CellContext κ) (marker : Nat) (c : Databases κ) :
    Except ComputeError Unit :=
  match computeNodeGet ctxt marker c with
  | .ok _ => .ok ()
  | .error (.computeHostNotFound _) => .error (.nova (.markerNotFound (toString marker)))
  | .error e => .error e

/-- `_compute_node_fetchall` with its four arguments. -/
def computeNodeFetchPage (ctxt : CellContext κ) (filters : Filters) (limit marker : Option Nat)
    (c : Databases κ) : Except ComputeError (List ComputeNodeRow) :=
  let selected := computeNodeFetchall ctxt filters c
  match marker with
  | some marker => do
    checkMarker ctxt marker c
    .ok (limited limit (selected.filter (fun r => decide (marker < r.id))))
  | none => .ok (limited limit selected)

/-- `compute_node_get_all_by_pagination`. -/
def computeNodeGetAllByPagination (ctxt : CellContext κ) (limit marker : Option Nat)
    (c : Databases κ) : Except ComputeError (List ComputeNodeRow) :=
  computeNodeFetchPage ctxt Filters.none limit marker c

/-! ## The pages of a table -/

section

variable (ctxt : CellContext κ) (t : ComputeNodeTable)

theorem computeNodeGetAll_fixed :
    computeNodeGetAll ctxt (fixedTable t) = t.rows.filter (visible ctxt.toContext) := by
  unfold computeNodeGetAll computeNodeFetchall computeNodeSelect Filters.none
  simp only [Bool.and_true]
  rfl

/-- The ids increase along every selection. -/
theorem filter_sorted (p : ComputeNodeRow → Bool) :
    (t.rows.filter p).Pairwise (fun r s => r.id < s.id) := t.table.sorted.filter p

/-- A marker is the id of a row that the context is shown. -/
theorem checkMarker_fixed (marker : Nat) :
    checkMarker ctxt marker (fixedTable t) =
      if ∃ r ∈ t.rows, visible ctxt.toContext r = true ∧ r.id = marker then .ok ()
      else .error (.nova (.markerNotFound (toString marker))) := by
  unfold checkMarker
  rw [computeNodeGet_fixed]
  by_cases hseen : ∃ r ∈ t.rows, visible ctxt.toContext r = true ∧ r.id = marker
  · rw [if_pos hseen]
    obtain ⟨r, hr, hvisible, rfl⟩ := hseen
    rw [find?_id hr (visible ctxt.toContext), if_pos hvisible]
    rfl
  · have hnone : t.rows.find? (fun r => visible ctxt.toContext r && r.id == marker) = none := by
      rw [List.find?_eq_none]
      intro r hr hp
      rw [Bool.and_eq_true_iff, beq_iff_eq] at hp
      exact hseen ⟨r, hr, hp⟩
    rw [if_neg hseen, hnone]
    rfl

/-- **The reader hands out the rows** that the context is shown. -/
theorem pages_fixed (limit : Nat) :
    Pages ComputeNodeRow.id
      (fun marker => computeNodeGetAllByPagination ctxt (some limit) marker (fixedTable t)) limit
      (computeNodeGetAll ctxt (fixedTable t)) where
  first := rfl
  after := by
    intro done r rest hrows
    have hall := computeNodeGetAll_fixed ctxt t
    have hmem : r ∈ t.rows.filter (visible ctxt.toContext) := by
      rw [← hall, hrows]
      exact List.mem_append_right _ (List.mem_cons_self ..)
    have hsorted := filter_sorted t (visible ctxt.toContext)
    rw [← hall, hrows] at hsorted
    obtain ⟨hr, hvisible⟩ := List.mem_filter.mp hmem
    show (checkMarker ctxt r.id (fixedTable t) >>= fun _ => Except.ok (limited (some limit)
      ((computeNodeGetAll ctxt (fixedTable t)).filter (fun s => decide (r.id < s.id))))) = _
    rw [checkMarker_fixed, if_pos ⟨r, hr, hvisible, rfl⟩, hrows, filter_after hsorted]
    rfl

end

/-- **Paging over compute nodes is exact.** The pages of a size of at least 1 are, one after the
other, all live rows in the order of their ids, as `compute_node_get_all` returns them, once there
is fuel for them; and a marker that is not the id of a live row is refused. -/
theorem paging_exact (ctxt : CellContext κ) (hctxt : ctxt.readDeleted = "no")
    (t : ComputeNodeTable) {limit : Nat} (hlimit : 1 ≤ limit) :
    (∀ fuel, t.rows.length < fuel → collect ComputeNodeRow.id
      (fun marker => computeNodeGetAllByPagination ctxt (some limit) marker (fixedTable t))
      fuel none = some (.ok (computeNodeGetAll ctxt (fixedTable t)))) ∧
    computeNodeGetAll ctxt (fixedTable t) = t.rows.filter (fun r => r.deleted == 0) ∧
    (computeNodeGetAll ctxt (fixedTable t)).Pairwise (fun r s => r.id < s.id) ∧
    ∀ size marker, (∀ r ∈ t.rows, r.deleted = 0 → r.id ≠ marker) →
      computeNodeGetAllByPagination ctxt size (some marker) (fixedTable t) =
        .error (.nova (.markerNotFound (toString marker))) := by
  have hvisible : visible ctxt.toContext = fun r => r.deleted == 0 := by
    funext r
    unfold visible
    rw [if_pos hctxt]
  have hall := computeNodeGetAll_fixed ctxt t
  refine ⟨fun fuel hfuel => ?_, ?_, ?_, fun size marker hmarker => ?_⟩
  · refine collect_eq (pages_fixed ctxt t limit) hlimit (Nat.lt_of_le_of_lt ?_ hfuel)
    rw [hall]
    exact List.length_filter_le _ _
  · rw [hall, hvisible]
  · rw [hall]
    exact filter_sorted t _
  · have hunseen : ¬ ∃ r ∈ t.rows, visible ctxt.toContext r = true ∧ r.id = marker := by
      rintro ⟨r, hr, hvis, hid⟩
      rw [hvisible] at hvis
      exact hmarker r hr (beq_iff_eq.mp hvis) hid
    show (checkMarker ctxt marker (fixedTable t) >>= fun _ => _) = _
    rw [checkMarker_fixed, if_neg hunseen]
    rfl

/-- The one node of `lab`, in pages of one: a second, empty page ends the list. -/
theorem paging_lab :
    collect ComputeNodeRow.id
        (fun marker => computeNodeGetAllByPagination (⟨adminContext, none⟩ : CellContext String)
          (some 1) marker (fixedTable labTables.computeNodes.toComputeNodeTable)) 2 none =
      some (.ok [labNode]) :=
  (paging_exact ⟨adminContext, none⟩ rfl labTables.computeNodes.toComputeNodeTable
    (Nat.le_refl 1)).1 2 (by decide)

end PolarBear.Compute
