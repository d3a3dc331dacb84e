import Mathlib.Logic.Function.Basic
import PolarBear.Db.Query
import PolarBear.Lib.Blocks

/-!
# Deleting many floating ips

`floating_ip_bulk_destroy` takes the addresses in blocks, so that no query gets too
long: it counts what each project gives back and deletes the rows of the block. The
splitter collects addresses until a block is full. Its invariant is that the
collected addresses are as many as the counter says, and fewer than a block
(`splitFrom_cut`).

A deleted row is not shown to the next query, so with any blocks the deletion is
that of all addresses at once (`destroyBlocks_all`), and each address is processed
once (`blocks_exact`).
-/

namespace PolarBear.Networks

open PolarBear.Db
open PolarBear.Blocks

/-- A record of an ip; its address is all that is read. -/
structure IpRecord where
  address : String
  deriving DecidableEq, Repr

/-! ## The splitter -/

/-- The loop of `_ip_range_splitter`, with what has been collected and its counter. -/
def splitFrom (blockSize : Int) : List IpRecord → List String → Int → List (List String)
  | [], out, _ => if out.isEmpty then [] else [out]
  | ip :: ips, out, count =>
    if count + 1 > blockSize - 1 then (out ++ [ip.address]) :: splitFrom blockSize ips [] 0
    else splitFrom blockSize ips (out ++ [ip.address]) (count + 1)

/-- `_ip_range_splitter`: the blocks that it yields. -/
def ipRangeSplitter (ips : List IpRecord) (blockSize : Int) : List (List String) :=
  splitFrom blockSize ips [] 0

/-- The default of `block_size`. -/
def defaultBlockSize : Int := 256

/-- The blocks from a point of the loop on, with fewer collected than fill a block. -/
theorem splitFrom_cut {size : Nat} :
    ∀ (ips : List IpRecord) (out : List String), out.length < size →
      Cut size (splitFrom size ips out out.length) (out ++ ips.map IpRecord.address)
  | [], out, hout => by
    rw [List.map_nil, List.append_nil, splitFrom]
    cases out with
    | nil => exact Cut.nil
    | cons a out => exact Cut.last (List.cons_ne_nil a out) (Nat.le_of_lt hout)
  | ip :: ips, out, hout => by
    have hlength : (out ++ [ip.address]).length = out.length + 1 := List.length_append
    have hrest : out ++ (ip :: ips).map IpRecord.address =
        (out ++ [ip.address]) ++ ips.map IpRecord.address := by
      rw [List.map_cons, List.append_assoc, List.singleton_append]
    rw [hrest, splitFrom]
    split
    · next hfull =>
      -- the counter is at the size, so the block is as long
      have hblock : (out ++ [ip.address]).length = size := by omega
      have hgo : Cut size (splitFrom size ips [] 0) (ips.map IpRecord.address) :=
        splitFrom_cut ips [] (by rw [List.length_nil]; omega)
      exact hgo.cons (by omega) hblock
    · next hmore =>
      have hgo : Cut size (splitFrom size ips (out ++ [ip.address]) (out ++ [ip.address]).length)
          ((out ++ [ip.address]) ++ ips.map IpRecord.address) :=
        splitFrom_cut ips (out ++ [ip.address]) (by omega)
      rw [hlength] at hgo
      exact hgo

theorem ipRangeSplitter_cut (ips : List IpRecord) {size : Nat} (hsize : 1 ≤ size) :
    Cut size (ipRangeSplitter ips size) (ips.map IpRecord.address) :=
  splitFrom_cut ips [] (by rw [List.length_nil]; omega)

/-! ## Deleting -/

/-- A row of `floating_ips`. Ids count from one; times are seconds. -/
structure FloatingIpRow where
  id : Nat
  address : String
  projectId : Option String
  autoAssigned : Bool
  deleted : Nat
  deletedAt : Option Nat
  id_pos : 0 < id
  deriving DecidableEq, Repr

/-- `soft_delete`. -/
def FloatingIpRow.softDelete (now : Nat) (r : FloatingIpRow) : FloatingIpRow :=
  { r with deleted := r.id, deletedAt := some now }

/-- The table, and `project_id_to_quota_count`: a count that is not there is zero. -/
structure Destruction where
  rows : List FloatingIpRow
  quotaCount : Option String → Int

/-- `project_id_to_quota_count[project_id] -= 1`. -/
def countDown (quotaCount : Option String → Int) (projectId : Option String) :
    Option String → Int :=
  Function.update quotaCount projectId (quotaCount projectId - 1)

/-- The row is shown, and has one of the addresses. -/
def FloatingIpRow.hit (shown : Nat → Bool) (addresses : List String) (r : FloatingIpRow) : Bool :=
  shown r.deleted && r.address ∈ addresses

/-- One round of the loop over the blocks. -/
def destroyBlock (shown : Nat → Bool) (now : Nat) (s : Destruction) (ipBlock : List String) :
    Destruction where
  quotaCount := ((s.rows.filter (fun r => r.hit shown ipBlock && !r.autoAssigned)).map
    FloatingIpRow.projectId).foldl countDown s.quotaCount
  rows := s.rows.map (fun r => if r.hit shown ipBlock then r.softDelete now else r)

/-- `floating_ip_bulk_destroy`, up to the quotas. -/
def floatingIpBulkDestroy (ctxt : Context) (now : Nat) (rows : List FloatingIpRow)
    (ips : List IpRecord) : Except NovaError Destruction := do
  requireContext ctxt
  let shown ← modelQuery ctxt none
  .ok ((ipRangeSplitter ips defaultBlockSize).foldl (destroyBlock shown now) ⟨rows, fun _ => 0⟩)

/-- Counting down a list of projects takes off as many as the list has of each. -/
theorem foldl_countDown (projects : List (Option String)) (p : Option String) :
    ∀ quotaCount : Option String → Int,
      projects.foldl countDown quotaCount p = quotaCount p - projects.count p := by
  induction projects with
  | nil =>
    intro quotaCount
    rw [List.foldl_nil, List.count_nil]
    omega
  | cons q projects ih =>
    intro quotaCount
    rw [List.foldl_cons, ih]
    unfold countDown
    by_cases hq : q = p
    · subst hq
      rw [Function.update_self, List.count_cons_self]
      omega
    · rw [Function.update_of_ne (fun h => hq h.symm), List.count_cons_of_ne hq]

/-- How many of the rows with one of the addresses count for a project. -/
def givenBack (addresses : List String) (rows : List FloatingIpRow) (p : Option String) : Nat :=
  rows.countP (fun r => r.hit (· == 0) addresses && !r.autoAssigned && r.projectId == p)

/-- The rows with one of the addresses are deleted. -/
def without (now : Nat) (addresses : List String) (rows : List FloatingIpRow) :
    List FloatingIpRow :=
  rows.map (fun r => if r.hit (· == 0) addresses then r.softDelete now else r)

/-- One block gives back what it has of each project. -/
theorem destroyBlock_eq (now : Nat) (s : Destruction) (ipBlock : List String) :
    (destroyBlock (· == 0) now s ipBlock).rows = without now ipBlock s.rows ∧
    ∀ p, (destroyBlock (· == 0) now s ipBlock).quotaCount p =
      s.quotaCount p - givenBack ipBlock s.rows p := by
  refine ⟨rfl, fun p => ?_⟩
  show ((s.rows.filter (fun r => r.hit (· == 0) ipBlock && !r.autoAssigned)).map
    FloatingIpRow.projectId).foldl countDown s.quotaCount p = _
  unfold givenBack
  rw [foldl_countDown, List.count_eq_countP, List.countP_map, List.countP_filter]
  congr 3
  funext r
  rw [Function.comp_apply, Bool.and_comm]

/-- A deleted row has no address to be found by. -/
theorem hit_softDelete (now : Nat) (addresses : List String) (r : FloatingIpRow) :
    (r.softDelete now).hit (· == 0) addresses = false := by
  have hdead : (r.id == 0) = false := beq_false_of_ne (Nat.ne_of_gt r.id_pos)
  show ((r.id == 0) && decide (r.address ∈ addresses)) = false
  rw [hdead, Bool.false_and]

theorem hit_append (done todo : List String) (r : FloatingIpRow) :
    r.hit (· == 0) (done ++ todo) = (r.hit (· == 0) done || r.hit (· == 0) todo) := by
  unfold FloatingIpRow.hit
  rw [← Bool.and_or_distrib_left]
  simp only [List.mem_append, Bool.decide_or]

/-- **Two deletions are one**: of the rows that the first leaves the second deletes the rest. -/
theorem without_append (now : Nat) (done todo : List String) (rows : List FloatingIpRow) :
    without now todo (without now done rows) = without now (done ++ todo) rows := by
  unfold without
  rw [List.map_map]
  refine List.map_congr_left (fun r _ => ?_)
  rw [Function.comp_apply, hit_append]
  cases hdone : r.hit (· == 0) done with
  | true => rw [if_pos rfl, hit_softDelete, if_neg Bool.false_ne_true, Bool.true_or, if_pos rfl]
  | false => rw [if_neg Bool.false_ne_true, Bool.false_or]

theorem givenBack_append (now : Nat) (done todo : List String) (p : Option String)
    (rows : List FloatingIpRow) :
    givenBack (done ++ todo) rows p =
      givenBack done rows p + givenBack todo (without now done rows) p := by
  induction rows with
  | nil => rfl
  | cons r rows ih =>
    unfold givenBack without at ih ⊢
    rw [List.map_cons, List.countP_cons, List.countP_cons, List.countP_cons, ih, hit_append]
    cases hdone : r.hit (· == 0) done with
    | true =>
      -- deleted by the first, so not found by the second
      rw [if_pos rfl, hit_softDelete, Bool.true_or]
      simp only [Bool.false_and, Bool.false_eq_true, if_false]
      omega
    | false =>
      rw [if_neg Bool.false_ne_true, Bool.false_or]
      simp only [Bool.false_and, Bool.false_eq_true, if_false]
      omega

/-- **Any blocks delete what all addresses together do**: each row once, whatever the blocks. -/
theorem destroyBlocks_all (now : Nat) (blocks : List (List String)) (s : Destruction) :
    (blocks.foldl (destroyBlock (· == 0) now) s).rows = without now blocks.flatten s.rows ∧
    ∀ p, (blocks.foldl (destroyBlock (· == 0) now) s).quotaCount p =
      s.quotaCount p - givenBack blocks.flatten s.rows p := by
  induction blocks generalizing s with
  | nil =>
    have hnone : ∀ r : FloatingIpRow, r.hit (· == 0) [] = false := fun r => Bool.and_false _
    refine ⟨?_, fun p => ?_⟩
    · show s.rows = s.rows.map (fun r => if r.hit (· == 0) [] then r.softDelete now else r)
      simp only [hnone, Bool.false_eq_true, if_false, List.map_id']
    · have hzero : givenBack [] s.rows p = 0 :=
        List.countP_eq_zero.mpr (fun r _ => by simp [hnone])
      show s.quotaCount p = s.quotaCount p - givenBack [] s.rows p
      rw [hzero]
      omega
  | cons block blocks ih =>
    obtain ⟨hrows, hcount⟩ := destroyBlock_eq now s block
    obtain ⟨hrows', hcount'⟩ := ih (destroyBlock (· == 0) now s block)
    rw [List.foldl_cons, List.flatten_cons]
    refine ⟨?_, fun p => ?_⟩
    · rw [hrows', hrows, without_append]
    · rw [hcount', hcount, hrows, givenBack_append now]
      omega

/-- In a context that hides deleted rows, the call deletes the rows with one of the addresses, and
counts each of them that was not auto-assigned for its project. -/
theorem floatingIpBulkDestroy_eq {ctxt : Context} (hctxt : requireContext ctxt = .ok ())
    (hhide : ctxt.readDeleted = "no") (now : Nat) (rows : List FloatingIpRow)
    (ips : List IpRecord) :
    ∃ s, floatingIpBulkDestroy ctxt now rows ips = .ok s ∧
      s.rows = without now (ips.map IpRecord.address) rows ∧
      ∀ p, s.quotaCount p = - (givenBack (ips.map IpRecord.address) rows p : Int) := by
  have hcut : Cut 256 (ipRangeSplitter ips defaultBlockSize) (ips.map IpRecord.address) :=
    ipRangeSplitter_cut ips (by decide)
  have hall := destroyBlocks_all now (ipRangeSplitter ips defaultBlockSize) ⟨rows, fun _ => 0⟩
  rw [hcut.flatten] at hall
  refine ⟨_, ?_, hall.1, fun p => ?_⟩
  · unfold floatingIpBulkDestroy
    rw [hctxt, modelQuery_hides hhide]
    rfl
  · rw [hall.2]
    exact Int.zero_sub _

/-- **Block splitting loses nothing.** The blocks of any list of records, for any block size of
at least 1: none is empty, none is longer than the size, all but the last are as long, and they
are the addresses in order. So each address is processed once: the bulk deletion deletes the
rows with one of them, and counts each that was not auto-assigned once for its project. -/
theorem blocks_exact (ips : List IpRecord) {blockSize : Int} (hsize : 1 ≤ blockSize) :
    (∀ block ∈ ipRangeSplitter ips blockSize, block ≠ [] ∧ (block.length : Int) ≤ blockSize) ∧
    (∀ block ∈ (ipRangeSplitter ips blockSize).dropLast, (block.length : Int) = blockSize) ∧
    (ipRangeSplitter ips blockSize).flatten = ips.map IpRecord.address ∧
    ∀ ctxt : Context, requireContext ctxt = .ok () → ctxt.readDeleted = "no" →
      ∀ (now : Nat) (rows : List FloatingIpRow),
        ∃ s, floatingIpBulkDestroy ctxt now rows ips = .ok s ∧
          s.rows = without now (ips.map IpRecord.address) rows ∧
          ∀ p, s.quotaCount p = - (givenBack (ips.map IpRecord.address) rows p : Int) := by
  obtain ⟨size, rfl⟩ := Int.eq_ofNat_of_zero_le (show 0 ≤ blockSize by omega)
  have hcut := ipRangeSplitter_cut ips (Int.ofNat_le.mp hsize)
  refine ⟨fun block hblock => ⟨hcut.ne_nil block hblock, ?_⟩, fun block hblock => ?_, hcut.flatten,
    fun ctxt hctxt hhide now rows => floatingIpBulkDestroy_eq hctxt hhide now rows ips⟩
  · exact Int.ofNat_le.mpr (hcut.le_size block hblock)
  · exact congrArg Int.ofNat (hcut.full block hblock)

/-- Four addresses in blocks of two, and their deletion. -/
theorem blocks_of_two :
    (ipRangeSplitter [⟨"10.0.0.1"⟩, ⟨"10.0.0.2"⟩, ⟨"10.0.0.3"⟩, ⟨"10.0.0.4"⟩] 2).flatten =
      ["10.0.0.1", "10.0.0.2", "10.0.0.3", "10.0.0.4"] ∧
    ∃ s, floatingIpBulkDestroy adminContext 20
        [⟨1, "10.0.0.3", some "lab", false, 0, none, by decide⟩]
        [⟨"10.0.0.1"⟩, ⟨"10.0.0.2"⟩, ⟨"10.0.0.3"⟩, ⟨"10.0.0.4"⟩] = .ok s ∧
      s.rows = [⟨1, "10.0.0.3", some "lab", false, 1, some 20, by decide⟩] := by
  obtain ⟨-, -, hflatten, hdestroy⟩ :=
    blocks_exact [⟨"10.0.0.1"⟩, ⟨"10.0.0.2"⟩, ⟨"10.0.0.3"⟩, ⟨"10.0.0.4"⟩]
      (show (1 : Int) ≤ 2 by decide)
  obtain ⟨s, hs, hrows, -⟩ := hdestroy adminContext rfl rfl 20
    [⟨1, "10.0.0.3", some "lab", false, 0, none, by decide⟩]
  exact ⟨hflatten, s, hs, hrows⟩

end PolarBear.Networks
