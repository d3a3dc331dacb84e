import Mathlib.Data.Finset.Card
import Mathlib.Data.Set.Finite.Basic
import Mathlib.Logic.Relation

/-!
# Walking what lies below a node

A `Dag` gives each node the nodes it leads to, without a cycle, and only finitely
many nodes lead anywhere. Its nodes may be any type.

A walk enters the nodes below a start, each of them once, and remembers those it
has entered in all branches together. A node is handed out when everything below it
has been. `Entering` is what such a walk may start from: what was entered before is
either complete or lies above. `Walked` is what it has done when it is through with
some of the nodes that the start leads to; it grows by a node that was entered
already (`Walked.skip`) or by a whole walk below a new one (`Walked.enter`). In the
end every node below the start has been handed out, once, and after all that lie
below it (`Walked.complete`, `Walked.mem_iff`).
-/

namespace PolarBear

open Relation

/-- A directed graph without cycles. -/
structure Dag (κ : Type) where
  next : κ → List κ
  acyclic : ∀ a, ¬ TransGen (fun a b => b ∈ next a) a a
  finite : {a | next a ≠ []}.Finite

namespace Dag

variable {κ : Type} (g : Dag κ)

/-- `b` lies below `a`. -/
def Below (a b : κ) : Prop := TransGen (fun a b => b ∈ g.next a) a b

variable {g} {a b c root child : κ} {seen seen' entered entered' out sub : List κ}

theorem Below.of_next (h : b ∈ g.next a) : g.Below a b := TransGen.single h

theorem Below.trans (h : g.Below a b) (h' : g.Below b c) : g.Below a c := TransGen.trans h h'

theorem Below.irrefl (a : κ) : ¬ g.Below a a := g.acyclic a

/-- A graph along which a rank decreases has no cycle. -/
def ofRank (next : κ → List κ) (rank : κ → Nat) (hrank : ∀ a, ∀ b ∈ next a, rank b < rank a)
    (hfinite : {a | next a ≠ []}.Finite) : Dag κ where
  next := next
  acyclic := by
    have hdown : ∀ {a b}, TransGen (fun a b => b ∈ next a) a b → rank b < rank a := by
      intro a b h
      induction h with
      | single h => exact hrank _ _ h
      | tail _ h ih => exact Nat.lt_trans (hrank _ _ h) ih
    exact fun a h => Nat.lt_irrefl _ (hdown h)
  finite := hfinite

/-- What lies below a node is one of its next nodes or below one of them. -/
theorem below_iff : g.Below a b ↔ ∃ c ∈ g.next a, c = b ∨ g.Below c b := by
  unfold Below
  rw [TransGen.head'_iff]
  exact ⟨fun ⟨c, hc, h⟩ => ⟨c, hc, reflTransGen_iff_eq_or_transGen.mp h |>.imp_left Eq.symm⟩,
    fun ⟨c, hc, h⟩ => ⟨c, hc, reflTransGen_iff_eq_or_transGen.mpr (h.imp_left Eq.symm)⟩⟩

/-! ## Depth -/

open Classical in
/-- How many nodes that lead on there are from a node downwards. -/
noncomputable def depth (g : Dag κ) (a : κ) : Nat :=
  (g.finite.toFinset.filter (fun b => a = b ∨ g.Below a b)).card

open Classical in
/-- The depth decreases along the graph. -/
theorem depth_lt (h : b ∈ g.next a) : g.depth b < g.depth a := by
  have ha : a ∈ g.finite.toFinset :=
    g.finite.mem_toFinset.mpr (List.ne_nil_of_mem h)
  refine Finset.card_lt_card (Finset.ssubset_iff_subset_ne.mpr ⟨fun c hc => ?_, fun heq => ?_⟩)
  · obtain ⟨hc, hbelow⟩ := Finset.mem_filter.mp hc
    refine Finset.mem_filter.mpr ⟨hc, .inr ?_⟩
    rcases hbelow with rfl | hbelow
    · exact Below.of_next h
    · exact (Below.of_next h).trans hbelow
  · -- `a` itself is not found from `b`
    have hin : a ∈ g.finite.toFinset.filter (fun c => b = c ∨ g.Below b c) := by
      rw [heq]
      exact Finset.mem_filter.mpr ⟨ha, .inl rfl⟩
    rcases (Finset.mem_filter.mp hin).2 with rfl | hback
    · exact Below.irrefl b (Below.of_next h)
    · exact Below.irrefl a ((Below.of_next h).trans hback)

open Classical in
theorem depth_le (g : Dag κ) (a : κ) : g.depth a ≤ g.finite.toFinset.card :=
  Finset.card_filter_le _ _

/-! ## A walk -/

/-- Everything below the node has been entered. -/
def Done (g : Dag κ) (entered : List κ) (a : κ) : Prop := ∀ b, g.Below a b → b ∈ entered

/-- What was entered is complete, or lies above the root. -/
def Entering (g : Dag κ) (root : κ) (entered : List κ) : Prop :=
  ∀ a ∈ entered, g.Done entered a ∨ a = root ∨ g.Below a root

/-- A walk below a root that has seen some of its next nodes: it started with `entered`, is
at `entered'`, and has handed out `out`. -/
structure Walked (g : Dag κ) (root : κ) (entered seen out entered' : List κ) : Prop where
  mem : ∀ a, a ∈ entered' ↔ a ∈ entered ∨ a ∈ out
  fresh : ∀ a ∈ out, a ∉ entered
  nodup : out.Nodup
  below : ∀ a ∈ out, g.Below root a
  done : ∀ a ∈ out, g.Done entered' a
  seen : ∀ a ∈ seen, a ∈ entered' ∧ g.Done entered' a
  ordered : out.Pairwise (fun a b => ¬ g.Below a b)

theorem Walked.start (g : Dag κ) (root : κ) (entered : List κ) :
    g.Walked root entered [] [] entered where
  mem := fun _ => ⟨.inl, fun h => h.resolve_right List.not_mem_nil⟩
  fresh := fun _ h => absurd h List.not_mem_nil
  nodup := List.nodup_nil
  below := fun _ h => absurd h List.not_mem_nil
  done := fun _ h => absurd h List.not_mem_nil
  seen := fun _ h => absurd h List.not_mem_nil
  ordered := List.Pairwise.nil

theorem Done.mono (h : g.Done entered a) (hsub : ∀ a ∈ entered, a ∈ entered') :
    g.Done entered' a := fun b hb => hsub b (h b hb)

/-- What was entered before stays so. -/
theorem Walked.kept (h : g.Walked root entered seen out entered') :
    ∀ a ∈ entered, a ∈ entered' := fun a ha => (h.mem a).mpr (.inl ha)

/-- In the middle of a walk, too, what was entered is complete or lies above. -/
theorem Walked.entering (h : g.Walked root entered seen out entered')
    (hstart : g.Entering root entered) : g.Entering root entered' := by
  intro a ha
  rcases (h.mem a).mp ha with ha | ha
  · exact (hstart a ha).imp_left (fun hdone => hdone.mono h.kept)
  · exact .inl (h.done a ha)

/-- A next node that was entered already is complete: it does not lie above. -/
theorem Walked.skip (h : g.Walked root entered seen out entered')
    (hstart : g.Entering root entered) (hchild : child ∈ g.next root) (hin : child ∈ entered') :
    g.Walked root entered (seen ++ [child]) out entered' := by
  have hdone : g.Done entered' child := by
    rcases h.entering hstart child hin with hdone | rfl | hup
    · exact hdone
    · exact absurd (Below.of_next hchild) (Below.irrefl _)
    · exact absurd ((Below.of_next hchild).trans hup) (Below.irrefl _)
  exact { h with
    seen := List.forall_mem_append.mpr ⟨h.seen, List.forall_mem_singleton.mpr ⟨hin, hdone⟩⟩ }

/-- A walk below a new next node may start. -/
theorem Walked.entering_child (h : g.Walked root entered seen out entered')
    (hstart : g.Entering root entered) (hchild : child ∈ g.next root) :
    g.Entering child (entered' ++ [child]) := by
  intro a ha
  rcases List.mem_append.mp ha with ha | ha
  · rcases h.entering hstart a ha with hdone | rfl | hup
    · exact .inl (hdone.mono (fun a ha => List.mem_append_left _ ha))
    · exact .inr (.inr (Below.of_next hchild))
    · exact .inr (.inr (hup.trans (Below.of_next hchild)))
  · exact .inr (.inl (List.mem_singleton.mp ha))

/-- A root all of whose next nodes have been seen is complete. -/
theorem Walked.complete (h : g.Walked root entered (g.next root) out entered') :
    g.Done entered' root := by
  intro b hb
  obtain ⟨c, hc, hcb⟩ := below_iff.mp hb
  obtain ⟨hin, hdone⟩ := h.seen c hc
  rcases hcb with rfl | hcb
  · exact hin
  · exact hdone b hcb

/-- A visit of a new next node: what it hands out ends with the node itself, which is complete
then. -/
structure Visited (g : Dag κ) (root : κ) (entered : List κ) (child : κ)
    (out entered' : List κ) : Prop where
  mem : ∀ a, a ∈ entered' ↔ a ∈ entered ∨ a ∈ out
  fresh : ∀ a ∈ out, a ∉ entered
  nodup : out.Nodup
  below : ∀ a ∈ out, g.Below root a
  done : ∀ a ∈ out, g.Done entered' a
  child_mem : child ∈ out
  ordered : out.Pairwise (fun a b => ¬ g.Below a b)

/-- **The walk below a new next node**, which is handed out after it. -/
theorem Walked.visited (hsub : g.Walked child (entered ++ [child]) (g.next child) out entered')
    (hchild : child ∈ g.next root) (hnew : child ∉ entered) :
    g.Visited root entered child (out ++ [child]) entered' where
  mem := by
    intro a
    rw [hsub.mem, List.mem_append, List.mem_append]
    tauto
  fresh := List.forall_mem_append.mpr
    ⟨fun a ha hold => hsub.fresh a ha (List.mem_append_left _ hold),
      List.forall_mem_singleton.mpr hnew⟩
  nodup := by
    refine List.nodup_append.mpr ⟨hsub.nodup, List.nodup_singleton _, fun a ha b hb heq => ?_⟩
    have hself : a ∈ [child] := List.mem_singleton.mpr (heq.trans (List.mem_singleton.mp hb))
    exact hsub.fresh a ha (List.mem_append_right _ hself)
  below := List.forall_mem_append.mpr
    ⟨fun a ha => (Below.of_next hchild).trans (hsub.below a ha),
      List.forall_mem_singleton.mpr (Below.of_next hchild)⟩
  done := List.forall_mem_append.mpr ⟨hsub.done, List.forall_mem_singleton.mpr hsub.complete⟩
  child_mem := List.mem_append_right _ List.mem_cons_self
  ordered := by
    refine List.pairwise_append.mpr ⟨hsub.ordered, List.pairwise_singleton _ _,
      fun a ha b hb hab => ?_⟩
    rw [List.mem_singleton.mp hb] at hab
    exact Below.irrefl child ((hsub.below a ha).trans hab)

/-- A visit goes on from where the walk is. -/
theorem Walked.enter {entered'' : List κ} (h : g.Walked root entered seen out entered')
    (hvisited : g.Visited root entered' child sub entered'') :
    g.Walked root entered (seen ++ [child]) (out ++ sub) entered'' := by
  have hkept : ∀ a ∈ entered', a ∈ entered'' := fun a ha => (hvisited.mem a).mpr (.inl ha)
  exact {
    mem := by
      intro a
      rw [hvisited.mem, h.mem, List.mem_append, or_assoc]
    fresh := List.forall_mem_append.mpr
      ⟨h.fresh, fun a ha hold => hvisited.fresh a ha (h.kept a hold)⟩
    nodup := List.nodup_append.mpr ⟨h.nodup, hvisited.nodup, fun a ha b hb heq =>
      hvisited.fresh b hb (heq ▸ (h.mem a).mpr (.inr ha))⟩
    below := List.forall_mem_append.mpr ⟨h.below, hvisited.below⟩
    done := List.forall_mem_append.mpr ⟨fun a ha => (h.done a ha).mono hkept, hvisited.done⟩
    seen := by
      have hchild : child ∈ entered'' := (hvisited.mem child).mpr (.inr hvisited.child_mem)
      exact List.forall_mem_append.mpr
        ⟨fun a ha => ⟨hkept a (h.seen a ha).1, (h.seen a ha).2.mono hkept⟩,
          List.forall_mem_singleton.mpr ⟨hchild, hvisited.done child hvisited.child_mem⟩⟩
    ordered := by
      -- what is below an earlier node was entered before
      refine List.pairwise_append.mpr ⟨h.ordered, hvisited.ordered, fun a ha b hb hab => ?_⟩
      exact hvisited.fresh b hb (h.done a ha b hab) }

/-! ## From the start -/

/-- A whole walk hands out what lies below its root. -/
theorem Walked.mem_iff (h : g.Walked root [] (g.next root) out entered') :
    a ∈ out ↔ g.Below root a := by
  refine ⟨h.below a, fun ha => ?_⟩
  exact ((h.mem a).mp (h.complete a ha)).resolve_left List.not_mem_nil

/-- **The first node with a property** has none below it that has it. -/
theorem Walked.find?_deepest (h : g.Walked root [] (g.next root) out entered') {p : κ → Bool}
    (hfind : out.find? p = some a) (hb : g.Below a b) : p b = false := by
  obtain ⟨-, before, after, rfl, hbefore⟩ := List.find?_eq_some_iff_append.mp hfind
  have hroot : g.Below root a :=
    h.mem_iff.mp (List.mem_append_right _ List.mem_cons_self)
  rcases List.mem_append.mp (h.mem_iff.mpr (hroot.trans hb)) with hin | hin
  · simpa using hbefore b hin
  rcases List.mem_cons.mp hin with rfl | hin
  · exact absurd hb (Below.irrefl b)
  · have hordered := (List.pairwise_append.mp h.ordered).2.1
    exact absurd hb ((List.pairwise_cons.mp hordered).1 b hin)

end Dag

end PolarBear
