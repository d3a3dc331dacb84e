import Mathlib.Data.Fintype.Card
import Mathlib.Data.Fintype.Pigeonhole
import PolarBear.Lib.Dag
import PolarBear.Lib.Dict

/-!
# `walk_class_hierarchy`

The walk yields the subclasses of a class, most derived first. It goes down into a
subclass before it yields it, and shares the list of the classes it has encountered
with the walks below. Classes form a `Dag`: a class lists its direct subclasses,
with multiple inheritance one class may be listed by several, and none is its own
subclass. What the walk does is `Dag.Walked`, round by round (`visitSubclass_walked`).

`FaultWrapper.status_to_type` walks the HTTP errors and keeps the last class for each
code, so what it ends up with is the least derived one (`statusToType_least`).
-/

namespace PolarBear.Utils

variable {κ : Type} [DecidableEq κ]

/-- What a walk has yielded, and the classes that it has encountered. -/
abbrev Walk (κ : Type) := List κ × List κ

/-- One round of the loop: a subclass that is new is gone down into, and then yielded. -/
def visitSubclass (walk : κ → List κ → Option (Walk κ)) (state : Walk κ) (subclass : κ) :
    Option (Walk κ) :=
  if subclass ∈ state.2 then some state
  else do
    -- drill down to leaves first
    let (below, encountered) ← walk subclass (state.2 ++ [subclass])
    some (state.1 ++ (below ++ [subclass]), encountered)

/-- `walk_class_hierarchy`, on fuel. A list that is empty is replaced by a new one; the
recursion never passes an empty one. -/
def walkClassHierarchy (subclasses : κ → List κ) : Nat → κ → List κ → Option (Walk κ)
  | 0, _, _ => none
  | fuel + 1, clazz, encountered =>
    (subclasses clazz).foldlM (visitSubclass (walkClassHierarchy subclasses fuel)) ([], encountered)

/-- The classes, with their direct subclasses. -/
abbrev Hierarchy (κ : Type) := Dag κ

variable {h : Hierarchy κ}

/-- The walks below return and do their work. -/
def Walks (h : Hierarchy κ) (walk : κ → List κ → Option (Walk κ)) (clazz : κ) : Prop :=
  ∀ encountered, h.Entering clazz encountered → ∃ yielded encountered',
    walk clazz encountered = some (yielded, encountered') ∧
      h.Walked clazz encountered (h.next clazz) yielded encountered'

/-- One round. -/
theorem visitSubclass_walked {walk : κ → List κ → Option (Walk κ)} {clazz subclass : κ}
    {encountered seen yielded encountered' : List κ} (hstart : h.Entering clazz encountered)
    (hchild : subclass ∈ h.next clazz) (hwalk : Walks h walk subclass)
    (hwalked : h.Walked clazz encountered seen yielded encountered') :
    ∃ yielded' encountered'',
      visitSubclass walk (yielded, encountered') subclass = some (yielded', encountered'') ∧
        h.Walked clazz encountered (seen ++ [subclass]) yielded' encountered'' := by
  unfold visitSubclass
  dsimp only
  by_cases hin : subclass ∈ encountered'
  · rw [if_pos hin]
    exact ⟨yielded, encountered', rfl, hwalked.skip hstart hchild hin⟩
  · obtain ⟨below, encountered'', heq, hsub⟩ :=
      hwalk (encountered' ++ [subclass]) (hwalked.entering_child hstart hchild)
    rw [if_neg hin, heq]
    exact ⟨yielded ++ (below ++ [subclass]), encountered'', rfl,
      hwalked.enter (hsub.visited hchild hin)⟩

/-- The loop, with some of the subclasses seen. -/
theorem visitSubclasses_walked {walk : κ → List κ → Option (Walk κ)} {clazz : κ}
    {encountered : List κ} (hstart : h.Entering clazz encountered)
    (hwalk : ∀ subclass ∈ h.next clazz, Walks h walk subclass) :
    ∀ (rest seen yielded encountered' : List κ), seen ++ rest = h.next clazz →
      h.Walked clazz encountered seen yielded encountered' →
      ∃ yielded' encountered'',
        rest.foldlM (visitSubclass walk) (yielded, encountered') =
          some (yielded', encountered'') ∧
        h.Walked clazz encountered (h.next clazz) yielded' encountered''
  | [], seen, yielded, encountered', hseen, hwalked => by
    rw [List.append_nil] at hseen
    exact ⟨yielded, encountered', rfl, hseen ▸ hwalked⟩
  | subclass :: rest, seen, yielded, encountered', hseen, hwalked => by
    have hchild : subclass ∈ h.next clazz := by
      rw [← hseen]
      exact List.mem_append_right _ List.mem_cons_self
    obtain ⟨yielded₁, encountered₁, heq, hwalked₁⟩ :=
      visitSubclass_walked hstart hchild (hwalk subclass hchild) hwalked
    have hrest : (seen ++ [subclass]) ++ rest = h.next clazz := by
      rw [List.append_assoc, List.singleton_append, hseen]
    rw [List.foldlM_cons, heq]
    exact visitSubclasses_walked hstart hwalk rest _ _ _ hrest hwalked₁

/-- With fuel for the depth of the class. -/
theorem walkClassHierarchy_walks (h : Hierarchy κ) :
    ∀ (fuel : Nat) (clazz : κ), h.depth clazz < fuel →
      Walks h (walkClassHierarchy h.next fuel) clazz
  | 0, _, hfuel => absurd hfuel (Nat.not_lt_zero _)
  | fuel + 1, clazz, hfuel => by
    intro encountered hstart
    rw [walkClassHierarchy]
    refine visitSubclasses_walked hstart (fun subclass hchild => ?_) (h.next clazz) [] []
      encountered rfl (Dag.Walked.start h clazz encountered)
    have hdepth := Dag.depth_lt hchild
    exact walkClassHierarchy_walks h fuel subclass (by omega)

/-- Each proper subclass once, and none after one of its superclasses. -/
structure BottomUp (h : Hierarchy κ) (clazz : κ) (yielded : List κ) : Prop where
  mem_iff : ∀ c, c ∈ yielded ↔ h.Below clazz c
  nodup : yielded.Nodup
  ordered : yielded.Pairwise (fun c d => ¬ h.Below c d)

/-- **Class walking is complete and bottom-up.** For every hierarchy and every class of it, the
walk comes to an end, with fuel for the classes that have subclasses. It yields each proper
subclass once, before all of its superclasses, so the first one that is suitable has no suitable
class below it. -/
theorem walk_bottomUp (h : Hierarchy κ) (clazz : κ) {fuel : Nat}
    (hfuel : h.finite.toFinset.card < fuel) :
    ∃ yielded encountered,
      walkClassHierarchy h.next fuel clazz [] = some (yielded, encountered) ∧
      BottomUp h clazz yielded ∧
      ∀ (suitable : κ → Bool) (c : κ), yielded.find? suitable = some c →
        ∀ d, h.Below c d → suitable d = false := by
  obtain ⟨yielded, encountered, heq, hwalked⟩ := walkClassHierarchy_walks h fuel clazz
    (Nat.lt_of_le_of_lt (h.depth_le clazz) hfuel) [] (fun _ h => absurd h List.not_mem_nil)
  exact ⟨yielded, encountered, heq,
    ⟨fun _ => hwalked.mem_iff, hwalked.nodup, hwalked.ordered⟩,
    fun _ _ hfind _ hbelow => hwalked.find?_deepest hfind hbelow⟩

/-- Two kinds of errors, and one that is both. -/
inductive Diamond where
  | error
  | client
  | server
  | both
  deriving DecidableEq

instance : Fintype Diamond :=
  ⟨{.error, .client, .server, .both}, fun c => by cases c <;> decide⟩

def Diamond.subclasses : Diamond → List Diamond
  | .error => [.client, .server]
  | .client => [.both]
  | .server => [.both]
  | .both => []

def Diamond.depth : Diamond → Nat
  | .error => 2
  | .client => 1
  | .server => 1
  | .both => 0

def diamond : Hierarchy Diamond :=
  Dag.ofRank Diamond.subclasses Diamond.depth (by decide) (Set.toFinite _)

/-- The class with two bases comes first, and once. -/
theorem walk_diamond : ∃ yielded encountered,
    walkClassHierarchy diamond.next 5 .error [] = some (yielded, encountered) ∧
    BottomUp diamond .error yielded ∧
    ∀ (suitable : Diamond → Bool) (c : Diamond), yielded.find? suitable = some c →
      ∀ d, diamond.Below c d → suitable d = false :=
  walk_bottomUp diamond .error (Nat.lt_succ_of_le (Finset.card_le_univ _))

example : walkClassHierarchy Diamond.subclasses 5 .error [] =
    some ([.both, .client, .server], [.client, .both, .server]) := by decide

/-! ## The caller -/

/-- The table of `status_to_type`: `_status_to_type[clazz.code] = clazz` for each class. -/
def statusTable (code : κ → Int) (classes : List κ) : List (Int × κ) :=
  classes.foldl (fun table clazz => Dict.set (code clazz) clazz table) []

/-- `status_to_type`, on the classes of the walk. -/
def statusToType (code : κ → Int) (internal : κ) (classes : List κ) (status : Int) : κ :=
  ((statusTable code classes).lookup status).getD internal

omit [DecidableEq κ] in
/-- The last class with a code is kept. -/
theorem lookup_statusTable (code : κ → Int) (status : Int) (classes : List κ) :
    (statusTable code classes).lookup status =
      classes.reverse.find? (fun clazz => code clazz == status) := by
  induction classes using List.reverseRecOn with
  | nil => rfl
  | append_singleton classes clazz ih =>
    unfold statusTable at ih ⊢
    rw [List.foldl_append, List.foldl_cons, List.foldl_nil, List.reverse_append,
      List.reverse_singleton, List.singleton_append, List.find?_cons]
    by_cases hcode : code clazz = status
    · rw [hcode, Dict.lookup_set_self, beq_self_eq_true]
    · rw [Dict.lookup_set_ne (fun heq => hcode heq.symm), ih, beq_false_of_ne hcode]

omit [DecidableEq κ] in
/-- **The least derived class answers.** A class that is kept for a status has no superclass
below the root with the same code. -/
theorem statusToType_least {code : κ → Int} {status : Int} {root c : κ} {yielded : List κ}
    (hwalk : BottomUp h root yielded) (hkept : (statusTable code yielded).lookup status = some c) :
    code c = status ∧ h.Below root c ∧ ∀ d, h.Below root d → h.Below d c → code d ≠ status := by
  rw [lookup_statusTable] at hkept
  obtain ⟨hcode, later, earlier, hsplit, hlater⟩ := List.find?_eq_some_iff_append.mp hkept
  have hmem : c ∈ yielded :=
    List.mem_reverse.mp (hsplit ▸ List.mem_append_right _ List.mem_cons_self)
  refine ⟨beq_iff_eq.mp hcode, (hwalk.mem_iff c).mp hmem, fun d hd hbelow hsame => ?_⟩
  have hin : d ∈ later ++ c :: earlier := hsplit ▸ List.mem_reverse.mpr ((hwalk.mem_iff d).mpr hd)
  rcases List.mem_append.mp hin with hin | hin
  · have hother := hlater d hin
    rw [hsame, beq_self_eq_true] at hother
    cases hother
  rcases List.mem_cons.mp hin with rfl | hin
  · exact Dag.Below.irrefl d hbelow
  · -- `d` was yielded before `c`, so `c` is not below it
    have hordered : (later ++ c :: earlier).Pairwise (fun c d => ¬ h.Below d c) :=
      hsplit ▸ List.pairwise_reverse.mpr hwalk.ordered
    have htail := (List.pairwise_append.mp hordered).2.1
    exact (List.pairwise_cons.mp htail).1 d hin hbelow

end PolarBear.Utils
