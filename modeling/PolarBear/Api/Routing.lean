import PolarBear.Api.Version

/-!
# `version_select` after accepted registrations

Registrations of one name go through `register` one after another. As long as
every check on the way finds the meetings there are, no two registered intervals
meet (`registerAll_unambiguous`), so every version is matched by at most one
method and the order of registration does not matter for dispatch.
-/

namespace PolarBear.Api

variable {φ : Type}

/-- The method answers a request for `v`. -/
def VersionedMethod.answers (f : VersionedMethod φ) (v : APIVersionRequest) : Bool :=
  v.isMatch f.startVersion f.endVersion == some true

/-- No two methods of the list share a version. -/
def Unambiguous (L : List (VersionedMethod φ)) : Prop :=
  L.Pairwise (fun f g => ∀ v, ¬ (f.Contains v ∧ g.Contains v))

theorem unambiguous_iff (L : List (VersionedMethod φ)) : Unambiguous L ↔ ¬ Overlap L := by
  unfold Unambiguous Overlap
  rw [List.pairwise_iff_forall_sublist]
  constructor
  · intro h hover
    obtain ⟨f, g, v, hsub, hmeet⟩ := hover
    exact h hsub v hmeet
  · intro h f g hsub v hmeet
    exact h ⟨f, g, v, hsub, hmeet⟩

theorem unambiguous_perm {L L' : List (VersionedMethod φ)} (h : L.Perm L') :
    Unambiguous L ↔ Unambiguous L' :=
  h.pairwise_iff (fun hfg v hmeet => hfg v hmeet.symm)

/-! ## Registrations -/

theorem sortMethods_perm (L : List (VersionedMethod φ)) : (sortMethods L).Perm L :=
  List.perm_insertionSort _ L

/-- An accepted registration passed the check and added the method. -/
theorem register_eq {L L' : List (VersionedMethod φ)} {f : VersionedMethod φ}
    (h : register L f = some L') :
    checkForVersionsIntersection (L ++ [f]) = false ∧ L'.Perm (L ++ [f]) := by
  unfold register at h
  split at h
  · cases h
  · next hcheck =>
    cases h
    exact ⟨by simpa using hcheck, sortMethods_perm _⟩

/-- On every step of the run the check finds a meeting if there is one. -/
def StepsDetect (L : List (VersionedMethod φ)) : List (VersionedMethod φ) → Prop
  | [] => True
  | f :: fs => (Overlap (L ++ [f]) → Detected (L ++ [f])) ∧
      ∀ L', register L f = some L' → StepsDetect L' fs

/-- One accepted registration whose check is exact keeps the list unambiguous. -/
theorem register_unambiguous {L L' : List (VersionedMethod φ)} {f : VersionedMethod φ}
    (hvalid : ∀ g ∈ L ++ [f], g.Valid) (hdetect : Overlap (L ++ [f]) → Detected (L ++ [f]))
    (h : register L f = some L') : Unambiguous L' := by
  obtain ⟨hcheck, hperm⟩ := register_eq h
  rw [unambiguous_perm hperm, unambiguous_iff]
  intro hover
  have hfound := (check_iff_detected hvalid).mpr (hdetect hover)
  rw [hcheck] at hfound
  cases hfound

/-- A run of registrations only adds its methods. -/
theorem registerAll_perm :
    ∀ (fs : List (VersionedMethod φ)) {L L' : List (VersionedMethod φ)},
      registerAll L fs = some L' → L'.Perm (L ++ fs)
  | [], L, L', h => by
    cases h
    rw [List.append_nil]
  | f :: fs, L, L', h => by
    unfold registerAll at h
    split at h
    · next L₁ hstep =>
      have hrest := registerAll_perm fs h
      have hfirst := ((register_eq hstep).2).append_right fs
      rw [List.append_assoc] at hfirst
      exact hrest.trans hfirst
    · cases h

/-- **An accepted run is unambiguous**, if each of its checks is exact. -/
theorem registerAll_unambiguous :
    ∀ (fs : List (VersionedMethod φ)) {L L' : List (VersionedMethod φ)},
      (∀ g ∈ L ++ fs, g.Valid) → Unambiguous L → StepsDetect L fs →
      registerAll L fs = some L' → Unambiguous L'
  | [], L, L', _, hL, _, h => by
    cases h
    exact hL
  | f :: fs, L, L', hvalid, _, hsteps, h => by
    unfold registerAll at h
    split at h
    · next L₁ hstep =>
      have hfirst : ∀ g ∈ L ++ [f], g.Valid := by
        intro g hg
        rcases List.mem_append.mp hg with hg | hg
        · exact hvalid g (List.mem_append_left _ hg)
        · rw [List.mem_singleton.mp hg]
          exact hvalid f (List.mem_append_right _ (List.mem_cons_self ..))
      have hrest : ∀ g ∈ L₁ ++ fs, g.Valid := by
        intro g hg
        rcases List.mem_append.mp hg with hg | hg
        · exact hfirst g ((register_eq hstep).2.mem_iff.mp hg)
        · exact hvalid g (List.mem_append_right _ (List.mem_cons_of_mem _ hg))
      exact registerAll_unambiguous fs hrest
        (register_unambiguous hfirst hsteps.1 hstep) (hsteps.2 L₁ hstep) h
    · cases h

/-! ## Dispatch -/

theorem isMatch_null {v s e : APIVersionRequest} (hv : v.isNull = true) : v.isMatch s e = none := by
  unfold APIVersionRequest.isMatch
  rw [if_pos hv]

/-- For a method with a start version, `matches` is membership in the
interval. -/
theorem answers_iff {f : VersionedMethod φ} (hstart : f.startVersion.isNull = false)
    (v : APIVersionRequest) : f.answers v = true ↔ v.isNull = false ∧ f.Contains v := by
  unfold VersionedMethod.answers APIVersionRequest.isMatch VersionedMethod.Contains
  rw [hstart]
  cases v.isNull with
  | true => simp
  | false =>
    cases f.endVersion.isNull with
    | true => simp
    | false => simp

/-- `version_select` takes the first method that answers. -/
theorem versionSelect_eq_find {v : APIVersionRequest} (hv : v.isNull = false) :
    ∀ L : List (VersionedMethod φ),
      versionSelect v L = (L.find? (fun f => f.answers v)).map VersionedMethod.func
  | [] => rfl
  | f :: L => by
    unfold versionSelect
    rw [List.find?_cons]
    have hsome : v.isMatch f.startVersion f.endVersion ≠ none := by
      unfold APIVersionRequest.isMatch
      rw [hv]
      simp only [Bool.false_eq_true, if_false]
      split
      · simp
      · split
        · simp
        · split <;> simp
    unfold VersionedMethod.answers
    cases hmatch : v.isMatch f.startVersion f.endVersion with
    | none => exact absurd hmatch hsome
    | some b =>
      cases b with
      | true => rfl
      | false => exact versionSelect_eq_find hv L

/-- At most one method of an unambiguous list answers a version. -/
theorem answers_at_most_one {L : List (VersionedMethod φ)} (hvalid : ∀ f ∈ L, f.Valid)
    (hL : Unambiguous L) (v : APIVersionRequest) :
    (L.filter (fun f => f.answers v)).length ≤ 1 := by
  have hsub : (L.filter (fun f => f.answers v)).Sublist L := List.filter_sublist
  have hmem : ∀ f ∈ L.filter (fun f => f.answers v), f.Contains v := by
    intro f hf
    obtain ⟨hfL, hans⟩ := List.mem_filter.mp hf
    exact ((answers_iff (hvalid f hfL).start v).mp hans).2
  by_contra hlong
  -- the first two answers meet at `v`
  match hfilter : L.filter (fun f => f.answers v) with
  | [] => simp [hfilter] at hlong
  | [_] => simp [hfilter] at hlong
  | f :: g :: rest =>
    rw [hfilter] at hsub hmem
    have hpair : [f, g].Sublist L := List.Sublist.trans (by simp) hsub
    have hover : Overlap L := ⟨f, g, v, hpair, hmem f (by simp), hmem g (by simp)⟩
    exact absurd hover ((unambiguous_iff L).mp hL)

/-- A permutation of at most one element is the same list. -/
theorem perm_eq_of_length_le_one {α : Type} {l l' : List α} (h : l'.Perm l)
    (hone : l.length ≤ 1) : l' = l := by
  match l with
  | [] => exact h.eq_nil
  | [a] => exact h.eq_singleton
  | a :: b :: rest => simp at hone

/-- Dispatch over an unambiguous list does not depend on its order. -/
theorem versionSelect_perm {L L' : List (VersionedMethod φ)} (hvalid : ∀ f ∈ L, f.Valid)
    (hL : Unambiguous L) (hperm : L'.Perm L) (v : APIVersionRequest) :
    versionSelect v L' = versionSelect v L := by
  cases hv : v.isNull with
  | true =>
    have hnone : ∀ M : List (VersionedMethod φ), versionSelect v M = none := by
      intro M
      cases M with
      | nil => rfl
      | cons f M =>
        unfold versionSelect
        rw [isMatch_null hv]
    rw [hnone, hnone]
  | false =>
    rw [versionSelect_eq_find hv, versionSelect_eq_find hv]
    have hfilter : (L'.filter (fun f => f.answers v)).Perm (L.filter (fun f => f.answers v)) :=
      hperm.filter _
    have heq := perm_eq_of_length_le_one hfilter (answers_at_most_one hvalid hL v)
    rw [← List.head?_filter, ← List.head?_filter, heq]

/-! ## Routing -/

/-- **API version routing.** The check is exact on a list of methods precisely
when a meeting in it is detected; and after an accepted run of registrations
whose checks all are, at most one method answers each version, and any other
accepted order of the same registrations dispatches alike. -/
theorem version_routing {methods : List (VersionedMethod φ)} (hvalid : ∀ f ∈ methods, f.Valid) :
    ((checkForVersionsIntersection methods = true ↔ Overlap methods) ↔
      (Overlap methods → Detected methods)) ∧
    ∀ L, registerAll [] methods = some L → StepsDetect [] methods →
      (∀ v, (L.filter (fun f => f.answers v)).length ≤ 1) ∧
      ∀ methods' L', methods'.Perm methods → registerAll [] methods' = some L' →
        ∀ v, versionSelect v L' = versionSelect v L := by
  refine ⟨intersection_exact_iff hvalid, fun L hL hsteps => ?_⟩
  have hperm := registerAll_perm methods hL
  have hvalidL : ∀ f ∈ L, f.Valid := fun f hf => hvalid f (hperm.mem_iff.mp hf)
  have hunamb : Unambiguous L :=
    registerAll_unambiguous methods hvalid List.Pairwise.nil hsteps hL
  refine ⟨answers_at_most_one hvalidL hunamb, fun methods' L' hm hL' v => ?_⟩
  exact versionSelect_perm hvalidL hunamb
    (((registerAll_perm methods' hL').trans hm).trans hperm.symm) v

/-- A method of two versions, and its successor without an end. -/
def oldIndex : VersionedMethod String := ⟨"index", ⟨2, 1⟩, ⟨2, 5⟩, "old"⟩

def newIndex : VersionedMethod String := ⟨"index", ⟨2, 6⟩, .null, "new"⟩

theorem valid_index : ∀ f ∈ [oldIndex, newIndex], f.Valid := by
  intro f hf
  rcases List.mem_pair.mp hf with rfl | rfl
  · exact ⟨rfl, Or.inr (by decide)⟩
  · exact ⟨rfl, Or.inl rfl⟩

theorem unambiguous_index : Unambiguous [oldIndex, newIndex] := by
  unfold Unambiguous
  rw [List.pairwise_pair]
  intro v hmeet
  obtain ⟨⟨-, hold⟩, hnew, -⟩ := hmeet
  rcases hold with hnull | hold
  · exact absurd hnull (by decide)
  · exact absurd (hnew.trans hold) (by decide)

/-- Both are accepted, and no order of them dispatches otherwise. -/
theorem version_routing_index :
    ∃ L, registerAll [] [oldIndex, newIndex] = some L ∧
      (∀ v, (L.filter (fun f => f.answers v)).length ≤ 1) ∧
      ∀ methods' L', methods'.Perm [oldIndex, newIndex] → registerAll [] methods' = some L' →
        ∀ v, versionSelect v L' = versionSelect v L := by
  have hsteps : StepsDetect [] [oldIndex, newIndex] := by
    refine ⟨fun hover => ?_, fun L hL => ⟨fun hover => ?_, fun _ _ => trivial⟩⟩
    · exact absurd hover ((unambiguous_iff [oldIndex]).mp (List.pairwise_singleton _ _))
    · have hone : L = [oldIndex] := ((register_eq hL).2).eq_singleton
      rw [hone] at hover
      exact absurd hover ((unambiguous_iff [oldIndex, newIndex]).mp unambiguous_index)
  refine ⟨[newIndex, oldIndex], rfl, ?_⟩
  exact (version_routing valid_index).2 _ rfl hsteps

/-- Two methods without an end are accepted, and which of them answers depends
on the order; so are two intervals that touch, in one of their orders. -/
theorem version_routing_ambiguous :
    let first : VersionedMethod String := ⟨"index", ⟨2, 1⟩, .null, "first"⟩
    let second : VersionedMethod String := ⟨"index", ⟨2, 1⟩, .null, "second"⟩
    let upTo : VersionedMethod String := ⟨"index", ⟨2, 1⟩, ⟨2, 2⟩, "upTo"⟩
    let fromOn : VersionedMethod String := ⟨"index", ⟨2, 2⟩, ⟨2, 3⟩, "fromOn"⟩
    (∃ L L', registerAll [] [first, second] = some L ∧ registerAll [] [second, first] = some L' ∧
      versionSelect ⟨2, 1⟩ L = some "first" ∧ versionSelect ⟨2, 1⟩ L' = some "second") ∧
    checkForVersionsIntersection [first, second] = false ∧ Overlap [first, second] ∧
    checkForVersionsIntersection [upTo, fromOn] = false ∧ Overlap [upTo, fromOn] ∧
    checkForVersionsIntersection [fromOn, upTo] = true := by
  intro first second upTo fromOn
  refine ⟨⟨_, _, rfl, rfl, rfl, rfl⟩, rfl, ?_, rfl, ?_, rfl⟩
  · exact ⟨first, second, ⟨2, 1⟩, List.Sublist.refl _, ⟨by decide, Or.inl rfl⟩,
      ⟨by decide, Or.inl rfl⟩⟩
  · exact ⟨upTo, fromOn, ⟨2, 2⟩, List.Sublist.refl _, ⟨by decide, Or.inr (by decide)⟩,
      ⟨by decide, Or.inr (by decide)⟩⟩

end PolarBear.Api
