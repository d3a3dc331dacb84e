import Mathlib.Data.List.Perm.Subperm
import PolarBear.Quota.RefreshRun

/-!
# The order of a refresh

`work.pop()` takes the resources of a refresh in an arbitrary order. The resources
that are due are the same in every order, and whatever a due resource's sync
function reports is refreshed, by this function or by another one that reports on
the resource first (`mem_allReported_iff`). No function is called twice, since it
reports on every resource it is registered for.

Which counts the rows end with depends on the order where a function reports on a
resource of another one, which is then not called any more, and leaves out what
that one reports. Where the functions are `Compatible`, the order does not matter
(`orderIndependent`).
-/

namespace PolarBear.Quota

/-- The sync functions: the one a resource is registered with, by its name, and
what a function reports. -/
structure SyncFunctions where
  sync : String → Option String
  report : String → List (String × Int)

/-- The functions that a refresh calls. -/
def SyncFunctions.UsedBy (syncs : SyncFunctions) (env : RefreshEnv) : Prop :=
  ∀ res, env.sync res = (syncs.sync res).map syncs.report

/-- Every function reports on the resources it is registered for. -/
def SyncFunctions.ReportsOwn (syncs : SyncFunctions) : Prop :=
  ∀ res name, syncs.sync res = some name → res ∈ Dict.keys (syncs.report name)

/-- Functions that report on one resource report the same count, and one that
reports on a resource of another function reports all that this one does. -/
structure SyncFunctions.Compatible (syncs : SyncFunctions) : Prop where
  agree : ∀ f g res v w, lastOf (syncs.report f) res = some v →
    lastOf (syncs.report g) res = some w → v = w
  closed : ∀ f res g, res ∈ Dict.keys (syncs.report f) → syncs.sync res = some g →
    ∀ q ∈ Dict.keys (syncs.report g), q ∈ Dict.keys (syncs.report f)

/-- The functions that were called, in order. -/
def SyncFunctions.calls (syncs : SyncFunctions) (pops : List (String × Bool)) : List String :=
  pops.filterMap (fun p => if p.2 then syncs.sync p.1 else none)

/-- `in_use` of the row of a resource. -/
def Refresh.inUse (s : Refresh) (res : String) : Option Int :=
  (s.picked res).map QuotaUsage.inUse

/-- A refresh ends whatever is popped, calls no function twice, and leaves the same
counts in every order. -/
structure OrderIndependent (env : RefreshEnv) (syncs : SyncFunctions) (force : Bool)
    (keys : List String) (s : Refresh) : Prop where
  terminates : ∀ pops st, Pops env force (s, keys) pops st → pops.length ≤ keys.length ∧
    ∀ res ∈ st.2, ∃ st', refreshResource env force st res = .ok st'
  once : ∀ pops st, Pops env force (s, keys) pops st → (syncs.calls pops).Nodup
  same : ∀ pops pops' st st', Pops env force (s, keys) pops st →
    Pops env force (s, keys) pops' st' → st.2 = [] → st'.2 = [] →
    ∀ q, st.1.inUse q = st'.1.inUse q

section

variable {env : RefreshEnv} {syncs : SyncFunctions} {force : Bool} {keys : List String}
variable {s : Refresh}

/-! ## Every round succeeds -/

/-- A resource with a sync function can be popped. -/
theorem exists_refreshResource (hown : s.OwnRows) {work : List String} {res : String}
    (hres : res ∈ work) (hsync : (env.sync res).isSome = true) :
    ∃ st', refreshResource env force (s, work) res = .ok st' := by
  obtain ⟨updates, hupdates⟩ := Option.isSome_iff_exists.mp hsync
  obtain ⟨row, hrow⟩ := picked_created env hown res
  obtain ⟨due, hdue⟩ : ∃ due, refreshDue env force res (createQuotaUsageIfMissing env res s) =
      .ok due := by
    unfold refreshDue
    split
    · exact ⟨_, rfl⟩
    · unfold checkRefresh
      rw [hrow]
      exact ⟨_, rfl⟩
  unfold refreshResource
  rw [if_neg (not_not.mpr hres)]
  simp only [hdue, bind, Except.bind]
  split
  · unfold syncResource
    rw [hupdates]
    exact ⟨_, rfl⟩
  · exact ⟨_, rfl⟩

/-- What a run has popped are different resources of the work set. -/
theorem length_pops_le {pops : List (String × Bool)} {st : Refresh × List String}
    (hrun : Popped env force s keys pops st.1 st.2) : pops.length ≤ keys.length := by
  have hnodup : (Dict.keys pops).Nodup := by
    unfold Dict.keys
    rw [List.Nodup, List.pairwise_map]
    exact hrun.order.imp (fun h => h.1.symm)
  have hsubset : Dict.keys pops ⊆ keys := by
    intro q hq
    obtain ⟨p, hp, rfl⟩ := List.mem_map.mp hq
    exact (hrun.flags p hp).1
  have hlength := (List.Nodup.subperm hnodup hsubset).length_le
  unfold Dict.keys at hlength
  rwa [List.length_map] at hlength

/-! ## No function is called twice -/

theorem updatesOf_true (hused : syncs.UsedBy env) {res name : String}
    (h : syncs.sync res = some name) : updatesOf env true res = syncs.report name := by
  unfold updatesOf
  rw [if_pos rfl, hused, h]
  rfl

theorem calls_nodup (hused : syncs.UsedBy env) (hreports : syncs.ReportsOwn)
    {pops : List (String × Bool)} {s' : Refresh} {work' : List String}
    (hrun : Popped env force s keys pops s' work') : (syncs.calls pops).Nodup := by
  unfold SyncFunctions.calls
  rw [List.Nodup, List.pairwise_filterMap]
  apply hrun.order.imp
  rintro ⟨res, due⟩ ⟨res', due'⟩ ⟨-, hnot⟩ name hname name' hname' heq
  subst heq
  cases due with
  | false => cases hname
  | true =>
    cases due' with
    | false => cases hname'
    | true =>
      rw [if_pos rfl] at hname hname'
      -- the function has reported on the second resource too
      apply hnot
      rw [updatesOf_true hused hname]
      exact hreports _ _ hname'

/-! ## What is refreshed -/

/-- A resource of the work set is due and its function reports on `q`. -/
def Covered (env : RefreshEnv) (syncs : SyncFunctions) (force : Bool) (keys : List String)
    (s : Refresh) (q : String) : Prop :=
  ∃ res ∈ keys, isDue env force s res = true ∧ ∃ name, syncs.sync res = some name ∧
    q ∈ Dict.keys (syncs.report name)

/-- A last count is the last count of one of the reports. -/
theorem exists_lastOf {q : String} {v : Int} : ∀ {pops : List (String × Bool)},
    lastOf (allReported env pops) q = some v →
      ∃ p ∈ pops, lastOf (updatesOf env p.2 p.1) q = some v
  | [], h => absurd h (Option.some_ne_none _).symm
  | p :: pops, h => by
    rw [allReported_cons, lastOf_append] at h
    cases hlater : lastOf (allReported env pops) q with
    | some w =>
      rw [hlater, Option.some_or] at h
      obtain ⟨p', hp', hlast⟩ := exists_lastOf (hlater.trans h)
      exact ⟨p', List.mem_cons_of_mem _ hp', hlast⟩
    | none =>
      rw [hlater, Option.none_or] at h
      exact ⟨p, List.mem_cons_self .., h⟩

section

variable {pops : List (String × Bool)} {s' : Refresh} {work' : List String}

/-- What is reported was reported by the function of a due resource. -/
theorem exists_function (hused : syncs.UsedBy env)
    (hrun : Popped env force s keys pops s' work') {p : String × Bool} (hp : p ∈ pops)
    (hdue : p.2 = true) :
    p.1 ∈ keys ∧ isDue env force s p.1 = true ∧
      ∃ name, syncs.sync p.1 = some name ∧ updatesOf env p.2 p.1 = syncs.report name := by
  obtain ⟨hmem, hflag, hsync⟩ := hrun.flags p hp
  have hsome := hsync hdue
  rw [hused, Option.isSome_map] at hsome
  obtain ⟨name, hname⟩ := Option.isSome_iff_exists.mp hsome
  refine ⟨hmem, hflag.symm.trans hdue, name, hname, ?_⟩
  rw [hdue]
  exact updatesOf_true hused hname

/-- In a run to the end, the resources that are reported do not depend on the
order. -/
theorem mem_allReported_iff (hused : syncs.UsedBy env) (hcompatible : syncs.Compatible)
    (hrun : Popped env force s keys pops s' []) {q : String} :
    q ∈ Dict.keys (allReported env pops) ↔ Covered env syncs force keys s q := by
  rw [mem_keys_allReported]
  constructor
  · rintro ⟨⟨res, due⟩, hp, hq⟩
    cases due with
    | false => exact absurd hq List.not_mem_nil
    | true =>
      obtain ⟨hmem, hdue, name, hname, hupdates⟩ := exists_function hused hrun hp rfl
      rw [hupdates] at hq
      exact ⟨res, hmem, hdue, name, hname, hq⟩
  · rintro ⟨res, hmem, hdue, name, hname, hq⟩
    have hleft : ¬(res ∈ keys ∧ res ∉ Dict.keys pops ∧ res ∉ Dict.keys (allReported env pops)) :=
      fun h => List.not_mem_nil ((hrun.work res).mpr h)
    by_cases hpop : res ∈ Dict.keys pops
    · obtain ⟨⟨res, due⟩, hp, rfl⟩ := List.mem_map.mp hpop
      have htrue : due = true := (hrun.flags _ hp).2.1.trans hdue
      subst htrue
      refine ⟨_, hp, ?_⟩
      rw [updatesOf_true hused hname]
      exact hq
    · -- another function reported on the resource, and on all that its own one reports
      have hreported : res ∈ Dict.keys (allReported env pops) := by
        by_contra hnot
        exact hleft ⟨hmem, hpop, hnot⟩
      obtain ⟨⟨other, due⟩, hp, hres⟩ := mem_keys_allReported.mp hreported
      cases due with
      | false => exact absurd hres List.not_mem_nil
      | true =>
        obtain ⟨-, -, name', hname', hupdates⟩ := exists_function hused hrun hp rfl
        refine ⟨_, hp, ?_⟩
        rw [hupdates] at hres ⊢
        exact hcompatible.closed name' res name hres hname q hq

/-- A resource on which nothing is reported keeps its count. -/
theorem inUse_of_not_covered (hused : syncs.UsedBy env) (hreports : syncs.ReportsOwn)
    (hrun : Popped env force s keys pops s' work') {q : String}
    (hnot : q ∉ Dict.keys (allReported env pops)) : s'.inUse q = s.inUse q := by
  by_cases hpop : q ∈ Dict.keys pops
  · obtain ⟨⟨q, due⟩, hp, rfl⟩ := List.mem_map.mp hpop
    have hflag := (hrun.flags _ hp).2.1
    cases due with
    | true =>
      obtain ⟨-, -, name, hname, hupdates⟩ := exists_function hused hrun hp rfl
      refine absurd (mem_keys_allReported.mpr ⟨_, hp, ?_⟩) hnot
      rw [hupdates]
      exact hreports _ _ hname
    | false =>
      -- it was not due, so it has a row
      have hshown := hrun.checked hnot hpop
      cases hrow : s.picked q with
      | none => simp [isDue, hrow] at hflag
      | some row =>
        unfold afterCheck at hshown
        simp only [hrow] at hshown
        obtain ⟨row', hrow', hfields⟩ := Option.map_eq_some_iff.mp hshown
        rw [Prod.mk.injEq] at hfields
        unfold Refresh.inUse
        rw [hrow, hrow', Option.map_some, Option.map_some, hfields.1]
  · unfold Refresh.inUse
    rw [hrun.other hnot hpop]

/-- A last count is the one of some function. -/
theorem exists_function_of_lastOf (hused : syncs.UsedBy env)
    (hrun : Popped env force s keys pops s' work') {q : String} {v : Int}
    (hlast : lastOf (allReported env pops) q = some v) :
    ∃ name, lastOf (syncs.report name) q = some v := by
  obtain ⟨⟨res, due⟩, hp, hone⟩ := exists_lastOf hlast
  cases due with
  | false => exact absurd hone (Option.some_ne_none _).symm
  | true =>
    obtain ⟨-, -, name, -, hupdates⟩ := exists_function hused hrun hp rfl
    rw [hupdates] at hone
    exact ⟨name, hone⟩

theorem inUse_of_lastOf (hrun : Popped env force s keys pops s' work') {q : String} {v : Int}
    (hlast : lastOf (allReported env pops) q = some v) : s'.inUse q = some v := by
  obtain ⟨row, hrow, hfields⟩ := Option.map_eq_some_iff.mp (hrun.shown hlast)
  rw [Prod.mk.injEq] at hfields
  unfold Refresh.inUse
  rw [hrow, Option.map_some, hfields.1]

end

/-- **The order does not matter** for compatible sync functions. -/
theorem orderIndependent (hused : syncs.UsedBy env) (hreports : syncs.ReportsOwn)
    (hcompatible : syncs.Compatible) (hown : s.OwnRows)
    (hkeys : ∀ key ∈ keys, (syncs.sync key).isSome = true) :
    OrderIndependent env syncs force keys s where
  terminates := by
    intro pops st hpops
    have hrun := pops_spec hpops hown
    refine ⟨length_pops_le hrun, ?_⟩
    intro res hres
    apply exists_refreshResource hrun.ownRows hres
    rw [hused, Option.isSome_map]
    exact hkeys res ((hrun.work res).mp hres).1
  once := by
    intro pops st hpops
    exact calls_nodup hused hreports (pops_spec hpops hown)
  same := by
    intro pops pops' st st' hpops hpops' hdone hdone' q
    have hrun := pops_spec hpops hown
    have hrun' := pops_spec hpops' hown
    rw [hdone] at hrun
    rw [hdone'] at hrun'
    have hcovered := mem_allReported_iff hused hcompatible hrun (q := q)
    have hcovered' := mem_allReported_iff hused hcompatible hrun' (q := q)
    cases hlast : lastOf (allReported env pops) q with
    | none =>
      have hnot := lastOf_eq_none.mp hlast
      have hnot' : q ∉ Dict.keys (allReported env pops') :=
        fun h => hnot (hcovered.mpr (hcovered'.mp h))
      rw [inUse_of_not_covered hused hreports hrun hnot,
        inUse_of_not_covered hused hreports hrun' hnot']
    | some v =>
      cases hlast' : lastOf (allReported env pops') q with
      | none =>
        have hnot' := lastOf_eq_none.mp hlast'
        refine absurd (hcovered'.mpr (hcovered.mp ?_)) hnot'
        by_contra hnot
        rw [lastOf_eq_none.mpr hnot] at hlast
        cases hlast
      | some w =>
        obtain ⟨f, hf⟩ := exists_function_of_lastOf hused hrun hlast
        obtain ⟨g, hg⟩ := exists_function_of_lastOf hused hrun' hlast'
        rw [inUse_of_lastOf hrun hlast, inUse_of_lastOf hrun' hlast',
          hcompatible.agree f g q v w hf hg]

/-- Functions that report on different resources are compatible. -/
theorem SyncFunctions.ReportsOwn.compatible (hreports : syncs.ReportsOwn)
    (hdisjoint : ∀ f g res, res ∈ Dict.keys (syncs.report f) →
      res ∈ Dict.keys (syncs.report g) → f = g) : syncs.Compatible where
  agree := by
    intro f g res v w hf hg
    have hmem : ∀ {name : String} {n : Int}, lastOf (syncs.report name) res = some n →
        res ∈ Dict.keys (syncs.report name) := by
      intro name n h
      by_contra hnot
      rw [lastOf_eq_none.mpr hnot] at h
      cases h
    rw [hdisjoint f g res (hmem hf) (hmem hg), hg, Option.some.injEq] at hf
    exact hf.symm
  closed := by
    intro f res g hf hsync q hq
    rw [hdisjoint f g res hf (hreports res g hsync)]
    exact hq

end

/-! ## Functions that overlap -/

/-- `f` is registered for `a` and reports on `b` too; `g` is registered for `b` and
`c`. -/
def overlapping : SyncFunctions where
  sync := fun res =>
    if res = "a" then some "f" else if res = "b" ∨ res = "c" then some "g" else none
  report := fun name =>
    if name = "f" then [("a", 1), ("b", 2)] else if name = "g" then [("b", 2), ("c", 3)] else []

/-- `f` alone, registered for all that it reports on. -/
def single : SyncFunctions where
  sync := fun res => if res = "a" ∨ res = "b" then some "f" else none
  report := fun name => if name = "f" then [("a", 1), ("b", 2)] else []

/-- A refresh with these functions. -/
def SyncFunctions.env (syncs : SyncFunctions) : RefreshEnv where
  project := some "p"
  user := some "u"
  untilRefresh := some 5
  maxAge := 0
  now := 1
  order := []
  sync := fun res => (syncs.sync res).map syncs.report

/-- The counters of `a` and `b` run out, the one of `c` does not. -/
def countingTable : UsageTable where
  rows := [⟨0, some "p", some "u", "a", 0, 0, some 1, 0, false⟩,
    ⟨1, some "p", some "u", "b", 0, 0, some 1, 0, false⟩,
    ⟨2, some "p", some "u", "c", 0, 0, some 4, 0, false⟩]
  next := 3
  sorted := by decide
  below := by decide

def countingDown : Refresh :=
  ⟨countingTable, (getProjectUserQuotaUsages countingTable (some "p") (some "u")).2, []⟩

theorem ownRows_countingDown : countingDown.OwnRows :=
  ownRows_start countingTable (some "p") (some "u") []

theorem orderIndependent_single :
    OrderIndependent single.env single false ["a", "b"] countingDown := by
  have hreports : single.ReportsOwn := by
    intro res name h
    simp only [single] at h ⊢
    split at h
    · next hres =>
      cases h
      rcases hres with rfl | rfl <;> decide
    · cases h
  have hdisjoint : ∀ f g res, res ∈ Dict.keys (single.report f) →
      res ∈ Dict.keys (single.report g) → f = g := by
    intro f g res hf hg
    have hname : ∀ name, res ∈ Dict.keys (single.report name) → name = "f" := by
      intro name h
      by_contra hne
      unfold single at h
      simp only [hne, if_false] at h
      exact absurd h List.not_mem_nil
    rw [hname f hf, hname g hg]
  exact orderIndependent (fun _ => rfl) hreports (hreports.compatible hdisjoint)
    ownRows_countingDown (by decide)

/-- Popped first, `a` is refreshed by `f`, which reports on `b`, and `c` keeps its
count; popped first, `b` is refreshed by `g`, which reports on `c`. -/
theorem overlapping_depends_on_order :
    overlapping.UsedBy overlapping.env ∧ overlapping.ReportsOwn ∧ countingDown.OwnRows ∧
      (∃ st, Pops overlapping.env false (countingDown, ["a", "b", "c"])
        [("a", true), ("c", false)] st ∧ st.2 = [] ∧ st.1.inUse "c" = some 0) ∧
      (∃ st, Pops overlapping.env false (countingDown, ["a", "b", "c"])
        [("b", true), ("a", true)] st ∧ st.2 = [] ∧ st.1.inUse "c" = some 3) ∧
      ¬OrderIndependent overlapping.env overlapping false ["a", "b", "c"] countingDown := by
  have hreports : overlapping.ReportsOwn := by
    intro res name h
    simp only [overlapping] at h ⊢
    split at h
    · next hres =>
      cases h
      subst hres
      decide
    · split at h
      · next hres =>
        cases h
        rcases hres with rfl | rfl <;> decide
      · cases h
  obtain ⟨st, hst, hdone, hc⟩ : ∃ st, ["a", "c"].foldlM (refreshResource overlapping.env false)
      (countingDown, ["a", "b", "c"]) = .ok st ∧ st.2 = [] ∧ st.1.inUse "c" = some 0 :=
    ⟨_, rfl, rfl, rfl⟩
  obtain ⟨st', hst', hdone', hc'⟩ : ∃ st, ["b", "a"].foldlM (refreshResource overlapping.env false)
      (countingDown, ["a", "b", "c"]) = .ok st ∧ st.2 = [] ∧ st.1.inUse "c" = some 3 :=
    ⟨_, rfl, rfl, rfl⟩
  have hpops : Pops overlapping.env false (countingDown, ["a", "b", "c"])
      [("a", true), ("c", false)] st := foldlM_pops ownRows_countingDown hst
  have hpops' : Pops overlapping.env false (countingDown, ["a", "b", "c"])
      [("b", true), ("a", true)] st' := foldlM_pops ownRows_countingDown hst'
  refine ⟨fun _ => rfl, hreports, ownRows_countingDown, ⟨st, hpops, hdone, hc⟩,
    ⟨st', hpops', hdone', hc'⟩, ?_⟩
  intro hindependent
  have hsame := hindependent.same _ _ st st' hpops hpops' hdone hdone' "c"
  rw [hc, hc'] at hsame
  cases hsame

end PolarBear.Quota
