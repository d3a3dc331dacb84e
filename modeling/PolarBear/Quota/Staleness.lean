import PolarBear.Quota.OverQuota

/-!
# The age of a usage row

A row that is older than `max_age` is to be refreshed before a request counts with
it. The age that `_is_quota_refresh_needed` looks at is `timedelta.seconds`, which
starts again at 0 with every whole day.

`servesFresh_iff` says for which ages the request refreshes the row.
-/

namespace PolarBear.Quota

variable (env : RefreshEnv)

/-- The seconds since the row was written, whole days and all. -/
def RefreshEnv.age (row : QuotaUsage) : Int := env.now - row.updatedAt

/-- The rounds of a request. -/
def roundsOf (deltas : List (String × Int)) (t : QuotaTables) : List (String × Bool) :=
  plan env false (startRefresh env t) env.order (Dict.keys deltas)

/-- A sync function has reported on the resource, and its row has the count. -/
def Resynced (deltas : List (String × Int)) (t : QuotaTables) (s : Refresh) (res : String) :
    Prop :=
  ∃ v, lastOf (allReported env (roundsOf env deltas t)) res = some v ∧
    (s.picked res).map QuotaUsage.inUse = some v

/-- The request counts with a row that is young enough, or new. -/
structure ServesFresh (deltas : List (String × Int)) (t : QuotaTables) (s : Refresh) (res : String)
    (row : QuotaUsage) : Prop where
  resyncs : env.maxAge ≤ env.age row → Resynced env deltas t s res
  young : ¬Resynced env deltas t s res → env.age row < env.maxAge

/-- The seconds beyond whole days tell that the row is too old, or another resource
of the request is due and its sync function reports on this one. -/
def SeenAsOld (deltas : List (String × Int)) (t : QuotaTables) (res : String) (row : QuotaUsage) :
    Prop :=
  env.maxAge ≤ env.age row % 86400 ∨
    ∃ other, other ≠ res ∧ (other, true) ∈ roundsOf env deltas t ∧
      res ∈ Dict.keys (updatesOf env true other)

section

variable {env} {t : QuotaTables} {deltas : List (String × Int)} {s : Refresh} {res : String}

/-- A report on the resource is what makes it fresh. -/
theorem resynced_iff
    (h : refreshQuotaUsagesIfNeeded env false (Dict.keys deltas) (startRefresh env t) = .ok s) :
    Resynced env deltas t s res ↔ res ∈ Dict.keys (allReported env (roundsOf env deltas t)) := by
  obtain ⟨work', hrun⟩ := refresh_popped startRefresh_ownRows h
  constructor
  · rintro ⟨v, hlast, -⟩
    by_contra hnot
    rw [lastOf_eq_none.mpr hnot] at hlast
    cases hlast
  · intro hmem
    cases hlast : lastOf (allReported env (roundsOf env deltas t)) res with
    | none => exact absurd hmem (lastOf_eq_none.mp hlast)
    | some v =>
      have hshown := hrun.shown hlast
      obtain ⟨row, hrow, hfields⟩ := Option.map_eq_some_iff.mp hshown
      rw [Prod.mk.injEq] at hfields
      exact ⟨v, hlast, by rw [hrow, Option.map_some, hfields.1]⟩

/-- The age by which a row without a counter is judged. -/
theorem isDue_by_age {row : QuotaUsage}
    (hrow : pick t.usages env.project env.user res = some row) (hinUse : 0 ≤ row.inUse)
    (huntil : row.untilRefresh = none) (hmax : 0 < env.maxAge) :
    isDue env false (startRefresh env t) res = true ↔ env.maxAge ≤ env.age row % 86400 := by
  unfold isDue
  have hneg : ¬row.inUse < 0 := by omega
  rw [startRefresh_picked, hrow]
  simp only [isQuotaRefreshNeeded, hneg, if_false, huntil, Bool.false_or, decide_eq_true_iff]
  unfold RefreshEnv.age
  omega

/-- **A stale row is refreshed** exactly where its age beyond whole days shows that
it is stale, or another resource of the request brings it along. -/
theorem servesFresh_iff {projectQuotas userQuotas : List (String × Int)} {expire : Int}
    {row : QuotaUsage}
    (hanswer : ∀ key, quotaReserve env projectQuotas userQuotas deltas expire t ≠
      .error (.keyError key))
    (horder : ∀ key ∈ Dict.keys deltas, key ∈ env.order) (hres : res ∈ Dict.keys deltas)
    (hrow : pick t.usages env.project env.user res = some row) (hinUse : 0 ≤ row.inUse)
    (huntil : row.untilRefresh = none) (hmax : 0 < env.maxAge)
    (hsync : ∀ updates, env.sync res = some updates → res ∈ Dict.keys updates) :
    ∃ s, refreshQuotaUsagesIfNeeded env false (Dict.keys deltas) (startRefresh env t) = .ok s ∧
      (ServesFresh env deltas t s res row ↔
        env.age row < env.maxAge ∨ SeenAsOld env deltas t res row) := by
  obtain ⟨s, hs⟩ := exists_refreshed hanswer
  obtain ⟨work', hrun⟩ := refresh_popped startRefresh_ownRows hs
  have hdue := isDue_by_age hrow hinUse huntil hmax
  have hresynced : Resynced env deltas t s res ↔ SeenAsOld env deltas t res row := by
    rw [resynced_iff hs, mem_keys_allReported]
    constructor
    · rintro ⟨⟨other, due⟩, hp, hupdated⟩
      obtain ⟨-, hflag, -⟩ := hrun.flags _ hp
      cases due with
      | false => exact absurd hupdated List.not_mem_nil
      | true =>
        by_cases hother : other = res
        · subst hother
          exact .inl (hdue.mp hflag.symm)
        · exact .inr ⟨other, hother, hp, hupdated⟩
    · rintro (hold | ⟨other, -, hp, hupdated⟩)
      · rcases mem_plan env false (startRefresh env t) (horder res hres) hres with
          hpop | hreported
        · obtain ⟨⟨q, due⟩, hp, rfl⟩ := List.mem_map.mp hpop
          obtain ⟨-, hflag, hsynced⟩ := hrun.flags _ hp
          have htrue : due = true := hflag.trans (hdue.mpr hold)
          subst htrue
          refine ⟨_, hp, ?_⟩
          obtain ⟨updates, hupdates⟩ := Option.isSome_iff_exists.mp (hsynced rfl)
          unfold updatesOf
          rw [if_pos rfl, hupdates]
          exact hsync updates hupdates
        · exact mem_keys_allReported.mp hreported
      · exact ⟨_, hp, hupdated⟩
  refine ⟨s, hs, ?_⟩
  rw [← hresynced]
  constructor
  · intro hserves
    by_cases hage : env.age row < env.maxAge
    · exact .inl hage
    · exact .inr (hserves.resyncs (Int.not_lt.mp hage))
  · rintro (hage | hsynced)
    · exact ⟨fun hold => absurd hage (Int.not_lt.mpr hold), fun _ => hage⟩
    · exact ⟨fun _ => hsynced, fun hnot => absurd hsynced hnot⟩

end

/-! ## A row of the day before -/

/-- The user `u` has a row that says 3 and was written at 0. -/
def agedTables : QuotaTables where
  usages :=
    { rows := [⟨0, some "p", some "u", "instances", 3, 0, none, 0, false⟩]
      next := 1
      sorted := List.pairwise_singleton _ _
      below := by simp }
  reservations := Table.empty

/-- A request of `u`, who really uses 7, with a `max_age` of two hours. -/
def requestAt (now : Int) : RefreshEnv where
  project := some "p"
  user := some "u"
  untilRefresh := none
  maxAge := 7200
  now := now
  order := ["instances"]
  sync := fun _ => some [("instances", 7)]

/-- The row that a request finds. -/
def agedRow : QuotaUsage := ⟨0, some "p", some "u", "instances", 3, 0, none, 0, false⟩

/-- After three hours the row is refreshed. -/
theorem servesFresh_hours :
    ∃ s, refreshQuotaUsagesIfNeeded (requestAt 10800) false ["instances"]
        (startRefresh (requestAt 10800) agedTables) = .ok s ∧
      ServesFresh (requestAt 10800) [("instances", 1)] agedTables s "instances" agedRow := by
  have hanswer : ∀ key, quotaReserve (requestAt 10800) [("instances", 20)] [("instances", 20)]
      [("instances", 1)] 60 agedTables ≠ .error (.keyError key) := by
    intro key hkey
    obtain ⟨out, hout⟩ : ∃ out, quotaReserve (requestAt 10800) [("instances", 20)]
        [("instances", 20)] [("instances", 1)] 60 agedTables = .ok out := ⟨_, rfl⟩
    rw [hout] at hkey
    cases hkey
  have hrow : pick agedTables.usages (some "p") (some "u") "instances" = some agedRow := rfl
  obtain ⟨s, hs, hiff⟩ := servesFresh_iff hanswer (by decide) (List.mem_singleton.mpr rfl)
    hrow (by decide) rfl (by decide)
    (by intro updates hupdates; cases hupdates; decide)
  exact ⟨s, hs, hiff.mpr (.inr (.inl (by decide)))⟩

/-- After 25 hours it is not, and the request counts with 3. -/
theorem serves_stale_day :
    ∃ s, refreshQuotaUsagesIfNeeded (requestAt 90000) false ["instances"]
        (startRefresh (requestAt 90000) agedTables) = .ok s ∧
      (s.picked "instances").map QuotaUsage.inUse = some 3 ∧
      (requestAt 90000).age agedRow = 90000 ∧
      ¬ServesFresh (requestAt 90000) [("instances", 1)] agedTables s "instances" agedRow := by
  refine ⟨_, rfl, rfl, rfl, ?_⟩
  intro hserves
  obtain ⟨v, hlast, -⟩ := hserves.resyncs (by decide)
  have hnone : lastOf (allReported (requestAt 90000) (roundsOf (requestAt 90000)
      [("instances", 1)] agedTables)) "instances" = none := by rfl
  rw [hnone] at hlast
  cases hlast

end PolarBear.Quota
