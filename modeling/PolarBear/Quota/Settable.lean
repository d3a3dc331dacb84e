import PolarBear.Quota.Limits

/-!
# The quotas that can be set for a user

`get_settable_quotas` offers a user of a project what the limits of the users
leave of the project's limit, and the user's own limit with it. The limits are
subtracted as plain numbers, so an unlimited one adds 1, and whatever is below 0
then counts as unlimited.

`settable_respects_iff` says when the maximum respects the limit of the project.
-/

namespace PolarBear.Quota

open PolarBear.Fallible

/-! ## The driver -/

/-- `UNLIMITED_VALUE`. -/
def unlimitedValue : Int := -1

/-- `_is_unlimited_value`. -/
def isUnlimitedValue (v : Int) : Bool := decide (v ≤ unlimitedValue)

/-- `_sum_quota_values`. -/
def sumQuotaValues (v₁ v₂ : Int) : Int :=
  if isUnlimitedValue v₁ || isUnlimitedValue v₂ then unlimitedValue else v₁ + v₂

/-- `_sub_quota_values`. -/
def subQuotaValues (v₁ v₂ : Int) : Int :=
  if isUnlimitedValue v₁ || isUnlimitedValue v₂ then unlimitedValue else v₁ - v₂

structure SettableQuota where
  minimum : Int
  maximum : Int
  deriving DecidableEq, Repr

/-- An entry of a dictionary that is taken to be there. -/
def item {α : Type} (key : String) (entry : Option α) : Except QuotaError α :=
  match entry with
  | some a => .ok a
  | none => .error (.keyError key)

/-- One round of the loop for a user. -/
def settableForUser (projectQuotas : List (String × QuotaEntry))
    (settedQuotas : List (String × Int)) (kv : String × QuotaEntry) :
    Except QuotaError (String × SettableQuota) := do
  let projectQuota ← item kv.1 (projectQuotas.lookup kv.1)
  let remains ← item "remains" projectQuota.remains
  let maximum := sumQuotaValues remains ((settedQuotas.lookup kv.1).getD 0)
  let inUse ← item "in_use" kv.2.inUse
  let reserved ← item "reserved" kv.2.reserved
  .ok (kv.1, ⟨inUse + reserved, maximum⟩)

/-- One round of the loop for a project. -/
def settableForProject (kv : String × QuotaEntry) : Except QuotaError (String × SettableQuota) := do
  let remains ← item "remains" kv.2.remains
  let inUse ← item "in_use" kv.2.inUse
  let reserved ← item "reserved" kv.2.reserved
  .ok (kv.1, ⟨max (subQuotaValues kv.2.limit remains) (inUse + reserved), -1⟩)

/-- `get_settable_quotas`. -/
def getSettableQuotas (t : LimitTables) (ctxt : QuotaContext) (resources : Resources)
    (project user : Option String) : Except QuotaError (List (String × SettableQuota)) :=
  let dbProjQuotas := quotaGetAllByProject t project
  let projectQuotas := getProjectQuotas t ctxt resources.values project none true true true
    (some dbProjQuotas)
  if isGiven user then
    let settedQuotas := quotaGetAllByProjectAndUser t project user
    let userQuotas := getUserQuotas t ctxt resources.values project user none true true
      (some dbProjQuotas) (some settedQuotas)
    userQuotas.mapM (settableForUser projectQuotas settedQuotas)
  else projectQuotas.mapM settableForProject

/-! ## The limits of the users of a project -/

/-- The limits that users of the project have for a resource. -/
def userLimits (t : LimitTables) (project : Option String) (resource : String) :
    List (String × Int) :=
  let rows := t.userQuotas.filter (fun q => q.projectId == project && q.resource == resource)
  rows.map (fun q => (q.userId, q.hardLimit))

/-- The sum of the limits that are not unlimited. -/
def finiteSum (limits : List (String × Int)) : Int :=
  (limits.map (fun kv => max kv.2 0)).sum

/-- How many users are unlimited. -/
def unlimitedUsers (limits : List (String × Int)) : Int :=
  (limits.countP (fun kv => decide (kv.2 < 0)) : Nat)

/-- The maximum keeps the users within the limit of the project. -/
structure RespectsProject (limit : Int) (limits : List (String × Int)) (user : String)
    (maximum : Int) : Prop where
  finite : 0 ≤ limit → isUnlimitedValue maximum = false ∧
    ∀ n, 0 ≤ n → n ≤ maximum → finiteSum limits ≤ limit →
      finiteSum (Dict.set user n limits) ≤ limit
  unlimited : limit < 0 → isUnlimitedValue maximum = true

/-- The user of a limited project is not unlimited, and nobody is unless the
limited users are over the limit by no more than there are unlimited ones. In an
unlimited project the user is unlimited, or what the others may use outweighs the
unlimited ones. -/
def LeavesRoom (limit : Int) (limits : List (String × Int)) (user : String) : Prop :=
  if 0 ≤ limit then
    limits.lookup user ≠ some (-1) ∧
      (if finiteSum limits ≤ limit then unlimitedUsers limits = 0
        else finiteSum limits ≤ limit + unlimitedUsers limits)
  else limits.lookup user = some (-1) ∨ limit + unlimitedUsers limits < finiteSum limits

/-! ## Sums -/

/-- As plain numbers, every unlimited user takes 1 off the sum. -/
theorem sum_limits {limits : List (String × Int)} (h : ∀ kv ∈ limits, -1 ≤ kv.2) :
    (limits.map Prod.snd).sum = finiteSum limits - unlimitedUsers limits := by
  induction limits with
  | nil => rfl
  | cons kv limits ih =>
    have hkv := h kv (List.mem_cons_self ..)
    have hrest := ih (fun kv' hkv' => h kv' (List.mem_cons_of_mem _ hkv'))
    unfold finiteSum unlimitedUsers at hrest ⊢
    rw [List.map_cons, List.sum_cons, List.map_cons, List.sum_cons, List.countP_cons, hrest]
    by_cases hneg : kv.2 < 0
    · rw [if_pos (decide_eq_true hneg)]
      omega
    · rw [if_neg (by simpa using hneg)]
      omega

/-- A user's limit takes the place of the one before. -/
theorem finiteSum_set {n : Int} (hn : 0 ≤ n) (user : String) :
    ∀ {limits : List (String × Int)}, (Dict.keys limits).Nodup →
      finiteSum (Dict.set user n limits) =
        finiteSum limits - max ((limits.lookup user).getD 0) 0 + n
  | [], _ => by
    simp [finiteSum, Dict.set]
    omega
  | (u, m) :: limits, hnodup => by
    rw [Dict.keys_cons, List.nodup_cons] at hnodup
    unfold Dict.set
    split
    · next hu =>
      subst hu
      rw [List.lookup_cons_self]
      simp only [finiteSum, List.map_cons, List.sum_cons, Option.getD_some]
      omega
    · next hu =>
      have hrest := finiteSum_set hn user hnodup.2
      rw [Dict.lookup_cons_ne hu]
      unfold finiteSum at hrest ⊢
      rw [List.map_cons, List.sum_cons, List.map_cons, List.sum_cons, hrest]
      omega

theorem unlimitedUsers_nonneg (limits : List (String × Int)) : 0 ≤ unlimitedUsers limits :=
  Int.natCast_nonneg _

/-! ## The law of the maximum -/

theorem sumQuotaValues_of_neg {v₁ v₂ : Int} (h : v₁ < 0 ∨ v₂ < 0) : sumQuotaValues v₁ v₂ = -1 := by
  unfold sumQuotaValues isUnlimitedValue unlimitedValue
  rw [if_pos]
  rw [Bool.or_eq_true, decide_eq_true_iff, decide_eq_true_iff]
  omega

theorem sumQuotaValues_of_nonneg {v₁ v₂ : Int} (h₁ : 0 ≤ v₁) (h₂ : 0 ≤ v₂) :
    sumQuotaValues v₁ v₂ = v₁ + v₂ := by
  unfold sumQuotaValues isUnlimitedValue unlimitedValue
  rw [if_neg]
  rw [Bool.or_eq_true, decide_eq_true_iff, decide_eq_true_iff]
  omega

section

variable {limit : Int} {limits : List (String × Int)} {user : String}

/-- An unlimited maximum is right for an unlimited project only. -/
theorem respectsProject_unlimited :
    RespectsProject limit limits user (-1) ↔ limit < 0 := by
  constructor
  · intro h
    by_contra hlimit
    exact absurd (h.finite (by omega)).1 (by decide)
  · intro hlimit
    exact ⟨fun h => absurd h (by omega), fun _ => rfl⟩

/-- A limited maximum is right for a limited project, if its users stay within
the limit when this one is given all of it. -/
theorem respectsProject_limited {maximum : Int} (hmaximum : 0 ≤ maximum)
    (hnodup : (Dict.keys limits).Nodup) :
    RespectsProject limit limits user maximum ↔
      0 ≤ limit ∧ (finiteSum limits ≤ limit →
        finiteSum limits - max ((limits.lookup user).getD 0) 0 + maximum ≤ limit) := by
  have hfinite : isUnlimitedValue maximum = false := by
    unfold isUnlimitedValue unlimitedValue
    rw [decide_eq_false_iff_not]
    omega
  constructor
  · intro h
    have hlimit : 0 ≤ limit := by
      by_contra hlimit
      rw [h.unlimited (by omega)] at hfinite
      cases hfinite
    refine ⟨hlimit, ?_⟩
    intro hsum
    rw [← finiteSum_set hmaximum user hnodup]
    exact (h.finite hlimit).2 maximum hmaximum (Int.le_refl _) hsum
  · rintro ⟨hlimit, hall⟩
    refine ⟨fun _ => ⟨hfinite, ?_⟩, fun h => absurd h (by omega)⟩
    intro n hn hle hsum
    rw [finiteSum_set hn user hnodup]
    have := hall hsum
    omega

/-- **The law of the maximum**, for the number that the driver computes. -/
theorem respectsProject_iff (hnodup : (Dict.keys limits).Nodup)
    (hlimits : ∀ kv ∈ limits, -1 ≤ kv.2) :
    RespectsProject limit limits user
        (sumQuotaValues (limit - (limits.map Prod.snd).sum) ((limits.lookup user).getD 0)) ↔
      LeavesRoom limit limits user := by
  have hcount := unlimitedUsers_nonneg limits
  rw [sum_limits hlimits]
  unfold LeavesRoom
  by_cases hown : limits.lookup user = some (-1)
  · -- the user is unlimited, and so is the maximum
    rw [hown, Option.getD_some, sumQuotaValues_of_neg (by omega), respectsProject_unlimited]
    split
    · simp; omega
    · simp; omega
  · have hpos : 0 ≤ (limits.lookup user).getD 0 := by
      cases hlookup : limits.lookup user with
      | none => simp
      | some own =>
        have hge := hlimits _ (Dict.mem_of_lookup hlookup)
        have hne : own ≠ -1 := fun h => hown (by rw [hlookup, h])
        simp only [Option.getD_some] at hge ⊢
        omega
    simp only [hown, ne_eq, not_false_eq_true, true_and, false_or]
    by_cases hremains : limit - (finiteSum limits - unlimitedUsers limits) < 0
    · -- more is given away than there is
      rw [sumQuotaValues_of_neg (.inl hremains), respectsProject_unlimited]
      split
      · split <;> omega
      · omega
    · rw [sumQuotaValues_of_nonneg (by omega) hpos, respectsProject_limited (by omega) hnodup]
      split
      · split <;> omega
      · omega

end

/-! ## What the driver reads -/

section

variable (t : LimitTables) (ctxt : QuotaContext) (resources : Resources)

theorem mem_userLimits {project : Option String} {resource user : String} {n : Int} :
    (user, n) ∈ userLimits t project resource ↔ ⟨project, user, resource, n⟩ ∈ t.userQuotas := by
  unfold userLimits
  rw [List.mem_map]
  constructor
  · rintro ⟨q, hq, heq⟩
    obtain ⟨hmem, hmatch⟩ := List.mem_filter.mp hq
    rw [Bool.and_eq_true, beq_iff_eq, beq_iff_eq] at hmatch
    obtain ⟨rfl, rfl⟩ := hmatch
    cases heq
    exact hmem
  · intro hmem
    exact ⟨_, List.mem_filter.mpr ⟨hmem, by simp⟩, rfl⟩

/-- A user has one limit for a resource. -/
theorem nodup_userLimits (project : Option String) (resource : String) :
    (Dict.keys (userLimits t project resource)).Nodup := by
  unfold Dict.keys userLimits
  rw [List.map_map]
  apply List.pairwise_map.mpr
  apply List.Pairwise.imp_of_mem _ (t.distinct.filter _)
  intro q q' hq hq' hdistinct huser
  have hmatch := (List.mem_filter.mp hq).2
  have hmatch' := (List.mem_filter.mp hq').2
  rw [Bool.and_eq_true, beq_iff_eq, beq_iff_eq] at hmatch hmatch'
  apply hdistinct
  rw [hmatch.1, hmatch.2, hmatch'.1, hmatch'.2]
  exact congrArg (fun user => (project, user, resource)) huser

/-- What the database function returns for a user has the limits of that user. -/
theorem lookup_quotaGetAllByProjectAndUser (project : Option String) (resource user : String) :
    (quotaGetAllByProjectAndUser t project (some user)).lookup resource =
      (userLimits t project resource).lookup user := by
  unfold quotaGetAllByProjectAndUser
  generalize hrows : t.userQuotas.filter
    (fun q => q.projectId == project && some q.userId == some user) = rows
  have hmatch : ∀ q, q ∈ rows ↔ q ∈ t.userQuotas ∧ q.projectId = project ∧ q.userId = user := by
    intro q
    rw [← hrows, List.mem_filter]
    simp
  have hnodup : (Dict.keys (rows.map (fun q => (q.resource, q.hardLimit)))).Nodup := by
    unfold Dict.keys
    rw [List.map_map]
    apply List.pairwise_map.mpr
    apply List.Pairwise.imp_of_mem _ (hrows ▸ t.distinct.filter _)
    intro q q' hq hq' hdistinct hresource
    obtain ⟨-, hproject, huser⟩ := (hmatch q).mp hq
    obtain ⟨-, hproject', huser'⟩ := (hmatch q').mp hq'
    apply hdistinct
    rw [hproject, huser, hproject', huser']
    exact congrArg (fun resource => (project, user, resource)) hresource
  have hupdate : Dict.update [] (rows.map (fun q => (q.resource, q.hardLimit))) =
      rows.map (fun q => (q.resource, q.hardLimit)) :=
    Dict.update_eq_append (by rw [List.nil_append]; exact hnodup)
  show (Dict.update [] (rows.map (fun q => (q.resource, q.hardLimit)))).lookup resource = _
  rw [hupdate]
  apply Option.ext
  intro n
  rw [Dict.lookup_iff_mem hnodup, Dict.lookup_iff_mem (nodup_userLimits t project resource),
    mem_userLimits, List.mem_map]
  constructor
  · rintro ⟨q, hq, heq⟩
    obtain ⟨hmem, rfl, rfl⟩ := (hmatch q).mp hq
    cases heq
    exact hmem
  · intro hmem
    exact ⟨_, (hmatch _).mpr ⟨hmem, rfl, rfl⟩, rfl⟩

/-- The limits of the users are taken off the entry of their resource. -/
theorem lookup_foldl_subtractLimit (name : String) :
    ∀ (rows : List ProjectUserQuota) {quotas : List (String × QuotaEntry)} {entry : QuotaEntry},
      quotas.lookup name = some entry →
      (rows.foldl subtractLimit quotas).lookup name = some { entry with
        remains := entry.remains.map
          (· - ((rows.filter (fun q => q.resource == name)).map ProjectUserQuota.hardLimit).sum) }
  | [], quotas, entry, h => by
    rw [List.foldl_nil, h]
    cases hremains : entry.remains <;> simp [← hremains]
  | q :: rows, quotas, entry, h => by
    rw [List.foldl_cons]
    by_cases hname : q.resource = name
    · have hstep : (subtractLimit quotas q).lookup name =
          some { entry with remains := entry.remains.map (· - q.hardLimit) } := by
        unfold subtractLimit
        rw [hname, h, Dict.lookup_set_self]
      rw [lookup_foldl_subtractLimit name rows hstep, List.filter_cons_of_pos (by simp [hname])]
      cases entry.remains with
      | none => rfl
      | some n =>
        simp only [Option.map_some, List.map_cons, List.sum_cons]
        congr 3
        omega
    · have hstep : (subtractLimit quotas q).lookup name = some entry := by
        unfold subtractLimit
        cases quotas.lookup q.resource with
        | none => exact h
        | some other => rw [Dict.lookup_set_ne (fun heq => hname heq.symm), h]
      rw [lookup_foldl_subtractLimit name rows hstep, List.filter_cons_of_neg (by simp [hname])]

/-- What remains of the limit of the project. -/
theorem lookup_processQuotas_remains (project quotaClass : Option String)
    (quotas : List (String × Int)) (usages : Option (List (String × Int × Int))) {r : Resource}
    (hr : r ∈ resources.values) :
    (processQuotas t ctxt resources.values project quotas quotaClass true usages true).lookup
        r.name =
      some { quotaEntry (limitOf t quotas (classQuotas t ctxt project quotaClass) r) usages true
          r.name with
        remains := some (limitOf t quotas (classQuotas t ctxt project quotaClass) r -
          ((userLimits t project r.name).map Prod.snd).sum) } := by
  have hentry : (resources.values.map (fun r => (r.name, quotaEntry (limitOf t quotas
      (classQuotas t ctxt project quotaClass) r) usages true r.name))).lookup r.name =
      some (quotaEntry (limitOf t quotas (classQuotas t ctxt project quotaClass) r) usages true
        r.name) := lookup_map_name resources.nodup _ hr
  have hsum : ((quotaGetAll t project).filter (fun q => q.resource == r.name)).map
      ProjectUserQuota.hardLimit = (userLimits t project r.name).map Prod.snd := by
    unfold quotaGetAll userLimits
    rw [List.filter_filter, List.map_map]
    simp only [Bool.and_comm]
    rfl
  unfold processQuotas
  simp only [Bool.true_or, List.filter_true, if_true]
  rw [lookup_foldl_subtractLimit r.name _ hentry, hsum]
  rfl

/-- The maximum for a user, in terms of the limits of the users. -/
def settableMaximum (project : Option String) (user : String) (r : Resource) : Int :=
  let limits := userLimits t project r.name
  sumQuotaValues (projectLimit t ctxt project none r - (limits.map Prod.snd).sum)
    ((limits.lookup user).getD 0)

/-- What is in use and reserved, at the least. -/
def settableMinimum (project : Option String) (user : String) (r : Resource) : Int :=
  let usage := ((quotaUsageGetAll t project (some user)).lookup r.name).getD (0, 0)
  usage.1 + usage.2

/-- **What can be set for a user**, for each resource. -/
theorem getSettableQuotas_user (project : Option String) (user : String) (huser : user ≠ "") :
    getSettableQuotas t ctxt resources project (some user) =
      .ok (resources.values.map (fun r => (r.name,
        ⟨settableMinimum t project user r, settableMaximum t ctxt project user r⟩))) := by
  have hgiven : isGiven (some user) = true := by simp [isGiven, huser]
  unfold getSettableQuotas getUserQuotas
  simp only [hgiven, if_true, Option.getD_some, processQuotas_all, List.mapM_map]
  apply mapM_ok
  intro r hr
  have hproject := lookup_processQuotas_remains t ctxt resources project none
    (quotaGetAllByProject t project) (some (quotaUsageGetAll t project none)) hr
  unfold settableForUser getProjectQuotas
  simp only [Function.comp, Option.getD_some, if_true, hproject,
    lookup_quotaGetAllByProjectAndUser]
  rfl

/-- **The maximum of a user respects the project** exactly where the limits of
the users leave room. -/
theorem settable_respects_iff (project : Option String) (user : String) (huser : user ≠ "")
    (hlimits : ∀ q ∈ t.userQuotas, -1 ≤ q.hardLimit) {r : Resource} (hr : r ∈ resources.values) :
    ∃ settable quota, getSettableQuotas t ctxt resources project (some user) = .ok settable ∧
      settable.lookup r.name = some quota ∧
      (RespectsProject (projectLimit t ctxt project none r) (userLimits t project r.name) user
          quota.maximum ↔
        LeavesRoom (projectLimit t ctxt project none r) (userLimits t project r.name) user) := by
  refine ⟨_, _, getSettableQuotas_user t ctxt resources project user huser,
    lookup_map_name resources.nodup _ hr, ?_⟩
  apply respectsProject_iff (nodup_userLimits t project r.name)
  rintro ⟨u, n⟩ hmem
  exact hlimits _ ((mem_userLimits t).mp hmem)

end

/-! ## A project with an unlimited user -/

/-- A project with 10 cores; user `a` has a limit of its own. -/
def coresTables (limitOfA : Int) : LimitTables where
  quotas := [⟨some "p", "cores", 10⟩]
  userQuotas := [⟨some "p", "a", "cores", limitOfA⟩]
  classes := []
  usages := Table.empty
  distinct := List.pairwise_singleton ..

def coresContext : QuotaContext := ⟨some "p", some "a", none⟩

def coresResource : Resource := ⟨"cores", 20, "reserve", true⟩

def coresResources : Resources := ⟨[coresResource], List.nodup_singleton _⟩

theorem settable_respects_cores :
    ∃ settable quota, getSettableQuotas (coresTables 4) coresContext coresResources (some "p")
        (some "b") = .ok settable ∧ settable.lookup "cores" = some quota ∧
      RespectsProject 10 [("a", 4)] "b" quota.maximum := by
  obtain ⟨settable, quota, hsettable, hquota, hiff⟩ :=
    settable_respects_iff (coresTables 4) coresContext coresResources (some "p") "b"
      (by decide) (by decide) (List.mem_singleton.mpr rfl : coresResource ∈ coresResources.values)
  exact ⟨settable, quota, hsettable, hquota, hiff.mpr (by unfold LeavesRoom; decide)⟩

/-- With `a` unlimited, `b` may be given 11 of the 10 cores. -/
theorem settable_unlimited_user :
    getSettableQuotas (coresTables (-1)) coresContext coresResources (some "p") (some "b") =
        .ok [("cores", ⟨0, 11⟩)] ∧
      ¬RespectsProject 10 (userLimits (coresTables (-1)) (some "p") "cores") "b" 11 := by
  refine ⟨by rfl, ?_⟩
  intro h
  have hsum := (h.finite (by decide)).2 11 (by decide) (by decide) (by decide)
  exact absurd hsum (by decide)

end PolarBear.Quota
