import Mathlib.Data.List.Sort
import Mathlib.Data.String.Basic
import Mathlib.Order.Bounds.Basic
import PolarBear.Quota.Limits

/-!
# Checking values against limits

`limit_check` compares values with the limit of the project and with that of the
user, and reports the resources that are over one of them. For each of these it
also reports a headroom, which is the limit of the project: the second table that
is asked is the one that the limit came from.

`limitCheck_reports_iff` says when the headroom is the largest value that would
pass.
-/

namespace PolarBear.Quota

open PolarBear.Fallible

/-- The exceptions of `limit_check`. -/
inductive LimitError where
  | invalidQuotaMethodUsage (method res : String)
  | invalidQuotaValue (unders : List String)
  | quotaResourceUnknown (unknown : List String)
  | keyError (key : String)
  | overQuota (overs : List String) (quotas headroom : List (String × Int))
  deriving DecidableEq, Repr

/-- `sorted(names)`. -/
def sortedNames (names : List String) : List String := names.insertionSort (fun a b => a ≤ b)

theorem sortedNames_pairwise (names : List String) :
    (sortedNames names).Pairwise (fun a b => a ≤ b) := List.pairwise_insertionSort _ names

theorem sortedNames_perm (names : List String) : (sortedNames names).Perm names :=
  List.perm_insertionSort _ names

/-- `_valid_method_call_check_resource`, for the registry `QUOTAS`. -/
def validMethodCallCheckResource (registry : Resources) (method name : String) :
    Except LimitError Unit :=
  match registry.values.find? (fun r => r.name == name) with
  | none => .error (.invalidQuotaMethodUsage method name)
  | some res =>
    if res.validMethod != method then .error (.invalidQuotaMethodUsage method name) else .ok ()

/-- `_valid_method_call_check_resources`. -/
def validMethodCallCheckResources (registry : Resources) (method : String) (names : List String) :
    Except LimitError Unit :=
  names.forM (validMethodCallCheckResource registry method)

section

variable (t : LimitTables) (ctxt : QuotaContext) (resources : Resources)

/-- `_get_quotas`, without usages. -/
def getQuotas (keys : List String) (hasSync : Bool) (project user : Option String)
    (projectQuotas : Option (List (String × Int))) : Except LimitError (List (String × Int)) :=
  let subResources := resources.values.filter
    (fun r => decide (r.name ∈ keys) && (r.hasSync == hasSync))
  if keys.length ≠ subResources.length then
    .error (.quotaResourceUnknown
      (sortedNames (keys.filter (fun k => decide (k ∉ subResources.map Resource.name)))))
  else
    let quotas :=
      if isGiven user then
        getUserQuotas t ctxt subResources project user ctxt.quotaClass true false projectQuotas none
      else
        getProjectQuotas t ctxt subResources project ctxt.quotaClass true false false projectQuotas
    .ok (quotas.map (fun kv => (kv.1, kv.2.limit)))

end

/-- `d[key]`. -/
def getLimit (key : String) (d : List (String × Int)) : Except LimitError Int :=
  match d.lookup key with
  | some n => .ok n
  | none => .error (.keyError key)

/-- `0 <= limit < val`. -/
def exceeds (limit val : Int) : Bool := decide (0 ≤ limit ∧ limit < val)

/-- The condition of `overs`; the limit of the user is read where the one of the
project does not decide. -/
def isOverLimit (quotas userQuotas : List (String × Int)) (kv : String × Int) :
    Except LimitError Bool := do
  let quota ← getLimit kv.1 quotas
  if exceeds quota kv.2 then .ok true
  else do
    let userQuota ← getLimit kv.1 userQuotas
    .ok (exceeds userQuota kv.2)

/-- The keys that are over a limit. -/
def overLimits (quotas userQuotas : List (String × Int)) :
    List (String × Int) → Except LimitError (List String)
  | [] => .ok []
  | kv :: values => do
    let isOver ← isOverLimit quotas userQuotas kv
    let overs ← overLimits quotas userQuotas values
    .ok (if isOver then kv.1 :: overs else overs)

/-- `min(val for val in (quotas.get(key), project_quotas.get(key)) if val is not None)`. -/
def headroomOf (quotas projectQuotas : List (String × Int)) (key : String) :
    Except LimitError Int :=
  match quotas.lookup key, projectQuotas.lookup key with
  | some a, some b => .ok (min a b)
  | some a, none => .ok a
  | none, some b => .ok b
  | none, none => .error (.keyError key)

/-- The project a check is about. -/
def checkedProject (ctxt : QuotaContext) (project : Option String) : Option String :=
  match project with
  | none => ctxt.projectId
  | some project => some project

/-- The user a check is about. -/
def checkedUser (ctxt : QuotaContext) (user : Option String) : Option String :=
  match user with
  | none => ctxt.userId
  | some user => some user

/-- `limit_check`; `registry` is `QUOTAS`. -/
def limitCheck (t : LimitTables) (registry : Resources) (ctxt : QuotaContext)
    (resources : Resources) (values : List (String × Int)) (project user : Option String) :
    Except LimitError Unit := do
  validMethodCallCheckResources registry "check" (Dict.keys values)
  let unders := (values.filter (fun kv => decide (kv.2 < 0))).map Prod.fst
  if unders ≠ [] then .error (.invalidQuotaValue (sortedNames unders))
  else do
    let project := checkedProject ctxt project
    let user := checkedUser ctxt user
    let projectQuotas := quotaGetAllByProject t project
    let keys := Dict.keys values
    let quotas ← getQuotas t ctxt resources keys false project none (some projectQuotas)
    let userQuotas ← getQuotas t ctxt resources keys false project user (some projectQuotas)
    let overs ← overLimits quotas userQuotas values
    if overs ≠ [] then do
      let headroom ← overs.mapM (fun key => do
        let val ← headroomOf quotas projectQuotas key
        .ok (key, val))
      .error (.overQuota (sortedNames overs) quotas headroom)
    else .ok ()

/-! ## What is to be reported -/

/-- The values are not negative and belong to registered resources without a sync
function. -/
structure AbsoluteValues (registry resources : Resources) (values : List (String × Int)) :
    Prop where
  nodup : (Dict.keys values).Nodup
  nonneg : ∀ kv ∈ values, 0 ≤ kv.2
  registered : ∀ key ∈ Dict.keys values, ∃ r ∈ registry.values, r.name = key ∧
    r.validMethod = "check"
  absolute : ∀ key ∈ Dict.keys values, ∃ r ∈ resources.values, r.name = key ∧ r.hasSync = false

section

variable (t : LimitTables) (registry : Resources) (ctxt : QuotaContext) (resources : Resources)
variable (project user : Option String)

/-- The limit of a resource for the project that is checked; an unknown resource
is unlimited. -/
def projectLimitByName (key : String) : Int :=
  ((resources.values.find? (fun r => r.name == key)).map
    (projectLimit t ctxt (checkedProject ctxt project) ctxt.quotaClass)).getD (-1)

/-- The limit that applies to the user that is checked. -/
def userLimitByName (key : String) : Int :=
  if isGiven (checkedUser ctxt user) then
    ((resources.values.find? (fun r => r.name == key)).map
      (userLimit t ctxt (checkedProject ctxt project) (checkedUser ctxt user)
        ctxt.quotaClass)).getD (-1)
  else projectLimitByName t ctxt resources project key

/-- The value is over one of the two limits. -/
def isOverByName (kv : String × Int) : Bool :=
  exceeds (projectLimitByName t ctxt resources project kv.1) kv.2 ||
    exceeds (userLimitByName t ctxt resources project user kv.1) kv.2

/-- The resources that are over one of their limits. -/
def overNames (values : List (String × Int)) : List String :=
  (values.filter (isOverByName t ctxt resources project user)).map Prod.fst

/-- `limit_check` raises exactly where a value is over a limit; what it raises
names the resources that are, and the largest values that would pass. -/
structure ReportsLimits (values : List (String × Int)) : Prop where
  raises : (∃ overs quotas headroom,
      limitCheck t registry ctxt resources values project user =
        .error (.overQuota overs quotas headroom)) ↔
    ∃ kv ∈ values, isOverByName t ctxt resources project user kv = true
  passes : (∀ kv ∈ values, isOverByName t ctxt resources project user kv = false) →
    limitCheck t registry ctxt resources values project user = .ok ()
  report : ∀ overs quotas headroom,
    limitCheck t registry ctxt resources values project user =
        .error (.overQuota overs quotas headroom) →
      overs.Perm (overNames t ctxt resources project user values) ∧
      overs.Pairwise (fun a b => a ≤ b) ∧
      (∀ key, key ∈ Dict.keys headroom ↔ key ∈ overs) ∧
      ∀ kv ∈ headroom, IsGreatest
        {v : Int | limitCheck t registry ctxt resources [(kv.1, v)] project user = .ok ()} kv.2

/-- A resource that is over a limit has one for its project, and its user has no
smaller one. -/
def ProjectLimitCounts (values : List (String × Int)) : Prop :=
  ∀ kv ∈ values, isOverByName t ctxt resources project user kv = true →
    0 ≤ projectLimitByName t ctxt resources project kv.1 ∧
      (userLimitByName t ctxt resources project user kv.1 < 0 ∨
        projectLimitByName t ctxt resources project kv.1 ≤
          userLimitByName t ctxt resources project user kv.1)

end

/-! ## Reading the limits -/

section

variable {t : LimitTables} {registry : Resources} {ctxt : QuotaContext} {resources : Resources}

theorem validMethodCallCheckResources_ok {names : List String}
    (h : ∀ key ∈ names, ∃ r ∈ registry.values, r.name = key ∧ r.validMethod = "check") :
    validMethodCallCheckResources registry "check" names = .ok () := by
  induction names with
  | nil => rfl
  | cons key names ih =>
    obtain ⟨r, hr, hname, hmethod⟩ := h key (List.mem_cons_self ..)
    have hfind : registry.values.find? (fun r => r.name == key) = some r :=
      hname ▸ find?_name registry.nodup hr
    have hone : validMethodCallCheckResource registry "check" key = .ok () := by
      unfold validMethodCallCheckResource
      simp [hfind, hmethod]
    unfold validMethodCallCheckResources at ih ⊢
    rw [List.forM, hone]
    exact ih (fun key' hkey' => h key' (List.mem_cons_of_mem _ hkey'))

/-- Each of the keys has one resource without a sync function. -/
theorem length_subResources {values : List (String × Int)}
    (h : AbsoluteValues registry resources values) :
    (Dict.keys values).length = (resources.values.filter
      (fun r => decide (r.name ∈ Dict.keys values) && (r.hasSync == false))).length := by
  have hperm : (Dict.keys values).Perm ((resources.values.filter
      (fun r => decide (r.name ∈ Dict.keys values) && (r.hasSync == false))).map
        Resource.name) := by
    rw [List.perm_ext_iff_of_nodup h.nodup (resources.nodup.sublist (List.filter_sublist.map _))]
    intro key
    simp only [List.mem_map, List.mem_filter, Bool.and_eq_true, decide_eq_true_eq, beq_iff_eq]
    constructor
    · intro hkey
      obtain ⟨r, hr, rfl, hsync⟩ := h.absolute key hkey
      exact ⟨r, ⟨hr, hkey, hsync⟩, rfl⟩
    · rintro ⟨r, ⟨-, hkey, -⟩, rfl⟩
      exact hkey
  rw [hperm.length_eq, List.length_map]

/-- The limit that `_get_quotas` gives for a resource. -/
def resolvedLimit (t : LimitTables) (ctxt : QuotaContext) (project user : Option String)
    (r : Resource) : Int :=
  if isGiven user then userLimit t ctxt project user ctxt.quotaClass r
  else projectLimit t ctxt project ctxt.quotaClass r

theorem getQuotas_ok (t : LimitTables) (ctxt : QuotaContext) {values : List (String × Int)}
    (h : AbsoluteValues registry resources values) (project user : Option String) :
    ∃ quotas, getQuotas t ctxt resources (Dict.keys values) false project user
        (some (quotaGetAllByProject t project)) = .ok quotas ∧
      ∀ key ∈ Dict.keys values, ∃ r ∈ resources.values, r.name = key ∧
        quotas.lookup key = some (resolvedLimit t ctxt project user r) := by
  have hlength := length_subResources h
  generalize hsub : resources.values.filter
    (fun r => decide (r.name ∈ Dict.keys values) && (r.hasSync == false)) = sub at hlength
  have hnodup : (sub.map Resource.name).Nodup := by
    rw [← hsub]
    exact resources.nodup.sublist (List.filter_sublist.map _)
  refine ⟨sub.map (fun r => (r.name, resolvedLimit t ctxt project user r)), ?_, ?_⟩
  · unfold getQuotas
    simp only [hsub, hlength, ne_eq, not_true_eq_false, if_false, Except.ok.injEq]
    unfold resolvedLimit
    split
    · unfold getUserQuotas
      simp only [Option.getD_some, Option.getD_none, Bool.false_eq_true, if_false,
        processQuotas_all, List.map_map, limitOf_withProjectQuotas]
      rfl
    · unfold getProjectQuotas
      simp only [Option.getD_some, Bool.false_eq_true, if_false, processQuotas_all, List.map_map]
      rfl
  · intro key hkey
    obtain ⟨r, hr, rfl, hsync⟩ := h.absolute key hkey
    refine ⟨r, hr, rfl, lookup_map_name hnodup _ ?_⟩
    rw [← hsub, List.mem_filter]
    simp [hr, hkey, hsync]

/-- What is over a limit, given what was read of the limits. -/
theorem overLimits_ok {quotas userQuotas : List (String × Int)} {limit limit' : String → Int} :
    ∀ {values : List (String × Int)},
      (∀ key ∈ Dict.keys values, quotas.lookup key = some (limit key)) →
      (∀ key ∈ Dict.keys values, userQuotas.lookup key = some (limit' key)) →
      overLimits quotas userQuotas values = .ok ((values.filter
        (fun kv => exceeds (limit kv.1) kv.2 || exceeds (limit' kv.1) kv.2)).map Prod.fst)
  | [], _, _ => rfl
  | kv :: values, h, h' => by
    have hone : isOverLimit quotas userQuotas kv =
        .ok (exceeds (limit kv.1) kv.2 || exceeds (limit' kv.1) kv.2) := by
      unfold isOverLimit getLimit
      rw [h kv.1 (List.mem_cons_self ..), h' kv.1 (List.mem_cons_self ..)]
      cases hexceeds : exceeds (limit kv.1) kv.2 <;> simp [bind, Except.bind, hexceeds]
    have hrest := overLimits_ok (fun key hkey => h key (List.mem_cons_of_mem _ hkey))
      (fun key hkey => h' key (List.mem_cons_of_mem _ hkey))
    unfold overLimits
    rw [hone, hrest]
    simp only [bind, Except.bind, List.filter_cons]
    cases exceeds (limit kv.1) kv.2 || exceeds (limit' kv.1) kv.2 <;> rfl

end

/-! ## The check -/

section

variable {t : LimitTables} {registry : Resources} {ctxt : QuotaContext} {resources : Resources}
variable {project user : Option String} {values : List (String × Int)}

/-- The project's own row is where its limit comes from. -/
theorem headroomOf_eq {quotas : List (String × Int)} {r : Resource}
    (h : quotas.lookup r.name = some (projectLimit t ctxt project ctxt.quotaClass r)) :
    headroomOf quotas (quotaGetAllByProject t project) r.name =
      .ok (projectLimit t ctxt project ctxt.quotaClass r) := by
  unfold headroomOf
  rw [h]
  cases hrow : (quotaGetAllByProject t project).lookup r.name with
  | none => rfl
  | some n =>
    have hlimit : projectLimit t ctxt project ctxt.quotaClass r = n := by
      unfold projectLimit limitOf
      rw [hrow]
      rfl
    simp [hlimit]

/-- The limits by name are those of the resource with the name. -/
theorem limitByName_eq (t : LimitTables) (ctxt : QuotaContext) (project user : Option String)
    {r : Resource} (hr : r ∈ resources.values) :
    projectLimitByName t ctxt resources project r.name =
        resolvedLimit t ctxt (checkedProject ctxt project) none r ∧
      userLimitByName t ctxt resources project user r.name =
        resolvedLimit t ctxt (checkedProject ctxt project) (checkedUser ctxt user) r := by
  have hfind := find?_name resources.nodup hr
  have hproject : projectLimitByName t ctxt resources project r.name =
      projectLimit t ctxt (checkedProject ctxt project) ctxt.quotaClass r := by
    unfold projectLimitByName
    rw [hfind]
    rfl
  refine ⟨hproject, ?_⟩
  unfold userLimitByName resolvedLimit
  split
  · rw [hfind]
    rfl
  · exact hproject

theorem mem_overNames {key : String} :
    key ∈ overNames t ctxt resources project user values ↔
      ∃ v, (key, v) ∈ values ∧ isOverByName t ctxt resources project user (key, v) = true := by
  unfold overNames
  rw [List.mem_map]
  constructor
  · rintro ⟨⟨key, v⟩, hkv, rfl⟩
    exact ⟨v, List.mem_filter.mp hkv⟩
  · rintro ⟨v, hkv⟩
    exact ⟨(key, v), List.mem_filter.mpr hkv, rfl⟩

/-- **What `limit_check` does** with values of absolute resources. -/
theorem limitCheck_eq (t : LimitTables) (ctxt : QuotaContext) (project user : Option String)
    (h : AbsoluteValues registry resources values) :
    ∃ quotas, limitCheck t registry ctxt resources values project user =
      if overNames t ctxt resources project user values ≠ [] then
        .error (.overQuota (sortedNames (overNames t ctxt resources project user values)) quotas
          ((overNames t ctxt resources project user values).map
            (fun key => (key, projectLimitByName t ctxt resources project key))))
      else .ok () := by
  obtain ⟨quotas, hquotas, hlookup⟩ :=
    getQuotas_ok t ctxt h (checkedProject ctxt project) none
  obtain ⟨userQuotas, huserQuotas, hlookup'⟩ :=
    getQuotas_ok t ctxt h (checkedProject ctxt project) (checkedUser ctxt user)
  have hlimit : ∀ key ∈ Dict.keys values,
      quotas.lookup key = some (projectLimitByName t ctxt resources project key) := by
    intro key hkey
    obtain ⟨r, hr, rfl, hlimit⟩ := hlookup key hkey
    rw [hlimit, (limitByName_eq t ctxt project user hr).1]
  have huser : ∀ key ∈ Dict.keys values,
      userQuotas.lookup key = some (userLimitByName t ctxt resources project user key) := by
    intro key hkey
    obtain ⟨r, hr, rfl, hlimit⟩ := hlookup' key hkey
    rw [hlimit, (limitByName_eq t ctxt project user hr).2]
  have hunders : values.filter (fun kv => decide (kv.2 < 0)) = [] := by
    rw [List.filter_eq_nil_iff]
    intro kv hkv
    have := h.nonneg kv hkv
    simpa using this
  have hheadroom : (overNames t ctxt resources project user values).mapM
      (fun key => do
        let val ← headroomOf quotas (quotaGetAllByProject t (checkedProject ctxt project)) key
        .ok (key, val)) =
      .ok ((overNames t ctxt resources project user values).map
        (fun key => (key, projectLimitByName t ctxt resources project key))) := by
    apply mapM_ok
    intro key hkey
    obtain ⟨v, hkv, -⟩ := mem_overNames.mp hkey
    have hmem : key ∈ Dict.keys values := List.mem_map_of_mem (f := Prod.fst) hkv
    obtain ⟨r, hr, rfl, hresolved⟩ := hlookup key hmem
    rw [headroomOf_eq hresolved, (limitByName_eq t ctxt project user hr).1]
    rfl
  refine ⟨quotas, ?_⟩
  unfold limitCheck
  simp only [validMethodCallCheckResources_ok h.registered, hunders, hquotas, huserQuotas,
    overLimits_ok hlimit huser, bind, Except.bind, List.map_nil, ne_eq, not_true_eq_false, if_false]
  simp only [bind, Except.bind] at hheadroom
  unfold overNames isOverByName at hheadroom ⊢
  rw [hheadroom]

/-- A single value passes where it is over neither limit. -/
theorem limitCheck_single (h : AbsoluteValues registry resources values) {key : String} {v : Int}
    (hkey : key ∈ Dict.keys values) :
    limitCheck t registry ctxt resources [(key, v)] project user = .ok () ↔
      0 ≤ v ∧ isOverByName t ctxt resources project user (key, v) = false := by
  have hregistered : ∀ key' ∈ Dict.keys [(key, v)], key' ∈ Dict.keys values := by
    intro key' hkey'
    rw [List.mem_singleton.mp hkey']
    exact hkey
  by_cases hv : 0 ≤ v
  · have hsingle : AbsoluteValues registry resources [(key, v)] :=
      { nodup := List.nodup_singleton key
        nonneg := fun kv hkv => by rw [List.mem_singleton.mp hkv]; exact hv
        registered := fun key' hkey' => h.registered key' (hregistered key' hkey')
        absolute := fun key' hkey' => h.absolute key' (hregistered key' hkey') }
    obtain ⟨quotas, heq⟩ := limitCheck_eq t ctxt project user hsingle
    rw [heq]
    unfold overNames
    cases hover : isOverByName t ctxt resources project user (key, v) <;> simp [hover, hv]
  · -- a negative value is refused before the limits are read
    have hvalid := validMethodCallCheckResources_ok
      (fun key' hkey' => h.registered key' (hregistered key' hkey'))
    unfold limitCheck
    rw [hvalid]
    simp [bind, Except.bind, hv]

/-- **The headroom is the largest value that passes** where the limit of the
project is the one that counts. -/
theorem isGreatest_projectLimit_iff (h : AbsoluteValues registry resources values) {key : String}
    (hkey : key ∈ Dict.keys values) :
    IsGreatest {v : Int | limitCheck t registry ctxt resources [(key, v)] project user = .ok ()}
        (projectLimitByName t ctxt resources project key) ↔
      0 ≤ projectLimitByName t ctxt resources project key ∧
        (userLimitByName t ctxt resources project user key < 0 ∨
          projectLimitByName t ctxt resources project key ≤
            userLimitByName t ctxt resources project user key) := by
  have hset : {v : Int | limitCheck t registry ctxt resources [(key, v)] project user = .ok ()} =
      {v : Int | 0 ≤ v ∧ isOverByName t ctxt resources project user (key, v) = false} :=
    Set.ext (fun v => limitCheck_single h hkey)
  rw [hset]
  simp only [isOverByName, exceeds, IsGreatest, mem_upperBounds, Set.mem_ofPred_eq,
    Bool.or_eq_false_iff, decide_eq_false_iff_not]
  generalize projectLimitByName t ctxt resources project key = limit
  generalize userLimitByName t ctxt resources project user key = limit'
  constructor
  · rintro ⟨⟨hpos, -, hle⟩, -⟩
    omega
  · intro hcond
    refine ⟨by omega, ?_⟩
    intro v hv
    omega

/-- **The report is right** exactly where the limit of the project is the one that
counts, for every resource that is over a limit. -/
theorem limitCheck_reports_iff (t : LimitTables) (ctxt : QuotaContext)
    (project user : Option String) (h : AbsoluteValues registry resources values) :
    ReportsLimits t registry ctxt resources project user values ↔
      ProjectLimitCounts t ctxt resources project user values := by
  obtain ⟨quotas, heq⟩ := limitCheck_eq t ctxt project user h
  have hkeys : ∀ {key : String}, key ∈ overNames t ctxt resources project user values →
      key ∈ Dict.keys values := by
    intro key hkey
    obtain ⟨v, hkv, -⟩ := mem_overNames.mp hkey
    exact List.mem_map_of_mem (f := Prod.fst) hkv
  have hnone : overNames t ctxt resources project user values = [] ↔
      ∀ kv ∈ values, isOverByName t ctxt resources project user kv = false := by
    unfold overNames
    rw [List.map_eq_nil_iff, List.filter_eq_nil_iff]
    simp only [Bool.not_eq_true]
  constructor
  · intro hreports kv hkv hover
    have hmem : kv.1 ∈ overNames t ctxt resources project user values :=
      mem_overNames.mpr ⟨kv.2, hkv, hover⟩
    rw [if_pos (List.ne_nil_of_mem hmem)] at heq
    have hgreatest := (hreports.report _ _ _ heq).2.2.2 (kv.1, _) (List.mem_map_of_mem hmem)
    exact (isGreatest_projectLimit_iff h (hkeys hmem)).mp hgreatest
  · intro hcounts
    refine ⟨?_, ?_, ?_⟩
    · constructor
      · rintro ⟨overs, quotas', headroom, hraised⟩
        by_contra hall
        rw [if_neg (not_not.mpr (hnone.mpr (by simpa using hall))), hraised] at heq
        cases heq
      · rintro ⟨kv, hkv, hover⟩
        have hmem : kv.1 ∈ overNames t ctxt resources project user values :=
          mem_overNames.mpr ⟨kv.2, hkv, hover⟩
        rw [if_pos (List.ne_nil_of_mem hmem)] at heq
        exact ⟨_, _, _, heq⟩
    · intro hall
      rw [heq, if_neg (not_not.mpr (hnone.mpr hall))]
    · intro overs quotas' headroom hraised
      rw [heq] at hraised
      split at hraised
      · cases hraised
        have hperm := sortedNames_perm (overNames t ctxt resources project user values)
        refine ⟨hperm, ?_, ?_, ?_⟩
        · exact sortedNames_pairwise _
        · intro key
          unfold Dict.keys
          rw [hperm.mem_iff, List.map_map]
          simp
        · intro kv hkv
          obtain ⟨key, hkey, rfl⟩ := List.mem_map.mp hkv
          obtain ⟨v, hv, hover⟩ := mem_overNames.mp hkey
          exact (isGreatest_projectLimit_iff h (hkeys hkey)).mpr (hcounts _ hv hover)
      · cases hraised

end

/-! ## A user with a smaller limit -/

/-- Five injected files for the project, and a limit for its user `a`. -/
def filesTables (limitOfA : Int) : LimitTables where
  quotas := [⟨some "p", "injected_files", 5⟩]
  userQuotas := [⟨some "p", "a", "injected_files", limitOfA⟩]
  classes := []
  usages := Table.empty
  distinct := List.pairwise_singleton ..

def filesContext : QuotaContext := ⟨some "p", some "a", none⟩

def filesResources : Resources :=
  ⟨[⟨"injected_files", 5, "check", false⟩], List.nodup_singleton _⟩

theorem absoluteValues_files :
    AbsoluteValues filesResources filesResources [("injected_files", 7)] where
  nodup := List.nodup_singleton _
  nonneg := by decide
  registered := by decide
  absolute := by decide

theorem limitCheck_reports_files :
    ReportsLimits (filesTables 6) filesResources filesContext filesResources none none
      [("injected_files", 7)] :=
  (limitCheck_reports_iff (filesTables 6) filesContext none none absoluteValues_files).mpr
    (by unfold ProjectLimitCounts; decide)

/-- The user may have 3 files, and the headroom of 5 is refused again. -/
theorem limitCheck_user_limit :
    limitCheck (filesTables 3) filesResources filesContext filesResources [("injected_files", 7)]
        none none =
      .error (.overQuota ["injected_files"] [("injected_files", 5)] [("injected_files", 5)]) ∧
    limitCheck (filesTables 3) filesResources filesContext filesResources [("injected_files", 5)]
        none none =
      .error (.overQuota ["injected_files"] [("injected_files", 5)] [("injected_files", 5)]) ∧
    ¬ReportsLimits (filesTables 3) filesResources filesContext filesResources none none
      [("injected_files", 7)] := by
  have hcheck : ∀ n : Int, n = 7 ∨ n = 5 →
      limitCheck (filesTables 3) filesResources filesContext filesResources [("injected_files", n)]
          none none =
        .error (.overQuota ["injected_files"] [("injected_files", 5)] [("injected_files", 5)]) := by
    rintro n (rfl | rfl) <;> rfl
  refine ⟨hcheck 7 (.inl rfl), hcheck 5 (.inr rfl), ?_⟩
  intro hreports
  have hgreatest := (hreports.report _ _ _ (hcheck 7 (.inl rfl))).2.2.2 _ (List.mem_cons_self ..)
  have haccepted : limitCheck (filesTables 3) filesResources filesContext filesResources
      [("injected_files", 5)] none none = .ok () := hgreatest.1
  rw [hcheck 5 (.inr rfl)] at haccepted
  cases haccepted

end PolarBear.Quota
