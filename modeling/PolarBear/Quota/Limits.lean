import PolarBear.Quota.Usage

/-!
# The limits of projects and of their users

`DbQuotaDriver` reads the limit of a resource from three tables: the row of the
project in `quotas`, the row of a quota class, and the row of the class `default`;
below them stands the default of the resource itself. A user has a row of
`project_user_quotas`, or else the limit of the project. A limit below 0 is
unlimited.

Deleted rows are left out, which the contexts of requests do not read. A row of
`project_user_quotas` is the only one of its project, user and resource. The
dictionaries that the database functions return also have entries for the project,
the user or the class they are about; no resource has such a name, and they are
left out.
-/

namespace PolarBear.Quota

/-! ## The tables -/

/-- A row of `quotas`. -/
structure ProjectQuota where
  projectId : Option String
  resource : String
  hardLimit : Int
  deriving DecidableEq, Repr

/-- A row of `project_user_quotas`. -/
structure ProjectUserQuota where
  projectId : Option String
  userId : String
  resource : String
  hardLimit : Int
  deriving DecidableEq, Repr

/-- A row of `quota_classes`. -/
structure QuotaClass where
  className : String
  resource : String
  hardLimit : Int
  deriving DecidableEq, Repr

/-- Two rows for different users, projects or resources. -/
def ProjectUserQuota.Distinct (q q' : ProjectUserQuota) : Prop :=
  (q.projectId, q.userId, q.resource) ≠ (q'.projectId, q'.userId, q'.resource)

instance (q q' : ProjectUserQuota) : Decidable (q.Distinct q') :=
  inferInstanceAs (Decidable (_ ≠ _))

/-- What the driver reads. -/
structure LimitTables where
  quotas : List ProjectQuota
  userQuotas : List ProjectUserQuota
  classes : List QuotaClass
  usages : UsageTable
  distinct : userQuotas.Pairwise ProjectUserQuota.Distinct

/-- A registered resource: `default` is the value of its flag or -1. -/
structure Resource where
  name : String
  default : Int
  validMethod : String
  /-- `hasattr(resource, 'sync')`. -/
  hasSync : Bool
  deriving DecidableEq, Repr

/-- The registered resources, under their names. -/
structure Resources where
  values : List Resource
  nodup : (values.map Resource.name).Nodup

/-- The parts of a request context that are read. -/
structure QuotaContext where
  projectId : Option String
  userId : Option String
  quotaClass : Option String

/-- The text is neither `None` nor empty. -/
def isGiven (text : Option String) : Bool := text.getD "" != ""

/-! ## The functions of the database -/

section

variable (t : LimitTables)

/-- `quota_get_all_by_project`. -/
def quotaGetAllByProject (project : Option String) : List (String × Int) :=
  let rows := t.quotas.filter (fun q => q.projectId == project)
  Dict.update [] (rows.map (fun q => (q.resource, q.hardLimit)))

/-- `quota_get_all_by_project_and_user`. -/
def quotaGetAllByProjectAndUser (project user : Option String) : List (String × Int) :=
  let rows := t.userQuotas.filter (fun q => q.projectId == project && some q.userId == user)
  Dict.update [] (rows.map (fun q => (q.resource, q.hardLimit)))

/-- `quota_get_all`. -/
def quotaGetAll (project : Option String) : List ProjectUserQuota :=
  t.userQuotas.filter (fun q => q.projectId == project)

/-- `quota_class_get_all_by_name`. -/
def quotaClassGetAllByName (className : String) : List (String × Int) :=
  let rows := t.classes.filter (fun q => q.className == className)
  Dict.update [] (rows.map (fun q => (q.resource, q.hardLimit)))

/-- `quota_class_get_default`. -/
def quotaClassGetDefault : List (String × Int) := quotaClassGetAllByName t "default"

/-- One row of `_quota_usage_get_all`. -/
def addUsage (result : List (String × Int × Int)) (row : QuotaUsage) : List (String × Int × Int) :=
  match result.lookup row.resource with
  | some (inUse, reserved) =>
    Dict.set row.resource (inUse + row.inUse, reserved + row.reserved) result
  | none => Dict.set row.resource (row.inUse, row.reserved) result

/-- `_quota_usage_get_all`: what is in use and what is reserved of a resource. -/
def quotaUsageGetAll (project user : Option String) : List (String × Int × Int) :=
  let rows := t.usages.rows.filter (ofProject project)
  (if isGiven user then rows.filter (ofUser user) else rows).foldl addUsage []

/-! ## The driver -/

/-- What `_process_quotas` says about a resource; `in_use`, `reserved` and
`remains` are entries that need not be there. -/
structure QuotaEntry where
  limit : Int
  inUse : Option Int
  reserved : Option Int
  remains : Option Int
  deriving DecidableEq, Repr

/-- `get_defaults`, for one resource. -/
def getDefault (r : Resource) : Int := ((quotaClassGetDefault t).lookup r.name).getD r.default

/-- The quotas of the class that applies to the project. -/
def classQuotas (ctxt : QuotaContext) (project quotaClass : Option String) :
    List (String × Int) :=
  let quotaClass := if project = ctxt.projectId then ctxt.quotaClass else quotaClass
  if isGiven quotaClass then quotaClassGetAllByName t (quotaClass.getD "") else []

/-- The limit of a resource, in the order in which the tables are asked. -/
def limitOf (quotas classQuotas : List (String × Int)) (r : Resource) : Int :=
  (quotas.lookup r.name).getD ((classQuotas.lookup r.name).getD (getDefault t r))

/-- The entry of a resource, before the limits of users are subtracted. -/
def quotaEntry (limit : Int) (usages : Option (List (String × Int × Int))) (remains : Bool)
    (name : String) : QuotaEntry where
  limit := limit
  inUse := usages.map (fun usages => ((usages.lookup name).getD (0, 0)).1)
  reserved := usages.map (fun usages => ((usages.lookup name).getD (0, 0)).2)
  remains := if remains then some limit else none

/-- `modified_quotas[quota.resource]['remains'] -= quota.hard_limit`. -/
def subtractLimit (quotas : List (String × QuotaEntry)) (q : ProjectUserQuota) :
    List (String × QuotaEntry) :=
  match quotas.lookup q.resource with
  | some entry =>
    Dict.set q.resource { entry with remains := entry.remains.map (· - q.hardLimit) } quotas
  | none => quotas

/-- `_process_quotas`; a dictionary of usages is never empty, `none` is its
absence. -/
def processQuotas (ctxt : QuotaContext) (resources : List Resource) (project : Option String)
    (quotas : List (String × Int)) (quotaClass : Option String) (defaults : Bool)
    (usages : Option (List (String × Int × Int))) (remains : Bool) : List (String × QuotaEntry) :=
  let classQuotas := classQuotas t ctxt project quotaClass
  let reported := resources.filter (fun r => defaults || (quotas.lookup r.name).isSome)
  let modified := reported.map (fun r =>
    (r.name, quotaEntry (limitOf t quotas classQuotas r) usages remains r.name))
  if remains then (quotaGetAll t project).foldl subtractLimit modified else modified

/-- The limits of a user, with those of the project where the user has none. -/
def withProjectQuotas (projectQuotas userQuotas : List (String × Int)) : List (String × Int) :=
  projectQuotas.foldl
    (fun quotas kv => if (quotas.lookup kv.1).isSome then quotas else Dict.set kv.1 kv.2 quotas)
    userQuotas

/-- `get_user_quotas`. -/
def getUserQuotas (ctxt : QuotaContext) (resources : List Resource) (project user : Option String)
    (quotaClass : Option String) (defaults usages : Bool)
    (projectQuotas userQuotas : Option (List (String × Int))) : List (String × QuotaEntry) :=
  let userQuotas := userQuotas.getD (quotaGetAllByProjectAndUser t project user)
  let projectQuotas := projectQuotas.getD (quotaGetAllByProject t project)
  processQuotas t ctxt resources project (withProjectQuotas projectQuotas userQuotas) quotaClass
    defaults (if usages then some (quotaUsageGetAll t project user) else none) false

/-- `get_project_quotas`. -/
def getProjectQuotas (ctxt : QuotaContext) (resources : List Resource) (project : Option String)
    (quotaClass : Option String) (defaults usages remains : Bool)
    (projectQuotas : Option (List (String × Int))) : List (String × QuotaEntry) :=
  let projectQuotas := projectQuotas.getD (quotaGetAllByProject t project)
  processQuotas t ctxt resources project projectQuotas quotaClass defaults
    (if usages then some (quotaUsageGetAll t project none) else none) remains

end

/-! ## The limits that are read -/

section

variable (t : LimitTables)

/-- The limit of the project for a resource. -/
def projectLimit (ctxt : QuotaContext) (project quotaClass : Option String) (r : Resource) : Int :=
  limitOf t (quotaGetAllByProject t project) (classQuotas t ctxt project quotaClass) r

/-- The limit that applies to the user for a resource. -/
def userLimit (ctxt : QuotaContext) (project user quotaClass : Option String) (r : Resource) :
    Int :=
  ((quotaGetAllByProjectAndUser t project user).lookup r.name).getD
    (projectLimit t ctxt project quotaClass r)

theorem lookup_withProjectQuotas (name : String) :
    ∀ (projectQuotas userQuotas : List (String × Int)),
    (withProjectQuotas projectQuotas userQuotas).lookup name =
      (userQuotas.lookup name).or (projectQuotas.lookup name)
  | [], userQuotas => by simp [withProjectQuotas]
  | (k, v) :: projectQuotas, userQuotas => by
    show (withProjectQuotas projectQuotas (if (userQuotas.lookup k).isSome then userQuotas
      else Dict.set k v userQuotas)).lookup name = _
    rw [lookup_withProjectQuotas name projectQuotas]
    by_cases hname : k = name
    · subst hname
      rw [List.lookup_cons_self]
      cases hk : userQuotas.lookup k with
      | none => simp
      | some w => simp [hk]
    · rw [Dict.lookup_cons_ne hname]
      split
      · rfl
      · rw [Dict.lookup_set_ne (fun h => hname h.symm)]

theorem limitOf_withProjectQuotas (projectQuotas userQuotas classQuotas : List (String × Int))
    (r : Resource) :
    limitOf t (withProjectQuotas projectQuotas userQuotas) classQuotas r =
      (userQuotas.lookup r.name).getD (limitOf t projectQuotas classQuotas r) := by
  unfold limitOf
  rw [lookup_withProjectQuotas]
  cases userQuotas.lookup r.name <;> rfl

/-- A resource is found under its name. -/
theorem find?_name : ∀ {resources : List Resource}, (resources.map Resource.name).Nodup →
    ∀ {r : Resource}, r ∈ resources → resources.find? (fun s => s.name == r.name) = some r
  | [], _, _, hr => absurd hr List.not_mem_nil
  | s :: resources, hnodup, r, hr => by
    rw [List.map_cons, List.nodup_cons] at hnodup
    rcases List.mem_cons.mp hr with rfl | hr
    · rw [List.find?_cons_of_pos (by simp)]
    · have hne : s.name ≠ r.name := by
        intro heq
        exact hnodup.1 (heq ▸ List.mem_map_of_mem hr)
      rw [List.find?_cons_of_neg (by simpa using hne)]
      exact find?_name hnodup.2 hr

/-- With defaults, every resource has an entry. -/
theorem processQuotas_all (ctxt : QuotaContext) (resources : List Resource)
    (project : Option String) (quotas : List (String × Int)) (quotaClass : Option String)
    (usages : Option (List (String × Int × Int))) :
    processQuotas t ctxt resources project quotas quotaClass true usages false =
      resources.map (fun r => (r.name, quotaEntry
        (limitOf t quotas (classQuotas t ctxt project quotaClass) r) usages false r.name)) := by
  unfold processQuotas
  simp

/-- The entries of resources with different names. -/
theorem lookup_map_name {α : Type} {resources : List Resource}
    (hnodup : (resources.map Resource.name).Nodup) (f : Resource → α) {r : Resource}
    (hr : r ∈ resources) : (resources.map (fun r => (r.name, f r))).lookup r.name = some (f r) := by
  apply Dict.lookup_of_mem
  · show ((resources.map (fun r => (r.name, f r))).map Prod.fst).Nodup
    rw [List.map_map]
    exact hnodup
  · exact List.mem_map_of_mem hr

end

end PolarBear.Quota
