import PolarBear.Lib.Fallible
import PolarBear.Py.Builtins
import PolarBear.Py.DateTime

/-!
# The request context of an RPC call

The sender's context is turned into a dictionary, and the receiver makes a
context of it: `RequestContext.to_dict` and `from_dict`. Two lists of attributes
have to match, one of them split between the class and its base class, and what
`from_dict` does not pass gets the constructor's default.

A context keeps what its constructor has checked or filled in: one of three
values of `read_deleted`, the required parts of the service catalog, a request
id, and a list of roles that is the empty one if it was not given.

`hop_iff` says which contexts arrive as they were sent.
-/

namespace PolarBear.Rpc

open PolarBear.Py

/-- What the interpreter and the moment of a call contribute: `str()` and
`repr()` of values that are no texts, the time, and a new uuid. -/
structure Moment where
  strOther : Json → String
  repr : Json → String
  utcnow : DateTime
  uuid : String

/-! ## Attributes -/

inductive ReadDeleted where
  | no
  | yes
  | only
  deriving DecidableEq, Repr

def ReadDeleted.text : ReadDeleted → String
  | .no => "no"
  | .yes => "yes"
  | .only => "only"

/-- `_set_read_deleted`. -/
def ReadDeleted.ofJson (m : Moment) (j : Json) : Except PyError ReadDeleted :=
  if j.isText "no" then .ok .no
  else if j.isText "yes" then .ok .yes
  else if j.isText "only" then .ok .only
  else .error (.of .valueError
    ("read_deleted can only be one of 'no', 'yes' or 'only', not " ++ m.repr j))

/-- A time stamp: a time, or a value that was given for one. -/
inductive Timestamp where
  | time (t : DateTime)
  | value (j : Json)

/-- The time stamp the constructor makes of its argument. -/
def Timestamp.given (m : Moment) : Timestamp → Except PyError Timestamp
  | .time t => .ok (.time t)
  | .value j =>
    if !j.truthy then .ok (.time m.utcnow)
    else
      match j with
      | .str s =>
        match strptime s with
        | some t => .ok (.time t)
        | none => .error (.of .valueError "")
      | j => .ok (.value j)

/-- `utils.strtime`. -/
def Timestamp.strtime : Timestamp → Except PyError String
  | .time t => t.strftime
  | .value j => .error (.of .attributeError
      ("'" ++ j.typeName ++ "' object has no attribute 'strftime'"))

/-- The types of services whose part of the catalog is kept. -/
def keptTypes : List String := ["volume", "volumev2", "key-manager", "placement"]

/-- `s.get('type') in ('volume', ...)`. -/
def keptService (s : List (String × Json)) : Bool :=
  keptTypes.any (fun type => (getParam s "type").isText type)

/-- A part of the catalog that is kept. -/
abbrev Service := { s : List (String × Json) // keptService s = true }

/-- An item of a catalog, which is asked for its type. -/
def catalogItem : Json → Except PyError (List (String × Json))
  | .obj s => .ok s
  | j => .error (.of .attributeError ("'" ++ j.typeName ++ "' object has no attribute 'get'"))

/-- Only include required parts of the catalog. -/
def requiredParts (catalog : Json) : Except PyError (List Service) :=
  if catalog.truthy then do
    let items ← catalog.iter
    let services ← items.mapM catalogItem
    .ok (services.filterMap (fun s => if h : keptService s = true then some ⟨s, h⟩ else none))
  else .ok []

/-- `roles or []`. -/
def orEmpty (roles : Json) : Json := if roles.truthy then roles else .arr []

/-- A request id, generated if there is none. -/
def orGenerated (m : Moment) (requestId : Json) : Json :=
  if requestId.truthy then requestId else .str ("req-" ++ m.uuid)

/-- A context: the attributes that are sent. -/
structure RequestContext where
  authToken : Json
  user : Json
  tenant : Json
  domain : Json
  userDomain : Json
  projectDomain : Json
  isAdmin : Json
  isAdminProject : Bool
  readOnly : Bool
  showDeleted : Bool
  requestId : Json
  resourceUuid : Json
  roles : Json
  readDeleted : ReadDeleted
  remoteAddress : Json
  timestamp : Timestamp
  quotaClass : Json
  userName : Json
  projectName : Json
  serviceCatalog : List Service
  instanceLockChecked : Json
  requestId_given : requestId.truthy = true
  roles_given : orEmpty roles = roles

/-- The arguments of the constructor, with its defaults. -/
structure ContextArgs where
  userId : Json := .null
  projectId : Json := .null
  isAdmin : Json := .null
  readDeleted : Json := .str "no"
  remoteAddress : Json := .null
  timestamp : Timestamp := .value .null
  quotaClass : Json := .null
  userName : Json := .null
  projectName : Json := .null
  serviceCatalog : Json := .null
  instanceLockChecked : Json := .bool false
  authToken : Json := .null
  user : Json := .null
  tenant : Json := .null
  domain : Json := .null
  userDomain : Json := .null
  projectDomain : Json := .null
  readOnly : Bool := false
  showDeleted : Bool := false
  requestId : Json := .null
  resourceUuid : Json := .null
  roles : Json := .null
  isAdminProject : Bool := true

theorem orGenerated_truthy (m : Moment) (requestId : Json) :
    (orGenerated m requestId).truthy = true := by
  unfold orGenerated
  split
  · next h => exact h
  · show (("req-" ++ m.uuid) != "") = true
    rw [bne_iff_ne]
    intro h
    have hempty := congrArg String.toList h
    rw [String.toList_append] at hempty
    cases hempty

theorem orEmpty_orEmpty (roles : Json) : orEmpty (orEmpty roles) = orEmpty roles := by
  by_cases h : roles.truthy = true
  · have hsame : orEmpty roles = roles := if_pos h
    rw [hsame, hsame]
  · have hempty : orEmpty roles = .arr [] := if_neg h
    rw [hempty]
    rfl

/-- `RequestContext.__init__`, and that of the base class. -/
def RequestContext.init (m : Moment) (args : ContextArgs) : Except PyError RequestContext := do
  let readDeleted ← ReadDeleted.ofJson m args.readDeleted
  let timestamp ← args.timestamp.given m
  let serviceCatalog ← requiredParts args.serviceCatalog
  .ok
    { authToken := args.authToken
      user := if args.userId.truthy then args.userId else args.user
      tenant := if args.projectId.truthy then args.projectId else args.tenant
      domain := args.domain
      userDomain := args.userDomain
      projectDomain := args.projectDomain
      isAdmin := args.isAdmin
      isAdminProject := args.isAdminProject
      readOnly := args.readOnly
      showDeleted := args.showDeleted
      requestId := orGenerated m args.requestId
      resourceUuid := args.resourceUuid
      roles := orEmpty args.roles
      readDeleted := readDeleted
      remoteAddress := args.remoteAddress
      timestamp := timestamp
      quotaClass := args.quotaClass
      userName := args.userName
      projectName := args.projectName
      serviceCatalog := serviceCatalog
      instanceLockChecked := args.instanceLockChecked
      requestId_given := orGenerated_truthy m args.requestId
      roles_given := orEmpty_orEmpty args.roles }

/-! ## The dictionary -/

/-- `value or '-'`, as a part of the user identity. -/
def identityPart (m : Moment) (j : Json) : String :=
  if j.truthy then
    match j with
    | .str s => s
    | j => m.strOther j
  else "-"

/-- `user_idt_format`. -/
def RequestContext.userIdentity (m : Moment) (c : RequestContext) : String :=
  " ".intercalate [identityPart m c.user, identityPart m c.tenant, identityPart m c.domain,
    identityPart m c.userDomain, identityPart m c.projectDomain]

/-- `to_dict` of the base class. -/
def RequestContext.baseDict (m : Moment) (c : RequestContext) : List (String × Json) :=
  [("user", c.user), ("tenant", c.tenant), ("domain", c.domain), ("user_domain", c.userDomain),
   ("project_domain", c.projectDomain), ("is_admin", c.isAdmin), ("read_only", .bool c.readOnly),
   ("show_deleted", .bool c.showDeleted), ("auth_token", c.authToken),
   ("request_id", c.requestId), ("resource_uuid", c.resourceUuid), ("roles", c.roles),
   ("user_identity", .str (c.userIdentity m)), ("is_admin_project", .bool c.isAdminProject)]

/-- The catalog as a value. -/
def catalogJson (catalog : List Service) : Json := .arr (catalog.map (fun s => .obj s.1))

/-- `RequestContext.to_dict`. -/
def RequestContext.toDict (m : Moment) (c : RequestContext) :
    Except PyError (List (String × Json)) := do
  let timestamp ← c.timestamp.strtime
  let values := Dict.update (c.baseDict m)
    [("user_id", c.user), ("project_id", c.tenant), ("is_admin", c.isAdmin),
     ("read_deleted", .str c.readDeleted.text), ("remote_address", c.remoteAddress),
     ("timestamp", .str timestamp), ("request_id", c.requestId), ("quota_class", c.quotaClass),
     ("user_name", c.userName), ("service_catalog", catalogJson c.serviceCatalog),
     ("project_name", c.projectName), ("instance_lock_checked", c.instanceLockChecked)]
  .ok (Dict.update values [("is_admin_project", .bool c.isAdminProject)])

/-- `RequestContext.from_dict`. -/
def RequestContext.fromDict (m : Moment) (values : List (String × Json)) :
    Except PyError RequestContext :=
  RequestContext.init m
    { userId := getParam values "user_id"
      user := getParam values "user"
      projectId := getParam values "project_id"
      tenant := getParam values "tenant"
      isAdmin := getParam values "is_admin"
      readDeleted := (values.lookup "read_deleted").getD (.str "no")
      roles := getParam values "roles"
      remoteAddress := getParam values "remote_address"
      timestamp := .value (getParam values "timestamp")
      requestId := getParam values "request_id"
      authToken := getParam values "auth_token"
      quotaClass := getParam values "quota_class"
      userName := getParam values "user_name"
      projectName := getParam values "project_name"
      serviceCatalog := getParam values "service_catalog"
      instanceLockChecked := (values.lookup "instance_lock_checked").getD (.bool false) }

/-! ## What arrives -/

variable (m : Moment)

/-- The dictionary, key by key. -/
def RequestContext.sent (c : RequestContext) (timestamp : String) : List (String × Json) :=
  [("user", c.user), ("tenant", c.tenant), ("domain", c.domain), ("user_domain", c.userDomain),
   ("project_domain", c.projectDomain), ("is_admin", c.isAdmin), ("read_only", .bool c.readOnly),
   ("show_deleted", .bool c.showDeleted), ("auth_token", c.authToken),
   ("request_id", c.requestId), ("resource_uuid", c.resourceUuid), ("roles", c.roles),
   ("user_identity", .str (c.userIdentity m)), ("is_admin_project", .bool c.isAdminProject),
   ("user_id", c.user), ("project_id", c.tenant), ("read_deleted", .str c.readDeleted.text),
   ("remote_address", c.remoteAddress), ("timestamp", .str timestamp),
   ("quota_class", c.quotaClass), ("user_name", c.userName),
   ("service_catalog", catalogJson c.serviceCatalog), ("project_name", c.projectName),
   ("instance_lock_checked", c.instanceLockChecked)]

/-- Updating keeps the place of a present key. -/
theorem toDict_values (c : RequestContext) (stamp : String) :
    Dict.update (Dict.update (c.baseDict m)
      [("user_id", c.user), ("project_id", c.tenant), ("is_admin", c.isAdmin),
       ("read_deleted", .str c.readDeleted.text), ("remote_address", c.remoteAddress),
       ("timestamp", .str stamp), ("request_id", c.requestId), ("quota_class", c.quotaClass),
       ("user_name", c.userName), ("service_catalog", catalogJson c.serviceCatalog),
       ("project_name", c.projectName), ("instance_lock_checked", c.instanceLockChecked)])
      [("is_admin_project", .bool c.isAdminProject)] = c.sent m stamp := by
  simp only [Dict.update, RequestContext.baseDict, RequestContext.sent, List.foldl_cons,
    List.foldl_nil, Dict.set, String.reduceEq, if_true, if_false]

theorem toDict_ok_iff {c : RequestContext} {d : List (String × Json)} :
    c.toDict m = .ok d ↔ ∃ stamp, c.timestamp.strtime = .ok stamp ∧ d = c.sent m stamp := by
  unfold RequestContext.toDict
  rw [Fallible.bind_ok_iff]
  constructor
  · rintro ⟨stamp, hstamp, h⟩
    exact ⟨stamp, hstamp, (Except.ok.inj h).symm.trans (toDict_values m c stamp)⟩
  · rintro ⟨stamp, hstamp, rfl⟩
    exact ⟨stamp, hstamp, congrArg Except.ok (toDict_values m c stamp)⟩

/-- A time that can be written is read back, without its zone. -/
theorem given_strtime {t : Timestamp} {stamp : String} (h : t.strtime = .ok stamp) :
    ∃ t' : DateTime, (Timestamp.value (.str stamp)).given m = .ok (.time t') ∧
      (Timestamp.time t').strtime = .ok stamp := by
  cases t with
  | value j => cases h
  | time t =>
    have hwrite : t.strftime = .ok stamp := h
    unfold DateTime.strftime at hwrite
    split at hwrite
    · cases hwrite
    · next hyear =>
      cases hwrite
      refine ⟨⟨t.fields, none, t.valid⟩, ?_, if_neg hyear⟩
      have htruthy : (Json.str (String.ofList t.fields.isoText)).truthy = true := by
        show (String.ofList t.fields.isoText != "") = true
        rw [bne_iff_ne]
        intro hempty
        have hlist := congrArg String.toList hempty
        rw [String.toList_ofList] at hlist
        cases hlist
      show (if (!Json.truthy _) = true then _ else _) = _
      rw [htruthy]
      show (match strptime (String.ofList t.fields.isoText) with
        | some t => Except.ok (Timestamp.time t)
        | none => _) = _
      rw [strptime_isoText t.fields t.valid]

theorem ofJson_text (r : ReadDeleted) : ReadDeleted.ofJson m (.str r.text) = .ok r := by
  cases r <;> rfl

/-- The parts that were kept are kept again. -/
theorem requiredParts_catalogJson (catalog : List Service) :
    requiredParts (catalogJson catalog) = .ok catalog := by
  cases catalog with
  | nil => rfl
  | cons service catalog =>
    have hitems : ∀ l : List Service,
        (l.map (fun s => Json.obj s.1)).mapM catalogItem = .ok (l.map Subtype.val) := by
      intro l
      have hok := Fallible.mapM_ok (f := catalogItem) (g := fun j =>
        match j with
        | .obj s => s
        | _ => []) (l := l.map (fun s => Json.obj s.1)) (by
          intro j hj
          obtain ⟨s, -, rfl⟩ := List.mem_map.mp hj
          rfl)
      rw [hok, List.map_map]
      rfl
    have hkept : ∀ l : List Service, (l.map Subtype.val).filterMap
        (fun s => if h : keptService s = true then some (⟨s, h⟩ : Service) else none) = l := by
      intro l
      induction l with
      | nil => rfl
      | cons s l ih =>
        rw [List.map_cons, List.filterMap_cons, dif_pos s.2, ih]
    have hparts : requiredParts (catalogJson (service :: catalog)) =
        ((service :: catalog).map (fun s => Json.obj s.1)).mapM catalogItem >>= fun services =>
          .ok (services.filterMap
            (fun s => if h : keptService s = true then some (⟨s, h⟩ : Service) else none)) := rfl
    rw [hparts, hitems]
    exact congrArg Except.ok (hkept (service :: catalog))

/-- **What the receiver makes of a context.** -/
def RequestContext.received (c : RequestContext) (t : DateTime) : RequestContext :=
  { c with
    domain := .null
    userDomain := .null
    projectDomain := .null
    isAdminProject := true
    readOnly := false
    showDeleted := false
    resourceUuid := .null
    timestamp := .time t }

theorem fromDict_sent {c : RequestContext} {stamp : String} {t : DateTime}
    (ht : (Timestamp.value (.str stamp)).given m = .ok (.time t)) :
    RequestContext.fromDict m (c.sent m stamp) = .ok (c.received t) := by
  have hfrom : RequestContext.fromDict m (c.sent m stamp) =
      RequestContext.init m
        { userId := c.user, user := c.user, projectId := c.tenant, tenant := c.tenant
          isAdmin := c.isAdmin, readDeleted := .str c.readDeleted.text, roles := c.roles
          remoteAddress := c.remoteAddress, timestamp := .value (.str stamp)
          requestId := c.requestId, authToken := c.authToken, quotaClass := c.quotaClass
          userName := c.userName, projectName := c.projectName
          serviceCatalog := catalogJson c.serviceCatalog
          instanceLockChecked := c.instanceLockChecked } := rfl
  have hid : orGenerated m c.requestId = c.requestId := if_pos c.requestId_given
  have hroles := c.roles_given
  rw [hfrom]
  unfold RequestContext.init
  simp only [ofJson_text, ht, requiredParts_catalogJson, ite_self, hid, hroles]
  rfl

/-- Later, with another time and another uuid. -/
def Moment.later (m : Moment) (utcnow : DateTime) (uuid : String) : Moment :=
  { m with utcnow := utcnow, uuid := uuid }

/-- The dictionary of the receiver's context has the entries that were sent. -/
def Survives (m' : Moment) (d : List (String × Json)) : Prop :=
  ∃ c' d', RequestContext.fromDict m' d = .ok c' ∧ c'.toDict m' = .ok d' ∧
    ∀ k, d'.lookup k = d.lookup k

/-- The attributes that `from_dict` does not pass have their defaults. -/
structure RequestContext.Plain (c : RequestContext) : Prop where
  isAdminProject : c.isAdminProject = true
  domain : c.domain = .null
  userDomain : c.userDomain = .null
  projectDomain : c.projectDomain = .null
  readOnly : c.readOnly = false
  showDeleted : c.showDeleted = false
  resourceUuid : c.resourceUuid = .null

/-- **The hop of a context.** A context whose dictionary can be made arrives with
the same dictionary if and only if the attributes that `from_dict` does not pass
have their defaults. -/
theorem hop_iff {c : RequestContext} {d : List (String × Json)} (h : c.toDict m = .ok d)
    (utcnow : DateTime) (uuid : String) : Survives (m.later utcnow uuid) d ↔ c.Plain := by
  obtain ⟨stamp, hstamp, rfl⟩ := (toDict_ok_iff m).mp h
  obtain ⟨t, ht, hwrite⟩ := given_strtime (m.later utcnow uuid) hstamp
  have hfrom : RequestContext.fromDict (m.later utcnow uuid) (c.sent m stamp) =
      .ok (c.received t) := fromDict_sent (m.later utcnow uuid) ht
  have hto : (c.received t).toDict (m.later utcnow uuid) =
      .ok ((c.received t).sent (m.later utcnow uuid) stamp) :=
    (toDict_ok_iff _).mpr ⟨stamp, hwrite, rfl⟩
  constructor
  · rintro ⟨c', d', hc', hd', hsame⟩
    rw [hfrom] at hc'
    cases hc'
    rw [hto] at hd'
    cases hd'
    -- what the receiver has for a key, and what was sent
    have hkey : ∀ (k : String) {v w : Json},
        ((c.received t).sent (m.later utcnow uuid) stamp).lookup k = some v →
        (c.sent m stamp).lookup k = some w → w = v := by
      intro k v w hv hw
      have hk := hsame k
      rw [hv, hw] at hk
      exact (Option.some.inj hk).symm
    constructor
    · exact Json.bool.inj (hkey "is_admin_project" rfl rfl)
    · exact hkey "domain" rfl rfl
    · exact hkey "user_domain" rfl rfl
    · exact hkey "project_domain" rfl rfl
    · exact Json.bool.inj (hkey "read_only" rfl rfl)
    · exact Json.bool.inj (hkey "show_deleted" rfl rfl)
    · exact hkey "resource_uuid" rfl rfl
  · intro hplain
    refine ⟨_, _, hfrom, hto, fun k => ?_⟩
    congr 1
    unfold RequestContext.sent RequestContext.userIdentity
    rw [hplain.isAdminProject, hplain.domain, hplain.userDomain, hplain.projectDomain,
      hplain.readOnly, hplain.showDeleted, hplain.resourceUuid]
    rfl

/-- Noon of a day. -/
def sampleTime : DateTime := ⟨⟨2017, 3, 1, 12, 0, 0, 0⟩, none, by decide⟩

def sampleMoment : Moment := ⟨fun _ => "", fun _ => "", sampleTime, "0"⟩

/-- The context of a user of a project. -/
def sampleContext (isAdminProject : Bool) : Except PyError RequestContext :=
  RequestContext.init sampleMoment
    { userId := .str "u", projectId := .str "p", isAdmin := .bool false
      isAdminProject := isAdminProject }

theorem hop_sample : ∃ c d, sampleContext true = .ok c ∧ c.toDict sampleMoment = .ok d ∧
    (Survives (sampleMoment.later sampleTime "1") d ↔ c.Plain) := by
  obtain ⟨c, hc⟩ : ∃ c, sampleContext true = .ok c := ⟨_, rfl⟩
  obtain ⟨d, hd⟩ : ∃ d, c.toDict sampleMoment = .ok d := by
    cases hc
    exact ⟨_, rfl⟩
  exact ⟨c, d, hc, hd, hop_iff sampleMoment hd sampleTime "1"⟩

/-- **The privileged default.** The project of the sender is not the admin
project, and that of the receiver's context is. -/
theorem hop_grants_admin_project :
    ∃ c d c' d', sampleContext false = .ok c ∧ c.toDict sampleMoment = .ok d ∧
      RequestContext.fromDict sampleMoment d = .ok c' ∧ c'.toDict sampleMoment = .ok d' ∧
      d.lookup "is_admin_project" = some (.bool false) ∧
      d'.lookup "is_admin_project" = some (.bool true) := by
  obtain ⟨c, hc⟩ : ∃ c, sampleContext false = .ok c := ⟨_, rfl⟩
  obtain ⟨stamp, hstamp⟩ : ∃ stamp, c.timestamp.strtime = .ok stamp := by
    cases hc
    exact ⟨_, rfl⟩
  obtain ⟨t, ht, hwrite⟩ := given_strtime sampleMoment hstamp
  have hadmin : c.isAdminProject = false := by
    cases hc
    rfl
  refine ⟨c, c.sent sampleMoment stamp, c.received t, (c.received t).sent sampleMoment stamp, hc,
    (toDict_ok_iff _).mpr ⟨stamp, hstamp, rfl⟩, fromDict_sent _ ht,
    (toDict_ok_iff _).mpr ⟨stamp, hwrite, rfl⟩, ?_, rfl⟩
  show some (Json.bool c.isAdminProject) = _
  rw [hadmin]

end PolarBear.Rpc
