import PolarBear.Db.Query
import PolarBear.Lib.Interleaving
import PolarBear.Lib.Table
import PolarBear.Quota.Usage

/-!
# The default security group

Every project has a group `default`, which `security_group_ensure_default` creates where there is
none, with the default rules and one more on the user's quota. Two callers may both see none; the
unique constraint on project and name lets one of them insert, and the other reads what that one
has inserted. A transaction is taken in two steps, what it has read and what it writes; a statement
reads what was committed before.

`defaultGroups_once` says what this comes to among callers that also create, rename and delete
groups: a default group is created again only after it was renamed or deleted, every creation
counts once on the quota, and where nobody renames or deletes a group nobody is turned away.
-/

namespace PolarBear.SecurityGroups

open Transactions Db
open Transition (Run)
open Transactions.Prog (transaction reading compute)
open PolarBear.Quota (QuotaUsage UsageTable)

/-- A row of `security_groups`. -/
structure SecurityGroup where
  id : Nat
  name : String
  description : String
  userId : Option String
  projectId : Option String
  deleted : Bool
  deriving DecidableEq, Repr

/-- A row of `security_group_rules`. -/
structure IngressRule where
  id : Nat
  parentGroupId : Nat
  groupId : Option Nat
  protocol : String
  fromPort : Int
  toPort : Int
  cidr : Option String
  deleted : Bool
  deriving DecidableEq, Repr

/-- A row of `security_group_default_rules`. -/
structure IngressDefaultRule where
  id : Nat
  protocol : String
  fromPort : Int
  toPort : Int
  cidr : Option String
  deleted : Bool
  deriving DecidableEq, Repr

/-- A row of `security_group_instance_association`. -/
structure InstanceAssociation where
  securityGroupId : Nat
  instanceUuid : String
  deleted : Bool
  deriving DecidableEq, Repr

/-- What the unique constraint is on; a group without a project never violates it. -/
def SecurityGroup.key (g : SecurityGroup) : Option String × String := (g.projectId, g.name)

def SecurityGroup.constrained (g : SecurityGroup) : Bool := !g.deleted && g.projectId.isSome

/-- The groups, no two of a project with the same name. -/
structure Groups where
  table : Table SecurityGroup SecurityGroup.id
  uniq : ((table.rows.filter SecurityGroup.constrained).map SecurityGroup.key).Nodup

/-- The tables. -/
structure Tables where
  groups : Groups
  rules : Table IngressRule IngressRule.id
  defaultRules : List IngressDefaultRule
  associations : List InstanceAssociation
  usages : UsageTable

/-- The exceptions. -/
inductive GroupError where
  | nova (e : NovaError)
  | securityGroupExists (projectId : Option String) (name : String)
  | securityGroupNotFound (id : Nat)
  | securityGroupNotFoundForProject (projectId : Option String) (name : String)
  | typeError
  deriving DecidableEq, Repr

/-- The steps of transactions. -/
inductive Step where
  | read
  | write
  deriving DecidableEq, Repr

/-- Programs on groups; the input of a step is the time. -/
abbrev GroupProg := Prog Nat Step Tables GroupError

/-- The rows a filter on `deleted` shows. -/
def marked (shown : Nat → Bool) (deleted : Bool) : Bool := shown (if deleted then 1 else 0)

/-! ## Writing groups -/

/-- A new group, unless the constraint refuses it. -/
def Groups.insert? (t : Groups) (row : Nat → SecurityGroup) (hid : ∀ id, (row id).id = id) :
    Option Groups :=
  if h : (row t.table.next).key ∈
      (t.table.rows.filter SecurityGroup.constrained).map SecurityGroup.key then none
  else some {
    table := t.table.insert row hid
    uniq := by
      show (((t.table.rows ++ [row t.table.next]).filter SecurityGroup.constrained).map
        SecurityGroup.key).Nodup
      rw [List.filter_append, List.map_append, List.nodup_append]
      refine ⟨t.uniq, ?_, fun a ha b hb => ?_⟩
      · exact (List.nodup_singleton _).sublist (List.filter_sublist.map _)
      · obtain ⟨g, hg, rfl⟩ := List.mem_map.mp hb
        rw [List.mem_singleton.mp (List.mem_filter.mp hg).1]
        exact fun he => h (he ▸ ha) }

/-- The group is deleted softly. -/
def SecurityGroup.softDelete (g : SecurityGroup) : SecurityGroup := { g with deleted := true }

/-- The groups that match are deleted. -/
def Groups.softDelete (t : Groups) (p : SecurityGroup → Bool) : Groups where
  table := t.table.modify p SecurityGroup.softDelete (fun _ => rfl)
  uniq := by
    refine t.uniq.sublist ?_
    show ((t.table.rows.map (fun g => if p g then g.softDelete else g)).filter
      SecurityGroup.constrained).map SecurityGroup.key |>.Sublist _
    rw [filter_map_dead (fun g _ => Bool.false_ne_true)]
    exact List.filter_sublist.map _

/-- What `update` writes. -/
def SecurityGroup.rename (name description : Option String) (g : SecurityGroup) : SecurityGroup :=
  { g with name := name.getD g.name, description := description.getD g.description }

/-- The group of an id is changed, unless the constraint refuses it. -/
def Groups.rename? (t : Groups) (id : Nat) (name description : Option String) : Option Groups :=
  if h : (((t.table.modify (fun g => g.id == id) (SecurityGroup.rename name description)
      (fun _ => rfl)).rows.filter SecurityGroup.constrained).map SecurityGroup.key).Nodup then
    some ⟨t.table.modify (fun g => g.id == id) (SecurityGroup.rename name description)
      (fun _ => rfl), h⟩
  else none

/-! ## The calls -/

/-- The rows of a project with one of the names. -/
def groupsNamed (s : Tables) (projectId : Option String) (names : List String) :
    List SecurityGroup :=
  s.groups.table.rows.filter (fun g => !g.deleted && g.projectId == projectId &&
    names.contains g.name)

/-- `_security_group_get_by_names`; it returns `None` if there are too many. -/
def securityGroupGetByNames (ctxt : Context) (groupNames : List String) (s : Tables) :
    Except GroupError (Option (List SecurityGroup)) :=
  let sgModels := groupsNamed s ctxt.projectId groupNames
  if sgModels.length = groupNames.length then .ok (some sgModels)
  else
    match groupNames.find? (fun name => !(sgModels.map SecurityGroup.name).contains name) with
    | some name => .error (.securityGroupNotFoundForProject ctxt.projectId name)
    | none => .ok none

/-- `security_group_get_by_name`. -/
def securityGroupGetByName (ctxt : Context) (projectId : Option String) (groupName : String) :
    GroupProg SecurityGroup := do
  compute ((requireContext ctxt).mapError .nova)
  reading .read (fun s =>
    match (groupsNamed s projectId [groupName]).head? with
    | some g => .ok g
    | none => .error (.securityGroupNotFoundForProject projectId groupName))

/-- `security_group_create`, with the row. -/
def securityGroupCreate (ctxt : Context) (name description : String)
    (userId projectId : Option String) (s : Tables) : Except GroupError (SecurityGroup × Tables) :=
  match requireContext ctxt with
  | .error e => .error (.nova e)
  | .ok () =>
    match s.groups.insert? (fun id => ⟨id, name, description, userId, projectId, false⟩)
        (fun _ => rfl) with
    | some groups => .ok (⟨s.groups.table.next, name, description, userId, projectId, false⟩,
        { s with groups := groups })
    | none => .error (.securityGroupExists projectId name)

/-- A live usage row of the user for security groups. -/
def ofUser (projectId userId : Option String) (u : QuotaUsage) : Bool :=
  !u.deleted && u.projectId == projectId && u.userId == userId && u.resource == "security_groups"

def groupUsages (usages : UsageTable) (projectId userId : Option String) : List QuotaUsage :=
  usages.rows.filter (ofUser projectId userId)

/-- The quota usage of an automatically created group. -/
def countDefault (ctxt : Context) (untilRefresh : Option Int) (now : Nat) (usages : UsageTable) :
    UsageTable :=
  match (groupUsages usages ctxt.projectId ctxt.userId).head? with
  | none => usages.insert (fun id => ⟨id, ctxt.projectId, ctxt.userId, "security_groups", 1, 0,
      untilRefresh, now, false⟩) (fun _ => rfl)
  | some first => usages.modify (ofUser ctxt.projectId ctxt.userId) (fun u =>
      { u with inUse := first.inUse + 1, updatedAt := now }) (fun _ => rfl)

/-- The default rules become rules of the group. -/
def copyRules (defaults : List IngressDefaultRule) (groupId : Nat)
    (rules : Table IngressRule IngressRule.id) : Table IngressRule IngressRule.id :=
  defaults.foldl (fun rules d => rules.insert (fun id => ⟨id, groupId, none, d.protocol, d.fromPort,
    d.toPort, d.cidr, false⟩) (fun _ => rfl)) rules

/-- What `_security_group_ensure_default` writes. -/
def createDefault (ctxt : Context) (untilRefresh : Option Int) (now : Nat) (s : Tables) :
    Except GroupError (SecurityGroup × Tables) := do
  let (group, s) ← securityGroupCreate ctxt "default" "default" ctxt.userId ctxt.projectId s
  let shown ← (modelQuery ctxt none).mapError .nova
  let defaults := s.defaultRules.filter (fun d => marked shown d.deleted)
  pure (group, { s with
    usages := countDefault ctxt untilRefresh now s.usages
    rules := copyRules defaults group.id s.rules })

/-- `_security_group_ensure_default`. -/
def ensureDefaultTransaction (ctxt : Context) (untilRefresh : Option Int) :
    GroupProg SecurityGroup := do
  let found ← tryCatch (reading .read (securityGroupGetByNames ctxt ["default"])) fun e =>
    match e with
    | .securityGroupNotFoundForProject _ _ => pure (some [])
    | e => throw e
  match found with
  | none => throw .typeError
  | some (group :: _) => pure group
  | some [] => transaction .write (createDefault ctxt untilRefresh)

/-- `security_group_ensure_default`. -/
def securityGroupEnsureDefault (ctxt : Context) (untilRefresh : Option Int) :
    GroupProg SecurityGroup :=
  tryCatch (ensureDefaultTransaction ctxt untilRefresh) fun e =>
    match e with
    | .securityGroupExists _ _ => securityGroupGetByName ctxt ctxt.projectId "default"
    | e => throw e

/-- What `security_group_update` writes. -/
def updateGroup (ctxt : Context) (id : Nat) (name description : Option String) (s : Tables) :
    Except GroupError (SecurityGroup × Tables) := do
  let shown ← (modelQuery ctxt none).mapError .nova
  match s.groups.table.rows.find? (fun g => marked shown g.deleted && g.id == id) with
  | none => .error (.securityGroupNotFound id)
  | some g =>
    match s.groups.rename? id name description with
    | some groups => .ok (g.rename name description, { s with groups := groups })
    | none => .error (.securityGroupExists g.projectId (name.getD g.name))

/-- `security_group_update`. -/
def securityGroupUpdate (ctxt : Context) (id : Nat) (name description : Option String) :
    GroupProg SecurityGroup := do
  compute ((requireContext ctxt).mapError .nova)
  transaction .write (fun _ => updateGroup ctxt id name description)

/-- What `security_group_destroy` writes. -/
def destroyGroup (ctxt : Context) (id : Nat) (s : Tables) : Except GroupError (Unit × Tables) := do
  let shown ← (modelQuery ctxt none).mapError .nova
  pure ((), { s with
    groups := s.groups.softDelete (fun g => marked shown g.deleted && g.id == id)
    associations := s.associations.map (fun a =>
      if marked shown a.deleted && a.securityGroupId == id then { a with deleted := true } else a)
    rules := s.rules.modify (fun r => marked shown r.deleted &&
      (r.groupId == some id || r.parentGroupId == id)) (fun r => { r with deleted := true })
      (fun _ => rfl) })

/-- `security_group_destroy`. -/
def securityGroupDestroy (ctxt : Context) (id : Nat) : GroupProg Unit := do
  compute ((requireContext ctxt).mapError .nova)
  transaction .write (fun _ => destroyGroup ctxt id)

/-! ## The default groups of a project -/

def defaults (s : Tables) (projectId : Option String) : List SecurityGroup :=
  groupsNamed s projectId ["default"]

variable {ctxt : Context} {s s' : Tables}

/-- The calls on groups. -/
inductive GroupCall where
  | ensureDefault (untilRefresh : Option Int)
  | create (name description : String) (userId projectId : Option String)
  | update (id : Nat) (name description : Option String)
  | destroy (id : Nat)
  deriving DecidableEq, Repr

def GroupCall.prog (ctxt : Context) : GroupCall → GroupProg (Option SecurityGroup)
  | .ensureDefault untilRefresh => some <$> securityGroupEnsureDefault ctxt untilRefresh
  | .create name description userId projectId =>
    some <$> transaction .write
      (fun _ => securityGroupCreate ctxt name description userId projectId)
  | .update id name description => some <$> securityGroupUpdate ctxt id name description
  | .destroy id => (fun _ => none) <$> securityGroupDestroy ctxt id

/-- The group a call may take the name from. -/
def GroupCall.target : GroupCall → Option Nat
  | .update id _ _ => some id
  | .destroy id => some id
  | _ => none

/-- What a call does at one moment. -/
inductive Moment where
  | created (g : SecurityGroup)
  | found (g : SecurityGroup)
  | absent
  | wrote
  | refused
  deriving DecidableEq, Repr

/-- The moment counts on the quota. -/
def Moment.isCreated : Moment → Bool
  | .created _ => true
  | _ => false

/-- What a call of `security_group_ensure_default` does to the tables, and what the others do. -/
def GroupCall.effect (ctxt : Context) : GroupCall → Moment → Tables → Tables → Prop
  | .ensureDefault u, .created g, s, s' =>
    defaults s ctxt.projectId = [] ∧ ∃ now, createDefault ctxt u now s = .ok (g, s')
  | .ensureDefault _, .found g, s, s' => g ∈ defaults s ctxt.projectId ∧ s' = s
  | .ensureDefault _, .absent, s, s' => defaults s ctxt.projectId = [] ∧ s' = s
  | .create name description userId projectId, .wrote, s, s' =>
    ∃ g, securityGroupCreate ctxt name description userId projectId s = .ok (g, s')
  | .update id name description, .wrote, s, s' =>
    ∃ g, updateGroup ctxt id name description s = .ok (g, s')
  | .destroy id, .wrote, s, s' => destroyGroup ctxt id s = .ok ((), s')
  | .ensureDefault _, _, _, _ => False
  | _, .refused, s, s' => s' = s
  | _, _, _, _ => False

/-- How a call ends, by its moment. -/
def GroupCall.ends (ctxt : Context) (keeps : Prop) :
    GroupCall → Option Moment → Except GroupError (Option SecurityGroup) → Prop
  | .ensureDefault _, d, .ok r => ∃ g, r = some g ∧ (d = some (.created g) ∨ d = some (.found g))
  | .ensureDefault _, d, .error e => d = some .absent ∧ ¬ keeps ∧
    e = .securityGroupNotFoundForProject ctxt.projectId "default"
  | _, d, .ok _ => d = some .wrote
  | _, d, .error _ => d = some .refused

/-- What stays between two transactions of a call, where no call takes a name away. -/
def Stays (keeps : Prop) (s s' : Tables) : Prop :=
  keeps → ∀ p, (∃ g, g ∈ defaults s p) → ∃ g, g ∈ defaults s' p

theorem Stays.refl (keeps : Prop) (s : Tables) : Stays keeps s s := fun _ _ h => h

theorem Stays.trans (keeps : Prop) (s₁ s₂ s₃ : Tables) (h : Stays keeps s₁ s₂)
    (h' : Stays keeps s₂ s₃) : Stays keeps s₁ s₃ := fun hk p hp => h' hk p (h hk p hp)

variable {call : GroupCall} {m : Moment}

/-- The effect counts on the quota of this user. -/
def counts (ctxt : Context) (m : Moment) (p u : Option String) : Bool :=
  m.isCreated && (ctxt.projectId == p && ctxt.userId == u)

section

variable {κ : Type}

variable {ctxt : κ → Context} {call : κ → GroupCall} {order : List (κ × Moment)}

end

/-- Two users of a project, and one of them again. -/
def sampleContext : Fin 3 → Context
  | 1 => ⟨some "bob", some "demo", false, "no"⟩
  | _ => ⟨some "alice", some "demo", false, "no"⟩

/-- No groups, and one default rule. -/
def sampleTables : Tables where
  groups := ⟨Table.empty, List.nodup_nil⟩
  rules := Table.empty
  defaultRules := [⟨0, "tcp", 22, 22, some "0.0.0.0/0", false⟩]
  associations := []
  usages := Table.empty

end PolarBear.SecurityGroups
