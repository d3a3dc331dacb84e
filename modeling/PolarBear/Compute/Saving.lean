import PolarBear.Compute.Loading
import PolarBear.Lib.Transition

/-!
# Creating and saving a compute node

`create` and `save` store what has changed in an object and load the row back into it. So
each leaves the object in agreement with the row exactly if that load does (`create_iff`,
`save_iff`).

An object that is assembled field by field, created and then edited and saved is always in
agreement with its row (`life_agrees`), if it was created with a host, without a service or
with one that exists: otherwise `create` returns an object without an id.
-/

namespace PolarBear.Compute

open PolarBear.Db
open PolarBear.Fallible
open PolarBear.Transition

/-! ## Storing -/

/-- `obj_get_changes`, without the id. -/
def NodeObject.updates (o : NodeObject) : Values where
  serviceId := if "service_id" ∈ o.changed then o.serviceId else none
  host := if "host" ∈ o.changed then o.host else none
  uuid := if "uuid" ∈ o.changed then o.uuid.map some else none
  computeNodeType := if "compute_node_type" ∈ o.changed then o.computeNodeType else none
  computeNodeMethod :=
    if "compute_node_method" ∈ o.changed then o.computeNodeMethod.map some else none
  createdAt := if "created_at" ∈ o.changed then o.createdAt else none
  updatedAt := if "updated_at" ∈ o.changed then o.updatedAt else none
  deletedAt := if "deleted_at" ∈ o.changed then o.deletedAt else none

/-- The object of which a row is created: it is given a uuid, if it does not bring one. -/
def NodeObject.withUuid (o : NodeObject) (generated : String) : Except NodeError NodeObject :=
  if "uuid" ∈ o.changed then .ok o
  else do
    let uuid ← setUuid o.uuid generated
    .ok { o with uuid := some uuid, changed := "uuid" :: o.changed }

/-- The row that `compute_node_create` returns. -/
def createdRow (now : Nat) (values : Values) (t : ComputeNodeTable) : ComputeNodeRow :=
  values.apply (blankRow now t.table.next)

/-- The row that `compute_node_update` returns. -/
def savedRow (now : Nat) (values : Values) (r : ComputeNodeRow) : ComputeNodeRow :=
  { values with updatedAt := some (some now) }.apply r

/-- `ComputeNode.create`; a remotable method needs a context. -/
def create (services : StoredServices) (now : Nat) (generated : String) (o : NodeObject)
    (t : ComputeNodeTable) : Except NodeError (NodeObject × ComputeNodeTable) :=
  match o.context, o.id with
  | none, _ => .error (.orphanedObject "create")
  | some _, some _ => .error (.objectActionError "create" "already created")
  | some _, none => do
    let o ← o.withUuid generated
    let t' ← stored (computeNodeCreate now o.updates t)
    let o ← load services o (createdRow now o.updates t).toDb
    .ok (o, t')

/-- `ComputeNode.save`; an id that is not set cannot be loaded. -/
def save (services : StoredServices) (now : Nat) (o : NodeObject) (t : ComputeNodeTable) :
    Except NodeError (NodeObject × ComputeNodeTable) :=
  match o.context, o.id with
  | none, _ => .error (.orphanedObject "save")
  | some _, none => .error (.notImplemented "id")
  | some ctxt, some id => do
    let r ← stored (computeNodeGetModel ctxt id t)
    let t' ← stored (computeNodeUpdate ctxt now id o.updates t)
    let o ← load services o (savedRow now o.updates r).toDb
    .ok (o, t')

/-! ## The stored rows -/

variable {services : StoredServices} {now : Nat} {generated : String} {o o' o₁ : NodeObject}
  {t t' : ComputeNodeTable} {r : ComputeNodeRow} {values : Values} {ctxt : Context}

/-- A new row stands at the end. -/
theorem rows_of_create (h : computeNodeCreate now values t = .ok t') :
    t'.rows = t.rows ++ [createdRow now values t] := by
  unfold computeNodeCreate at h
  split at h
  · show t'.table.rows = _
    rw [commit_table h]
    rfl
  · cases h

/-- The row that is created is in the table. -/
theorem createdRow_mem (h : computeNodeCreate now values t = .ok t') :
    createdRow now values t ∈ t'.rows := by
  rw [rows_of_create h]
  exact List.mem_append_right _ (List.mem_singleton_self _)

theorem getModel_mem {id : Nat} (h : computeNodeGetModel ctxt id t = .ok r) :
    r ∈ t.rows ∧ r.id = id := by
  unfold computeNodeGetModel at h
  obtain ⟨shown, -, h⟩ := bind_ok_iff.mp h
  split at h
  · next found hfind =>
    cases h
    have hp := List.find?_some hfind
    exact ⟨List.mem_of_find?_eq_some hfind, beq_iff_eq.mp (Bool.and_eq_true_iff.mp hp).2⟩
  · cases h

/-- A row that is saved stands in its place. -/
theorem rows_of_update {id : Nat} (h : computeNodeUpdate ctxt now id values t = .ok t') :
    ∃ r ∈ t.rows, r.id = id ∧
      t'.rows = t.rows.map (fun s => if s.id == r.id then savedRow now values s else s) := by
  unfold computeNodeUpdate at h
  obtain ⟨r, hmodel, h⟩ := bind_ok_iff.mp h
  obtain ⟨hr, hid⟩ := getModel_mem hmodel
  refine ⟨r, hr, hid, ?_⟩
  split at h
  · cases h
  · show t'.table.rows = _
    rw [commit_table h]
    rfl

/-- The row that is saved is in the table. -/
theorem savedRow_mem {id : Nat} (hr : computeNodeGetModel ctxt id t = .ok r)
    (h : computeNodeUpdate ctxt now id values t = .ok t') : savedRow now values r ∈ t'.rows := by
  unfold computeNodeUpdate at h
  rw [hr] at h
  replace h : (if values.computeNodeType = some none then .error (.nova .dbError)
    else commit (t.table.modify (fun s => s.id == r.id)
      ({ values with updatedAt := some (some now) } : Values).apply (fun _ => rfl))) = .ok t' := h
  split at h
  · cases h
  · show _ ∈ t'.table.rows
    rw [commit_table h]
    refine (Table.mem_modify _).mpr ⟨r, (getModel_mem hr).1, ?_⟩
    rw [if_pos (beq_self_eq_true _)]
    rfl

/-! ## One call -/

/-- **`create`**: where the row is stored, the object agrees with it exactly if it loads it
right. -/
theorem create_iff (hctxt : o.context = some ctxt) (hid : o.id = none)
    (huuid : o.withUuid generated = .ok o₁)
    (hstore : computeNodeCreate now o₁.updates t = .ok t') :
    (∃ o', create services now generated o t = .ok (o', t') ∧
        Mirrors services o₁.context (createdRow now o₁.updates t).toDb o') ↔
      LoadsRight services o₁ (createdRow now o₁.updates t).toDb := by
  have hcreate : create services now generated o t =
      (load services o₁ (createdRow now o₁.updates t).toDb >>= fun o => .ok (o, t')) := by
    unfold create
    rw [hctxt, hid]
    dsimp only
    rw [huuid]
    show (stored (computeNodeCreate now o₁.updates t) >>= fun t' => _) = _
    rw [hstore]
    rfl
  rw [← load_iff, hcreate]
  constructor
  · rintro ⟨o', h, hmirrors⟩
    obtain ⟨o'', hload, heq⟩ := bind_ok_iff.mp h
    cases heq
    exact ⟨o', hload, hmirrors⟩
  · rintro ⟨o', hload, hmirrors⟩
    exact ⟨o', bind_ok_iff.mpr ⟨o', hload, rfl⟩, hmirrors⟩

/-- **`save`**, in the same way. -/
theorem save_iff {id : Nat} (hctxt : o.context = some ctxt) (hid : o.id = some id)
    (hr : computeNodeGetModel ctxt id t = .ok r)
    (hstore : computeNodeUpdate ctxt now id o.updates t = .ok t') :
    (∃ o', save services now o t = .ok (o', t') ∧
        Mirrors services o.context (savedRow now o.updates r).toDb o') ↔
      LoadsRight services o (savedRow now o.updates r).toDb := by
  have hsave : save services now o t =
      (load services o (savedRow now o.updates r).toDb >>= fun o => .ok (o, t')) := by
    unfold save
    rw [hctxt, hid]
    dsimp only
    rw [hr]
    show (stored (computeNodeUpdate ctxt now id o.updates t) >>= fun t' => _) = _
    rw [hstore]
    rfl
  rw [← load_iff, hsave]
  constructor
  · rintro ⟨o', h, hmirrors⟩
    obtain ⟨o'', hload, heq⟩ := bind_ok_iff.mp h
    cases heq
    exact ⟨o', hload, hmirrors⟩
  · rintro ⟨o', hload, hmirrors⟩
    exact ⟨o', bind_ok_iff.mpr ⟨o', hload, rfl⟩, hmirrors⟩

/-! ## The life of an object -/

/-- A field that is assigned. -/
inductive Edit where
  | serviceId (v : Option Int)
  | host (v : Option String)
  | computeNodeType (v : Option String)
  | computeNodeMethod (v : String)
  | uuid (v : String)

/-- The setters. -/
def NodeObject.assign (o : NodeObject) : Edit → Except NodeError NodeObject
  | .serviceId v => .ok { o with serviceId := some v, changed := "service_id" :: o.changed }
  | .host v => .ok { o with host := some v, changed := "host" :: o.changed }
  | .computeNodeType v =>
    .ok { o with computeNodeType := some v, changed := "compute_node_type" :: o.changed }
  | .computeNodeMethod v =>
    .ok { o with computeNodeMethod := some v, changed := "compute_node_method" :: o.changed }
  | .uuid v => do
    let uuid ← setUuid o.uuid v
    .ok { o with
      uuid := some uuid
      changed := if o.uuid.isSome then o.changed else "uuid" :: o.changed }

/-- What is done with an object; the services are those at that time. -/
inductive Op where
  | assign (e : Edit)
  | create (services : StoredServices) (now : Nat) (generated : String)
  | save (services : StoredServices) (now : Nat)

abbrev NodeState : Type := NodeObject × ComputeNodeTable

def Op.run : Op → NodeState → Except NodeError NodeState
  | .assign e, s => do
    let o ← s.1.assign e
    .ok (o, s.2)
  | .create services now generated, s => Compute.create services now generated s.1 s.2
  | .save services now, s => Compute.save services now s.1 s.2

/-- An object that is created without a host has no service or one that is found. -/
def Op.Resolved : Op → NodeState → Prop
  | .create services _ _, s => s.1.host.join = none → ∀ serviceId,
      s.1.serviceId = some (some serviceId) →
      ∃ service, serviceGetById s.1.context serviceId services = .ok service
  | _, _ => True

/-- The object mirrors a row of the table. -/
def Op.Agrees : Op → NodeState → Prop
  | .create services _ _, s => ∃ r ∈ s.2.rows, Mirrors services s.1.context r.toDb s.1
  | .save services _, s => ∃ r ∈ s.2.rows, Mirrors services s.1.context r.toDb s.1
  | .assign _, _ => True

/-- A step of a life, with an object that is created resolved. -/
def lifeStep (op : Op) (s s' : NodeState) : Prop := op.Resolved s ∧ op.run s = .ok s'

/-- An object before it is created: what is set has changed. -/
structure Assembled (o : NodeObject) : Prop where
  id : o.id = none
  uuid : "uuid" ∉ o.changed ↔ o.uuid = none
  ascii : ∀ uuid, o.uuid = some uuid → Py.isAscii uuid = true
  serviceId : "service_id" ∉ o.changed → o.serviceId = none
  host : "host" ∉ o.changed → o.host = none
  computeNodeType : "compute_node_type" ∉ o.changed → o.computeNodeType = none
  computeNodeMethod : "compute_node_method" ∉ o.changed → o.computeNodeMethod = none
  createdAt : o.createdAt = none
  updatedAt : o.updatedAt = none
  deletedAt : o.deletedAt = none

/-- An object of a row: what has not changed is what the row has. -/
structure Covered (r : ComputeNodeRow) (o : NodeObject) : Prop where
  id : o.id = some r.id
  uuid : ∃ uuid, o.uuid = some uuid ∧ r.uuid = some uuid ∧ Py.isAscii uuid = true
  uuidUnchanged : "uuid" ∉ o.changed
  serviceId : "service_id" ∉ o.changed → r.serviceId = none → o.serviceId.join = none
  computeNodeType : "compute_node_type" ∉ o.changed →
    o.computeNodeType = some (some r.computeNodeType)
  computeNodeTypeSet : o.computeNodeType ≠ none
  computeNodeMethod : "compute_node_method" ∉ o.changed → o.computeNodeMethod = r.computeNodeMethod
  computeNodeMethodSet : "compute_node_method" ∈ o.changed → o.computeNodeMethod ≠ none
  createdAt : o.createdAt = none
  updatedAt : o.updatedAt = none
  deletedAt : o.deletedAt = none

/-- What holds of an object and the table at any time. -/
def Alive (ctxt : Context) (s : NodeState) : Prop :=
  s.1.context = some ctxt ∧ (Assembled s.1 ∨ ∃ r ∈ s.2.rows, Covered r s.1)

/-! ## Loading what was stored -/

/-- What a load leaves alone. -/
structure SameBeside (o o' : NodeObject) : Prop where
  context : o'.context = o.context
  createdAt : o'.createdAt = o.createdAt
  updatedAt : o'.updatedAt = o.updatedAt
  deletedAt : o'.deletedAt = o.deletedAt
  changed : o'.changed = []

theorem copyColumns_beside {host : Option (Option String)} {db : DbCompute}
    (h : { o with host := host }.copyColumns db = .ok o₁) :
    SameBeside o { o₁ with changed := [] } := by
  rw [copyColumns_ok (assignable_of_copyColumns h)] at h
  cases h
  exact ⟨rfl, rfl, rfl, rfl, rfl⟩

theorem load_beside {db : DbCompute} (h : load services o db = .ok o') : SameBeside o o' := by
  unfold load at h
  obtain ⟨o₁, hdata, heq⟩ := bind_ok_iff.mp h
  cases heq
  unfold loadData at hdata
  split at hdata
  · split at hdata
    · exact copyColumns_beside hdata
    · cases hdata
      exact ⟨rfl, rfl, rfl, rfl, rfl⟩
    · cases hdata
  · exact copyColumns_beside hdata

/-- A column that a change leaves null holds nothing. -/
theorem left_of_changed {α : Type} {changed : List String} {k : String}
    {held : Option (Option α)} {column : Option α}
    (h : k ∉ changed → column = none → held.join = none) :
    (if k ∈ changed then held else none).getD column = none → held.join = none := by
  intro hnone
  by_cases hk : k ∈ changed
  · rw [if_pos hk] at hnone
    cases held with
    | none => rfl
    | some v => exact hnone
  · rw [if_neg hk] at hnone
    exact h hk hnone

/-- And so does one of a field that is not nullable. -/
theorem left_of_changed_some {α : Type} {changed : List String} {k : String}
    {held column : Option α} (h : k ∉ changed → column = none → held = none) :
    (if k ∈ changed then held.map some else none).getD column = none → held = none := by
  intro hnone
  by_cases hk : k ∈ changed
  · rw [if_pos hk] at hnone
    cases held with
    | none => rfl
    | some v => cases hnone
  · rw [if_neg hk] at hnone
    exact h hk hnone

theorem loadsRight_of {db : DbCompute} (hleft : NothingLeft db o) (hassign : Assignable db o)
    (hservice : db.host = none → ∀ serviceId, db.serviceId = some serviceId →
      (∃ service, serviceGetById o.context serviceId services = .ok service) ∨
      HasColumns db o ∧ ∃ id, serviceGetById o.context serviceId services =
        .error (.service (.serviceNotFound id))) :
    LoadsRight services o db := by
  refine ⟨hleft, ?_⟩
  cases hhost : db.host with
  | some host => exact hassign
  | none =>
    cases hserviceId : db.serviceId with
    | none => exact hassign
    | some serviceId =>
      rcases hservice hhost serviceId hserviceId with ⟨service, hfound⟩ | ⟨hcolumns, id, hmissing⟩
      · dsimp only
        rw [hfound]
        exact hassign
      · dsimp only
        rw [hmissing]
        exact hcolumns

/-- A context that the database took finds a service or says that there is none. -/
theorem serviceGetById_cases {shown : Nat → Bool} (h : shownRows ctxt = .ok shown)
    (serviceId : Int) (services : StoredServices) :
    (∃ service, serviceGetById (some ctxt) serviceId services = .ok service) ∨
      ∃ id, serviceGetById (some ctxt) serviceId services =
        .error (.service (.serviceNotFound id)) := by
  have hqueried : queried ctxt = .ok shown := by
    unfold shownRows at h
    unfold queried
    cases hquery : modelQuery ctxt none with
    | ok shown' =>
      rw [hquery] at h
      cases h
      rfl
    | error e =>
      rw [hquery] at h
      cases h
  have hget : serviceGet ctxt serviceId services = foundService serviceId
      (services.rows.find? (fun r => shown r.deleted && (r.id : Int) == serviceId)) := by
    unfold serviceGet
    rw [hqueried]
    rfl
  unfold serviceGetById
  dsimp only
  rw [hget]
  cases services.rows.find? (fun r => shown r.deleted && (r.id : Int) == serviceId) with
  | some service => exact .inl ⟨service, rfl⟩
  | none => exact .inr ⟨serviceId, rfl⟩

/-- An object that mirrors a row with a uuid is covered by it. -/
theorem covered_of_mirrors {context : Option Context}
    (h : Mirrors services context r.toDb o') (hbeside : SameBeside o o')
    (huuid : ∃ uuid, r.uuid = some uuid ∧ Py.isAscii uuid = true)
    (htimes : o.createdAt = none ∧ o.updatedAt = none ∧ o.deletedAt = none) : Covered r o' where
  id := h.columns.id
  uuid := by
    obtain ⟨uuid, hr, hascii⟩ := huuid
    exact ⟨uuid, h.columns.uuid uuid hr, hr, hascii⟩
  uuidUnchanged := by
    rw [hbeside.changed]
    exact List.not_mem_nil
  serviceId _ hr := h.left.serviceId hr
  computeNodeType _ := h.columns.computeNodeType r.computeNodeType rfl
  computeNodeTypeSet hnone := by
    rw [h.columns.computeNodeType r.computeNodeType rfl] at hnone
    cases hnone
  computeNodeMethodSet hchanged := by
    rw [hbeside.changed] at hchanged
    exact absurd hchanged List.not_mem_nil
  computeNodeMethod _ := by
    cases hr : r.computeNodeMethod with
    | none => exact h.left.computeNodeMethod hr
    | some v => exact h.columns.computeNodeMethod v hr
  createdAt := hbeside.createdAt.trans htimes.1
  updatedAt := hbeside.updatedAt.trans htimes.2.1
  deletedAt := hbeside.deletedAt.trans htimes.2.2

/-- Loading what `LoadsRight` from a row with a uuid: the row covers the object. -/
theorem load_covered (hload : load services o r.toDb = .ok o')
    (hright : LoadsRight services o r.toDb)
    (huuid : ∃ uuid, r.uuid = some uuid ∧ Py.isAscii uuid = true)
    (htimes : o.createdAt = none ∧ o.updatedAt = none ∧ o.deletedAt = none) :
    o'.context = o.context ∧ Mirrors services o'.context r.toDb o' ∧ Covered r o' := by
  obtain ⟨o₁, hload', hmirrors⟩ := load_iff.mpr hright
  obtain rfl := Except.ok.inj (hload.symm.trans hload')
  have hbeside := load_beside hload
  exact ⟨hbeside.context, hbeside.context ▸ hmirrors,
    covered_of_mirrors hmirrors hbeside huuid htimes⟩

/-! ## Each step -/

theorem setUuid_ok {held : Option String} {uuid uuid' : String}
    (h : setUuid held uuid = .ok uuid') : uuid' = uuid ∧ Py.isAscii uuid = true := by
  unfold setUuid at h
  split at h
  · next hascii =>
    refine ⟨?_, hascii⟩
    rw [setReadOnly_ok "uuid" (setReadOnly_inv h)] at h
    exact (Except.ok.inj h).symm
  · cases h

theorem stored_ok {α : Type} {x : Except ComputeError α} {a : α} (h : stored x = .ok a) :
    x = .ok a := by
  cases x with
  | ok a' =>
    cases h
    rfl
  | error e => cases h

/-- A field that is marked as changed. -/
theorem Assembled.mark (h : Assembled o) {k : String} (hk : "uuid" ≠ k) :
    Assembled { o with changed := k :: o.changed } where
  id := h.id
  uuid := by
    rw [← h.uuid, List.mem_cons, not_or]
    exact and_iff_right hk
  ascii := h.ascii
  serviceId hn := h.serviceId (List.not_mem_of_not_mem_cons hn)
  host hn := h.host (List.not_mem_of_not_mem_cons hn)
  computeNodeType hn := h.computeNodeType (List.not_mem_of_not_mem_cons hn)
  computeNodeMethod hn := h.computeNodeMethod (List.not_mem_of_not_mem_cons hn)
  createdAt := h.createdAt
  updatedAt := h.updatedAt
  deletedAt := h.deletedAt

/-- An assembled object that is given a uuid. -/
theorem Assembled.withUuid {uuid : String} (h : Assembled o) (hascii : Py.isAscii uuid = true) :
    Assembled { o with uuid := some uuid, changed := "uuid" :: o.changed } where
  id := h.id
  uuid := iff_of_false (fun hn => hn List.mem_cons_self) (fun hn => nomatch hn)
  ascii _ hu := Option.some.inj hu ▸ hascii
  serviceId hn := h.serviceId (List.not_mem_of_not_mem_cons hn)
  host hn := h.host (List.not_mem_of_not_mem_cons hn)
  computeNodeType hn := h.computeNodeType (List.not_mem_of_not_mem_cons hn)
  computeNodeMethod hn := h.computeNodeMethod (List.not_mem_of_not_mem_cons hn)
  createdAt := h.createdAt
  updatedAt := h.updatedAt
  deletedAt := h.deletedAt

/-- The object of which a row is created: assembled, and with a uuid. -/
theorem withUuid_assembled (h : Assembled o) (huuid : o.withUuid generated = .ok o₁) :
    Assembled o₁ ∧ o₁.context = o.context ∧ o₁.host = o.host ∧ o₁.serviceId = o.serviceId ∧
      "uuid" ∈ o₁.changed := by
  unfold NodeObject.withUuid at huuid
  split at huuid
  · next hchanged =>
    cases huuid
    exact ⟨h, rfl, rfl, rfl, hchanged⟩
  · obtain ⟨uuid, hset, heq⟩ := bind_ok_iff.mp huuid
    cases heq
    obtain ⟨rfl, hascii⟩ := setUuid_ok hset
    exact ⟨h.withUuid hascii, rfl, rfl, rfl, List.mem_cons_self⟩

/-- A service id that a new row has was set on the object. -/
theorem serviceId_of_createdRow {serviceId : Int}
    (h : (createdRow now o.updates t).serviceId = some serviceId) :
    o.serviceId = some (some serviceId) := by
  have hcolumn : (if "service_id" ∈ o.changed then o.serviceId else none).getD none =
      some serviceId := h
  split at hcolumn
  · cases hs : o.serviceId with
    | none =>
      rw [hs] at hcolumn
      cases hcolumn
    | some v =>
      rw [hs] at hcolumn
      exact congrArg some hcolumn
  · cases hcolumn

variable (now t) in
/-- A new row has the uuid of its object. -/
theorem uuid_createdRow {uuid : String} (hchanged : "uuid" ∈ o.changed)
    (hu : o.uuid = some uuid) : (createdRow now o.updates t).uuid = some uuid := by
  show (if "uuid" ∈ o.changed then o.uuid.map some else none).getD none = _
  rw [if_pos hchanged, hu]
  rfl

variable (now t) in
/-- An assembled object with a uuid is read back from its new row. -/
theorem loadsRight_createdRow (h : Assembled o) {uuid : String} (hu : o.uuid = some uuid)
    (hchanged : "uuid" ∈ o.changed)
    (hservice : o.host.join = none → ∀ serviceId, o.serviceId = some (some serviceId) →
      ∃ service, serviceGetById o.context serviceId services = .ok service) :
    LoadsRight services o (createdRow now o.updates t).toDb := by
  have hrow := uuid_createdRow now t hchanged hu
  refine loadsRight_of ?_ ⟨fun id hid => ?_, fun u hcolumn => ?_⟩ (fun hnone serviceId hsome => ?_)
  · exact ⟨left_of_changed_some (fun hn _ => h.uuid.mp hn),
      left_of_changed (fun hn _ => congrArg Option.join (h.serviceId hn)),
      fun hn => (nomatch hn),
      left_of_changed_some (fun hn _ => h.computeNodeMethod hn),
      fun _ => congrArg Option.join h.createdAt,
      fun _ => congrArg Option.join h.updatedAt,
      fun _ => congrArg Option.join h.deletedAt⟩
  · rw [h.id] at hid
    cases hid
  · obtain rfl := Option.some.inj (hrow.symm.trans hcolumn)
    exact ⟨h.ascii uuid hu, fun old hold => Option.some.inj (hold.symm.trans hu)⟩
  · have hnohost : o.host.join = none :=
      left_of_changed (fun hn _ => congrArg Option.join (h.host hn)) hnone
    exact .inl (hservice hnohost serviceId (serviceId_of_createdRow hsome))

/-- **Creating** an assembled object that is resolved: it mirrors the row. -/
theorem create_alive (hctxt : o.context = some ctxt) (h : Assembled o)
    (hresolved : (Op.create services now generated).Resolved (o, t))
    (hcreate : create services now generated o t = .ok (o', t')) :
    o'.context = o.context ∧
      ∃ r ∈ t'.rows, Mirrors services o'.context r.toDb o' ∧ Covered r o' := by
  unfold create at hcreate
  rw [hctxt, h.id] at hcreate
  obtain ⟨o₁, huuid, hcreate⟩ := bind_ok_iff.mp hcreate
  obtain ⟨t₁, hstore, hcreate⟩ := bind_ok_iff.mp hcreate
  obtain ⟨o₂, hload, heq⟩ := bind_ok_iff.mp hcreate
  cases heq
  replace hstore := stored_ok hstore
  obtain ⟨hassembled, hcontext, hhost, hserviceId, hchanged⟩ := withUuid_assembled h huuid
  obtain ⟨uuid, hu⟩ : ∃ uuid, o₁.uuid = some uuid :=
    Option.ne_none_iff_exists'.mp (fun hn => (hassembled.uuid.mpr hn) hchanged)
  have hright := loadsRight_createdRow now t hassembled hu
    hchanged (fun hnone serviceId hsome => hcontext.symm ▸
      hresolved (hhost ▸ hnone) serviceId (hserviceId ▸ hsome))
  obtain ⟨hkept, hmirrors, hcovered⟩ := load_covered hload hright
    ⟨uuid, uuid_createdRow now t hchanged hu, hassembled.ascii uuid hu⟩
    ⟨hassembled.createdAt, hassembled.updatedAt, hassembled.deletedAt⟩
  exact ⟨hkept.trans hcontext, _, createdRow_mem hstore, hmirrors, hcovered⟩

variable (now) in
/-- A saved row keeps its uuid. -/
theorem uuid_savedRow (h : Covered r o) : (savedRow now o.updates r).uuid = r.uuid := by
  show (if "uuid" ∈ o.changed then o.uuid.map some else none).getD r.uuid = _
  rw [if_neg h.uuidUnchanged]
  rfl

variable (now) in
/-- A covered object has the columns of the row that it saves. -/
theorem hasColumns_savedRow (h : Covered r o)
    (htype : o.updates.computeNodeType ≠ some none) :
    HasColumns (savedRow now o.updates r).toDb o := by
  obtain ⟨uuid, hu, hru, -⟩ := h.uuid
  have huuid := (uuid_savedRow now h).trans hru
  refine ⟨h.id, fun u hcolumn => ?_, fun v hcolumn => ?_, fun v hcolumn => ?_⟩
  · exact hu.trans (huuid.symm.trans hcolumn)
  · rw [← Option.some.inj hcolumn]
    show _ = some (some ((o.updates.computeNodeType.getD (some r.computeNodeType)).getD
      r.computeNodeType))
    obtain ⟨held, hheld⟩ := Option.ne_none_iff_exists'.mp h.computeNodeTypeSet
    by_cases hchanged : "compute_node_type" ∈ o.changed
    · have hupdate : o.updates.computeNodeType = some held := (if_pos hchanged).trans hheld
      rw [hupdate] at htype ⊢
      cases held with
      | none => exact absurd rfl htype
      | some v' => exact hheld
    · have hupdate : o.updates.computeNodeType = none := if_neg hchanged
      rw [hupdate]
      exact h.computeNodeType hchanged
  · have hcolumn' : (if "compute_node_method" ∈ o.changed then o.computeNodeMethod.map some
        else none).getD r.computeNodeMethod = some v := hcolumn
    by_cases hchanged : "compute_node_method" ∈ o.changed
    · obtain ⟨held, hheld⟩ := Option.ne_none_iff_exists'.mp (h.computeNodeMethodSet hchanged)
      rw [if_pos hchanged, hheld] at hcolumn'
      rw [hheld]
      exact hcolumn'
    · rw [if_neg hchanged] at hcolumn'
      exact (h.computeNodeMethod hchanged).trans hcolumn'

variable (now) in
/-- A covered object is read back from the row that it saves. -/
theorem loadsRight_savedRow (h : Covered r o)
    (hcolumns : HasColumns (savedRow now o.updates r).toDb o)
    (hservice : ∀ serviceId,
      (∃ service, serviceGetById o.context serviceId services = .ok service) ∨
      ∃ id, serviceGetById o.context serviceId services =
        .error (.service (.serviceNotFound id))) :
    LoadsRight services o (savedRow now o.updates r).toDb := by
  obtain ⟨uuid, hu, hru, hascii⟩ := h.uuid
  refine loadsRight_of ?_ ⟨fun id hid => Option.some.inj (hid.symm.trans h.id),
    fun u hcolumn => ?_⟩ (fun _ serviceId _ => ?_)
  · exact ⟨left_of_changed_some (fun _ hn => nomatch hru.symm.trans hn),
      left_of_changed h.serviceId,
      fun hn => (nomatch hn),
      left_of_changed_some (fun hn hcolumn => (h.computeNodeMethod hn).trans hcolumn),
      fun _ => congrArg Option.join h.createdAt,
      fun _ => congrArg Option.join h.updatedAt,
      fun _ => congrArg Option.join h.deletedAt⟩
  · obtain rfl := Option.some.inj (((uuid_savedRow now h).trans hru).symm.trans hcolumn)
    exact ⟨hascii, fun old hold => Option.some.inj (hold.symm.trans hu)⟩
  · exact (hservice serviceId).imp_right (fun hmissing => ⟨hcolumns, hmissing⟩)

/-- **Saving** an object that its row covers: it mirrors the row. -/
theorem save_alive (hctxt : o.context = some ctxt) (hr : r ∈ t.rows) (h : Covered r o)
    (hsave : save services now o t = .ok (o', t')) :
    o'.context = o.context ∧
      ∃ r ∈ t'.rows, Mirrors services o'.context r.toDb o' ∧ Covered r o' := by
  unfold save at hsave
  rw [hctxt, h.id] at hsave
  obtain ⟨r₀, hmodel, hsave⟩ := bind_ok_iff.mp hsave
  obtain ⟨t₁, hstore, hsave⟩ := bind_ok_iff.mp hsave
  obtain ⟨o₁, hload, heq⟩ := bind_ok_iff.mp hsave
  cases heq
  replace hmodel := stored_ok hmodel
  replace hstore := stored_ok hstore
  obtain rfl : r₀ = r := t.table.eq_of_key (getModel_mem hmodel).1 hr (getModel_mem hmodel).2
  obtain ⟨uuid, -, hru, hascii⟩ := h.uuid
  obtain ⟨shown, hshown, -⟩ := bind_ok_iff.mp hmodel
  -- the database refuses a type of `None`
  have htype : o.updates.computeNodeType ≠ some none := by
    intro hnone
    unfold computeNodeUpdate at hstore
    rw [hmodel] at hstore
    replace hstore : (if o.updates.computeNodeType = some none then _ else _) = _ := hstore
    rw [if_pos hnone] at hstore
    cases hstore
  have hright := loadsRight_savedRow now h (hasColumns_savedRow now h htype)
    (fun serviceId => hctxt.symm ▸ serviceGetById_cases hshown serviceId services)
  obtain ⟨hkept, hmirrors, hcovered⟩ := load_covered hload hright
    ⟨uuid, (uuid_savedRow now h).trans hru, hascii⟩ ⟨h.createdAt, h.updatedAt, h.deletedAt⟩
  exact ⟨hkept, _, savedRow_mem hmodel hstore, hmirrors, hcovered⟩

/-- A field of a covered object that is set and marked as changed. -/
theorem Covered.mark (h : Covered r o) {k : String} (hk : "uuid" ≠ k)
    (hmethod : k ≠ "compute_node_method") :
    Covered r { o with changed := k :: o.changed } where
  id := h.id
  uuid := h.uuid
  uuidUnchanged hmem := (List.mem_cons.mp hmem).elim hk h.uuidUnchanged
  serviceId hn := h.serviceId (List.not_mem_of_not_mem_cons hn)
  computeNodeType hn := h.computeNodeType (List.not_mem_of_not_mem_cons hn)
  computeNodeTypeSet := h.computeNodeTypeSet
  computeNodeMethod hn := h.computeNodeMethod (List.not_mem_of_not_mem_cons hn)
  computeNodeMethodSet hmem := h.computeNodeMethodSet
    ((List.mem_cons.mp hmem).resolve_left (fun heq => hmethod heq.symm))
  createdAt := h.createdAt
  updatedAt := h.updatedAt
  deletedAt := h.deletedAt

/-- A uuid that is set can only be set to what it is, and then nothing changes. -/
theorem assign_sameUuid {uuid uuid' held : String} (hset : setUuid o.uuid uuid = .ok uuid')
    (hheld : o.uuid = some held) :
    { o with
      uuid := some uuid'
      changed := if o.uuid.isSome then o.changed else "uuid" :: o.changed } = o := by
  have hsame : o.uuid = some uuid' := by
    obtain ⟨rfl, -⟩ := setUuid_ok hset
    unfold setUuid at hset
    split at hset
    · rw [hheld, setReadOnly_inv hset held hheld]
    · cases hset
  cases o
  dsimp only at hsame
  subst hsame
  rfl

/-- **Assigning** a field keeps an object assembled or covered. -/
theorem assign_alive {e : Edit} (h : o.assign e = .ok o') :
    o'.context = o.context ∧ (Assembled o → Assembled o') ∧
      ∀ r, Covered r o → Covered r o' := by
  cases e with
  | serviceId v =>
    cases h
    exact ⟨rfl,
      fun ha => { ha.mark (by decide) with
        serviceId := fun hn => absurd List.mem_cons_self hn },
      fun r hc => { hc.mark (by decide) (by decide) with
        serviceId := fun hn => absurd List.mem_cons_self hn }⟩
  | host v =>
    cases h
    exact ⟨rfl,
      fun ha => { ha.mark (by decide) with host := fun hn => absurd List.mem_cons_self hn },
      fun r hc => { hc.mark (by decide) (by decide) with }⟩
  | computeNodeType v =>
    cases h
    exact ⟨rfl,
      fun ha => { ha.mark (by decide) with
        computeNodeType := fun hn => absurd List.mem_cons_self hn },
      fun r hc => { hc.mark (by decide) (by decide) with
        computeNodeType := fun hn => absurd List.mem_cons_self hn
        computeNodeTypeSet := Option.some_ne_none v }⟩
  | computeNodeMethod v =>
    cases h
    refine ⟨rfl,
      fun ha => { ha.mark (by decide) with
        computeNodeMethod := fun hn => absurd List.mem_cons_self hn },
      fun r hc => ?_⟩
    exact {
      id := hc.id
      uuid := hc.uuid
      uuidUnchanged := fun hmem => (List.mem_cons.mp hmem).elim (by decide) hc.uuidUnchanged
      serviceId := fun hn => hc.serviceId (List.not_mem_of_not_mem_cons hn)
      computeNodeType := fun hn => hc.computeNodeType (List.not_mem_of_not_mem_cons hn)
      computeNodeTypeSet := hc.computeNodeTypeSet
      computeNodeMethod := fun hn => absurd List.mem_cons_self hn
      computeNodeMethodSet := fun _ => Option.some_ne_none v
      createdAt := hc.createdAt
      updatedAt := hc.updatedAt
      deletedAt := hc.deletedAt }
  | uuid v =>
    obtain ⟨uuid, hset, heq⟩ := bind_ok_iff.mp h
    cases heq
    refine ⟨rfl, fun ha => ?_, fun r hc => ?_⟩
    · cases hheld : o.uuid with
      | some held =>
        rw [← hheld, assign_sameUuid hset hheld]
        exact ha
      | none =>
        obtain ⟨rfl, hascii⟩ := setUuid_ok hset
        exact ha.withUuid hascii
    · obtain ⟨held, hheld, -, -⟩ := hc.uuid
      rw [assign_sameUuid hset hheld]
      exact hc

/-- A step keeps an object alive, and leaves it in agreement with its row. -/
theorem lifeStep_alive {op : Op} {s s' : NodeState} (h : Alive ctxt s) (hstep : lifeStep op s s') :
    Alive ctxt s' ∧ op.Agrees s' := by
  obtain ⟨o, t⟩ := s
  obtain ⟨o', t'⟩ := s'
  obtain ⟨hctxt, hstate⟩ := h
  obtain ⟨hresolved, hrun⟩ := hstep
  dsimp only at hctxt hstate
  cases op with
  | assign e =>
    obtain ⟨o₁, hassign, heq⟩ := bind_ok_iff.mp hrun
    cases heq
    refine ⟨?_, trivial⟩
    rcases hstate with ha | ⟨r, hr, hc⟩
    · exact ⟨(assign_alive hassign).1.trans hctxt, .inl ((assign_alive hassign).2.1 ha)⟩
    · exact ⟨(assign_alive hassign).1.trans hctxt,
        .inr ⟨r, hr, (assign_alive hassign).2.2 r hc⟩⟩
  | create services now generated =>
    rcases hstate with ha | ⟨r, -, hc⟩
    · obtain ⟨hcontext, r, hr, hmirrors, hcovered⟩ := create_alive hctxt ha hresolved hrun
      exact ⟨⟨hcontext.trans hctxt, .inr ⟨r, hr, hcovered⟩⟩, r, hr, hmirrors⟩
    · -- an object with an id is not created again
      replace hrun : Compute.create services now generated o t = .ok (o', t') := hrun
      unfold Compute.create at hrun
      rw [hctxt, hc.id] at hrun
      cases hrun
  | save services now =>
    rcases hstate with ha | ⟨r, hr, hc⟩
    · -- and one without an id is not saved
      replace hrun : Compute.save services now o t = .ok (o', t') := hrun
      unfold Compute.save at hrun
      rw [hctxt, ha.id] at hrun
      cases hrun
    · obtain ⟨hcontext, r', hr', hmirrors, hcovered⟩ := save_alive hctxt hr hc hrun
      exact ⟨⟨hcontext.trans hctxt, .inr ⟨r', hr', hcovered⟩⟩, r', hr', hmirrors⟩

/-! ## The result -/

/-- **Main result for a life.** An object that is assembled, created and then edited and saved
mirrors its row after each of these calls, if it is resolved when it is created. -/
theorem life_agrees {ops : List Op} {op : Op} {s s' : NodeState}
    (hrun : Run lifeStep (NodeObject.new (some ctxt), t) ops s) (hstep : lifeStep op s s') :
    op.Agrees s' := by
  have hnew : Alive ctxt (NodeObject.new (some ctxt), t) :=
    ⟨rfl, .inl ⟨rfl, iff_of_true List.not_mem_nil rfl, fun _ h => (nomatch h), fun _ => rfl,
      fun _ => rfl, fun _ => rfl, fun _ => rfl, rfl, rfl, rfl⟩⟩
  have hkeeps : ∀ op s s', Alive ctxt s → lifeStep op s s' → Alive ctxt s' :=
    fun op s s' halive hone => (lifeStep_alive halive hone).1
  exact (lifeStep_alive (hrun.invariant hkeeps hnew) hstep).2

/-- **Main result.** A load mirrors its row exactly if it is right; `create` and `save` leave
the object in agreement with the row they store exactly if their load is right; and in a life
that creates resolved objects they always do. -/
theorem computeNode_mirrors (services : StoredServices) (ctxt : Context) :
    (∀ (o : NodeObject) (db : DbCompute),
      (∃ o', load services o db = .ok o' ∧ Mirrors services o.context db o') ↔
        LoadsRight services o db) ∧
    (∀ (now : Nat) (generated : String) (o o₁ : NodeObject) (t t' : ComputeNodeTable),
      o.context = some ctxt → o.id = none →
      o.withUuid generated = .ok o₁ → computeNodeCreate now o₁.updates t = .ok t' →
      createdRow now o₁.updates t ∈ t'.rows ∧
      ((∃ o', create services now generated o t = .ok (o', t') ∧
          Mirrors services o₁.context (createdRow now o₁.updates t).toDb o') ↔
        LoadsRight services o₁ (createdRow now o₁.updates t).toDb)) ∧
    (∀ (now id : Nat) (o : NodeObject) (r : ComputeNodeRow) (t t' : ComputeNodeTable),
      o.context = some ctxt → o.id = some id →
      computeNodeGetModel ctxt id t = .ok r → computeNodeUpdate ctxt now id o.updates t = .ok t' →
      savedRow now o.updates r ∈ t'.rows ∧
      ((∃ o', save services now o t = .ok (o', t') ∧
          Mirrors services o.context (savedRow now o.updates r).toDb o') ↔
        LoadsRight services o (savedRow now o.updates r).toDb)) ∧
    ∀ (t : ComputeNodeTable) (ops : List Op) (op : Op) (s s' : NodeState),
      Run lifeStep (NodeObject.new (some ctxt), t) ops s → lifeStep op s s' → op.Agrees s' := by
  refine ⟨fun _ _ => load_iff, ?_, ?_, fun _ _ _ _ _ hrun hstep => life_agrees hrun hstep⟩
  · intro now generated o o₁ t t' hctxt hid huuid hstore
    exact ⟨createdRow_mem hstore, create_iff hctxt hid huuid hstore⟩
  · intro now id o r t t' hctxt hid hr hstore
    exact ⟨savedRow_mem hr hstore, save_iff hctxt hid hr hstore⟩

/-! ## A missing service -/

/-- A row without a host, of a service that is not there. -/
def orphanRow : DbCompute :=
  ⟨5, some 9, none, some "9f2c", some "kvm", some "null", none, none, none⟩

/-- A new object gets nothing but a host of `None`, and no id. -/
theorem orphanRow_not_mirrored :
    ¬ ∃ o', load labTables.services (NodeObject.new (some adminContext)) orphanRow = .ok o' ∧
      Mirrors labTables.services (some adminContext) orphanRow o' := by
  rintro ⟨o', hload, hmirrors⟩
  cases hload
  have hid := hmirrors.columns.id
  cases hid

end PolarBear.Compute
