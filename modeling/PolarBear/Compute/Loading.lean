import PolarBear.Compute.ServiceDestroy
import PolarBear.Py.Value

/-!
# Loading a compute node into an object

`_from_db_object` copies a row into an object that may hold values already. It copies what is
not null, so a value stays where the column is null; `id` and `uuid` are read-only, so another
value there raises; and where the row has no host and its service is missing, it returns
before it has copied anything but the host. `load_iff` says for which objects and rows the
object mirrors the row afterwards, and a new object takes the rows that are `Loadable`.
-/

namespace PolarBear.Compute

open PolarBear.Db
open PolarBear.Fallible

variable {α : Type}

/-- A `ComputeNode` with its fields; one that is not set has no value. -/
structure NodeObject where
  context : Option Context
  id : Option Nat
  uuid : Option String
  serviceId : Option (Option Int)
  host : Option (Option String)
  computeNodeType : Option (Option String)
  computeNodeMethod : Option String
  createdAt : Option (Option Nat)
  updatedAt : Option (Option Nat)
  deletedAt : Option (Option Nat)
  changed : List String
  deriving DecidableEq, Repr

/-- `cls()`. -/
def NodeObject.new (context : Option Context) : NodeObject :=
  ⟨context, none, none, none, none, none, none, none, none, none, []⟩

/-- What `_from_db_object` is given: the columns of a row, null or not. -/
structure DbCompute where
  id : Nat
  serviceId : Option Int
  host : Option String
  uuid : Option String
  computeNodeType : Option String
  computeNodeMethod : Option String
  createdAt : Option Nat
  updatedAt : Option Nat
  deletedAt : Option Nat
  deriving DecidableEq, Repr

/-- A row of the table, whose type is never null. -/
def ComputeNodeRow.toDb (r : ComputeNodeRow) : DbCompute where
  id := r.id
  serviceId := r.serviceId
  host := r.host
  uuid := r.uuid
  computeNodeType := some r.computeNodeType
  computeNodeMethod := r.computeNodeMethod
  createdAt := r.createdAt
  updatedAt := r.updatedAt
  deletedAt := r.deletedAt

/-- What looking up a service through its object raises. -/
inductive ObjectError where
  | service (e : HostError)
  | attributeError
  deriving DecidableEq, Repr

inductive NodeError where
  | lookup (e : ObjectError)
  | store (e : ComputeError)
  | readOnlyField (name : String)
  | unicodeEncodeError
  | orphanedObject (method : String)
  | objectActionError (action reason : String)
  | notImplemented (attr : String)
  deriving DecidableEq, Repr

/-- What is raised below the objects. -/
def stored : Except ComputeError α → Except NodeError α
  | .ok a => .ok a
  | .error e => .error (.store e)

/-! ## Loading -/

/-- `Service.get_by_id`. The session of a query is kept on the context, and `None` takes no
attribute. -/
def serviceGetById (context : Option Context) (serviceId : Int) (services : StoredServices) :
    Except ObjectError StoredService :=
  match context with
  | none => .error .attributeError
  | some ctxt =>
    match serviceGet ctxt serviceId services with
    | .ok service => .ok service
    | .error e => .error (.service e)

/-- The setter of a read-only field: the value it has may be set again. -/
def setReadOnly [DecidableEq α] (name : String) (held : Option α) (v : α) :
    Except NodeError α :=
  match held with
  | some old => if old = v then .ok v else .error (.readOnlyField name)
  | none => .ok v

/-- The setter of `uuid`, a text that has to be ASCII. -/
def setUuid (held : Option String) (uuid : String) : Except NodeError String :=
  if Py.isAscii uuid then setReadOnly "uuid" held uuid else .error .unicodeEncodeError

/-- The uuid of the row, if there is one. -/
def copyUuid (held : Option String) : Option String → Except NodeError (Option String)
  | some uuid => some <$> setUuid held uuid
  | none => .ok held

/-- The columns that are copied where they are not null. -/
def NodeObject.copyColumns (o : NodeObject) (db : DbCompute) : Except NodeError NodeObject := do
  let computeNodeType := (db.computeNodeType.map some).or o.computeNodeType
  let computeNodeMethod := db.computeNodeMethod.or o.computeNodeMethod
  let id ← setReadOnly "id" o.id db.id
  let uuid ← copyUuid o.uuid db.uuid
  .ok { o with
    computeNodeType := computeNodeType
    computeNodeMethod := computeNodeMethod
    id := some id
    uuid := uuid }

/-- `_data_from_db_object`. -/
def loadData (services : StoredServices) (o : NodeObject) (db : DbCompute) :
    Except NodeError NodeObject :=
  match db.host, db.serviceId with
  | none, some serviceId =>
    match serviceGetById o.context serviceId services with
    | .ok service => { o with host := some service.host }.copyColumns db
    -- returns before the other columns are copied
    | .error (.service (.serviceNotFound _)) => .ok { o with host := some none }
    | .error e => .error (.lookup e)
  | host, _ => { o with host := some host }.copyColumns db

/-- `_from_db_object`; the setters mark fields as changed, and this resets them all. -/
def load (services : StoredServices) (o : NodeObject) (db : DbCompute) :
    Except NodeError NodeObject := do
  let o ← loadData services o db
  .ok { o with changed := [] }

/-! ## What it should leave -/

/-- The host of the row, else the host of its service, else none. -/
def expectedHost (services : StoredServices) (context : Option Context) (db : DbCompute) :
    Option String :=
  match db.host, db.serviceId with
  | none, some serviceId =>
    match serviceGetById context serviceId services with
    | .ok service => service.host
    | .error _ => none
  | host, _ => host

/-- No field whose column is null has a value. -/
structure NothingLeft (db : DbCompute) (o : NodeObject) : Prop where
  uuid : db.uuid = none → o.uuid = none
  serviceId : db.serviceId = none → o.serviceId.join = none
  computeNodeType : db.computeNodeType = none → o.computeNodeType.join = none
  computeNodeMethod : db.computeNodeMethod = none → o.computeNodeMethod = none
  createdAt : db.createdAt = none → o.createdAt.join = none
  updatedAt : db.updatedAt = none → o.updatedAt.join = none
  deletedAt : db.deletedAt = none → o.deletedAt.join = none

/-- The object has the columns of the row that are copied. -/
structure HasColumns (db : DbCompute) (o : NodeObject) : Prop where
  id : o.id = some db.id
  uuid : ∀ uuid, db.uuid = some uuid → o.uuid = some uuid
  computeNodeType : ∀ v, db.computeNodeType = some v → o.computeNodeType = some (some v)
  computeNodeMethod : ∀ v, db.computeNodeMethod = some v → o.computeNodeMethod = some v

/-- The object mirrors the row. -/
structure Mirrors (services : StoredServices) (context : Option Context) (db : DbCompute)
    (o : NodeObject) : Prop where
  columns : HasColumns db o
  left : NothingLeft db o
  host : o.host = some (expectedHost services context db)

/-- The read-only fields take the row's values. -/
structure Assignable (db : DbCompute) (o : NodeObject) : Prop where
  id : ∀ id, o.id = some id → id = db.id
  uuid : ∀ uuid, db.uuid = some uuid →
    Py.isAscii uuid = true ∧ ∀ held, o.uuid = some held → held = uuid

/-- The object holds nothing where the row has nothing, and can take the row; where the row
has no host and its service is missing, it has the row's columns already. -/
structure LoadsRight (services : StoredServices) (o : NodeObject) (db : DbCompute) : Prop where
  left : NothingLeft db o
  columns :
    match db.host, db.serviceId with
    | none, some serviceId =>
      match serviceGetById o.context serviceId services with
      | .ok _ => Assignable db o
      | .error (.service (.serviceNotFound _)) => HasColumns db o
      | .error _ => False
    | _, _ => Assignable db o

/-! ## The columns -/

variable {services : StoredServices} {o o' : NodeObject} {db : DbCompute}

theorem setReadOnly_ok [DecidableEq α] (name : String) {held : Option α} {v : α}
    (h : ∀ old, held = some old → old = v) : setReadOnly name held v = .ok v := by
  cases held with
  | none => rfl
  | some old => exact if_pos (h old rfl)

theorem setReadOnly_inv [DecidableEq α] {name : String} {held : Option α} {v v' : α}
    (h : setReadOnly name held v = .ok v') : ∀ old, held = some old → old = v := by
  intro old hold
  rw [hold] at h
  by_contra hne
  have herror : setReadOnly name (some old) v = .error (.readOnlyField name) := if_neg hne
  rw [herror] at h
  cases h

/-- What the columns leave. -/
def NodeObject.withColumns (o : NodeObject) (db : DbCompute) : NodeObject :=
  { o with
    computeNodeType := (db.computeNodeType.map some).or o.computeNodeType
    computeNodeMethod := db.computeNodeMethod.or o.computeNodeMethod
    id := some db.id
    uuid := db.uuid.or o.uuid }

theorem copyUuid_ok {held column : Option String} (h : ∀ uuid, column = some uuid →
      Py.isAscii uuid = true ∧ ∀ old, held = some old → old = uuid) :
    copyUuid held column = .ok (column.or held) := by
  cases column with
  | none => rfl
  | some uuid =>
    obtain ⟨hascii, hheld⟩ := h uuid rfl
    have hset : setUuid held uuid = .ok uuid :=
      (if_pos hascii).trans (setReadOnly_ok "uuid" hheld)
    show some <$> setUuid held uuid = _
    rw [hset]
    rfl

theorem copyUuid_inv {held column u' : Option String} (h : copyUuid held column = .ok u') :
    ∀ uuid, column = some uuid →
      Py.isAscii uuid = true ∧ ∀ old, held = some old → old = uuid := by
  rintro uuid rfl
  unfold copyUuid setUuid at h
  dsimp only at h
  split at h
  · next hascii =>
    refine ⟨hascii, ?_⟩
    cases hset : setReadOnly "uuid" held uuid with
    | ok v => exact setReadOnly_inv hset
    | error e =>
      rw [hset] at h
      cases h
  · cases h

theorem copyColumns_ok (h : Assignable db o) : o.copyColumns db = .ok (o.withColumns db) := by
  unfold NodeObject.copyColumns
  rw [setReadOnly_ok "id" h.id, copyUuid_ok h.uuid]
  rfl

theorem assignable_of_copyColumns (h : o.copyColumns db = .ok o') : Assignable db o := by
  obtain ⟨id, hid, h⟩ := bind_ok_iff.mp h
  obtain ⟨uuid, huuid, -⟩ := bind_ok_iff.mp h
  exact ⟨setReadOnly_inv hid, copyUuid_inv huuid⟩

/-- **Columns that are copied**: the object has them, and nothing else is left than was. -/
theorem hasColumns_withColumns (o : NodeObject) (db : DbCompute) :
    HasColumns db (o.withColumns db) where
  id := rfl
  uuid uuid h := by
    show db.uuid.or o.uuid = _
    rw [h]
    rfl
  computeNodeType v h := by
    show (db.computeNodeType.map some).or o.computeNodeType = _
    rw [h]
    rfl
  computeNodeMethod v h := by
    show db.computeNodeMethod.or o.computeNodeMethod = _
    rw [h]
    rfl

/-- A column that is null changes nothing. -/
theorem nothingLeft_withColumns_iff : NothingLeft db (o.withColumns db) ↔ NothingLeft db o := by
  have huuid : db.uuid = none → (o.withColumns db).uuid = o.uuid := fun h => by
    show db.uuid.or o.uuid = _
    rw [h]
    rfl
  have htype : db.computeNodeType = none →
      (o.withColumns db).computeNodeType = o.computeNodeType := fun h => by
    show (db.computeNodeType.map some).or o.computeNodeType = _
    rw [h]
    rfl
  have hmethod : db.computeNodeMethod = none →
      (o.withColumns db).computeNodeMethod = o.computeNodeMethod := fun h => by
    show db.computeNodeMethod.or o.computeNodeMethod = _
    rw [h]
    rfl
  constructor
  · intro h
    exact ⟨fun hn => (huuid hn) ▸ h.uuid hn, h.serviceId,
      fun hn => (htype hn) ▸ h.computeNodeType hn,
      fun hn => (hmethod hn) ▸ h.computeNodeMethod hn, h.createdAt, h.updatedAt, h.deletedAt⟩
  · intro h
    exact ⟨fun hn => (huuid hn).trans (h.uuid hn), h.serviceId,
      fun hn => (congrArg Option.join (htype hn)).trans (h.computeNodeType hn),
      fun hn => (hmethod hn).trans (h.computeNodeMethod hn), h.createdAt, h.updatedAt,
      h.deletedAt⟩

/-! ## The result -/

/-- The host and the marks of changes do not matter for the rest. -/
theorem nothingLeft_host_iff (host : Option (Option String)) (changed : List String) :
    NothingLeft db { o with host := host, changed := changed } ↔ NothingLeft db o :=
  ⟨fun h => ⟨h.uuid, h.serviceId, h.computeNodeType, h.computeNodeMethod, h.createdAt,
      h.updatedAt, h.deletedAt⟩,
    fun h => ⟨h.uuid, h.serviceId, h.computeNodeType, h.computeNodeMethod, h.createdAt,
      h.updatedAt, h.deletedAt⟩⟩

theorem hasColumns_host_iff (host : Option (Option String)) (changed : List String) :
    HasColumns db { o with host := host, changed := changed } ↔ HasColumns db o :=
  ⟨fun h => ⟨h.id, h.uuid, h.computeNodeType, h.computeNodeMethod⟩,
    fun h => ⟨h.id, h.uuid, h.computeNodeType, h.computeNodeMethod⟩⟩

theorem assignable_host_iff (host : Option (Option String)) :
    Assignable db { o with host := host } ↔ Assignable db o :=
  ⟨fun h => ⟨h.id, h.uuid⟩, fun h => ⟨h.id, h.uuid⟩⟩

/-- Copying the columns mirrors the row exactly if they can be copied and nothing is left. -/
theorem copied_iff {host : Option String} (hhost : host = expectedHost services o.context db) :
    (∃ o', ({ o with host := some host }.copyColumns db >>= fun o' =>
        .ok { o' with changed := [] }) = .ok o' ∧ Mirrors services o.context db o') ↔
      NothingLeft db o ∧ Assignable db o := by
  constructor
  · rintro ⟨o', hcopy, hmirrors⟩
    obtain ⟨o₁, hcolumns, heq⟩ := bind_ok_iff.mp hcopy
    have hassign := assignable_of_copyColumns hcolumns
    rw [copyColumns_ok hassign] at hcolumns
    cases hcolumns
    cases heq
    have hleft := nothingLeft_withColumns_iff.mp ((nothingLeft_host_iff _ _).mp hmirrors.left)
    exact ⟨(nothingLeft_host_iff _ _).mp hleft, (assignable_host_iff _).mp hassign⟩
  · rintro ⟨hleft, hassign⟩
    refine ⟨_, bind_ok_iff.mpr ⟨_, copyColumns_ok ((assignable_host_iff _).mpr hassign), rfl⟩,
      ?_, ?_, congrArg some hhost⟩
    · exact (hasColumns_host_iff _ _).mpr (hasColumns_withColumns _ _)
    · refine (nothingLeft_host_iff _ _).mpr (nothingLeft_withColumns_iff.mpr ?_)
      exact (nothingLeft_host_iff _ _).mpr hleft

/-- **Main result for one load.** The object mirrors the row afterwards exactly if it is
`LoadsRight`. -/
theorem load_iff :
    (∃ o', load services o db = .ok o' ∧ Mirrors services o.context db o') ↔
      LoadsRight services o db := by
  have hsplit : LoadsRight services o db ↔ NothingLeft db o ∧
      match db.host, db.serviceId with
      | none, some serviceId =>
        match serviceGetById o.context serviceId services with
        | .ok _ => Assignable db o
        | .error (.service (.serviceNotFound _)) => HasColumns db o
        | .error _ => False
      | _, _ => Assignable db o := ⟨fun h => ⟨h.left, h.columns⟩, fun h => ⟨h.1, h.2⟩⟩
  rw [hsplit]
  unfold load loadData
  cases hhost : db.host with
  | some host =>
    refine copied_iff ?_
    unfold expectedHost
    rw [hhost]
  | none =>
    cases hserviceId : db.serviceId with
    | none =>
      refine copied_iff ?_
      unfold expectedHost
      rw [hhost, hserviceId]
    | some serviceId =>
      have hexpected : expectedHost services o.context db =
          match serviceGetById o.context serviceId services with
          | .ok service => service.host
          | .error _ => none := by
        unfold expectedHost
        rw [hhost, hserviceId]
      dsimp only
      cases hfound : serviceGetById o.context serviceId services with
      | ok service =>
        rw [hfound] at hexpected
        exact copied_iff hexpected.symm
      | error e =>
        rw [hfound] at hexpected
        -- nothing but the host is set, so the object has to have the columns before
        have hmissing : (∃ o', (Except.ok { o with host := some none, changed := [] } :
            Except NodeError NodeObject) = .ok o' ∧ Mirrors services o.context db o') ↔
              NothingLeft db o ∧ HasColumns db o := by
          constructor
          · rintro ⟨o', heq, hmirrors⟩
            cases heq
            exact ⟨(nothingLeft_host_iff _ _).mp hmirrors.left,
              (hasColumns_host_iff _ _).mp hmirrors.columns⟩
          · rintro ⟨hleft, hcolumns⟩
            exact ⟨_, rfl, (hasColumns_host_iff _ _).mpr hcolumns,
              (nothingLeft_host_iff _ _).mpr hleft, congrArg some hexpected.symm⟩
        have hother : ∀ e', (∃ o', (Except.error e' : Except NodeError NodeObject) = .ok o' ∧
            Mirrors services o.context db o') ↔ NothingLeft db o ∧ False :=
          fun e' => iff_of_false (fun ⟨o', h, _⟩ => nomatch h) (fun h => h.2)
        cases e with
        | service e =>
          cases e with
          | serviceNotFound id => exact hmissing
          | nova e => exact hother _
        | attributeError => exact hother _

/-! ## New objects -/

variable {r : ComputeNodeRow}

/-- A row that says where its host stands. -/
def HostKnown (r : ComputeNodeRow) : Prop := r.host = none → r.serviceId = none

/-- A row that a new object takes. -/
structure Loadable (r : ComputeNodeRow) : Prop where
  host : HostKnown r
  uuid : ∀ uuid, r.uuid = some uuid → Py.isAscii uuid = true

/-- The object that is made of a row. -/
def nodeOf (r : ComputeNodeRow) : NodeObject :=
  { NodeObject.new none with
    id := some r.id
    uuid := r.uuid
    host := some r.host
    computeNodeType := some (some r.computeNodeType)
    computeNodeMethod := r.computeNodeMethod }

/-- A row that says where its host stands is copied. -/
theorem loadData_known (services : StoredServices) (hhost : HostKnown r) :
    loadData services (NodeObject.new none) r.toDb =
      { NodeObject.new none with host := some r.host }.copyColumns r.toDb := by
  have hhostColumn : r.toDb.host = r.host := rfl
  have hserviceColumn : r.toDb.serviceId = r.serviceId := rfl
  unfold loadData
  rw [hhostColumn, hserviceColumn]
  cases hh : r.host with
  | some host => rfl
  | none => rw [hhost hh]

theorem load_known (services : StoredServices) (h : Loadable r) :
    load services (NodeObject.new none) r.toDb = .ok (nodeOf r) := by
  have hassign : Assignable r.toDb { NodeObject.new none with host := some r.host } :=
    ⟨fun id hid => (nomatch hid),
      fun uuid huuid => ⟨h.uuid uuid huuid, fun held hheld => (nomatch hheld)⟩⟩
  unfold load
  rw [loadData_known services h.host, copyColumns_ok hassign]
  unfold NodeObject.withColumns ComputeNodeRow.toDb NodeObject.new nodeOf
  simp only [Option.or_none, Option.map_some]
  rfl

/-- A row without a host that has a service cannot be read, nor one whose uuid is not ASCII. -/
theorem known_of_load (h : load services (NodeObject.new none) r.toDb = .ok o) : Loadable r := by
  unfold load at h
  obtain ⟨o₁, hdata, -⟩ := bind_ok_iff.mp h
  by_cases hhost : HostKnown r
  · rw [loadData_known services hhost] at hdata
    exact ⟨hhost, fun uuid huuid => ((assignable_of_copyColumns hdata).uuid uuid huuid).1⟩
  · -- the service is looked up, and a new object has no context for that
    unfold HostKnown at hhost
    rw [Classical.not_imp] at hhost
    obtain ⟨serviceId, hserviceId⟩ := Option.ne_none_iff_exists'.mp hhost.2
    unfold loadData at hdata
    have hcols : r.toDb.host = none ∧ r.toDb.serviceId = some serviceId := ⟨hhost.1, hserviceId⟩
    rw [hcols.1, hcols.2] at hdata
    cases hdata

end PolarBear.Compute
