import PolarBear.Aggregates.Aggregate
import PolarBear.Lib.Fallible

/-!
# Host aggregates as the API reads and writes them

The aggregates of the API database, with the two unique constraints that matter
here (a name is given once, an aggregate has a metadata key once), and the
functions of `nova.objects.aggregate` on them.

Where an aggregate is not in the API database, these fall back on the functions
`aggregate_*` of the main database. The model class they query, `models.Aggregate`,
is not declared in `models.py`, so a `MainDatabase` is a parameter: it may hold
aggregates, or hold none, or raise `AttributeError`. `NoneInMain` says that no
aggregate is there.
-/

namespace PolarBear.Zones

open PolarBear.Db
open PolarBear.Fallible
open PolarBear.Aggregates (Aggregate AggregateRow ApiAggregates DbAggregate addHost_id addHost_name)

/-- What `_raise_invalid_aggregate_exc` distinguishes. -/
inductive Action where
  | add
  | update
  | updateMeta
  | delete
  deriving DecidableEq, Repr

inductive AggregateError where
  | nova (e : NovaError)
  | attributeError (name : String)
  | aggregateHostNotFound (host : String) (id : Nat)
  | aggregateMetadataNotFound (key : String) (id : Nat)
  | invalidAggregateAction (action : Action) (id : Nat) (reason : String)
  | objectActionError (action reason : String)
  | computeHostNotFound (host : String)
  deriving DecidableEq, Repr

/-- The API tables: an aggregate has a metadata key once. -/
structure AggregateTable extends ApiAggregates where
  uniqKey : ∀ r ∈ rows, (Dict.keys r.metadata).Nodup

/-- What an update may set: the columns, and the metadata as a whole. -/
structure Updates where
  name : Option String
  uuid : Option String
  metadata : Option (List (String × String))

/-- What a call gets from outside: the time, a uuid for each aggregate without one, and the
uuid and the id of an aggregate it creates. -/
structure Env where
  now : Nat
  uuid : Nat → String
  uuid_ne : ∀ id, uuid id ≠ ""
  newUuid : String
  newId : Nat

/-- The functions `aggregate_*` of the main database, each a transaction on what it holds. -/
structure MainDatabase (μ : Type) where
  get : Context → Nat → μ → Except AggregateError DbAggregate
  getByMetadataKey : Context → String → μ → Except AggregateError (List DbAggregate)
  ensureMigrated : Context → μ → Except AggregateError Bool
  update : Context → Nat → Updates → μ → Except AggregateError (DbAggregate × μ)
  metadataDelete : Context → Nat → String → μ → Except AggregateError (Unit × μ)
  metadataAdd : Context → Nat → List (String × String) → μ → Except AggregateError (Unit × μ)
  hostAdd : Context → Nat → String → μ → Except AggregateError (Unit × μ)
  hostDelete : Context → Nat → String → μ → Except AggregateError (Unit × μ)
  delete : Context → Nat → μ → Except AggregateError (Unit × μ)

/-- No aggregate is found in the main database. -/
structure NoneInMain {μ : Type} (db : MainDatabase μ) (main : μ) : Prop where
  get : ∀ ctxt id, ∃ e, db.get ctxt id main = .error e
  listing : ∀ ctxt key found, db.getByMetadataKey ctxt key main = .ok found → found = []

/-- The functions as the source has them: `models.Aggregate` is not declared. -/
def undeclared : MainDatabase Unit where
  get := fun _ _ _ => .error (.attributeError "Aggregate")
  getByMetadataKey := fun _ _ _ => .error (.attributeError "Aggregate")
  ensureMigrated := fun _ _ => .error (.attributeError "Aggregate")
  update := fun _ _ _ _ => .error (.attributeError "Aggregate")
  metadataDelete := fun _ _ _ _ => .error (.attributeError "Aggregate")
  metadataAdd := fun _ _ _ _ => .error (.attributeError "Aggregate")
  hostAdd := fun _ _ _ _ => .error (.attributeError "Aggregate")
  hostDelete := fun _ _ _ _ => .error (.attributeError "Aggregate")
  delete := fun _ _ _ => .error (.attributeError "Aggregate")

theorem noneInMain_undeclared : NoneInMain undeclared () :=
  ⟨fun _ _ => ⟨_, rfl⟩, fun _ _ _ h => by cases h⟩

/-- Both databases. -/
structure Stores (μ : Type) where
  api : AggregateTable
  main : μ

abbrev AggregateM (μ : Type) := EStateM AggregateError (Stores μ)

variable {μ α : Type}

/-- A transaction on the API database. -/
def onApi (f : AggregateTable → Except AggregateError (α × AggregateTable)) : AggregateM μ α :=
  fun s =>
    match f s.api with
    | .ok (a, api) => .ok a { s with api := api }
    | .error e => .error e s

/-- A transaction on the main database. -/
def onMain (f : μ → Except AggregateError (α × μ)) : AggregateM μ α := fun s =>
  match f s.main with
  | .ok (a, main) => .ok a { s with main := main }
  | .error e => .error e s

def readApi (f : AggregateTable → Except AggregateError α) : AggregateM μ α := fun s =>
  match f s.api with
  | .ok a => .ok a s
  | .error e => .error e s

def readMain (f : μ → Except AggregateError α) : AggregateM μ α := fun s =>
  match f s.main with
  | .ok a => .ok a s
  | .error e => .error e s

section

variable {s : Stores μ} {a : α} {e : AggregateError}

theorem run_onApi_ok {f : AggregateTable → Except AggregateError (α × AggregateTable)}
    {api : AggregateTable} (h : f s.api = .ok (a, api)) :
    (onApi f).run s = .ok a { s with api := api } := by
  unfold onApi EStateM.run
  dsimp only
  rw [h]

theorem run_onApi_error {f : AggregateTable → Except AggregateError (α × AggregateTable)}
    (h : f s.api = .error e) : (onApi f).run s = .error e s := by
  unfold onApi EStateM.run
  dsimp only
  rw [h]

theorem run_readApi_ok {f : AggregateTable → Except AggregateError α} (h : f s.api = .ok a) :
    (readApi f).run s = .ok a s := by
  unfold readApi EStateM.run
  dsimp only
  rw [h]

theorem run_readApi_error {f : AggregateTable → Except AggregateError α}
    (h : f s.api = .error e) : (readApi f).run s = .error e s := by
  unfold readApi EStateM.run
  dsimp only
  rw [h]

theorem run_readMain_ok {f : μ → Except AggregateError α} (h : f s.main = .ok a) :
    (readMain f).run s = .ok a s := by
  unfold readMain EStateM.run
  dsimp only
  rw [h]

theorem run_readMain_error {f : μ → Except AggregateError α} (h : f s.main = .error e) :
    (readMain f).run s = .error e s := by
  unfold readMain EStateM.run
  dsimp only
  rw [h]

end

/-! ## Rows -/

namespace AggregateTable

def find? (t : AggregateTable) (id : Nat) : Option AggregateRow :=
  t.rows.find? (fun r => r.id == id)

/-- `_aggregate_get_from_db`. -/
def get (t : AggregateTable) (id : Nat) : Except AggregateError AggregateRow :=
  match t.find? id with
  | some r => .ok r
  | none => .error (.nova (.aggregateNotFound id))

/-- The row with an id is changed, but for its id and its name. -/
def modify (t : AggregateTable) (id : Nat) (f : AggregateRow → AggregateRow)
    (hid : ∀ r, (f r).id = r.id) (hname : ∀ r, (f r).name = r.name)
    (hkeys : ∀ r, (Dict.keys r.metadata).Nodup → (Dict.keys (f r).metadata).Nodup) :
    AggregateTable :=
  { t.toApiAggregates.modify id f hid hname with
    uniqKey := by
      intro r hr
      obtain ⟨r, hin, rfl⟩ := List.mem_map.mp hr
      split
      · exact hkeys r (t.uniqKey r hin)
      · exact t.uniqKey r hin }

/-- Another row has the name. -/
def nameTaken (t : AggregateTable) (id : Nat) (name : String) : Bool :=
  t.rows.any (fun r => r.id != id && r.name == name)

end AggregateTable

/-- An `UPDATE` of columns; without a change there is none. -/
def rowSetColumns (now : Nat) (name uuid : Option String) (r : AggregateRow) : AggregateRow :=
  if name.getD r.name = r.name ∧ (uuid.isNone ∨ uuid = r.uuid) then r
  else { r with name := name.getD r.name, uuid := uuid <|> r.uuid, updatedAt := some now }

theorem rowSetColumns_id (now : Nat) (name uuid : Option String) (r : AggregateRow) :
    (rowSetColumns now name uuid r).id = r.id := by
  unfold rowSetColumns
  split <;> rfl

theorem rowSetColumns_name (now : Nat) (name uuid : Option String) (r : AggregateRow) :
    (rowSetColumns now name uuid r).name = name.getD r.name := by
  unfold rowSetColumns
  split
  · next h => exact h.1.symm
  · rfl

theorem rowSetColumns_hosts (now : Nat) (name uuid : Option String) (r : AggregateRow) :
    (rowSetColumns now name uuid r).hosts = r.hosts := by
  unfold rowSetColumns
  split <;> rfl

theorem rowSetColumns_metadata (now : Nat) (name uuid : Option String) (r : AggregateRow) :
    (rowSetColumns now name uuid r).metadata = r.metadata := by
  unfold rowSetColumns
  split <;> rfl

namespace AggregateTable

/-- Names stay apart when a row gets one that no other row has. -/
theorem uniqName_setColumns {t : AggregateTable} {now id : Nat} {name : String}
    {uuid : Option String} (h : ¬ t.nameTaken id name = true) :
    ((t.rows.map (fun r => if r.id == id then rowSetColumns now (some name) uuid r else r)).map
      AggregateRow.name).Nodup := by
  have hnodup : t.rows.Nodup := t.uniqId.of_map
  rw [List.map_map]
  refine hnodup.map_on (fun r hr r' hr' heq => ?_)
  have hfree : ∀ q ∈ t.rows, q.id ≠ id → q.name ≠ name := by
    intro q hq hne hname
    exact h (List.any_eq_true.mpr ⟨q, hq, by simp [hne, hname]⟩)
  have hone : ∀ q : AggregateRow,
      (if q.id == id then rowSetColumns now (some name) uuid q else q).name =
        if q.id = id then name else q.name := by
    intro q
    by_cases hq : q.id = id
    · rw [if_pos (beq_iff_eq.mpr hq), if_pos hq, rowSetColumns_name]
      rfl
    · rw [if_neg (by simpa using hq), if_neg hq]
  rw [Function.comp_apply, Function.comp_apply, hone, hone] at heq
  by_cases hid : r.id = id
  · by_cases hid' : r'.id = id
    · exact List.inj_on_of_nodup_map t.uniqId hr hr' (hid.trans hid'.symm)
    · rw [if_pos hid, if_neg hid'] at heq
      exact absurd heq.symm (hfree r' hr' hid')
  · by_cases hid' : r'.id = id
    · rw [if_neg hid, if_pos hid'] at heq
      exact absurd heq (hfree r hr hid)
    · rw [if_neg hid, if_neg hid'] at heq
      exact List.inj_on_of_nodup_map t.uniqName hr hr' heq

/-- Columns of the row with an id are set; the name must not be taken. -/
def setColumns (t : AggregateTable) (now id : Nat) (name uuid : Option String) :
    Except AggregateError AggregateTable :=
  match name with
  | none => .ok (t.modify id (rowSetColumns now none uuid) (rowSetColumns_id now none uuid)
      (rowSetColumns_name now none uuid)
      (fun r h => by rw [rowSetColumns_metadata]; exact h))
  | some name =>
    if h : t.nameTaken id name = true then .error (.nova (.aggregateNameExists name))
    else .ok {
      rows := t.rows.map (fun r => if r.id == id then rowSetColumns now (some name) uuid r else r)
      uniqId := by
        rw [List.map_map]
        refine (List.map_congr_left (fun r _ => ?_)) ▸ t.uniqId
        show r.id = (if r.id == id then _ else r).id
        split
        · rw [rowSetColumns_id]
        · rfl
      uniqName := uniqName_setColumns h
      uniqKey := by
        intro r hr
        obtain ⟨r, hin, rfl⟩ := List.mem_map.mp hr
        split
        · rw [rowSetColumns_metadata]
          exact t.uniqKey r hin
        · exact t.uniqKey r hin }

end AggregateTable

/-- A host is taken out. -/
def rowRemoveHost (host : String) (r : AggregateRow) : AggregateRow :=
  { r with hosts := r.hosts.erase host, hosts_nodup := r.hosts_nodup.erase host }

/-- Entries are set; with `set_delete` the other keys go. -/
def rowAddMetadata (metadata : List (String × String)) (setDelete : Bool) (r : AggregateRow) :
    AggregateRow :=
  { r with
    metadata := Dict.update
      (if setDelete then r.metadata.filter (fun kv => kv.1 ∈ Dict.keys metadata) else r.metadata)
      metadata }

def rowRemoveKey (key : String) (r : AggregateRow) : AggregateRow :=
  { r with metadata := r.metadata.filter (fun kv => kv.1 != key) }

theorem nodup_keys_filter {entries : List (String × String)} (h : (Dict.keys entries).Nodup)
    (p : String × String → Bool) : (Dict.keys (entries.filter p)).Nodup :=
  h.sublist (List.filter_sublist.map _)

theorem addHost_metadata (host : String) (r : AggregateRow) :
    (r.addHost host).metadata = r.metadata := by
  unfold AggregateRow.addHost
  split <;> rfl

namespace AggregateTable

def addHost (t : AggregateTable) (id : Nat) (host : String) : AggregateTable :=
  t.modify id (AggregateRow.addHost host) (addHost_id host) (addHost_name host)
    (fun r h => by rw [addHost_metadata]; exact h)

def removeHost (t : AggregateTable) (id : Nat) (host : String) : AggregateTable :=
  t.modify id (rowRemoveHost host) (fun _ => rfl) (fun _ => rfl) (fun _ h => h)

def addMetadata (t : AggregateTable) (id : Nat) (metadata : List (String × String))
    (setDelete : Bool) : AggregateTable :=
  t.modify id (rowAddMetadata metadata setDelete) (fun _ => rfl) (fun _ => rfl) (fun r h => by
    refine Dict.nodup_keys_update ?_
    split
    · exact nodup_keys_filter h _
    · exact h)

def removeKey (t : AggregateTable) (id : Nat) (key : String) : AggregateTable :=
  t.modify id (rowRemoveKey key) (fun _ => rfl) (fun _ => rfl) (fun _ h => nodup_keys_filter h _)

/-- A new row, with an id and a name that no row has. -/
def insert (t : AggregateTable) (r : AggregateRow) (hid : r.id ∉ t.rows.map AggregateRow.id)
    (hname : r.name ∉ t.rows.map AggregateRow.name) (hkeys : (Dict.keys r.metadata).Nodup) :
    AggregateTable where
  rows := r :: t.rows
  uniqId := List.nodup_cons.mpr ⟨hid, t.uniqId⟩
  uniqName := List.nodup_cons.mpr ⟨hname, t.uniqName⟩
  uniqKey := by
    intro q hq
    rcases List.mem_cons.mp hq with rfl | hq
    · exact hkeys
    · exact t.uniqKey q hq

/-- The row with an id is deleted. -/
def remove (t : AggregateTable) (id : Nat) : AggregateTable where
  rows := t.rows.filter (fun r => r.id != id)
  uniqId := t.uniqId.sublist (List.filter_sublist.map _)
  uniqName := t.uniqName.sublist (List.filter_sublist.map _)
  uniqKey := fun r hr => t.uniqKey r (List.mem_filter.mp hr).1

end AggregateTable

/-! ## The functions on the API database -/

/-- `_host_add_to_db`. -/
def hostAddToDb (id : Nat) (host : String) (t : AggregateTable) :
    Except AggregateError (Unit × AggregateTable) := do
  let r ← t.get id
  if host ∈ r.hosts then .error (.nova (.aggregateHostExists host id))
  else .ok ((), t.addHost id host)

/-- `_host_delete_from_db`. -/
def hostDeleteFromDb (id : Nat) (host : String) (t : AggregateTable) :
    Except AggregateError (Unit × AggregateTable) := do
  let r ← t.get id
  if host ∈ r.hosts then .ok ((), t.removeHost id host)
  else .error (.aggregateHostNotFound host id)

/-- `_metadata_add_to_db`. -/
def metadataAddToDb (id : Nat) (metadata : List (String × String)) (t : AggregateTable) :
    Except AggregateError (Unit × AggregateTable) :=
  .ok ((), t.addMetadata id metadata false)

/-- `_metadata_delete_from_db`. -/
def metadataDeleteFromDb (id : Nat) (key : String) (t : AggregateTable) :
    Except AggregateError (Unit × AggregateTable) := do
  let r ← t.get id
  if key ∈ Dict.keys r.metadata then .ok ((), t.removeKey id key)
  else .error (.aggregateMetadataNotFound key id)

/-- `_aggregate_create_in_db`. -/
def aggregateCreateInDb (env : Env) (name uuid : String) (metadata : List (String × String))
    (t : AggregateTable) : Except AggregateError (DbAggregate × AggregateTable) :=
  let r : AggregateRow :=
    ⟨env.newId, some uuid, name, [], Dict.update [] metadata, some env.now, none, List.nodup_nil⟩
  if hname : name ∈ t.rows.map AggregateRow.name then
    .error (.nova (.aggregateNameExists name))
  else if hid : env.newId ∈ t.rows.map AggregateRow.id then
    .error (.nova (.dbDuplicateEntry ["PRIMARY"]))
  else .ok (⟨r, none⟩, t.insert r hid hname (Dict.nodup_keys_update List.nodup_nil))

/-- `_aggregate_delete_from_db`. -/
def aggregateDeleteFromDb (id : Nat) (t : AggregateTable) :
    Except AggregateError (Unit × AggregateTable) := do
  let _ ← t.get id
  .ok ((), t.remove id)

/-- `_aggregate_update_to_db`. -/
def aggregateUpdateToDb (env : Env) (id : Nat) (updates : Updates) (t : AggregateTable) :
    Except AggregateError (DbAggregate × AggregateTable) := do
  let _ ← t.get id
  let t := match updates.metadata with
    | some metadata => t.addMetadata id metadata true
    | none => t
  let t ← t.setColumns env.now id updates.name updates.uuid
  let r ← t.get id
  .ok (⟨r, none⟩, t)

/-- `_get_by_metadata_key_from_db`: of the metadata only the entry that was asked for is read. -/
def getByMetadataKeyFromDb (key : String) (t : AggregateTable) : List DbAggregate :=
  (t.rows.filter (fun r => key ∈ Dict.keys r.metadata)).map (fun r =>
    ⟨{ r with metadata := r.metadata.filter (fun kv => kv.1 == key) }, some (0, none)⟩)

/-! ## Objects -/

variable (main : MainDatabase μ) (ctxt : Context) (env : Env)

/-- `except exception.AggregateNotFound:` -/
def exceptNotFound (fallback : AggregateM μ α) : AggregateError → AggregateM μ α
  | .nova (.aggregateNotFound _) => fallback
  | e => throw e

/-- `except exception.AggregateMetadataNotFound: pass` -/
def exceptMetadataNotFound : AggregateError → AggregateM μ Unit
  | .aggregateMetadataNotFound _ _ => pure ()
  | e => throw e

/-- `Aggregate.save` of an object with this id and uuid. The uuid stays if the database gives
none back. -/
def save (id : Nat) (uuid : String) (updates : Updates) : AggregateM μ Aggregate := do
  let dbAggregate ← tryCatch (onApi (aggregateUpdateToDb env id updates))
    (exceptNotFound (onMain (main.update ctxt id updates)))
  pure (dbAggregate.toObject
    (if truthy dbAggregate.row.uuid then dbAggregate.row.uuid.getD uuid else uuid))

/-- `_from_db_object`: an aggregate without a uuid gets one, and is saved. The uuids of the rows are
ASCII, so that the field, which takes them through `str`, does not raise. -/
def fromDbObject (f : DbAggregate) : AggregateM μ Aggregate :=
  if truthy f.row.uuid then pure (f.toObject (f.row.uuid.getD ""))
  else
    let uuid := env.uuid f.row.id
    save main ctxt env f.row.id uuid ⟨none, some uuid, none⟩

/-- `Aggregate.get_by_id`. -/
def getById (id : Nat) : AggregateM μ Aggregate := do
  let dbAggregate ← tryCatch (readApi (fun t => do .ok ⟨← t.get id, none⟩))
    (exceptNotFound (readMain (main.get ctxt id)))
  fromDbObject main ctxt env dbAggregate

/-- `in_api`. -/
def inApi (id : Nat) : AggregateM μ Bool :=
  tryCatch (readApi (fun t => do
    let _ ← t.get id
    .ok true)) (exceptNotFound (pure false))

/-- `Aggregate.create`. -/
def create (name : String) (metadata : List (String × String)) : AggregateM μ Aggregate := do
  let migrated ← readMain (main.ensureMigrated ctxt)
  if migrated then
    let dbAggregate ← onApi (aggregateCreateInDb env name env.newUuid metadata)
    fromDbObject main ctxt env dbAggregate
  else throw (.objectActionError "create" "main database still contains aggregates")

/-- The loop of `update_metadata`: a key with a value is set on the object and kept for later,
one without is deleted at once. -/
def updateEntry (inApi : Bool) (a : Aggregate) (kv : String × Option String) :
    AggregateM μ Aggregate :=
  match kv.2 with
  | some value => pure { a with metadata := Dict.set kv.1 value a.metadata }
  | none => do
    tryCatch
      (if inApi then onApi (metadataDeleteFromDb a.id kv.1)
        else onMain (main.metadataDelete ctxt a.id kv.1))
      exceptMetadataNotFound
    pure { a with metadata := a.metadata.filter (fun entry => entry.1 != kv.1) }

/-- The entries with a value. -/
def toAdd (updates : List (String × Option String)) : List (String × String) :=
  updates.filterMap (fun kv => kv.2.map (fun value => (kv.1, value)))

/-- `Aggregate.update_metadata`. -/
def updateMetadata (a : Aggregate) (updates : List (String × Option String)) :
    AggregateM μ Aggregate := do
  let here ← inApi a.id
  let a ← updates.foldlM (updateEntry main ctxt here) a
  if here then onApi (metadataAddToDb a.id (toAdd updates))
  else onMain (main.metadataAdd ctxt a.id (toAdd updates))
  pure a

/-- `Aggregate.destroy`. -/
def destroy (id : Nat) : AggregateM μ Unit :=
  tryCatch (onApi (aggregateDeleteFromDb id)) (exceptNotFound (onMain (main.delete ctxt id)))

/-- `Aggregate.add_host`. -/
def addHost (a : Aggregate) (host : String) : AggregateM μ Aggregate := do
  let here ← inApi a.id
  if here then onApi (hostAddToDb a.id host) else onMain (main.hostAdd ctxt a.id host)
  pure { a with hosts := a.hosts ++ [host] }

/-- `Aggregate.delete_host`. -/
def deleteHost (a : Aggregate) (host : String) : AggregateM μ Aggregate := do
  let here ← inApi a.id
  if here then onApi (hostDeleteFromDb a.id host) else onMain (main.hostDelete ctxt a.id host)
  pure { a with hosts := a.hosts.erase host }

/-- `_filter_db_aggregates`. -/
def filterDbAggregates (dbAggregates : List DbAggregate) (hosts : List String) :
    List DbAggregate :=
  dbAggregates.filter (fun f => f.row.hosts.any (fun host => host ∈ hosts))

/-- `AggregateList.get_by_metadata_key`. -/
def getByMetadataKey (key : String) (hosts : Option (List String)) :
    AggregateM μ (List Aggregate) := do
  let apiDbAggregates ← readApi (fun t => .ok (getByMetadataKeyFromDb key t))
  let dbAggregates ← readMain (main.getByMetadataKey ctxt key)
  let allAggregates := dbAggregates ++ apiDbAggregates
  let allAggregates := match hosts with
    | some hosts => filterDbAggregates allAggregates hosts
    | none => allAggregates
  allAggregates.mapM (fromDbObject main ctxt env)

end PolarBear.Zones
