import PolarBear.Lib.Join
import PolarBear.Zones.Reading

/-!
# The readers of aggregates

Six calls make objects of the aggregates in the API database. Five of them load the
hosts and the metadata of an aggregate as a whole; the one that asks for a metadata key
loads of the metadata what the key selected. An aggregate without a uuid gets one and is
saved, and then it is read again as a whole. So a listing by key shows part of the
metadata of every aggregate that has a uuid and another key, and everything else is
shown as it is stored (`faithful_iff`). In a listing by host an empty key is none.

`MainReaders` adds the listings of the main database to the functions that are a parameter
already; `NothingListed` says that it has no aggregates.
-/

namespace PolarBear.Zones

open PolarBear.Db
open PolarBear.Fallible
open PolarBear.Join
open PolarBear.Aggregates (Aggregate AggregateRow DbAggregate)

/-- The readers `aggregate_*` of the main database. -/
structure MainReaders (μ : Type) extends MainDatabase μ where
  getByUuid : Context → String → μ → Except AggregateError DbAggregate
  getAll : Context → μ → Except AggregateError (List DbAggregate)
  getByHost : Context → String → Option String → μ → Except AggregateError (List DbAggregate)

variable {μ : Type}

/-- There are no aggregates in the main database. -/
structure NothingListed (db : MainReaders μ) (ctxt : Context) (main : μ) : Prop where
  getAll : db.getAll ctxt main = .ok []
  getByHost : ∀ host key, db.getByHost ctxt host key main = .ok []
  getByMetadataKey : ∀ key, db.getByMetadataKey ctxt key main = .ok []

/-! ## The queries -/

/-- A row that is loaded as a whole, after `_fill_deprecated`. -/
def loadedRow (r : AggregateRow) : DbAggregate := ⟨r, some (0, none)⟩

/-- A row that is loaded with the metadata that a key selected, after `_fill_deprecated`. -/
def selectedRow (key : String) (r : AggregateRow) : DbAggregate :=
  ⟨{ r with metadata := r.metadata.filter (fun kv => kv.1 == key) }, some (0, none)⟩

/-- `_aggregate_get_from_db_by_uuid`; `none` is `AggregateNotFound`. -/
def aggregateGetFromDbByUuid (uuid : String) (t : AggregateTable) : Option AggregateRow :=
  t.rows.find? (fun r => r.uuid == some uuid)

/-- `_get_all_from_db`. -/
def getAllFromDb (t : AggregateTable) : List DbAggregate := t.rows.map loadedRow

/-- `_get_by_host_from_db`. -/
def getByHostFromDb (host : String) (key : Option String) (t : AggregateTable) :
    List DbAggregate :=
  let query := join AggregateRow.hosts (fun h => h == host) t.rows
  let query := if truthy key
    then join AggregateRow.metadata (fun kv => kv.1 == key.getD "") query else query
  query.map loadedRow

variable (main : MainReaders μ) (ctxt : Context) (env : Env)

/-- `Aggregate.get_by_uuid`. -/
def getByUuid (uuid : String) : AggregateM μ Aggregate := do
  match ← readApi (fun t => .ok (aggregateGetFromDbByUuid uuid t)) with
  | some r => fromDbObject main.toMainDatabase ctxt env ⟨r, none⟩
  | none =>
    let dbAggregate ← readMain (main.getByUuid ctxt uuid)
    fromDbObject main.toMainDatabase ctxt env dbAggregate

/-- `AggregateList.get_all`. -/
def getAll : AggregateM μ (List Aggregate) := do
  let apiDbAggregates ← readApi (fun t => .ok (getAllFromDb t))
  let dbAggregates ← readMain (main.getAll ctxt)
  (dbAggregates ++ apiDbAggregates).mapM (fromDbObject main.toMainDatabase ctxt env)

/-- `AggregateList.get_by_host`. -/
def getByHost (host : String) (key : Option String) : AggregateM μ (List Aggregate) := do
  let apiDbAggregates ← readApi (fun t => .ok (getByHostFromDb host key t))
  let dbAggregates ← readMain (main.getByHost ctxt host key)
  (dbAggregates ++ apiDbAggregates).mapM (fromDbObject main.toMainDatabase ctxt env)

/-- The six readers, with what they are asked for. -/
inductive Reader where
  | byId (id : Nat)
  | byUuid (uuid : String)
  | all
  | byHost (host : String) (key : Option String)
  | byMetadataKey (key : String) (hosts : Option (List String))

/-- What a reader returns. -/
def Reader.run : Reader → AggregateM μ (List Aggregate)
  | .byId id => do
    let aggregate ← getById main.toMainDatabase ctxt env id
    pure [aggregate]
  | .byUuid uuid => do
    let aggregate ← getByUuid main ctxt env uuid
    pure [aggregate]
  | .all => getAll main ctxt env
  | .byHost host key => getByHost main ctxt env host key
  | .byMetadataKey key hosts => getByMetadataKey main.toMainDatabase ctxt env key hosts

/-! ## What they are for -/

/-- The reader returns a list, which may be empty. -/
def Reader.lists : Reader → Bool
  | .byId _ | .byUuid _ => false
  | .all | .byHost _ _ | .byMetadataKey _ _ => true

/-- The aggregates that a reader is asked for. A uuid may be there twice: then it is the first. -/
def Reader.asked (t : AggregateTable) : Reader → List AggregateRow
  | .byId id => (t.find? id).toList
  | .byUuid uuid => (t.rows.find? (fun r => r.uuid == some uuid)).toList
  | .all => t.rows
  | .byHost host key => t.rows.filter (fun r =>
      decide (host ∈ r.hosts) && key.all (fun key => decide (key ∈ Dict.keys r.metadata)))
  | .byMetadataKey key hosts => t.rows.filter (fun r =>
      decide (key ∈ Dict.keys r.metadata) &&
        hosts.all (fun hosts => r.hosts.any (fun host => decide (host ∈ hosts))))

/-- An object shows all that is stored of an aggregate. -/
structure ShowsStored (a : Aggregate) (r : AggregateRow) : Prop where
  id : a.id = r.id
  uuid : r.uuid = some a.uuid
  name : a.name = r.name
  hosts : a.hosts = r.hosts
  metadata : a.metadata = r.metadata

/-- The reader returns the aggregates it is asked for, each once and with all that is stored of
it, and gives a uuid to those without one. -/
def Reader.Faithful (reader : Reader) (s : Stores μ) : Prop :=
  reader.lists = true ∨ reader.asked s.api ≠ [] → ∃ found s',
    (reader.run main ctxt env).run s = .ok found s' ∧
    List.Forall₂ (fun a r => ShowsStored a (rowBackfill env r)) found (reader.asked s.api) ∧
    ∀ id, s'.api.find? id = if id ∈ (reader.asked s.api).map AggregateRow.id
      then (s.api.find? id).map (rowBackfill env) else s.api.find? id

/-- The key of a listing by host is not empty, or makes no difference; and in a listing by key
the aggregates with a uuid have no other key. -/
def Reader.Complete (t : AggregateTable) : Reader → Prop
  | .byHost host key => key = some "" → ∀ r ∈ t.rows, host ∈ r.hosts → "" ∈ Dict.keys r.metadata
  | .byMetadataKey key hosts => ∀ r ∈ (Reader.byMetadataKey key hosts).asked t,
      truthy r.uuid = true → ∀ k ∈ Dict.keys r.metadata, k = key
  | .byId _ | .byUuid _ | .all => True

variable {main ctxt env} {s : Stores μ}

/-! ## The queries select what is asked for -/

/-- The join on a host. -/
theorem join_hosts (host : String) (rows : List AggregateRow) :
    join AggregateRow.hosts (fun h => h == host) rows =
      rows.filter (fun r => decide (host ∈ r.hosts)) := by
  have honce : ∀ r ∈ rows, (r.hosts.filter (fun h => h == host)).length ≤ 1 := by
    intro r _
    have hnodup : (r.hosts.map (fun h => h)).Nodup := by
      rw [List.map_id']
      exact r.hosts_nodup
    exact once_of_nodup hnodup host
  rw [join_eq_filter rows honce]
  refine List.filter_congr (fun r _ => ?_)
  rw [List.any_beq', List.contains_eq_mem]

/-- The join on a metadata key, which an aggregate has once. -/
theorem join_metadata (key : String) {rows : List AggregateRow}
    (hkeys : ∀ r ∈ rows, (Dict.keys r.metadata).Nodup) :
    join AggregateRow.metadata (fun kv => kv.1 == key) rows =
      rows.filter (fun r => decide (key ∈ Dict.keys r.metadata)) := by
  rw [join_eq_filter rows (fun r hr => once_of_nodup (hkeys r hr) key)]
  refine List.filter_congr (fun r _ => ?_)
  rw [Bool.eq_iff_iff, List.any_eq_true, decide_eq_true_eq]
  constructor
  · rintro ⟨kv, hkv, heq⟩
    exact List.mem_map.mpr ⟨kv, hkv, beq_iff_eq.mp heq⟩
  · intro hmem
    obtain ⟨kv, hkv, heq⟩ := List.mem_map.mp hmem
    exact ⟨kv, hkv, beq_iff_eq.mpr heq⟩

/-- A listing by host: an empty key is none. -/
theorem getByHostFromDb_eq (t : AggregateTable) (host : String) (key : Option String) :
    getByHostFromDb host key t =
      ((Reader.byHost host (if truthy key then key else none)).asked t).map loadedRow := by
  unfold getByHostFromDb Reader.asked
  dsimp only
  rw [join_hosts]
  cases key with
  | none => simp [truthy]
  | some key =>
    by_cases htruthy : truthy (some key) = true
    · rw [if_pos htruthy, if_pos htruthy, join_metadata _
        (fun r hr => t.uniqKey r (List.mem_of_mem_filter hr)), List.filter_filter]
      refine congrArg _ (List.filter_congr (fun r _ => ?_))
      exact Bool.and_comm ..
    · rw [if_neg htruthy, if_neg htruthy]
      simp

/-- A listing by key is a join, too. -/
theorem getByMetadataKeyFromDb_eq (t : AggregateTable) (key : String) :
    getByMetadataKeyFromDb key t =
      (join AggregateRow.metadata (fun kv => kv.1 == key) t.rows).map (selectedRow key) := by
  rw [join_metadata key t.uniqKey]
  rfl

/-- The rows of a listing by key. -/
theorem filterDbAggregates_eq (t : AggregateTable) (key : String)
    (hosts : Option (List String)) :
    (match hosts with
      | some hosts => filterDbAggregates (getByMetadataKeyFromDb key t) hosts
      | none => getByMetadataKeyFromDb key t) =
      ((Reader.byMetadataKey key hosts).asked t).map (selectedRow key) := by
  rw [getByMetadataKeyFromDb_eq, join_metadata key t.uniqKey]
  unfold Reader.asked
  cases hosts with
  | none => simp
  | some hosts =>
    -- the filter by hosts looks at rows that are loaded in part, but with all their hosts
    unfold filterDbAggregates
    dsimp only
    rw [List.filter_map, List.filter_filter]
    refine congrArg _ (List.filter_congr (fun r _ => ?_))
    exact Bool.and_comm ..

/-! ## The objects -/

/-- An object made of a row that is loaded as a whole or in part shows all that is stored exactly
if the metadata is loaded as a whole, or the row has no uuid. -/
theorem showsStored_iff {f : DbAggregate} {r : AggregateRow} (hid : f.row.id = r.id)
    (huuid : f.row.uuid = r.uuid) (hname : f.row.name = r.name) (hhosts : f.row.hosts = r.hosts)
    (hkeys : (Dict.keys r.metadata).Nodup) (hloaded : (Dict.keys f.row.metadata).Nodup) :
    ShowsStored ((readBack env f r).toObject ((rowBackfill env r).uuid.getD ""))
      (rowBackfill env r) ↔ (truthy r.uuid = true → f.row.metadata = r.metadata) := by
  have hstored : ∃ uuid, (rowBackfill env r).uuid = some uuid := by
    have htruthy := truthy_rowBackfill env r
    cases huuid : (rowBackfill env r).uuid with
    | none =>
      rw [huuid] at htruthy
      cases htruthy
    | some uuid => exact ⟨uuid, rfl⟩
  obtain ⟨uuid, hstored⟩ := hstored
  rw [hstored]
  unfold readBack
  by_cases htruthy : truthy r.uuid = true
  · rw [huuid, if_pos htruthy, rowBackfill_of_truthy env htruthy] at *
    have hread : f.row.metadetails = f.row.metadata := Dict.update_nil hloaded
    constructor
    · intro h _
      rw [← hread]
      exact h.metadata
    · intro h
      exact ⟨hid, hstored, hname, hhosts, hread.trans (h htruthy)⟩
  · rw [huuid, if_neg htruthy]
    refine iff_of_true ⟨rfl, hstored, rfl, rfl, ?_⟩ (fun h => absurd h htruthy)
    refine Dict.update_nil ?_
    show (Dict.keys (rowBackfill env r).metadata).Nodup
    rw [rowBackfill_metadata]
    exact hkeys

/-! ## The readers -/

/-- What a run of a reader shows, once it is known which rows it loads. -/
def Loads (run : AggregateM μ (List Aggregate)) (env : Env) (part : AggregateRow → DbAggregate)
    (rows : List AggregateRow) (s : Stores μ) : Prop :=
  run.run s = .ok (rows.map (fun r =>
      (readBack env (part r) r).toObject ((rowBackfill env r).uuid.getD "")))
    { s with api := s.api.backfills env (rows.map AggregateRow.id) }

/-- A reader that loads what it is asked for. -/
theorem faithful_of_loads {reader : Reader} {part : AggregateRow → DbAggregate}
    (hlists : reader.lists = true ∨ reader.asked s.api ≠ [])
    (hloads : Loads (reader.run main ctxt env) env part (reader.asked s.api) s) :
    reader.Faithful main ctxt env s ↔ ∀ r ∈ reader.asked s.api, ShowsStored
      ((readBack env (part r) r).toObject ((rowBackfill env r).uuid.getD ""))
      (rowBackfill env r) := by
  unfold Reader.Faithful
  rw [hloads]
  constructor
  · intro h
    obtain ⟨found, s', hrun, hshows, -⟩ := h hlists
    cases hrun
    rw [List.forall₂_map_left_iff, List.forall₂_same] at hshows
    exact hshows
  · intro h _
    refine ⟨_, _, rfl, ?_, fun id => AggregateTable.find?_backfills env id _ _⟩
    rw [List.forall₂_map_left_iff, List.forall₂_same]
    exact h

/-- The rows of a listing are loaded one after the other. -/
theorem loads_listing {part : AggregateRow → DbAggregate} (hid : ∀ r, (part r).row.id = r.id)
    (huuid : ∀ r, (part r).row.uuid = r.uuid) {rows : List AggregateRow}
    (hsub : rows.Sublist s.api.rows) :
    Loads ((rows.map part).mapM (fromDbObject main.toMainDatabase ctxt env)) env part rows s :=
  run_mapM_fromDbObject main.toMainDatabase ctxt env hid huuid rows s
    (s.api.uniqId.sublist (hsub.map _))
    (fun _ hr => (s.api.find?_iff).mpr ⟨hsub.subset hr, rfl⟩)

theorem loads_getAll (hmain : NothingListed main ctxt s.main) :
    Loads (Reader.all.run main ctxt env) env loadedRow (Reader.all.asked s.api) s := by
  have hapi : (readApi (fun t => .ok (getAllFromDb t)) : AggregateM μ (List DbAggregate)).run s =
      .ok (getAllFromDb s.api) s := rfl
  show (getAll main ctxt env).run s = _
  unfold getAll
  rw [run_bind_ok hapi, run_bind_ok (run_readMain_ok hmain.getAll), List.nil_append]
  exact loads_listing (fun _ => rfl) (fun _ => rfl) (List.Sublist.refl _)

theorem loads_getByHost (hmain : NothingListed main ctxt s.main) (host : String)
    (key : Option String) : Loads ((Reader.byHost host key).run main ctxt env) env loadedRow
      ((Reader.byHost host (if truthy key then key else none)).asked s.api) s := by
  have hapi : (readApi (fun t => .ok (getByHostFromDb host key t)) :
      AggregateM μ (List DbAggregate)).run s = .ok (getByHostFromDb host key s.api) s := rfl
  show (getByHost main ctxt env host key).run s = _
  unfold getByHost
  rw [run_bind_ok hapi, run_bind_ok (run_readMain_ok (hmain.getByHost host key)),
    List.nil_append, getByHostFromDb_eq]
  exact loads_listing (fun _ => rfl) (fun _ => rfl) List.filter_sublist

theorem loads_getByMetadataKey (hmain : NothingListed main ctxt s.main) (key : String)
    (hosts : Option (List String)) :
    Loads ((Reader.byMetadataKey key hosts).run main ctxt env) env (selectedRow key)
      ((Reader.byMetadataKey key hosts).asked s.api) s := by
  have hapi : (readApi (fun t => .ok (getByMetadataKeyFromDb key t)) :
      AggregateM μ (List DbAggregate)).run s = .ok (getByMetadataKeyFromDb key s.api) s := rfl
  show (getByMetadataKey main.toMainDatabase ctxt env key hosts).run s = _
  unfold getByMetadataKey
  rw [run_bind_ok hapi, run_bind_ok (run_readMain_ok (hmain.getByMetadataKey key))]
  dsimp only
  rw [List.nil_append]
  refine (congrArg (fun rows => (List.mapM (fromDbObject main.toMainDatabase ctxt env) rows).run s)
    (filterDbAggregates_eq s.api key hosts)).trans ?_
  exact loads_listing (fun _ => rfl) (fun _ => rfl) List.filter_sublist

/-- One aggregate is loaded. -/
theorem loads_one {r : AggregateRow} (hr : s.api.find? r.id = some r)
    {run : AggregateM μ Aggregate}
    (hrun : run.run s = (fromDbObject main.toMainDatabase ctxt env ⟨r, none⟩).run s) :
    Loads (do
      let aggregate ← run
      pure [aggregate]) env (fun row => ⟨row, none⟩) [r] s := by
  have hloaded := @run_fromDbObject_eq _ main.toMainDatabase ctxt env s r ⟨r, none⟩ hr rfl
  show (run >>= fun aggregate => pure [aggregate]).run s = _
  rw [run_bind_ok (hrun.trans hloaded)]
  rfl

theorem loads_byId {id : Nat} {r : AggregateRow} (hr : s.api.find? id = some r) :
    Loads ((Reader.byId id).run main ctxt env) env (fun row => ⟨row, none⟩) [r] s := by
  have hid := ((s.api.find?_iff).mp hr).2
  have hread : (do .ok (DbAggregate.mk (← s.api.get id) none)) =
      (Except.ok ⟨r, none⟩ : Except AggregateError DbAggregate) := by
    rw [AggregateTable.get_of_find hr]
    rfl
  have hrun : (getById main.toMainDatabase ctxt env id).run s =
      (fromDbObject main.toMainDatabase ctxt env ⟨r, none⟩).run s := by
    unfold getById
    rw [EStateM.run_bind, run_tryCatch, run_readApi_ok hread]
  exact loads_one (by rw [hid]; exact hr) hrun

theorem loads_byUuid {uuid : String} {r : AggregateRow}
    (hr : aggregateGetFromDbByUuid uuid s.api = some r) :
    Loads ((Reader.byUuid uuid).run main ctxt env) env (fun row => ⟨row, none⟩) [r] s := by
  have hread : (readApi (fun t => .ok (aggregateGetFromDbByUuid uuid t)) :
      AggregateM μ (Option AggregateRow)).run s = .ok (some r) s := by
    rw [← hr]
    rfl
  have hrun : (getByUuid main ctxt env uuid).run s =
      (fromDbObject main.toMainDatabase ctxt env ⟨r, none⟩).run s := by
    unfold getByUuid
    rw [run_bind_ok hread]
  exact loads_one ((s.api.find?_iff).mpr ⟨List.mem_of_find?_eq_some hr, rfl⟩) hrun

/-- A reader that loads what it is asked for as a whole. -/
theorem faithful_of_whole {reader : Reader} {part : AggregateRow → DbAggregate}
    (hpart : ∀ r, (part r).row = r) (hsub : ∀ r ∈ reader.asked s.api, r ∈ s.api.rows)
    (hlists : reader.lists = true ∨ reader.asked s.api ≠ [])
    (hloads : Loads (reader.run main ctxt env) env part (reader.asked s.api) s) :
    reader.Faithful main ctxt env s := by
  refine (faithful_of_loads hlists hloads).mpr (fun r hr => ?_)
  have hkeys := s.api.uniqKey r (hsub r hr)
  have hrow := hpart r
  exact (showsStored_iff (by rw [hrow]) (by rw [hrow]) (by rw [hrow]) (by rw [hrow]) hkeys
    (by rw [hrow]; exact hkeys)).mpr (fun _ => by rw [hrow])

/-- A reader of one aggregate. -/
theorem faithful_of_one {reader : Reader} (hlists : reader.lists = false)
    (found : Option AggregateRow) (hasked : reader.asked s.api = found.toList)
    (hloads : ∀ r, found = some r → r ∈ s.api.rows ∧
      Loads (reader.run main ctxt env) env (fun row => ⟨row, none⟩) [r] s) :
    reader.Faithful main ctxt env s := by
  intro hreturns
  cases found with
  | none =>
    rw [hlists] at hreturns
    exact absurd hasked (hreturns.resolve_left (fun h => nomatch h))
  | some r =>
    obtain ⟨hmem, hloads⟩ := hloads r rfl
    have hone : reader.asked s.api = [r] := hasked
    rw [← hone] at hloads
    refine faithful_of_whole (fun _ => rfl) (fun q hq => ?_) hreturns hloads hreturns
    rw [hone] at hq
    rw [List.mem_singleton.mp hq]
    exact hmem

theorem exists_of_forall₂ {α β : Type} {R : α → β → Prop} {as : List α} {bs : List β}
    (h : List.Forall₂ R as bs) {a : α} (ha : a ∈ as) : ∃ b ∈ bs, R a b := by
  induction h with
  | nil => cases ha
  | cons hab _ ih =>
    rcases List.mem_cons.mp ha with rfl | ha
    · exact ⟨_, List.mem_cons_self .., hab⟩
    · obtain ⟨b, hb, hr⟩ := ih ha
      exact ⟨b, List.mem_cons_of_mem _ hb, hr⟩

/-- An empty key of a listing by host is ignored, so it must not make a difference. -/
theorem faithful_emptyKey (hmain : NothingListed main ctxt s.main) (host : String) :
    (Reader.byHost host (some "")).Faithful main ctxt env s ↔
      ∀ r ∈ s.api.rows, host ∈ r.hosts → "" ∈ Dict.keys r.metadata := by
  have hloads := @loads_getByHost _ main ctxt env s hmain host (some "")
  rw [if_neg (show ¬ truthy (some "") = true by decide)] at hloads
  constructor
  · intro h r hr hhost
    obtain ⟨found, s', hrun, hshows, -⟩ := h (.inl rfl)
    rw [hloads] at hrun
    cases hrun
    rw [List.forall₂_map_left_iff] at hshows
    have hread : r ∈ (Reader.byHost host none).asked s.api :=
      List.mem_filter.mpr ⟨hr, by simp [hhost]⟩
    obtain ⟨r', hr', hshown⟩ := exists_of_forall₂ hshows hread
    have hid : r'.id = r.id := by
      rw [← rowBackfill_id env r', ← hshown.id]
      exact readBack_id (f := loadedRow r) rfl
    obtain ⟨hmem, hasked⟩ := List.mem_filter.mp hr'
    obtain rfl : r' = r := List.inj_on_of_nodup_map s.api.uniqId hmem hr hid
    simpa [hhost] using hasked
  · intro h
    have hsame : (Reader.byHost host none).asked s.api =
        (Reader.byHost host (some "")).asked s.api := by
      refine List.filter_congr (fun r hr => ?_)
      by_cases hhost : host ∈ r.hosts
      · simp [hhost, h r hr hhost]
      · simp [hhost]
    rw [hsame] at hloads
    exact faithful_of_whole (fun _ => rfl) (fun r hr => List.mem_of_mem_filter hr) (.inl rfl) hloads

/-- **Main result.** For every state of the API database and every reader: it returns the
aggregates it is asked for, each once and with all that is stored of it, if and only if the
key of a listing by host is not empty or makes no difference, and in a listing by key the
aggregates that have a uuid have no other key. -/
theorem faithful_iff (hmain : NothingListed main ctxt s.main) (reader : Reader) :
    reader.Faithful main ctxt env s ↔ reader.Complete s.api := by
  cases reader with
  | byId id =>
    refine iff_of_true (faithful_of_one rfl (s.api.find? id) rfl (fun r hr => ?_)) trivial
    exact ⟨((s.api.find?_iff).mp hr).1, loads_byId hr⟩
  | byUuid uuid =>
    refine iff_of_true (faithful_of_one rfl (aggregateGetFromDbByUuid uuid s.api) rfl
      (fun r hr => ?_)) trivial
    exact ⟨List.mem_of_find?_eq_some hr, loads_byUuid hr⟩
  | all =>
    exact iff_of_true (faithful_of_whole (fun _ => rfl) (fun _ hr => hr) (.inl rfl)
      (loads_getAll hmain)) trivial
  | byHost host key =>
    by_cases hkey : key = some ""
    · subst hkey
      exact (faithful_emptyKey hmain host).trans (imp_iff_right rfl).symm
    · refine iff_of_true ?_ (fun h => absurd h hkey)
      have hloads := @loads_getByHost _ main ctxt env s hmain host key
      have hgiven : (if truthy key then key else none) = key := by
        cases key with
        | none => rfl
        | some key => exact if_pos (bne_iff_ne.mpr (fun h => hkey (congrArg some h)))
      rw [hgiven] at hloads
      exact faithful_of_whole (fun _ => rfl) (fun r hr => List.mem_of_mem_filter hr) (.inl rfl)
        hloads
  | byMetadataKey key hosts =>
    refine (faithful_of_loads (.inl rfl) (loads_getByMetadataKey hmain key hosts)).trans ?_
    refine forall₂_congr (fun r hr => ?_)
    have hkeys := s.api.uniqKey r (List.mem_of_mem_filter hr)
    have hshows := @showsStored_iff env (selectedRow key r) r rfl rfl rfl rfl hkeys
      (nodup_keys_filter hkeys _)
    refine hshows.trans (imp_congr_right (fun _ => ?_))
    show r.metadata.filter (fun kv => kv.1 == key) = r.metadata ↔ _
    rw [List.filter_eq_self]
    constructor
    · intro h k hk
      obtain ⟨kv, hkv, rfl⟩ := List.mem_map.mp hk
      exact beq_iff_eq.mp (h kv hkv)
    · exact fun h kv hkv => beq_iff_eq.mpr (h kv.1 (List.mem_map_of_mem hkv))

/-! ## One aggregate, read in six ways -/

/-- A main database without aggregates. -/
def emptyMain : MainReaders Unit where
  toMainDatabase := { undeclared with getByMetadataKey := fun _ _ _ => .ok [] }
  getByUuid := fun _ _ _ => .error (.attributeError "Aggregate")
  getAll := fun _ _ => .ok []
  getByHost := fun _ _ _ _ => .ok []

theorem nothingListed_emptyMain (ctxt : Context) : NothingListed emptyMain ctxt () :=
  ⟨rfl, fun _ _ => rfl, fun _ => rfl⟩

/-- An aggregate with a zone and one more key. -/
def twoKeys : Stores Unit where
  api := {
    rows := [⟨1, some "u1", "fast", ["node-1"], [("availability_zone", "lab"), ("ssd", "yes")],
      none, none, by decide⟩]
    uniqId := by decide
    uniqName := by decide
    uniqKey := by decide }
  main := ()

def readerEnv : Env := ⟨60, fun _ => "u2", fun _ => by decide, "u3", 2⟩

/-- The object of `twoKeys`, with this metadata. -/
def fastAggregate (metadata : List (String × String)) : Aggregate :=
  ⟨1, "u1", "fast", ["node-1"], metadata, none, none, none, false⟩

/-- Asked for by the key, the aggregate has lost its zone. With an empty key, it is returned
though it has no such key. -/
theorem readers_differ :
    ((Reader.byMetadataKey "ssd" none).run emptyMain adminContext readerEnv).run twoKeys =
        .ok [fastAggregate [("ssd", "yes")]] twoKeys ∧
    ((Reader.byId 1).run emptyMain adminContext readerEnv).run twoKeys =
        .ok [fastAggregate [("availability_zone", "lab"), ("ssd", "yes")]] twoKeys ∧
    ¬ (Reader.byMetadataKey "ssd" none).Faithful emptyMain adminContext readerEnv twoKeys ∧
    ((Reader.byHost "node-1" (some "")).run emptyMain adminContext readerEnv).run twoKeys =
        .ok [fastAggregate [("availability_zone", "lab"), ("ssd", "yes")]] twoKeys ∧
    ¬ (Reader.byHost "node-1" (some "")).Faithful emptyMain adminContext readerEnv twoKeys := by
  have hkey : ((Reader.byMetadataKey "ssd" none).run emptyMain adminContext readerEnv).run
      twoKeys = .ok [fastAggregate [("ssd", "yes")]] twoKeys := rfl
  have hhost : ((Reader.byHost "node-1" (some "")).run emptyMain adminContext readerEnv).run
      twoKeys = .ok [fastAggregate [("availability_zone", "lab"), ("ssd", "yes")]] twoKeys := rfl
  refine ⟨hkey, rfl, fun h => ?_, hhost, fun h => ?_⟩
  · obtain ⟨found, s', hrun, hshows, -⟩ := h (.inl rfl)
    rw [hkey] at hrun
    cases hrun
    obtain ⟨r, hr, hshown⟩ := exists_of_forall₂ hshows (List.mem_cons_self ..)
    obtain rfl := List.mem_singleton.mp hr
    exact absurd hshown.metadata (by decide)
  · obtain ⟨found, s', hrun, hshows, -⟩ := h (.inl rfl)
    rw [hhost] at hrun
    cases hrun
    obtain ⟨r, hr, -⟩ := exists_of_forall₂ hshows (List.mem_cons_self ..)
    cases hr

/-- By its id and by its host it is shown as it is stored. -/
theorem faithful_readers :
    (Reader.byId 1).Faithful emptyMain adminContext readerEnv twoKeys ∧
      (Reader.byHost "node-1" (some "ssd")).Faithful emptyMain adminContext readerEnv twoKeys :=
  ⟨(faithful_iff (nothingListed_emptyMain adminContext) (.byId 1)).mpr trivial,
    (faithful_iff (nothingListed_emptyMain adminContext) (.byHost "node-1" (some "ssd"))).mpr
      (fun h => absurd h (by decide))⟩

end PolarBear.Zones
