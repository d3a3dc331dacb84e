import PolarBear.Zones.AggregateApi

/-!
# What the calls on aggregates read

Reading an aggregate of the API database gives it a uuid if it has none, and
changes nothing else (`backfill`). So does the check of a zone, for each aggregate
that it looks at: `run_isSafeToUpdateAz` says when it raises (`Refuses`) and what it
has read (`checked`).

What the zones of hosts depend on, the hosts and the metadata of the rows, is the
same after any read (`places`).
-/

namespace PolarBear.Zones

open PolarBear.Db
open PolarBear.Fallible
open PolarBear.Aggregates (Aggregate AggregateRow DbAggregate)

variable {μ : Type} {main : MainDatabase μ} {ctxt : Context} {env : Env} {s : Stores μ}
  {r : AggregateRow}

/-! ## Rows by their ids -/

/-- The same rows are the same table. -/
theorem AggregateTable.eq_of_rows {t t' : AggregateTable} (h : t.rows = t'.rows) : t = t' := by
  obtain ⟨⟨rows, _, _⟩, _⟩ := t
  obtain ⟨⟨rows', _, _⟩, _⟩ := t'
  cases h
  rfl

theorem AggregateTable.find?_iff (t : AggregateTable) {id : Nat} {r : AggregateRow} :
    t.find? id = some r ↔ r ∈ t.rows ∧ r.id = id := by
  constructor
  · intro h
    unfold AggregateTable.find? at h
    have hid : (r.id == id) = true := List.find?_some (p := fun r : AggregateRow => r.id == id) h
    exact ⟨List.mem_of_find?_eq_some h, beq_iff_eq.mp hid⟩
  · rintro ⟨hr, rfl⟩
    exact find_of_nodup t.uniqId hr

theorem AggregateTable.get_of_find {t : AggregateTable} {id : Nat} {r : AggregateRow}
    (h : t.find? id = some r) : t.get id = .ok r := by
  unfold AggregateTable.get
  rw [h]

theorem AggregateTable.get_of_none {t : AggregateTable} {id : Nat} (h : t.find? id = none) :
    t.get id = .error (.nova (.aggregateNotFound id)) := by
  unfold AggregateTable.get
  rw [h]

/-- A change of the row with an id is seen at that id and nowhere else. -/
theorem AggregateTable.find?_of_map {t t' : AggregateTable} {id : Nat}
    {f : AggregateRow → AggregateRow} (hf : ∀ r, (f r).id = r.id)
    (hrows : t'.rows = t.rows.map (fun r => if r.id == id then f r else r)) (id' : Nat) :
    t'.find? id' = if id' = id then (t.find? id').map f else t.find? id' := by
  unfold AggregateTable.find?
  rw [hrows, List.find?_map]
  have hsame : (fun r : AggregateRow => r.id == id') ∘ (fun r => if r.id == id then f r else r) =
      fun r => r.id == id' := by
    funext r
    rw [Function.comp_apply]
    split
    · rw [hf]
    · rfl
  rw [hsame]
  cases hfind : t.rows.find? (fun r => r.id == id') with
  | none => simp
  | some r =>
    have hid : r.id = id' :=
      beq_iff_eq.mp (List.find?_some (p := fun r : AggregateRow => r.id == id') hfind)
    by_cases h : id' = id
    · simp [h, hid]
    · simp [h, hid]

/-! ## Reading an aggregate -/

/-- A row that had no uuid when it was read. -/
def rowBackfill (env : Env) (r : AggregateRow) : AggregateRow :=
  if truthy r.uuid then r else rowSetColumns env.now none (some (env.uuid r.id)) r

theorem rowBackfill_id (env : Env) (r : AggregateRow) : (rowBackfill env r).id = r.id := by
  unfold rowBackfill
  split
  · rfl
  · rw [rowSetColumns_id]

theorem rowBackfill_name (env : Env) (r : AggregateRow) : (rowBackfill env r).name = r.name := by
  unfold rowBackfill
  split
  · rfl
  · rw [rowSetColumns_name]
    rfl

theorem rowBackfill_hosts (env : Env) (r : AggregateRow) :
    (rowBackfill env r).hosts = r.hosts := by
  unfold rowBackfill
  split
  · rfl
  · rw [rowSetColumns_hosts]

theorem rowBackfill_metadata (env : Env) (r : AggregateRow) :
    (rowBackfill env r).metadata = r.metadata := by
  unfold rowBackfill
  split
  · rfl
  · rw [rowSetColumns_metadata]

/-- The table after the row with an id was read. -/
def AggregateTable.backfill (env : Env) (t : AggregateTable) (id : Nat) : AggregateTable :=
  t.modify id (rowBackfill env) (rowBackfill_id env) (rowBackfill_name env)
    (fun r h => by rw [rowBackfill_metadata]; exact h)

theorem truthy_uuid (env : Env) (id : Nat) : truthy (some (env.uuid id)) = true := by
  unfold truthy
  simp [env.uuid_ne id]

theorem truthy_rowBackfill (env : Env) (r : AggregateRow) :
    truthy (rowBackfill env r).uuid = true := by
  unfold rowBackfill
  split
  · next h => exact h
  · unfold rowSetColumns
    split
    · next h =>
      rcases h.2 with h | h
      · cases h
      · rw [← h]
        exact truthy_uuid env r.id
    · exact truthy_uuid env r.id

/-- A row that has a uuid is not changed. -/
theorem rowBackfill_of_truthy (env : Env) (h : truthy r.uuid = true) : rowBackfill env r = r := by
  unfold rowBackfill
  rw [if_pos h]

/-- A row is found under one id only. -/
theorem AggregateTable.eq_of_find {t : AggregateTable} {id : Nat} {r q : AggregateRow}
    (hr : t.find? id = some r) (hq : q ∈ t.rows) (hid : q.id = id) : q = r := by
  have hfind := (t.find?_iff).mpr ⟨hq, hid⟩
  rw [hr] at hfind
  exact (Option.some.inj hfind).symm

theorem AggregateTable.backfill_of_truthy {t : AggregateTable} {id : Nat} {r : AggregateRow}
    (hr : t.find? id = some r) (huuid : truthy r.uuid = true) : t.backfill env id = t := by
  apply AggregateTable.eq_of_rows
  show t.rows.map _ = t.rows
  conv_rhs => rw [← List.map_id t.rows]
  refine List.map_congr_left (fun q hq => ?_)
  show (if q.id == id then rowBackfill env q else q) = q
  split
  · next hid =>
    rw [AggregateTable.eq_of_find hr hq (beq_iff_eq.mp hid), rowBackfill_of_truthy env huuid]
  · rfl

/-- An object shows a row. -/
structure Shows (a : Aggregate) (r : AggregateRow) : Prop where
  id : a.id = r.id
  name : a.name = r.name
  hosts : a.hosts = r.hosts
  metadata : a.metadata = r.metadetails

theorem shows_toObject (f : DbAggregate) (uuid : String) : Shows (f.toObject uuid) f.row :=
  ⟨rfl, rfl, rfl, rfl⟩

theorem AggregateTable.setColumns_ok {t t' : AggregateTable} {now id : Nat}
    {name uuid : Option String} (h : t.setColumns now id name uuid = .ok t') :
    t'.rows = t.rows.map (fun r => if r.id == id then rowSetColumns now name uuid r else r) := by
  unfold AggregateTable.setColumns at h
  cases name with
  | none =>
    cases h
    rfl
  | some name =>
    dsimp only at h
    split at h
    · cases h
    · cases h
      rfl

/-- A save of columns, of an aggregate that is in the API database. -/
theorem run_save_eq {id : Nat} {name uuid' : Option String} {api : AggregateTable}
    (hr : s.api.find? id = some r) (hset : s.api.setColumns env.now id name uuid' = .ok api)
    (uuid : String) :
    (save main ctxt env id uuid ⟨name, uuid', none⟩).run s =
      .ok ((DbAggregate.mk (rowSetColumns env.now name uuid' r) none).toObject
        (if truthy (rowSetColumns env.now name uuid' r).uuid
          then (rowSetColumns env.now name uuid' r).uuid.getD uuid else uuid))
        { s with api := api } := by
  have hfind : api.find? id = some (rowSetColumns env.now name uuid' r) := by
    rw [AggregateTable.find?_of_map (rowSetColumns_id env.now name uuid')
      (AggregateTable.setColumns_ok hset), if_pos rfl, hr]
    rfl
  have hupdate : aggregateUpdateToDb env id ⟨name, uuid', none⟩ s.api =
      .ok (⟨rowSetColumns env.now name uuid' r, none⟩, api) := by
    unfold aggregateUpdateToDb
    simp only [AggregateTable.get_of_find hr, hset, AggregateTable.get_of_find hfind, bind,
      Except.bind]
  unfold save
  rw [EStateM.run_bind, run_tryCatch, run_onApi_ok hupdate]
  rfl

theorem run_save_ok {id : Nat} {name uuid' : Option String} {api : AggregateTable}
    (hr : s.api.find? id = some r) (hset : s.api.setColumns env.now id name uuid' = .ok api)
    (uuid : String) :
    ∃ a, (save main ctxt env id uuid ⟨name, uuid', none⟩).run s = .ok a { s with api := api } ∧
      Shows a (rowSetColumns env.now name uuid' r) :=
  ⟨_, run_save_eq hr hset uuid, shows_toObject _ _⟩

/-- A name that is taken. -/
theorem run_save_taken {id : Nat} {name : String} (hr : s.api.find? id = some r)
    (htaken : s.api.nameTaken id name = true) (uuid : String) :
    (save main ctxt env id uuid ⟨some name, none, none⟩).run s =
      .error (.nova (.aggregateNameExists name)) s := by
  have hupdate : aggregateUpdateToDb env id ⟨some name, none, none⟩ s.api =
      .error (.nova (.aggregateNameExists name)) := by
    unfold aggregateUpdateToDb AggregateTable.setColumns
    simp only [AggregateTable.get_of_find hr, htaken, bind, Except.bind]
    rfl
  unfold save
  rw [EStateM.run_bind, run_tryCatch, run_onApi_error hupdate]
  rfl

/-- What an object is made of in the end: an aggregate without a uuid is saved, and read again
as a whole. -/
def readBack (env : Env) (f : DbAggregate) (r : AggregateRow) : DbAggregate :=
  if truthy f.row.uuid then f else ⟨rowBackfill env r, none⟩

theorem readBack_id {f : DbAggregate} (h : f.row.id = r.id) :
    (readBack env f r).row.id = r.id := by
  unfold readBack
  split
  · exact h
  · exact rowBackfill_id env r

/-- An object made of a row of the API database: the row gets its uuid. -/
theorem run_fromDbObject_eq {f : DbAggregate} (hr : s.api.find? f.row.id = some r)
    (huuid : f.row.uuid = r.uuid) :
    (fromDbObject main ctxt env f).run s =
      .ok ((readBack env f r).toObject ((rowBackfill env r).uuid.getD ""))
        { s with api := s.api.backfill env f.row.id } := by
  have hid : r.id = f.row.id := ((s.api.find?_iff).mp hr).2
  unfold fromDbObject readBack
  by_cases htruthy : truthy f.row.uuid = true
  · have hr' : truthy r.uuid = true := by
      rw [← huuid]
      exact htruthy
    rw [if_pos htruthy, if_pos htruthy, AggregateTable.backfill_of_truthy hr hr',
      rowBackfill_of_truthy env hr', huuid]
    rfl
  · rw [if_neg htruthy, if_neg htruthy]
    have hset : s.api.setColumns env.now f.row.id none (some (env.uuid f.row.id)) =
        .ok (s.api.backfill env f.row.id) := by
      refine congrArg Except.ok (AggregateTable.eq_of_rows ?_)
      show s.api.rows.map _ = s.api.rows.map _
      refine List.map_congr_left (fun q hq => ?_)
      by_cases hq' : q.id = f.row.id
      · rw [if_pos (beq_iff_eq.mpr hq'), if_pos (beq_iff_eq.mpr hq')]
        unfold rowBackfill
        rw [AggregateTable.eq_of_find hr hq hq', ← huuid, if_neg htruthy, hid]
      · rw [if_neg (by simpa using hq'), if_neg (by simpa using hq')]
    have hrow : rowSetColumns env.now none (some (env.uuid f.row.id)) r = rowBackfill env r := by
      unfold rowBackfill
      rw [← huuid, if_neg htruthy, hid]
    have hsave := @run_save_eq _ main ctxt _ _ _ _ _ _ _ hr hset (env.uuid f.row.id)
    have htruthy' := truthy_rowBackfill env r
    rw [hrow, if_pos htruthy'] at hsave
    refine hsave.trans ?_
    cases huuid' : (rowBackfill env r).uuid with
    | none =>
      rw [huuid'] at htruthy'
      cases htruthy'
    | some uuid => rfl

/-- What is read of the metadata may be a part of it. -/
theorem run_fromDbObject {f : DbAggregate} (hr : s.api.find? f.row.id = some r)
    (huuid : f.row.uuid = r.uuid) :
    ∃ a, (fromDbObject main ctxt env f).run s =
        .ok a { s with api := s.api.backfill env f.row.id } ∧ (Shows a f.row ∨ Shows a r) := by
  refine ⟨_, run_fromDbObject_eq hr huuid, ?_⟩
  unfold readBack
  split
  · exact .inl (shows_toObject _ _)
  · exact .inr ⟨rowBackfill_id env r, rowBackfill_name env r, rowBackfill_hosts env r,
      congrArg (Dict.update []) (rowBackfill_metadata env r)⟩

/-- **Reading an aggregate** of the API database. -/
theorem run_getById {id : Nat} (hr : s.api.find? id = some r) :
    ∃ a, (getById main ctxt env id).run s = .ok a { s with api := s.api.backfill env id } ∧
      Shows a r := by
  have hid : r.id = id := ((s.api.find?_iff).mp hr).2
  have hread : (do .ok (DbAggregate.mk (← s.api.get id) none)) = Except.ok ⟨r, none⟩ := by
    rw [AggregateTable.get_of_find hr]
    rfl
  unfold getById
  rw [EStateM.run_bind, run_tryCatch, run_readApi_ok hread]
  dsimp only
  obtain ⟨a, hrun, hshows⟩ := run_fromDbObject (f := ⟨r, none⟩) (by rw [hid]; exact hr) rfl
  rw [hid] at hrun
  exact ⟨a, hrun, hshows.elim (fun h => h) (fun h => h)⟩

/-- An aggregate that is in neither database. -/
theorem run_getById_none {id : Nat} (hr : s.api.find? id = none)
    (hmain : NoneInMain main s.main) : ∃ e, (getById main ctxt env id).run s = .error e s := by
  obtain ⟨e, he⟩ := hmain.get ctxt id
  refine ⟨e, ?_⟩
  have hread : (do .ok (DbAggregate.mk (← s.api.get id) none)) =
      Except.error (.nova (.aggregateNotFound id)) := by
    rw [AggregateTable.get_of_none hr]
    rfl
  unfold getById
  rw [EStateM.run_bind, run_tryCatch, run_readApi_error hread]
  dsimp only
  unfold exceptNotFound
  dsimp only
  rw [run_readMain_error he]

theorem AggregateTable.find?_backfill (env : Env) (t : AggregateTable) (id id' : Nat) :
    (t.backfill env id).find? id' =
      if id' = id then (t.find? id').map (rowBackfill env) else t.find? id' :=
  AggregateTable.find?_of_map (rowBackfill_id env) rfl id'

/-- Rows that are read one after the other. -/
def AggregateTable.backfills (env : Env) (t : AggregateTable) (ids : List Nat) : AggregateTable :=
  ids.foldl (AggregateTable.backfill env) t

theorem AggregateTable.find?_backfills (env : Env) (id : Nat) :
    ∀ (ids : List Nat) (t : AggregateTable), (t.backfills env ids).find? id =
      if id ∈ ids then (t.find? id).map (rowBackfill env) else t.find? id
  | [], t => rfl
  | first :: ids, t => by
    show ((t.backfill env first).backfills env ids).find? id = _
    rw [AggregateTable.find?_backfills env id ids, AggregateTable.find?_backfill]
    -- a row that is read twice has its uuid the second time
    have htwice : ∀ o : Option AggregateRow,
        (o.map (rowBackfill env)).map (rowBackfill env) = o.map (rowBackfill env) := by
      intro o
      rw [Option.map_map]
      refine congrArg (fun f => o.map f) (funext (fun q => ?_))
      exact rowBackfill_of_truthy env (truthy_rowBackfill env q)
    by_cases hfirst : id = first
    · rw [if_pos hfirst, if_pos (List.mem_cons.mpr (Or.inl hfirst))]
      by_cases hrest : id ∈ ids
      · rw [if_pos hrest, htwice]
      · rw [if_neg hrest]
    · rw [if_neg hfirst]
      by_cases hrest : id ∈ ids
      · rw [if_pos hrest, if_pos (List.mem_cons_of_mem _ hrest)]
      · rw [if_neg hrest, if_neg]
        intro h
        rcases List.mem_cons.mp h with h | h
        · exact hfirst h
        · exact hrest h

/-- Rows that have their uuids are read without a change. -/
theorem AggregateTable.backfills_of_truthy :
    ∀ {ids : List Nat} {t : AggregateTable},
      (∀ id ∈ ids, ∀ q, t.find? id = some q → truthy q.uuid = true) → t.backfills env ids = t
  | [], _, _ => rfl
  | id :: ids, t, h => by
    show (t.backfill env id).backfills env ids = t
    -- a read that writes nothing
    have hfirst : t.backfill env id = t := by
      cases hq : t.find? id with
      | some q => exact AggregateTable.backfill_of_truthy hq (h id (List.mem_cons_self ..) q hq)
      | none =>
        apply AggregateTable.eq_of_rows
        show t.rows.map _ = t.rows
        conv_rhs => rw [← List.map_id t.rows]
        refine List.map_congr_left (fun q hin => ?_)
        rw [if_neg]
        · rfl
        · intro hid
          have hfind := (t.find?_iff).mpr ⟨hin, beq_iff_eq.mp hid⟩
          rw [hq] at hfind
          cases hfind
    rw [hfirst]
    exact AggregateTable.backfills_of_truthy (fun id' hid' => h id' (List.mem_cons_of_mem _ hid'))

/-! ## The places of hosts -/

/-- The zone of an aggregate. -/
def zone (r : AggregateRow) : Option String := r.metadata.lookup zoneKey

/-- Each aggregate with its hosts and its metadata. -/
def AggregateTable.places (t : AggregateTable) :
    List (Nat × List String × List (String × String)) :=
  t.rows.map (fun r => (r.id, r.hosts, r.metadata))

/-- Rows of the same places. -/
theorem AggregateTable.exists_of_places {t t' : AggregateTable} (h : t.places = t'.places)
    (hr : r ∈ t.rows) :
    ∃ r' ∈ t'.rows, r'.id = r.id ∧ r'.hosts = r.hosts ∧ r'.metadata = r.metadata := by
  have hin : (r.id, r.hosts, r.metadata) ∈ t.places := List.mem_map_of_mem hr
  rw [h] at hin
  obtain ⟨r', hr', heq⟩ := List.mem_map.mp hin
  obtain ⟨hid, heq⟩ := Prod.mk.inj heq
  obtain ⟨hhosts, hmetadata⟩ := Prod.mk.inj heq
  exact ⟨r', hr', hid, hhosts, hmetadata⟩

/-- A change of names, uuids and times leaves the places. -/
theorem AggregateTable.places_of_map {t t' : AggregateTable} {id : Nat}
    {f : AggregateRow → AggregateRow} (hid : ∀ r, (f r).id = r.id)
    (hhosts : ∀ r, (f r).hosts = r.hosts) (hmetadata : ∀ r, (f r).metadata = r.metadata)
    (hrows : t'.rows = t.rows.map (fun r => if r.id == id then f r else r)) :
    t'.places = t.places := by
  unfold AggregateTable.places
  rw [hrows, List.map_map]
  refine List.map_congr_left (fun q _ => ?_)
  rw [Function.comp_apply]
  split
  · rw [hid, hhosts, hmetadata]
  · rfl

theorem AggregateTable.places_backfill (env : Env) (t : AggregateTable) (id : Nat) :
    (t.backfill env id).places = t.places :=
  AggregateTable.places_of_map (rowBackfill_id env) (rowBackfill_hosts env)
    (rowBackfill_metadata env) rfl

theorem AggregateTable.places_backfills (env : Env) :
    ∀ (ids : List Nat) (t : AggregateTable), (t.backfills env ids).places = t.places
  | [], _ => rfl
  | id :: ids, t =>
    (AggregateTable.places_backfills env ids (t.backfill env id)).trans
      (AggregateTable.places_backfill env t id)

theorem AggregateTable.places_setColumns {t t' : AggregateTable} {now id : Nat}
    {name uuid : Option String} (h : t.setColumns now id name uuid = .ok t') :
    t'.places = t.places :=
  AggregateTable.places_of_map (rowSetColumns_id now name uuid) (rowSetColumns_hosts now name uuid)
    (rowSetColumns_metadata now name uuid) (AggregateTable.setColumns_ok h)

/-! ## The check of a zone -/

/-- What is read of a row for its zone. -/
def restrict (r : AggregateRow) : DbAggregate :=
  ⟨{ r with metadata := r.metadata.filter (fun kv => kv.1 == zoneKey) }, some (0, none)⟩

/-- The rows that have a zone and one of the hosts. -/
def AggregateTable.holders (t : AggregateTable) (hosts : List String) : List AggregateRow :=
  t.rows.filter (fun r =>
    r.hosts.any (fun host => host ∈ hosts) && decide (zoneKey ∈ Dict.keys r.metadata))

theorem zone_restrict (r : AggregateRow) : zone (restrict r).row = zone r :=
  Dict.lookup_filter_key (p := fun key => key == zoneKey) (beq_self_eq_true zoneKey) r.metadata

theorem holders_listed (t : AggregateTable) (hosts : List String) :
    filterDbAggregates (getByMetadataKeyFromDb zoneKey t) hosts =
      (t.holders hosts).map restrict := by
  unfold filterDbAggregates getByMetadataKeyFromDb AggregateTable.holders
  rw [List.filter_map, List.filter_filter]
  rfl

/-- The zone of an object that shows a row. -/
theorem availabilityZone_of_shows {a : Aggregate} (h : Shows a r)
    (hkeys : (Dict.keys r.metadata).Nodup) : availabilityZone a = zone r := by
  unfold availabilityZone zone
  rw [h.metadata]
  unfold AggregateRow.metadetails
  rw [Dict.update_eq_append (by simpa using hkeys), List.nil_append]

/-- **Reading rows one after the other**, each as a whole or in part. -/
theorem run_mapM_fromDbObject (main : MainDatabase μ) (ctxt : Context) (env : Env)
    {part : AggregateRow → DbAggregate} (hid : ∀ r, (part r).row.id = r.id)
    (huuid : ∀ r, (part r).row.uuid = r.uuid) :
    ∀ (rows : List AggregateRow) (s : Stores μ), (rows.map AggregateRow.id).Nodup →
      (∀ r ∈ rows, s.api.find? r.id = some r) →
      ((rows.map part).mapM (fromDbObject main ctxt env)).run s =
        .ok (rows.map (fun r => (readBack env (part r) r).toObject
          ((rowBackfill env r).uuid.getD "")))
          { s with api := s.api.backfills env (rows.map AggregateRow.id) }
  | [], s, _, _ => rfl
  | r :: rows, s, hnodup, hfind => by
    obtain ⟨hnew, hnodup⟩ := List.nodup_cons.mp hnodup
    have hr : s.api.find? (part r).row.id = some r := by
      rw [hid]
      exact hfind r (List.mem_cons_self ..)
    have hrun := @run_fromDbObject_eq _ main ctxt env s r (part r) hr (huuid r)
    rw [hid] at hrun
    -- the rows still to be read are as they were
    have hrest : ∀ q ∈ rows, (s.api.backfill env r.id).find? q.id = some q := by
      intro q hq
      rw [AggregateTable.find?_backfill, if_neg, hfind q (List.mem_cons_of_mem _ hq)]
      intro h
      exact hnew (h ▸ List.mem_map_of_mem hq)
    have hruns := run_mapM_fromDbObject main ctxt env hid huuid rows
      { s with api := s.api.backfill env r.id } hnodup hrest
    rw [List.map_cons, List.mapM_cons, run_bind_ok hrun, run_bind_ok hruns]
    rfl

/-- The id and the zone of an object made of what is read for the zone. -/
theorem run_mapM_restrict (main : MainDatabase μ) (ctxt : Context) (env : Env)
    (rows : List AggregateRow) (s : Stores μ) (hnodup : (rows.map AggregateRow.id).Nodup)
    (hfind : ∀ r ∈ rows, s.api.find? r.id = some r) :
    ∃ as, ((rows.map restrict).mapM (fromDbObject main ctxt env)).run s =
        .ok as { s with api := s.api.backfills env (rows.map AggregateRow.id) } ∧
      as.map (fun a => (a.id, availabilityZone a)) = rows.map (fun r => (r.id, zone r)) := by
  refine ⟨_, run_mapM_fromDbObject main ctxt env (fun _ => rfl) (fun _ => rfl) rows s hnodup hfind,
    ?_⟩
  rw [List.map_map]
  refine List.map_congr_left (fun r hr => ?_)
  have hkeys : (Dict.keys r.metadata).Nodup :=
    s.api.uniqKey r ((s.api.find?_iff).mp (hfind r hr)).1
  refine Prod.ext ?_ ?_
  · exact readBack_id (f := restrict r) rfl
  · show availabilityZone ((readBack env (restrict r) r).toObject _) = zone r
    rw [availabilityZone_of_shows (shows_toObject _ _)]
    all_goals unfold readBack; split
    · exact zone_restrict r
    · exact congrArg (List.lookup zoneKey) (rowBackfill_metadata env r)
    · exact nodup_keys_filter hkeys _
    · show (Dict.keys (rowBackfill env r).metadata).Nodup
      rw [rowBackfill_metadata]
      exact hkeys

/-- An aggregate other than this one has one of the hosts and another zone. -/
def Conflict (t : AggregateTable) (id : Nat) (hosts : List String) (z : String) : Prop :=
  ∃ r ∈ t.rows, r.id ≠ id ∧ (∃ host ∈ r.hosts, host ∈ hosts) ∧ ∃ z', zone r = some z' ∧ z' ≠ z

/-- When the check raises: the zone is empty, or the aggregates of the main database cannot be
listed, or there is a conflict. -/
def Refuses (main : MainDatabase μ) (ctxt : Context) (s : Stores μ) (id : Nat)
    (hosts : List String) (metadata : List (String × Option String)) : Prop :=
  ∃ z, metadata.lookup zoneKey = some z ∧
    (truthy z = false ∨ (∃ e, main.getByMetadataKey ctxt zoneKey s.main = .error e) ∨
      ∃ name, z = some name ∧ Conflict s.api id hosts name)

theorem Conflict.congr {t t' : AggregateTable} {id : Nat} {hosts : List String} {z : String}
    (h : Conflict t id hosts z) (hplaces : t.places = t'.places) : Conflict t' id hosts z := by
  obtain ⟨r, hr, hne, ⟨host, hhost, hin⟩, z', hz', hnez⟩ := h
  obtain ⟨r', hr', hid, hhosts, hmetadata⟩ := AggregateTable.exists_of_places hplaces hr
  refine ⟨r', hr', hid ▸ hne, ⟨host, hhosts ▸ hhost, hin⟩, z', ?_, hnez⟩
  unfold zone
  rw [hmetadata]
  exact hz'

theorem Refuses.congr {main : MainDatabase μ} {ctxt : Context} {s : Stores μ} {id : Nat}
    {hosts : List String} {metadata : List (String × Option String)} {api : AggregateTable}
    (h : Refuses main ctxt s id hosts metadata) (hplaces : s.api.places = api.places) :
    Refuses main ctxt { s with api := api } id hosts metadata := by
  obtain ⟨z, hz, hempty | hlisting | ⟨name, hname, hconflict⟩⟩ := h
  · exact ⟨z, hz, Or.inl hempty⟩
  · exact ⟨z, hz, Or.inr (Or.inl hlisting)⟩
  · exact ⟨z, hz, Or.inr (Or.inr ⟨name, hname, hconflict.congr hplaces⟩)⟩

/-- The aggregates that the check reads. -/
def checked (main : MainDatabase μ) (ctxt : Context) (s : Stores μ) (hosts : List String)
    (metadata : List (String × Option String)) : List Nat :=
  match metadata.lookup zoneKey with
  | some z =>
    if truthy z then
      match main.getByMetadataKey ctxt zoneKey s.main with
      | .ok _ => (s.api.holders hosts).map AggregateRow.id
      | .error _ => []
    else []
  | none => []

/-- A row has a zone if its metadata has the key. -/
theorem zoneKey_mem_iff : zoneKey ∈ Dict.keys r.metadata ↔ ∃ z, zone r = some z :=
  Dict.mem_keys_iff zoneKey r.metadata

theorem run_listing {hosts : List String} {found : List DbAggregate}
    (hmain : NoneInMain main s.main)
    (hlisting : main.getByMetadataKey ctxt zoneKey s.main = .ok found) :
    ∃ as, (getByMetadataKey main ctxt env zoneKey (some hosts)).run s =
        .ok as { s with api :=
          s.api.backfills env ((s.api.holders hosts).map AggregateRow.id) } ∧
      as.map (fun a => (a.id, availabilityZone a)) =
        (s.api.holders hosts).map (fun r => (r.id, zone r)) := by
  have hfound : found = [] := hmain.listing _ _ _ hlisting
  have hsub : (s.api.holders hosts).Sublist s.api.rows := List.filter_sublist
  obtain ⟨as, hrun, has⟩ := run_mapM_restrict main ctxt env (s.api.holders hosts) s
    (s.api.uniqId.sublist (hsub.map _))
    (fun r hr => (s.api.find?_iff).mpr ⟨hsub.subset hr, rfl⟩)
  refine ⟨as, ?_, has⟩
  have happ : (readApi (fun t => .ok (getByMetadataKeyFromDb zoneKey t)) :
      AggregateM μ (List DbAggregate)).run s = .ok (getByMetadataKeyFromDb zoneKey s.api) s := rfl
  unfold getByMetadataKey
  rw [run_bind_ok happ, run_bind_ok (run_readMain_ok hlisting), hfound]
  dsimp only
  rw [List.nil_append, holders_listed]
  exact hrun

theorem run_listing_error {hosts : List String} {e : AggregateError}
    (hlisting : main.getByMetadataKey ctxt zoneKey s.main = .error e) :
    (getByMetadataKey main ctxt env zoneKey (some hosts)).run s = .error e s := by
  have happ : (readApi (fun t => .ok (getByMetadataKeyFromDb zoneKey t)) :
      AggregateM μ (List DbAggregate)).run s = .ok (getByMetadataKeyFromDb zoneKey s.api) s := rfl
  unfold getByMetadataKey
  rw [run_bind_ok happ, run_bind_error (run_readMain_error hlisting)]

/-- The zones in conflict are those of the aggregates in conflict. -/
theorem conflicting_iff {t : AggregateTable} {id : Nat} {hosts : List String} {name : String}
    {as : List Aggregate}
    (has : as.map (fun a => (a.id, availabilityZone a)) =
      (t.holders hosts).map (fun r => (r.id, zone r))) :
    (∃ a ∈ as, (availabilityZone a != some name && a.id != id) = true) ↔
      Conflict t id hosts name := by
  constructor
  · rintro ⟨a, ha, hother⟩
    have hin : (a.id, availabilityZone a) ∈ (t.holders hosts).map (fun r => (r.id, zone r)) := by
      rw [← has]
      exact List.mem_map_of_mem ha
    obtain ⟨r, hr, heq⟩ := List.mem_map.mp hin
    obtain ⟨hid, hzone⟩ := Prod.mk.inj heq
    obtain ⟨hr, hholds⟩ := List.mem_filter.mp hr
    obtain ⟨hhost, hkey⟩ := Bool.and_eq_true_iff.mp hholds
    obtain ⟨host, hhost, hhosts⟩ := List.any_eq_true.mp hhost
    obtain ⟨z', hz'⟩ := zoneKey_mem_iff.mp (of_decide_eq_true hkey)
    obtain ⟨hne, hneid⟩ := Bool.and_eq_true_iff.mp hother
    rw [← hzone, hz'] at hne
    rw [← hid] at hneid
    refine ⟨r, hr, bne_iff_ne.mp hneid, ⟨host, hhost, of_decide_eq_true hhosts⟩, z', hz', ?_⟩
    exact fun h => bne_iff_ne.mp hne (congrArg some h)
  · rintro ⟨r, hr, hneid, ⟨host, hhost, hhosts⟩, z', hz', hne⟩
    have hin : (r.id, zone r) ∈ as.map (fun a => (a.id, availabilityZone a)) := by
      rw [has]
      refine List.mem_map.mpr ⟨r, List.mem_filter.mpr ⟨hr, Bool.and_eq_true_iff.mpr ⟨?_, ?_⟩⟩, rfl⟩
      · exact List.any_eq_true.mpr ⟨host, hhost, decide_eq_true hhosts⟩
      · exact decide_eq_true (zoneKey_mem_iff.mpr ⟨z', hz'⟩)
    obtain ⟨a, ha, heq⟩ := List.mem_map.mp hin
    obtain ⟨hid, hzone⟩ := Prod.mk.inj heq
    refine ⟨a, ha, Bool.and_eq_true_iff.mpr ⟨bne_iff_ne.mpr ?_, bne_iff_ne.mpr ?_⟩⟩
    · rw [hzone, hz']
      exact fun h => hne (Option.some.inj h)
    · rw [hid]
      exact hneid

/-- What a check leaves. -/
def afterCheck (main : MainDatabase μ) (ctxt : Context) (env : Env) (s : Stores μ)
    (hosts : List String) (metadata : List (String × Option String)) : Stores μ :=
  { s with api := s.api.backfills env (checked main ctxt s hosts metadata) }

/-- The check of a zone that is given, with the aggregates listed. -/
theorem run_isSafeToUpdateAz_listed {metadata : List (String × Option String)} {a : Aggregate}
    {hosts : Option (List String)} {action : Action} {name : String} {found : List DbAggregate}
    (hmain : NoneInMain main s.main) (hzone : metadata.lookup zoneKey = some (some name))
    (htruthy : truthy (some name) = true)
    (hlisting : main.getByMetadataKey ctxt zoneKey s.main = .ok found) :
    (Conflict s.api a.id (checkedHosts hosts a) name →
      ∃ e, (isSafeToUpdateAz main ctxt env metadata a hosts action).run s =
        .error e (afterCheck main ctxt env s (checkedHosts hosts a) metadata)) ∧
    (¬ Conflict s.api a.id (checkedHosts hosts a) name →
      (isSafeToUpdateAz main ctxt env metadata a hosts action).run s =
        .ok () (afterCheck main ctxt env s (checkedHosts hosts a) metadata)) := by
  have hafter : afterCheck main ctxt env s (checkedHosts hosts a) metadata =
      { s with
        api := s.api.backfills env
          ((s.api.holders (checkedHosts hosts a)).map AggregateRow.id) } := by
    unfold afterCheck checked
    rw [hzone]
    dsimp only
    rw [if_pos htruthy, hlisting]
  obtain ⟨as, hrun, has⟩ := @run_listing _ main ctxt env s (checkedHosts hosts a) found hmain
    hlisting
  unfold isSafeToUpdateAz
  rw [hzone, hafter]
  dsimp only
  rw [if_pos htruthy, run_bind_ok hrun]
  refine ⟨fun hconflict => ?_, fun hnone => ?_⟩
  · obtain ⟨b, hb, hother⟩ := (conflicting_iff has).mpr hconflict
    rw [if_neg]
    · exact ⟨_, rfl⟩
    · intro hempty
      have hin : availabilityZone b ∈ (as.filter (fun agg =>
          availabilityZone agg != some name && agg.id != a.id)).map availabilityZone :=
        List.mem_map_of_mem (List.mem_filter.mpr ⟨hb, hother⟩)
      rw [List.isEmpty_iff.mp hempty] at hin
      cases hin
  · rw [if_pos]
    · rfl
    · rw [List.isEmpty_iff, List.map_eq_nil_iff, List.filter_eq_nil_iff]
      intro b hb hother
      exact hnone ((conflicting_iff has).mp ⟨b, hb, hother⟩)

/-- **The check of a zone**: when it raises, and what it has read. -/
theorem run_isSafeToUpdateAz {metadata : List (String × Option String)} {a : Aggregate}
    {hosts : Option (List String)} {action : Action} (hmain : NoneInMain main s.main) :
    (Refuses main ctxt s a.id (checkedHosts hosts a) metadata →
      ∃ e, (isSafeToUpdateAz main ctxt env metadata a hosts action).run s =
        .error e (afterCheck main ctxt env s (checkedHosts hosts a) metadata)) ∧
    (¬ Refuses main ctxt s a.id (checkedHosts hosts a) metadata →
      (isSafeToUpdateAz main ctxt env metadata a hosts action).run s =
        .ok () (afterCheck main ctxt env s (checkedHosts hosts a) metadata)) := by
  cases hzone : metadata.lookup zoneKey with
  | none =>
    have hrun : (isSafeToUpdateAz main ctxt env metadata a hosts action).run s =
        .ok () (afterCheck main ctxt env s (checkedHosts hosts a) metadata) := by
      unfold isSafeToUpdateAz afterCheck checked
      rw [hzone]
      rfl
    refine ⟨?_, fun _ => hrun⟩
    rintro ⟨z, hz, _⟩
    rw [hzone] at hz
    cases hz
  | some z =>
    by_cases htruthy : truthy z = true
    · obtain ⟨name, rfl⟩ : ∃ name, z = some name := by
        cases z with
        | none => cases htruthy
        | some name => exact ⟨name, rfl⟩
      cases hlisting : main.getByMetadataKey ctxt zoneKey s.main with
      | error e =>
        have hrun : (isSafeToUpdateAz main ctxt env metadata a hosts action).run s =
            .error e (afterCheck main ctxt env s (checkedHosts hosts a) metadata) := by
          unfold isSafeToUpdateAz afterCheck checked
          rw [hzone]
          dsimp only
          rw [if_pos htruthy, if_pos htruthy, hlisting]
          exact run_bind_error (run_listing_error hlisting)
        refine ⟨fun _ => ⟨e, hrun⟩, fun h => ?_⟩
        exact absurd ⟨some name, hzone, Or.inr (Or.inl ⟨e, hlisting⟩)⟩ h
      | ok found =>
        obtain ⟨hconflict, hnone⟩ := @run_isSafeToUpdateAz_listed _ main ctxt env s metadata a
          hosts action name found hmain hzone htruthy hlisting
        refine ⟨?_, fun h => hnone (fun hc => h
          ⟨some name, hzone, Or.inr (Or.inr ⟨name, rfl, hc⟩)⟩)⟩
        rintro ⟨z, hz, hwhy⟩
        rw [hzone] at hz
        cases hz
        rcases hwhy with hempty | ⟨e, he⟩ | ⟨z, hz, hc⟩
        · rw [htruthy] at hempty
          cases hempty
        · rw [hlisting] at he
          cases he
        · cases hz
          exact hconflict hc
    · have hfalse : truthy z = false := by simpa using htruthy
      refine ⟨fun _ => ?_, fun h => absurd ⟨z, hzone, Or.inl hfalse⟩ h⟩
      unfold isSafeToUpdateAz afterCheck checked
      rw [hzone]
      dsimp only
      rw [if_neg htruthy, if_neg htruthy]
      exact ⟨_, rfl⟩

theorem places_afterCheck (main : MainDatabase μ) (ctxt : Context) (env : Env) (s : Stores μ)
    (hosts : List String) (metadata : List (String × Option String)) :
    (afterCheck main ctxt env s hosts metadata).api.places = s.api.places :=
  AggregateTable.places_backfills env _ _

/-- A row is still found, in its place. -/
theorem find?_afterCheck {hosts : List String} {metadata : List (String × Option String)}
    {id : Nat} (hr : s.api.find? id = some r) :
    ∃ r₁, (afterCheck main ctxt env s hosts metadata).api.find? id = some r₁ ∧
      r₁.hosts = r.hosts ∧ r₁.metadata = r.metadata := by
  obtain ⟨hin, hid⟩ := (s.api.find?_iff).mp hr
  obtain ⟨r₁, hin₁, hid₁, hhosts, hmetadata⟩ := AggregateTable.exists_of_places
    (places_afterCheck main ctxt env s hosts metadata).symm hin
  exact ⟨r₁, (AggregateTable.find?_iff _).mpr ⟨hin₁, hid₁.trans hid⟩, hhosts, hmetadata⟩

end PolarBear.Zones
