import PolarBear.Zones.Writing

/-!
# A rejected update of an aggregate

What `update_aggregate` and `update_aggregate_metadata` leave when they raise. They
read before they check, and a row that is read without a uuid gets one. And
`update_aggregate` saves the name before the zone is checked, where
`update_aggregate_metadata` checks before it writes: with a new name and a zone that
is refused, the name stays (`rejected_keeps`).
-/

namespace PolarBear.Zones

open PolarBear.Db
open PolarBear.Fallible
open PolarBear.Aggregates (Aggregate AggregateRow)

variable {μ α β : Type} {main : MainDatabase μ} {ctxt : Context} {env : Env} {s s₁ s₀ : Stores μ}
  {r : AggregateRow}

/-- If the call raises in `s`, it leaves `s₀`. -/
def RaisesTo (x : AggregateM μ α) (s s₀ : Stores μ) : Prop :=
  ∀ e s', x.run s = .error e s' → s' = s₀

/-- A call that raises changes nothing. -/
def Keeps (x : AggregateM μ α) (s : Stores μ) : Prop := RaisesTo x s s

theorem raisesTo_of_ok {x : AggregateM μ α} {a : α} (h : x.run s = .ok a s₁) :
    RaisesTo x s s₀ := by
  intro e s' hrun
  rw [h] at hrun
  cases hrun

theorem raisesTo_error_iff {x : AggregateM μ α} {e : AggregateError} (h : x.run s = .error e s₁) :
    RaisesTo x s s₀ ↔ s₁ = s₀ := by
  constructor
  · intro hraises
    exact hraises e s₁ h
  · rintro heq e' s' hrun
    rw [h] at hrun
    cases hrun
    exact heq

theorem raisesTo_bind_ok {x : AggregateM μ α} {f : α → AggregateM μ β} {a : α}
    (h : x.run s = .ok a s₁) : RaisesTo (x >>= f) s s₀ ↔ RaisesTo (f a) s₁ s₀ := by
  unfold RaisesTo
  rw [run_bind_ok h]

theorem raisesTo_bind_error {x : AggregateM μ α} {f : α → AggregateM μ β} {e : AggregateError}
    (h : x.run s = .error e s₁) : RaisesTo (x >>= f) s s₀ ↔ s₁ = s₀ :=
  raisesTo_error_iff (run_bind_error h)

/-! ## What has changed where a check raises -/

/-- The check reads only aggregates that have their uuids. -/
def Quiet (main : MainDatabase μ) (ctxt : Context) (s : Stores μ) (hosts : List String)
    (metadata : List (String × Option String)) : Prop :=
  ∀ r ∈ s.api.rows, r.id ∈ checked main ctxt s hosts metadata → truthy r.uuid = true

theorem afterCheck_eq_iff {hosts : List String} {metadata : List (String × Option String)} :
    afterCheck main ctxt env s hosts metadata = s ↔ Quiet main ctxt s hosts metadata := by
  constructor
  · intro h q hq hread
    have hfind : s.api.find? q.id = some q := (s.api.find?_iff).mpr ⟨hq, rfl⟩
    have hafter : (afterCheck main ctxt env s hosts metadata).api.find? q.id =
        some (rowBackfill env q) := by
      unfold afterCheck
      rw [AggregateTable.find?_backfills, if_pos hread, hfind]
      rfl
    rw [h, hfind] at hafter
    rw [Option.some.inj hafter]
    exact truthy_rowBackfill env q
  · intro h
    have hsame : s.api.backfills env (checked main ctxt s hosts metadata) = s.api := by
      refine AggregateTable.backfills_of_truthy (fun id hid q hq => ?_)
      obtain ⟨hin, rfl⟩ := (s.api.find?_iff).mp hq
      exact h q hin hid
    unfold afterCheck
    rw [hsame]

/-- A row that has its uuid is not changed by the check. -/
theorem find?_of_afterCheck {hosts : List String} {metadata : List (String × Option String)}
    {id : Nat} (h : afterCheck main ctxt env s₁ hosts metadata = s) (hr : s₁.api.find? id = some r)
    (huuid : truthy r.uuid = true) : s.api.find? id = some r := by
  rw [← h]
  unfold afterCheck
  rw [AggregateTable.find?_backfills, hr]
  split
  · exact congrArg some (rowBackfill_of_truthy env huuid)
  · rfl

/-- A name that the row has already is saved without a change. -/
theorem setColumns_same {t t' : AggregateTable} {now id : Nat} (hr : t.find? id = some r)
    (h : t.setColumns now id (some r.name) none = .ok t') : t' = t := by
  apply AggregateTable.eq_of_rows
  rw [AggregateTable.setColumns_ok h]
  conv_rhs => rw [← List.map_id t.rows]
  refine List.map_congr_left (fun q hq => ?_)
  split
  · next hid =>
    rw [AggregateTable.eq_of_find hr hq (beq_iff_eq.mp hid)]
    exact if_pos ⟨rfl, Or.inl rfl⟩
  · rfl

/-- The rest of a call, from the check on: only the check raises. -/
theorem raisesTo_isSafe {metadata : List (String × Option String)} {a : Aggregate}
    {action : Action} {f : AggregateM μ α} (hmain : NoneInMain main s₁.main)
    (hok : ∃ b s', f.run (afterCheck main ctxt env s₁ a.hosts metadata) = .ok b s') :
    RaisesTo (isSafeToUpdateAz main ctxt env metadata a none action >>= fun _ => f) s₁ s₀ ↔
      (Refuses main ctxt s₁ a.id a.hosts metadata →
        afterCheck main ctxt env s₁ a.hosts metadata = s₀) := by
  obtain ⟨hrefused, hpassed⟩ := @run_isSafeToUpdateAz _ main ctxt env s₁ metadata a none action
    hmain
  by_cases h : Refuses main ctxt s₁ a.id a.hosts metadata
  · obtain ⟨e, hrun⟩ := hrefused h
    rw [raisesTo_bind_error hrun]
    exact ⟨fun heq _ => heq, fun heq => heq h⟩
  · obtain ⟨b, s', hf⟩ := hok
    rw [raisesTo_bind_ok (hpassed h)]
    exact ⟨fun _ hrefuses => absurd hrefuses h, fun _ => raisesTo_of_ok hf⟩

/-- Setting metadata after the check returns. -/
theorem updateMetadata_returns {entries : List (String × Option String)} {a : Aggregate}
    {f : Aggregate → Aggregate} {hosts : List String} (hr : s₁.api.find? a.id = some r)
    (hnodup : (Dict.keys entries).Nodup) :
    ∃ b s', (updateMetadata main ctxt a entries >>= fun a => pure (f a)).run
      (afterCheck main ctxt env s₁ hosts entries) = .ok b s' := by
  obtain ⟨r₁, hr₁, _⟩ := @find?_afterCheck _ main ctxt env s₁ r hosts entries a.id hr
  obtain ⟨a', api, r', hrun, _⟩ := run_updateMetadata main ctxt hr₁ hnodup
  rw [run_bind_ok hrun]
  exact ⟨_, _, rfl⟩

/-! ## `update_aggregate_metadata` -/

/-- The state after an aggregate was read. -/
def afterRead (env : Env) (s : Stores μ) (id : Nat) : Stores μ :=
  { s with api := s.api.backfill env id }

theorem find?_afterRead {id : Nat} (hr : s.api.find? id = some r) :
    (afterRead env s id).api.find? id = some (rowBackfill env r) := by
  unfold afterRead
  rw [AggregateTable.find?_backfill, if_pos rfl, hr]
  rfl

theorem afterRead_eq_iff {id : Nat} (hr : s.api.find? id = some r) :
    afterRead env s id = s ↔ truthy r.uuid = true := by
  constructor
  · intro h
    have hfind := @find?_afterRead _ env _ _ _ hr
    rw [h, hr] at hfind
    rw [Option.some.inj hfind]
    exact truthy_rowBackfill env r
  · intro h
    unfold afterRead
    rw [AggregateTable.backfill_of_truthy hr h]

theorem refuses_afterRead_iff {id : Nat} {hosts : List String}
    {metadata : List (String × Option String)} :
    Refuses main ctxt (afterRead env s id) id hosts metadata ↔
      Refuses main ctxt s id hosts metadata := by
  have hplaces := AggregateTable.places_backfill env s.api id
  exact ⟨fun h => h.congr hplaces, fun h => h.congr hplaces.symm⟩

/-- An aggregate that is read and then checked. -/
theorem afterCheck_afterRead_iff {id : Nat} {hosts : List String}
    {metadata : List (String × Option String)} (hr : s.api.find? id = some r) :
    afterCheck main ctxt env (afterRead env s id) hosts metadata = s ↔
      truthy r.uuid = true ∧ Quiet main ctxt s hosts metadata := by
  constructor
  · intro h
    have hfind := find?_of_afterCheck h (find?_afterRead hr) (truthy_rowBackfill env r)
    rw [hr] at hfind
    have huuid : truthy r.uuid = true := by
      rw [Option.some.inj hfind]
      exact truthy_rowBackfill env r
    rw [(afterRead_eq_iff hr).mpr huuid] at h
    exact ⟨huuid, afterCheck_eq_iff.mp h⟩
  · rintro ⟨huuid, hquiet⟩
    rw [(afterRead_eq_iff hr).mpr huuid]
    exact afterCheck_eq_iff.mpr hquiet

/-- If the zone is refused, no aggregate that was read by then lacked its uuid. -/
def MetadataUpdateKeeps (main : MainDatabase μ) (ctxt : Context) (s : Stores μ) (id : Nat)
    (metadata : Values) : Prop :=
  ∀ r, s.api.find? id = some r → Refuses main ctxt s id r.hosts metadata.entries →
    truthy r.uuid = true ∧ Quiet main ctxt s r.hosts metadata.entries

/-- An aggregate that is not found is not read. -/
theorem keeps_of_none {id : Nat} {f : Aggregate → AggregateM μ α}
    (hmain : NoneInMain main s.main) (hr : s.api.find? id = none) :
    Keeps (getById main ctxt env id >>= f) s := by
  obtain ⟨e, hrun⟩ := @run_getById_none _ main ctxt env s id hr hmain
  exact (raisesTo_bind_error hrun).mpr rfl

/-- **A rejected `update_aggregate_metadata`.** -/
theorem keeps_updateAggregateMetadata_iff {id : Nat} {metadata : Values}
    (hmain : NoneInMain main s.main) :
    Keeps (updateAggregateMetadata main ctxt env id metadata) s ↔
      MetadataUpdateKeeps main ctxt s id metadata := by
  unfold updateAggregateMetadata MetadataUpdateKeeps
  cases hr : s.api.find? id with
  | none => exact ⟨fun _ r hr' => (by cases hr'), fun _ => keeps_of_none hmain hr⟩
  | some r =>
    obtain ⟨a, hrun, hshows⟩ := @run_getById _ main ctxt env s r id hr
    have hid : a.id = id := hshows.id.trans ((s.api.find?_iff).mp hr).2
    have hread : (afterRead env s id).api.find? a.id = some (rowBackfill env r) :=
      hid.symm ▸ find?_afterRead hr
    have hmain₁ : NoneInMain main (afterRead env s id).main := hmain
    change _ = EStateM.Result.ok a (afterRead env s id) at hrun
    unfold Keeps
    rw [raisesTo_bind_ok hrun,
      raisesTo_isSafe hmain₁ (updateMetadata_returns hread metadata.nodup), hid, hshows.hosts]
    constructor
    · intro h q hq hrefused
      cases hq
      exact (afterCheck_afterRead_iff hr).mp (h (refuses_afterRead_iff.mpr hrefused))
    · intro h hrefused
      exact (afterCheck_afterRead_iff hr).mpr (h r rfl (refuses_afterRead_iff.mp hrefused))

/-! ## `update_aggregate` -/

theorem nameTaken_backfill (t : AggregateTable) (id id' : Nat) (name : String) :
    (t.backfill env id').nameTaken id name = t.nameTaken id name := by
  show (t.rows.map (fun r => if r.id == id' then rowBackfill env r else r)).any _ = _
  rw [List.any_map]
  refine congrArg (List.any t.rows) (funext (fun q => ?_))
  rw [Function.comp_apply]
  split
  · rw [rowBackfill_id, rowBackfill_name]
  · rfl

theorem nameRefused_afterRead_iff {id id' : Nat} {name : Option String} :
    NameRefused (afterRead env s id').api id name ↔ NameRefused s.api id name := by
  unfold NameRefused afterRead
  simp only [nameTaken_backfill]

theorem rowSetColumns_uuid (now : Nat) (name : Option String) (r : AggregateRow) :
    (rowSetColumns now name none r).uuid = r.uuid := by
  unfold rowSetColumns
  split
  · rfl
  · exact Option.none_or

/-- The row of an aggregate that is read and gets a name. -/
theorem find?_saved {id : Nat} {n : String} {api : AggregateTable}
    (hr : s.api.find? id = some r)
    (hset : (afterRead env s id).api.setColumns env.now id (some n) none = .ok api) :
    api.find? id = some (rowSetColumns env.now (some n) none (rowBackfill env r)) := by
  rw [AggregateTable.find?_of_map (rowSetColumns_id env.now (some n) none)
    (AggregateTable.setColumns_ok hset), if_pos rfl, find?_afterRead hr]
  rfl

/-- An aggregate that is read, gets a name and is then checked. -/
theorem afterCheck_saved_iff {id : Nat} {n : String} {hosts : List String}
    {metadata : List (String × Option String)} {api : AggregateTable}
    (hr : s.api.find? id = some r)
    (hset : (afterRead env s id).api.setColumns env.now id (some n) none = .ok api) :
    afterCheck main ctxt env { s with api := api } hosts metadata = s ↔
      n = r.name ∧ truthy r.uuid = true ∧ Quiet main ctxt s hosts metadata := by
  constructor
  · intro h
    have hsame := find?_of_afterCheck h (find?_saved hr hset)
      (by rw [rowSetColumns_uuid]; exact truthy_rowBackfill env r)
    rw [hr] at hsame
    have hrow := Option.some.inj hsame
    have hname : n = r.name := by
      rw [hrow, rowSetColumns_name]
      rfl
    have huuid : truthy r.uuid = true := by
      rw [hrow, rowSetColumns_uuid]
      exact truthy_rowBackfill env r
    -- so neither the read nor the save has written
    rw [(afterRead_eq_iff hr).mpr huuid, hname] at hset
    rw [setColumns_same hr hset] at h
    exact ⟨hname, huuid, afterCheck_eq_iff.mp h⟩
  · rintro ⟨rfl, huuid, hquiet⟩
    rw [(afterRead_eq_iff hr).mpr huuid] at hset
    rw [setColumns_same hr hset]
    exact afterCheck_eq_iff.mpr hquiet

/-- The values have a name, and it is refused. -/
def GivesRefused (t : AggregateTable) (id : Nat) (values : Values) : Prop :=
  ∃ name, values.get "name" = some name ∧ NameRefused t id name

/-- If the name is refused, the aggregate had its uuid. If it is not and the zone is, the name is
the one that the aggregate has, or none is given, and no aggregate that was read lacked its
uuid. -/
def UpdateKeeps (main : MainDatabase μ) (ctxt : Context) (s : Stores μ) (id : Nat)
    (values : Values) : Prop :=
  ∀ r, s.api.find? id = some r →
    (GivesRefused s.api id values → truthy r.uuid = true) ∧
    (¬ GivesRefused s.api id values → Refuses main ctxt s id r.hosts (values.pop "name").entries →
      (∀ n, values.get "name" = some (some n) → n = r.name) ∧ truthy r.uuid = true ∧
        Quiet main ctxt s r.hosts (values.pop "name").entries)

/-- The check and what follows it, in `update_aggregate`. -/
theorem raisesTo_checkAndSet {values : Values} {a : Aggregate} (hmain : NoneInMain main s₁.main)
    (hr : s₁.api.find? a.id = some r) :
    RaisesTo (do
      isSafeToUpdateAz main ctxt env values.entries a none .update
      if values.entries.isEmpty then pure a
      else
        let a ← updateMetadata main ctxt a values.entries
        pure { a with updatedAt := some env.now }) s₁ s₀ ↔
      (Refuses main ctxt s₁ a.id a.hosts values.entries →
        afterCheck main ctxt env s₁ a.hosts values.entries = s₀) := by
  refine raisesTo_isSafe hmain ?_
  split
  · exact ⟨_, _, rfl⟩
  · exact updateMetadata_returns hr values.nodup

/-- A name that is not refused, after it was saved. -/
theorem run_saveName_free {id : Nat} {n : String} {values : Values} {a : Aggregate}
    (hr : s.api.find? id = some r) (hshows : Shows a r)
    (hname : values.get "name" = some (some n)) (hfree : ¬ GivesRefused s.api id values) :
    ∃ a' api, (saveName main ctxt env values a).run (afterRead env s id) =
        .ok a' { s with api := api } ∧
      (afterRead env s id).api.setColumns env.now id (some n) none = .ok api ∧
      a'.id = id ∧ a'.hosts = r.hosts ∧
      api.find? a'.id = some (rowSetColumns env.now (some n) none (rowBackfill env r)) ∧
      api.places = s.api.places := by
  have hid : a.id = id := hshows.id.trans ((s.api.find?_iff).mp hr).2
  have hread : (afterRead env s id).api.find? a.id = some (rowBackfill env r) :=
    hid.symm ▸ find?_afterRead hr
  have hnot : ¬ (afterRead env s id).api.nameTaken a.id n = true := by
    intro htaken
    have hrefused : NameRefused (afterRead env s id).api id (some n) :=
      Or.inr ⟨n, rfl, hid ▸ htaken⟩
    exact hfree ⟨some n, hname, nameRefused_afterRead_iff.mp hrefused⟩
  obtain ⟨a', api, hrun, hset, hshows'⟩ :=
    @run_saveName_ok _ main ctxt env _ _ values a n hread hname hnot
  have hid' : a'.id = id := by
    rw [hshows'.id, rowSetColumns_id, rowBackfill_id, ← hshows.id, hid]
  have hhosts : a'.hosts = r.hosts := by
    rw [hshows'.hosts, rowSetColumns_hosts, rowBackfill_hosts]
  have hplaces : api.places = s.api.places :=
    (AggregateTable.places_setColumns hset).trans (AggregateTable.places_backfill env s.api id)
  exact ⟨a', api, hrun, hid ▸ hset, hid', hhosts, hid' ▸ find?_saved hr (hid ▸ hset), hplaces⟩

/-- A rejected `update_aggregate` of an aggregate that is found. -/
theorem raisesTo_saveAndSet {id : Nat} {values : Values} {a : Aggregate}
    (hmain : NoneInMain main s.main) (hr : s.api.find? id = some r) (hshows : Shows a r) :
    RaisesTo (do
      let a ← saveName main ctxt env values a
      isSafeToUpdateAz main ctxt env (values.pop "name").entries a none .update
      if (values.pop "name").entries.isEmpty then pure a
      else
        let a ← updateMetadata main ctxt a (values.pop "name").entries
        pure { a with updatedAt := some env.now }) (afterRead env s id) s ↔
      (GivesRefused s.api id values → truthy r.uuid = true) ∧
      (¬ GivesRefused s.api id values →
        Refuses main ctxt s id r.hosts (values.pop "name").entries →
        (∀ n, values.get "name" = some (some n) → n = r.name) ∧ truthy r.uuid = true ∧
          Quiet main ctxt s r.hosts (values.pop "name").entries) := by
  have hid : a.id = id := hshows.id.trans ((s.api.find?_iff).mp hr).2
  have hread : (afterRead env s id).api.find? a.id = some (rowBackfill env r) :=
    hid.symm ▸ find?_afterRead hr
  have hmain₁ : NoneInMain main (afterRead env s id).main := hmain
  by_cases hgives : GivesRefused s.api id values
  · -- the call ends where the name is saved
    have hgiven := hgives
    obtain ⟨name, hname, hrefused⟩ := hgiven
    obtain ⟨e, hrun⟩ := @run_saveName_refused _ main ctxt env _ _ values a name hread hname
      (nameRefused_afterRead_iff.mpr (hid ▸ hrefused))
    rw [raisesTo_bind_error hrun, afterRead_eq_iff hr]
    exact ⟨fun h => ⟨fun _ => h, fun hnot => absurd hgives hnot⟩, fun h => h.1 hgives⟩
  · cases hname : values.get "name" with
    | none =>
      have hrun : (saveName main ctxt env values a).run (afterRead env s id) =
          .ok a (afterRead env s id) := by
        unfold saveName
        rw [hname]
        rfl
      rw [raisesTo_bind_ok hrun, raisesTo_checkAndSet hmain₁ hread, hid, hshows.hosts,
        refuses_afterRead_iff, afterCheck_afterRead_iff hr]
      constructor
      · intro h
        exact ⟨fun hyes => absurd hyes hgives, fun _ hrefuses =>
          ⟨fun n hn => (by cases hn), h hrefuses⟩⟩
      · intro h hrefuses
        exact (h.2 hgives hrefuses).2
    | some name =>
      obtain ⟨n, rfl⟩ : ∃ n, name = some n := by
        cases name with
        | none => exact absurd ⟨none, hname, Or.inl rfl⟩ hgives
        | some n => exact ⟨n, rfl⟩
      obtain ⟨a', api, hrun, hset, hid', hhosts', hsaved, hplaces⟩ :=
        @run_saveName_free _ main ctxt env s r id n values a hr hshows hname hgives
      have hrefuses :
          Refuses main ctxt { s with api := api } id r.hosts (values.pop "name").entries ↔
            Refuses main ctxt s id r.hosts (values.pop "name").entries :=
        ⟨fun h => h.congr hplaces, fun h => h.congr hplaces.symm⟩
      have hmain₂ : NoneInMain main (Stores.mk api s.main).main := hmain
      rw [raisesTo_bind_ok hrun, raisesTo_checkAndSet hmain₂ hsaved, hid', hhosts', hrefuses,
        afterCheck_saved_iff hr hset]
      constructor
      · intro h
        refine ⟨fun hyes => absurd hyes hgives, fun _ hrefused => ?_⟩
        obtain ⟨hsame, hrest⟩ := h hrefused
        exact ⟨fun n' hn' => (by cases hn'; exact hsame), hrest⟩
      · intro h hrefused
        obtain ⟨hsame, hrest⟩ := h.2 hgives hrefused
        exact ⟨hsame n rfl, hrest⟩

/-- **A rejected `update_aggregate`.** -/
theorem keeps_updateAggregate_iff {id : Nat} {values : Values} (hmain : NoneInMain main s.main) :
    Keeps (updateAggregate main ctxt env id values) s ↔ UpdateKeeps main ctxt s id values := by
  unfold updateAggregate UpdateKeeps
  cases hr : s.api.find? id with
  | none => exact ⟨fun _ r hr' => (by cases hr'), fun _ => keeps_of_none hmain hr⟩
  | some r =>
    obtain ⟨a, hrun, hshows⟩ := @run_getById _ main ctxt env s r id hr
    change _ = EStateM.Result.ok a (afterRead env s id) at hrun
    unfold Keeps
    rw [raisesTo_bind_ok hrun]
    exact (raisesTo_saveAndSet hmain hr hshows).trans
      ⟨fun h q hq => (by cases hq; exact h), fun h => h r rfl⟩

/-! ## Both -/

/-- **A rejected update changes nothing**: exactly when no aggregate lacked its uuid, and no new
name was saved before its zone was refused. -/
theorem rejected_keeps {main : MainDatabase μ} {s : Stores μ} (hmain : NoneInMain main s.main)
    (ctxt : Context) (env : Env) :
    (∀ id values, Keeps (updateAggregate main ctxt env id values) s ↔
      UpdateKeeps main ctxt s id values) ∧
    (∀ id metadata, Keeps (updateAggregateMetadata main ctxt env id metadata) s ↔
      MetadataUpdateKeeps main ctxt s id metadata) :=
  ⟨fun _ _ => keeps_updateAggregate_iff hmain, fun _ _ => keeps_updateAggregateMetadata_iff hmain⟩

theorem spareHosts_nodup : ["h3"].Nodup := by decide

/-- One aggregate, without a zone. -/
def spareAggregate : AggregateTable where
  rows := [⟨3, some "u3", "spare", ["h3"], [("ssd", "yes")], none, none, spareHosts_nodup⟩]
  uniqId := by decide
  uniqName := by decide
  uniqKey := by decide

theorem updateUuid_ne : ∀ _ : Nat, "u4" ≠ "" := fun _ => by decide

def updateEnv : Env := ⟨60, fun _ => "u4", updateUuid_ne, "u5", 4⟩

/-- The name and an empty zone. -/
def renameToEmptyZone : Values :=
  ⟨[("name", some "fast"), ("availability_zone", some "")], by decide⟩

/-- The metadata alone: it is refused, and nothing has changed. -/
theorem rejected_keeps_spare :
    Keeps (updateAggregateMetadata undeclared adminContext updateEnv 3
      ⟨[("availability_zone", some "")], by decide⟩) ⟨spareAggregate, ()⟩ := by
  refine ((rejected_keeps noneInMain_undeclared adminContext updateEnv).2 3 _).mpr ?_
  intro r hr _
  have huuid : ∀ q ∈ spareAggregate.rows, truthy q.uuid = true := by decide
  exact ⟨huuid r ((AggregateTable.find?_iff _).mp hr).1, fun q hq _ => huuid q hq⟩

/-- The update is rejected, and the aggregate has its new name. -/
theorem rejected_update_renames :
    ¬ Keeps (updateAggregate undeclared adminContext updateEnv 3 renameToEmptyZone)
        ⟨spareAggregate, ()⟩ ∧
      ∃ e s', (updateAggregate undeclared adminContext updateEnv 3 renameToEmptyZone).run
          ⟨spareAggregate, ()⟩ = .error e s' ∧ s'.api.rows.map AggregateRow.name = ["fast"] := by
  have hrun : ∃ e s', (updateAggregate undeclared adminContext updateEnv 3 renameToEmptyZone).run
      ⟨spareAggregate, ()⟩ = .error e s' ∧ s'.api.rows.map AggregateRow.name = ["fast"] :=
    ⟨_, _, rfl, rfl⟩
  refine ⟨fun hkeeps => ?_, hrun⟩
  obtain ⟨e, s', hraises, hname⟩ := hrun
  rw [hkeeps e s' hraises] at hname
  exact absurd hname (by decide)

end PolarBear.Zones
