import PolarBear.Lib.Transition
import PolarBear.Zones.Writing

/-!
# A host is in one zone

Requests are served one at a time, each accepted or rejected. Whatever they are, the
aggregates that contain a host and have a zone agree on it after each, if they did
before the first (`one_zone`).

Each call changes at most one row of the API database, and `agree_of_changes` says
what that row has to fulfil: it agrees with every other row. The check of the zone is
what makes it so. Neither what is read nor a new name counts, for they leave the
hosts and the metadata (`places`).
-/

namespace PolarBear.Zones

open PolarBear.Db
open PolarBear.Fallible
open PolarBear.Transition
open PolarBear.Aggregates (Aggregate AggregateRow DbAggregate addHost_id addHost_name)

/-- Two rows agree on the zone of each host they share. -/
def Agrees (r r' : AggregateRow) : Prop :=
  ∀ host ∈ r.hosts, host ∈ r'.hosts → ∀ z z', zone r = some z → zone r' = some z' → z = z'

/-- For every host, the aggregates that contain it and have a zone agree on it. -/
def Agree (t : AggregateTable) : Prop :=
  ∀ r ∈ t.rows, ∀ r' ∈ t.rows, Agrees r r'

theorem agrees_iff {r r' : AggregateRow} : Agrees r r' ↔
    ∀ host ∈ r.hosts, host ∈ r'.hosts → zone r = none ∨ zone r' = none ∨ zone r = zone r' := by
  constructor
  · intro h host hr hr'
    cases hz : zone r with
    | none => exact Or.inl rfl
    | some z =>
      cases hz' : zone r' with
      | none => exact Or.inr (Or.inl rfl)
      | some z' => exact Or.inr (Or.inr (congrArg some (h host hr hr' z z' hz hz')))
  · intro h host hr hr' z z' hz hz'
    rcases h host hr hr' with hnone | hnone | heq
    · rw [hz] at hnone
      cases hnone
    · rw [hz'] at hnone
      cases hnone
    · exact Option.some.inj (hz.symm.trans (heq.trans hz'))

instance (r r' : AggregateRow) : Decidable (Agrees r r') := decidable_of_iff' _ agrees_iff

instance (t : AggregateTable) : Decidable (Agree t) :=
  inferInstanceAs (Decidable (∀ r ∈ t.rows, ∀ r' ∈ t.rows, Agrees r r'))

theorem Agrees.symm {r r' : AggregateRow} (h : Agrees r r') : Agrees r' r :=
  fun host hr' hr z z' hz hz' => (h host hr hr' z' z hz' hz).symm

/-- Agreement is about the hosts and the metadata. -/
theorem Agrees.congr {r r' q q' : AggregateRow} (h : Agrees q q') (hhosts : q.hosts = r.hosts)
    (hzone : zone q = zone r) (hhosts' : q'.hosts = r'.hosts) (hzone' : zone q' = zone r') :
    Agrees r r' := by
  intro host hr hr' z z' hz hz'
  exact h host (hhosts ▸ hr) (hhosts' ▸ hr') z z' (hzone.trans hz) (hzone'.trans hz')

theorem zone_of_metadata {r r' : AggregateRow} (h : r'.metadata = r.metadata) :
    zone r' = zone r := by
  unfold zone
  rw [h]

/-- What a table may become: agreement is kept, and no aggregate gets an empty zone. -/
structure Moves (t t' : AggregateTable) : Prop where
  agree : Agree t → Agree t'
  noEmpty : ∀ r' ∈ t'.rows, zone r' = some "" → ∃ r ∈ t.rows, r.id = r'.id ∧ zone r = some ""

theorem Moves.trans {t t' t'' : AggregateTable} (h : Moves t t') (h' : Moves t' t'') :
    Moves t t'' := by
  refine ⟨fun hagree => h'.agree (h.agree hagree), fun r'' hr'' hzone => ?_⟩
  obtain ⟨r', hr', hid', hzone'⟩ := h'.noEmpty r'' hr'' hzone
  obtain ⟨r, hr, hid, hzone⟩ := h.noEmpty r' hr' hzone'
  exact ⟨r, hr, hid.trans hid', hzone⟩

theorem moves_of_places {t t' : AggregateTable} (h : t'.places = t.places) : Moves t t' := by
  constructor
  · intro hagree r hr r' hr'
    obtain ⟨q, hq, _, hhosts, hmetadata⟩ := AggregateTable.exists_of_places h hr
    obtain ⟨q', hq', _, hhosts', hmetadata'⟩ := AggregateTable.exists_of_places h hr'
    exact (hagree q hq q' hq').congr hhosts (zone_of_metadata hmetadata) hhosts'
      (zone_of_metadata hmetadata')
  · intro r hr hzone
    obtain ⟨q, hq, hid, _, hmetadata⟩ := AggregateTable.exists_of_places h hr
    exact ⟨q, hq, hid, (zone_of_metadata hmetadata).trans hzone⟩

theorem Moves.refl (t : AggregateTable) : Moves t t := moves_of_places rfl

/-- Rows go. -/
theorem moves_of_subset {t t' : AggregateTable} (h : ∀ r ∈ t'.rows, r ∈ t.rows) : Moves t t' :=
  ⟨fun hagree r hr r' hr' => hagree r (h r hr) r' (h r' hr'),
    fun r hr hzone => ⟨r, h r hr, rfl, hzone⟩⟩

/-- The rows after one has changed. -/
theorem Changes.mem {t t' : AggregateTable} {id : Nat} {r' q : AggregateRow}
    (h : Changes t t' id r') (hq : q ∈ t'.rows) : q = r' ∨ q ∈ t.rows ∧ q.id ≠ id := by
  have hfind : t'.find? q.id = some q := (t'.find?_iff).mpr ⟨hq, rfl⟩
  by_cases hid : q.id = id
  · rw [hid, h.row] at hfind
    exact Or.inl (Option.some.inj hfind).symm
  · rw [h.others q.id hid] at hfind
    exact Or.inr ⟨((t.find?_iff).mp hfind).1, hid⟩

/-- **One row changes**: it must agree with the others, and get no empty zone. -/
theorem moves_of_changes {t t' : AggregateTable} {id : Nat} {r r' : AggregateRow}
    (hr : t.find? id = some r) (h : Changes t t' id r')
    (hfits : Agree t → ∀ q ∈ t.rows, q.id ≠ id → Agrees r' q)
    (hempty : zone r' = some "" → zone r = some "") : Moves t t' := by
  constructor
  · intro hagree q hq q' hq'
    rcases h.mem hq with rfl | ⟨hin, hne⟩
    · rcases h.mem hq' with rfl | ⟨hin', hne'⟩
      · intro host _ _ z z' hz hz'
        exact Option.some.inj (hz.symm.trans hz')
      · exact hfits hagree q' hin' hne'
    · rcases h.mem hq' with rfl | ⟨hin', hne'⟩
      · exact (hfits hagree q hin hne).symm
      · exact hagree q hin q' hin'
  · intro q hq hzone
    rcases h.mem hq with rfl | ⟨hin, _⟩
    · have hid : q.id = id := ((t'.find?_iff).mp h.row).2
      obtain ⟨hin, hrid⟩ := (t.find?_iff).mp hr
      exact ⟨r, hin, hrid.trans hid.symm, hempty hzone⟩
    · exact ⟨q, hin, rfl, hzone⟩

/-- A row in its zone agrees with every other that has one of its hosts, or there is a
conflict. -/
theorem agrees_of_not_conflict {t : AggregateTable} {id : Nat} {hosts : List String} {z : String}
    {r' : AggregateRow} (h : ¬ Conflict t id hosts z) (hzone : zone r' = some z)
    (hhosts : ∀ host ∈ r'.hosts, host ∈ hosts) {q : AggregateRow} (hq : q ∈ t.rows)
    (hid : q.id ≠ id) : Agrees r' q := by
  intro host hhost hhost' w z' hw hz'
  rw [hzone] at hw
  cases hw
  by_contra hne
  exact h ⟨q, hq, hid, ⟨host, hhost', hhosts host hhost⟩, z', hz', Ne.symm hne⟩

/-! ## The calls -/

variable {μ α β : Type} {main : MainDatabase μ} {ctxt : Context} {env : Env}
  {services : String → Except AggregateError Unit} {s : Stores μ}

/-- What a call may do to both databases. -/
structure Leads (s s' : Stores μ) : Prop where
  main : s'.main = s.main
  moves : Moves s.api s'.api

theorem Leads.refl (s : Stores μ) : Leads s s := ⟨rfl, Moves.refl _⟩

theorem Leads.trans {s s' s'' : Stores μ} (h : Leads s s') (h' : Leads s' s'') : Leads s s'' :=
  ⟨h'.main.trans h.main, h.moves.trans h'.moves⟩

theorem leads_of_places {api : AggregateTable} (h : api.places = s.api.places) :
    Leads s { s with api := api } :=
  ⟨rfl, moves_of_places h⟩

theorem leads_of_moves {api : AggregateTable} (h : Moves s.api api) :
    Leads s { s with api := api } := ⟨rfl, h⟩

theorem NoneInMain.leads {s' : Stores μ} (h : NoneInMain main s.main) (hleads : Leads s s') :
    NoneInMain main s'.main := hleads.main ▸ h

/-- An aggregate is read, and then something is done with it. -/
theorem leads_getById {id : Nat} {f : Aggregate → AggregateM μ α}
    (hmain : NoneInMain main s.main)
    (hf : ∀ a r s₁, NoneInMain main s₁.main → s₁.api.find? a.id = some r → Shows a r →
      Leads s₁ (endState ((f a).run s₁))) :
    Leads s (endState ((getById main ctxt env id >>= f).run s)) := by
  cases hr : s.api.find? id with
  | none =>
    obtain ⟨e, hrun⟩ := @run_getById_none _ main ctxt env s id hr hmain
    rw [endState_bind_error hrun]
    exact Leads.refl s
  | some r =>
    obtain ⟨a, hrun, hshows⟩ := @run_getById _ main ctxt env s r id hr
    have hread : Leads s { s with api := s.api.backfill env id } :=
      leads_of_places (AggregateTable.places_backfill env s.api id)
    have hid : a.id = id := hshows.id.trans ((s.api.find?_iff).mp hr).2
    rw [endState_bind_ok hrun]
    refine hread.trans (hf a (rowBackfill env r) _ (hmain.leads hread) ?_ ?_)
    · show (s.api.backfill env id).find? a.id = _
      rw [hid, AggregateTable.find?_backfill, if_pos rfl, hr]
      rfl
    · exact ⟨hshows.id.trans (rowBackfill_id env r).symm,
        hshows.name.trans (rowBackfill_name env r).symm,
        hshows.hosts.trans (rowBackfill_hosts env r).symm,
        hshows.metadata.trans (by unfold AggregateRow.metadetails; rw [rowBackfill_metadata])⟩

/-- The zone is checked, and if it is not refused something is done. The row is read by the
check, but its place stays. -/
theorem leads_isSafe {metadata : List (String × Option String)} {a : Aggregate}
    {hosts : Option (List String)} {action : Action} {r : AggregateRow} {f : AggregateM μ α}
    (hmain : NoneInMain main s.main) (hr : s.api.find? a.id = some r)
    (hf : ∀ r₁ s₁, NoneInMain main s₁.main → s₁.api.find? a.id = some r₁ →
      r₁.hosts = r.hosts → r₁.metadata = r.metadata →
      ¬ Refuses main ctxt s₁ a.id (checkedHosts hosts a) metadata →
      Leads s₁ (endState (f.run s₁))) :
    Leads s (endState ((isSafeToUpdateAz main ctxt env metadata a hosts action >>=
      fun _ => f).run s)) := by
  obtain ⟨hrefused, hpassed⟩ := @run_isSafeToUpdateAz _ main ctxt env s metadata a hosts action
    hmain
  have hplaces := places_afterCheck main ctxt env s (checkedHosts hosts a) metadata
  have hread : Leads s (afterCheck main ctxt env s (checkedHosts hosts a) metadata) :=
    leads_of_places hplaces
  by_cases h : Refuses main ctxt s a.id (checkedHosts hosts a) metadata
  · obtain ⟨e, hrun⟩ := hrefused h
    rw [endState_bind_error hrun]
    exact hread
  · obtain ⟨r₁, hr₁, hhosts, hmetadata⟩ := find?_afterCheck hr
    rw [endState_bind_ok (hpassed h)]
    refine hread.trans (hf r₁ _ (hmain.leads hread) hr₁ hhosts hmetadata ?_)
    exact fun hafter => h (hafter.congr hplaces)

/-- A name is saved, and then something is done. -/
theorem leads_saveName {values : Values} {a : Aggregate} {r : AggregateRow}
    {f : Aggregate → AggregateM μ α} (hmain : NoneInMain main s.main)
    (hr : s.api.find? a.id = some r) (hshows : Shows a r)
    (hf : ∀ a r s₁, NoneInMain main s₁.main → s₁.api.find? a.id = some r → Shows a r →
      Leads s₁ (endState ((f a).run s₁))) :
    Leads s (endState ((saveName main ctxt env values a >>= f).run s)) := by
  cases hname : values.get "name" with
  | none =>
    have hrun : (saveName main ctxt env values a).run s = .ok a s := by
      unfold saveName
      rw [hname]
      rfl
    rw [endState_bind_ok hrun]
    exact hf a r s hmain hr hshows
  | some name =>
    by_cases hrefused : NameRefused s.api a.id name
    · obtain ⟨e, hrun⟩ := @run_saveName_refused _ main ctxt env s r values a name hr hname hrefused
      rw [endState_bind_error hrun]
      exact Leads.refl s
    · cases name with
      | none => exact absurd (Or.inl rfl) hrefused
      | some n =>
        have hfree : ¬ s.api.nameTaken a.id n = true :=
          fun h => hrefused (Or.inr ⟨n, rfl, h⟩)
        obtain ⟨a', api, hrun, hset, hshows'⟩ :=
          @run_saveName_ok _ main ctxt env s r values a n hr hname hfree
        have hsaved : Leads s { s with api := api } :=
          leads_of_places (AggregateTable.places_setColumns hset)
        have hid : a'.id = a.id := by
          rw [hshows'.id, rowSetColumns_id, ← hshows.id]
        rw [endState_bind_ok hrun]
        refine hsaved.trans (hf a' _ _ (hmain.leads hsaved) ?_ hshows')
        show api.find? a'.id = _
        rw [hid, AggregateTable.find?_of_map (rowSetColumns_id env.now (some n) none)
          (AggregateTable.setColumns_ok hset), if_pos rfl, hr]
        rfl

/-- Metadata is set after the check. -/
theorem leads_updateMetadata {entries : List (String × Option String)} {a : Aggregate}
    {r : AggregateRow} {f : Aggregate → Aggregate} (hr : s.api.find? a.id = some r)
    (hhosts : a.hosts = r.hosts) (hnodup : (Dict.keys entries).Nodup)
    (hpassed : ¬ Refuses main ctxt s a.id (checkedHosts none a) entries) :
    Leads s (endState ((updateMetadata main ctxt a entries >>= fun a => pure (f a)).run s)) := by
  obtain ⟨a', api, r', hrun, hchanges, hhosts', hzone⟩ := run_updateMetadata main ctxt hr hnodup
  rw [endState_bind_ok hrun]
  refine leads_of_moves (moves_of_changes hr hchanges (fun hagree q hq hne => ?_)
    (fun hempty => ?_))
  · cases hlookup : entries.lookup zoneKey with
    | none =>
      rw [hlookup] at hzone
      exact (hagree r ((s.api.find?_iff).mp hr).1 q hq).congr hhosts'.symm hzone.symm rfl rfl
    | some z =>
      rw [hlookup] at hzone
      cases z with
      | none => exact absurd ⟨none, hlookup, Or.inl rfl⟩ hpassed
      | some z =>
        refine @agrees_of_not_conflict _ _ a.hosts _ _ ?_ hzone ?_ _ hq hne
        · exact fun hc => hpassed ⟨some z, hlookup, Or.inr (Or.inr ⟨z, rfl, hc⟩)⟩
        · intro host hhost
          rw [hhosts, ← hhosts']
          exact hhost
  · cases hlookup : entries.lookup zoneKey with
    | none =>
      rw [hlookup] at hzone
      exact hzone.symm.trans hempty
    | some z =>
      rw [hlookup, hempty] at hzone
      have hz : z = some "" := hzone.symm
      exact absurd ⟨z, hlookup, Or.inl (by rw [hz]; rfl)⟩ hpassed

theorem leads_updateAggregate (id : Nat) (values : Values) (hmain : NoneInMain main s.main) :
    Leads s (endState ((updateAggregate main ctxt env id values).run s)) := by
  unfold updateAggregate
  refine leads_getById hmain (fun a r s₁ hmain₁ hr₁ hshows₁ => ?_)
  refine leads_saveName hmain₁ hr₁ hshows₁ (fun a r s₂ hmain₂ hr₂ hshows₂ => ?_)
  refine leads_isSafe hmain₂ hr₂ (fun r₃ s₃ _ hr₃ hhosts _ hpassed => ?_)
  split
  · exact Leads.refl s₃
  · exact leads_updateMetadata hr₃ (hshows₂.hosts.trans hhosts.symm) (values.pop "name").nodup
      hpassed

theorem leads_updateAggregateMetadata (id : Nat) (metadata : Values)
    (hmain : NoneInMain main s.main) :
    Leads s (endState ((updateAggregateMetadata main ctxt env id metadata).run s)) := by
  unfold updateAggregateMetadata
  refine leads_getById hmain (fun a r s₁ hmain₁ hr₁ hshows₁ => ?_)
  refine leads_isSafe hmain₁ hr₁ (fun r₂ s₂ _ hr₂ hhosts _ hpassed => ?_)
  exact leads_updateMetadata hr₂ (hshows₁.hosts.trans hhosts.symm) metadata.nodup hpassed

theorem lookup_map_some (key : String) : ∀ entries : List (String × String),
    (entries.map (fun kv => (kv.1, some kv.2))).lookup key = (entries.lookup key).map some
  | [] => rfl
  | (k, v) :: entries => by
    rw [List.map_cons]
    by_cases h : k = key
    · subst h
      rw [List.lookup_cons_self, List.lookup_cons_self]
      rfl
    · rw [Dict.lookup_cons_ne h, Dict.lookup_cons_ne h, lookup_map_some key entries]

theorem mem_addHost {host host' : String} {r : AggregateRow}
    (h : host' ∈ (r.addHost host).hosts) : host' ∈ r.hosts ∨ host' = host := by
  unfold AggregateRow.addHost at h
  split at h
  · exact Or.inl h
  · rcases List.mem_append.mp h with h | h
    · exact Or.inl h
    · exact Or.inr (List.mem_singleton.mp h)

/-- A host is added after the check. -/
theorem leads_addHost {a : Aggregate} {r : AggregateRow} {host : String}
    (hr : s.api.find? a.id = some r)
    (hpassed : ∀ z, zone r = some z → ¬ Conflict s.api a.id [host] z) :
    Leads s (endState ((addHost main ctxt a host).run s)) := by
  unfold addHost
  rw [endState_bind_ok (run_inApi hr), if_pos rfl]
  by_cases hin : host ∈ r.hosts
  · have hadd : hostAddToDb a.id host s.api = .error (.nova (.aggregateHostExists host a.id)) := by
      unfold hostAddToDb
      rw [AggregateTable.get_of_find hr]
      exact if_pos hin
    rw [endState_bind_error (run_onApi_error hadd)]
    exact Leads.refl s
  · have hadd : hostAddToDb a.id host s.api = .ok ((), s.api.addHost a.id host) := by
      unfold hostAddToDb
      rw [AggregateTable.get_of_find hr]
      exact if_neg hin
    have hzone : zone (r.addHost host) = zone r := zone_of_metadata (addHost_metadata host r)
    rw [endState_bind_ok (run_onApi_ok hadd)]
    refine leads_of_moves (moves_of_changes hr (changes_of_map (addHost_id host) rfl hr)
      (fun hagree q hq hne => ?_) (fun h => hzone.symm.trans h))
    -- on the hosts it had, the row agrees as before; on the new one there is no conflict
    intro host' hhost' hq' z z' hz hz'
    rw [hzone] at hz
    rcases mem_addHost hhost' with hold | rfl
    · exact hagree r ((s.api.find?_iff).mp hr).1 q hq host' hold hq' z z' hz hz'
    · by_contra hnez
      exact hpassed z hz ⟨q, hq, hne, ⟨host', hq', List.mem_singleton_self _⟩, z', hz',
        Ne.symm hnez⟩

theorem leads_ofExcept {x : Except AggregateError α} {f : α → AggregateM μ β}
    (hf : ∀ a, x = .ok a → Leads s (endState ((f a).run s))) :
    Leads s (endState ((ofExcept x >>= f).run s)) := by
  cases x with
  | error e =>
    rw [endState_bind_error (run_ofExcept_error rfl s)]
    exact Leads.refl s
  | ok a =>
    rw [endState_bind_ok (run_ofExcept_ok rfl s)]
    exact hf a rfl

theorem leads_addHostToAggregate (id : Nat) (host : String) (hmain : NoneInMain main s.main) :
    Leads s (endState ((addHostToAggregate main ctxt env services id host).run s)) := by
  unfold addHostToAggregate
  refine leads_ofExcept (fun _ _ => ?_)
  refine leads_getById hmain (fun a r s₁ hmain₁ hr₁ hshows₁ => ?_)
  refine leads_isSafe hmain₁ hr₁ (fun r₂ s₂ _ hr₂ _ hmetadata hpassed => ?_)
  refine leads_addHost hr₂ (fun z hz hconflict => hpassed ⟨some z, ?_, ?_⟩)
  · have hkeys := s₁.api.uniqKey r ((s₁.api.find?_iff).mp hr₁).1
    have hshown : availabilityZone a = some z :=
      (availabilityZone_of_shows hshows₁ hkeys).trans ((zone_of_metadata hmetadata).symm.trans hz)
    unfold availabilityZone at hshown
    rw [lookup_map_some, hshown]
    rfl
  · exact Or.inr (Or.inr ⟨z, rfl, hconflict⟩)

theorem leads_removeHostFromAggregate (id : Nat) (host : String)
    (hmain : NoneInMain main s.main) :
    Leads s (endState ((removeHostFromAggregate main ctxt env services id host).run s)) := by
  unfold removeHostFromAggregate
  refine leads_ofExcept (fun _ _ => ?_)
  refine leads_getById hmain (fun a r s₁ _ hr₁ _ => ?_)
  unfold deleteHost
  rw [endState_bind_ok (run_inApi hr₁), if_pos rfl]
  by_cases hin : host ∈ r.hosts
  · have hremove : hostDeleteFromDb a.id host s₁.api = .ok ((), s₁.api.removeHost a.id host) := by
      unfold hostDeleteFromDb
      rw [AggregateTable.get_of_find hr₁]
      exact if_pos hin
    rw [endState_bind_ok (run_onApi_ok hremove)]
    refine leads_of_moves (moves_of_changes hr₁ (changes_of_map (f := rowRemoveHost host)
      (fun _ => rfl) rfl hr₁) (fun hagree q hq _ => ?_) (fun h => h))
    intro host' hhost' hq' z z' hz hz'
    exact hagree r ((s₁.api.find?_iff).mp hr₁).1 q hq host' (List.mem_of_mem_erase hhost') hq' z z'
      hz hz'
  · have hremove : hostDeleteFromDb a.id host s₁.api =
        .error (.aggregateHostNotFound host a.id) := by
      unfold hostDeleteFromDb
      rw [AggregateTable.get_of_find hr₁]
      exact if_neg hin
    rw [endState_bind_error (run_onApi_error hremove)]
    exact Leads.refl s₁

theorem leads_deleteAggregate (id : Nat) (hmain : NoneInMain main s.main) :
    Leads s (endState ((deleteAggregate main ctxt env id).run s)) := by
  unfold deleteAggregate
  refine leads_getById hmain (fun a r s₁ _ hr₁ _ => ?_)
  split
  · have hdelete : aggregateDeleteFromDb a.id s₁.api = .ok ((), s₁.api.remove a.id) := by
      unfold aggregateDeleteFromDb
      rw [AggregateTable.get_of_find hr₁]
      rfl
    unfold destroy
    rw [run_tryCatch, run_onApi_ok hdelete]
    exact leads_of_moves (moves_of_subset (fun q hq => (List.mem_filter.mp hq).1))
  · exact Leads.refl s₁

/-- A new aggregate has no hosts. -/
theorem moves_insert {t : AggregateTable} {r : AggregateRow}
    {hid : r.id ∉ t.rows.map AggregateRow.id} {hname : r.name ∉ t.rows.map AggregateRow.name}
    {hkeys : (Dict.keys r.metadata).Nodup} (hhosts : r.hosts = []) (hzone : zone r ≠ some "") :
    Moves t (t.insert r hid hname hkeys) := by
  have hnone : ∀ q, Agrees r q := by
    intro q host hhost
    rw [hhosts] at hhost
    cases hhost
  constructor
  · intro hagree q hq q' hq'
    rcases List.mem_cons.mp hq with rfl | hq
    · exact hnone q'
    · rcases List.mem_cons.mp hq' with rfl | hq'
      · exact (hnone q).symm
      · exact hagree q hq q' hq'
  · intro q hq hempty
    rcases List.mem_cons.mp hq with rfl | hq
    · exact absurd hempty hzone
    · exact ⟨q, hq, rfl, hempty⟩

/-- What creating an aggregate inserts. -/
theorem aggregateCreateInDb_ok {t t' : AggregateTable} {name uuid : String}
    {metadata : List (String × String)} {f : DbAggregate}
    (h : aggregateCreateInDb env name uuid metadata t = .ok (f, t'))
    (hzone : (Dict.update [] metadata).lookup zoneKey ≠ some "") :
    t'.find? f.row.id = some f.row ∧ Moves t t' := by
  unfold aggregateCreateInDb at h
  dsimp only at h
  split at h
  · cases h
  · split at h
    · cases h
    · obtain ⟨rfl, rfl⟩ := Prod.mk.inj (Except.ok.inj h)
      exact ⟨(AggregateTable.find?_iff _).mpr ⟨List.mem_cons_self .., rfl⟩, moves_insert rfl hzone⟩

/-- The zone that a new aggregate gets is not empty. -/
theorem zone_created (given : Option String) :
    (Dict.update [] (if truthy given then [(zoneKey, given.getD "")] else [])).lookup zoneKey ≠
      some "" := by
  cases given with
  | none => exact fun h => by cases h
  | some z =>
    split
    · next htruthy =>
      intro h
      have hz : z = "" := Option.some.inj (List.lookup_cons_self.symm.trans h)
      rw [hz] at htruthy
      cases htruthy
    · exact fun h => by cases h

theorem leads_createAggregate (name given : Option String) :
    Leads s (endState ((createAggregate main ctxt env name given).run s)) := by
  unfold createAggregate
  refine leads_ofExcept (fun name _ => ?_)
  unfold create
  cases hmigrated : main.ensureMigrated ctxt s.main with
  | error e =>
    rw [endState_bind_error (run_readMain_error hmigrated)]
    exact Leads.refl s
  | ok migrated =>
    rw [endState_bind_ok (run_readMain_ok hmigrated)]
    cases migrated with
    | false => exact Leads.refl s
    | true =>
      rw [if_pos rfl]
      cases hcreate : aggregateCreateInDb env name env.newUuid
        (if truthy given then [(zoneKey, given.getD "")] else []) s.api with
      | error e =>
        rw [endState_bind_error (run_onApi_error hcreate)]
        exact Leads.refl s
      | ok created =>
        obtain ⟨f, api⟩ := created
        obtain ⟨hfind, hmoves⟩ := aggregateCreateInDb_ok hcreate (zone_created given)
        rw [endState_bind_ok (run_onApi_ok hcreate)]
        obtain ⟨a, hrun, _⟩ := @run_fromDbObject _ main ctxt env { s with api := api } f.row f
          hfind rfl
        rw [hrun]
        exact (leads_of_moves hmoves).trans
          (leads_of_places (AggregateTable.places_backfill env api f.row.id))

/-! ## Any sequence of requests -/

inductive Call where
  | createAggregate (name zone : Option String)
  | updateAggregate (id : Nat) (values : Values)
  | updateAggregateMetadata (id : Nat) (metadata : Values)
  | deleteAggregate (id : Nat)
  | addHostToAggregate (id : Nat) (host : String)
  | removeHostFromAggregate (id : Nat) (host : String)

/-- A call, with whose it is and what it gets from outside. -/
structure Request where
  ctxt : Context
  env : Env
  call : Call

/-- What a request does. -/
def perform (main : MainDatabase μ) (services : String → Except AggregateError Unit)
    (request : Request) : AggregateM μ Unit :=
  match request.call with
  | .createAggregate name zone => discard (createAggregate main request.ctxt request.env name zone)
  | .updateAggregate id values => discard (updateAggregate main request.ctxt request.env id values)
  | .updateAggregateMetadata id metadata =>
    discard (updateAggregateMetadata main request.ctxt request.env id metadata)
  | .deleteAggregate id => deleteAggregate main request.ctxt request.env id
  | .addHostToAggregate id host =>
    discard (addHostToAggregate main request.ctxt request.env services id host)
  | .removeHostFromAggregate id host =>
    discard (removeHostFromAggregate main request.ctxt request.env services id host)

/-- One request, accepted or rejected. -/
def Step (main : MainDatabase μ) (services : String → Except AggregateError Unit)
    (request : Request) (s s' : Stores μ) : Prop :=
  s' = endState ((perform main services request).run s)

/-- **Each call leads on.** -/
theorem leads_of_step {request : Request} {s s' : Stores μ} (hmain : NoneInMain main s.main)
    (h : Step main services request s s') : Leads s s' := by
  unfold Step perform at h
  subst h
  split
  · rw [endState_discard]
    exact leads_createAggregate _ _
  · rw [endState_discard]
    exact leads_updateAggregate _ _ hmain
  · rw [endState_discard]
    exact leads_updateAggregateMetadata _ _ hmain
  · exact leads_deleteAggregate _ hmain
  · rw [endState_discard]
    exact leads_addHostToAggregate _ _ hmain
  · rw [endState_discard]
    exact leads_removeHostFromAggregate _ _ hmain

/-- **A host is never in two zones**, and no aggregate gets an empty one. -/
theorem one_zone {main : MainDatabase μ} {services : String → Except AggregateError Unit}
    {s s' : Stores μ} {requests : List Request} (hmain : NoneInMain main s.main)
    (hagree : Agree s.api) (hrun : Run (Step main services) s requests s') :
    Agree s'.api ∧ ∀ request s'', Step main services request s' s'' →
      ∀ r' ∈ s''.api.rows, zone r' = some "" →
        ∃ r ∈ s'.api.rows, r.id = r'.id ∧ zone r = some "" := by
  have hinv : NoneInMain main s'.main ∧ Agree s'.api := by
    refine @Run.invariant _ _ _ (fun s => NoneInMain main s.main ∧ Agree s.api)
      (fun request s s' hinv hstep => ?_) s s' requests hrun ⟨hmain, hagree⟩
    have hleads := leads_of_step hinv.1 hstep
    exact ⟨hinv.1.leads hleads, hleads.moves.agree hinv.2⟩
  exact ⟨hinv.2, fun request s'' hstep => (leads_of_step hinv.1 hstep).moves.noEmpty⟩

/-- Two aggregates of one zone that share a host, and one without a zone. -/
def threeAggregates : AggregateTable where
  rows := [
    ⟨1, some "u1", "fast", ["h1", "h2"], [("availability_zone", "lab")], none, none, by decide⟩,
    ⟨2, some "u2", "large", ["h1"], [("availability_zone", "lab")], none, none, by decide⟩,
    ⟨3, some "u3", "spare", ["h3"], [("ssd", "yes")], none, none, by decide⟩]
  uniqId := by decide
  uniqName := by decide
  uniqKey := by decide

def requestEnv : Env := ⟨60, fun _ => "u4", fun _ => by decide, "u5", 4⟩

/-- A host is added where there is no zone; a second zone for it is refused. -/
theorem one_zone_three :
    ∃ s' : Stores Unit, Run (Step undeclared (fun _ => .ok ())) ⟨threeAggregates, ()⟩
        [⟨adminContext, requestEnv, .addHostToAggregate 3 "h1"⟩,
          ⟨adminContext, requestEnv, .updateAggregateMetadata 3
            ⟨[("availability_zone", some "hall")], by decide⟩⟩] s' ∧
      s'.api.rows.map AggregateRow.hosts = [["h1", "h2"], ["h1"], ["h3", "h1"]] ∧
      Agree s'.api := by
  have hagree : Agree threeAggregates := by decide
  refine ⟨_, Run.cons rfl (Run.cons rfl (Run.nil _)), rfl, ?_⟩
  exact (one_zone noneInMain_undeclared hagree (Run.cons rfl (Run.cons rfl (Run.nil _)))).1

end PolarBear.Zones
