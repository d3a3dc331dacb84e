import PolarBear.Lib.Transition
import PolarBear.Zones.Writing

/-!
# An `Aggregate` object and its rows

`add_host`, `delete_host` and `update_metadata` write the tables first and the object
after that, or in between, in statements of their own. Here the object is part of the
state, so that what an exception leaves of it is seen (`Held`).

`_metadata_add_to_db` tries again where another transaction has inserted one of its
keys. What others insert during the attempts is an `Interference`; where every attempt
that fails is followed by another one, the call ends as it does without them.
-/

namespace PolarBear.Zones

open PolarBear.Db
open PolarBear.Fallible
open PolarBear.Transition
open PolarBear.Aggregates (Aggregate AggregateRow addHost_id)

variable {μ α : Type}

/-! ## Inserting metadata while others do -/

/-- `max_retries`. -/
def maxRetries : Nat := 10

/-- Another transaction inserts an entry; a key that is there is refused. -/
def rowInsertOther (kv : String × String) (r : AggregateRow) : AggregateRow :=
  if kv.1 ∈ Dict.keys r.metadata then r else { r with metadata := r.metadata ++ [kv] }

theorem rowInsertOther_id (kv : String × String) (r : AggregateRow) :
    (rowInsertOther kv r).id = r.id := by
  unfold rowInsertOther
  split <;> rfl

theorem rowInsertOther_name (kv : String × String) (r : AggregateRow) :
    (rowInsertOther kv r).name = r.name := by
  unfold rowInsertOther
  split <;> rfl

theorem nodup_rowInsertOther (kv : String × String) {r : AggregateRow}
    (h : (Dict.keys r.metadata).Nodup) : (Dict.keys (rowInsertOther kv r).metadata).Nodup := by
  unfold rowInsertOther
  split
  · exact h
  · next hkey =>
    have happ := Dict.nodup_keys_set kv.1 kv.2 h
    rwa [Dict.set_of_not_mem kv.2 hkey] at happ

namespace AggregateTable

def insertOther (id : Nat) (t : AggregateTable) (kv : String × String) : AggregateTable :=
  t.modify id (rowInsertOther kv) (rowInsertOther_id kv) (rowInsertOther_name kv)
    (fun _ h => nodup_rowInsertOther kv h)

/-- The metadata keys stored for an aggregate. -/
def storedKeys (t : AggregateTable) (id : Nat) : List String :=
  ((t.find? id).map (fun r => Dict.keys r.metadata)).getD []

end AggregateTable

/-- An attempt of `_metadata_add_to_db`; the others commit between its query and its insert.
On a duplicate entry it is rolled back. -/
def addAttempt (id : Nat) (metadata others : List (String × String)) (t : AggregateTable) :
    Bool × AggregateTable :=
  let alreadyExistingKeys := t.storedKeys id
  let newEntries := metadata.filter (fun kv => kv.1 ∉ alreadyExistingKeys)
  let t := others.foldl (AggregateTable.insertOther id) t
  if newEntries.any (fun kv => kv.1 ∈ t.storedKeys id) then (false, t)
  else (true, t.addMetadata id metadata false)

/-- The attempts that are left, with what the others insert during each. -/
def addAttempts (id : Nat) (metadata : List (String × String)) :
    Nat → List (List (String × String)) → AggregateTable →
      Except AggregateError Unit × AggregateTable
  | 0, _, t => (.ok (), t)
  | n + 1, others, t =>
    match addAttempt id metadata (others.headD []) t with
    | (true, t) => (.ok (), t)
    | (false, t) =>
      -- the last one raises
      if n = 0 then (.error (.nova (.dbDuplicateEntry ["key", "aggregate_id"])), t)
      else addAttempts id metadata n others.tail t

def metadataAddAmid (id : Nat) (metadata : List (String × String))
    (others : List (List (String × String))) : AggregateM μ Unit := fun s =>
  match addAttempts id metadata maxRetries others s.api with
  | (.ok (), api) => .ok () { s with api := api }
  | (.error e, api) => .error e { s with api := api }

/-! ## The object as a state -/

/-- An object, and the databases. -/
structure Held (μ : Type) where
  object : Aggregate
  stores : Stores μ

abbrev ObjectM (μ : Type) := EStateM AggregateError (Held μ)

def onStores (x : AggregateM μ α) : ObjectM μ α :=
  onPart Held.stores (fun s h => { h with stores := s }) x

def modifyObject (f : Aggregate → Aggregate) : ObjectM μ Unit :=
  modify (fun h => { h with object := f h.object })

namespace Held

variable (main : MainDatabase μ) (ctxt : Context)

/-- `Aggregate.add_host`. -/
def addHost (host : String) : ObjectM μ Unit := do
  let id := (← get).object.id
  let here ← onStores (inApi id)
  onStores (if here then onApi (hostAddToDb id host) else onMain (main.hostAdd ctxt id host))
  modifyObject (fun a => { a with hosts := a.hosts ++ [host] })

/-- `Aggregate.delete_host`. -/
def deleteHost (host : String) : ObjectM μ Unit := do
  let id := (← get).object.id
  let here ← onStores (inApi id)
  onStores (if here then onApi (hostDeleteFromDb id host)
    else onMain (main.hostDelete ctxt id host))
  if host ∈ (← get).object.hosts then
    modifyObject (fun a => { a with hosts := a.hosts.erase host })
  else throw (.nova (.valueError "list.remove(x): x not in list"))

/-- A round of the loop of `update_metadata`. -/
def updateEntry (here : Bool) (kv : String × Option String) : ObjectM μ Unit := do
  let id := (← get).object.id
  match kv.2 with
  | some _ => pure ()
  | none => onStores (tryCatch
      (if here then onApi (metadataDeleteFromDb id kv.1)
        else onMain (main.metadataDelete ctxt id kv.1))
      exceptMetadataNotFound)
  modifyObject (fun a => { a with metadata := withEntry a.metadata kv })

/-- `Aggregate.update_metadata`. -/
def updateMetadata (others : List (List (String × String)))
    (updates : List (String × Option String)) : ObjectM μ Unit := do
  let id := (← get).object.id
  let here ← onStores (inApi id)
  updates.forM (updateEntry main ctxt here)
  onStores (if here then metadataAddAmid id (toAdd updates) others
    else onMain (main.metadataAdd ctxt id (toAdd updates)))

end Held

/-! ## A run of calls -/

/-- What others insert while an update is written: in each of the attempts entries of its keys.
The attempts that fail are tried again, so there are fewer of these than attempts. -/
structure Interference (updates : List (String × Option String)) where
  attempts : List (List (String × String))
  keys : ∀ others ∈ attempts, ∀ kv ∈ others, kv.1 ∈ Dict.keys (toAdd updates)
  retried : attempts.length < maxRetries

def Interference.none (updates : List (String × Option String)) : Interference updates where
  attempts := []
  keys := fun _ h => absurd h List.not_mem_nil
  retried := Nat.zero_lt_succ 9

inductive ObjectCall where
  | addHost (host : String)
  | deleteHost (host : String)
  | updateMetadata (updates : Values) (others : Interference updates.entries)

section

variable (main : MainDatabase μ) (ctxt : Context)

def ObjectCall.perform : ObjectCall → ObjectM μ Unit
  | .addHost host => Held.addHost main ctxt host
  | .deleteHost host => Held.deleteHost main ctxt host
  | .updateMetadata updates others =>
    Held.updateMetadata main ctxt others.attempts updates.entries

/-- The object and the databases after a call, whether it returned or raised. -/
def after (h : Held μ) (call : ObjectCall) : Held μ := endState ((call.perform main ctxt).run h)

end

/-- An object has the hosts and the metadata of a row. -/
structure MirrorsRow (a : Aggregate) (r : AggregateRow) : Prop where
  nodup : a.hosts.Nodup
  hosts : ∀ host, host ∈ a.hosts ↔ host ∈ r.hosts
  metadata : ∀ key, a.metadata.lookup key = r.metadata.lookup key

def Mirrored (h : Held μ) : Prop :=
  ∃ r, h.stores.api.find? h.object.id = some r ∧ MirrorsRow h.object r

/-- What a key of the metadata is after a call. -/
def ObjectCall.metadataAfter (key : String) (before : Option String) : ObjectCall → Option String
  | .updateMetadata updates _ => (updates.entries.lookup key).getD before
  | _ => before

/-- The same row, but for the order of the metadata. -/
def SameRow (r r' : AggregateRow) : Prop :=
  ∃ metadata, r' = { r with metadata := metadata } ∧
    ∀ key, metadata.lookup key = r.metadata.lookup key

structure SameState (h h' : Held μ) : Prop where
  object : h.object = h'.object
  main : h.stores.main = h'.stores.main
  rows : ∀ id, Option.Rel SameRow (h.stores.api.find? id) (h'.stores.api.find? id)

/-- What a call does to an object and its rows. -/
structure CallMirrors (main : MainDatabase μ) (ctxt : Context) (h : Held μ) (call : ObjectCall) :
    Prop where
  mirrored : Mirrored (after main ctxt h call)
  metadata : ∀ r r', h.stores.api.find? h.object.id = some r →
    (after main ctxt h call).stores.api.find? h.object.id = some r' →
      ∀ key, r'.metadata.lookup key = call.metadataAfter key (r.metadata.lookup key)
  others : ∀ id, id ≠ h.object.id →
    (after main ctxt h call).stores.api.find? id = h.stores.api.find? id
  raised : ∀ e h', (call.perform main ctxt).run h = .error e h' →
    (∃ host, e = .nova (.aggregateHostExists host h.object.id) ∨
      e = .aggregateHostNotFound host h.object.id) ∧ h' = h
  retried : ∀ updates others, call = .updateMetadata updates others →
    SameState (after main ctxt h (.updateMetadata updates (.none updates.entries)))
      (after main ctxt h call)

/-! ## The attempts -/

section

variable {t : AggregateTable} {id : Nat} {r : AggregateRow} {metadata : List (String × String)}

/-- What others insert is of the keys they insert. -/
theorem insertOthers {metadata : List (String × String)} :
    ∀ (others : List (String × String)) {t : AggregateTable} {r : AggregateRow},
      (∀ kv ∈ others, kv.1 ∈ Dict.keys metadata) → t.find? id = some r →
      ∃ m, Changes t (others.foldl (AggregateTable.insertOther id) t) id
          { r with metadata := m } ∧
        ∀ key, key ∉ Dict.keys metadata → m.lookup key = r.metadata.lookup key
  | [], t, r, _, hr => ⟨r.metadata, Changes.refl hr, fun _ _ => rfl⟩
  | kv :: others, t, r, hkeys, hr => by
    have hone : ∃ m, rowInsertOther kv r = { r with metadata := m } ∧
        ∀ key, key ≠ kv.1 → m.lookup key = r.metadata.lookup key := by
      unfold rowInsertOther
      split
      · exact ⟨r.metadata, rfl, fun _ _ => rfl⟩
      · next hkey =>
        refine ⟨r.metadata ++ [kv], rfl, fun key hne => ?_⟩
        have hset := Dict.lookup_set_ne hne kv.2 r.metadata
        rwa [Dict.set_of_not_mem kv.2 hkey] at hset
    obtain ⟨m₁, hrow, hm₁⟩ := hone
    have hfirst : Changes t (t.insertOther id kv) id { r with metadata := m₁ } := by
      rw [← hrow]
      exact changes_of_map (rowInsertOther_id kv) rfl hr
    obtain ⟨m, hchanges, hm⟩ := insertOthers others
      (fun other hother => hkeys other (List.mem_cons_of_mem _ hother)) hfirst.row
    refine ⟨m, hfirst.trans hchanges, fun key hkey => ?_⟩
    rw [hm key hkey]
    exact hm₁ key (fun heq => hkey (heq ▸ hkeys kv (List.mem_cons_self ..)))

/-- An update does not see what its own keys were before. -/
theorem lookup_update_congr {d d' : List (String × String)}
    (hnodup : (Dict.keys metadata).Nodup)
    (h : ∀ key, key ∉ Dict.keys metadata → d.lookup key = d'.lookup key) (key : String) :
    (Dict.update d metadata).lookup key = (Dict.update d' metadata).lookup key := by
  by_cases hkey : key ∈ Dict.keys metadata
  · obtain ⟨value, hvalue⟩ := (Dict.mem_keys_iff _ _).mp hkey
    rw [Dict.lookup_update_of_lookup hnodup hvalue, Dict.lookup_update_of_lookup hnodup hvalue]
  · rw [Dict.lookup_update_of_notMem hkey, Dict.lookup_update_of_notMem hkey, h key hkey]

/-- **The attempts end as one would** that nobody disturbed, if those that fail are fewer. -/
theorem addAttempts_ok (hnodup : (Dict.keys metadata).Nodup) :
    ∀ (n : Nat) (others : List (List (String × String))) {t : AggregateTable} {r : AggregateRow},
      others.length < n → (∀ rows ∈ others, ∀ kv ∈ rows, kv.1 ∈ Dict.keys metadata) →
      t.find? id = some r →
      ∃ api m, addAttempts id metadata n others t = (.ok (), api) ∧
        Changes t api id { r with metadata := m } ∧
        ∀ key, m.lookup key = (Dict.update r.metadata metadata).lookup key
  | n + 1, others, t, r, hlength, hkeys, hr => by
    have hhead : ∀ kv ∈ others.headD [], kv.1 ∈ Dict.keys metadata := by
      cases others with
      | nil => exact fun kv hkv => absurd hkv List.not_mem_nil
      | cons rows others => exact hkeys rows (List.mem_cons_self ..)
    obtain ⟨m₁, hinserted, hm₁⟩ := insertOthers (others.headD []) hhead hr
    cases hattempt : addAttempt id metadata (others.headD []) t with
    | mk done api =>
      have hsteps : addAttempts id metadata (n + 1) others t =
          match (done, api) with
          | (true, t) => (.ok (), t)
          | (false, t) =>
            if n = 0 then (.error (.nova (.dbDuplicateEntry ["key", "aggregate_id"])), t)
            else addAttempts id metadata n others.tail t := by
        rw [← hattempt]
        rfl
      rw [hsteps]
      unfold addAttempt at hattempt
      dsimp only at hattempt
      split at hattempt
      · next hany =>
        cases hattempt
        dsimp only
        have hothers : others ≠ [] := by
          rintro rfl
          obtain ⟨kv, hkv, hstored⟩ := List.any_eq_true.mp hany
          exact of_decide_eq_true (List.mem_filter.mp hkv).2 (of_decide_eq_true hstored)
        obtain ⟨rows, rest, rfl⟩ := List.exists_cons_of_ne_nil hothers
        rw [List.length_cons] at hlength
        rw [if_neg (by omega)]
        obtain ⟨api, m, hrun, hchanges, hm⟩ := addAttempts_ok hnodup n rest (by omega)
          (fun rows hrows => hkeys rows (List.mem_cons_of_mem _ hrows)) hinserted.row
        refine ⟨api, m, hrun, hinserted.trans hchanges, fun key => ?_⟩
        rw [hm key]
        exact lookup_update_congr hnodup hm₁ key
      · cases hattempt
        have hadded : Changes _ (((others.headD []).foldl (AggregateTable.insertOther id)
            t).addMetadata id metadata false) id { r with metadata := Dict.update m₁ metadata } :=
          changes_of_map (f := rowAddMetadata metadata false) (fun _ => rfl) rfl hinserted.row
        exact ⟨_, _, rfl, hinserted.trans hadded, fun key => lookup_update_congr hnodup hm₁ key⟩

end

/-! ## The calls on the object -/

section

variable {h : Held μ} (main : MainDatabase μ) (ctxt : Context) {r : AggregateRow}

theorem run_onStores (x : AggregateM μ α) (h : Held μ) :
    (onStores x).run h = match x.run h.stores with
      | .ok a s => .ok a { h with stores := s }
      | .error e s => .error e { h with stores := s } := by
  unfold onStores
  rw [run_onPart]
  cases x.run h.stores <;> rfl

theorem run_metadataAddAmid {s : Stores μ} {id : Nat} {metadata : List (String × String)}
    {others : List (List (String × String))} {api : AggregateTable}
    (hattempts : addAttempts id metadata maxRetries others s.api = (.ok (), api)) :
    (metadataAddAmid id metadata others).run s = .ok () { s with api := api } := by
  unfold metadataAddAmid EStateM.run
  dsimp only
  rw [hattempts]

theorem run_here (hr : h.stores.api.find? h.object.id = some r) :
    (onStores (inApi h.object.id)).run h = .ok true h := by
  rw [run_onStores, run_inApi hr]

/-- A host is added to the row and to the object, or neither changes. -/
theorem run_addHost (hr : h.stores.api.find? h.object.id = some r) (host : String) :
    (Held.addHost main ctxt host).run h =
      if host ∈ r.hosts then .error (.nova (.aggregateHostExists host h.object.id)) h
      else .ok () { h with
        object := { h.object with hosts := h.object.hosts ++ [host] }
        stores := { h.stores with api := h.stores.api.addHost h.object.id host } } := by
  unfold Held.addHost
  rw [EStateM.run_bind, EStateM.run_get]
  dsimp only
  rw [run_bind_ok (run_here hr), if_pos rfl]
  split
  · next hhost =>
    have hadd : hostAddToDb h.object.id host h.stores.api =
        .error (.nova (.aggregateHostExists host h.object.id)) := by
      unfold hostAddToDb
      rw [AggregateTable.get_of_find hr]
      exact if_pos hhost
    refine run_bind_error ?_
    rw [run_onStores, run_onApi_error hadd]
  · next hhost =>
    have hadd : hostAddToDb h.object.id host h.stores.api =
        .ok ((), h.stores.api.addHost h.object.id host) := by
      unfold hostAddToDb
      rw [AggregateTable.get_of_find hr]
      exact if_neg hhost
    have hstores : (onStores (onApi (hostAddToDb h.object.id host))).run h =
        .ok () { h with stores :=
          { h.stores with api := h.stores.api.addHost h.object.id host } } := by
      rw [run_onStores, run_onApi_ok hadd]
    rw [run_bind_ok hstores]
    rfl

/-- A host is taken out of the row and of the object, or neither changes. -/
theorem run_deleteHost (hr : h.stores.api.find? h.object.id = some r)
    (hmirrors : MirrorsRow h.object r) (host : String) :
    (Held.deleteHost main ctxt host).run h =
      if host ∈ r.hosts then .ok () { h with
        object := { h.object with hosts := h.object.hosts.erase host }
        stores := { h.stores with api := h.stores.api.removeHost h.object.id host } }
      else .error (.aggregateHostNotFound host h.object.id) h := by
  unfold Held.deleteHost
  rw [EStateM.run_bind, EStateM.run_get]
  dsimp only
  rw [run_bind_ok (run_here hr), if_pos rfl]
  split
  · next hhost =>
    have hdelete : hostDeleteFromDb h.object.id host h.stores.api =
        .ok ((), h.stores.api.removeHost h.object.id host) := by
      unfold hostDeleteFromDb
      rw [AggregateTable.get_of_find hr]
      exact if_pos hhost
    have hstores : (onStores (onApi (hostDeleteFromDb h.object.id host))).run h =
        .ok () { h with stores :=
          { h.stores with api := h.stores.api.removeHost h.object.id host } } := by
      rw [run_onStores, run_onApi_ok hdelete]
    rw [run_bind_ok hstores, EStateM.run_bind, EStateM.run_get]
    dsimp only
    rw [if_pos ((hmirrors.hosts host).mpr hhost)]
    rfl
  · next hhost =>
    have hdelete : hostDeleteFromDb h.object.id host h.stores.api =
        .error (.aggregateHostNotFound host h.object.id) := by
      unfold hostDeleteFromDb
      rw [AggregateTable.get_of_find hr]
      exact if_neg hhost
    refine run_bind_error ?_
    rw [run_onStores, run_onApi_error hdelete]

/-- A round of the loop does to the object what it does where the object is a value. -/
theorem run_heldEntry {kv : String × Option String}
    {a : Aggregate} {s s' : Stores μ}
    (hrun : (updateEntry main ctxt true a kv).run s =
      .ok { a with metadata := withEntry a.metadata kv } s') :
    (Held.updateEntry main ctxt true kv).run ⟨a, s⟩ =
      .ok () ⟨{ a with metadata := withEntry a.metadata kv }, s'⟩ := by
  obtain ⟨key, value⟩ := kv
  cases value with
  | some value =>
    cases hrun
    rfl
  | none =>
    unfold updateEntry at hrun
    obtain ⟨_, s₁, hdelete, hpure⟩ := run_bind_ok_iff.mp hrun
    cases hpure
    unfold Held.updateEntry
    rw [EStateM.run_bind, EStateM.run_get]
    dsimp only
    have hstores : (onStores (tryCatch (onApi (metadataDeleteFromDb a.id key))
        exceptMetadataNotFound)).run ⟨a, s⟩ = .ok () ⟨a, s'⟩ := by
      rw [run_onStores]
      dsimp only
      rw [if_pos rfl] at hdelete
      rw [hdelete]
    rw [if_pos rfl, run_bind_ok hstores]
    rfl

theorem run_heldEntries :
    ∀ (entries : List (String × Option String)) (a : Aggregate) (s : Stores μ) (r : AggregateRow),
      s.api.find? a.id = some r →
      ∃ api, (entries.forM (Held.updateEntry main ctxt true)).run ⟨a, s⟩ =
          .ok () ⟨{ a with metadata := entries.foldl withEntry a.metadata },
            { s with api := api }⟩ ∧
        Changes s.api api a.id { r with metadata := remaining entries r.metadata }
  | [], a, s, r, hr => by
    rw [remaining_nil]
    exact ⟨s.api, rfl, Changes.refl hr⟩
  | kv :: entries, a, s, r, hr => by
    obtain ⟨api₁, hrun₁, hchanges₁⟩ := run_updateEntry main ctxt a kv hr
    obtain ⟨api₂, hrun₂, hchanges₂⟩ :=
      run_heldEntries entries { a with metadata := withEntry a.metadata kv }
        { s with api := api₁ } { r with metadata := remaining [kv] r.metadata } hchanges₁.row
    refine ⟨api₂, ?_, ?_⟩
    · show (Held.updateEntry main ctxt true kv >>= fun _ =>
        entries.forM (Held.updateEntry main ctxt true)).run ⟨a, s⟩ = _
      rw [run_bind_ok (run_heldEntry main ctxt hrun₁), hrun₂]
      rfl
    · rw [← remaining_cons]
      exact hchanges₁.trans hchanges₂

/-- The metadata of the object after an update. -/
theorem lookup_withEntries : ∀ {entries : List (String × Option String)},
    (Dict.keys entries).Nodup → ∀ (metadata : List (String × String)) (key : String),
      (entries.foldl withEntry metadata).lookup key =
        (entries.lookup key).getD (metadata.lookup key)
  | [], _, _, _ => rfl
  | (k, value) :: entries, hnodup, metadata, key => by
    rw [Dict.keys_cons, List.nodup_cons] at hnodup
    rw [List.foldl_cons, lookup_withEntries hnodup.2]
    by_cases hkey : k = key
    · subst hkey
      have habsent : entries.lookup k = none := by
        cases hlookup : entries.lookup k with
        | none => rfl
        | some v => exact absurd ((Dict.mem_keys_iff k entries).mpr ⟨v, hlookup⟩) hnodup.1
      rw [habsent, List.lookup_cons_self]
      cases value with
      | some value => exact Dict.lookup_set_self k value metadata
      | none =>
        show (metadata.filter (fun entry => entry.1 != k)).lookup k = none
        rw [← remaining_none, lookup_remaining, if_pos (List.mem_singleton.mpr rfl)]
    · rw [Dict.lookup_cons_ne hkey]
      congr 1
      cases value with
      | some value => exact Dict.lookup_set_ne (Ne.symm hkey) value metadata
      | none =>
        exact Dict.lookup_filter_key (p := fun k' => k' != k) (bne_iff_ne.mpr (Ne.symm hkey))
          metadata

/-- **An update** sets the metadata of the row and of the object alike. -/
theorem run_heldUpdate (updates : Values) (others : Interference updates.entries)
    (hr : h.stores.api.find? h.object.id = some r) :
    ∃ api m, ((ObjectCall.updateMetadata updates others).perform main ctxt).run h =
        .ok () ⟨{ h.object with metadata := updates.entries.foldl withEntry h.object.metadata },
          { h.stores with api := api }⟩ ∧
      Changes h.stores.api api h.object.id { r with metadata := m } ∧
      ∀ key, m.lookup key = (updates.entries.lookup key).getD (r.metadata.lookup key) := by
  obtain ⟨api₁, hrun₁, hchanges₁⟩ :=
    run_heldEntries main ctxt updates.entries h.object h.stores r hr
  obtain ⟨api, m, hrun, hchanges, hm⟩ :=
    addAttempts_ok (updates.nodup.sublist (keys_toAdd_sublist updates.entries)) maxRetries
      others.attempts others.retried others.keys hchanges₁.row
  refine ⟨api, m, ?_, hchanges₁.trans hchanges, fun key => ?_⟩
  · have hadd : (metadataAddAmid h.object.id (toAdd updates.entries) others.attempts).run
        ({ h.stores with api := api₁ } : Stores μ) = .ok () { h.stores with api := api } :=
      run_metadataAddAmid hrun
    show (Held.updateMetadata main ctxt others.attempts updates.entries).run h = _
    unfold Held.updateMetadata
    rw [EStateM.run_bind, EStateM.run_get]
    dsimp only
    rw [run_bind_ok (run_here hr), run_bind_ok hrun₁, if_pos rfl, run_onStores, hadd]
  · rw [hm key]
    exact lookup_updated updates.nodup r.metadata key

/-! ## One call -/

/-- A call that returns: it has changed the row of the object, and the object with it. -/
structure Writes (call : ObjectCall) (h h' : Held μ) (r r' : AggregateRow) : Prop where
  id : h'.object.id = h.object.id
  changes : Changes h.stores.api h'.stores.api h.object.id r'
  mirrors : MirrorsRow h'.object r'
  metadata : ∀ key, r'.metadata.lookup key = call.metadataAfter key (r.metadata.lookup key)

theorem mirrorsRow_addHost {a : Aggregate} {host : String} (hmirrors : MirrorsRow a r)
    (hhost : host ∉ r.hosts) :
    MirrorsRow { a with hosts := a.hosts ++ [host] } (r.addHost host) := by
  have hrow : r.addHost host = { r with
      hosts := r.hosts ++ [host]
      hosts_nodup := List.nodup_append.mpr ⟨r.hosts_nodup, List.nodup_singleton _,
        fun _ ha _ hb he => hhost (List.mem_singleton.mp hb ▸ he ▸ ha)⟩ } := by
    unfold AggregateRow.addHost
    rw [dif_neg hhost]
  rw [hrow]
  refine ⟨?_, fun host' => ?_, hmirrors.metadata⟩
  · refine List.nodup_append.mpr ⟨hmirrors.nodup, List.nodup_singleton _, ?_⟩
    intro other hother new hnew heq
    rw [heq, List.mem_singleton.mp hnew, hmirrors.hosts] at hother
    exact hhost hother
  · rw [List.mem_append, List.mem_append, hmirrors.hosts]

theorem mirrorsRow_removeHost {a : Aggregate} (host : String) (hmirrors : MirrorsRow a r) :
    MirrorsRow { a with hosts := a.hosts.erase host } (rowRemoveHost host r) := by
  refine ⟨hmirrors.nodup.erase host, fun host' => ?_, hmirrors.metadata⟩
  show host' ∈ a.hosts.erase host ↔ host' ∈ r.hosts.erase host
  rw [hmirrors.nodup.mem_erase_iff, r.hosts_nodup.mem_erase_iff, hmirrors.hosts]

/-- **A call** writes the row and the object alike, or raises because of a host and changes
neither. -/
theorem perform_cases (hr : h.stores.api.find? h.object.id = some r)
    (hmirrors : MirrorsRow h.object r) (call : ObjectCall) :
    (∃ h' r', (call.perform main ctxt).run h = .ok () h' ∧ Writes call h h' r r') ∨
      ∃ e, (call.perform main ctxt).run h = .error e h ∧
        (∃ host, e = .nova (.aggregateHostExists host h.object.id) ∨
          e = .aggregateHostNotFound host h.object.id) ∧
        ∀ key before, call.metadataAfter key before = before := by
  cases call with
  | addHost host =>
    have hrun := run_addHost main ctxt hr host
    by_cases hhost : host ∈ r.hosts
    · rw [if_pos hhost] at hrun
      exact .inr ⟨_, hrun, ⟨host, .inl rfl⟩, fun _ _ => rfl⟩
    · rw [if_neg hhost] at hrun
      refine .inl ⟨_, r.addHost host, hrun, rfl, ?_, mirrorsRow_addHost hmirrors hhost, ?_⟩
      · exact changes_of_map (addHost_id host) rfl hr
      · intro key
        rw [addHost_metadata]
        rfl
  | deleteHost host =>
    have hrun := run_deleteHost main ctxt hr hmirrors host
    by_cases hhost : host ∈ r.hosts
    · rw [if_pos hhost] at hrun
      refine .inl ⟨_, rowRemoveHost host r, hrun, rfl, ?_, mirrorsRow_removeHost host hmirrors, ?_⟩
      · exact changes_of_map (fun _ => rfl) rfl hr
      · exact fun _ => rfl
    · rw [if_neg hhost] at hrun
      exact .inr ⟨_, hrun, ⟨host, .inr rfl⟩, fun _ _ => rfl⟩
  | updateMetadata updates others =>
    obtain ⟨api, m, hrun, hchanges, hm⟩ :=
      run_heldUpdate main ctxt updates others hr
    refine .inl ⟨_, { r with metadata := m }, hrun, rfl, hchanges, ?_, hm⟩
    refine ⟨hmirrors.nodup, hmirrors.hosts, fun key => ?_⟩
    show (updates.entries.foldl withEntry h.object.metadata).lookup key = m.lookup key
    rw [hm key, lookup_withEntries updates.nodup, hmirrors.metadata]

theorem after_ok {call : ObjectCall} {h' : Held μ}
    (hrun : (call.perform main ctxt).run h = .ok () h') : after main ctxt h call = h' := by
  unfold after
  rw [hrun]
  rfl

theorem after_error {call : ObjectCall} {e : AggregateError} {h' : Held μ}
    (hrun : (call.perform main ctxt).run h = .error e h') : after main ctxt h call = h' := by
  unfold after
  rw [hrun]
  rfl

/-- What others insert meanwhile does not show. -/
theorem sameState_update (hr : h.stores.api.find? h.object.id = some r) (updates : Values)
    (others : Interference updates.entries) :
    SameState (after main ctxt h (.updateMetadata updates (.none updates.entries)))
      (after main ctxt h (.updateMetadata updates others)) := by
  obtain ⟨api₁, m₁, hrun₁, hchanges₁, hm₁⟩ :=
    run_heldUpdate main ctxt updates (.none updates.entries) hr
  obtain ⟨api₂, m₂, hrun₂, hchanges₂, hm₂⟩ :=
    run_heldUpdate main ctxt updates others hr
  rw [after_ok main ctxt hrun₁,
    after_ok main ctxt hrun₂]
  refine ⟨rfl, rfl, fun id => ?_⟩
  by_cases hid : id = h.object.id
  · rw [hid]
    dsimp only
    rw [hchanges₁.row, hchanges₂.row]
    exact .some ⟨m₂, rfl, fun key => (hm₂ key).trans (hm₁ key).symm⟩
  · dsimp only
    rw [hchanges₁.others id hid, hchanges₂.others id hid]
    cases h.stores.api.find? id with
    | none => exact .none
    | some q => exact .some ⟨q.metadata, rfl, fun _ => rfl⟩

theorem callMirrors (hmirrored : Mirrored h) (call : ObjectCall) :
    CallMirrors main ctxt h call := by
  obtain ⟨r, hr, hmirrors⟩ := hmirrored
  have hretried : ∀ updates others, call = .updateMetadata updates others →
      SameState (after main ctxt h (.updateMetadata updates (.none updates.entries)))
        (after main ctxt h call) := by
    intro updates others hcall
    rw [hcall]
    exact sameState_update main ctxt hr updates others
  rcases perform_cases main ctxt hr hmirrors call with
    ⟨h', r', hrun, hwrites⟩ | ⟨e, hrun, hhost, hkeeps⟩
  · have hafter := after_ok main ctxt hrun
    refine ⟨?_, ?_, ?_, ?_, hretried⟩
    · rw [hafter]
      exact ⟨r', hwrites.id ▸ hwrites.changes.row, hwrites.mirrors⟩
    · intro q q' hq hq' key
      rw [hr] at hq
      rw [hafter, hwrites.changes.row] at hq'
      cases hq
      cases hq'
      exact hwrites.metadata key
    · intro id hid
      rw [hafter]
      exact hwrites.changes.others id hid
    · intro e' h₁ herror
      rw [hrun] at herror
      cases herror
  · have hafter := after_error main ctxt hrun
    refine ⟨?_, ?_, ?_, ?_, hretried⟩
    · rw [hafter]
      exact ⟨r, hr, hmirrors⟩
    · intro q q' hq hq' key
      rw [hafter, hq] at hq'
      cases hq'
      exact (hkeeps key _).symm
    · intro id hid
      rw [hafter]
    · intro e' h₁ herror
      rw [hrun] at herror
      cases herror
      exact ⟨hhost, rfl⟩

end

/-! ## A run -/

/-- An object that has just been loaded. -/
theorem mirrored_getById {main : MainDatabase μ} {ctxt : Context} {env : Env} {s₀ s : Stores μ}
    {id : Nat} {r : AggregateRow} {a : Aggregate} (hr : s₀.api.find? id = some r)
    (hload : (getById main ctxt env id).run s₀ = .ok a s) : Mirrored ⟨a, s⟩ := by
  obtain ⟨a', hrun, hshows⟩ := @run_getById μ main ctxt env s₀ r id hr
  rw [hload] at hrun
  cases hrun
  have hid : r.id = id := ((s₀.api.find?_iff).mp hr).2
  refine ⟨rowBackfill env r, ?_, ?_, ?_, ?_⟩
  · show (s₀.api.backfill env id).find? a.id = _
    rw [hshows.id, hid, AggregateTable.find?_backfill, if_pos rfl, hr]
    rfl
  · rw [hshows.hosts]
    exact r.hosts_nodup
  · intro host
    rw [hshows.hosts, rowBackfill_hosts]
  · intro key
    have hkeys := s₀.api.uniqKey r ((s₀.api.find?_iff).mp hr).1
    rw [hshows.metadata, rowBackfill_metadata]
    unfold Aggregates.AggregateRow.metadetails
    rw [Dict.update_nil hkeys]

/-- **An object mirrors its rows** along every run of calls, from where it was loaded from the
API database. -/
theorem object_mirrors (main : MainDatabase μ) (ctxt : Context) {env : Env} {s₀ s : Stores μ}
    {id : Nat} {r : AggregateRow} {a : Aggregate} (hr : s₀.api.find? id = some r)
    (hload : (getById main ctxt env id).run s₀ = .ok a s) {calls : List ObjectCall} {h : Held μ}
    (hrun : Run (fun call h h' => h' = after main ctxt h call) ⟨a, s⟩ calls h) :
    Mirrored h ∧ ∀ call, CallMirrors main ctxt h call := by
  have hmirrored : Mirrored h := by
    refine Run.invariant (fun call h h' hbefore hstep => ?_) hrun (mirrored_getById hr hload)
    rw [hstep]
    exact (callMirrors main ctxt hbefore call).mirrored
  exact ⟨hmirrored, callMirrors main ctxt hmirrored⟩

theorem ssdHosts_nodup : ["h1"].Nodup := by decide

/-- An aggregate with one host and one key. -/
def ssdAggregate : AggregateTable where
  rows := [⟨1, some "u1", "fast", ["h1"], [("disk", "ssd")], none, none, ssdHosts_nodup⟩]
  uniqId := List.nodup_singleton _
  uniqName := List.nodup_singleton _
  uniqKey := by decide

theorem loadUuid_ne : ∀ _ : Nat, "u2" ≠ "" := fun _ => by decide

def loadEnv : Env := ⟨60, fun _ => "u2", loadUuid_ne, "u3", 2⟩

/-- The disk is taken out, and a rack is set. -/
def rackUpdate : Values where
  entries := [("disk", none), ("rack", some "r7")]
  nodup := by decide

/-- Another transaction sets the rack during the first attempt. -/
def otherRack : Interference rackUpdate.entries where
  attempts := [[("rack", "r1")]]
  keys := by decide
  retried := by decide

/-- The object of the aggregate. -/
def ssdObject : Aggregate :=
  ⟨1, "u1", "fast", ["h1"], [("disk", "ssd")], none, none, none, false⟩

theorem object_mirrors_ssd :
    ∃ h, Run (fun call h h' => h' = after undeclared adminContext h call)
        ⟨ssdObject, ⟨ssdAggregate, ()⟩⟩
        [.addHost "h2", .addHost "h1", .updateMetadata rackUpdate otherRack] h ∧
      h.object.hosts = ["h1", "h2"] ∧ h.object.metadata = [("rack", "r7")] ∧
      Mirrored h ∧ ∀ call, CallMirrors undeclared adminContext h call := by
  have hrow : ∃ r, ssdAggregate.find? 1 = some r := ⟨_, rfl⟩
  obtain ⟨r, hr⟩ := hrow
  have hload : (getById undeclared adminContext loadEnv 1).run ⟨ssdAggregate, ()⟩ =
    .ok ssdObject ⟨ssdAggregate, ()⟩ := rfl
  refine ⟨_, .cons rfl (.cons rfl (.cons rfl (.nil _))), rfl, rfl, ?_⟩
  exact object_mirrors undeclared adminContext hr hload
    (.cons rfl (.cons rfl (.cons rfl (.nil _))))

end PolarBear.Zones
