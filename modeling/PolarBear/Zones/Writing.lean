import PolarBear.Zones.Reading

/-!
# What the calls on aggregates write

A call writes one aggregate (`Changes`). Once it was found in the API database,
setting its metadata does not raise: a key to delete that is not there is passed
over (`run_updateMetadata`). A name is refused if it is `None` or another aggregate
has it (`NameRefused`).
-/

namespace PolarBear.Zones

open PolarBear.Db
open PolarBear.Fallible
open PolarBear.Aggregates (Aggregate AggregateRow addHost_id addHost_name)

variable {μ : Type} {main : MainDatabase μ} {ctxt : Context} {env : Env} {s : Stores μ}
  {r : AggregateRow}

/-- The row with an id is now `r'`, and no other row has changed. -/
structure Changes (t t' : AggregateTable) (id : Nat) (r' : AggregateRow) : Prop where
  row : t'.find? id = some r'
  others : ∀ id', id' ≠ id → t'.find? id' = t.find? id'

theorem Changes.refl {t : AggregateTable} {id : Nat} (h : t.find? id = some r) :
    Changes t t id r := ⟨h, fun _ _ => rfl⟩

theorem Changes.trans {t t' t'' : AggregateTable} {id : Nat} {r' r'' : AggregateRow}
    (h : Changes t t' id r') (h' : Changes t' t'' id r'') : Changes t t'' id r'' :=
  ⟨h'.row, fun id' hne => (h'.others id' hne).trans (h.others id' hne)⟩

/-- A change of the row with an id. -/
theorem changes_of_map {t t' : AggregateTable} {id : Nat} {f : AggregateRow → AggregateRow}
    (hf : ∀ r, (f r).id = r.id)
    (hrows : t'.rows = t.rows.map (fun r => if r.id == id then f r else r))
    (h : t.find? id = some r) : Changes t t' id (f r) := by
  constructor
  · rw [AggregateTable.find?_of_map hf hrows, if_pos rfl, h]
    rfl
  · intro id' hne
    rw [AggregateTable.find?_of_map hf hrows, if_neg hne]

/-! ## Metadata -/

/-- What an entry of an update does to the metadata of the object. -/
def withEntry (metadata : List (String × String)) (kv : String × Option String) :
    List (String × String) :=
  match kv.2 with
  | some value => Dict.set kv.1 value metadata
  | none => metadata.filter (fun entry => entry.1 != kv.1)

/-- The stored entries that the loop of an update leaves. -/
def remaining (entries : List (String × Option String)) (metadata : List (String × String)) :
    List (String × String) :=
  metadata.filter (fun kv => decide ((kv.1, none) ∉ entries))

theorem remaining_nil (metadata : List (String × String)) : remaining [] metadata = metadata :=
  List.filter_eq_self.mpr (fun _ _ => decide_eq_true List.not_mem_nil)

theorem remaining_cons (kv : String × Option String) (entries : List (String × Option String))
    (metadata : List (String × String)) :
    remaining entries (remaining [kv] metadata) = remaining (kv :: entries) metadata := by
  unfold remaining
  rw [List.filter_filter]
  refine List.filter_congr (fun entry _ => ?_)
  rw [← Bool.decide_and]
  simp only [List.mem_cons, List.not_mem_nil, or_false, not_or, and_comm]

theorem remaining_some (key value : String) (metadata : List (String × String)) :
    remaining [(key, some value)] metadata = metadata :=
  List.filter_eq_self.mpr (fun _ _ => decide_eq_true (by simp))

theorem remaining_none (key : String) (metadata : List (String × String)) :
    remaining [(key, none)] metadata = metadata.filter (fun entry => entry.1 != key) := by
  refine List.filter_congr (fun entry _ => ?_)
  rw [Bool.eq_iff_iff, decide_eq_true_iff, bne_iff_ne, List.mem_singleton, Prod.mk.injEq]
  exact not_congr (and_iff_left rfl)

/-- A key that is not there takes nothing out. -/
theorem filter_of_notMem {key : String} {metadata : List (String × String)}
    (h : key ∉ Dict.keys metadata) : metadata.filter (fun entry => entry.1 != key) = metadata :=
  List.filter_eq_self.mpr (fun _ hentry =>
    bne_iff_ne.mpr (fun heq => h (heq ▸ List.mem_map_of_mem hentry)))

theorem lookup_remaining (entries : List (String × Option String)) (key : String)
    (metadata : List (String × String)) :
    (remaining entries metadata).lookup key =
      if (key, none) ∈ entries then none else metadata.lookup key := by
  unfold remaining
  split
  · next h =>
    refine List.lookup_eq_none_iff.mpr (fun kv hkv => ?_)
    have hne := of_decide_eq_true (List.mem_filter.mp hkv).2
    rw [bne_iff_ne]
    exact fun heq => hne (heq ▸ h)
  · next h =>
    exact Dict.lookup_filter_key (p := fun k => decide ((k, none) ∉ entries))
      (decide_eq_true h) metadata

/-- One entry of an update: its key is deleted if it has no value. -/
theorem run_updateEntry (main : MainDatabase μ) (ctxt : Context) (a : Aggregate)
    (kv : String × Option String) (hr : s.api.find? a.id = some r) :
    ∃ api, (updateEntry main ctxt true a kv).run s =
        .ok { a with metadata := withEntry a.metadata kv } { s with api := api } ∧
      Changes s.api api a.id { r with metadata := remaining [kv] r.metadata } := by
  obtain ⟨key, value⟩ := kv
  cases value with
  | some value =>
    rw [remaining_some]
    exact ⟨s.api, rfl, Changes.refl hr⟩
  | none =>
    rw [remaining_none]
    -- a key that is not there is not found, and that is caught
    by_cases hkey : key ∈ Dict.keys r.metadata
    · have hdelete : metadataDeleteFromDb a.id key s.api = .ok ((), s.api.removeKey a.id key) := by
        unfold metadataDeleteFromDb
        rw [AggregateTable.get_of_find hr]
        exact if_pos hkey
      refine ⟨s.api.removeKey a.id key, ?_, ?_⟩
      · have hrun := run_onApi_ok (s := s) hdelete
        unfold updateEntry
        dsimp only
        rw [EStateM.run_bind, run_tryCatch, if_pos rfl, hrun]
        rfl
      · exact changes_of_map (f := rowRemoveKey key) (fun _ => rfl) rfl hr
    · have hdelete : metadataDeleteFromDb a.id key s.api =
          .error (.aggregateMetadataNotFound key a.id) := by
        unfold metadataDeleteFromDb
        rw [AggregateTable.get_of_find hr]
        exact if_neg hkey
      rw [filter_of_notMem hkey]
      refine ⟨s.api, ?_, Changes.refl hr⟩
      have hrun := run_onApi_error (s := s) hdelete
      unfold updateEntry
      dsimp only
      rw [EStateM.run_bind, run_tryCatch, if_pos rfl, hrun]
      rfl

/-- The loop of an update. -/
theorem run_updateEntries (main : MainDatabase μ) (ctxt : Context) :
    ∀ (entries : List (String × Option String)) (a : Aggregate) (s : Stores μ)
      (r : AggregateRow), s.api.find? a.id = some r →
      ∃ api, (entries.foldlM (updateEntry main ctxt true) a).run s =
          .ok { a with metadata := entries.foldl withEntry a.metadata } { s with api := api } ∧
        Changes s.api api a.id { r with metadata := remaining entries r.metadata }
  | [], a, s, r, hr => by
    rw [remaining_nil]
    exact ⟨s.api, rfl, Changes.refl hr⟩
  | kv :: entries, a, s, r, hr => by
    obtain ⟨api₁, hrun₁, hchanges₁⟩ := run_updateEntry main ctxt a kv hr
    obtain ⟨api₂, hrun₂, hchanges₂⟩ :=
      run_updateEntries main ctxt entries { a with metadata := withEntry a.metadata kv }
        { s with api := api₁ } { r with metadata := remaining [kv] r.metadata } hchanges₁.row
    refine ⟨api₂, ?_, ?_⟩
    · rw [List.foldlM_cons, run_bind_ok hrun₁, hrun₂]
      rfl
    · rw [← remaining_cons]
      exact hchanges₁.trans hchanges₂

theorem mem_toAdd {entries : List (String × Option String)} {key value : String} :
    (key, value) ∈ toAdd entries ↔ (key, some value) ∈ entries := by
  unfold toAdd
  rw [List.mem_filterMap]
  constructor
  · rintro ⟨⟨k, v⟩, hin, heq⟩
    obtain ⟨w, rfl, hw⟩ := Option.map_eq_some_iff.mp heq
    cases hw
    exact hin
  · intro hin
    exact ⟨(key, some value), hin, rfl⟩

theorem keys_toAdd_sublist : ∀ entries : List (String × Option String),
    (Dict.keys (toAdd entries)).Sublist (Dict.keys entries)
  | [] => List.Sublist.slnil
  | (key, none) :: entries => List.Sublist.cons key (keys_toAdd_sublist entries)
  | (key, some _) :: entries => List.Sublist.cons_cons key (keys_toAdd_sublist entries)

theorem lookup_toAdd {entries : List (String × Option String)}
    (hnodup : (Dict.keys entries).Nodup) (key : String) :
    (toAdd entries).lookup key = (entries.lookup key).getD none := by
  have hnodupAdd : (Dict.keys (toAdd entries)).Nodup := hnodup.sublist (keys_toAdd_sublist entries)
  refine Option.ext (fun value => ?_)
  rw [Dict.lookup_iff_mem hnodupAdd, mem_toAdd, ← Dict.lookup_iff_mem hnodup]
  cases entries.lookup key with
  | none => simp
  | some given => simp

/-- The stored metadata after an update. -/
theorem lookup_updated {entries : List (String × Option String)}
    (hnodup : (Dict.keys entries).Nodup) (metadata : List (String × String)) (key : String) :
    (Dict.update (remaining entries metadata) (toAdd entries)).lookup key =
      (entries.lookup key).getD (metadata.lookup key) := by
  have hnodupAdd : (Dict.keys (toAdd entries)).Nodup := hnodup.sublist (keys_toAdd_sublist entries)
  cases hadd : (toAdd entries).lookup key with
  | some value =>
    rw [Dict.lookup_update_of_lookup hnodupAdd hadd]
    rw [lookup_toAdd hnodup] at hadd
    cases hentry : entries.lookup key with
    | none => rw [hentry] at hadd; cases hadd
    | some given => rw [hentry] at hadd; exact hadd.symm
  | none =>
    have hnotin : key ∉ Dict.keys (toAdd entries) := by
      intro h
      obtain ⟨value, hvalue⟩ := (Dict.mem_keys_iff _ _).mp h
      rw [hadd] at hvalue
      cases hvalue
    rw [Dict.lookup_update_of_notMem hnotin, lookup_remaining]
    rw [lookup_toAdd hnodup] at hadd
    simp only [← Dict.lookup_iff_mem hnodup]
    cases hentry : entries.lookup key with
    | none => rfl
    | some given =>
      rw [hentry] at hadd
      have hgiven : given = none := hadd
      rw [hgiven]
      rfl

/-- An aggregate of the API database is found there. -/
theorem run_inApi {id : Nat} (hr : s.api.find? id = some r) :
    (inApi id).run s = .ok true s := by
  have hread : (do
      let _ ← s.api.get id
      Except.ok true) = Except.ok true := by
    rw [AggregateTable.get_of_find hr]
    rfl
  unfold inApi
  rw [run_tryCatch, run_readApi_ok hread]

/-- **Setting metadata** does not raise. -/
theorem run_updateMetadata_written (main : MainDatabase μ) (ctxt : Context)
    (entries : List (String × Option String)) {a : Aggregate} (hr : s.api.find? a.id = some r) :
    ∃ api, (updateMetadata main ctxt a entries).run s =
        .ok { a with metadata := entries.foldl withEntry a.metadata } { s with api := api } ∧
      Changes s.api api a.id
        { r with metadata := Dict.update (remaining entries r.metadata) (toAdd entries) } := by
  obtain ⟨api, hrun, hchanges⟩ := run_updateEntries main ctxt entries a s r hr
  refine ⟨api.addMetadata a.id (toAdd entries) false, ?_, ?_⟩
  · unfold updateMetadata
    rw [run_bind_ok (run_inApi hr), run_bind_ok hrun, if_pos rfl]
    rfl
  · exact hchanges.trans
      (changes_of_map (f := rowAddMetadata (toAdd entries) false) (fun _ => rfl) rfl hchanges.row)

theorem run_updateMetadata {entries : List (String × Option String)} {a : Aggregate}
    (main : MainDatabase μ) (ctxt : Context) (hr : s.api.find? a.id = some r)
    (hnodup : (Dict.keys entries).Nodup) :
    ∃ a' api r', (updateMetadata main ctxt a entries).run s = .ok a' { s with api := api } ∧
      Changes s.api api a.id r' ∧ r'.hosts = r.hosts ∧
      zone r' = (entries.lookup zoneKey).getD (zone r) := by
  obtain ⟨api, hrun, hchanges⟩ := run_updateMetadata_written main ctxt entries hr
  exact ⟨_, api, _, hrun, hchanges, rfl, lookup_updated hnodup r.metadata zoneKey⟩

/-! ## The name -/

/-- When saving a name raises: it is `None`, or another aggregate has it. -/
def NameRefused (t : AggregateTable) (id : Nat) (name : Option String) : Prop :=
  name = none ∨ ∃ n, name = some n ∧ t.nameTaken id n = true

theorem run_saveName_refused {values : Values} {a : Aggregate} {name : Option String}
    (hr : s.api.find? a.id = some r) (hname : values.get "name" = some name)
    (hrefused : NameRefused s.api a.id name) :
    ∃ e, (saveName main ctxt env values a).run s = .error e s := by
  unfold saveName
  rw [hname]
  dsimp only
  rcases hrefused with rfl | ⟨n, rfl, htaken⟩
  · exact ⟨_, run_bind_error (run_ofExcept_error rfl s)⟩
  · refine ⟨.nova (.aggregateNameExists n), ?_⟩
    have hfield : nameField (some n) = .ok n := rfl
    rw [run_bind_ok (run_ofExcept_ok hfield s)]
    exact run_save_taken hr htaken a.uuid

theorem run_saveName_ok {values : Values} {a : Aggregate} {n : String}
    (hr : s.api.find? a.id = some r) (hname : values.get "name" = some (some n))
    (hfree : ¬ s.api.nameTaken a.id n = true) :
    ∃ a' api, (saveName main ctxt env values a).run s = .ok a' { s with api := api } ∧
      s.api.setColumns env.now a.id (some n) none = .ok api ∧
      Shows a' (rowSetColumns env.now (some n) none r) := by
  obtain ⟨api, hset⟩ : ∃ api, s.api.setColumns env.now a.id (some n) none = .ok api := by
    unfold AggregateTable.setColumns
    dsimp only
    rw [dif_neg hfree]
    exact ⟨_, rfl⟩
  obtain ⟨a', hrun, hshows⟩ := @run_save_ok _ main ctxt _ _ _ _ _ _ _ hr hset a.uuid
  refine ⟨a', api, ?_, hset, hshows⟩
  unfold saveName
  rw [hname]
  dsimp only
  have hfield : nameField (some n) = .ok n := rfl
  rw [run_bind_ok (run_ofExcept_ok hfield s)]
  exact hrun

end PolarBear.Zones
