import PolarBear.Aggregates.Aggregate

/-!
# Migrating aggregates: what is kept

Between the creation of a copy and the deletion of its original stand the
transactions that add the hosts. A crash after the creation leaves a copy that
lacks hosts; the next call reads that copy instead of the original, finds its name
taken, and skips the aggregate for good. Where no crash falls there, every state a
call leaves is `Clean`, as for flavors.

Reading an aggregate may change it: one without a uuid is given one. `Filled` says
that this is all that happens to a row before it is moved.
-/

namespace PolarBear.Aggregates

open Transactions Db
open Transition (Run)
open Transactions.Prog (transaction reading compute)

/-- A crash falls before no transaction that adds a host or deletes an original. -/
def outsideWindow (tx : Tx) : Prop := tx ≠ .hostAddToDb ∧ tx ≠ .aggregateDelete

/-! ## The invariant -/

/-- The API database has a row with an identifier of the aggregate. -/
def Collides (s : Databases) (r : MainAggregateRow) : Prop :=
  ∃ a ∈ s.api.rows, a.id = r.id ∨ a.name = r.name

/-- The live aggregates of the main database have their identifiers for themselves, and
none has a copy. -/
structure Clean (s : Databases) : Prop where
  ids : (s.liveRows.map (fun r => r.id)).Nodup
  names : (s.liveRows.map (fun r => r.name)).Nodup
  apart : ∀ r ∈ s.liveRows, ¬ Collides s r

/-- The row, or the row with the uuid it lacked. -/
def Filled (r r' : MainAggregateRow) : Prop :=
  r' = r ∨ truthy r.uuid = false ∧ ∃ uuid now, r' = r.fill uuid now

/-- The API row has the attributes of the main row; a uuid that the main row lacks is free. -/
structure SameAggregate (a : AggregateRow) (r : MainAggregateRow) : Prop where
  id : a.id = r.id
  name : a.name = r.name
  hosts : a.hosts = r.hosts
  metadata : a.metadetails = r.metadetails
  createdAt : a.createdAt = r.createdAt
  uuid : truthy r.uuid = true → a.uuid = r.uuid ∧ a.updatedAt = r.updatedAt

theorem SameAggregate.of_filled {a : AggregateRow} {r r' : MainAggregateRow}
    (hfill : Filled r r') (h : SameAggregate a r') : SameAggregate a r := by
  rcases hfill with rfl | ⟨hnone, uuid, now, rfl⟩
  · exact h
  · refine ⟨h.id, h.name, h.hosts, h.metadata, h.createdAt, fun htruthy => ?_⟩
    rw [hnone] at htruthy
    cases htruthy

/-- What calls have done since `s₀`. -/
structure Progress (s₀ s : Databases) : Prop where
  clean : Clean s
  stamped : ∀ r ∈ s.liveRows, r.createdAt.isSome
  kept : ∀ r ∈ s₀.liveRows, (∃ r' ∈ s.liveRows, Filled r r') ∨ ∃ a ∈ s.api.rows, SameAggregate a r

variable {ctxt : Context} {s₀ s : Databases} {r : MainAggregateRow}
  {others : List MainAggregateRow}

theorem live_of_mem (hr : r ∈ s.liveRows) : r ∈ s.main ∧ r.live = true := List.mem_filter.mp hr

/-- A uuid for the first live aggregate keeps the invariant. -/
theorem Progress.fill (h : Progress s₀ s) (hlive : s.liveRows = r :: others)
    (hnone : truthy r.uuid = false) {uuid : String} {now : Nat} {s' : Databases}
    (hapi : s'.api = s.api) (hfilled : s'.liveRows = r.fill uuid now :: others) :
    Progress s₀ s' := by
  obtain ⟨⟨hids, hnames, hapart⟩, hstamped, hkept⟩ := h
  have hmem : r ∈ s.liveRows := hlive ▸ List.mem_cons_self ..
  have hold : ∀ t ∈ s'.liveRows, t = r.fill uuid now ∨ t ∈ s.liveRows := by
    intro t ht
    rw [hfilled] at ht
    rcases List.mem_cons.mp ht with rfl | ht
    · exact .inl rfl
    · exact .inr (hlive ▸ List.mem_cons_of_mem _ ht)
  refine ⟨⟨?_, ?_, ?_⟩, ?_, ?_⟩
  · rw [hlive] at hids
    rw [hfilled]
    exact hids
  · rw [hlive] at hnames
    rw [hfilled]
    exact hnames
  · intro t ht
    unfold Collides
    rw [hapi]
    rcases hold t ht with rfl | ht
    · exact hapart r hmem
    · exact hapart t ht
  · intro t ht
    rcases hold t ht with rfl | ht
    · exact hstamped r hmem
    · exact hstamped t ht
  · intro t ht
    rcases hkept t ht with ⟨t', ht', hfill⟩ | hcopy
    · rw [hlive] at ht'
      rcases List.mem_cons.mp ht' with rfl | hother
      · -- the row that is filled now was filled before at most with an empty uuid
        refine .inl ⟨_, hfilled ▸ List.mem_cons_self .., .inr ?_⟩
        rcases hfill with rfl | ⟨hnone', uuid', now', rfl⟩
        · exact ⟨hnone, uuid, now, rfl⟩
        · exact ⟨hnone', uuid, now, rfl⟩
      · exact .inl ⟨t', hfilled ▸ List.mem_cons_of_mem _ hother, hfill⟩
    · exact .inr (hapi ▸ hcopy)

/-- Moving the first live aggregate keeps the invariant. -/
theorem Progress.move (h : Progress s₀ s) (hlive : s.liveRows = r :: others)
    {a : AggregateRow} (hsame : SameAggregate a r) {s' : Databases}
    (hapi : s'.api.rows = a :: s.api.rows) (hrest : s'.liveRows = others) : Progress s₀ s' := by
  obtain ⟨⟨hids, hnames, hapart⟩, hstamped, hkept⟩ := h
  have hsub : ∀ t ∈ others, t ∈ s.liveRows := fun t ht => hlive ▸ List.mem_cons_of_mem _ ht
  rw [hlive, List.map_cons, List.nodup_cons] at hids hnames
  refine ⟨⟨hrest ▸ hids.2, hrest ▸ hnames.2, ?_⟩, ?_, ?_⟩
  · intro t ht
    rw [hrest] at ht
    rintro ⟨b, hb, hcollide⟩
    rw [hapi] at hb
    rcases List.mem_cons.mp hb with rfl | hb
    · rcases hcollide with hk | hk
      · exact hids.1 (List.mem_map.mpr ⟨t, ht, hk.symm.trans hsame.id⟩)
      · exact hnames.1 (List.mem_map.mpr ⟨t, ht, hk.symm.trans hsame.name⟩)
    · exact hapart t (hsub t ht) ⟨b, hb, hcollide⟩
  · intro t ht
    rw [hrest] at ht
    exact hstamped t (hsub t ht)
  · intro t ht
    rcases hkept t ht with ⟨t', ht', hfill⟩ | ⟨b, hb, hcopy⟩
    · rw [hlive] at ht'
      rcases List.mem_cons.mp ht' with rfl | hother
      · exact .inr ⟨a, hapi ▸ List.mem_cons_self .., hsame.of_filled hfill⟩
      · exact .inl ⟨t', hrest ▸ hother, hfill⟩
    · exact .inr ⟨b, hapi ▸ List.mem_cons_of_mem _ hb, hcopy⟩

/-! ## Reading an aggregate -/

theorem get_none (h : Clean s) (hr : r ∈ s.liveRows) :
    s.api.get r.id = .error (.aggregateNotFound r.id) := by
  have hnone : s.api.rows.find? (fun a => a.id == r.id) = none := by
    rw [List.find?_eq_none]
    intro a ha hk
    exact h.apart r hr ⟨a, ha, .inl (beq_iff_eq.mp hk)⟩
  unfold ApiAggregates.get
  rw [hnone]

/-- The filter of a query by id, which is not zero. -/
theorem idFilter_pos (t : MainAggregateRow) : idFilter r.id t = (t.id == r.id) := by
  have hne : (r.id == 0) = false := beq_eq_false_iff_ne.mpr (Nat.ne_of_gt r.id_pos)
  unfold idFilter
  rw [hne, Bool.false_or]

/-- A live aggregate is found by its id. -/
theorem find_main (hids : (s.liveRows.map (fun t => t.id)).Nodup) (hr : r ∈ s.liveRows) :
    s.main.find? (fun t => t.deleted == 0 && idFilter r.id t) = some r := by
  have hfind := find_of_nodup hids hr
  unfold Databases.liveRows at hfind
  rw [List.find?_filter] at hfind
  simp only [idFilter_pos]
  simp only [Bool.decide_and, Bool.decide_eq_true] at hfind
  exact hfind

/-- The object is that of the row. -/
structure ReadAs (a : Aggregate) (r : MainAggregateRow) : Prop where
  id : a.id = r.id
  name : a.name = r.name
  hosts : a.hosts = r.hosts
  metadata : a.metadata = r.metadetails
  createdAt : a.createdAt = r.createdAt
  updatedAt : a.updatedAt = r.updatedAt
  uuid : truthy r.uuid = true → r.uuid = some a.uuid

/-- An object of the row with the uuid of the row, if it has one. -/
theorem readAs_toObject {uuid : String} (h : truthy r.uuid = true → r.uuid = some uuid) :
    ReadAs (r.toDb.toObject uuid) r := ⟨rfl, rfl, rfl, rfl, rfl, rfl, h⟩

theorem some_of_truthy {uuid : Option String} (h : truthy uuid = true) (d : String) :
    uuid = some (uuid.getD d) := by
  cases uuid with
  | none => cases h
  | some u => rfl

/-- What reading the first live aggregate leaves. -/
def Read (s₀ : Databases) (id : Nat) (others : List MainAggregateRow) :
    Outcome NovaError Aggregate → Databases → Prop
  | .returned a, s' => Progress s₀ s' ∧ a.id = id ∧ ∃ r, s'.liveRows = r :: others ∧ ReadAs a r
  | .raised _, _ => False
  | .crashed, s' => Progress s₀ s'

/-- The uuid is written to the main database. -/
theorem wp_save (hhide : ctxt.readDeleted = "no") (h : Progress s₀ s)
    (hlive : s.liveRows = r :: others) (hnone : truthy r.uuid = false) (uuid : String) :
    wp outsideWindow (Read s₀ r.id others) (save ctxt r.id uuid) s := by
  have hmem : r ∈ s.liveRows := hlive ▸ List.mem_cons_self ..
  have hget := get_none h.clean hmem
  have hfind := find_main h.clean.ids hmem
  unfold save aggregateUpdateToDb
  rw [wp_bind, wp_tryCatch, wp_transaction]
  refine ⟨fun _ => h, fun _ => ?_⟩
  dsimp only [bind, Except.bind]
  rw [hget]
  show wp outsideWindow _ (aggregateUpdate ctxt r.id uuid) s
  unfold aggregateUpdate
  rw [wp_transaction, modelQuery_hides hhide]
  refine ⟨fun _ => h, fun input => ?_⟩
  dsimp only [bind, Except.bind]
  rw [hfind]
  dsimp only
  generalize hmain : updateFirst (fun t : MainAggregateRow => t.deleted == 0 && idFilter r.id t)
    (MainAggregateRow.fill uuid input.now) s.main = main
  -- the row that is changed is the one that is then read back
  have hfilled : Databases.liveRows ⟨s.api, main⟩ = r.fill uuid input.now :: others := by
    show main.filter MainAggregateRow.live = _
    rw [← hmain, filter_updateFirst_live]
    · show updateFirst _ _ s.liveRows = _
      rw [hlive, updateFirst, if_pos]
      rw [idFilter_pos, Bool.and_eq_true]
      exact ⟨(live_of_mem hmem).2, beq_iff_eq.mpr rfl⟩
    · exact fun t ht => (Bool.and_eq_true_iff.mp ht).1
    · exact fun t ht => (Bool.and_eq_true_iff.mp ht).1
  have hprogress : Progress s₀ ⟨s.api, main⟩ := h.fill hlive hnone rfl hfilled
  have hback : main.find? (fun t => t.deleted == 0 && idFilter r.id t) =
      some (r.fill uuid input.now) :=
    find_main hprogress.clean.ids (hfilled ▸ List.mem_cons_self ..)
  rw [hback]
  dsimp only
  have huuid : (r.fill uuid input.now).uuid = some uuid := rfl
  split
  · exact ⟨hprogress, rfl, _, hfilled, readAs_toObject (fun _ => huuid)⟩
  · exact ⟨hprogress, rfl, _, hfilled, readAs_toObject (fun _ => huuid)⟩

/-- A live aggregate without a copy is read from the main database. -/
theorem wp_getById (hhide : ctxt.readDeleted = "no") (h : Progress s₀ s)
    (hlive : s.liveRows = r :: others) :
    wp outsideWindow (Read s₀ r.id others) (getById ctxt r.id) s := by
  have hmem : r ∈ s.liveRows := hlive ▸ List.mem_cons_self ..
  have hget := get_none h.clean hmem
  have hfind := find_main h.clean.ids hmem
  unfold getById aggregateGetFromDb
  rw [wp_bind, wp_tryCatch, wp_reading, hget]
  refine ⟨fun _ => h, ?_⟩
  show wp outsideWindow _ (aggregateGet ctxt r.id) s
  unfold aggregateGet
  rw [wp_reading, modelQuery_hides hhide]
  refine ⟨fun _ => h, ?_⟩
  dsimp only [bind, Except.bind]
  rw [hfind]
  show wp outsideWindow _ (r.toDb.fromDbObject ctxt) s
  unfold DbAggregate.fromDbObject
  split
  · next htruthy =>
    exact ⟨h, rfl, r, hlive, readAs_toObject (fun _ => some_of_truthy htruthy _)⟩
  · next hfalsy =>
    unfold generateUuid
    rw [wp_bind, wp_transaction]
    refine ⟨fun _ => h, fun input => ?_⟩
    exact wp_save hhide h hlive (Bool.eq_false_iff.mpr hfalsy) input.uuid

/-! ## Making the copy -/

/-- The row is created from the object, but for the hosts. -/
structure CreatedFrom (a : Aggregate) (row : AggregateRow) : Prop where
  id : row.id = a.id
  name : row.name = a.name
  uuid : row.uuid = some a.uuid
  metadata : row.metadata = a.metadata
  createdAt : a.createdAt.isSome → row.createdAt = a.createdAt
  updatedAt : row.updatedAt = a.updatedAt

/-- The row that gets a host is the same otherwise. -/
theorem CreatedFrom.addHost {a : Aggregate} {row : AggregateRow} (h : CreatedFrom a row)
    (host : String) : CreatedFrom a (row.addHost host) := by
  unfold AggregateRow.addHost
  split
  · exact h
  · exact ⟨h.id, h.name, h.uuid, h.metadata, h.createdAt, h.updatedAt⟩

theorem wp_aggregateCreateInDb (hapart : ¬ Collides s r) {a : Aggregate} (hread : ReadAs a r) :
    wp outsideWindow (fun o s' => match o with
        | .returned _ => s'.main = s.main ∧
            ∃ row, s'.api.rows = row :: s.api.rows ∧ CreatedFrom a row ∧ row.hosts = []
        | .raised _ => False
        | .crashed => s' = s)
      (aggregateCreateInDb a) s := by
  unfold aggregateCreateInDb
  rw [wp_transaction]
  refine ⟨fun _ => rfl, fun input => ?_⟩
  unfold ApiAggregates.insert
  rw [dif_neg, dif_neg]
  · refine ⟨rfl, a.toRow input.now, rfl, ⟨rfl, rfl, rfl, rfl, fun hsome => ?_, rfl⟩, rfl⟩
    obtain ⟨created, hcreated⟩ := Option.isSome_iff_exists.mp hsome
    show some (a.createdAt.getD input.now) = a.createdAt
    rw [hcreated, Option.getD_some]
  · intro hmem
    obtain ⟨b, hb, hk⟩ := List.mem_map.mp hmem
    exact hapart ⟨b, hb, .inl (hk.trans hread.id)⟩
  · intro hmem
    obtain ⟨b, hb, hk⟩ := List.mem_map.mp hmem
    exact hapart ⟨b, hb, .inr (hk.trans hread.name)⟩

/-- One host more. -/
theorem wp_hostAddToDb {row : AggregateRow} {old : List AggregateRow}
    (hrows : s.api.rows = row :: old) {host : String} (hhost : host ∉ row.hosts) :
    wp outsideWindow (fun o s' => match o with
        | .returned _ => s'.main = s.main ∧ s'.api.rows = row.addHost host :: old
        | _ => False)
      (hostAddToDb row.id host) s := by
  have hself : (row.id == row.id) = true := beq_iff_eq.mpr rfl
  have hget : s.api.get row.id = .ok row := by
    unfold ApiAggregates.get
    rw [hrows, List.find?_cons_of_pos (p := fun b : AggregateRow => b.id == row.id) hself]
  have huniq := s.api.uniqId
  rw [hrows, List.map_cons, List.nodup_cons] at huniq
  unfold hostAddToDb
  rw [wp_transaction]
  refine ⟨fun hsafe => hsafe.1 rfl, fun _ => ?_⟩
  dsimp only [bind, Except.bind]
  rw [hget]
  dsimp only
  rw [if_neg hhost]
  refine ⟨rfl, ?_⟩
  show s.api.rows.map (fun b => if b.id == row.id then b.addHost host else b) = _
  rw [hrows, List.map_cons, if_pos hself]
  refine congrArg (List.cons (row.addHost host)) ?_
  conv_rhs => rw [← List.map_id old]
  refine List.map_congr_left (fun b hb => if_neg (fun hk => ?_))
  exact huniq.1 (List.mem_map.mpr ⟨b, hb, beq_iff_eq.mp hk⟩)

/-- The loop over the hosts completes the copy. -/
theorem wp_hosts {a : Aggregate} (hnodup : a.hosts.Nodup) {row : AggregateRow}
    {old : List AggregateRow} (hrows : s.api.rows = row :: old) (hrow : CreatedFrom a row)
    (hempty : row.hosts = []) :
    wp outsideWindow (fun o s' => match o with
        | .returned _ => s'.main = s.main ∧
            ∃ row', s'.api.rows = row' :: old ∧ CreatedFrom a row' ∧ row'.hosts = a.hosts
        | _ => False)
      (a.hosts.foldlM (fun _ host => hostAddToDb a.id host) ()) s := by
  have hloop := wp_foldlM outsideWindow (f := fun (_ : Unit) host => hostAddToDb a.id host)
    (I := fun rest _ s' => s'.main = s.main ∧ ∃ row', s'.api.rows = row' :: old ∧
      CreatedFrom a row' ∧ row'.hosts ++ rest = a.hosts)
    (E := fun _ _ => False) ?_ a.hosts () s
    ⟨rfl, row, hrows, hrow, by rw [hempty, List.nil_append]⟩
  · refine wp_mono hloop (fun o s' ho => ?_)
    cases o with
    | raised e => exact ho
    | crashed => exact ho
    | returned u =>
      obtain ⟨hmain, row', hrows', hrow', hhosts⟩ := ho
      rw [List.append_nil] at hhosts
      exact ⟨hmain, row', hrows', hrow', hhosts⟩
  · rintro host rest u s₁ ⟨hmain, row', hrows', hrow', hhosts⟩
    have hnew : host ∉ row'.hosts := by
      rw [← hhosts, List.nodup_append] at hnodup
      exact fun hmem => hnodup.2.2 host hmem host (List.mem_cons_self ..) rfl
    have hstep := wp_hostAddToDb hrows' hnew
    rw [hrow'.id] at hstep
    refine wp_mono hstep (fun o s₂ ho => ?_)
    cases o with
    | raised e => exact ho
    | crashed => exact ho
    | returned u =>
      refine ⟨ho.1.trans hmain, row'.addHost host, ho.2, hrow'.addHost host, ?_⟩
      unfold AggregateRow.addHost
      rw [dif_neg hnew]
      show row'.hosts ++ [host] ++ rest = a.hosts
      rw [List.append_assoc, List.singleton_append, hhosts]

/-- The completed copy has the attributes of the row. -/
theorem sameAggregate_of_created {a : Aggregate} (hread : ReadAs a r) {row : AggregateRow}
    (hrow : CreatedFrom a row) (hhosts : row.hosts = a.hosts) (hstamped : r.createdAt.isSome) :
    SameAggregate row r := by
  refine ⟨hrow.id.trans hread.id, hrow.name.trans hread.name, hhosts.trans hread.hosts, ?_, ?_,
    fun htruthy => ⟨?_, hrow.updatedAt.trans hread.updatedAt⟩⟩
  · unfold AggregateRow.metadetails
    rw [hrow.metadata, hread.metadata]
    exact Dict.update_eq_append (Dict.nodup_keys_update List.nodup_nil)
  · rw [hrow.createdAt (by rw [hread.createdAt]; exact hstamped), hread.createdAt]
  · rw [hrow.uuid, hread.uuid htruthy]

/-! ## One round -/

/-- The original is deleted, and no crash falls before that. -/
theorem wp_aggregateDelete (hhide : ctxt.readDeleted = "no")
    (hids : (s.liveRows.map (fun t => t.id)).Nodup) (hlive : s.liveRows = r :: others) :
    wp outsideWindow (fun o s' => match o with
        | .returned _ => s'.api = s.api ∧ s'.liveRows = others
        | _ => False)
      (aggregateDelete ctxt r.id) s := by
  have hmem : r ∈ s.liveRows := hlive ▸ List.mem_cons_self ..
  have hhit : (r.deleted == 0 && idFilter r.id r) = true := by
    rw [idFilter_pos, Bool.and_eq_true]
    exact ⟨(live_of_mem hmem).2, beq_iff_eq.mpr rfl⟩
  unfold aggregateDelete
  rw [wp_transaction, modelQuery_hides hhide]
  refine ⟨fun hsafe => hsafe.2 rfl, fun input => ?_⟩
  dsimp only [bind, Except.bind]
  rw [if_neg]
  · refine ⟨rfl, ?_⟩
    show (s.main.map _).filter MainAggregateRow.live = others
    rw [filter_map_dead]
    · have hkeep : (s.main.filter MainAggregateRow.live).filter
          (fun t => !(t.deleted == 0 && idFilter r.id t)) =
            s.liveRows.filter (fun t => t.id != r.id) := by
        refine List.filter_congr (fun t ht => ?_)
        have ht' : (t.deleted == 0) = true := (List.mem_filter.mp ht).2
        rw [ht', Bool.true_and, idFilter_pos]
        rfl
      rw [hlive] at hids
      rw [hkeep, hlive]
      exact filter_head_ne hids
    · intro t _ hdead
      have hzero : t.id = 0 := beq_iff_eq.mp hdead
      have := t.id_pos
      omega
  · intro hempty
    exact List.filter_eq_nil_iff.mp (List.isEmpty_iff.mp hempty) r (live_of_mem hmem).1 hhit

/-- **One round** moves the first live aggregate and counts it. -/
theorem wp_migrateAggregate (hhide : ctxt.readDeleted = "no") (h : Progress s₀ s)
    (hlive : s.liveRows = r :: others) (countHit : Nat) :
    wp outsideWindow (fun o s' => match o with
        | .returned n => Progress s₀ s' ∧ s'.liveRows = others ∧ n = countHit + 1
        | .raised _ => Progress s₀ s'
        | .crashed => Progress s₀ s')
      (migrateAggregate ctxt countHit r.id) s := by
  unfold migrateAggregate
  rw [wp_tryCatch, wp_bind]
  refine wp_mono (wp_getById hhide h hlive) (fun o s₁ ho => ?_)
  cases o with
  | crashed => exact ho
  | raised e => exact absurd ho id
  | returned a =>
    obtain ⟨h₁, hid, r', hlive₁, hread⟩ := ho
    have hmem : r' ∈ s₁.liveRows := hlive₁ ▸ List.mem_cons_self ..
    dsimp only
    rw [wp_bind]
    refine wp_mono (wp_aggregateCreateInDb (h₁.clean.apart r' hmem) hread) (fun o s₂ ho => ?_)
    cases o with
    | crashed => exact ho ▸ h₁
    | raised e => exact absurd ho id
    | returned u =>
      obtain ⟨hmain₂, row, hrows, hrow, hempty⟩ := ho
      have hnodup : a.hosts.Nodup := hread.hosts ▸ r'.hosts_nodup
      dsimp only
      rw [wp_bind, ← hid]
      refine wp_mono (wp_hosts hnodup hrows hrow hempty) (fun o s₃ ho => ?_)
      cases o with
      | crashed => exact absurd ho id
      | raised e => exact absurd ho id
      | returned u =>
        obtain ⟨hmain₃, row', hrows', hrow', hhosts⟩ := ho
        have hlive₃ : s₃.liveRows = s₁.liveRows :=
          congrArg (fun rows => rows.filter MainAggregateRow.live) (hmain₃.trans hmain₂)
        dsimp only
        rw [wp_tryCatch, wp_bind, hread.id]
        refine wp_mono (wp_aggregateDelete hhide (hlive₃ ▸ h₁.clean.ids) (hlive₃.trans hlive₁))
          (fun o s₄ hgone => ?_)
        cases o with
        | crashed => exact absurd hgone id
        | raised e => exact absurd hgone id
        | returned u =>
          have hsame := sameAggregate_of_created hread hrow' hhosts (h₁.stamped r' hmem)
          exact ⟨h₁.move hlive₁ hsame (hgone.1 ▸ hrows') hgone.2, hgone.2, rfl⟩

/-! ## Calls and runs -/

/-- A call that completes has moved everything it found, from the front. -/
theorem wp_migrateAggregates (hhide : ctxt.readDeleted = "no") (h : Progress s₀ s)
    (count : Nat) :
    wp outsideWindow (fun o s' => match o with
        | .returned r => Progress s₀ s' ∧ r.1 = min count s.liveRows.length ∧ r.2 = r.1 ∧
            s'.liveRows = s.liveRows.drop count
        | _ => Progress s₀ s')
      (migrateAggregates ctxt count) s := by
  unfold migrateAggregates getMainDbAggregateIds
  refine wp_mono (wp_migrateBatch outsideWindow Databases.liveRows (fun r => r.id)
    (migrateAggregate ctxt) (P := Progress s₀) (fun s r others hit h hlive => ?_) h count)
    (fun o s' ho => ?_)
  · refine wp_mono (wp_migrateAggregate hhide h hlive hit) (fun o s' ho => ?_)
    cases o <;> exact ho
  · cases o <;> exact ho

/-- The aggregate is in the API database, once and with its attributes, and not live in the
main one. -/
def Moved (s : Databases) (r : MainAggregateRow) : Prop :=
  (∃ a ∈ s.api.rows, SameAggregate a r ∧ ∀ b ∈ s.api.rows,
    b.id = r.id ∨ b.name = r.name → b = a) ∧
  ∀ t ∈ s.liveRows, t.id ≠ r.id

theorem run_progress (hhide : ctxt.readDeleted = "no")
    {calls : List (Nat × Outcome NovaError (Nat × Nat))} {s' : Databases} (h : Progress s₀ s)
    (hrun : Run (CallStep outsideWindow (migrateAggregates ctxt)) s calls s') : Progress s₀ s' := by
  refine hrun.invariant (fun l s s' hs hstep => ?_) h
  refine CallStep.invariant (fun count s hs => ?_) hs hstep
  refine wp_mono (wp_migrateAggregates hhide hs count) (fun o s' ho => ?_)
  cases o with
  | returned r => exact ho.1
  | raised e => exact ho
  | crashed => exact ho

/-- **Aggregates are moved**, if no crash falls before a host is added or an original
deleted. -/
theorem aggregates_moved (hhide : ctxt.readDeleted = "no") (hclean : Clean s)
    (hstamped : ∀ r ∈ s.liveRows, r.createdAt.isSome) {s' : Databases}
    (hrun : Finished outsideWindow (migrateAggregates ctxt) id s s') :
    ∀ r ∈ s.liveRows, Moved s' r := by
  obtain ⟨calls, s₁, count, found, hit, -, hrun, hcount, hlast, hstop⟩ := hrun
  have h₁ := run_progress hhide ⟨hclean, hstamped, fun r hr => .inl ⟨r, hr, .inl rfl⟩⟩ hrun
  obtain ⟨h', hfound, hhit, hrest⟩ :=
    wp_iff_exec.mp (wp_migrateAggregates hhide h₁ count) _ _ hlast
  have hcount' : 1 ≤ count := hcount
  have hfound' : found = min count s₁.liveRows.length := hfound
  have hhit' : hit = found := hhit
  have hempty : s'.liveRows = [] := by
    rw [hrest]
    exact List.drop_eq_nil_of_le (by omega)
  intro r hr
  rw [Moved, hempty]
  refine ⟨?_, fun t ht => absurd ht List.not_mem_nil⟩
  rcases h'.kept r hr with ⟨r', hr', -⟩ | ⟨a, ha, hsame⟩
  · rw [hempty] at hr'
    exact absurd hr' List.not_mem_nil
  · refine ⟨a, ha, hsame, fun b hb hcollide => ?_⟩
    rcases hcollide with hk | hk
    · exact List.inj_on_of_nodup_map s'.api.uniqId hb ha (hk.trans hsame.id.symm)
    · exact List.inj_on_of_nodup_map s'.api.uniqName hb ha (hk.trans hsame.name.symm)

end PolarBear.Aggregates
