import PolarBear.Quota.Usage

/-!
# A refresh, resource by resource

`_refresh_quota_usages_if_needed` pops the resources of a work set in some order.
Whether a popped resource is due is decided by its row alone, and until a resource
is popped or reported its row stays as it was. So the rounds can be told from the
state before the refresh (`plan`), and so can what every resource shows afterwards:
the last count that was reported for it, or what its own check left (`pops_spec`).

A resource `Shows` the `in_use` and `until_refresh` of its row.
-/

namespace PolarBear.Quota

open PolarBear.Fallible

/-- Every resource has a row of its own. -/
structure Refresh.OwnRows (s : Refresh) : Prop where
  found : ∀ {res id}, s.userUsages.lookup res = some id → ∃ row, s.usages.byId id = some row
  own : ∀ {res res' id}, s.userUsages.lookup res = some id →
    s.userUsages.lookup res' = some id → res = res'

/-- `in_use` and `until_refresh` of the row of a resource. -/
def Refresh.shown (s : Refresh) (res : String) : Option (Int × Option Int) :=
  (s.picked res).map (fun r => (r.inUse, r.untilRefresh))

section

variable {s : Refresh}

theorem Refresh.picked_of_lookup {res : String} {id : Nat}
    (h : s.userUsages.lookup res = some id) : s.picked res = s.usages.byId id := by
  unfold Refresh.picked
  rw [h]
  rfl

theorem Refresh.OwnRows.picked_eq_none (h : s.OwnRows) {res : String} :
    s.picked res = none ↔ s.userUsages.lookup res = none := by
  cases hlookup : s.userUsages.lookup res with
  | none => simp [Refresh.picked, hlookup]
  | some id =>
    obtain ⟨row, hrow⟩ := h.found hlookup
    simp [Refresh.picked_of_lookup hlookup, hrow]

/-- The row of a resource has the id that is recorded for it. -/
theorem Refresh.picked_id {res : String} {row : QuotaUsage} (h : s.picked res = some row) :
    s.userUsages.lookup res = some row.id ∧ s.usages.byId row.id = some row := by
  obtain ⟨id, hid, hrow⟩ := Option.bind_eq_some_iff.mp h
  have hkey := (s.usages.byId_iff.mp hrow).2
  rw [hkey]
  exact ⟨hid, hrow⟩

end

/-! ## Adding and writing rows -/

section

variable (env : RefreshEnv) {s : Refresh}

theorem byId_insert_of_some {t : UsageTable} {row : Nat → QuotaUsage}
    (hid : ∀ id, (row id).id = id) {id : Nat} {r : QuotaUsage} (h : t.byId id = some r) :
    (t.insert row hid).byId id = some r := by
  obtain ⟨hmem, hrid⟩ := t.byId_iff.mp h
  exact (Table.byId_iff _).mpr ⟨(Table.mem_insert hid).mpr (.inl hmem), hrid⟩

theorem byId_insert_next (t : UsageTable) {row : Nat → QuotaUsage}
    (hid : ∀ id, (row id).id = id) : (t.insert row hid).byId t.next = some (row t.next) :=
  (Table.byId_iff _).mpr ⟨(Table.mem_insert hid).mpr (.inr rfl), hid t.next⟩

theorem byId_writeRow (now : Int) (t : UsageTable) (id : Nat) {f : QuotaUsage → QuotaUsage}
    (hid : ∀ r, (f r).id = r.id) (n : Nat) :
    (writeRow now t id f hid).byId n =
      if n = id then (t.byId n).map (QuotaUsage.write now f) else t.byId n := by
  have hmodify : (writeRow now t id f hid).byId n = (t.byId n).map (written now id f) :=
    t.byId_modify _ _ _ n
  rw [hmodify]
  cases hrow : t.byId n with
  | none => simp
  | some r =>
    have hrid := (t.byId_iff.mp hrow).2
    split
    · next hn =>
      rw [Option.map_some, Option.map_some, written, if_pos (beq_iff_eq.mpr (hrid.trans hn))]
    · next hn => rw [Option.map_some, written_ne (fun h => hn (hrid.symm.trans h))]

/-- A row that is written is written for its own resource only. -/
theorem picked_writeRow (h : s.OwnRows) {res : String} {id : Nat}
    (hlookup : s.userUsages.lookup res = some id) {f : QuotaUsage → QuotaUsage}
    (hid : ∀ r, (f r).id = r.id) (synced : List (Nat × Int)) (q : String) :
    (Refresh.mk (writeRow env.now s.usages id f hid) s.userUsages synced).picked q =
      if q = res then (s.picked q).map (QuotaUsage.write env.now f) else s.picked q := by
  cases hq : s.userUsages.lookup q with
  | none => simp [Refresh.picked, hq]
  | some n =>
    have hnew : (Refresh.mk (writeRow env.now s.usages id f hid) s.userUsages synced).picked q =
        (writeRow env.now s.usages id f hid).byId n := Refresh.picked_of_lookup hq
    rw [hnew, Refresh.picked_of_lookup hq, byId_writeRow]
    by_cases hqres : q = res
    · rw [hqres, hlookup, Option.some.injEq] at hq
      rw [if_pos hq.symm, if_pos hqres]
    · have hn : n ≠ id := by
        rintro rfl
        exact hqres (h.own hq hlookup)
      rw [if_neg hn, if_neg hqres]

theorem Refresh.OwnRows.writeRow (h : s.OwnRows) {id : Nat} {f : QuotaUsage → QuotaUsage}
    (hid : ∀ r, (f r).id = r.id) (synced : List (Nat × Int)) :
    (Refresh.mk (writeRow env.now s.usages id f hid) s.userUsages synced).OwnRows where
  found := by
    intro res n hlookup
    obtain ⟨row, hrow⟩ := h.found hlookup
    rw [byId_writeRow, hrow]
    split
    · exact ⟨_, rfl⟩
    · exact ⟨row, rfl⟩
  own := h.own

/-- `_create_quota_usage_if_missing` leaves the rows that are there. -/
theorem picked_createIfMissing (h : s.OwnRows) (res q : String) :
    (createQuotaUsageIfMissing env res s).1.picked q = (s.picked q).or
      (if q = res then some (quotaUsageCreate env res s.usages.next) else none) := by
  unfold createQuotaUsageIfMissing
  cases hlookup : s.userUsages.lookup res with
  | some id =>
    obtain ⟨row, hrow⟩ := h.found hlookup
    show s.picked q = _
    by_cases hq : q = res
    · rw [hq, Refresh.picked_of_lookup hlookup, hrow]
      rfl
    · rw [if_neg hq, Option.or_none]
  | none =>
    by_cases hq : q = res
    · have hnone := h.picked_eq_none.mpr hlookup
      rw [hq, hnone, if_pos rfl]
      exact (Refresh.picked_of_lookup (Dict.lookup_set_self ..)).trans
        (byId_insert_next s.usages (quotaUsageCreate_id env res))
    · rw [if_neg hq, Option.or_none]
      have hsame := Dict.lookup_set_ne hq s.usages.next s.userUsages
      cases hlookupq : s.userUsages.lookup q with
      | none =>
        rw [h.picked_eq_none.mpr hlookupq]
        rw [hlookupq] at hsame
        simp [Refresh.picked, hsame]
      | some id =>
        obtain ⟨row, hrow⟩ := h.found hlookupq
        rw [Refresh.picked_of_lookup hlookupq, hrow]
        exact (Refresh.picked_of_lookup (hsame.trans hlookupq)).trans
          (byId_insert_of_some (quotaUsageCreate_id env res) hrow)

theorem Refresh.OwnRows.createIfMissing (h : s.OwnRows) (res : String) :
    (createQuotaUsageIfMissing env res s).1.OwnRows := by
  unfold createQuotaUsageIfMissing
  split
  · exact h
  · next hnone =>
    have hlookup : ∀ q id, (Dict.set res s.usages.next s.userUsages).lookup q = some id →
        (q = res ∧ id = s.usages.next) ∨
          (q ≠ res ∧ s.userUsages.lookup q = some id ∧ id ≠ s.usages.next) := by
      intro q id hq
      by_cases hqres : q = res
      · rw [hqres, Dict.lookup_set_self, Option.some.injEq] at hq
        exact .inl ⟨hqres, hq.symm⟩
      · rw [Dict.lookup_set_ne hqres] at hq
        obtain ⟨row, hrow⟩ := h.found hq
        obtain ⟨hmem, hrid⟩ := s.usages.byId_iff.mp hrow
        exact .inr ⟨hqres, hq, hrid ▸ s.usages.key_ne_next hmem⟩
    constructor
    · intro q id hq
      rcases hlookup q id hq with ⟨-, rfl⟩ | ⟨-, hold, -⟩
      · exact ⟨_, byId_insert_next s.usages (quotaUsageCreate_id env res)⟩
      · obtain ⟨row, hrow⟩ := h.found hold
        exact ⟨row, byId_insert_of_some (quotaUsageCreate_id env res) hrow⟩
    · intro q q' id hq hq'
      rcases hlookup q id hq with ⟨rfl, rfl⟩ | ⟨-, hold, hne⟩
      · rcases hlookup q' _ hq' with ⟨rfl, -⟩ | ⟨-, -, hne⟩
        · rfl
        · exact absurd rfl hne
      · rcases hlookup q' _ hq' with ⟨rfl, rfl⟩ | ⟨-, hold', -⟩
        · exact absurd rfl hne
        · exact h.own hold hold'

end

/-! ## What stays -/

/-- Nothing but the rows of resources changes: a resource keeps its row, and gets
a new one where it has none. -/
structure Refresh.Frame (s s' : Refresh) : Prop where
  kept : ∀ {res id}, s.userUsages.lookup res = some id → s'.userUsages.lookup res = some id
  rows : ∀ {id}, (∀ res, s'.userUsages.lookup res ≠ some id) →
    s'.usages.byId id = s.usages.byId id
  persists : ∀ {id}, s'.usages.byId id = none → s.usages.byId id = none
  fresh : ∀ {res id}, s.userUsages.lookup res = none → s'.userUsages.lookup res = some id →
    s.usages.byId id = none

section

variable (env : RefreshEnv) {s s' s'' : Refresh}

theorem Refresh.Frame.refl (s : Refresh) : s.Frame s where
  kept := fun h => h
  rows := fun _ => rfl
  persists := fun h => h
  fresh := by
    intro res id hnone h
    rw [hnone] at h
    cases h

theorem Refresh.Frame.trans (h : s.Frame s') (h' : s'.Frame s'') : s.Frame s'' where
  kept := fun hlookup => h'.kept (h.kept hlookup)
  rows := by
    intro id hid
    rw [h'.rows hid]
    exact h.rows (fun res hres => hid res (h'.kept hres))
  persists := fun hnone => h.persists (h'.persists hnone)
  fresh := by
    intro res id hnone hlookup
    cases hmiddle : s'.userUsages.lookup res with
    | none => exact h.persists (h'.fresh hmiddle hlookup)
    | some n =>
      rw [h'.kept hmiddle, Option.some.injEq] at hlookup
      rw [← hlookup]
      exact h.fresh hnone hmiddle

theorem Refresh.Frame.createIfMissing (s : Refresh) (res : String) :
    s.Frame (createQuotaUsageIfMissing env res s).1 := by
  unfold createQuotaUsageIfMissing
  split
  · exact Refresh.Frame.refl s
  · next hnone =>
    have hnext : s.usages.byId s.usages.next = none := by
      cases hrow : s.usages.byId s.usages.next with
      | none => rfl
      | some r =>
        obtain ⟨hmem, hrid⟩ := s.usages.byId_iff.mp hrow
        exact absurd hrid (s.usages.key_ne_next hmem)
    constructor
    · intro q id hq
      have hne : q ≠ res := by
        rintro rfl
        rw [hnone] at hq
        cases hq
      exact (Dict.lookup_set_ne hne ..).trans hq
    · intro id hid
      have hne : id ≠ s.usages.next := fun h => hid res (h ▸ Dict.lookup_set_self ..)
      cases hrow : s.usages.byId id with
      | some r => exact byId_insert_of_some (quotaUsageCreate_id env res) hrow
      | none =>
        apply Option.eq_none_iff_forall_ne_some.mpr
        intro r hr
        obtain ⟨hmem, hrid⟩ := (Table.byId_iff _).mp hr
        rcases (Table.mem_insert (quotaUsageCreate_id env res)).mp hmem with hmem | rfl
        · rw [s.usages.byId_iff.mpr ⟨hmem, hrid⟩] at hrow
          cases hrow
        · exact hne hrid.symm
    · intro id hnew
      cases hrow : s.usages.byId id with
      | none => rfl
      | some r =>
        rw [byId_insert_of_some (quotaUsageCreate_id env res) hrow] at hnew
        cases hnew
    · intro q id hq hnew
      by_cases hqres : q = res
      · rw [hqres, Dict.lookup_set_self, Option.some.injEq] at hnew
        rw [← hnew]
        exact hnext
      · rw [Dict.lookup_set_ne hqres, hq] at hnew
        cases hnew

theorem Refresh.Frame.writeRow {res : String} {id : Nat}
    (hlookup : s.userUsages.lookup res = some id) {f : QuotaUsage → QuotaUsage}
    (hid : ∀ r, (f r).id = r.id) (synced : List (Nat × Int)) :
    s.Frame (Refresh.mk (writeRow env.now s.usages id f hid) s.userUsages synced) where
  kept := fun h => h
  rows := by
    intro n hn
    have hne : n ≠ id := by
      rintro rfl
      exact hn res hlookup
    rw [byId_writeRow, if_neg hne]
  persists := by
    intro n hnone
    rw [byId_writeRow] at hnone
    split at hnone
    · exact Option.map_eq_none_iff.mp hnone
    · exact hnone
  fresh := by
    intro q n hnone h
    rw [hnone] at h
    cases h

end

/-! ## One round -/

section

variable (env : RefreshEnv)

/-- Whether a resource that is popped is due. -/
def isDue (force : Bool) (s : Refresh) (res : String) : Bool :=
  force || match s.picked res with
    | none => true
    | some row => (isQuotaRefreshNeeded env row).1

/-- What a popped resource shows before any sync function has reported on it. -/
def afterCheck (force : Bool) (s : Refresh) (res : String) : Option (Int × Option Int) :=
  match s.picked res with
  | none => some (0, orNone env.untilRefresh)
  | some row =>
    some (row.inUse, if force then row.untilRefresh else (isQuotaRefreshNeeded env row).2)

/-- What is reported in a round. -/
def updatesOf (due : Bool) (res : String) : List (String × Int) :=
  if due then (env.sync res).getD [] else []

/-- The last count for a resource. -/
def lastOf (updates : List (String × Int)) (res : String) : Option Int :=
  updates.reverse.lookup res

variable {env} {s : Refresh}

theorem lastOf_append (updates updates' : List (String × Int)) (res : String) :
    lastOf (updates ++ updates') res = (lastOf updates' res).or (lastOf updates res) := by
  unfold lastOf
  rw [List.reverse_append, List.lookup_append]

theorem lastOf_eq_none {updates : List (String × Int)} {res : String} :
    lastOf updates res = none ↔ res ∉ Dict.keys updates := by
  unfold lastOf
  rw [← not_iff_not, not_not, ← ne_eq, Option.ne_none_iff_exists', ← Dict.mem_keys_iff]
  simp [Dict.keys]

/-- Once its row is there, a resource has one. -/
theorem picked_created (env : RefreshEnv) (h : s.OwnRows) (res : String) :
    ∃ row, (createQuotaUsageIfMissing env res s).1.picked res = some row := by
  rw [picked_createIfMissing env h, if_pos rfl]
  cases s.picked res with
  | none => exact ⟨_, rfl⟩
  | some row => exact ⟨row, rfl⟩

theorem picked_createIfMissing_ne (h : s.OwnRows) {res q : String} (hq : q ≠ res) :
    (createQuotaUsageIfMissing env res s).1.picked q = s.picked q := by
  rw [picked_createIfMissing env h, if_neg hq, Option.or_none]

/-- What one item of a report does. -/
structure Applied (env : RefreshEnv) (s : Refresh) (work : List String) (update : String × Int)
    (s' : Refresh) (work' : List String) : Prop where
  ownRows : s'.OwnRows
  frame : s.Frame s'
  shown : s'.shown update.1 = some (update.2, orNone env.untilRefresh)
  other : ∀ q, q ≠ update.1 → s'.picked q = s.picked q
  work : work' = work.filter (fun q => q != update.1)

theorem applyUpdate_spec (env : RefreshEnv) (h : s.OwnRows) (work : List String)
    (update : String × Int) :
    Applied env s work update (applyUpdate env (s, work) update).1
      (applyUpdate env (s, work) update).2 := by
  obtain ⟨row, hrow⟩ := picked_created env h update.1
  have hcreated := h.createIfMissing env update.1
  have hframe := Refresh.Frame.createIfMissing env s update.1
  have hother : ∀ q, q ≠ update.1 →
      (createQuotaUsageIfMissing env update.1 s).1.picked q = s.picked q :=
    fun q hq => picked_createIfMissing_ne h hq
  unfold applyUpdate refreshQuotaUsages
  generalize (createQuotaUsageIfMissing env update.1 s).1 = s₁ at hrow hcreated hframe hother ⊢
  obtain ⟨hlookup, -⟩ := Refresh.picked_id hrow
  simp only [hlookup]
  refine ⟨hcreated.writeRow env _ _, hframe.trans (Refresh.Frame.writeRow env hlookup _ _), ?_, ?_,
    rfl⟩
  · unfold Refresh.shown
    rw [picked_writeRow env hcreated hlookup, if_pos rfl, hrow]
    obtain ⟨stamp, hwrite⟩ := write_eq env.now
      (fun r => { r with inUse := update.2, untilRefresh := orNone env.untilRefresh }) row
    rw [Option.map_some, Option.map_some, hwrite]
  · intro q hq
    rw [picked_writeRow env hcreated hlookup, if_neg hq, hother q hq]

/-- What a whole report does: its last count for a resource stays. -/
structure Reported (env : RefreshEnv) (s : Refresh) (work : List String)
    (updates : List (String × Int)) (s' : Refresh) (work' : List String) : Prop where
  ownRows : s'.OwnRows
  frame : s.Frame s'
  shown : ∀ {q v}, lastOf updates q = some v → s'.shown q = some (v, orNone env.untilRefresh)
  other : ∀ {q}, q ∉ Dict.keys updates → s'.picked q = s.picked q
  work : ∀ q, q ∈ work' ↔ q ∈ work ∧ q ∉ Dict.keys updates

theorem applyUpdates_spec (env : RefreshEnv) :
    ∀ (updates : List (String × Int)) {s : Refresh} (work : List String), s.OwnRows →
    Reported env s work updates (updates.foldl (applyUpdate env) (s, work)).1
      (updates.foldl (applyUpdate env) (s, work)).2
  | [], s, work, h =>
    { ownRows := h
      frame := Refresh.Frame.refl s
      shown := fun hlast => absurd hlast (Option.some_ne_none _).symm
      other := fun _ => rfl
      work := fun q => by simp }
  | update :: updates, s, work, h => by
    have hone := applyUpdate_spec env h work update
    have hrest := applyUpdates_spec env updates (applyUpdate env (s, work) update).2 hone.ownRows
    rw [List.foldl_cons]
    refine ⟨hrest.ownRows, hone.frame.trans hrest.frame, ?_, ?_, ?_⟩
    · intro q v hlast
      have happend : lastOf (update :: updates) q = (lastOf updates q).or (lastOf [update] q) :=
        lastOf_append [update] updates q
      rw [happend] at hlast
      cases hq : lastOf updates q with
      | some w =>
        rw [hq, Option.some_or, Option.some.injEq] at hlast
        rw [← hlast]
        exact hrest.shown hq
      | none =>
        -- the first item is the last one for the resource
        rw [hq, Option.none_or] at hlast
        have hname : q = update.1 := by
          by_contra hne
          rw [lastOf_eq_none.mpr (by simpa [Dict.keys] using hne)] at hlast
          cases hlast
        subst hname
        have hv : update.2 = v := by
          unfold lastOf at hlast
          rw [List.reverse_singleton, List.lookup_cons_self, Option.some.injEq] at hlast
          exact hlast
        unfold Refresh.shown
        rw [hrest.other (lastOf_eq_none.mp hq), ← hv]
        exact hone.shown
    · intro q hq
      rw [Dict.keys_cons, List.mem_cons, not_or] at hq
      rw [hrest.other hq.2, hone.other q hq.1]
    · intro q
      rw [hrest.work, hone.work, List.mem_filter, Dict.keys_cons, List.mem_cons, not_or, and_assoc,
        bne_iff_ne]

/-- The check of a resource: whether it is due, and what it shows then. -/
theorem refreshDue_spec (h : s.OwnRows) {force : Bool} {res : String} {out : Refresh × Bool}
    (hout : refreshDue env force res (createQuotaUsageIfMissing env res s) = .ok out) :
    out.2 = isDue env force s res ∧ out.1.OwnRows ∧ s.Frame out.1 ∧
      out.1.shown res = afterCheck env force s res ∧
      ∀ q, q ≠ res → out.1.picked q = s.picked q := by
  unfold isDue afterCheck
  cases hlookup : s.userUsages.lookup res with
  | none =>
    -- a new row is always due
    have hnone := h.picked_eq_none.mpr hlookup
    have hcreated : createQuotaUsageIfMissing env res s =
        ((createQuotaUsageIfMissing env res s).1, true) := by
      unfold createQuotaUsageIfMissing
      rw [hlookup]
    rw [hcreated] at hout
    unfold refreshDue at hout
    rw [if_pos (Bool.or_true force)] at hout
    cases hout
    refine ⟨by simp [hnone], h.createIfMissing env res, Refresh.Frame.createIfMissing env s res,
      ?_, fun q hq => picked_createIfMissing_ne h hq⟩
    unfold Refresh.shown
    rw [picked_createIfMissing env h, hnone, if_pos rfl]
    rfl
  | some id =>
    have hkept : createQuotaUsageIfMissing env res s = (s, false) := by
      unfold createQuotaUsageIfMissing
      rw [hlookup]
    obtain ⟨row, hrow⟩ : ∃ row, s.picked res = some row := by
      obtain ⟨row, hrow⟩ := h.found hlookup
      exact ⟨row, (Refresh.picked_of_lookup hlookup).trans hrow⟩
    rw [hkept] at hout
    unfold refreshDue at hout
    cases force with
    | true =>
      rw [if_pos (Bool.true_or false)] at hout
      cases hout
      exact ⟨rfl, h, Refresh.Frame.refl s, by simp [Refresh.shown, hrow], fun _ _ => rfl⟩
    | false =>
      simp only [Bool.or_self, Bool.false_eq_true, if_false, checkRefresh, hrow,
        Except.ok.injEq] at hout
      have hrid := (Refresh.picked_id hrow).1
      subst hout
      refine ⟨by simp [hrow], h.writeRow env _ _, Refresh.Frame.writeRow env hrid _ _, ?_, ?_⟩
      · unfold Refresh.shown
        rw [picked_writeRow env h hrid, if_pos rfl, hrow]
        obtain ⟨stamp, hwrite⟩ := write_eq env.now
          (fun r => { r with untilRefresh := (isQuotaRefreshNeeded env row).2 }) row
        rw [Option.map_some, Option.map_some, hwrite]
        simp
      · intro q hq
        rw [picked_writeRow env h hrid, if_neg hq]

/-- What a round does that pops a resource, which is due or not. -/
structure Round (env : RefreshEnv) (force due : Bool) (s : Refresh) (work : List String)
    (res : String) (s' : Refresh) (work' : List String) : Prop where
  ownRows : s'.OwnRows
  frame : s.Frame s'
  synced : due = true → (env.sync res).isSome = true
  shown : ∀ {q v}, lastOf (updatesOf env due res) q = some v →
    s'.shown q = some (v, orNone env.untilRefresh)
  self : res ∉ Dict.keys (updatesOf env due res) → s'.shown res = afterCheck env force s res
  other : ∀ {q}, q ∉ Dict.keys (updatesOf env due res) → q ≠ res → s'.picked q = s.picked q
  work : ∀ q, q ∈ work' ↔ q ∈ work ∧ q ≠ res ∧ q ∉ Dict.keys (updatesOf env due res)

theorem refreshResource_spec (h : s.OwnRows) {force : Bool} {work : List String} {res : String}
    (hres : res ∈ work) {out : Refresh × List String}
    (hout : refreshResource env force (s, work) res = .ok out) :
    Round env force (isDue env force s res) s work res out.1 out.2 := by
  unfold refreshResource at hout
  rw [if_neg (not_not.mpr hres)] at hout
  obtain ⟨due, hdue, hout⟩ := bind_ok_iff.mp hout
  obtain ⟨hflag, hown, hframe, hself, hother⟩ := refreshDue_spec h hdue
  have hwork : ∀ q, q ∈ work.filter (fun q => q != res) ↔ q ∈ work ∧ q ≠ res := by
    intro q
    rw [List.mem_filter, bne_iff_ne]
  rw [← hflag]
  cases hdueFlag : due.2 with
  | false =>
    rw [hdueFlag, if_neg Bool.false_ne_true] at hout
    cases hout
    exact
      { ownRows := hown
        frame := hframe
        synced := fun h => absurd h Bool.false_ne_true
        shown := fun hlast => absurd hlast (Option.some_ne_none _).symm
        self := fun _ => hself
        other := fun _ hq => hother _ hq
        work := fun q => by simp [hwork, updatesOf, Dict.keys] }
  | true =>
    rw [hdueFlag, if_pos rfl] at hout
    unfold syncResource at hout
    split at hout
    · cases hout
    · next updates hsync =>
      cases hout
      have hupdates : updatesOf env true res = updates := by
        unfold updatesOf
        rw [if_pos rfl, hsync]
        rfl
      have hreported := applyUpdates_spec env updates (work.filter (fun q => q != res))
        hown
      rw [← hupdates] at hreported ⊢
      exact
        { ownRows := hreported.ownRows
          frame := hframe.trans hreported.frame
          synced := fun _ => by rw [hsync]; rfl
          shown := hreported.shown
          self := by
            intro hnot
            unfold Refresh.shown
            rw [hreported.other hnot]
            exact hself
          other := fun hq hne => (hreported.other hq).trans (hother _ hne)
          work := fun q => by rw [hreported.work, hwork, and_assoc] }

end

/-! ## A run -/

/-- Rounds of the loop, in which some resource of the work set is popped each; a
resource is noted with whether it was due. -/
inductive Pops (env : RefreshEnv) (force : Bool) :
    Refresh × List String → List (String × Bool) → Refresh × List String → Prop where
  | done (st : Refresh × List String) : Pops env force st [] st
  | pop {st st' st'' : Refresh × List String} {res : String} {pops : List (String × Bool)}
      (hres : res ∈ st.2) (hround : refreshResource env force st res = .ok st')
      (hrest : Pops env force st' pops st'') :
      Pops env force st ((res, isDue env force st.1 res) :: pops) st''

/-- All that was reported, in order. -/
def allReported (env : RefreshEnv) (pops : List (String × Bool)) : List (String × Int) :=
  pops.flatMap (fun p => updatesOf env p.2 p.1)

/-- **What a run does**, told from the state before it. -/
structure Popped (env : RefreshEnv) (force : Bool) (s : Refresh) (work : List String)
    (pops : List (String × Bool)) (s' : Refresh) (work' : List String) : Prop where
  ownRows : s'.OwnRows
  frame : s.Frame s'
  flags : ∀ p ∈ pops, p.1 ∈ work ∧ p.2 = isDue env force s p.1 ∧
    (p.2 = true → (env.sync p.1).isSome = true)
  order : pops.Pairwise (fun p p' => p'.1 ≠ p.1 ∧ p'.1 ∉ Dict.keys (updatesOf env p.2 p.1))
  shown : ∀ {q v}, lastOf (allReported env pops) q = some v →
    s'.shown q = some (v, orNone env.untilRefresh)
  checked : ∀ {q}, q ∉ Dict.keys (allReported env pops) → q ∈ Dict.keys pops →
    s'.shown q = afterCheck env force s q
  other : ∀ {q}, q ∉ Dict.keys (allReported env pops) → q ∉ Dict.keys pops →
    s'.picked q = s.picked q
  work : ∀ q, q ∈ work' ↔ q ∈ work ∧ q ∉ Dict.keys pops ∧ q ∉ Dict.keys (allReported env pops)

section

variable {env : RefreshEnv} {force : Bool}

theorem allReported_cons (p : String × Bool) (pops : List (String × Bool)) :
    allReported env (p :: pops) = updatesOf env p.2 p.1 ++ allReported env pops := rfl

theorem mem_keys_allReported_cons {p : String × Bool} {pops : List (String × Bool)} {q : String} :
    q ∈ Dict.keys (allReported env (p :: pops)) ↔
      q ∈ Dict.keys (updatesOf env p.2 p.1) ∨ q ∈ Dict.keys (allReported env pops) := by
  rw [allReported_cons]
  unfold Dict.keys
  rw [List.map_append, List.mem_append]

theorem mem_keys_allReported {q : String} : ∀ {pops : List (String × Bool)},
    q ∈ Dict.keys (allReported env pops) ↔ ∃ p ∈ pops, q ∈ Dict.keys (updatesOf env p.2 p.1)
  | [] => by simp [allReported, Dict.keys]
  | p :: pops => by rw [mem_keys_allReported_cons, mem_keys_allReported, List.exists_mem_cons_iff]

/-- A row that is still the old one is judged as before. -/
theorem isDue_congr {s s' : Refresh} {res : String} (h : s'.picked res = s.picked res) :
    isDue env force s' res = isDue env force s res ∧
      afterCheck env force s' res = afterCheck env force s res := by
  unfold isDue afterCheck
  rw [h]
  exact ⟨rfl, rfl⟩

theorem pops_spec {st st' : Refresh × List String} {pops : List (String × Bool)}
    (h : Pops env force st pops st') (hown : st.1.OwnRows) :
    Popped env force st.1 st.2 pops st'.1 st'.2 := by
  induction h with
  | done st =>
    exact
      { ownRows := hown
        frame := Refresh.Frame.refl st.1
        flags := fun p hp => absurd hp List.not_mem_nil
        order := List.Pairwise.nil
        shown := fun hlast => absurd hlast (Option.some_ne_none _).symm
        checked := fun _ hq => absurd hq List.not_mem_nil
        other := fun _ _ => rfl
        work := fun q => by simp [allReported, Dict.keys] }
  | @pop st st₁ st' res pops hres hround hrest ih =>
    have hone := refreshResource_spec hown hres hround
    have hlater := ih hone.ownRows
    -- a resource that is popped later still has the row it had
    have hsame : ∀ {q}, q ∈ st₁.2 → st₁.1.picked q = st.1.picked q := by
      intro q hq
      obtain ⟨-, hne, hnot⟩ := (hone.work q).mp hq
      exact hone.other hnot hne
    have hmember : ∀ {q}, q ∈ Dict.keys pops → q ∈ st₁.2 := by
      intro q hq
      obtain ⟨p, hp, rfl⟩ := List.mem_map.mp hq
      exact (hlater.flags p hp).1
    refine ⟨hlater.ownRows, hone.frame.trans hlater.frame, ?flags, ?order, ?shown, ?checked,
      ?other, ?work⟩
    case flags =>
      intro p hp
      rcases List.mem_cons.mp hp with rfl | hp
      · exact ⟨hres, rfl, hone.synced⟩
      · obtain ⟨hwork, hflag, hsync⟩ := hlater.flags p hp
        exact ⟨((hone.work _).mp hwork).1, hflag.trans (isDue_congr (hsame hwork)).1, hsync⟩
    case order =>
      refine List.pairwise_cons.mpr ⟨?_, hlater.order⟩
      intro p hp
      exact ((hone.work _).mp (hlater.flags p hp).1).2
    case shown =>
      intro q v hlast
      rw [allReported_cons, lastOf_append] at hlast
      cases hq : lastOf (allReported env pops) q with
      | some w =>
        rw [hq, Option.some_or, Option.some.injEq] at hlast
        rw [← hlast]
        exact hlater.shown hq
      | none =>
        rw [hq, Option.none_or] at hlast
        have hnot : q ∉ Dict.keys pops := by
          intro hpop
          have hgone := ((hone.work q).mp (hmember hpop)).2.2
          rw [lastOf_eq_none.mpr hgone] at hlast
          cases hlast
        unfold Refresh.shown
        rw [hlater.other (lastOf_eq_none.mp hq) hnot]
        exact hone.shown hlast
    case checked =>
      intro q hq hpop
      rw [mem_keys_allReported_cons, not_or] at hq
      rcases List.mem_cons.mp hpop with rfl | hpop
      · -- it is not popped twice
        have hnot : q ∉ Dict.keys pops := fun hpop => ((hone.work q).mp (hmember hpop)).2.1 rfl
        unfold Refresh.shown
        rw [hlater.other hq.2 hnot]
        exact hone.self hq.1
      · rw [hlater.checked hq.2 hpop]
        exact (isDue_congr (hsame (hmember hpop))).2
    case other =>
      intro q hq hpop
      rw [mem_keys_allReported_cons, not_or] at hq
      rw [Dict.keys_cons, List.mem_cons, not_or] at hpop
      rw [hlater.other hq.2 hpop.2, hone.other hq.1 hpop.1]
    case work =>
      intro q
      rw [hlater.work, hone.work, Dict.keys_cons, List.mem_cons, mem_keys_allReported_cons]
      tauto

end

/-! ## The rounds of an order -/

/-- The resources that are popped in an order, and whether they are due: what
follows from the state before the refresh. -/
def plan (env : RefreshEnv) (force : Bool) (s : Refresh) :
    List String → List String → List (String × Bool)
  | [], _ => []
  | res :: order, work =>
    if res ∉ work then plan env force s order work
    else
      let due := isDue env force s res
      (res, due) :: plan env force s order
        (work.filter (fun q => q != res && decide (q ∉ Dict.keys (updatesOf env due res))))

section

variable {env : RefreshEnv} {force : Bool}

/-- The plan looks at the rows of the work set only. -/
theorem plan_congr {s s' : Refresh} : ∀ {order work work' : List String},
    (∀ q, q ∈ work ↔ q ∈ work') → (∀ q ∈ work, s'.picked q = s.picked q) →
    plan env force s' order work' = plan env force s order work
  | [], _, _, _, _ => rfl
  | res :: order, work, work', hwork, h => by
    unfold plan
    by_cases hres : res ∈ work
    · rw [if_neg (not_not.mpr hres), if_neg (not_not.mpr ((hwork res).mp hres)),
        (isDue_congr (h res hres)).1]
      simp only [List.cons.injEq, true_and]
      apply plan_congr
      · intro q
        rw [List.mem_filter, List.mem_filter, hwork]
      · intro q hq
        exact h q (List.mem_filter.mp hq).1
    · rw [if_pos hres, if_pos (fun hres' => hres ((hwork res).mpr hres'))]
      exact plan_congr hwork h

theorem foldlM_pops : ∀ {order : List String} {st st' : Refresh × List String},
    st.1.OwnRows → order.foldlM (refreshResource env force) st = .ok st' →
    Pops env force st (plan env force st.1 order st.2) st'
  | [], st, st', _, h => by
    cases h
    exact Pops.done st
  | res :: order, st, st', hown, h => by
    rw [List.foldlM_cons] at h
    obtain ⟨st₁, hround, hrest⟩ := bind_ok_iff.mp h
    unfold plan
    by_cases hres : res ∈ st.2
    · have hone := refreshResource_spec hown hres hround
      have hlater := foldlM_pops hone.ownRows hrest
      have hplan : plan env force st₁.1 order st₁.2 = plan env force st.1 order
          (st.2.filter (fun q => q != res && decide
            (q ∉ Dict.keys (updatesOf env (isDue env force st.1 res) res)))) := by
        apply plan_congr
        · intro q
          rw [hone.work, List.mem_filter, Bool.and_eq_true, bne_iff_ne, decide_eq_true_iff]
        · intro q hq
          rw [List.mem_filter, Bool.and_eq_true, bne_iff_ne, decide_eq_true_iff] at hq
          exact hone.other hq.2.2 hq.2.1
      rw [if_neg (not_not.mpr hres)]
      simp only
      rw [← hplan]
      exact Pops.pop hres hround hlater
    · rw [if_pos hres]
      unfold refreshResource at hround
      rw [if_pos hres] at hround
      cases hround
      exact foldlM_pops hown hrest

/-- A resource whose turn comes is popped, unless it was reported before. -/
theorem mem_plan (env : RefreshEnv) (force : Bool) (s : Refresh) {q : String} :
    ∀ {order work : List String}, q ∈ order → q ∈ work →
    q ∈ Dict.keys (plan env force s order work) ∨
      q ∈ Dict.keys (allReported env (plan env force s order work))
  | [], _, horder, _ => absurd horder List.not_mem_nil
  | res :: order, work, horder, hwork => by
    unfold plan
    by_cases hres : res ∈ work
    · rw [if_neg (not_not.mpr hres)]
      simp only [Dict.keys_cons, List.mem_cons, mem_keys_allReported_cons]
      by_cases hq : q = res
      · exact .inl (.inl hq)
      · by_cases hupdated : q ∈ Dict.keys (updatesOf env (isDue env force s res) res)
        · exact .inr (.inl hupdated)
        · have hlater := mem_plan env force s (List.mem_of_ne_of_mem hq horder)
            (List.mem_filter.mpr ⟨hwork, by simp [hq, hupdated]⟩ : q ∈ work.filter (fun q =>
              q != res && decide (q ∉ Dict.keys (updatesOf env (isDue env force s res) res))))
          rcases hlater with hpop | hrep
          · exact .inl (.inr hpop)
          · exact .inr (.inr hrep)
    · rw [if_pos hres]
      have hq : q ≠ res := fun h => hres (h ▸ hwork)
      exact mem_plan env force s (List.mem_of_ne_of_mem hq horder) hwork

/-- **A refresh runs through its plan.** -/
theorem refresh_popped {keys : List String} {s s' : Refresh} (hown : s.OwnRows)
    (h : refreshQuotaUsagesIfNeeded env force keys s = .ok s') :
    ∃ work', Popped env force s keys (plan env force s env.order keys) s' work' := by
  obtain ⟨st, hst, h⟩ := bind_ok_iff.mp h
  cases h
  exact ⟨st.2, pops_spec (foldlM_pops hown hst) hown⟩

/-- The rows a request finds are its own. -/
theorem ownRows_start (t : UsageTable) (project user : Option String) (synced : List (Nat × Int)) :
    (Refresh.mk t (getProjectUserQuotaUsages t project user).2 synced).OwnRows where
  found := by
    intro res id h
    rw [lookup_userUsages] at h
    obtain ⟨row, hrow, rfl⟩ := Option.map_eq_some_iff.mp h
    exact ⟨row, t.byId_iff.mpr ⟨(pick_some hrow).1, rfl⟩⟩
  own := by
    intro res res' id h h'
    rw [lookup_userUsages] at h h'
    obtain ⟨row, hrow, hid⟩ := Option.map_eq_some_iff.mp h
    obtain ⟨row', hrow', hid'⟩ := Option.map_eq_some_iff.mp h'
    obtain ⟨hmem, hvisible⟩ := pick_some hrow
    obtain ⟨hmem', hvisible'⟩ := pick_some hrow'
    have heq := t.eq_of_key hmem hmem' (hid.trans hid'.symm)
    simp only [visible, Bool.and_eq_true, beq_iff_eq] at hvisible hvisible'
    rw [← hvisible.2, ← hvisible'.2, heq]

end

end PolarBear.Quota
