import PolarBear.Lib.Transition
import PolarBear.Quota.Reserve

/-!
# Quota bookkeeping over runs

`Books` are the two tables with what the bookkeeping is compared with: for each
usage row the count it started from, which a sync function sets anew, and the
reservations committed since. `Balanced` says that every live row has the
positive deltas of its live reservations in `reserved`, and in `in_use` what it
started from and the committed deltas.

A reservation names its usage row, but committing and rolling back look the row up
again, by the resource and the user. `Consistent.linked` says that they find the
same row: a request never adds a row that another request, with a user, would
pick over the one it has (`Refreshed.stable`).
-/

namespace PolarBear.Quota

open Transition

/-- A live reservation of a usage row. -/
def heldBy (usageId : Nat) (r : Reservation) : Bool := !r.deleted && r.usageId == usageId

/-- What a reservation adds to `reserved`. -/
def Reservation.reserves (r : Reservation) : Int := max r.delta 0

/-- The sum of the positive deltas of the live reservations of a usage row. -/
def held (usageId : Nat) (rows : List Reservation) : Int :=
  sumWhere (heldBy usageId) Reservation.reserves rows

/-- The usage row that a request of the reservation's user would pick. -/
def Linked (usages : UsageTable) (r : Reservation) : Prop :=
  (pick usages r.projectId r.userId r.resource).map QuotaUsage.id = some r.usageId

/-- Tables in which `reserved` is right. -/
structure Consistent (t : QuotaTables) : Prop where
  perProject : PerProject t.usages
  linked : ∀ r ∈ t.reservations.rows, r.deleted = false → Linked t.usages r
  reserved : ∀ u ∈ t.usages.rows, u.deleted = false → u.reserved = held u.id t.reservations.rows

/-- The tables and, for each usage row, the count it started from and the
reservations committed since. -/
structure Books where
  tables : QuotaTables
  base : Nat → Int
  committed : Nat → List Reservation

/-- What `in_use` should be. -/
def Books.used (b : Books) (usageId : Nat) : Int :=
  b.base usageId + ((b.committed usageId).map Reservation.delta).sum

structure Balanced (b : Books) : Prop extends Consistent b.tables where
  inUse : ∀ u ∈ b.tables.usages.rows, u.deleted = false → u.inUse = b.used u.id

/-- The books on the first day. -/
def Books.opening (t : QuotaTables) : Books where
  tables := t
  base := fun id => ((t.usages.byId id).map QuotaUsage.inUse).getD 0
  committed := fun _ => []

theorem balanced_opening {t : QuotaTables} (h : Consistent t) : Balanced (Books.opening t) where
  toConsistent := h
  inUse := by
    intro u hu _
    have hbyId : t.usages.byId u.id = some u := t.usages.byId_iff.mpr ⟨hu, rfl⟩
    show u.inUse = ((t.usages.byId u.id).map QuotaUsage.inUse).getD 0 + 0
    rw [hbyId, Int.add_zero]
    rfl

/-! ## Adjusting rows -/

/-- The rows of `t` with `reserved` and `in_use` changed by an amount each. -/
structure Adjusted (reserved inUse : Nat → Int) (t t' : UsageTable) : Prop where
  perProject : PerProject t → PerProject t'
  picks : ∀ p u res,
    (pick t' p u res).map QuotaUsage.id = (pick t p u res).map QuotaUsage.id
  rows : ∀ u' ∈ t'.rows, ∃ u ∈ t.rows, SameKey u u' ∧
    u'.reserved = u.reserved + reserved u.id ∧ u'.inUse = u.inUse + inUse u.id

/-- An amount for one row. -/
def only (id : Nat) (amount : Int) (n : Nat) : Int := if n = id then amount else 0

theorem Adjusted.refl {reserved inUse : Nat → Int} (t : UsageTable) (hr : ∀ n, reserved n = 0)
    (hu : ∀ n, inUse n = 0) : Adjusted reserved inUse t t where
  perProject := fun h => h
  picks := fun _ _ _ => rfl
  rows := by
    intro u hu'
    refine ⟨u, hu', SameKey.refl u, ?_, ?_⟩
    · rw [hr, Int.add_zero]
    · rw [hu, Int.add_zero]

theorem Adjusted.trans {reserved inUse reserved' inUse' : Nat → Int} {t t' t'' : UsageTable}
    (h : Adjusted reserved inUse t t') (h' : Adjusted reserved' inUse' t' t'') :
    Adjusted (fun n => reserved n + reserved' n) (fun n => inUse n + inUse' n) t t'' where
  perProject := fun hp => h'.perProject (h.perProject hp)
  picks := fun p u res => (h'.picks p u res).trans (h.picks p u res)
  rows := by
    intro u'' hu''
    obtain ⟨u', hu', hkey', hres', huse'⟩ := h'.rows u'' hu''
    obtain ⟨u, hu, hkey, hres, huse⟩ := h.rows u' hu'
    rw [hkey.id] at hres' huse'
    refine ⟨u, hu, hkey.trans hkey', ?_, ?_⟩
    · rw [hres', hres, Int.add_assoc]
    · rw [huse', huse, Int.add_assoc]

theorem Adjusted.congr {reserved inUse reserved' inUse' : Nat → Int} {t t' : UsageTable}
    (h : Adjusted reserved inUse t t') (hr : ∀ n, reserved n = reserved' n)
    (hu : ∀ n, inUse n = inUse' n) : Adjusted reserved' inUse' t t' := by
  obtain rfl : reserved = reserved' := funext hr
  obtain rfl : inUse = inUse' := funext hu
  exact h

/-- Writing one row. -/
theorem adjusted_writeRow {now : Int} {t : UsageTable} {id : Nat} {f : QuotaUsage → QuotaUsage}
    (hid : ∀ r, (f r).id = r.id) (hsame : ∀ r, SameKey r (f r)) {reserved inUse : Int}
    (hr : ∀ r, (f r).reserved = r.reserved + reserved) (hu : ∀ r, (f r).inUse = r.inUse + inUse) :
    Adjusted (only id reserved) (only id inUse) t (writeRow now t id f hid) where
  perProject := fun h => h.writeRow hid hsame
  picks := pick_writeRow_id now t id hid hsame
  rows := by
    intro u' hu'
    obtain ⟨u, hmem, rfl⟩ := (mem_writeRow hid).mp hu'
    refine ⟨u, hmem, sameKey_written now id hsame u, ?_⟩
    unfold only
    by_cases h : u.id = id
    · obtain ⟨stamp, hwritten⟩ := written_eq now f h
      rw [hwritten, if_pos h, if_pos h]
      exact ⟨hr u, hu u⟩
    · rw [written_ne h, if_neg h, if_neg h]
      exact ⟨(Int.add_zero _).symm, (Int.add_zero _).symm⟩

/-- Adjusted rows balance if the reservations changed by the same amounts. -/
theorem Balanced.adjust {b b' : Books} {reserved inUse : Nat → Int} (h : Balanced b)
    (hadjusted : Adjusted reserved inUse b.tables.usages b'.tables.usages)
    (hlinked : ∀ r ∈ b'.tables.reservations.rows, r.deleted = false → Linked b.tables.usages r)
    (hheld : ∀ id, held id b'.tables.reservations.rows =
      held id b.tables.reservations.rows + reserved id)
    (hused : ∀ id, b'.used id = b.used id + inUse id) : Balanced b' := by
  refine ⟨⟨hadjusted.perProject h.perProject, ?_, ?_⟩, ?_⟩
  · intro r hr hlive
    exact (hadjusted.picks _ _ _).trans (hlinked r hr hlive)
  · intro u' hu' hlive
    obtain ⟨u, hu, hkey, hres, -⟩ := hadjusted.rows u' hu'
    rw [hres, hkey.id, hheld, h.reserved u hu (hkey.deleted ▸ hlive)]
  · intro u' hu' hlive
    obtain ⟨u, hu, hkey, -, huse⟩ := hadjusted.rows u' hu'
    rw [huse, hkey.id, hused, h.inUse u hu (hkey.deleted ▸ hlive)]

/-! ## Operations -/

/-- The calls of a run. -/
inductive Op where
  | reserve (env : RefreshEnv) (projectQuotas userQuotas deltas : List (String × Int))
      (expire : Int)
  | commit (now : Int) (reservations : List Nat) (project user : Option String)
  | rollback (now : Int) (reservations : List Nat) (project user : Option String)
  | expire (currentTime : Int)

/-- New rows start from 0, and rows that a sync function wrote from its count. -/
def Books.restart (b : Books) (synced : List (Nat × Int)) (t : QuotaTables) : Books where
  tables := t
  base := fun id =>
    (synced.lookup id).getD (if id < b.tables.usages.next then b.base id else 0)
  committed := fun id =>
    if synced.lookup id = none ∧ id < b.tables.usages.next then b.committed id else []

/-- The reservations a call settles. -/
def QuotaTables.batch (t : QuotaTables) (reservations : List Nat) : List Reservation :=
  t.reservations.rows.filter (quotaReservationsQuery reservations)

/-- An exception leaves the tables as they were. -/
def Books.step (b : Books) : Op → Books
  | .reserve env projectQuotas userQuotas deltas expire =>
    match quotaReserve env projectQuotas userQuotas deltas expire b.tables with
    | .error _ => b
    | .ok (_, t, synced) => b.restart synced t
  | .commit now reservations project user =>
    match reservationCommit now reservations project user b.tables with
    | .error _ => b
    | .ok t =>
      { b with
        tables := t
        committed := fun id =>
          (b.tables.batch reservations).filter (fun r => r.usageId == id) ++ b.committed id }
  | .rollback now reservations project user =>
    match reservationRollback now reservations project user b.tables with
    | .error _ => b
    | .ok t => { b with tables := t }
  | .expire currentTime => { b with tables := reservationExpire currentTime b.tables }

/-- Reserving for a user, and settling for the project and the user of the
reservations. -/
def Op.allowed (b : Books) : Op → Prop
  | .reserve env _ _ _ _ => env.user ≠ none
  | .commit _ reservations project user =>
    ∀ r ∈ b.tables.batch reservations, r.projectId = project ∧ r.userId = user
  | .rollback _ reservations project user =>
    ∀ r ∈ b.tables.batch reservations, r.projectId = project ∧ r.userId = user
  | .expire _ => True

/-- A call, if it is allowed. -/
def call (op : Op) (b b' : Books) : Prop := op.allowed b ∧ b' = b.step op

/-! ## Reserving -/

/-- The id of a picked row is below the next id. -/
theorem picked_lt_next {t : UsageTable} {p u : Option String} {res : String} {id : Nat}
    (h : (pick t p u res).map QuotaUsage.id = some id) : id < t.next := by
  obtain ⟨r, hr, rfl⟩ := Option.map_eq_some_iff.mp h
  exact t.below r (pick_some hr).1

theorem held_append (usageId : Nat) (rows : List Reservation) (r : Reservation) :
    held usageId (rows ++ [r]) =
      held usageId rows + (if heldBy usageId r then r.reserves else 0) := by
  unfold held
  rw [sumWhere_append, sumWhere_cons, sumWhere_nil, Int.add_zero]

theorem used_restart (b : Books) (synced : List (Nat × Int)) (t : QuotaTables) (id : Nat) :
    (b.restart synced t).used id =
      (synced.lookup id).getD (if id < b.tables.usages.next then b.used id else 0) := by
  show (synced.lookup id).getD (if id < b.tables.usages.next then b.base id else 0) +
    ((if synced.lookup id = none ∧ id < b.tables.usages.next then b.committed id
      else []).map Reservation.delta).sum = _
  cases synced.lookup id with
  | some v =>
    have hnot : ¬ (some v = none ∧ id < b.tables.usages.next) :=
      fun hand => Option.some_ne_none v hand.1
    rw [if_neg hnot]
    exact Int.add_zero v
  | none =>
    by_cases hlt : id < b.tables.usages.next
    · rw [if_pos hlt, if_pos ⟨rfl, hlt⟩, if_pos hlt]
      rfl
    · have hnot : ¬ ((none : Option Int) = none ∧ id < b.tables.usages.next) :=
        fun hand => hlt hand.2
      rw [if_neg hlt, if_neg hnot, if_neg hlt]
      rfl

/-- The refresh of a request that has a user. -/
theorem Balanced.refresh {b : Books} (h : Balanced b) {env : RefreshEnv} {s : Refresh}
    (hs : Refreshed env b.tables.usages s) (huser : env.user ≠ none) :
    Balanced (b.restart s.synced ⟨s.usages, b.tables.reservations⟩) := by
  -- a row is an old one or a new one
  have hcases : ∀ u' ∈ s.usages.rows,
      (∃ u ∈ b.tables.usages.rows, u'.id = u.id ∧ u'.deleted = u.deleted ∧
        u'.reserved = u.reserved ∧ u'.inUse = (s.synced.lookup u.id).getD u.inUse) ∨
      (b.tables.usages.next ≤ u'.id ∧ u'.reserved = 0 ∧
        u'.inUse = (s.synced.lookup u'.id).getD 0) := by
    intro u' hu'
    by_cases hlt : u'.id < b.tables.usages.next
    · obtain ⟨u, hu, hid⟩ := hs.known u' hu' hlt
      obtain ⟨u'', hu'', hkey, hres, hcnt⟩ := hs.old u hu
      obtain rfl : u'' = u' := s.usages.eq_of_key hu'' hu' (hkey.id.trans hid)
      exact Or.inl ⟨u, hu, hkey.id, hkey.deleted, hres, hcnt⟩
    · have hle : b.tables.usages.next ≤ u'.id := by omega
      obtain ⟨-, -, hres, -, hcnt⟩ := hs.created u' hu' hle
      exact Or.inr ⟨hle, hres, hcnt⟩
  refine ⟨⟨hs.perProject h.perProject, ?_, ?_⟩, ?_⟩
  · intro r hr hlive
    exact hs.stable h.perProject huser _ _ _ _ (h.linked r hr hlive)
  · intro u' hu' hlive
    rcases hcases u' hu' with ⟨u, hu, hid, hdel, hres, -⟩ | ⟨hle, hres, -⟩
    · rw [hres, hid]
      exact h.reserved u hu (hdel ▸ hlive)
    · -- nobody holds a new row
      rw [hres]
      symm
      apply sumWhere_eq_zero
      intro r hr hheld
      obtain ⟨hrlive, hrid⟩ : r.deleted = false ∧ r.usageId = u'.id := by
        simpa [heldBy] using hheld
      have hlt := picked_lt_next (h.linked r hr hrlive)
      omega
  · intro u' hu' hlive
    rw [used_restart]
    rcases hcases u' hu' with ⟨u, hu, hid, hdel, -, hcnt⟩ | ⟨hle, -, hcnt⟩
    · rw [hcnt, hid, if_pos (b.tables.usages.below u hu), h.inUse u hu (hdel ▸ hlive)]
    · rw [hcnt, if_neg (Nat.not_lt.mpr hle)]

theorem adjusted_addReserved (now : Int) (t : UsageTable) (usageId : Nat) (delta : Int) :
    Adjusted (only usageId (max delta 0)) (only usageId 0) t (addReserved now t usageId delta) := by
  unfold addReserved
  split
  · next hpos =>
    refine adjusted_writeRow (f := reserveUsage delta) _
      (fun _ => ⟨rfl, rfl, rfl, rfl, rfl⟩) ?_ ?_
    · intro r
      show r.reserved + delta = r.reserved + max delta 0
      omega
    · intro r
      exact (Int.add_zero r.inUse).symm
  · next hneg =>
    apply Adjusted.refl
    · intro n
      unfold only
      split <;> omega
    · intro n
      unfold only
      split <;> rfl

/-- A reservation for one resource. -/
theorem Balanced.reserveOne {b : Books} (h : Balanced b) {env : RefreshEnv} {expire : Int}
    {k k' : Booking} {d : String × Int} (hb : b.tables = k.tables) (hpicks : k.Picks env)
    (hone : reserveOne env expire k d = .ok k') :
    Balanced { b with tables := k'.tables } ∧ k'.Picks env ∧
      k'.refresh.synced = k.refresh.synced := by
  have hpicks' := hpicks.reserveOne hone
  obtain ⟨usageId, hlookup, rfl⟩ := reserveOne_ok hone
  have hadjusted : Adjusted (only usageId (max d.2 0)) (only usageId 0) b.tables.usages
      (addReserved env.now k.refresh.usages usageId d.2) := by
    rw [hb]
    exact adjusted_addReserved env.now k.refresh.usages usageId d.2
  refine ⟨h.adjust hadjusted ?_ ?_ ?_, hpicks', rfl⟩
  · intro r hr hlive
    rw [hb]
    rcases (Table.mem_insert (reservationCreate_uuid env usageId d.1 d.2 expire)).mp hr
      with hr | rfl
    · have hlinked := h.linked
      rw [hb] at hlinked
      exact hlinked r hr hlive
    · exact (hpicks d.1).symm.trans hlookup
  · intro id
    rw [hb]
    show held id (k.reservations.rows ++ [_]) = _
    rw [held_append]
    congr 1
    unfold only heldBy
    show (if (!false && usageId == id) = true then max d.2 0 else 0) = _
    by_cases hid : id = usageId
    · rw [if_pos (by simp [hid]), if_pos hid]
    · rw [if_neg (by simpa using fun h => hid h.symm), if_neg hid]
  · intro id
    unfold only
    split <;> exact (Int.add_zero _).symm

theorem Balanced.reserveAll {b : Books} (h : Balanced b) {env : RefreshEnv} {expire : Int}
    {deltas : List (String × Int)} {k k' : Booking} (hb : b.tables = k.tables)
    (hpicks : k.Picks env) (hk : deltas.foldlM (Quota.reserveOne env expire) k = .ok k') :
    Balanced { b with tables := k'.tables } ∧ k'.refresh.synced = k.refresh.synced := by
  let I : List (String × Int) → Booking → Prop := fun _ k₁ =>
    Balanced { b with tables := k₁.tables } ∧ k₁.Picks env ∧
      k₁.refresh.synced = k.refresh.synced
  have hround : ∀ {d deltas k₁ k₂}, I (d :: deltas) k₁ →
      Quota.reserveOne env expire k₁ d = .ok k₂ → I deltas k₂ := by
    rintro d deltas k₁ k₂ ⟨hbalanced, hpicks₁, hsynced⟩ hone
    obtain ⟨hbalanced₂, hpicks₂, hsynced₂⟩ := hbalanced.reserveOne rfl hpicks₁ hone
    exact ⟨hbalanced₂, hpicks₂, hsynced₂.trans hsynced⟩
  have hstart : I deltas k := ⟨hb ▸ h, hpicks, rfl⟩
  obtain ⟨hend, -, hsynced⟩ := Fallible.foldlM_ok hround hstart hk
  exact ⟨hend, hsynced⟩

/-- A request that has a user keeps the books balanced. -/
theorem Balanced.reserve {b : Books} (h : Balanced b) {env : RefreshEnv}
    (huser : env.user ≠ none) (projectQuotas userQuotas deltas : List (String × Int))
    (expire : Int) : Balanced (b.step (.reserve env projectQuotas userQuotas deltas expire)) := by
  simp only [Books.step]
  cases hok : quotaReserve env projectQuotas userQuotas deltas expire b.tables with
  | error e => exact h
  | ok out =>
    obtain ⟨uuids, t', synced⟩ := out
    obtain ⟨s, k, hs, -, hk, rfl, rfl⟩ := quotaReserve_ok hok
    have hrefreshed := refresh_spec hs
    have hstart := h.refresh hrefreshed huser
    have hpicks : Booking.Picks env ⟨s, b.tables.reservations, []⟩ := hrefreshed.picks
    obtain ⟨hend, hsynced⟩ := hstart.reserveAll rfl hpicks hk
    rw [hsynced]
    exact hend

/-! ## Settling -/

/-- The usage rows after the reservations of `batch` were settled. -/
def settledUsages (commit : Bool) (now : Int) (batch : List Reservation) (t : UsageTable) :
    UsageTable :=
  batch.foldl (fun usages r => settleRow commit now usages r.usageId r.delta) t

/-- The reservations of a usage row. -/
def ofUsage (usageId : Nat) (r : Reservation) : Bool := r.usageId == usageId

theorem sumWhere_ofUsage_cons (n : Nat) (w : Reservation → Int) (r : Reservation)
    (batch : List Reservation) : sumWhere (ofUsage n) w (r :: batch) =
      only r.usageId (w r) n + sumWhere (ofUsage n) w batch := by
  rw [sumWhere_cons]
  congr 1
  unfold ofUsage only
  by_cases hn : n = r.usageId
  · rw [if_pos hn, if_pos (beq_iff_eq.mpr hn.symm)]
  · rw [if_neg hn, if_neg (fun h => hn (beq_iff_eq.mp h).symm)]

/-- One reservation. -/
theorem adjusted_settleRow (commit : Bool) (now : Int) (t : UsageTable) (id : Nat) (delta : Int) :
    Adjusted (only id (-max delta 0)) (only id (if commit then delta else 0)) t
      (settleRow commit now t id delta) := by
  refine adjusted_writeRow (f := settleUsage commit delta) _
    (fun _ => ⟨rfl, rfl, rfl, rfl, rfl⟩) ?_ ?_
  · intro r
    show (if 0 ≤ delta then r.reserved - delta else r.reserved) = _
    split <;> omega
  · intro r
    show (if commit then r.inUse + delta else r.inUse) = _
    split
    · rfl
    · exact (Int.add_zero _).symm

/-- **Settling** takes the positive deltas out of `reserved`; committing adds all
deltas to `in_use`. -/
theorem adjusted_settledUsages (commit : Bool) (now : Int) (batch : List Reservation) :
    ∀ t, Adjusted (fun n => -sumWhere (ofUsage n) Reservation.reserves batch)
      (fun n => if commit then sumWhere (ofUsage n) Reservation.delta batch else 0) t
      (settledUsages commit now batch t) := by
  induction batch with
  | nil =>
    intro t
    apply Adjusted.refl
    · intro n
      rfl
    · intro n
      split <;> rfl
  | cons r batch ih =>
    intro t
    refine ((adjusted_settleRow commit now t r.usageId r.delta).trans (ih _)).congr ?_ ?_
    · intro n
      show only _ _ n + -sumWhere _ _ batch = -sumWhere _ _ (r :: batch)
      rw [sumWhere_ofUsage_cons]
      unfold only Reservation.reserves
      split <;> omega
    · intro n
      show only _ _ n + (if commit then sumWhere _ _ batch else 0) =
        if commit then sumWhere _ _ (r :: batch) else 0
      rw [sumWhere_ofUsage_cons]
      unfold only
      cases commit with
      | true => rfl
      | false => split <;> rfl

theorem mem_softDelete {t : Table Reservation Reservation.uuid} {q : Reservation → Bool}
    {r : Reservation} (h : r ∈ (softDelete t q).rows) (hlive : r.deleted = false) :
    r ∈ t.rows := by
  obtain ⟨r₀, hr₀, rfl⟩ := (Table.mem_modify _).mp h
  split at hlive
  · cases hlive
  · next hq => rwa [if_neg hq]

/-- What is held after the reservations of a batch, all live, are deleted. -/
theorem held_softDelete (t : Table Reservation Reservation.uuid) {q : Reservation → Bool}
    (hq : ∀ r, q r = true → r.deleted = false) (id : Nat) :
    held id (softDelete t q).rows =
      held id t.rows + -sumWhere (ofUsage id) Reservation.reserves (t.rows.filter q) := by
  have hsplit := sumWhere_split (heldBy id) q Reservation.reserves t.rows
  have hbatch : sumWhere (ofUsage id) Reservation.reserves (t.rows.filter q) =
      sumWhere (fun r => heldBy id r && q r) Reservation.reserves t.rows := by
    rw [sumWhere_filter]
    refine sumWhere_congr (fun r _ => ?_) (fun _ _ _ => rfl)
    unfold heldBy ofUsage
    by_cases hr : q r = true
    · rw [hq r hr, hr]
      rfl
    · rw [Bool.not_eq_true] at hr
      rw [hr, Bool.and_false, Bool.and_false]
  have hrest : held id (softDelete t q).rows =
      sumWhere (fun r => heldBy id r && !q r) Reservation.reserves t.rows := by
    show sumWhere (heldBy id) Reservation.reserves (t.rows.map _) = _
    rw [sumWhere_map]
    refine sumWhere_congr (fun r _ => ?_) (fun r _ hheld => ?_)
    · unfold heldBy
      by_cases hr : q r = true
      · rw [if_pos hr, hr, Bool.not_true, Bool.and_false]
        rfl
      · rw [if_neg hr, Bool.eq_false_iff.mpr hr]
        exact (Bool.and_true _).symm
    · split <;> rfl
  unfold held at hrest ⊢
  rw [hrest, hsplit, hbatch]
  omega

/-- Settling a batch of live reservations keeps the books balanced, if those that
are committed are entered. -/
theorem Balanced.settled {b : Books} (h : Balanced b) (commit : Bool) (now : Int)
    {q : Reservation → Bool} (hq : ∀ r, q r = true → r.deleted = false)
    {committed : Nat → List Reservation}
    (hcommitted : ∀ id, ((committed id).map Reservation.delta).sum =
      ((b.committed id).map Reservation.delta).sum +
        if commit then sumWhere (ofUsage id) Reservation.delta (b.tables.reservations.rows.filter q)
        else 0) :
    Balanced ⟨⟨settledUsages commit now (b.tables.reservations.rows.filter q) b.tables.usages,
      softDelete b.tables.reservations q⟩, b.base, committed⟩ := by
  refine h.adjust (adjusted_settledUsages commit now _ _) ?_ ?_ ?_
  · intro r hr hlive
    exact h.linked r (mem_softDelete hr hlive) hlive
  · exact held_softDelete b.tables.reservations hq
  · intro id
    show b.base id + _ = b.base id + _ + _
    rw [hcommitted, Int.add_assoc]

/-- **Committing and rolling back** find the rows that the reservations name. -/
theorem settle_eq {t : QuotaTables} (hlinked : ∀ r ∈ t.reservations.rows, r.deleted = false →
      Linked t.usages r) {reservations : List Nat} {project user : Option String}
    (hown : ∀ r ∈ t.batch reservations, r.projectId = project ∧ r.userId = user)
    (commit : Bool) (now : Int) :
    settle commit now reservations project user t =
      .ok ⟨settledUsages commit now (t.batch reservations) t.usages,
        softDelete t.reservations (quotaReservationsQuery reservations)⟩ := by
  have hlookup : ∀ r ∈ t.batch reservations,
      (getProjectUserQuotaUsages t.usages project user).2.lookup r.resource = some r.usageId := by
    intro r hr
    obtain ⟨hmem, hquery⟩ := List.mem_filter.mp hr
    obtain ⟨rfl, rfl⟩ := hown r hr
    have hlive : r.deleted = false := by
      have h := (Bool.and_eq_true_iff.mp hquery).1
      rwa [Bool.not_eq_true'] at h
    rw [lookup_userUsages]
    exact hlinked r hmem hlive
  have hfold : ∀ (batch : List Reservation) (usages : UsageTable),
      (∀ r ∈ batch, (getProjectUserQuotaUsages t.usages project user).2.lookup r.resource =
        some r.usageId) →
      batch.foldlM (settleOne commit now (getProjectUserQuotaUsages t.usages project user).2)
        usages = .ok (settledUsages commit now batch usages) := by
    intro batch
    induction batch with
    | nil =>
      intro usages _
      rfl
    | cons r batch ih =>
      intro usages hbatch
      have hone : settleOne commit now (getProjectUserQuotaUsages t.usages project user).2 usages r
          = .ok (settleRow commit now usages r.usageId r.delta) := by
        unfold settleOne
        rw [hbatch r (List.mem_cons_self ..)]
      rw [List.foldlM_cons, hone]
      exact ih _ (fun s hs => hbatch s (List.mem_cons_of_mem _ hs))
  show ((t.batch reservations).foldlM (settleOne commit now _) t.usages >>= _) = _
  rw [hfold _ _ hlookup]
  rfl

theorem live_of_query {reservations : List Nat} {r : Reservation}
    (h : quotaReservationsQuery reservations r = true) : r.deleted = false := by
  have hlive := (Bool.and_eq_true_iff.mp h).1
  rwa [Bool.not_eq_true'] at hlive

theorem live_of_expired {now : Int} {r : Reservation} (h : expired now r = true) :
    r.deleted = false := by
  have hlive := (Bool.and_eq_true_iff.mp h).1
  rwa [Bool.not_eq_true'] at hlive

/-- A negative delta was not reserved, and is not given back. -/
theorem settleRow_neg {delta : Int} (h : ¬ 0 ≤ delta) (now : Int) (t : UsageTable) (id : Nat) :
    settleRow false now t id delta = t := by
  have hsame : ∀ r, settleUsage false delta r = r := by
    intro r
    unfold settleUsage
    rw [if_neg h, if_neg Bool.false_ne_true]
  refine Table.modify_eq_self (write_id (f := settleUsage false delta) now (fun _ => rfl))
    (fun r _ _ => ?_)
  unfold QuotaUsage.write
  rw [if_pos (hsame r)]

/-- **Expiring** settles the expired reservations like a rollback. -/
theorem reservationExpire_eq (now : Int) (t : QuotaTables) :
    reservationExpire now t =
      ⟨settledUsages false now (t.reservations.rows.filter (expired now)) t.usages,
        softDelete t.reservations (expired now)⟩ := by
  have hone : (fun (usages : UsageTable) (r : Reservation) =>
        if 0 ≤ r.delta then settleRow false now usages r.usageId r.delta else usages) =
      fun usages r => settleRow false now usages r.usageId r.delta := by
    funext usages r
    split
    · rfl
    · next h => exact (settleRow_neg h now usages r.usageId).symm
  show QuotaTables.mk (List.foldl _ t.usages _) _ = _
  rw [hone]
  rfl

/-- **One call** keeps the books balanced. -/
theorem Balanced.step {b : Books} (h : Balanced b) {op : Op} (hallowed : op.allowed b) :
    Balanced (b.step op) := by
  cases op with
  | reserve env projectQuotas userQuotas deltas expire =>
    exact h.reserve hallowed projectQuotas userQuotas deltas expire
  | commit now reservations project user =>
    have hok : reservationCommit now reservations project user b.tables = _ :=
      settle_eq h.linked hallowed true now
    simp only [Books.step, hok]
    refine h.settled true now (fun _ => live_of_query) (fun id => ?_)
    rw [List.map_append, List.sum_append, Int.add_comm]
    rfl
  | rollback now reservations project user =>
    have hok : reservationRollback now reservations project user b.tables = _ :=
      settle_eq h.linked hallowed false now
    simp only [Books.step, hok]
    exact h.settled false now (fun _ => live_of_query) (fun id => (Int.add_zero _).symm)
  | expire now =>
    simp only [Books.step, reservationExpire_eq]
    exact h.settled false now (fun _ => live_of_expired) (fun id => (Int.add_zero _).symm)

/-! ## Settled reservations -/

/-- The reservation with a uuid was committed, rolled back or expired. -/
def QuotaTables.Settled (t : QuotaTables) (uuid : Nat) : Prop :=
  ∃ r ∈ t.reservations.rows, r.uuid = uuid ∧ r.deleted = true

theorem settled_softDelete {t : Table Reservation Reservation.uuid} {q : Reservation → Bool}
    {uuid : Nat} (h : ∃ r ∈ t.rows, r.uuid = uuid ∧ r.deleted = true) :
    ∃ r ∈ (softDelete t q).rows, r.uuid = uuid ∧ r.deleted = true := by
  obtain ⟨r, hr, rfl, hdel⟩ := h
  refine ⟨_, (Table.mem_modify _).mpr ⟨r, hr, rfl⟩, ?_⟩
  split
  · exact ⟨rfl, rfl⟩
  · exact ⟨rfl, hdel⟩

/-- Reserving deletes no reservation. -/
theorem mem_reserveAll {env : RefreshEnv} {expire : Int} {deltas : List (String × Int)}
    {k k' : Booking} (h : deltas.foldlM (reserveOne env expire) k = .ok k') {r : Reservation}
    (hr : r ∈ k.reservations.rows) : r ∈ k'.reservations.rows := by
  let I : List (String × Int) → Booking → Prop := fun _ k₁ => r ∈ k₁.reservations.rows
  have hround : ∀ {d deltas k₁ k₂}, I (d :: deltas) k₁ →
      reserveOne env expire k₁ d = .ok k₂ → I deltas k₂ := by
    intro d deltas k₁ k₂ hmem hone
    obtain ⟨usageId, -, rfl⟩ := reserveOne_ok hone
    exact (Table.mem_insert (reservationCreate_uuid env _ _ _ _)).mpr (Or.inl hmem)
  exact Fallible.foldlM_ok hround (show I deltas k from hr) h

/-- A settled reservation stays settled. -/
theorem settled_step {b : Books} {uuid : Nat} (h : b.tables.Settled uuid) (op : Op) :
    (b.step op).tables.Settled uuid := by
  have hsettle : ∀ {commit now reservations project user t'},
      settle commit now reservations project user b.tables = .ok t' → t'.Settled uuid := by
    intro commit now reservations project user t' ht'
    obtain ⟨usages, -, ht'⟩ := Fallible.bind_ok_iff.mp ht'
    cases ht'
    exact settled_softDelete h
  cases op with
  | reserve env projectQuotas userQuotas deltas expire =>
    simp only [Books.step]
    cases hok : quotaReserve env projectQuotas userQuotas deltas expire b.tables with
    | error e => exact h
    | ok out =>
      obtain ⟨uuids, t', synced⟩ := out
      obtain ⟨s, k, -, -, hk, rfl, rfl⟩ := quotaReserve_ok hok
      obtain ⟨r, hr, hid, hdel⟩ := h
      exact ⟨r, mem_reserveAll hk hr, hid, hdel⟩
  | commit now reservations project user =>
    simp only [Books.step]
    cases hok : reservationCommit now reservations project user b.tables with
    | error e => exact h
    | ok t' => exact hsettle hok
  | rollback now reservations project user =>
    simp only [Books.step]
    cases hok : reservationRollback now reservations project user b.tables with
    | error e => exact h
    | ok t' => exact hsettle hok
  | expire now => exact settled_softDelete h

/-- Settling a settled reservation with others is settling the others. -/
theorem settle_settled {t : QuotaTables} {uuid : Nat} (h : t.Settled uuid) (commit : Bool)
    (now : Int) (reservations : List Nat) (project user : Option String) :
    settle commit now (uuid :: reservations) project user t =
      settle commit now reservations project user t := by
  obtain ⟨r, hr, hid, hdel⟩ := h
  have hquery : ∀ s ∈ t.reservations.rows,
      quotaReservationsQuery (uuid :: reservations) s = quotaReservationsQuery reservations s := by
    intro s hs
    unfold quotaReservationsQuery
    by_cases hsid : s.uuid = uuid
    · obtain rfl : s = r := t.reservations.eq_of_key hs hr (hsid.trans hid.symm)
      rw [hdel]
      rfl
    · have hne : (s.uuid == uuid) = false := beq_eq_false_iff_ne.mpr hsid
      rw [List.contains_cons, hne, Bool.false_or]
  have hdelete : softDelete t.reservations (quotaReservationsQuery (uuid :: reservations)) =
      softDelete t.reservations (quotaReservationsQuery reservations) := by
    apply Table.eq_of_rows
    · apply List.map_congr_left
      intro s hs
      rw [hquery s hs]
    · rfl
  unfold settle
  rw [List.filter_congr hquery, hdelete]

/-- Settling nothing changes nothing. -/
theorem settle_nil (t : QuotaTables) (commit : Bool) (now : Int) (project user : Option String) :
    settle commit now [] project user t = .ok t := by
  have hquery : ∀ r, quotaReservationsQuery [] r = false := fun r => Bool.and_false _
  have hnone : t.reservations.rows.filter (quotaReservationsQuery []) = [] :=
    List.filter_eq_nil_iff.mpr (fun r _ => by rw [hquery]; exact Bool.false_ne_true)
  have hdelete : softDelete t.reservations (quotaReservationsQuery []) = t.reservations := by
    refine Table.modify_eq_self _ (fun r _ hr => ?_)
    rw [hquery] at hr
    cases hr
  unfold settle
  rw [hnone, hdelete]
  rfl

/-- Where only settled reservations are past their time, expiring changes
nothing. -/
theorem expire_settled {t : QuotaTables} {now : Int}
    (h : ∀ r ∈ t.reservations.rows, expired now r = false) : reservationExpire now t = t := by
  have hnone : t.reservations.rows.filter (expired now) = [] :=
    List.filter_eq_nil_iff.mpr (fun r hr => by rw [h r hr]; exact Bool.false_ne_true)
  have hdelete : softDelete t.reservations (expired now) = t.reservations := by
    refine Table.modify_eq_self _ (fun r hr hexpired => ?_)
    rw [h r hr] at hexpired
    cases hexpired
  rw [reservationExpire_eq, hnone, hdelete]
  rfl

/-! ## Runs -/

/-- **Quota bookkeeping over runs.** From tables in which `reserved` is right, over
any run of requests of users and of settlements for the project and user of the
reservations, every live usage row has the positive deltas of its live
reservations in `reserved`, and in `in_use` the count it started from and the
deltas committed since. Settling what is settled changes nothing. -/
theorem bookkeeping_exact {t : QuotaTables} {b : Books} {ops : List Op} (h : Consistent t)
    (hrun : Run call (Books.opening t) ops b) :
    (∀ u ∈ b.tables.usages.rows, u.deleted = false →
      u.reserved = held u.id b.tables.reservations.rows ∧ 0 ≤ u.reserved ∧
      u.inUse = b.used u.id) ∧
    (∀ uuid, t.Settled uuid → b.tables.Settled uuid) ∧
    (∀ uuid, b.tables.Settled uuid → ∀ commit now reservations project user,
      settle commit now (uuid :: reservations) project user b.tables =
        settle commit now reservations project user b.tables ∧
      settle commit now [] project user b.tables = .ok b.tables) ∧
    (∀ now, (∀ r ∈ b.tables.reservations.rows, expired now r = false) →
      reservationExpire now b.tables = b.tables) := by
  refine ⟨?_, ?_, ?_, fun now hnow => expire_settled hnow⟩
  · have hbalanced : Balanced b := hrun.invariant
      (fun op b b' hb hcall => hcall.2 ▸ hb.step hcall.1) (balanced_opening h)
    intro u hu hlive
    have hreserved := hbalanced.reserved u hu hlive
    refine ⟨hreserved, ?_, hbalanced.inUse u hu hlive⟩
    rw [hreserved]
    apply sumWhere_nonneg
    intro r _ _
    exact Int.le_max_right _ _
  · intro uuid huuid
    have hkeep : ∀ op (b b' : Books), b.tables.Settled uuid → call op b b' →
        b'.tables.Settled uuid :=
      fun op b b' hb hcall => hcall.2 ▸ settled_step hb op
    exact hrun.invariant hkeep huuid
  · intro uuid huuid commit now reservations project user
    exact ⟨settle_settled huuid commit now reservations project user,
      settle_nil b.tables commit now project user⟩

/-- A row of the project `p`. -/
def sampleUsage (user : Option String) (resource : String) (inUse reserved : Int) : QuotaUsage :=
  ⟨0, some "p", user, resource, inUse, reserved, none, 0, false⟩

/-- A usage row of the user `u` and one reservation on it. -/
def sampleTables (resource : String) (inUse delta : Int) : QuotaTables where
  usages :=
    { rows := [sampleUsage (some "u") resource inUse delta]
      next := 1
      sorted := List.pairwise_singleton _ _
      below := by simp [sampleUsage] }
  reservations :=
    { rows := [⟨0, 0, some "p", some "u", resource, delta, 60, false⟩]
      next := 1
      sorted := List.pairwise_singleton _ _
      below := by simp }

/-- What a request works with whose sync function reports the counts. -/
def sampleEnv (user : Option String) (resource : String) (counts : List (String × Int)) :
    RefreshEnv :=
  ⟨some "p", user, none, 0, 1, [resource], fun _ => some counts⟩

/-- A request for one more of a resource. -/
def sampleRequest (user : Option String) (resource : String) (counts : List (String × Int)) : Op :=
  .reserve (sampleEnv user resource counts) [(resource, 9)] [(resource, 9)] [(resource, 1)] 60

theorem sampleTables_consistent : Consistent (sampleTables "instances" 5 2) where
  perProject := by
    unfold PerProject
    decide
  linked := by
    unfold Linked
    decide
  reserved := by decide

/-- A user with a row for `instances` asks for `cores`, and the first reservation
is committed. -/
theorem bookkeeping_exact_sample :
    let request := sampleRequest (some "u") "cores" [("instances", 3), ("cores", 4)]
    let b := ((Books.opening (sampleTables "instances" 5 2)).step request).step
      (.commit 2 [0] (some "p") (some "u"))
    ∀ u ∈ b.tables.usages.rows, u.deleted = false →
      u.reserved = held u.id b.tables.reservations.rows ∧ 0 ≤ u.reserved ∧
      u.inUse = b.used u.id :=
  (bookkeeping_exact sampleTables_consistent
    (.cons ⟨by simp [sampleRequest, sampleEnv, Op.allowed], rfl⟩
      (.cons ⟨by unfold Op.allowed; decide, rfl⟩ (.nil _)))).1

/-- The counts of the usage rows. -/
def Books.counts (b : Books) : List (Nat × Int × Int) :=
  b.tables.usages.rows.map (fun u => (u.id, u.inUse, u.reserved))

/-- **Where the bookkeeping is not exact.** The row that is added for `cores` is
synced with the row for `instances`, which needed no refresh: its 5 become 3. A
request without a user adds a row that the user's commit then picks, and so does
the request of another user where the row of a project resource has a user; the
commit makes `reserved` of the wrong row negative. -/
theorem bookkeeping_inexact :
    (isQuotaRefreshNeeded (sampleEnv (some "u") "cores" [("instances", 3), ("cores", 4)])
      (sampleUsage (some "u") "instances" 5 2)).1 = false ∧
    (Books.opening (sampleTables "instances" 5 2)).counts = [(0, 5, 2)] ∧
    ((Books.opening (sampleTables "instances" 5 2)).step
      (sampleRequest (some "u") "cores" [("instances", 3), ("cores", 4)])).counts =
        [(0, 3, 2), (1, 4, 1)] ∧
    (((Books.opening (sampleTables "instances" 5 2)).step
      (sampleRequest none "instances" [("instances", 3)])).step
      (.commit 2 [0] (some "p") (some "u"))).counts = [(0, 5, 2), (1, 5, -1)] ∧
    (((Books.opening (sampleTables "networks" 5 2)).step
      (sampleRequest (some "v") "networks" [("networks", 3)])).step
      (.commit 2 [0] (some "p") (some "u"))).counts = [(0, 5, 2), (1, 5, -1)] := by
  decide

end PolarBear.Quota
