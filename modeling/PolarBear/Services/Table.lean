import Mathlib.Data.List.Nodup
import Mathlib.Data.List.Pairwise

/-!
# The `services` table

A row of `services` describes a service on a host. The table has a primary key
and two unique constraints, `(host, topic, deleted)` and `(host, binary,
deleted)`; in SQL a null never equals anything, so rows with a null host escape
both. `ServiceTable` carries the key and the constraints, and the two writes,
`insert?` and `update?`, return a table only if they still hold.

A row is deleted softly: `deleted` is `0` while it is live and its id after.
-/

namespace PolarBear.Services

/-- A row of `services`; times are seconds. -/
structure ServiceRow where
  id : Nat
  host : Option String
  binary : Option String
  topic : Option String
  reportCount : Nat
  disabled : Bool
  disabledReason : Option String
  lastSeenUp : Option Nat
  forcedDown : Bool
  version : Option Nat
  deleted : Nat
  deriving DecidableEq, Repr

def ServiceRow.live (r : ServiceRow) : Bool := r.deleted == 0

/-- SQL equality as a constraint uses it: a null equals nothing. -/
def sqlEq (a b : Option String) : Bool :=
  match a, b with
  | some x, some y => x == y
  | _, _ => false

/-- The constraints of the table. -/
inductive Constraint where
  | primary
  | hostTopic
  | hostBinary
  deriving DecidableEq, Repr

/-- The columns a `DBDuplicateEntry` names. -/
def Constraint.columns : Constraint → List String
  | .primary => ["id"]
  | .hostTopic => ["host", "topic", "deleted"]
  | .hostBinary => ["host", "binary", "deleted"]

/-- Two rows that a constraint does not allow together. -/
def Constraint.clash (r s : ServiceRow) : Constraint → Bool
  | .primary => r.id == s.id
  | .hostTopic => sqlEq r.host s.host && sqlEq r.topic s.topic && r.deleted == s.deleted
  | .hostBinary => sqlEq r.host s.host && sqlEq r.binary s.binary && r.deleted == s.deleted

/-- No constraint forbids the two rows. -/
def compatible (r s : ServiceRow) : Bool :=
  !Constraint.primary.clash r s && !Constraint.hostTopic.clash r s &&
    !Constraint.hostBinary.clash r s

/-- The table, with its constraints. -/
structure ServiceTable where
  rows : List ServiceRow
  sound : rows.Pairwise (fun r s => compatible r s = true)

theorem ServiceTable.sound_nil :
    ([] : List ServiceRow).Pairwise (fun r s => compatible r s = true) := List.Pairwise.nil

/-- The rows as a table, if the constraints allow it. -/
def ServiceTable.ofRows? (rows : List ServiceRow) : Option ServiceTable :=
  if h : rows.Pairwise (fun r s => compatible r s = true) then some ⟨rows, h⟩ else none

/-- Insert a row. -/
def ServiceTable.insert? (t : ServiceTable) (row : ServiceRow) : Option ServiceTable :=
  ServiceTable.ofRows? (t.rows ++ [row])

/-- Replace the row with the id of `row`. -/
def ServiceTable.update? (t : ServiceTable) (row : ServiceRow) : Option ServiceTable :=
  ServiceTable.ofRows? (t.rows.map (fun r => if r.id = row.id then row else r))

/-- `filter_by(host=host).filter_by(binary=binary).first()` over the live
rows. -/
def ServiceTable.byHostAndBinary (t : ServiceTable) (host binary : String) :
    Option ServiceRow :=
  t.rows.find? (fun r => r.live && r.host == some host && r.binary == some binary)

/-- `service_get`: the live row with an id. -/
def ServiceTable.byId (t : ServiceTable) (id : Nat) : Option ServiceRow :=
  t.rows.find? (fun r => r.live && r.id == id)

/-! ## What a write leaves -/

theorem ofRows?_rows {rows : List ServiceRow} {t : ServiceTable}
    (h : ServiceTable.ofRows? rows = some t) : t.rows = rows := by
  unfold ServiceTable.ofRows? at h
  split at h
  · cases h
    rfl
  · cases h

theorem ofRows?_isSome {rows : List ServiceRow}
    (h : rows.Pairwise (fun r s => compatible r s = true)) :
    ∃ t, ServiceTable.ofRows? rows = some t := by
  unfold ServiceTable.ofRows?
  rw [dif_pos h]
  exact ⟨_, rfl⟩

theorem insert?_rows {t t' : ServiceTable} {row : ServiceRow} (h : t.insert? row = some t') :
    t'.rows = t.rows ++ [row] := ofRows?_rows h

theorem update?_rows {t t' : ServiceTable} {row : ServiceRow} (h : t.update? row = some t') :
    t'.rows = t.rows.map (fun r => if r.id = row.id then row else r) := ofRows?_rows h

/-- An insert is refused because some row clashes with the new one. -/
theorem clash_of_insert?_none {t : ServiceTable} {row : ServiceRow} (h : t.insert? row = none) :
    ∃ r ∈ t.rows, compatible r row = false := by
  by_contra hno
  have hall : ∀ r ∈ t.rows, compatible r row = true := by
    intro r hr
    by_contra hc
    exact hno ⟨r, hr, by simpa using hc⟩
  have hpair : (t.rows ++ [row]).Pairwise (fun r s => compatible r s = true) := by
    rw [List.pairwise_append]
    refine ⟨t.sound, List.pairwise_singleton _ _, fun r hr s hs => ?_⟩
    rw [List.mem_singleton.mp hs]
    exact hall r hr
  obtain ⟨t', ht'⟩ := ofRows?_isSome hpair
  have hsome : t.insert? row = some t' := ht'
  rw [h] at hsome
  cases hsome

/-! ## Rows of one id, rows of one host and binary -/

theorem compatible_symm {r s : ServiceRow} (h : compatible r s = true) :
    compatible s r = true := by
  have hsql : ∀ a b : Option String, sqlEq a b = sqlEq b a := by
    intro a b
    unfold sqlEq
    cases a <;> cases b <;> first | rfl | exact Bool.beq_comm
  have hnat : ∀ a b : Nat, (a == b) = (b == a) := fun a b => Bool.beq_comm
  unfold compatible Constraint.clash at h ⊢
  rw [hnat s.id, hnat s.deleted, hsql s.host, hsql s.topic, hsql s.binary]
  exact h

/-- Two different rows of a table are compatible. -/
theorem ServiceTable.compatible_of_mem (t : ServiceTable) {r s : ServiceRow} (hr : r ∈ t.rows)
    (hs : s ∈ t.rows) (hne : r ≠ s) : compatible r s = true := by
  have : Std.Symm (fun r s => compatible r s = true) := ⟨fun _ _ => compatible_symm⟩
  exact t.sound.forall hr hs hne

/-- The id determines the row. -/
theorem ServiceTable.eq_of_id (t : ServiceTable) {r s : ServiceRow} (hr : r ∈ t.rows)
    (hs : s ∈ t.rows) (hid : r.id = s.id) : r = s := by
  by_contra hne
  have hc := t.compatible_of_mem hr hs hne
  simp [compatible, Constraint.clash, hid] at hc

/-- Host and binary determine a live row. -/
theorem ServiceTable.eq_of_hostBinary (t : ServiceTable) {r s : ServiceRow} {host binary : String}
    (hr : r ∈ t.rows) (hs : s ∈ t.rows) (hrl : r.live = true) (hsl : s.live = true)
    (hrh : r.host = some host) (hsh : s.host = some host) (hrb : r.binary = some binary)
    (hsb : s.binary = some binary) : r = s := by
  by_contra hne
  have hc := t.compatible_of_mem hr hs hne
  have hdel : r.deleted = s.deleted := by
    have h₁ : r.deleted = 0 := by simpa [ServiceRow.live] using hrl
    have h₂ : s.deleted = 0 := by simpa [ServiceRow.live] using hsl
    rw [h₁, h₂]
  simp [compatible, Constraint.clash, sqlEq, hrh, hsh, hrb, hsb, hdel] at hc

/-! ## Writes as sets of rows -/

/-- The table has the row, and otherwise the rows of `t` with other ids. -/
def Wrote (t : ServiceTable) (row : ServiceRow) (t' : ServiceTable) : Prop :=
  ∀ r, r ∈ t'.rows ↔ r = row ∨ (r ∈ t.rows ∧ r.id ≠ row.id)

theorem wrote_insert {t t' : ServiceTable} {row : ServiceRow} (h : t.insert? row = some t') :
    Wrote t row t' := by
  intro r
  have hrows := insert?_rows h
  have hfresh : ∀ s ∈ t.rows, s.id ≠ row.id := by
    intro s hs hid
    have hsound := t'.sound
    rw [hrows] at hsound
    have hc := (List.pairwise_append.mp hsound).2.2 s hs row (List.mem_singleton_self _)
    simp [compatible, Constraint.clash, hid] at hc
  rw [hrows, List.mem_append, List.mem_singleton]
  constructor
  · intro h
    rcases h with hr | hr
    · exact Or.inr ⟨hr, hfresh r hr⟩
    · exact Or.inl hr
  · intro h
    rcases h with hr | hr
    · exact Or.inr hr
    · exact Or.inl hr.1

theorem wrote_update {t t' : ServiceTable} {row old : ServiceRow} (hold : old ∈ t.rows)
    (hid : old.id = row.id) (h : t.update? row = some t') : Wrote t row t' := by
  intro r
  rw [update?_rows h, List.mem_map]
  constructor
  · intro h
    obtain ⟨s, hs, hr⟩ := h
    split at hr
    · exact Or.inl hr.symm
    · next hne =>
      rw [← hr]
      exact Or.inr ⟨hs, hne⟩
  · intro h
    rcases h with hr | ⟨hr, hne⟩
    · exact ⟨old, hold, by rw [if_pos hid, hr]⟩
    · exact ⟨r, hr, by rw [if_neg hne]⟩

/-! ## Reads -/

theorem byId_some {t : ServiceTable} {id : Nat} {r : ServiceRow} (h : t.byId id = some r) :
    r ∈ t.rows ∧ r.live = true ∧ r.id = id := by
  have hp := List.find?_some h
  simp only [Bool.and_eq_true, beq_iff_eq] at hp
  exact ⟨List.mem_of_find?_eq_some h, hp.1, hp.2⟩

theorem byHostAndBinary_some {t : ServiceTable} {host binary : String} {r : ServiceRow}
    (h : t.byHostAndBinary host binary = some r) :
    r ∈ t.rows ∧ r.live = true ∧ r.host = some host ∧ r.binary = some binary := by
  have hp := List.find?_some h
  simp only [Bool.and_eq_true, beq_iff_eq] at hp
  exact ⟨List.mem_of_find?_eq_some h, hp.1.1, hp.1.2, hp.2⟩

/-- A row that is written is what its id reads, if it is live. -/
theorem byId_wrote {t t' : ServiceTable} {row : ServiceRow} (h : Wrote t row t')
    (hlive : row.live = true) : t'.byId row.id = some row := by
  have hmem : row ∈ t'.rows := (h row).mpr (Or.inl rfl)
  cases hread : t'.byId row.id with
  | none =>
    have hno := List.find?_eq_none.mp hread row hmem
    simp [hlive] at hno
  | some r =>
    obtain ⟨hr, -, hid⟩ := byId_some hread
    rw [t'.eq_of_id hr hmem hid]

end PolarBear.Services
