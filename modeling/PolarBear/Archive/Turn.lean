import PolarBear.Archive.Tables

/-!
# One table

What `_archive_deleted_rows_for_table` does, however it ends (`Turn`). Rows are marked
and then taken out in two steps, of which each may be refused; nothing is lost
(`Moved`). What counts as a row of a deleted instance can only become less on the way
(`Shrinks`), so a table from which all was taken out stays `Settled`.
-/

namespace PolarBear.Archive

open PolarBear.Extract
open PolarBear.Fallible

variable {δ : Type} {refuses : ForeignKeys δ} {now : Nat} {name : String} {db db' : Database δ}
  {t t' t₁ : Table δ} {s : State δ}

/-! ## Rows of deleted instances -/

def Database.deletedUuids (db : Database δ) : List String :=
  match db.table "instances" with
  | some instances => Archive.deletedUuids instances
  | none => []

def Database.deletedActions (db : Database δ) : List Key :=
  match db.table "instance_actions" with
  | some instanceActions => actionIds db.deletedUuids instanceActions
  | none => []

/-- The rows that are soft-deleted with their instances. -/
def goesWith (db : Database δ) (name : String) (r : Row δ) : Bool :=
  if name = "instance_actions" ∨ name = "migrations" then ofInstances db.deletedUuids r
  else if name = "instance_actions_events" then ofActions db.deletedActions r
  else false

/-- There are no more rows of deleted instances than before. -/
structure Shrinks (db db' : Database δ) : Prop where
  uuids : ∀ uuid ∈ db'.deletedUuids, uuid ∈ db.deletedUuids
  actions : ∀ id ∈ db'.deletedActions, id ∈ db.deletedActions

theorem Shrinks.refl (db : Database δ) : Shrinks db db := ⟨fun _ h => h, fun _ h => h⟩

theorem Shrinks.trans {db'' : Database δ} (h : Shrinks db db') (h' : Shrinks db' db'') :
    Shrinks db db'' :=
  ⟨fun uuid hu => h.uuids uuid (h'.uuids uuid hu), fun id hi => h.actions id (h'.actions id hi)⟩

theorem ofInstances_mono {uuids uuids' : List String} (h : ∀ uuid ∈ uuids', uuid ∈ uuids)
    {r : Row δ} (hr : ofInstances uuids' r = true) : ofInstances uuids r = true := by
  unfold ofInstances at hr ⊢
  split at hr
  · exact decide_eq_true (h _ (of_decide_eq_true hr))
  · cases hr

theorem ofActions_mono {ids ids' : List Key} (h : ∀ id ∈ ids', id ∈ ids) {r : Row δ}
    (hr : ofActions ids' r = true) : ofActions ids r = true := by
  unfold ofActions at hr ⊢
  split at hr
  · exact decide_eq_true (h _ (of_decide_eq_true hr))
  · cases hr

theorem Shrinks.goesWith (h : Shrinks db db') {r : Row δ} (hr : goesWith db' name r = true) :
    goesWith db name r = true := by
  unfold Archive.goesWith at hr ⊢
  split at hr
  · next hname =>
    rw [if_pos hname]
    exact ofInstances_mono h.uuids hr
  · next hname =>
    rw [if_neg hname]
    split at hr
    · next hevents =>
      rw [if_pos hevents]
      exact ofActions_mono h.actions hr
    · cases hr

/-! ## The mark -/

theorem softDelete_ofInstances (uuids : List String) (now : Nat) (p : Row δ → Bool) (r : Row δ) :
    ofInstances uuids (softDeleteIf now p r) = ofInstances uuids r := by
  unfold softDeleteIf
  split <;> rfl

/-- What goes with an instance does so marked or not. -/
theorem goesWith_softDeleteIf (db : Database δ) (name : String) (now : Nat) (p : Row δ → Bool)
    (r : Row δ) : goesWith db name (softDeleteIf now p r) = goesWith db name r := by
  unfold softDeleteIf
  split <;> rfl

theorem softDeleteIf_of_false {p : Row δ → Bool} {r : Row δ} (h : p r = false) :
    softDeleteIf now p r = r := by
  unfold softDeleteIf
  rw [if_neg (by rw [h]; exact Bool.false_ne_true)]

theorem softDeleteIf_of_true {p : Row δ → Bool} {r : Row δ} (h : p r = true) :
    softDeleteIf now p r = r.softDelete now := by
  unfold softDeleteIf
  rw [if_pos h]

/-- The mark does not depend on the time. -/
theorem softDeleted_softDelete (now now' : Nat) (r : Row δ) :
    softDeleted (r.softDelete now) = softDeleted (r.softDelete now') := rfl

theorem Table.eq_of_parts (hcolumns : t.columns = t'.columns) (hrows : t.rows = t'.rows)
    (hshadow : t.shadow = t'.shadow) : t = t' := by
  obtain ⟨columns, rows, shadow, _⟩ := t
  obtain ⟨columns', rows', shadow', _⟩ := t'
  cases hcolumns
  cases hrows
  cases hshadow
  rfl

theorem Table.softDelete_of_false {p : Row δ → Bool} (h : ∀ r, p r = false) :
    t.softDelete now p = t := by
  refine Table.eq_of_parts rfl ?_ rfl
  conv_rhs => rw [← List.map_id t.rows]
  exact List.map_congr_left (fun r _ => softDeleteIf_of_false (h r))

/-! ## One table is replaced -/

theorem Database.put_self (db : Database δ) (name : String) (t : Table δ) :
    (db.put name t).table name = some t := Function.update_self ..

theorem Database.put_other (db : Database δ) {name name' : String} (t : Table δ)
    (h : name' ≠ name) : (db.put name t).table name' = db.table name' :=
  Function.update_of_ne h _ _

theorem Database.put_put (db : Database δ) (name : String) (t t' : Table δ) :
    (db.put name t).put name t' = db.put name t' := by
  unfold Database.put
  rw [Function.update_idem]

theorem Database.put_same (h : db.table name = some t) : db.put name t = db := by
  unfold Database.put
  rw [← h, Function.update_eq_self]

/-- Rows are marked or go: no instance is deleted by it. -/
theorem shrinks_put {p : Row δ → Bool} (hp : ∀ r, p r = true → goesWith db name r = true)
    (ht : db.table name = some t)
    (hrows : ∀ r' ∈ t'.rows, ∃ r ∈ t.rows, r' = softDeleteIf now p r) :
    Shrinks db (db.put name t') := by
  have huuids : ∀ uuid ∈ (db.put name t').deletedUuids, uuid ∈ db.deletedUuids := by
    intro uuid huuid
    unfold Database.deletedUuids at huuid ⊢
    by_cases hname : "instances" = name
    · subst hname
      rw [Database.put_self] at huuid
      rw [ht]
      obtain ⟨r', hr', heq⟩ := List.mem_filterMap.mp huuid
      obtain ⟨hin, hdeleted⟩ := List.mem_filter.mp hr'
      obtain ⟨r, hr, hmark⟩ := hrows r' hin
      -- the instances themselves are never marked here
      have hnot : p r = false := by
        refine Bool.eq_false_of_not_eq_true (fun hpr => ?_)
        have hgoes := hp r hpr
        unfold goesWith at hgoes
        rw [if_neg (by decide), if_neg (by decide)] at hgoes
        cases hgoes
      rw [hmark, softDeleteIf_of_false hnot] at hdeleted heq
      exact List.mem_filterMap.mpr ⟨r, List.mem_filter.mpr ⟨hr, hdeleted⟩, heq⟩
    · rw [Database.put_other db t' hname] at huuid
      exact huuid
  refine ⟨huuids, fun id hid => ?_⟩
  unfold Database.deletedActions at hid ⊢
  by_cases hname : "instance_actions" = name
  · subst hname
    rw [Database.put_self] at hid
    rw [ht]
    obtain ⟨r', hr', rfl⟩ := List.mem_map.mp hid
    obtain ⟨hin, hof⟩ := List.mem_filter.mp hr'
    obtain ⟨r, hr, rfl⟩ := hrows r' hin
    rw [softDelete_ofInstances] at hof
    rw [softDeleteIf_key]
    exact List.mem_map_of_mem (List.mem_filter.mpr ⟨hr, ofInstances_mono huuids hof⟩)
  · rw [Database.put_other db t' hname] at hid
    split at hid
    · next actions heq =>
      obtain ⟨r, hr, rfl⟩ := List.mem_map.mp hid
      obtain ⟨hin, hof⟩ := List.mem_filter.mp hr
      exact List.mem_map_of_mem (List.mem_filter.mpr ⟨hin, ofInstances_mono huuids hof⟩)
    · cases hid

theorem shrinks_move (ht : db.table name = some t) (moved : List (Row δ)) :
    Shrinks db (db.put name (t.move moved)) := by
  refine @shrinks_put _ 0 _ _ _ _ (fun _ => false) (fun r h => (by cases h)) ht (fun r hr => ?_)
  exact ⟨r, (without_sublist ..).subset hr, (softDeleteIf_of_false rfl).symm⟩

/-! ## What is moved -/

/-- A row that may be moved: it is soft-deleted, or its instance is, or that of its action. -/
def Entitled (db : Database δ) (name : String) (r : Row δ) : Prop :=
  softDeleted r = true ∨ ofInstances db.deletedUuids r = true ∨
    (name = "instance_actions_events" ∧ ofActions db.deletedActions r = true)

theorem Entitled.of_goesWith {r : Row δ} (h : goesWith db name r = true) : Entitled db name r := by
  unfold goesWith at h
  split at h
  · exact Or.inr (Or.inl h)
  · split at h
    · next hevents => exact Or.inr (Or.inr ⟨hevents, h⟩)
    · cases h

theorem Entitled.mono (h : Shrinks db db') {r : Row δ} (hr : Entitled db' name r) :
    Entitled db name r := by
  rcases hr with hdeleted | hof | ⟨hevents, hof⟩
  · exact Or.inl hdeleted
  · exact Or.inr (Or.inl (ofInstances_mono h.uuids hof))
  · exact Or.inr (Or.inr ⟨hevents, ofActions_mono h.actions hof⟩)

/-- **Nothing is lost**: the rows, some of them marked, are those that are left and those that were
moved, and what was moved stands in the shadow table. -/
structure Moved (now : Nat) (db : Database δ) (name : String) (t t' : Table δ)
    (moved : List (Row δ)) : Prop where
  columns : t'.columns = t.columns
  shadow : t'.shadow = t.shadow.map (fun shadow => shadow ++ moved)
  unattached : t.shadow = none → t' = t ∧ moved = []
  rows : ∃ p : Row δ → Bool, (∀ r ∈ t.rows, p r = true → goesWith db name r = true) ∧
    (t'.rows ++ moved).Perm (t.rows.map (softDeleteIf now p))
  entitled : ∀ r' ∈ moved, ∃ r ∈ t.rows, (r' = r ∨ r' = r.softDelete now) ∧ Entitled db name r

theorem Moved.refl (now : Nat) (db : Database δ) (name : String) (t : Table δ) :
    Moved now db name t t [] where
  columns := rfl
  shadow := by
    cases t.shadow with
    | none => rfl
    | some shadow => exact congrArg some (List.append_nil shadow).symm
  unattached := fun _ => ⟨rfl, rfl⟩
  rows := by
    refine ⟨fun _ => false, fun r _ h => (by cases h), ?_⟩
    rw [List.append_nil, List.map_congr_left (fun r _ => softDeleteIf_of_false rfl), List.map_id']
  entitled := fun r h => (by cases h)

theorem Moved.mono {moved : List (Row δ)} (hshrinks : Shrinks db db')
    (h : Moved now db' name t t' moved) : Moved now db name t t' moved := by
  obtain ⟨p, hp, hperm⟩ := h.rows
  refine ⟨h.columns, h.shadow, h.unattached,
    ⟨p, fun r hr hpr => hshrinks.goesWith (hp r hr hpr), hperm⟩, fun r' hr' => ?_⟩
  obtain ⟨r, hr, hmark, hentitled⟩ := h.entitled r' hr'
  exact ⟨r, hr, hmark, hentitled.mono hshrinks⟩

/-- The mark alone. -/
theorem moved_softDelete (now : Nat) (db : Database δ) (name : String)
    (hshadow : t.shadow.isNone = false) :
    Moved now db name t (t.softDelete now (goesWith db name)) [] where
  columns := rfl
  shadow := (Moved.refl now db name t).shadow
  unattached := by
    intro h
    rw [h] at hshadow
    cases hshadow
  rows := by
    refine ⟨goesWith db name, fun _ _ h => h, ?_⟩
    rw [List.append_nil]
    exact List.Perm.refl _
  entitled := fun r h => (by cases h)

/-- A step that moves rows. -/
theorem Moved.move {moved taken : List (Row δ)} (h : Moved now db name t t₁ moved)
    (hshadow : t.shadow.isNone = false) (hsub : taken.Subperm t₁.rows)
    (hentitled : ∀ r ∈ taken, Entitled db name r) :
    Moved now db name t (t₁.move taken) (moved ++ taken) where
  columns := h.columns
  shadow := by
    show t₁.shadow.map _ = _
    rw [h.shadow, Option.map_map]
    refine congrArg (fun f => t.shadow.map f) (funext (fun shadow => ?_))
    exact List.append_assoc shadow moved taken
  unattached := by
    intro hnone
    rw [hnone] at hshadow
    cases hshadow
  rows := by
    obtain ⟨p, hp, hperm⟩ := h.rows
    refine ⟨p, hp, List.Perm.trans ?_ hperm⟩
    have hsplit : (without Row.key taken t₁.rows ++ taken).Perm t₁.rows :=
      without_append_perm t₁.uniqKey hsub
    have hswap : (without Row.key taken t₁.rows ++ (moved ++ taken)).Perm
        (without Row.key taken t₁.rows ++ taken ++ moved) := by
      rw [List.append_assoc]
      exact List.perm_append_comm.append_left _
    exact hswap.trans (hsplit.append_right moved)
  entitled := by
    obtain ⟨p, hp, hperm⟩ := h.rows
    intro r' hr'
    rcases List.mem_append.mp hr' with hr' | hr'
    · exact h.entitled r' hr'
    · have hin : r' ∈ t.rows.map (softDeleteIf now p) :=
        hperm.subset (List.mem_append_left _ (hsub.subset hr'))
      obtain ⟨r, hr, heq⟩ := List.mem_map.mp hin
      cases hpr : p r with
      | true =>
        rw [softDeleteIf_of_true hpr] at heq
        exact ⟨r, hr, Or.inr heq.symm, Entitled.of_goesWith (hp r hr hpr)⟩
      | false =>
        rw [softDeleteIf_of_false hpr] at heq
        exact ⟨r, hr, Or.inl heq.symm, heq ▸ hentitled r' hr'⟩

/-! ## The steps -/

/-- The rows that a step selects. -/
def chosen (p : Row δ → Bool) (limit : Nat) (t : Table δ) : List (Row δ) :=
  firsts (fun r r' => r.key.le r'.key) p limit t.rows

theorem chosen_subperm (p : Row δ → Bool) (limit : Nat) (t : Table δ) :
    (chosen p limit t).Subperm t.rows :=
  (firsts_subperm _ p limit t.rows).trans List.filter_sublist.subperm

theorem chosen_of_false {p : Row δ → Bool} {limit : Nat} (h : ∀ r ∈ t.rows, p r = false) :
    chosen p limit t = [] := by
  refine List.eq_nil_iff_forall_not_mem.mpr (fun r hr => ?_)
  obtain ⟨hin, hp⟩ := mem_firsts hr
  rw [h r hin] at hp
  cases hp

/-- A state with another table of a name. -/
def State.put (s : State δ) (name : String) (t : Table δ) : State δ :=
  { s with db := s.db.put name t }

theorem run_find (ht : s.db.table name = some t) : (find name).run s = .ok t s := by
  unfold find EStateM.run
  dsimp only
  rw [ht]

theorem run_find_none (ht : s.db.table name = none) :
    (find name).run s = .error (.keyError name) s := by
  unfold find EStateM.run
  dsimp only
  rw [ht]

/-- Where `models.BASE.metadata.tables` has no such table, or the handler of a refusal fails. -/
inductive Raised (refuses : ForeignKeys δ) (db : Database δ) : ArchiveError → Prop
  | undeclared {name : String} (h : db.table name = none) : Raised refuses db (.keyError name)
  | refused {db' : Database δ} {name : String} {rows : List (Row δ)}
      (h : refuses db' name rows = true) : Raised refuses db (.attributeError "__tablename__")
  | noId {t : Table δ} (h : db.table "dns_domains" = some t) (hcol : "instance_uuid" ∈ t.columns) :
      Raised refuses db (.attributeError "id")

theorem run_moveRows_refused {p : Row δ → Bool} {limit : Nat} (ht : s.db.table name = some t)
    (hrefuses : refuses s.db name (chosen p limit t) = true) :
    (moveRows refuses name p limit).run s = .ok none s := by
  unfold moveRows
  rw [run_bind_ok (run_find ht)]
  show (if refuses s.db name (chosen p limit t) then _ else _ : ArchiveM δ _).run s = _
  rw [if_pos hrefuses]
  rfl

theorem run_moveRows {p : Row δ → Bool} {limit : Nat} (ht : s.db.table name = some t)
    (hrefuses : ¬ refuses s.db name (chosen p limit t) = true) :
    (moveRows refuses name p limit).run s =
      .ok (some (chosen p limit t).length) (s.put name (t.move (chosen p limit t))) := by
  unfold moveRows
  rw [run_bind_ok (run_find ht)]
  show (if refuses s.db name (chosen p limit t) then _ else _ : ArchiveM δ _).run s = _
  rw [if_neg hrefuses]
  have hcount : (matching Row.key (chosen p limit t) t.rows).length = (chosen p limit t).length :=
    (matching_perm t.uniqKey (chosen_subperm p limit t)).length_eq
  show EStateM.Result.ok (some (matching Row.key (chosen p limit t) t.rows).length) _ = _
  rw [hcount]
  rfl

/-- The rows of deleted instances are marked, or the tables to tell them from are not there. -/
theorem run_softDeleteOfInstances (now : Nat) (ht : s.db.table name = some t) :
    (∃ other, s.db.table other = none ∧
      (softDeleteOfInstances now name).run s = .error (.keyError other) s) ∨
    (softDeleteOfInstances now name).run s =
      .ok () (s.put name (t.softDelete now (goesWith s.db name))) := by
  unfold softDeleteOfInstances
  by_cases hname : name = "instance_actions" ∨ name = "migrations"
  · rw [if_pos hname]
    cases hinstances : s.db.table "instances" with
    | none =>
      refine Or.inl ⟨"instances", hinstances, ?_⟩
      rw [run_bind_error (run_find_none hinstances)]
    | some instances =>
      right
      -- the condition of the update is `goesWith`
      have hgoes : goesWith s.db name = ofInstances (deletedUuids instances) := by
        funext r
        unfold goesWith Database.deletedUuids
        rw [if_pos hname, hinstances]
      rw [run_bind_ok (run_find hinstances), run_bind_ok (run_find ht), hgoes]
      rfl
  · rw [if_neg hname]
    by_cases hevents : name = "instance_actions_events"
    · rw [if_pos hevents]
      cases hinstances : s.db.table "instances" with
      | none =>
        refine Or.inl ⟨"instances", hinstances, ?_⟩
        rw [run_bind_error (run_find_none hinstances)]
      | some instances =>
        rw [run_bind_ok (run_find hinstances)]
        cases hactions : s.db.table "instance_actions" with
        | none =>
          refine Or.inl ⟨"instance_actions", hactions, ?_⟩
          rw [run_bind_error (run_find_none hactions)]
        | some actions =>
          right
          have hgoes : goesWith s.db name =
              ofActions (actionIds (deletedUuids instances) actions) := by
            funext r
            unfold goesWith Database.deletedActions Database.deletedUuids
            rw [if_neg hname, if_pos hevents, hactions, hinstances]
          rw [run_bind_ok (run_find hactions), run_bind_ok (run_find ht), hgoes]
          rfl
    · rw [if_neg hevents]
      right
      have hgoes : ∀ r, goesWith s.db name r = false := by
        intro r
        unfold goesWith
        rw [if_neg hname, if_neg hevents]
      -- no update: the table is put back as it was
      rw [Table.softDelete_of_false hgoes]
      unfold State.put
      rw [Database.put_same ht]
      rfl

/-- The first step. -/
theorem run_archiveSoftDeleted {limit : Nat} (ht : s.db.table name = some t) :
    (archiveSoftDeleted refuses name limit).run s = .ok 0 { s with warned := name :: s.warned } ∨
    (archiveSoftDeleted refuses name limit).run s =
      .ok (chosen softDeleted limit t).length
        (s.put name (t.move (chosen softDeleted limit t))) := by
  unfold archiveSoftDeleted
  by_cases hrefuses : refuses s.db name (chosen softDeleted limit t) = true
  · left
    rw [run_bind_ok (run_moveRows_refused ht hrefuses)]
    rfl
  · right
    rw [run_bind_ok (run_moveRows ht hrefuses)]
    rfl

/-- The second step. -/
theorem run_archiveIfInstanceDeleted {limit : Nat} (ht : s.db.table name = some t)
    (hcol : "instance_uuid" ∈ t.columns) :
    (∃ e, Raised refuses s.db e ∧
      (archiveIfInstanceDeleted refuses name limit).run s = .error e s) ∨
    (archiveIfInstanceDeleted refuses name limit).run s =
      .ok (chosen (ofInstances s.db.deletedUuids) limit t).length
        (s.put name (t.move (chosen (ofInstances s.db.deletedUuids) limit t))) := by
  unfold archiveIfInstanceDeleted
  cases hinstances : s.db.table "instances" with
  | none =>
    left
    refine ⟨_, .undeclared hinstances, ?_⟩
    rw [run_bind_error (run_find_none hinstances)]
  | some instances =>
    have huuids : s.db.deletedUuids = deletedUuids instances := by
      unfold Database.deletedUuids
      rw [hinstances]
    rw [huuids, run_bind_ok (run_find hinstances)]
    by_cases hname : name = "dns_domains"
    · left
      subst hname
      exact ⟨_, .noId ht hcol, rfl⟩
    · rw [if_neg hname]
      by_cases hrefuses :
          refuses s.db name (chosen (ofInstances (deletedUuids instances)) limit t) = true
      · left
        refine ⟨_, .refused hrefuses, ?_⟩
        rw [run_bind_ok (run_moveRows_refused ht hrefuses)]
        rfl
      · right
        rw [run_bind_ok (run_moveRows ht hrefuses)]
        rfl

/-! ## The turn of a table -/

/-- Another call has nothing to move here: what is left is not soft-deleted, is not when it is
marked, and has no deleted instance. -/
def Settled (db : Database δ) (name : String) : Prop :=
  ∀ t, db.table name = some t → t.shadow.isNone = false → ∀ r ∈ t.rows,
    softDeleted r = false ∧ (goesWith db name r = true → softDeleted (r.softDelete 0) = false) ∧
      ("instance_uuid" ∈ t.columns → ofInstances db.deletedUuids r = false)

theorem ofInstances_false_of_shrinks (h : Shrinks db db') {r : Row δ}
    (hr : ofInstances db.deletedUuids r = false) : ofInstances db'.deletedUuids r = false := by
  by_contra hnot
  have htrue := ofInstances_mono h.uuids (by simpa using hnot)
  rw [hr] at htrue
  cases htrue

theorem Settled.mono (hshrinks : Shrinks db db') (htable : db'.table name = db.table name)
    (h : Settled db name) : Settled db' name := by
  intro t ht hshadow r hr
  obtain ⟨hdeleted, hmark, hof⟩ := h t (htable ▸ ht) hshadow r hr
  exact ⟨hdeleted, fun hgoes => hmark (hshrinks.goesWith hgoes),
    fun hcol => ofInstances_false_of_shrinks hshrinks (hof hcol)⟩

/-- What `_archive_deleted_rows_for_table` does, whether it returns or raises. -/
structure Turn (refuses : ForeignKeys δ) (now : Nat) (name : String) (limit : Nat) (s : State δ)
    (result : EStateM.Result ArchiveError (State δ) Nat) (moved : List (Row δ)) : Prop where
  others : ∀ name', name' ≠ name → (endState result).db.table name' = s.db.table name'
  sorted : (endState result).db.sortedTables = s.db.sortedTables
  shrinks : Shrinks s.db (endState result).db
  absent : s.db.table name = none → (endState result).db.table name = none ∧ moved = []
  table : ∀ t, s.db.table name = some t →
    ∃ t', (endState result).db.table name = some t' ∧ Moved now s.db name t t' moved
  length : moved.length ≤ limit
  warned : (endState result).warned = s.warned ∨
    (endState result).warned = name :: s.warned ∧
      ∀ r ∈ moved, ofInstances s.db.deletedUuids r = true
  settled : Settled s.db name → moved = []
  returned : ∀ n s', result = .ok n s' → n = moved.length ∧
    (n < limit → name ∈ s'.warned ∨ Settled s'.db name)
  raised : ∀ e s', result = .error e s' → Raised refuses s.db e

/-- Nothing happens. -/
theorem turn_idle {limit : Nat} {result : EStateM.Result ArchiveError (State δ) Nat}
    (hend : endState result = s)
    (hreturned : ∀ n s', result = .ok n s' → n = 0 ∧ (n < limit → Settled s'.db name))
    (hraised : ∀ e s', result = .error e s' → Raised refuses s.db e) :
    Turn refuses now name limit s result [] where
  others := fun _ _ => by rw [hend]
  sorted := by rw [hend]
  shrinks := by
    rw [hend]
    exact Shrinks.refl _
  absent := fun h => ⟨by rw [hend]; exact h, rfl⟩
  table := fun t ht => ⟨t, by rw [hend]; exact ht, Moved.refl now s.db name t⟩
  length := Nat.zero_le _
  warned := Or.inl (by rw [hend])
  settled := fun _ => rfl
  returned := fun n s' h => ⟨(hreturned n s' h).1, fun hlt => Or.inr ((hreturned n s' h).2 hlt)⟩
  raised := hraised

/-- The table was marked, and rows were taken out of it. -/
theorem turn_put {limit : Nat} {result : EStateM.Result ArchiveError (State δ) Nat}
    {moved : List (Row δ)} (ht : s.db.table name = some t)
    (hend : (endState result).db = s.db.put name t')
    (hmoved : Moved now s.db name t t' moved)
    (hrows : ∀ r' ∈ t'.rows, ∃ r ∈ t.rows, r' = softDeleteIf now (goesWith s.db name) r)
    (hlength : moved.length ≤ limit)
    (hwarned : (endState result).warned = s.warned ∨ (endState result).warned = name :: s.warned ∧
      ∀ r ∈ moved, ofInstances s.db.deletedUuids r = true)
    (hsettled : Settled s.db name → moved = [])
    (hreturned : ∀ n s', result = .ok n s' → n = moved.length ∧
      (n < limit → name ∈ s'.warned ∨ Settled s'.db name))
    (hraised : ∀ e s', result = .error e s' → Raised refuses s.db e) :
    Turn refuses now name limit s result moved where
  others := fun name' hne => by rw [hend, Database.put_other _ _ hne]
  sorted := by
    rw [hend]
    rfl
  shrinks := by
    rw [hend]
    exact shrinks_put (fun _ h => h) ht hrows
  absent := by
    intro h
    rw [ht] at h
    cases h
  table := by
    intro q hq
    rw [ht] at hq
    cases hq
    exact ⟨t', by rw [hend, Database.put_self], hmoved⟩
  length := hlength
  warned := hwarned
  settled := hsettled
  returned := hreturned
  raised := hraised

/-- Marked rows are rows, marked where they go with an instance. -/
theorem mem_marked {r' : Row δ} (h : r' ∈ (t.softDelete now (goesWith db name)).rows) :
    ∃ r ∈ t.rows, r' = softDeleteIf now (goesWith db name) r := by
  obtain ⟨r, hr, heq⟩ := List.mem_map.mp h
  exact ⟨r, hr, heq.symm⟩

/-- A settled table has no rows to move, marked or not. -/
theorem Settled.marked (h : Settled db name) (ht : db.table name = some t)
    (hshadow : t.shadow.isNone = false) {r' : Row δ}
    (hr' : r' ∈ (t.softDelete now (goesWith db name)).rows) :
    softDeleted r' = false ∧
      ("instance_uuid" ∈ t.columns → ofInstances db.deletedUuids r' = false) := by
  obtain ⟨r, hr, rfl⟩ := mem_marked hr'
  obtain ⟨hdeleted, hmark, hof⟩ := h t ht hshadow r hr
  rw [softDelete_ofInstances]
  refine ⟨?_, hof⟩
  cases hgoes : goesWith db name r with
  | true =>
    rw [softDeleteIf_of_true hgoes, softDeleted_softDelete now 0]
    exact hmark hgoes
  | false =>
    rw [softDeleteIf_of_false hgoes]
    exact hdeleted

/-- A table is settled when the steps have left no row for which they look. -/
theorem settled_put (ht : db.table name = some t)
    (hrows : ∀ r' ∈ t'.rows, ∃ r ∈ t.rows, r' = softDeleteIf now (goesWith db name) r)
    (hdeleted : ∀ r ∈ t'.rows, softDeleted r = false)
    (hof : "instance_uuid" ∈ t'.columns →
      ∀ r ∈ t'.rows, ofInstances (db.put name t').deletedUuids r = false) :
    Settled (db.put name t') name := by
  intro q hq _ r' hr'
  rw [Database.put_self] at hq
  cases hq
  refine ⟨hdeleted r' hr', fun hgoes => ?_, fun hcol => hof hcol r' hr'⟩
  have hgoes' : goesWith db name r' = true := (shrinks_put (fun _ h => h) ht hrows).goesWith hgoes
  obtain ⟨r, _, heq⟩ := hrows r' hr'
  have hnot := hdeleted r' hr'
  rw [heq, goesWith_softDeleteIf] at hgoes'
  -- marked a second time, the row has the same `deleted`
  rw [heq, softDeleteIf_of_true hgoes'] at hnot ⊢
  exact hnot

/-- The table after the first step. -/
structure FirstStep (now : Nat) (name : String) (limit : Nat) (s s₂ : State δ) (t t₂ : Table δ)
    (moved : List (Row δ)) : Prop where
  db : s₂.db = s.db.put name t₂
  keeps : Moved now s.db name t t₂ moved
  rows : ∀ r ∈ t₂.rows, r ∈ (t.softDelete now (goesWith s.db name)).rows
  length : moved.length ≤ limit
  outcome : (s₂.warned = s.warned ∧ (moved.length < limit → ∀ r ∈ t₂.rows, softDeleted r = false)) ∨
    (s₂.warned = name :: s.warned ∧ moved = [])
  settled : Settled s.db name → moved = []

theorem run_firstStep (refuses : ForeignKeys δ) (now limit : Nat) (ht : s.db.table name = some t)
    (hshadow : t.shadow.isNone = false) :
    ∃ moved t₂ s₂, (archiveSoftDeleted refuses name limit).run
        (s.put name (t.softDelete now (goesWith s.db name))) = .ok moved.length s₂ ∧
      FirstStep now name limit s s₂ t t₂ moved := by
  have hmark : Moved now s.db name t (t.softDelete now (goesWith s.db name)) [] :=
    moved_softDelete now s.db name hshadow
  have hfound : (s.put name (t.softDelete now (goesWith s.db name))).db.table name =
      some (t.softDelete now (goesWith s.db name)) := Database.put_self ..
  rcases @run_archiveSoftDeleted _ refuses _ _ _ limit hfound with hrun | hrun
  -- refused: the table keeps its marks
  · exact ⟨[], t.softDelete now (goesWith s.db name), _, hrun, rfl, hmark, fun _ hr => hr,
      Nat.zero_le _, Or.inr ⟨rfl, rfl⟩, fun _ => rfl⟩
  · refine ⟨_, _, _, hrun, Database.put_put .., ?_, ?_, length_firsts_le .., Or.inl ⟨rfl, ?_⟩, ?_⟩
    · have hmoved := hmark.move hshadow
        (chosen_subperm softDeleted limit (t.softDelete now (goesWith s.db name)))
        (fun r hr => Or.inl (mem_firsts hr).2)
      exact hmoved
    · exact fun r hr => (without_sublist ..).subset hr
    · exact fun hlt r hr => eq_false_of_mem_without hlt hr
    · intro hsettled
      exact chosen_of_false (fun r hr => (hsettled.marked ht hshadow hr).1)

theorem Raised.of_put {e : ArchiveError} (ht : db.table name = some t)
    (hcolumns : t'.columns = t.columns) (h : Raised refuses (db.put name t') e) :
    Raised refuses db e := by
  cases h with
  | @undeclared other h =>
    have hne : other ≠ name := by
      intro heq
      rw [heq, Database.put_self] at h
      cases h
    rw [Database.put_other _ _ hne] at h
    exact .undeclared h
  | refused h => exact .refused h
  | @noId q h hcol =>
    by_cases hname : "dns_domains" = name
    · subst hname
      rw [Database.put_self] at h
      cases h
      exact .noId ht (hcolumns ▸ hcol)
    · rw [Database.put_other _ _ hname] at h
      exact .noId h hcol

/-- The first step is the last one: the second is not reached, or it raises. -/
theorem FirstStep.turn {limit : Nat} {s₂ : State δ} {t₂ : Table δ} {moved : List (Row δ)}
    {result : EStateM.Result ArchiveError (State δ) Nat}
    (h : FirstStep now name limit s s₂ t t₂ moved) (ht : s.db.table name = some t)
    (hend : endState result = s₂)
    (hreturned : ∀ n s', result = .ok n s' → n = moved.length ∧
      ¬ (n < limit ∧ "instance_uuid" ∈ t.columns))
    (hraised : ∀ e s', result = .error e s' → Raised refuses s₂.db e) :
    Turn refuses now name limit s result moved := by
  have hrows : ∀ r' ∈ t₂.rows, ∃ r ∈ t.rows, r' = softDeleteIf now (goesWith s.db name) r :=
    fun r' hr' => mem_marked (h.rows r' hr')
  refine turn_put ht (hend ▸ h.db) h.keeps hrows h.length ?_ h.settled ?_ ?_
  · rw [hend]
    rcases h.outcome with ⟨hwarned, _⟩ | ⟨hwarned, hnil⟩
    · exact Or.inl hwarned
    · exact Or.inr ⟨hwarned, fun r hr => by rw [hnil] at hr; cases hr⟩
  · intro n s' hresult
    obtain ⟨hn, hlast⟩ := hreturned n s' hresult
    refine ⟨hn, fun hlt => ?_⟩
    rw [hresult] at hend
    have hs' : s' = s₂ := hend
    rcases h.outcome with ⟨_, hdeleted⟩ | ⟨hwarned, _⟩
    · right
      rw [hs', h.db]
      refine settled_put ht hrows (hdeleted (hn ▸ hlt)) (fun hcol => ?_)
      exact absurd ⟨hlt, h.keeps.columns ▸ hcol⟩ hlast
    · left
      rw [hs', hwarned]
      exact List.mem_cons_self ..
  · intro e s' hresult
    exact (h.db ▸ hraised e s' hresult).of_put ht h.keeps.columns

/-- What the second step leaves goes with no instance. -/
theorem FirstStep.left_second {limit left : Nat} {s₂ : State δ} {t₂ : Table δ}
    {moved taken : List (Row δ)} (h : FirstStep now name limit s s₂ t t₂ moved)
    (htaken : taken = chosen (ofInstances s₂.db.deletedUuids) left t₂)
    (hfew : taken.length < left) {r : Row δ} (hr : r ∈ (t₂.move taken).rows) :
    ofInstances (s.db.put name (t₂.move taken)).deletedUuids r = false := by
  have hfalse : ofInstances s₂.db.deletedUuids r = false := by
    subst htaken
    exact eq_false_of_mem_without hfew hr
  have hshrinks : Shrinks s₂.db (s.db.put name (t₂.move taken)) := by
    have ht₂ : (s.db.put name t₂).table name = some t₂ := Database.put_self ..
    have hmove := shrinks_move ht₂ taken
    rw [Database.put_put] at hmove
    rw [h.db]
    exact hmove
  exact ofInstances_false_of_shrinks hshrinks hfalse

/-- Both steps. -/
theorem FirstStep.turn_second {limit : Nat} {s₂ : State δ} {t₂ : Table δ} {moved : List (Row δ)}
    (h : FirstStep now name limit s s₂ t t₂ moved) (ht : s.db.table name = some t)
    (hshadow : t.shadow.isNone = false) (hcol : "instance_uuid" ∈ t.columns)
    {taken : List (Row δ)}
    (htaken : taken = chosen (ofInstances s₂.db.deletedUuids) (limit - moved.length) t₂) :
    Turn refuses now name limit s (.ok (moved.length + taken.length) (s₂.put name (t₂.move taken)))
      (moved ++ taken) := by
  have hshrinks : Shrinks s.db s₂.db := by
    rw [h.db]
    exact shrinks_put (fun _ h => h) ht (fun r' hr' => mem_marked (h.rows r' hr'))
  have hsub : taken.Subperm t₂.rows := by
    rw [htaken]
    exact chosen_subperm ..
  -- the instances of these rows were deleted before the call
  have hof : ∀ r ∈ taken, ofInstances s.db.deletedUuids r = true := by
    intro r hr
    rw [htaken] at hr
    exact ofInstances_mono hshrinks.uuids (mem_firsts hr).2
  have hleft : ∀ r ∈ (t₂.move taken).rows, r ∈ t₂.rows := (without_sublist ..).subset
  have hrows : ∀ r' ∈ (t₂.move taken).rows,
      ∃ r ∈ t.rows, r' = softDeleteIf now (goesWith s.db name) r :=
    fun r' hr' => mem_marked (h.rows r' (hleft r' hr'))
  have hdb : (s₂.put name (t₂.move taken)).db = s.db.put name (t₂.move taken) := by
    show s₂.db.put name _ = _
    rw [h.db, Database.put_put]
  have hlength : taken.length ≤ limit - moved.length := by
    rw [htaken]
    exact length_firsts_le ..
  refine turn_put ht hdb (h.keeps.move hshadow hsub (fun r hr => Or.inr (Or.inl (hof r hr)))) hrows
    ?_ ?_ ?_ ?_ (fun e s' hresult => (by cases hresult))
  · have hfirst := h.length
    rw [List.length_append]
    omega
  · rcases h.outcome with ⟨hwarned, _⟩ | ⟨hwarned, hnil⟩
    · exact Or.inl hwarned
    · refine Or.inr ⟨hwarned, fun r hr => ?_⟩
      rw [hnil, List.nil_append] at hr
      exact hof r hr
  · intro hsettled
    have hnone : taken = [] := by
      rw [htaken]
      exact chosen_of_false (fun r hr =>
        ofInstances_false_of_shrinks hshrinks ((hsettled.marked ht hshadow (h.rows r hr)).2 hcol))
    rw [h.settled hsettled, hnone, List.nil_append]
  · intro n s' hresult
    cases hresult
    refine ⟨(List.length_append).symm, fun hlt => ?_⟩
    rcases h.outcome with ⟨_, hdeleted⟩ | ⟨hwarned, _⟩
    · right
      rw [hdb]
      exact settled_put ht hrows (fun r hr => hdeleted (by omega) r (hleft r hr))
        (fun _ r hr => h.left_second htaken (by omega) hr)
    · left
      show name ∈ s₂.warned
      rw [hwarned]
      exact List.mem_cons_self ..

/-- **One table**, whatever happens. -/
theorem run_turn (refuses : ForeignKeys δ) (now : Nat) (name : String) (limit : Nat)
    (s : State δ) : ∃ moved, Turn refuses now name limit s
      ((archiveDeletedRowsForTable refuses now name limit).run s) moved := by
  unfold archiveDeletedRowsForTable
  cases ht : s.db.table name with
  | none =>
    rw [run_bind_error (run_find_none ht)]
    exact ⟨[], turn_idle rfl (fun n s' h => (by cases h)) (fun e s' h => (by
      cases h
      exact .undeclared ht))⟩
  | some t =>
    rw [run_bind_ok (run_find ht)]
    by_cases hnone : t.shadow.isNone = true
    · rw [if_pos hnone]
      refine ⟨[], turn_idle rfl (fun n s' h => ?_) (fun e s' h => (by cases h))⟩
      cases h
      refine ⟨rfl, fun _ q hq hshadow => ?_⟩
      rw [ht] at hq
      cases hq
      rw [hnone] at hshadow
      cases hshadow
    · have hshadow : t.shadow.isNone = false := Bool.eq_false_of_not_eq_true hnone
      rw [if_neg hnone]
      rcases run_softDeleteOfInstances now ht with ⟨other, hother, hrun⟩ | hrun
      · rw [run_bind_error hrun]
        exact ⟨[], turn_idle rfl (fun n s' h => (by cases h)) (fun e s' h => (by
          cases h
          exact .undeclared hother))⟩
      · obtain ⟨moved, t₂, s₂, hfirst, hstep⟩ := run_firstStep refuses now limit ht hshadow
        rw [run_bind_ok hrun, run_bind_ok hfirst]
        by_cases hgo : moved.length < limit ∧ "instance_uuid" ∈ t.columns
        · have ht₂ : s₂.db.table name = some t₂ := by
            rw [hstep.db, Database.put_self]
          have hcol₂ : "instance_uuid" ∈ t₂.columns := hstep.keeps.columns ▸ hgo.2
          rw [if_pos hgo]
          rcases @run_archiveIfInstanceDeleted _ refuses _ _ _ (limit - moved.length) ht₂ hcol₂
            with ⟨e, hraised, hsecond⟩ | hsecond
          · rw [run_bind_error hsecond]
            exact ⟨moved, hstep.turn ht rfl (fun n s' h => (by cases h)) (fun e s' h => (by
              cases h
              exact hraised))⟩
          · rw [run_bind_ok hsecond]
            exact ⟨_, hstep.turn_second ht hshadow hgo.2 rfl⟩
        · rw [if_neg hgo]
          refine ⟨moved, hstep.turn ht rfl (fun n s' h => ?_) (fun e s' h => (by cases h))⟩
          cases h
          exact ⟨rfl, hgo⟩

end PolarBear.Archive
