import Mathlib.Algebra.BigOperators.Group.List.Basic
import Mathlib.Data.Int.Basic
import Mathlib.Data.List.Pairwise
import Mathlib.Algebra.Ring.Int.Defs

/-!
# Tables whose rows have ids

A `Table` is a list of rows in the order of their ids, with the next id to give
out. Rows are inserted with the next id and changed in place; each write keeps
the ids in order, so an id is never given twice and determines its row. What a
write does is said row by row (`mem_insert`, `mem_modify`), and by what an id
reads (`byId_modify`, ...).

`sumWhere` adds up a number over the rows that satisfy a condition.
-/

namespace PolarBear

variable {ρ : Type} {key : ρ → Nat}

/-- A table with an id for each row. -/
structure Table (ρ : Type) (key : ρ → Nat) where
  rows : List ρ
  next : Nat
  sorted : rows.Pairwise (fun r s => key r < key s)
  below : ∀ r ∈ rows, key r < next

namespace Table

/-- The table without rows. -/
def empty : Table ρ key := ⟨[], 0, List.Pairwise.nil, fun _ h => absurd h List.not_mem_nil⟩

/-- The row with an id. -/
def byId (t : Table ρ key) (id : Nat) : Option ρ := t.rows.find? (fun r => key r == id)

/-- A new row, which gets the next id. -/
def insert (t : Table ρ key) (row : Nat → ρ) (hkey : ∀ id, key (row id) = id) :
    Table ρ key where
  rows := t.rows ++ [row t.next]
  next := t.next + 1
  sorted := by
    rw [List.pairwise_append]
    refine ⟨t.sorted, List.pairwise_singleton _ _, fun r hr s hs => ?_⟩
    rw [List.mem_singleton.mp hs, hkey]
    exact t.below r hr
  below := by
    intro r hr
    rcases List.mem_append.mp hr with hr | hr
    · have := t.below r hr
      omega
    · rw [List.mem_singleton.mp hr, hkey]
      omega

/-- The rows that satisfy the condition are changed. -/
def modify (t : Table ρ key) (p : ρ → Bool) (f : ρ → ρ) (hkey : ∀ r, key (f r) = key r) :
    Table ρ key where
  rows := t.rows.map (fun r => if p r then f r else r)
  next := t.next
  sorted := by
    rw [List.pairwise_map]
    refine t.sorted.imp (fun {r s} hrs => ?_)
    have hone : ∀ r, key (if p r then f r else r) = key r := by
      intro r
      split
      · exact hkey r
      · rfl
    rw [hone, hone]
    exact hrs
  below := by
    intro r hr
    obtain ⟨s, hs, rfl⟩ := List.mem_map.mp hr
    split
    · rw [hkey]
      exact t.below s hs
    · exact t.below s hs

/-- The rows that satisfy the condition are taken out. -/
def delete (t : Table ρ key) (p : ρ → Bool) : Table ρ key where
  rows := t.rows.filter (fun r => !p r)
  next := t.next
  sorted := t.sorted.filter _
  below := fun r hr => t.below r (List.mem_filter.mp hr).1

/-! ## Ids -/

/-- The id determines the row. -/
theorem eq_of_key (t : Table ρ key) {r s : ρ} (hr : r ∈ t.rows) (hs : s ∈ t.rows)
    (h : key r = key s) : r = s := by
  by_contra hne
  have hneq : t.rows.Pairwise (fun r s => key r ≠ key s) :=
    t.sorted.imp (fun hlt => Nat.ne_of_lt hlt)
  have : Std.Symm (fun r s : ρ => key r ≠ key s) := ⟨fun _ _ h => h.symm⟩
  exact hneq.forall hr hs hne h

theorem byId_iff (t : Table ρ key) {id : Nat} {r : ρ} :
    t.byId id = some r ↔ r ∈ t.rows ∧ key r = id := by
  have hfound : ∀ {s : ρ} {n : Nat}, t.byId n = some s → s ∈ t.rows ∧ key s = n := by
    intro s n h
    have hp : (key s == n) = true := List.find?_some (p := fun r => key r == n) h
    exact ⟨List.mem_of_find?_eq_some h, beq_iff_eq.mp hp⟩
  constructor
  · exact hfound
  · intro h
    obtain ⟨hr, rfl⟩ := h
    cases hread : t.byId (key r) with
    | none =>
      have hno := List.find?_eq_none.mp hread r hr
      exact absurd (beq_iff_eq.mpr rfl) hno
    | some s =>
      obtain ⟨hs, hkey⟩ := hfound hread
      rw [t.eq_of_key hs hr hkey]

/-- The first row that satisfies a condition is the one with the least id. -/
theorem find?_iff_least (t : Table ρ key) {p : ρ → Bool} {r : ρ} :
    t.rows.find? p = some r ↔
      r ∈ t.rows ∧ p r = true ∧ ∀ s ∈ t.rows, p s = true → key r ≤ key s := by
  have hleast : ∀ {rows : List ρ}, rows.Pairwise (fun r s => key r < key s) → ∀ {r : ρ},
      rows.find? p = some r → ∀ s ∈ rows, p s = true → key r ≤ key s := by
    intro rows hsorted r hfind s hs hps
    induction rows with
    | nil => cases hs
    | cons a rows ih =>
      obtain ⟨hlt, hrest⟩ := List.pairwise_cons.mp hsorted
      by_cases hpa : p a = true
      · rw [List.find?_cons_of_pos hpa] at hfind
        cases hfind
        rcases List.mem_cons.mp hs with rfl | hs
        · exact Nat.le_refl _
        · exact Nat.le_of_lt (hlt s hs)
      · rw [List.find?_cons_of_neg hpa] at hfind
        have hsa : s ≠ a := fun h => hpa (h ▸ hps)
        exact ih hrest hfind ((List.mem_cons.mp hs).resolve_left hsa)
  constructor
  · intro hfind
    exact ⟨List.mem_of_find?_eq_some hfind, List.find?_some hfind, hleast t.sorted hfind⟩
  · rintro ⟨hr, hpr, hmin⟩
    cases hfind : t.rows.find? p with
    | none => exact absurd hpr (List.find?_eq_none.mp hfind r hr)
    | some s =>
      have hs := List.mem_of_find?_eq_some hfind
      have hle := hleast t.sorted hfind r hr hpr
      have hge := hmin s hs (List.find?_some hfind)
      rw [t.eq_of_key hs hr (Nat.le_antisymm hle hge)]

/-! ## What a write leaves -/

theorem mem_insert {t : Table ρ key} {row : Nat → ρ} (hkey : ∀ id, key (row id) = id) {r : ρ} :
    r ∈ (t.insert row hkey).rows ↔ r ∈ t.rows ∨ r = row t.next := by
  show r ∈ t.rows ++ [row t.next] ↔ _
  rw [List.mem_append, List.mem_singleton]

theorem mem_modify {t : Table ρ key} {p : ρ → Bool} {f : ρ → ρ} (hkey : ∀ r, key (f r) = key r)
    {r : ρ} : r ∈ (t.modify p f hkey).rows ↔ ∃ s ∈ t.rows, r = if p s then f s else s := by
  show r ∈ t.rows.map _ ↔ _
  rw [List.mem_map]
  exact ⟨fun ⟨s, hs, h⟩ => ⟨s, hs, h.symm⟩, fun ⟨s, hs, h⟩ => ⟨s, hs, h.symm⟩⟩

/-- What an id reads after a change. -/
theorem byId_modify (t : Table ρ key) (p : ρ → Bool) (f : ρ → ρ) (hkey : ∀ r, key (f r) = key r)
    (id : Nat) :
    (t.modify p f hkey).byId id = (t.byId id).map (fun r => if p r then f r else r) := by
  unfold byId modify
  rw [List.find?_map]
  congr 1
  refine congrArg (fun q => List.find? q t.rows) (funext fun r => ?_)
  show (key (if p r then f r else r) == id) = (key r == id)
  split
  · rw [hkey]
  · rfl

/-- The next id reads nothing. -/
theorem byId_next (t : Table ρ key) : t.byId t.next = none := by
  refine List.find?_eq_none.mpr (fun r hr h => ?_)
  have hlt := t.below r hr
  rw [beq_iff_eq.mp h] at hlt
  exact Nat.lt_irrefl _ hlt

/-- What an id reads after a row was added. -/
theorem byId_insert (t : Table ρ key) (row : Nat → ρ) (hkey : ∀ id, key (row id) = id) (id : Nat) :
    (t.insert row hkey).byId id = if id = t.next then some (row t.next) else t.byId id := by
  show List.find? (fun r => key r == id) (t.rows ++ [row t.next]) = _
  rw [List.find?_append]
  split
  · next h =>
    rw [h, show t.rows.find? (fun r => key r == t.next) = none from t.byId_next, Option.none_or,
      List.find?_cons_of_pos (p := fun r => key r == t.next) (beq_iff_eq.mpr (hkey t.next))]
  · next h =>
    rw [List.find?_cons_of_neg (p := fun r => key r == id)
      (fun hk => h ((beq_iff_eq.mp hk).symm.trans (hkey t.next))), List.find?_nil, Option.or_none]
    rfl

theorem eq_of_rows {t t' : Table ρ key} (hrows : t.rows = t'.rows) (hnext : t.next = t'.next) :
    t = t' := by
  cases t
  cases t'
  cases hrows
  cases hnext
  rfl

/-- A write that changes no row. -/
theorem modify_eq_self {t : Table ρ key} {p : ρ → Bool} {f : ρ → ρ}
    (hkey : ∀ r, key (f r) = key r) (h : ∀ r ∈ t.rows, p r = true → f r = r) :
    t.modify p f hkey = t := by
  apply eq_of_rows
  · show t.rows.map _ = t.rows
    conv_rhs => rw [← List.map_id t.rows]
    apply List.map_congr_left
    intro r hr
    show (if p r then f r else r) = r
    split
    · next hp => exact h r hr hp
    · rfl
  · rfl

/-- A new row has a new id. -/
theorem key_ne_next (t : Table ρ key) {r : ρ} (hr : r ∈ t.rows) : key r ≠ t.next :=
  Nat.ne_of_lt (t.below r hr)

end Table

/-! ## Sums over rows -/

/-- The sum of `w` over the rows that satisfy `p`. -/
def sumWhere (p : ρ → Bool) (w : ρ → Int) (rows : List ρ) : Int := ((rows.filter p).map w).sum

@[simp] theorem sumWhere_nil (p : ρ → Bool) (w : ρ → Int) : sumWhere p w [] = 0 := rfl

theorem sumWhere_cons (p : ρ → Bool) (w : ρ → Int) (r : ρ) (rows : List ρ) :
    sumWhere p w (r :: rows) = (if p r then w r else 0) + sumWhere p w rows := by
  unfold sumWhere
  rw [List.filter_cons]
  split
  · rw [List.map_cons, List.sum_cons]
  · rw [Int.zero_add]

theorem sumWhere_append (p : ρ → Bool) (w : ρ → Int) (rows rows' : List ρ) :
    sumWhere p w (rows ++ rows') = sumWhere p w rows + sumWhere p w rows' := by
  unfold sumWhere
  rw [List.filter_append, List.map_append, List.sum_append]

theorem sumWhere_congr {p q : ρ → Bool} {v w : ρ → Int} {rows : List ρ}
    (hpq : ∀ r ∈ rows, p r = q r) (hvw : ∀ r ∈ rows, p r = true → v r = w r) :
    sumWhere p v rows = sumWhere q w rows := by
  induction rows with
  | nil => rfl
  | cons r rows ih =>
    have hr := List.mem_cons_self (a := r) (l := rows)
    rw [sumWhere_cons, sumWhere_cons, ← hpq r hr,
      ih (fun s hs => hpq s (List.mem_cons_of_mem _ hs))
        (fun s hs => hvw s (List.mem_cons_of_mem _ hs))]
    by_cases hp : p r = true
    · rw [if_pos hp, if_pos hp, hvw r hr hp]
    · rw [if_neg hp, if_neg hp]

/-- The rows that satisfy a second condition and the others. -/
theorem sumWhere_split (p q : ρ → Bool) (w : ρ → Int) (rows : List ρ) :
    sumWhere p w rows =
      sumWhere (fun r => p r && q r) w rows + sumWhere (fun r => p r && !q r) w rows := by
  induction rows with
  | nil => rfl
  | cons r rows ih =>
    rw [sumWhere_cons, sumWhere_cons, sumWhere_cons, ih]
    cases p r <;> cases q r <;> simp <;> omega

theorem sumWhere_map (p : ρ → Bool) (w : ρ → Int) (f : ρ → ρ) (rows : List ρ) :
    sumWhere p w (rows.map f) = sumWhere (fun r => p (f r)) (fun r => w (f r)) rows := by
  induction rows with
  | nil => rfl
  | cons r rows ih => rw [List.map_cons, sumWhere_cons, sumWhere_cons, ih]

theorem sumWhere_filter (p q : ρ → Bool) (w : ρ → Int) (rows : List ρ) :
    sumWhere p w (rows.filter q) = sumWhere (fun r => p r && q r) w rows := by
  unfold sumWhere
  rw [List.filter_filter]

theorem sumWhere_eq_zero {p : ρ → Bool} {w : ρ → Int} {rows : List ρ}
    (h : ∀ r ∈ rows, p r = true → w r = 0) : sumWhere p w rows = 0 := by
  induction rows with
  | nil => rfl
  | cons r rows ih =>
    rw [sumWhere_cons, ih (fun s hs => h s (List.mem_cons_of_mem _ hs)), Int.add_zero]
    split
    · next hp => exact h r (List.mem_cons_self ..) hp
    · rfl

theorem sumWhere_nonneg {p : ρ → Bool} {w : ρ → Int} {rows : List ρ}
    (h : ∀ r ∈ rows, p r = true → 0 ≤ w r) : 0 ≤ sumWhere p w rows := by
  induction rows with
  | nil => exact Int.le_refl _
  | cons r rows ih =>
    rw [sumWhere_cons]
    have hrest := ih (fun s hs => h s (List.mem_cons_of_mem _ hs))
    split
    · next hp =>
      have := h r (List.mem_cons_self ..) hp
      omega
    · omega

/-- The sum after one row was changed. -/
theorem sumWhere_modify {t : Table ρ key} {r : ρ} (hr : r ∈ t.rows) {f : ρ → ρ}
    (hkey : ∀ s, key (f s) = key s) {p : ρ → Bool} (hp : ∀ s, p (f s) = p s) (w : ρ → Int) :
    sumWhere p w (t.modify (fun s => key s == key r) f hkey).rows =
      sumWhere p w t.rows + if p r then w (f r) - w r else 0 := by
  have hmap : sumWhere p w (t.modify (fun s => key s == key r) f hkey).rows =
      sumWhere p (fun s => if key s = key r then w (f r) else w s) t.rows := by
    show sumWhere p w (t.rows.map _) = _
    rw [sumWhere_map]
    refine sumWhere_congr (fun s _ => ?_) (fun s hs _ => ?_)
    · split
      · exact hp s
      · rfl
    · by_cases hsr : key s = key r
      · rw [if_pos (beq_iff_eq.mpr hsr), if_pos hsr, t.eq_of_key hs hr hsr]
      · rw [if_neg (fun h => hsr (beq_iff_eq.mp h)), if_neg hsr]
  have hlist : ∀ rows : List ρ, rows.Pairwise (fun r s => key r < key s) → r ∈ rows →
      sumWhere p (fun s => if key s = key r then w (f r) else w s) rows =
        sumWhere p w rows + if p r then w (f r) - w r else 0 := by
    intro rows hsorted hmem
    induction rows with
    | nil => cases hmem
    | cons a rows ih =>
      obtain ⟨hlt, hrest⟩ := List.pairwise_cons.mp hsorted
      rw [sumWhere_cons, sumWhere_cons]
      by_cases ha : a = r
      · -- the row itself: the others have other keys
        have hothers : sumWhere p (fun s => if key s = key r then w (f r) else w s) rows =
            sumWhere p w rows := by
          refine sumWhere_congr (fun _ _ => rfl) (fun s hs _ => if_neg ?_)
          have hne := hlt s hs
          rw [ha] at hne
          omega
        rw [hothers, ha, if_pos rfl]
        split <;> omega
      · have hmem' : r ∈ rows := (List.mem_cons.mp hmem).resolve_left (fun h => ha h.symm)
        have hne : key a ≠ key r := Nat.ne_of_lt (hlt r hmem')
        rw [ih hrest hmem', if_neg hne]
        omega
  rw [hmap]
  exact hlist t.rows t.sorted hr

end PolarBear
