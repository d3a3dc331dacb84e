import PolarBear.Lib.Dict
import PolarBear.Lib.Table

/-!
# Keyed rows that are deleted softly

The rows of a table belong to owners, and each has a key and a value. A deleted row stays, with its
own id in `deleted`, which is `0` in a live one. `Holds` is what the live rows say.

`merge` writes entries for one owner: the rows whose keys are given get the new values, the keys
that have none get a new row, and the other rows are deleted if wanted. It works on the rows a
filter shows. `merge_iff` is the exact condition for it to do to `Holds` what it should: nothing if
the filter shows the live rows and no others; else no given key has deleted rows alone.
-/

namespace PolarBear

variable {ω κ ν : Type}

structure SoftRow (ω κ ν : Type) where
  id : Nat
  owner : ω
  key : κ
  value : ν
  deleted : Nat
  deriving DecidableEq, Repr

/-- A table of such rows; ids start at one, so no deleted row looks live. -/
structure SoftRows (ω κ ν : Type) where
  table : Table (SoftRow ω κ ν) SoftRow.id
  pos : ∀ r ∈ table.rows, 0 < r.id
  next_pos : 0 < table.next

namespace SoftRows

def rows (t : SoftRows ω κ ν) : List (SoftRow ω κ ν) := t.table.rows

/-- The table without rows. -/
def empty : SoftRows ω κ ν where
  table := ⟨[], 1, List.Pairwise.nil, fun _ h => absurd h List.not_mem_nil⟩
  pos := fun _ h => absurd h List.not_mem_nil
  next_pos := Nat.one_pos

/-- Rows are changed, not their ids. -/
def modify (t : SoftRows ω κ ν) (p : SoftRow ω κ ν → Bool) (f : SoftRow ω κ ν → SoftRow ω κ ν)
    (hid : ∀ r, (f r).id = r.id) : SoftRows ω κ ν where
  table := t.table.modify p f hid
  pos := by
    intro r hr
    obtain ⟨s, hs, rfl⟩ := (Table.mem_modify hid).mp hr
    split
    · rw [hid]
      exact t.pos s hs
    · exact t.pos s hs
  next_pos := t.next_pos

/-- `soft_delete()` of the rows that match. -/
def softDelete (t : SoftRows ω κ ν) (p : SoftRow ω κ ν → Bool) : SoftRows ω κ ν :=
  t.modify p (fun r => { r with deleted := r.id }) (fun _ => rfl)

/-- A new row. -/
def add (t : SoftRows ω κ ν) (owner : ω) (key : κ) (value : ν) : SoftRows ω κ ν where
  table := t.table.insert (fun id => ⟨id, owner, key, value, 0⟩) (fun _ => rfl)
  pos := by
    intro r hr
    rcases (Table.mem_insert _).mp hr with hr | rfl
    · exact t.pos r hr
    · exact t.next_pos
  next_pos := Nat.succ_pos _

/-- A new row for each entry. -/
def addAll (t : SoftRows ω κ ν) (owner : ω) (entries : List (κ × ν)) : SoftRows ω κ ν :=
  entries.foldl (fun t e => t.add owner e.1 e.2) t

/-- What the live rows say. -/
def Holds (t : SoftRows ω κ ν) (owner : ω) (key : κ) (value : ν) : Prop :=
  ∃ r ∈ t.rows, r.deleted = 0 ∧ r.owner = owner ∧ r.key = key ∧ r.value = value

/-- The filter shows a row of the key. -/
def Shows (t : SoftRows ω κ ν) (shown : Nat → Bool) (owner : ω) (key : κ) : Prop :=
  ∃ r ∈ t.rows, shown r.deleted = true ∧ r.owner = owner ∧ r.key = key

/-! ## Rows -/

variable {t : SoftRows ω κ ν}

theorem mem_modify {p : SoftRow ω κ ν → Bool} {f : SoftRow ω κ ν → SoftRow ω κ ν}
    {hid : ∀ r, (f r).id = r.id} {r : SoftRow ω κ ν} :
    r ∈ (t.modify p f hid).rows ↔ ∃ s ∈ t.rows, r = if p s then f s else s :=
  Table.mem_modify hid

theorem holds_addAll {owner : ω} {entries : List (κ × ν)} {o : ω} {k : κ} {v : ν} :
    (t.addAll owner entries).Holds o k v ↔ t.Holds o k v ∨ o = owner ∧ (k, v) ∈ entries := by
  induction entries generalizing t with
  | nil => exact ⟨.inl, fun h => h.resolve_right (fun h => List.not_mem_nil h.2)⟩
  | cons e entries ih =>
    have hadd : (t.add owner e.1 e.2).Holds o k v ↔ t.Holds o k v ∨ o = owner ∧ (k, v) = e := by
      constructor
      · rintro ⟨r, hr, hlive, rfl, rfl, rfl⟩
        rcases (Table.mem_insert _).mp hr with hr | rfl
        · exact .inl ⟨r, hr, hlive, rfl, rfl, rfl⟩
        · exact .inr ⟨rfl, rfl⟩
      · rintro (⟨r, hr, h⟩ | ⟨rfl, rfl⟩)
        · exact ⟨r, (Table.mem_insert _).mpr (.inl hr), h⟩
        · exact ⟨_, (Table.mem_insert _).mpr (.inr rfl), rfl, rfl, rfl, rfl⟩
    show ((t.add owner e.1 e.2).addAll owner entries).Holds o k v ↔ _
    rw [ih, hadd, List.mem_cons, or_assoc, ← and_or_left]

theorem holds_softDelete {p : SoftRow ω κ ν → Bool} {o : ω} {k : κ} {v : ν} :
    (t.softDelete p).Holds o k v ↔
      ∃ r ∈ t.rows, r.deleted = 0 ∧ p r = false ∧ r.owner = o ∧ r.key = k ∧ r.value = v := by
  constructor
  · rintro ⟨r, hr, hlive, howner, hkey, hvalue⟩
    obtain ⟨s, hs, rfl⟩ := mem_modify.mp hr
    by_cases hp : p s = true
    · rw [if_pos hp] at hlive
      exact absurd hlive (Nat.pos_iff_ne_zero.mp (t.pos s hs))
    · rw [if_neg hp] at hlive howner hkey hvalue
      exact ⟨s, hs, hlive, Bool.eq_false_iff.mpr hp, howner, hkey, hvalue⟩
  · rintro ⟨r, hr, hlive, hp, howner, hkey, hvalue⟩
    refine ⟨r, mem_modify.mpr ⟨r, hr, ?_⟩, hlive, howner, hkey, hvalue⟩
    rw [if_neg (Bool.eq_false_iff.mp hp)]

/-! ## Writing entries -/

variable [DecidableEq ω] [DecidableEq κ]

/-- The row is the owner's, and the filter shows it. -/
def belongs (shown : Nat → Bool) (owner : ω) (r : SoftRow ω κ ν) : Bool :=
  shown r.deleted && r.owner == owner

/-- The key of the row is given. -/
def given (entries : List (κ × ν)) (r : SoftRow ω κ ν) : Bool :=
  (Dict.keys entries).contains r.key

/-- The value of the row is the one given for its key. -/
def setValue (entries : List (κ × ν)) (r : SoftRow ω κ ν) : SoftRow ω κ ν :=
  { r with value := (entries.lookup r.key).getD r.value }

/-- The rows whose keys are not given are deleted, if wanted. -/
def clear (shown : Nat → Bool) (owner : ω) (entries : List (κ × ν)) (delete : Bool)
    (t : SoftRows ω κ ν) : SoftRows ω κ ν :=
  if delete then t.softDelete (fun r => belongs shown owner r && !given entries r) else t

/-- The entries become the owner's. -/
def merge (shown : Nat → Bool) (owner : ω) (entries : List (κ × ν)) (delete : Bool)
    (t : SoftRows ω κ ν) : SoftRows ω κ ν :=
  let cleared := t.clear shown owner entries delete
  let found := fun r => belongs shown owner r && given entries r
  let alreadyExisting := (cleared.rows.filter found).map SoftRow.key
  (cleared.modify found (setValue entries) (fun _ => rfl)).addAll owner
    (entries.filter (fun e => !alreadyExisting.contains e.1))

/-- What `merge` should do. -/
def Merged (owner : ω) (entries : List (κ × ν)) (delete : Bool) (H : ω → κ → ν → Prop) (o : ω)
    (k : κ) (v : ν) : Prop :=
  if o = owner then
    entries.lookup k = some v ∨ entries.lookup k = none ∧ delete = false ∧ H o k v
  else H o k v

omit [DecidableEq ω] in
theorem given_iff {entries : List (κ × ν)} {r : SoftRow ω κ ν} :
    given entries r = true ↔ entries.lookup r.key ≠ none := by
  unfold given
  rw [List.contains_iff_mem, ne_eq, Dict.lookup_eq_none_iff, not_not]

omit [DecidableEq κ] in
theorem belongs_iff {shown : Nat → Bool} {owner : ω} {r : SoftRow ω κ ν} :
    belongs shown owner r = true ↔ shown r.deleted = true ∧ r.owner = owner := by
  unfold belongs
  rw [Bool.and_eq_true, beq_iff_eq]

variable {shown : Nat → Bool} {owner : ω} {entries : List (κ × ν)} {delete : Bool}

/-- The rows with given keys are not touched by it. -/
theorem mem_clear {r : SoftRow ω κ ν} (hgiven : given entries r = true) :
    r ∈ (t.clear shown owner entries delete).rows ↔ r ∈ t.rows := by
  unfold clear
  split
  · constructor
    · intro hr
      obtain ⟨s, hs, hrs⟩ := mem_modify.mp hr
      split at hrs
      · next hp =>
        -- a deleted row keeps its key
        rw [Bool.and_eq_true, Bool.not_eq_true'] at hp
        have hsame : given entries s = true := by
          rw [hrs] at hgiven
          exact hgiven
        rw [hsame] at hp
        exact absurd hp.2 Bool.noConfusion
      · rw [hrs]
        exact hs
    · intro hr
      refine mem_modify.mpr ⟨r, hr, ?_⟩
      rw [hgiven, Bool.not_true, Bool.and_false, if_neg Bool.false_ne_true]
  · exact Iff.rfl

theorem holds_clear {o : ω} {k : κ} {v : ν} :
    (t.clear shown owner entries delete).Holds o k v ↔ t.Holds o k v ∧
      ¬ (delete = true ∧ shown 0 = true ∧ o = owner ∧ entries.lookup k = none) := by
  unfold clear
  by_cases hdelete : delete = true
  · rw [if_pos hdelete, holds_softDelete]
    have hcond : ∀ r : SoftRow ω κ ν, r.deleted = 0 → r.owner = o → r.key = k →
        ((belongs shown owner r && !given entries r) = false ↔
          ¬ (delete = true ∧ shown 0 = true ∧ o = owner ∧ entries.lookup k = none)) := by
      rintro r hlive rfl rfl
      rw [← Bool.not_eq_true, not_iff_not, Bool.and_eq_true, belongs_iff, Bool.not_eq_true',
        Bool.eq_false_iff, ne_eq, given_iff, not_not, hlive, and_iff_right hdelete, and_assoc]
    constructor
    · rintro ⟨r, hr, hlive, hp, howner, hkey, hvalue⟩
      exact ⟨⟨r, hr, hlive, howner, hkey, hvalue⟩, (hcond r hlive howner hkey).mp hp⟩
    · rintro ⟨⟨r, hr, hlive, howner, hkey, hvalue⟩, hno⟩
      exact ⟨r, hr, hlive, (hcond r hlive howner hkey).mpr hno, howner, hkey, hvalue⟩
  · rw [if_neg hdelete]
    exact (and_iff_left (fun h => hdelete h.1)).symm

/-- The keys that get no new row. -/
theorem alreadyExisting_iff (delete : Bool) {k : κ} (hk : entries.lookup k ≠ none) :
    ((((t.clear shown owner entries delete).rows.filter
      (fun r => belongs shown owner r && given entries r)).map SoftRow.key).contains k = true) ↔
      t.Shows shown owner k := by
  rw [List.contains_iff_mem, List.mem_map]
  constructor
  · rintro ⟨r, hr, rfl⟩
    obtain ⟨hmem, hp⟩ := List.mem_filter.mp hr
    rw [Bool.and_eq_true, belongs_iff] at hp
    exact ⟨r, (mem_clear hp.2).mp hmem, hp.1.1, hp.1.2, rfl⟩
  · rintro ⟨r, hr, hshown, howner, rfl⟩
    have hgiven := given_iff.mpr hk
    refine ⟨r, List.mem_filter.mpr ⟨(mem_clear hgiven).mpr hr, ?_⟩, rfl⟩
    rw [Bool.and_eq_true, belongs_iff]
    exact ⟨⟨hshown, howner⟩, hgiven⟩

/-- What the live rows say after the second statement. -/
theorem holds_setValue {c : SoftRows ω κ ν} {o : ω} {k : κ} {v : ν} :
    (c.modify (fun r => belongs shown owner r && given entries r) (setValue entries)
      (fun _ => rfl)).Holds o k v ↔
      ∃ u, c.Holds o k u ∧ v = if shown 0 = true ∧ o = owner then (entries.lookup k).getD u
        else u := by
  have hvalue : ∀ r : SoftRow ω κ ν, r.deleted = 0 →
      (if (belongs shown owner r && given entries r) = true then setValue entries r else r).value =
        if shown 0 = true ∧ r.owner = owner then (entries.lookup r.key).getD r.value
        else r.value := by
    intro r hlive
    by_cases hbelongs : belongs shown owner r = true
    · have hb := belongs_iff.mp hbelongs
      rw [hlive] at hb
      rw [hbelongs, Bool.true_and, if_pos hb]
      split
      · rfl
      · next hno =>
        rw [given_iff, not_not] at hno
        rw [hno, Option.getD_none]
    · rw [Bool.eq_false_iff.mpr hbelongs, Bool.false_and, if_neg Bool.false_ne_true, if_neg]
      intro hb
      exact hbelongs (belongs_iff.mpr ⟨hlive ▸ hb.1, hb.2⟩)
  have hsame : ∀ r : SoftRow ω κ ν, ∀ b : Bool,
      (if b = true then setValue entries r else r).deleted = r.deleted ∧
        (if b = true then setValue entries r else r).owner = r.owner ∧
        (if b = true then setValue entries r else r).key = r.key := by
    intro r b
    split
    · exact ⟨rfl, rfl, rfl⟩
    · exact ⟨rfl, rfl, rfl⟩
  constructor
  · rintro ⟨r, hr, hlive, howner, hkey, hv⟩
    obtain ⟨s, hs, rfl⟩ := mem_modify.mp hr
    obtain ⟨hd, ho, hk⟩ := hsame s (belongs shown owner s && given entries s)
    rw [hd] at hlive
    rw [ho] at howner
    rw [hk] at hkey
    rw [hvalue s hlive, howner, hkey] at hv
    exact ⟨s.value, ⟨s, hs, hlive, howner, hkey, rfl⟩, hv.symm⟩
  · rintro ⟨u, ⟨s, hs, hlive, howner, hkey, rfl⟩, hv⟩
    obtain ⟨hd, ho, hk⟩ := hsame s (belongs shown owner s && given entries s)
    refine ⟨_, mem_modify.mpr ⟨s, hs, rfl⟩, hd.trans hlive, ho.trans howner, hk.trans hkey, ?_⟩
    rw [hvalue s hlive, howner, hkey, hv]

/-- No key is given two values. -/
def Consistent (entries : List (κ × ν)) : Prop :=
  ∀ k v, (k, v) ∈ entries → entries.lookup k = some v

/-- **What `merge` does.** -/
theorem holds_merge (hentries : Consistent entries) {o : ω} {k : κ} {v : ν} :
    (t.merge shown owner entries delete).Holds o k v ↔
      (∃ u, (t.Holds o k u ∧
          ¬ (delete = true ∧ shown 0 = true ∧ o = owner ∧ entries.lookup k = none)) ∧
        v = if shown 0 = true ∧ o = owner then (entries.lookup k).getD u else u) ∨
      o = owner ∧ entries.lookup k = some v ∧ ¬ t.Shows shown owner k := by
  show (((t.clear shown owner entries delete).modify _ _ _).addAll owner _).Holds o k v ↔ _
  rw [holds_addAll, holds_setValue]
  refine or_congr (exists_congr fun u => and_congr_left' holds_clear)
    (and_congr_right fun _ => ?_)
  rw [List.mem_filter, Bool.not_eq_true']
  constructor
  · rintro ⟨hmem, hnew⟩
    have hlookup := hentries k v hmem
    refine ⟨hlookup, fun hshows => ?_⟩
    have hold := (alreadyExisting_iff delete
      (by rw [hlookup]; exact Option.some_ne_none v)).mpr hshows
    exact Bool.noConfusion (hold.symm.trans hnew)
  · rintro ⟨hlookup, hno⟩
    refine ⟨Dict.mem_of_lookup hlookup, Bool.eq_false_iff.mpr (fun hold => hno ?_)⟩
    exact (alreadyExisting_iff delete (by rw [hlookup]; exact Option.some_ne_none v)).mp hold

/-- The filter shows the live rows of the keys that are written or deleted, unless they would not
change, and deleted rows of a given key only next to a live one. -/
structure Writable (t : SoftRows ω κ ν) (shown : Nat → Bool) (owner : ω) (entries : List (κ × ν))
    (delete : Bool) : Prop where
  deletes : shown 0 = false → delete = true → ∀ k v, t.Holds owner k v → entries.lookup k ≠ none
  writes : shown 0 = false → ∀ k v w, t.Holds owner k v → entries.lookup k = some w → v = w
  inserts : ∀ k w, entries.lookup k = some w → t.Shows shown owner k → ∃ v, t.Holds owner k v

omit [DecidableEq ω] in
/-- A filter that shows the live rows and no others. -/
theorem writable_of_live (hshown : ∀ d, shown d = true ↔ d = 0) :
    t.Writable shown owner entries delete where
  deletes := fun h => absurd ((hshown 0).mpr rfl) (Bool.eq_false_iff.mp h)
  writes := fun h => absurd ((hshown 0).mpr rfl) (Bool.eq_false_iff.mp h)
  inserts := by
    rintro k w - ⟨r, hr, hlive, howner, hkey⟩
    exact ⟨r.value, r, hr, (hshown _).mp hlive, howner, hkey, rfl⟩

/-- Other owners keep what they have. -/
theorem holds_merge_other (hentries : Consistent entries) {o : ω} {k : κ} {v : ν} (ho : o ≠ owner) :
    (t.merge shown owner entries delete).Holds o k v ↔
      Merged owner entries delete t.Holds o k v := by
  rw [holds_merge hentries, Merged, if_neg ho]
  constructor
  · rintro (⟨u, ⟨hu, -⟩, hv⟩ | ⟨h, -⟩)
    · rw [if_neg (fun h => ho h.2)] at hv
      rw [hv]
      exact hu
    · exact absurd h ho
  · intro hv
    exact .inl ⟨v, ⟨hv, fun h => ho h.2.2.1⟩, (if_neg (fun h => ho h.2)).symm⟩

/-- A key that is not given keeps its value, unless it is deleted. -/
theorem holds_merge_absent (hentries : Consistent entries) {k : κ} {v : ν}
    (hnone : entries.lookup k = none) :
    (t.merge shown owner entries delete).Holds owner k v ↔
      t.Holds owner k v ∧ ¬ (delete = true ∧ shown 0 = true) := by
  rw [holds_merge hentries, hnone]
  constructor
  · rintro (⟨u, ⟨hu, hno⟩, hv⟩ | ⟨-, h, -⟩)
    · rw [Option.getD_none, ite_self] at hv
      rw [hv]
      exact ⟨hu, fun h => hno ⟨h.1, h.2, rfl, rfl⟩⟩
    · cases h
  · rintro ⟨hv, hno⟩
    refine .inl ⟨v, ⟨hv, fun h => hno ⟨h.1, h.2.1⟩⟩, ?_⟩
    rw [Option.getD_none, ite_self]

/-- A key that is given has a live row written, or a new one where none is shown. -/
theorem holds_merge_given (hentries : Consistent entries) {k : κ} {v w : ν}
    (hsome : entries.lookup k = some w) :
    (t.merge shown owner entries delete).Holds owner k v ↔
      (∃ u, t.Holds owner k u ∧ v = if shown 0 = true then w else u) ∨
        w = v ∧ ¬ t.Shows shown owner k := by
  rw [holds_merge hentries, hsome]
  refine or_congr (exists_congr fun u => ?_) ?_
  · have hno : ¬ (delete = true ∧ shown 0 = true ∧ owner = owner ∧ some w = none) :=
      fun h => Option.some_ne_none w h.2.2.2
    rw [and_iff_left hno, Option.getD_some]
    refine and_congr_right fun _ => ?_
    by_cases hzero : shown 0 = true
    · rw [if_pos ⟨hzero, rfl⟩, if_pos hzero]
    · rw [if_neg (fun h => hzero h.1), if_neg hzero]
  · rw [and_iff_right rfl, Option.some.injEq]

theorem writable_of_merged (hentries : Consistent entries)
    (h : ∀ o k v, (t.merge shown owner entries delete).Holds o k v ↔
      Merged owner entries delete t.Holds o k v) : t.Writable shown owner entries delete := by
  refine ⟨fun hzero hdelete k v hv hnone => ?_, fun hzero k v w hv hsome => ?_,
    fun k w hsome hshows => ?_⟩
  · have hafter : (t.merge shown owner entries delete).Holds owner k v :=
      (holds_merge_absent hentries hnone).mpr ⟨hv, fun hd => by rw [hzero] at hd; cases hd.2⟩
    rw [h, Merged, if_pos rfl, hnone] at hafter
    rcases hafter with hafter | hafter
    · cases hafter
    · rw [hdelete] at hafter
      cases hafter.2.1
  · have hafter : (t.merge shown owner entries delete).Holds owner k v :=
      (holds_merge_given hentries hsome).mpr (.inl ⟨v, hv, by rw [hzero]; rfl⟩)
    rw [h, Merged, if_pos rfl, hsome] at hafter
    rcases hafter with hafter | hafter
    · exact (Option.some.inj hafter).symm
    · cases hafter.1
  · have hafter : (t.merge shown owner entries delete).Holds owner k w := by
      rw [h, Merged, if_pos rfl]
      exact .inl hsome
    rcases (holds_merge_given hentries hsome).mp hafter with ⟨u, hu, -⟩ | ⟨-, hno⟩
    · exact ⟨u, hu⟩
    · exact absurd hshows hno

theorem merged_of_writable (hentries : Consistent entries)
    (h : t.Writable shown owner entries delete) (k : κ) (v : ν) :
    (t.merge shown owner entries delete).Holds owner k v ↔
      Merged owner entries delete t.Holds owner k v := by
  rw [Merged, if_pos rfl]
  cases hlookup : entries.lookup k with
  | none =>
    rw [holds_merge_absent hentries hlookup]
    constructor
    · rintro ⟨hv, hno⟩
      refine .inr ⟨rfl, Bool.eq_false_iff.mpr (fun hdelete => ?_), hv⟩
      by_cases hzero : shown 0 = true
      · exact hno ⟨hdelete, hzero⟩
      · exact h.deletes (Bool.eq_false_iff.mpr hzero) hdelete k v hv hlookup
    · rintro (h | ⟨-, hdelete, hv⟩)
      · cases h
      · exact ⟨hv, fun hd => by rw [hdelete] at hd; cases hd.1⟩
  | some w =>
    rw [holds_merge_given hentries hlookup]
    constructor
    · rintro (⟨u, hu, hv⟩ | ⟨hv, -⟩)
      · left
        by_cases hzero : shown 0 = true
        · rw [if_pos hzero] at hv
          rw [hv]
        · rw [if_neg hzero] at hv
          rw [hv, h.writes (Bool.eq_false_iff.mpr hzero) k u w hu hlookup]
      · rw [hv]
        exact .inl rfl
    · rintro (hv | ⟨hv, -⟩)
      · obtain rfl := Option.some.inj hv
        by_cases hshows : t.Shows shown owner k
        · -- the row that is shown is live, and holds the value or is written
          obtain ⟨u, hu⟩ := h.inserts k w hlookup hshows
          refine .inl ⟨u, hu, ?_⟩
          by_cases hzero : shown 0 = true
          · rw [if_pos hzero]
          · rw [if_neg hzero, h.writes (Bool.eq_false_iff.mpr hzero) k u w hu hlookup]
        · exact .inr ⟨rfl, hshows⟩
      · cases hv

/-- **`merge` does what it should exactly if the rows are writable.** -/
theorem merge_iff (hentries : Consistent entries) :
    (∀ o k v, (t.merge shown owner entries delete).Holds o k v ↔
      Merged owner entries delete t.Holds o k v) ↔ t.Writable shown owner entries delete := by
  refine ⟨writable_of_merged hentries, fun h o k v => ?_⟩
  by_cases ho : o = owner
  · rw [ho]
    exact merged_of_writable hentries h k v
  · exact holds_merge_other hentries ho

/-! ## Reading -/

/-- The entries the filter shows of an owner, as a dictionary: the last row of a key counts. -/
def toDict (shown : Nat → Bool) (owner : ω) (t : SoftRows ω κ ν) : List (κ × ν) :=
  Dict.update [] ((t.rows.filter (belongs shown owner)).map (fun r => (r.key, r.value)))

/-- No key has two values. -/
def Functional (H : ω → κ → ν → Prop) : Prop := ∀ o k v w, H o k v → H o k w → v = w

/-- The dictionary says what the live rows say. -/
theorem lookup_toDict (hshown : ∀ d, shown d = true ↔ d = 0) (ht : Functional t.Holds) {k : κ}
    {v : ν} : (t.toDict shown owner).lookup k = some v ↔ t.Holds owner k v := by
  classical
  let f : κ → Option ν := fun k => if h : ∃ v, t.Holds owner k v then some h.choose else none
  have hf : ∀ k v, f k = some v ↔ t.Holds owner k v := by
    intro k v
    show (if h : ∃ v, t.Holds owner k v then some h.choose else none) = some v ↔ _
    split
    · next h =>
      rw [Option.some.injEq]
      exact ⟨fun he => he ▸ h.choose_spec, fun hv => ht owner k _ v h.choose_spec hv⟩
    · next h => exact ⟨fun he => (by cases he), fun hv => absurd ⟨v, hv⟩ h⟩
  have hread : (t.toDict shown owner).lookup k = f k := by
    refine Dict.lookup_update_nil (fun kv hkv => ?_) (fun k v hkv => ?_) k
    · obtain ⟨r, hr, rfl⟩ := List.mem_map.mp hkv
      obtain ⟨hmem, hbelongs⟩ := List.mem_filter.mp hr
      obtain ⟨hlive, howner⟩ := belongs_iff.mp hbelongs
      exact (hf r.key r.value).mpr ⟨r, hmem, (hshown _).mp hlive, howner, rfl, rfl⟩
    · obtain ⟨r, hr, hlive, howner, hkey, hvalue⟩ := (hf k v).mp hkv
      refine List.mem_map.mpr ⟨(k, v), List.mem_map.mpr ⟨r, List.mem_filter.mpr ⟨hr, ?_⟩, ?_⟩, rfl⟩
      · exact belongs_iff.mpr ⟨(hshown _).mpr hlive, howner⟩
      · rw [hkey, hvalue]
  rw [hread, hf]

end SoftRows

end PolarBear
