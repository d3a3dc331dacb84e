import Mathlib.Data.List.Nodup
import Mathlib.Logic.Function.Basic

/-!
# Rows that are found by a key

A `Keyed` table has rows with ids of their own, some of which are live, and no two live rows have
the same key. So it is a map from keys to live rows, `read`. A conditional update keeps ids, keys
and liveness; what it does to the map is told by the rows it matches: no row and nothing happens
(`read_update_none`), one live row and one key is written (`read_update_one`).
-/

namespace PolarBear

variable {ρ γ : Type} {ident : ρ → Nat} {key : ρ → γ} {live : ρ → Bool}

/-- Rows with ids, in which the keys of the live ones are distinct. -/
structure Keyed (ρ γ : Type) (ident : ρ → Nat) (key : ρ → γ) (live : ρ → Bool) where
  rows : List ρ
  ids : (rows.map ident).Nodup
  keys : ((rows.filter live).map key).Nodup

namespace Keyed

/-- What an update leaves alone. -/
structure Keeps (ident : ρ → Nat) (key : ρ → γ) (live : ρ → Bool) (f : ρ → ρ) : Prop where
  ident : ∀ r, ident (f r) = ident r
  key : ∀ r, key (f r) = key r
  live : ∀ r, live (f r) = live r

/-- `UPDATE .. WHERE`: the rows that match are changed. -/
def update (t : Keyed ρ γ ident key live) (p : ρ → Bool) (f : ρ → ρ)
    (hf : Keeps ident key live f) : Keyed ρ γ ident key live where
  rows := t.rows.map (fun r => if p r then f r else r)
  ids := by
    have hid : (t.rows.map (fun r => if p r then f r else r)).map ident = t.rows.map ident := by
      rw [List.map_map]
      refine List.map_congr_left (fun r _ => ?_)
      rw [Function.comp_apply]
      split
      · exact hf.ident r
      · rfl
    rw [hid]
    exact t.ids
  keys := by
    have hkey : ((t.rows.map (fun r => if p r then f r else r)).filter live).map key =
        (t.rows.filter live).map key := by
      rw [List.filter_map, List.map_map]
      have hlive : (live ∘ fun r => if p r then f r else r) = live := by
        funext r
        rw [Function.comp_apply]
        split
        · exact hf.live r
        · rfl
      rw [hlive]
      refine List.map_congr_left (fun r _ => ?_)
      rw [Function.comp_apply]
      split
      · exact hf.key r
      · rfl
    rw [hkey]
    exact t.keys

variable {t : Keyed ρ γ ident key live}

theorem eq_of_ident {r s : ρ} (hr : r ∈ t.rows) (hs : s ∈ t.rows) (h : ident r = ident s) :
    r = s :=
  List.inj_on_of_nodup_map t.ids hr hs h

theorem eq_of_key {r s : ρ} (hr : r ∈ t.rows) (hs : s ∈ t.rows) (hlive : live r = true)
    (hlive' : live s = true) (h : key r = key s) : r = s :=
  List.inj_on_of_nodup_map t.keys (List.mem_filter.mpr ⟨hr, hlive⟩)
    (List.mem_filter.mpr ⟨hs, hlive'⟩) h

variable [DecidableEq γ]

/-- The live row of a key. -/
def read (t : Keyed ρ γ ident key live) (k : γ) : Option ρ :=
  t.rows.find? (fun r => live r && decide (key r = k))

theorem read_iff {k : γ} {r : ρ} :
    t.read k = some r ↔ r ∈ t.rows ∧ live r = true ∧ key r = k := by
  unfold read
  have hfound : ∀ {s : ρ}, t.rows.find? (fun r => live r && decide (key r = k)) = some s →
      s ∈ t.rows ∧ live s = true ∧ key s = k := by
    intro s hs
    have hp := List.find?_some hs
    rw [Bool.and_eq_true, decide_eq_true_eq] at hp
    exact ⟨List.mem_of_find?_eq_some hs, hp.1, hp.2⟩
  constructor
  · exact hfound
  · rintro ⟨hr, hlive, hk⟩
    cases hread : t.rows.find? (fun r => live r && decide (key r = k)) with
    | none =>
      have hno := List.find?_eq_none.mp hread r hr
      rw [Bool.and_eq_true, decide_eq_true_eq] at hno
      exact absurd ⟨hlive, hk⟩ hno
    | some s =>
      obtain ⟨hs, hlive', hk'⟩ := hfound hread
      exact congrArg some (eq_of_key hs hr hlive' hlive (hk'.trans hk.symm))

theorem read_update {p : ρ → Bool} {f : ρ → ρ} (hf : Keeps ident key live f) (k : γ) :
    (t.update p f hf).read k = (t.read k).map (fun r => if p r then f r else r) := by
  unfold read update
  rw [List.find?_map]
  congr 1
  refine congrArg (fun q => List.find? q t.rows) (funext fun r => ?_)
  show (live (if p r then f r else r) && decide (key (if p r then f r else r) = k)) = _
  split
  · rw [hf.live, hf.key]
  · rfl

/-- An update that matches no row. -/
theorem read_update_none {p : ρ → Bool} {f : ρ → ρ} (hf : Keeps ident key live f)
    (h : ∀ r ∈ t.rows, p r = false) : (t.update p f hf).read = t.read := by
  funext k
  rw [read_update]
  cases hread : t.read k with
  | none => rfl
  | some r =>
    rw [Option.map_some, if_neg (by rw [h r (read_iff.mp hread).1]; exact Bool.false_ne_true)]

/-- **An update that matches one live row** writes its key. -/
theorem read_update_one {p : ρ → Bool} {f : ρ → ρ} (hf : Keeps ident key live f) {r : ρ}
    (hr : r ∈ t.rows) (hlive : live r = true) (hp : p r = true)
    (hone : ∀ s ∈ t.rows, p s = true → s = r) :
    (t.update p f hf).read = Function.update t.read (key r) (some (f r)) := by
  funext k
  rw [read_update]
  by_cases hk : k = key r
  · rw [hk, Function.update_self, read_iff.mpr ⟨hr, hlive, rfl⟩, Option.map_some, if_pos hp]
  · rw [Function.update_of_ne hk]
    cases hread : t.read k with
    | none => rfl
    | some s =>
      obtain ⟨hs, -, hks⟩ := read_iff.mp hread
      have hne : ¬ p s = true := fun h => hk (by rw [← hks, hone s hs h])
      rw [Option.map_some, if_neg hne]

/-- **A guarded update**: of the rows it can match none is there, or one, which is live. -/
theorem update_cases {p : ρ → Bool} {f : ρ → ρ} (hf : Keeps ident key live f)
    (hlive : ∀ r ∈ t.rows, p r = true → live r = true)
    (hone : ∀ r ∈ t.rows, ∀ r' ∈ t.rows, p r = true → p r' = true → r = r') :
    (t.rows.countP p = 0 ∧ (∀ r ∈ t.rows, p r = false) ∧ (t.update p f hf).read = t.read) ∨
    (t.rows.countP p = 1 ∧ ∃ r, p r = true ∧ t.read (key r) = some r ∧
      (t.update p f hf).read = Function.update t.read (key r) (some (f r))) := by
  by_cases hany : ∃ r ∈ t.rows, p r = true
  · obtain ⟨r, hr, hp⟩ := hany
    right
    have hcount : t.rows.countP p = 1 := by
      have hnodup : t.rows.Nodup := List.Nodup.of_map _ t.ids
      have hfilter : t.rows.filter p = [r] := by
        refine List.perm_singleton.mp ((List.perm_ext_iff_of_nodup (hnodup.filter _)
          (List.nodup_singleton r)).mpr (fun r' => ?_))
        rw [List.mem_filter, List.mem_singleton]
        exact ⟨fun h => hone r' h.1 r hr h.2 hp, fun h => h ▸ ⟨hr, hp⟩⟩
      rw [List.countP_eq_length_filter, hfilter]
      rfl
    refine ⟨hcount, r, hp, read_iff.mpr ⟨hr, hlive r hr hp, rfl⟩, ?_⟩
    exact read_update_one hf hr (hlive r hr hp) hp (fun r' hr' hp' => hone r' hr' r hr hp' hp)
  · left
    have hnone : ∀ r ∈ t.rows, p r = false :=
      fun r hr => eq_false_of_ne_true (fun hp => hany ⟨r, hr, hp⟩)
    refine ⟨List.countP_eq_zero.mpr (fun r hr => ?_), hnone, read_update_none hf hnone⟩
    rw [hnone r hr]
    exact Bool.false_ne_true

/-! ## The same rows -/

omit [DecidableEq γ]

/-- The rows have the ids, the keys and the liveness that they had. -/
def Same (t t' : Keyed ρ γ ident key live) : Prop :=
  t'.rows.map (fun r => (ident r, key r, live r)) = t.rows.map (fun r => (ident r, key r, live r))

theorem Same.refl (t : Keyed ρ γ ident key live) : Same t t := rfl

theorem Same.trans {t₁ t₂ t₃ : Keyed ρ γ ident key live} (h : Same t₁ t₂) (h' : Same t₂ t₃) :
    Same t₁ t₃ :=
  Eq.trans h' h

theorem same_update {p : ρ → Bool} {f : ρ → ρ} (hf : Keeps ident key live f) :
    Same t (t.update p f hf) := by
  show (t.rows.map _).map _ = t.rows.map _
  rw [List.map_map]
  refine List.map_congr_left (fun r _ => ?_)
  rw [Function.comp_apply]
  split
  · rw [hf.ident, hf.key, hf.live]
  · rfl

/-- A row that was found is there later, under its id and its key. -/
theorem Same.row {t t' : Keyed ρ γ ident key live} (h : Same t t') {r : ρ} (hr : r ∈ t.rows) :
    ∃ r' ∈ t'.rows, ident r' = ident r ∧ key r' = key r ∧ live r' = live r := by
  have hmem : (ident r, key r, live r) ∈ t'.rows.map (fun r => (ident r, key r, live r)) := by
    rw [show t'.rows.map _ = _ from h]
    exact List.mem_map_of_mem (f := fun r => (ident r, key r, live r)) hr
  obtain ⟨r', hr', heq⟩ := List.mem_map.mp hmem
  obtain ⟨hid, hrest⟩ := Prod.mk.inj heq
  obtain ⟨hkey, hlive⟩ := Prod.mk.inj hrest
  exact ⟨r', hr', hid, hkey, hlive⟩

/-- The row that has its id later has its key. -/
theorem Same.of_ident {t t' : Keyed ρ γ ident key live} (h : Same t t') {r s : ρ}
    (hr : r ∈ t.rows) (hs : s ∈ t'.rows) (hid : ident s = ident r) :
    key s = key r ∧ live s = live r := by
  obtain ⟨r', hr', hid', hkey, hlive⟩ := h.row hr
  rw [eq_of_ident hs hr' (hid.trans hid'.symm)]
  exact ⟨hkey, hlive⟩

end Keyed

end PolarBear
