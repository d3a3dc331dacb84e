import PolarBear.Lib.Dict

/-!
# Dictionaries with hidden entries

Some keys are hidden. Two dictionaries look the same when they have the same keys, in the
same order, and the same values but for hidden keys. Reading a key that is not hidden,
selecting by key and putting dictionaries together then cannot tell the two apart, and
without the hidden entries they are equal.
-/

namespace PolarBear.Redaction

variable {κ α : Type} {hidden : κ → Bool} {d d' e e' : List (κ × α)}

/-- Entries of one key, with one value unless it is hidden. -/
def SameEntry (hidden : κ → Bool) (e e' : κ × α) : Prop :=
  e'.1 = e.1 ∧ (hidden e.1 = true ∨ e'.2 = e.2)

/-- Dictionaries that differ in the values of hidden keys only. -/
def LookSame (hidden : κ → Bool) (d d' : List (κ × α)) : Prop :=
  List.Forall₂ (SameEntry hidden) d d'

theorem LookSame.refl : ∀ d : List (κ × α), LookSame hidden d d
  | [] => .nil
  | _ :: d => .cons ⟨rfl, .inr rfl⟩ (LookSame.refl d)

theorem LookSame.append (h : LookSame hidden d d') (he : LookSame hidden e e') :
    LookSame hidden (d ++ e) (d' ++ e') := by
  induction h with
  | nil => exact he
  | cons hentry _ ih => exact .cons hentry ih

theorem LookSame.keys_eq (h : LookSame hidden d d') : Dict.keys d' = Dict.keys d := by
  induction h with
  | nil => rfl
  | cons hentry _ ih => rw [Dict.keys_cons, Dict.keys_cons, hentry.1, ih]

/-- Selecting by key. -/
theorem LookSame.filter (h : LookSame hidden d d') (p : κ → Bool) :
    LookSame hidden (d.filter (fun e => p e.1)) (d'.filter (fun e => p e.1)) := by
  induction h with
  | nil => exact .nil
  | @cons e e' d d' hentry _ ih =>
    by_cases hp : p e.1 = true
    · rw [List.filter_cons_of_pos (p := fun e : κ × α => p e.1) hp,
        List.filter_cons_of_pos (p := fun e : κ × α => p e.1) (hentry.1 ▸ hp)]
      exact .cons hentry ih
    · rw [List.filter_cons_of_neg (p := fun e : κ × α => p e.1) hp,
        List.filter_cons_of_neg (p := fun e : κ × α => p e.1) (hentry.1 ▸ hp)]
      exact ih

/-- With nothing hidden in them, they are equal. -/
theorem LookSame.eq (h : LookSame hidden d d') (hshown : ∀ k ∈ Dict.keys d, hidden k = false) :
    d' = d := by
  induction h with
  | nil => rfl
  | @cons e e' d d' hentry _ ih =>
    have hvalue : e'.2 = e.2 := hentry.2.resolve_left
      (fun hhidden => by rw [hshown e.1 (List.mem_cons_self ..)] at hhidden; cases hhidden)
    rw [ih (fun k hk => hshown k (List.mem_cons_of_mem _ hk)), Prod.ext hentry.1 hvalue]

variable [DecidableEq κ]

/-- Reading a key that is not hidden. -/
theorem LookSame.lookup_eq (h : LookSame hidden d d') {k : κ} (hk : hidden k = false) :
    d'.lookup k = d.lookup k := by
  induction h with
  | nil => rfl
  | @cons e e' d d' hentry _ ih =>
    obtain ⟨a, v⟩ := e
    obtain ⟨a', v'⟩ := e'
    obtain ⟨rfl, hvalue⟩ : a' = a ∧ (hidden a = true ∨ v' = v) := hentry
    by_cases hka : a' = k
    · subst hka
      rw [hk] at hvalue
      rw [List.lookup_cons_self, List.lookup_cons_self, hvalue.resolve_left (fun h => nomatch h)]
    · rw [Dict.lookup_cons_ne hka, Dict.lookup_cons_ne hka, ih]

/-- Writing to a hidden key that is there. -/
theorem lookSame_set {k : κ} (hk : hidden k = true) (v : α) :
    ∀ {d : List (κ × α)}, k ∈ Dict.keys d → LookSame hidden d (Dict.set k v d)
  | [], hmem => absurd hmem (List.not_mem_nil)
  | (a, b) :: d, hmem => by
    unfold Dict.set
    split
    next hak =>
      subst hak
      exact .cons ⟨rfl, .inl hk⟩ (LookSame.refl d)
    next hak =>
      refine .cons ⟨rfl, .inr rfl⟩ (lookSame_set hk v ?_)
      rcases List.mem_cons.mp hmem with h | h
      · exact absurd h.symm hak
      · exact h

end PolarBear.Redaction
