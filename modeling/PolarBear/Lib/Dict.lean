import Mathlib.Data.List.Basic
import Mathlib.Data.List.Nodup
import Mathlib.Data.List.Perm.Subperm

/-!
# Dictionaries as association lists

A dictionary with string-like keys is the list of its entries; reading is
core's `List.lookup`, writing is `set`, which overwrites the entry of a
present key in place and appends an absent one. The order of the entries
carries no meaning for the readers below, and no lemma here mentions it.

The two laws everything else is built from are `lookup_set_self` and
`lookup_set_ne`: a write is seen at its own key and nowhere else. `keys_set`
says that a write to a present key leaves the key list alone, which is how
"no case appears or disappears" is carried through a run.
-/

namespace PolarBear.Dict

variable {α β : Type}

/-- The keys, in entry order. -/
def keys (d : List (α × β)) : List α := d.map Prod.fst

@[simp] theorem keys_nil : keys ([] : List (α × β)) = [] := rfl

@[simp] theorem keys_cons (e : α × β) (d : List (α × β)) :
    keys (e :: d) = e.1 :: keys d := rfl

variable [DecidableEq α]

/-- `d[k] = v`: overwrite the entry of a present key, append an absent one. -/
def set (k : α) (v : β) : List (α × β) → List (α × β)
  | [] => [(k, v)]
  | (a, b) :: d => if a = k then (k, v) :: d else (a, b) :: set k v d

/-- `d.update(e)`. -/
def update (d e : List (α × β)) : List (α × β) := e.foldl (fun d kv => set kv.1 kv.2 d) d

theorem lookup_cons_ne {k a : α} (h : a ≠ k) (b : β) (d : List (α × β)) :
    List.lookup k ((a, b) :: d) = List.lookup k d := by
  have hk : (k == a) = false := beq_eq_false_iff_ne.mpr (fun e => h e.symm)
  rw [List.lookup_cons, hk]

@[simp] theorem lookup_set_self (k : α) (v : β) :
    ∀ d : List (α × β), List.lookup k (set k v d) = some v
  | [] => List.lookup_cons_self
  | (a, b) :: d => by
    unfold set
    split
    next => exact List.lookup_cons_self
    next hne => rw [lookup_cons_ne hne]; exact lookup_set_self k v d

theorem lookup_set_ne {k k' : α} (h : k' ≠ k) (v : β) :
    ∀ d : List (α × β), List.lookup k' (set k v d) = List.lookup k' d
  | [] => lookup_cons_ne (fun e => h e.symm) v []
  | (a, b) :: d => by
    unfold set
    split
    next hak =>
      subst hak
      rw [lookup_cons_ne (fun e => h e.symm), lookup_cons_ne (fun e => h e.symm)]
    next =>
      by_cases hka : a = k'
      · subst hka; rw [List.lookup_cons_self, List.lookup_cons_self]
      · rw [lookup_cons_ne hka, lookup_cons_ne hka]; exact lookup_set_ne h v d

/-- An absent key is appended. -/
theorem set_of_not_mem {k : α} (v : β) :
    ∀ {d : List (α × β)}, k ∉ keys d → set k v d = d ++ [(k, v)]
  | [], _ => rfl
  | (a, b) :: d, h => by
    rw [keys_cons, List.mem_cons, not_or] at h
    unfold set
    rw [if_neg (fun hak => h.1 hak.symm), set_of_not_mem v h.2]
    rfl

/-- A key is present exactly when reading it gives a value. -/
theorem mem_keys_iff (k : α) :
    ∀ d : List (α × β), k ∈ keys d ↔ ∃ v, List.lookup k d = some v
  | [] => by simp [List.lookup_nil]
  | (a, b) :: d => by
    by_cases h : a = k
    · subst h
      exact ⟨fun _ => ⟨b, List.lookup_cons_self⟩, fun _ => List.mem_cons_self ..⟩
    · rw [lookup_cons_ne h, keys_cons, List.mem_cons, mem_keys_iff k d]
      exact or_iff_right (fun e => h e.symm)

theorem lookup_eq_none_iff (k : α) (d : List (α × β)) : d.lookup k = none ↔ k ∉ keys d := by
  rw [mem_keys_iff]
  cases d.lookup k with
  | none => exact iff_of_true rfl (fun ⟨_, h⟩ => nomatch h)
  | some v => exact iff_of_false (fun h => nomatch h) (fun h => h ⟨v, rfl⟩)

/-- Reading returns the value of some entry. -/
theorem mem_of_lookup {k : α} {v : β} :
    ∀ {d : List (α × β)}, List.lookup k d = some v → (k, v) ∈ d
  | [], h => nomatch h
  | (a, b) :: d, h => by
    by_cases hak : a = k
    · subst hak
      rw [List.lookup_cons_self, Option.some.injEq] at h
      subst h
      exact List.mem_cons_self ..
    · rw [lookup_cons_ne hak] at h
      exact List.mem_cons_of_mem _ (mem_of_lookup h)

/-- With distinct keys every entry is the one its key reads. -/
theorem lookup_of_mem {k : α} {v : β} :
    ∀ {d : List (α × β)}, (keys d).Nodup → (k, v) ∈ d → List.lookup k d = some v
  | [], _, h => absurd h (List.not_mem_nil)
  | (a, b) :: d, hnd, h => by
    rw [keys_cons, List.nodup_cons] at hnd
    rcases List.mem_cons.mp h with heq | htail
    · cases heq
      exact List.lookup_cons_self
    · have hak : a ≠ k := by
        rintro rfl
        exact hnd.1 (List.mem_map.mpr ⟨(a, v), htail, rfl⟩)
      rw [lookup_cons_ne hak]
      exact lookup_of_mem hnd.2 htail

/-- With distinct keys, what is read are the entries. -/
theorem lookup_iff_mem {d : List (α × β)} (h : (keys d).Nodup) {k : α} {v : β} :
    List.lookup k d = some v ↔ (k, v) ∈ d := ⟨mem_of_lookup, lookup_of_mem h⟩

/-- Overwriting a present key keeps the key list. -/
theorem keys_set {k : α} (v : β) :
    ∀ {d : List (α × β)}, k ∈ keys d → keys (set k v d) = keys d
  | [], h => absurd h (List.not_mem_nil)
  | (a, b) :: d, h => by
    unfold set
    split
    next hak => subst hak; rfl
    next hne =>
      have htail : k ∈ keys d := by
        rcases List.mem_cons.mp h with e | ht
        · exact absurd e.symm hne
        · exact ht
      rw [keys_cons, keys_cons, keys_set v htail]

/-- Writing keeps the keys distinct. -/
theorem nodup_keys_set (k : α) (v : β) {d : List (α × β)} (h : (keys d).Nodup) :
    (keys (set k v d)).Nodup := by
  induction d with
  | nil => exact List.nodup_singleton k
  | cons e d ih =>
    obtain ⟨a, b⟩ := e
    rw [keys_cons, List.nodup_cons] at h
    unfold set
    split
    next hak => subst hak; exact List.nodup_cons.mpr h
    next hne =>
      refine List.nodup_cons.mpr ⟨fun ha => ?_, ih h.2⟩
      obtain ⟨w, hw⟩ := (mem_keys_iff a _).mp ha
      rw [lookup_set_ne hne] at hw
      exact h.1 ((mem_keys_iff a d).mpr ⟨w, hw⟩)

/-- What a write leaves in the dictionary: its own entry, or an old one. -/
theorem mem_set {k : α} {v : β} {e : α × β} :
    ∀ {d : List (α × β)}, e ∈ set k v d → e = (k, v) ∨ e ∈ d
  | [], h => Or.inl (List.mem_singleton.mp h)
  | (a, b) :: d, h => by
    unfold set at h
    split at h
    next =>
      rcases List.mem_cons.mp h with he | ht
      · exact Or.inl he
      · exact Or.inr (List.mem_cons_of_mem _ ht)
    next =>
      rcases List.mem_cons.mp h with he | ht
      · exact Or.inr (he ▸ List.mem_cons_self ..)
      · rcases mem_set ht with h1 | h2
        · exact Or.inl h1
        · exact Or.inr (List.mem_cons_of_mem _ h2)

/-- Updating keeps the keys distinct. -/
theorem nodup_keys_update : ∀ {d e : List (α × β)}, (keys d).Nodup → (keys (update d e)).Nodup
  | _, [], h => h
  | _, (k, v) :: e, h => nodup_keys_update (e := e) (nodup_keys_set k v h)

omit [DecidableEq α] in
/-- Where the keys are distinct, a key is not one of those before it. -/
theorem notMem_keys_of_nodup {d e : List (α × β)} {k : α} {v : β}
    (h : (keys (d ++ (k, v) :: e)).Nodup) : k ∉ keys d := by
  intro hmem
  unfold keys at h
  rw [List.map_append, List.nodup_append] at h
  exact h.2.2 k hmem k (List.mem_cons_self ..) rfl

/-- Entries with new keys are appended. -/
theorem update_eq_append : ∀ {d e : List (α × β)}, (keys (d ++ e)).Nodup → update d e = d ++ e
  | d, [], _ => (List.append_nil d).symm
  | d, (k, v) :: e, h => by
    show update (set k v d) e = d ++ (k, v) :: e
    have happ : d ++ (k, v) :: e = (d ++ [(k, v)]) ++ e := by
      rw [List.append_assoc, List.singleton_append]
    rw [set_of_not_mem v (notMem_keys_of_nodup h), update_eq_append (by rw [← happ]; exact h), happ]

/-- A key that is not updated reads as before. -/
theorem lookup_update_of_notMem {k : α} :
    ∀ {d e : List (α × β)}, k ∉ keys e → (update d e).lookup k = d.lookup k
  | _, [], _ => rfl
  | d, (a, b) :: e, h => by
    rw [keys_cons, List.mem_cons, not_or] at h
    show (update (set a b d) e).lookup k = _
    rw [lookup_update_of_notMem h.2, lookup_set_ne h.1]

/-- A key that is updated reads its new value. -/
theorem lookup_update_of_lookup {k : α} {v : β} :
    ∀ {d e : List (α × β)}, (keys e).Nodup → e.lookup k = some v →
      (update d e).lookup k = some v
  | _, [], _, h => by cases h
  | d, (a, b) :: e, hnodup, h => by
    rw [keys_cons, List.nodup_cons] at hnodup
    show (update (set a b d) e).lookup k = _
    by_cases hka : a = k
    · subst hka
      rw [List.lookup_cons_self] at h
      rw [lookup_update_of_notMem hnodup.1, lookup_set_self, h]
    · rw [lookup_cons_ne hka] at h
      exact lookup_update_of_lookup hnodup.2 h

/-- Taking entries out by a condition on their keys. -/
theorem lookup_filter_key {k : α} {p : α → Bool} (hk : p k = true) :
    ∀ d : List (α × β), (d.filter (fun e => p e.1)).lookup k = d.lookup k
  | [] => rfl
  | (a, b) :: d => by
    by_cases ha : p a = true
    · rw [List.filter_cons_of_pos (p := fun e : α × β => p e.1) ha]
      by_cases hak : a = k
      · subst hak
        rw [List.lookup_cons_self, List.lookup_cons_self]
      · rw [lookup_cons_ne hak, lookup_cons_ne hak, lookup_filter_key hk d]
    · have hak : a ≠ k := fun h => ha (h ▸ hk)
      rw [List.filter_cons_of_neg (p := fun e : α × β => p e.1) ha, lookup_cons_ne hak,
        lookup_filter_key hk d]

/-- A loop that writes at most one entry a round writes these entries. -/
theorem foldl_eq_update {γ : Type} {step : List (α × β) → γ → List (α × β)}
    {f : γ → Option (α × β)}
    (hstep : ∀ d x, step d x = (f x).elim d (fun e => set e.1 e.2 d)) :
    ∀ (l : List γ) (d : List (α × β)), l.foldl step d = update d (l.filterMap f)
  | [], _ => rfl
  | x :: l, d => by
    rw [List.foldl_cons, hstep, List.filterMap_cons, foldl_eq_update hstep l]
    cases f x <;> rfl

/-- What distinct entries give, written into an empty dictionary. -/
theorem update_nil {e : List (α × β)} (h : (keys e).Nodup) : update [] e = e :=
  update_eq_append (by rw [List.nil_append]; exact h)

omit [DecidableEq α] in
/-- Of entries made from the elements of a list, the keys stand in its order. -/
theorem keys_filterMap_sublist {γ : Type} {f : γ → Option (α × β)} {g : γ → α}
    (h : ∀ x e, f x = some e → e.1 = g x) :
    ∀ l : List γ, (keys (l.filterMap f)).Sublist (l.map g)
  | [] => List.Sublist.refl []
  | x :: l => by
    rw [List.map_cons, List.filterMap_cons]
    cases hf : f x with
    | none => exact (keys_filterMap_sublist h l).trans (List.sublist_cons_self _ _)
    | some e =>
      show (e.1 :: keys (l.filterMap f)).Sublist _
      rw [h x e hf]
      exact (keys_filterMap_sublist h l).cons_cons _

/-- What an update leaves in the dictionary: its own entries and old ones. -/
theorem mem_update {x : α × β} : ∀ {d e : List (α × β)}, x ∈ update d e → x ∈ d ∨ x ∈ e
  | _, [], h => Or.inl h
  | d, (k, v) :: e, h => by
    have hset : x ∈ set k v d ∨ x ∈ e := mem_update (d := set k v d) h
    rcases hset with hset | he
    · rcases mem_set hset with rfl | hd
      · exact Or.inr List.mem_cons_self
      · exact Or.inl hd
    · exact Or.inr (List.mem_cons_of_mem _ he)

/-- Every key of an update is in the dictionary. -/
theorem mem_keys_update {k : α} {d e : List (α × β)} (h : k ∈ keys e) : k ∈ keys (update d e) := by
  induction e generalizing d with
  | nil => cases h
  | cons kv e ih =>
    show k ∈ keys (update (set kv.1 kv.2 d) e)
    by_cases hin : k ∈ keys e
    · exact ih hin
    · have hk : k = kv.1 := (List.mem_cons.mp h).resolve_right hin
      rw [mem_keys_iff, lookup_update_of_notMem hin, hk]
      exact ⟨kv.2, lookup_set_self kv.1 kv.2 d⟩

/-- Entries keep their number in a dictionary exactly if their keys are distinct. -/
theorem length_update_nil_iff {e : List (α × β)} :
    (update [] e).length = e.length ↔ (keys e).Nodup := by
  constructor
  · intro h
    have hnodup : (keys (update [] e)).Nodup := nodup_keys_update List.nodup_nil
    have hsub : keys (update [] e) ⊆ keys e := by
      intro k hk
      obtain ⟨kv, hkv, rfl⟩ := List.mem_map.mp hk
      exact List.mem_map_of_mem ((mem_update hkv).resolve_left List.not_mem_nil)
    have hperm : (keys (update [] e)).Perm (keys e) := by
      refine (List.Nodup.subperm hnodup hsub).perm_of_length_le ?_
      rw [keys, keys, List.length_map, List.length_map]
      exact Nat.le_of_eq h.symm
    exact hperm.nodup_iff.mp hnodup
  · intro h
    rw [update_nil h]

/-- Entries that agree with a function are read as this function, in whatever order. -/
theorem lookup_update_nil {f : α → Option β} {e : List (α × β)}
    (hentries : ∀ kv ∈ e, f kv.1 = some kv.2) (hkeys : ∀ k v, f k = some v → k ∈ keys e) (k : α) :
    (update [] e).lookup k = f k := by
  cases hk : (update [] e).lookup k with
  | some v =>
    have hmem := (mem_update (mem_of_lookup hk)).resolve_left List.not_mem_nil
    exact (hentries (k, v) hmem).symm
  | none =>
    cases hf : f k with
    | none => rfl
    | some v =>
      obtain ⟨w, hw⟩ := (mem_keys_iff k _).mp (mem_keys_update (d := []) (hkeys k v hf))
      rw [hk] at hw
      cases hw

end PolarBear.Dict
