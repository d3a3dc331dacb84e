import PolarBear.Py.Value

/-!
# JSON values as trees

`Json` nests through lists, and the recursor Lean generates for it speaks of
lists of values and lists of entries. `Json.induct` is the induction a reader
expects: a list is proved from its items, a dictionary from the values of its
entries.
-/

namespace PolarBear.Py

/-- **Induction over JSON values.** -/
@[elab_as_elim]
theorem Json.induct {motive : Json → Prop} (null : motive .null) (bool : ∀ b, motive (.bool b))
    (int : ∀ n, motive (.int n)) (float : ∀ r, motive (.float r)) (str : ∀ s, motive (.str s))
    (arr : ∀ xs, (∀ x ∈ xs, motive x) → motive (.arr xs))
    (obj : ∀ fields : List (String × Json), (∀ kv ∈ fields, motive kv.2) → motive (.obj fields))
    (j : Json) : motive j := by
  refine Json.rec
    (motive_1 := motive)
    (motive_2 := fun xs => ∀ x ∈ xs, motive x)
    (motive_3 := fun fields => ∀ kv ∈ fields, motive kv.2)
    (motive_4 := fun kv => motive kv.2)
    null bool int float str arr obj ?_ ?_ ?_ ?_ ?_ j
  · exact fun x hx => absurd hx List.not_mem_nil
  · intro x xs hx hxs y hy
    rcases List.mem_cons.mp hy with rfl | hy
    · exact hx
    · exact hxs y hy
  · exact fun kv hkv => absurd hkv List.not_mem_nil
  · intro kv fields hkv hfields e he
    rcases List.mem_cons.mp he with rfl | he
    · exact hkv
    · exact hfields e he
  · exact fun _ _ h => h

/-! ## Keys -/

mutual

/-- Some dictionary of the value, at any depth, has the key. -/
def Json.hasKey (k : String) : Json → Bool
  | .arr xs => anyHasKey k xs
  | .obj fields => fieldsHaveKey k fields
  | _ => false

def anyHasKey (k : String) : List Json → Bool
  | [] => false
  | x :: xs => x.hasKey k || anyHasKey k xs

def fieldsHaveKey (k : String) : List (String × Json) → Bool
  | [] => false
  | (a, x) :: fields => a == k || x.hasKey k || fieldsHaveKey k fields

end

theorem hasKey_arr (k : String) (xs : List Json) :
    (Json.arr xs).hasKey k = false ↔ ∀ x ∈ xs, x.hasKey k = false := by
  show anyHasKey k xs = false ↔ _
  induction xs with
  | nil => simp [anyHasKey]
  | cons x xs ih => simp [anyHasKey, ih]

theorem hasKey_obj (k : String) (fields : List (String × Json)) :
    (Json.obj fields).hasKey k = false ↔
      k ∉ Dict.keys fields ∧ ∀ kv ∈ fields, kv.2.hasKey k = false := by
  show fieldsHaveKey k fields = false ↔ _
  induction fields with
  | nil => simp [fieldsHaveKey]
  | cons e fields ih =>
    obtain ⟨a, x⟩ := e
    rw [fieldsHaveKey, Dict.keys_cons, List.mem_cons, List.forall_mem_cons, Bool.or_eq_false_iff,
      Bool.or_eq_false_iff, ih, beq_eq_false_iff_ne, not_or, ne_comm]
    exact and_and_and_comm

/-! ## Plain values -/

mutual

/-- No float in it, and every dictionary with distinct keys. -/
def Json.plain : Json → Bool
  | .float _ => false
  | .arr xs => itemsPlain xs
  | .obj fields => decide (Dict.keys fields).Nodup && fieldsPlain fields
  | _ => true

def itemsPlain : List Json → Bool
  | [] => true
  | x :: xs => x.plain && itemsPlain xs

def fieldsPlain : List (String × Json) → Bool
  | [] => true
  | (_, x) :: fields => x.plain && fieldsPlain fields

end

theorem plain_arr (xs : List Json) :
    (Json.arr xs).plain = true ↔ ∀ x ∈ xs, x.plain = true := by
  show itemsPlain xs = true ↔ _
  induction xs with
  | nil => simp [itemsPlain]
  | cons x xs ih => rw [itemsPlain, Bool.and_eq_true, ih, List.forall_mem_cons]

theorem plain_obj (fields : List (String × Json)) :
    (Json.obj fields).plain = true ↔
      (Dict.keys fields).Nodup ∧ ∀ kv ∈ fields, kv.2.plain = true := by
  have hfields : fieldsPlain fields = true ↔ ∀ kv ∈ fields, kv.2.plain = true := by
    induction fields with
    | nil => simp [fieldsPlain]
    | cons e fields ih =>
      obtain ⟨k, x⟩ := e
      rw [fieldsPlain, Bool.and_eq_true, ih, List.forall_mem_cons]
  show (decide (Dict.keys fields).Nodup && fieldsPlain fields) = true ↔ _
  rw [Bool.and_eq_true, hfields, decide_eq_true_eq]

end PolarBear.Py
