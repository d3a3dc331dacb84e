import PolarBear.Lib.Dict
import PolarBear.Py.Value

/-!
# `temporary_mutation`

Attributes of an object or entries of a dictionary are set for the time of a block.
Their old values are kept in a dictionary, with a marker where there was none, and
written back, or deleted, when the block is left. One loop does this for all of them,
and the first attribute that cannot be restored ends it: one that was absent before
and that the block deleted already.

`restored_iff` says when all attributes are restored: in the order of the old values,
from the first one that cannot be restored on, all have to be as before already.
-/

namespace PolarBear.Utils

open PolarBear.Py PolarBear.Dict

variable {V : Type}

/-! ## Objects and dictionaries -/

/-- A dictionary, or an object of a class, with the attributes it has from there. -/
inductive Kind (V : Type) where
  | dictionary
  | object (cls : String) (inherited : List (String × V))

/-- What reading `attr` finds; `attrs` are the entries of the dictionary or the
attributes of the object itself. -/
def Kind.lookup (kind : Kind V) (attrs : List (String × V)) (attr : String) : Option V :=
  match kind with
  | .dictionary => attrs.lookup attr
  | .object _ inherited =>
    match attrs.lookup attr with
    | some value => some value
    | none => inherited.lookup attr

/-- `is_dict_like`: `hasattr(thing, 'has_key')`. -/
def isDictLike (kind : Kind V) (attrs : List (String × V)) : Bool :=
  match kind with
  | .dictionary => true
  | .object _ _ => (kind.lookup attrs "has_key").isSome

/-- `get`; the marker `NOT_PRESENT` is `none`. An object with an attribute `has_key` is
taken for a dictionary and has no method `get`. -/
def getValue (kind : Kind V) (attrs : List (String × V)) (attr : String) :
    Except PyError (Option V) :=
  match kind with
  | .dictionary => .ok (attrs.lookup attr)
  | .object cls _ =>
    if isDictLike kind attrs then
      match kind.lookup attrs "get" with
      | some _ => .error (.of .typeError "object is not callable")
      | none => .error (.of .attributeError ("'" ++ cls ++ "' object has no attribute 'get'"))
    else .ok (kind.lookup attrs attr)

/-- `set_value`. -/
def setValue (kind : Kind V) (attrs : List (String × V)) (attr : String) (value : V) :
    Except PyError (List (String × V)) :=
  match kind with
  | .dictionary => .ok (set attr value attrs)
  | .object cls _ =>
    if isDictLike kind attrs then
      .error (.of .typeError ("'" ++ cls ++ "' object does not support item assignment"))
    else .ok (set attr value attrs)

/-- `d` without the entry of a key. -/
def without (attr : String) (attrs : List (String × V)) : List (String × V) :=
  attrs.filter (fun entry => entry.1 != attr)

/-- `delete`. -/
def delete (kind : Kind V) (attrs : List (String × V)) (attr : String) :
    Except PyError (List (String × V)) :=
  match kind with
  | .dictionary =>
    match attrs.lookup attr with
    | some _ => .ok (without attr attrs)
    | none => .error (.key attr)
  | .object cls _ =>
    if isDictLike kind attrs then
      .error (.of .typeError ("'" ++ cls ++ "' object doesn't support item deletion"))
    else
      match attrs.lookup attr with
      | some _ => .ok (without attr attrs)
      | none => .error (.of .attributeError attr)

/-! ## The context manager -/

/-- The loop before the block, over `kwargs.items()`, and `old_values`. -/
def enter (kind : Kind V) : List (String × V) → List (String × V) → List (String × Option V) →
    List (String × V) × Except PyError (List (String × Option V))
  | attrs, [], oldValues => (attrs, .ok oldValues)
  | attrs, (attr, newValue) :: kwargs, oldValues =>
    match getValue kind attrs attr with
    | .error e => (attrs, .error e)
    | .ok value =>
      match setValue kind attrs attr newValue with
      | .error e => (attrs, .error e)
      | .ok attrs => enter kind attrs kwargs (set attr value oldValues)

def restoreOne (kind : Kind V) (attrs : List (String × V)) (attr : String) (oldValue : Option V) :
    Except PyError (List (String × V)) :=
  match oldValue with
  | none => delete kind attrs attr
  | some value => setValue kind attrs attr value

/-- The loop after the block, over `old_values.items()`. -/
def restore (kind : Kind V) : List (String × V) → List (String × Option V) →
    List (String × V) × Option PyError
  | attrs, [] => (attrs, none)
  | attrs, (attr, oldValue) :: items =>
    match restoreOne kind attrs attr oldValue with
    | .error e => (attrs, some e)
    | .ok attrs => restore kind attrs items

/-- `with temporary_mutation(obj, **kwargs): body`. The body is given what it finds and
says what it leaves and what it raises; `order` is the order in which a dictionary is
walked. An exception of the restoring takes the place of the body's. -/
def temporaryMutation (order : List (String × Option V) → List (String × Option V))
    (kind : Kind V) (attrs kwargs : List (String × V))
    (body : List (String × V) → List (String × V) × Option PyError) :
    List (String × V) × Option PyError :=
  match enter kind attrs kwargs [] with
  | (attrs, .error e) => (attrs, some e)
  | (attrs, .ok oldValues) =>
    match body attrs with
    | (attrs, raised) =>
      match restore kind attrs (order oldValues) with
      | (attrs, some e) => (attrs, some e)
      | (attrs, none) => (attrs, raised)

/-! ## One attribute -/

/-- An object has got an attribute `has_key`. -/
def Mistaken (kind : Kind V) (attrs : List (String × V)) : Prop :=
  kind ≠ .dictionary ∧ isDictLike kind attrs

/-- Restoring the attribute fails: it was absent and is absent again, or the object is
taken for a dictionary. -/
def Blocked (kind : Kind V) (attrs : List (String × V)) (item : String × Option V) : Prop :=
  (item.2 = none ∧ attrs.lookup item.1 = none) ∨ Mistaken kind attrs

/-- The attribute is as before. -/
def AsBefore (kind : Kind V) (attrs : List (String × V)) (item : String × Option V) : Prop :=
  kind.lookup attrs item.1 = item.2

theorem lookup_without_self (attr : String) (attrs : List (String × V)) :
    (without attr attrs).lookup attr = none := by
  rw [List.lookup_eq_none_iff]
  intro entry hentry
  have hne := (List.mem_filter.mp hentry).2
  simp only [bne_iff_ne] at hne ⊢
  exact hne.symm

theorem lookup_without_ne {attr b : String} (h : b ≠ attr) (attrs : List (String × V)) :
    (without attr attrs).lookup b = attrs.lookup b :=
  lookup_filter_key (p := fun k => k != attr) (bne_iff_ne.mpr h) attrs

theorem setValue_cases (kind : Kind V) (attrs : List (String × V)) (attr : String) (value : V) :
    (Mistaken kind attrs ∧ ∃ e, setValue kind attrs attr value = .error e) ∨
      (¬ Mistaken kind attrs ∧ setValue kind attrs attr value = .ok (set attr value attrs)) := by
  cases kind with
  | dictionary => exact Or.inr ⟨fun h => h.1 rfl, rfl⟩
  | object cls inherited =>
    by_cases hlike : isDictLike (.object cls inherited) attrs
    · exact Or.inl ⟨⟨nofun, hlike⟩, _, if_pos hlike⟩
    · exact Or.inr ⟨fun h => hlike h.2, if_neg hlike⟩

theorem delete_cases (kind : Kind V) (attrs : List (String × V)) (attr : String) :
    ((attrs.lookup attr = none ∨ Mistaken kind attrs) ∧ ∃ e, delete kind attrs attr = .error e) ∨
      (attrs.lookup attr ≠ none ∧ ¬ Mistaken kind attrs ∧
        delete kind attrs attr = .ok (without attr attrs)) := by
  cases kind with
  | dictionary =>
    cases hlookup : attrs.lookup attr with
    | none => exact Or.inl ⟨Or.inl rfl, _, by simp only [delete, hlookup]; rfl⟩
    | some value =>
      exact Or.inr ⟨Option.some_ne_none _, fun h => h.1 rfl, by simp only [delete, hlookup]⟩
  | object cls inherited =>
    by_cases hlike : isDictLike (.object cls inherited) attrs
    · exact Or.inl ⟨Or.inr ⟨nofun, hlike⟩, _, if_pos hlike⟩
    · cases hlookup : attrs.lookup attr with
      | none => exact Or.inl ⟨Or.inl rfl, _, by simp only [delete, hlookup, if_neg hlike]; rfl⟩
      | some value =>
        exact Or.inr ⟨Option.some_ne_none _, fun h => hlike h.2,
          by simp only [delete, hlookup, if_neg hlike]⟩

/-- Restoring an attribute fails or gives it its old value, and touches no other one. -/
theorem restoreOne_cases (kind : Kind V) (attrs : List (String × V)) (attr : String)
    (oldValue : Option V) :
    (Blocked kind attrs (attr, oldValue) ∧ ∃ e, restoreOne kind attrs attr oldValue = .error e) ∨
      ∃ attrs', restoreOne kind attrs attr oldValue = .ok attrs' ∧
        ¬ Blocked kind attrs (attr, oldValue) ∧ attrs'.lookup attr = oldValue ∧
        ∀ b, b ≠ attr → attrs'.lookup b = attrs.lookup b := by
  cases oldValue with
  | none =>
    rcases delete_cases kind attrs attr with ⟨hwhy, herror⟩ | ⟨hsome, hnot, hok⟩
    · exact Or.inl ⟨hwhy.imp (fun h => ⟨rfl, h⟩) id, herror⟩
    · refine Or.inr ⟨_, hok, ?_, lookup_without_self attr attrs, fun b hb =>
        lookup_without_ne hb attrs⟩
      exact fun h => h.elim (fun h => hsome h.2) hnot
  | some value =>
    rcases setValue_cases kind attrs attr value with ⟨hwhy, herror⟩ | ⟨hnot, hok⟩
    · exact Or.inl ⟨Or.inr hwhy, herror⟩
    · refine Or.inr ⟨_, hok, ?_, lookup_set_self attr value attrs, fun b hb =>
        lookup_set_ne hb value attrs⟩
      exact fun h => h.elim (fun h => Option.some_ne_none _ h.1) hnot

/-! ## All attributes -/

def Kind.inherited : Kind V → List (String × V)
  | .dictionary => []
  | .object _ inherited => inherited

/-- An old value as the loop before the block reads it. -/
structure Fits (kind : Kind V) (item : String × Option V) : Prop where
  absent : item.2 = none → kind.inherited.lookup item.1 = none
  plain : kind ≠ .dictionary → item.1 = "has_key" → item.2 = none

theorem Kind.lookup_congr (kind : Kind V) {attrs attrs' : List (String × V)} {attr : String}
    (h : attrs'.lookup attr = attrs.lookup attr) :
    kind.lookup attrs' attr = kind.lookup attrs attr := by
  unfold Kind.lookup
  rw [h]

theorem asBefore_of_own {kind : Kind V} {attrs : List (String × V)} {item : String × Option V}
    (hfits : Fits kind item) (h : attrs.lookup item.1 = item.2) : AsBefore kind attrs item := by
  unfold AsBefore Kind.lookup
  rw [h]
  cases kind with
  | dictionary => rfl
  | object cls inherited =>
    cases hold : item.2 with
    | some value => rfl
    | none => exact hfits.absent hold

/-- Restoring does not turn an object into a dictionary. -/
theorem not_mistaken_of_restored {kind : Kind V} {attrs attrs' : List (String × V)}
    {item : String × Option V} (hfits : Fits kind item) (hnot : ¬ Blocked kind attrs item)
    (hown : attrs'.lookup item.1 = item.2)
    (hothers : ∀ b, b ≠ item.1 → attrs'.lookup b = attrs.lookup b) : ¬ Mistaken kind attrs' := by
  intro ⟨hkind, hlike⟩
  have hbefore : ¬ isDictLike kind attrs := fun h => hnot (Or.inr ⟨hkind, h⟩)
  cases kind with
  | dictionary => exact hkind rfl
  | object cls inherited =>
    simp only [isDictLike] at hlike hbefore
    by_cases hkey : "has_key" = item.1
    · have hnone := hfits.plain hkind hkey.symm
      have hsame : (Kind.object cls inherited).lookup attrs' item.1 = item.2 :=
        asBefore_of_own hfits hown
      rw [hkey, hsame, hnone] at hlike
      exact Bool.false_ne_true hlike
    · rw [(Kind.object cls inherited).lookup_congr (hothers _ hkey)] at hlike
      exact hbefore hlike

theorem blocked_congr {kind : Kind V} {attrs attrs' : List (String × V)}
    {item : String × Option V} (h : attrs'.lookup item.1 = attrs.lookup item.1)
    (hmistaken : ¬ Mistaken kind attrs) (hmistaken' : ¬ Mistaken kind attrs') :
    Blocked kind attrs' item ↔ Blocked kind attrs item := by
  unfold Blocked
  rw [h, or_iff_left hmistaken, or_iff_left hmistaken']

/-- The loop touches no attribute but the ones it restores. -/
theorem restore_frame (kind : Kind V) {attr : String} :
    ∀ (items : List (String × Option V)) (attrs : List (String × V)), attr ∉ keys items →
      (restore kind attrs items).1.lookup attr = attrs.lookup attr
  | [], _, _ => rfl
  | (a, oldValue) :: items, attrs, h => by
    rw [keys_cons, List.mem_cons, not_or] at h
    unfold restore
    rcases restoreOne_cases kind attrs a oldValue with ⟨-, e, herror⟩ | ⟨attrs', hok, -, -, hothers⟩
    · rw [herror]
    · rw [hok]
      show (restore kind attrs' items).1.lookup attr = attrs.lookup attr
      rw [restore_frame kind items attrs' h.2, hothers attr h.1]

/-- From the first element with `P` on, all have `Q`. -/
def FromFirst {α : Type} (P Q : α → Prop) (l : List α) : Prop :=
  ∀ front x back, l = front ++ x :: back → P x → ∀ y ∈ x :: back, Q y

section

variable {α : Type} {P P' Q Q' : α → Prop} {a : α} {l : List α}

theorem fromFirst_nil : FromFirst P Q [] := by
  intro front x back hsplit
  exact absurd hsplit.symm (List.append_ne_nil_of_right_ne_nil front (List.cons_ne_nil x back))

theorem fromFirst_cons_of_pos (h : P a) : FromFirst P Q (a :: l) ↔ ∀ y ∈ a :: l, Q y := by
  constructor
  · intro hfirst
    exact hfirst [] a l rfl h
  · intro hall front x back hsplit _ y hy
    apply hall
    rw [hsplit]
    exact List.mem_append_right _ hy

theorem fromFirst_cons_of_neg (h : ¬ P a) : FromFirst P Q (a :: l) ↔ FromFirst P Q l := by
  constructor
  · intro hfirst front x back hsplit
    exact hfirst (a :: front) x back (congrArg (List.cons a) hsplit)
  · intro hfirst front x back hsplit hx
    cases front with
    | nil =>
      cases hsplit
      exact absurd hx h
    | cons b front =>
      cases hsplit
      exact hfirst front x back rfl hx

theorem fromFirst_congr (h : ∀ x ∈ l, (P x ↔ P' x) ∧ (Q x ↔ Q' x)) :
    FromFirst P Q l ↔ FromFirst P' Q' l := by
  have hmem : ∀ {front : List α} {x y : α} {back : List α}, l = front ++ x :: back →
      y ∈ x :: back → y ∈ l := by
    intro front x y back hsplit hy
    rw [hsplit]
    exact List.mem_append_right _ hy
  constructor
  · intro hfirst front x back hsplit hx y hy
    have hP := (h x (hmem hsplit List.mem_cons_self)).1
    exact (h y (hmem hsplit hy)).2.mp (hfirst front x back hsplit (hP.mpr hx) y hy)
  · intro hfirst front x back hsplit hx y hy
    have hP := (h x (hmem hsplit List.mem_cons_self)).1
    exact (h y (hmem hsplit hy)).2.mpr (hfirst front x back hsplit (hP.mp hx) y hy)

end

/-- **When the loop restores everything**: from the first attribute on that cannot be
restored, all have to be as before already. -/
theorem restore_iff (kind : Kind V) :
    ∀ (items : List (String × Option V)) (attrs : List (String × V)), (keys items).Nodup →
      (∀ x ∈ items, Fits kind x) →
      ((∀ x ∈ items, AsBefore kind (restore kind attrs items).1 x) ↔
        FromFirst (Blocked kind attrs) (AsBefore kind attrs) items)
  | [], _, _, _ => iff_of_true (fun x hx => absurd hx List.not_mem_nil) fromFirst_nil
  | (a, oldValue) :: items, attrs, hkeys, hfits => by
    rw [keys_cons, List.nodup_cons] at hkeys
    have hfirst := hfits (a, oldValue) List.mem_cons_self
    have hrest : ∀ x ∈ items, Fits kind x := fun x hx => hfits x (List.mem_cons_of_mem _ hx)
    unfold restore
    rcases restoreOne_cases kind attrs a oldValue with
      ⟨hblocked, e, herror⟩ | ⟨attrs', hok, hnot, hown, hothers⟩
    · rw [herror, fromFirst_cons_of_pos hblocked]
    · rw [hok]
      have hmistaken : ¬ Mistaken kind attrs := fun h => hnot (Or.inr h)
      have hmistaken' := not_mistaken_of_restored hfirst hnot hown hothers
      have hsame : ∀ x ∈ items, attrs'.lookup x.1 = attrs.lookup x.1 := by
        intro x hx
        apply hothers
        intro heq
        exact hkeys.1 (List.mem_map.mpr ⟨x, hx, heq⟩)
      have hdone : AsBefore kind (restore kind attrs' items).1 (a, oldValue) := by
        apply asBefore_of_own hfirst
        rw [restore_frame kind items attrs' hkeys.1]
        exact hown
      have hagree : ∀ x ∈ items, (Blocked kind attrs' x ↔ Blocked kind attrs x) ∧
          (AsBefore kind attrs' x ↔ AsBefore kind attrs x) := by
        intro x hx
        refine ⟨blocked_congr (hsame x hx) hmistaken hmistaken', ?_⟩
        unfold AsBefore
        rw [kind.lookup_congr (hsame x hx)]
      show (∀ x ∈ (a, oldValue) :: items, AsBefore kind (restore kind attrs' items).1 x) ↔ _
      rw [List.forall_mem_cons, and_iff_right hdone, fromFirst_cons_of_neg hnot,
        restore_iff kind items attrs' hkeys.2 hrest, fromFirst_congr hagree]

/-! ## Before the block -/

theorem getValue_ok {kind : Kind V} {attrs : List (String × V)} {attr : String} {value : Option V}
    (h : getValue kind attrs attr = .ok value) :
    value = kind.lookup attrs attr ∧ ¬ Mistaken kind attrs := by
  cases kind with
  | dictionary => exact ⟨(Except.ok.inj h).symm, fun h => h.1 rfl⟩
  | object cls inherited =>
    by_cases hlike : isDictLike (.object cls inherited) attrs
    · simp only [getValue, if_pos hlike] at h
      split at h
      · cases h
      · cases h
    · simp only [getValue, if_neg hlike] at h
      exact ⟨(Except.ok.inj h).symm, fun h => hlike h.2⟩

/-- The old values are what the attributes were before the block. -/
theorem enter_ok (kind : Kind V) :
    ∀ (kwargs attrs entered : List (String × V)) (before old : List (String × Option V)),
      (keys kwargs).Nodup → (∀ attr ∈ keys kwargs, attr ∉ keys before) →
      enter kind attrs kwargs before = (entered, .ok old) →
      old = before ++ kwargs.map (fun entry => (entry.1, kind.lookup attrs entry.1)) ∧
        (kwargs ≠ [] → ¬ Mistaken kind attrs)
  | [], attrs, entered, before, old, _, _, h => by
    cases h
    exact ⟨(List.append_nil before).symm, fun h => absurd rfl h⟩
  | (attr, newValue) :: kwargs, attrs, entered, before, old, hkeys, hnew, h => by
    rw [keys_cons, List.nodup_cons] at hkeys
    unfold enter at h
    cases hget : getValue kind attrs attr with
    | error e =>
      rw [hget] at h
      cases h
    | ok value =>
      obtain ⟨hvalue, hmistaken⟩ := getValue_ok hget
      rcases setValue_cases kind attrs attr newValue with ⟨hwhy, -⟩ | ⟨-, hset⟩
      · exact absurd hwhy hmistaken
      · rw [hget, hset] at h
        have happend := set_of_not_mem value (hnew attr List.mem_cons_self)
        simp only [happend] at h
        have hfresh : ∀ b ∈ keys kwargs, b ∉ keys (before ++ [(attr, value)]) := by
          intro b hb hmem
          rw [keys, List.map_append, List.mem_append] at hmem
          rcases hmem with hbefore | hattr
          · exact hnew b (List.mem_cons_of_mem _ hb) hbefore
          · have heq : b = attr := List.mem_singleton.mp hattr
            exact hkeys.1 (heq ▸ hb)
        obtain ⟨hold, -⟩ := enter_ok kind kwargs _ entered _ old hkeys.2 hfresh h
        refine ⟨?_, fun _ => hmistaken⟩
        rw [hold, List.append_assoc, List.singleton_append, List.map_cons, hvalue]
        congr 2
        apply List.map_congr_left
        intro entry hentry
        have hne : entry.1 ≠ attr := fun heq => hkeys.1 (List.mem_map.mpr ⟨entry, hentry, heq⟩)
        rw [kind.lookup_congr (lookup_set_ne hne newValue attrs)]

theorem fits_of_lookup {kind : Kind V} {attrs : List (String × V)} (h : ¬ Mistaken kind attrs)
    (attr : String) : Fits kind (attr, kind.lookup attrs attr) where
  absent hnone := by
    cases kind with
    | dictionary => rfl
    | object cls inherited =>
      simp only [Kind.lookup] at hnone
      split at hnone
      · cases hnone
      · exact hnone
  plain hkind hkey := by
    cases kind with
    | dictionary => exact absurd rfl hkind
    | object cls inherited =>
      have hlike : ¬ isDictLike (.object cls inherited) attrs := fun hlike => h ⟨hkind, hlike⟩
      simp only [isDictLike, Bool.not_eq_true, Option.isSome_eq_false_iff,
        Option.isNone_iff_eq_none] at hlike
      rw [← hkey] at hlike
      exact hlike

/-! ## Leaving the block -/

/-- Each attribute reads as before the block. -/
def Restored (kind : Kind V) (attrs kwargs final : List (String × V)) : Prop :=
  ∀ attr ∈ keys kwargs, kind.lookup final attr = kind.lookup attrs attr

/-- **When temporary mutation restores**: with a block that was entered, exactly if, in
the order of the old values, everything from the first attribute on that cannot be
restored is as before already when the body is done. -/
theorem restored_iff (order : List (String × Option V) → List (String × Option V))
    (horder : ∀ items, (order items).Perm items) (kind : Kind V)
    (attrs kwargs : List (String × V)) (hkeys : (keys kwargs).Nodup)
    (body : List (String × V) → List (String × V) × Option PyError)
    {entered : List (String × V)} {oldValues : List (String × Option V)}
    (henter : enter kind attrs kwargs [] = (entered, .ok oldValues)) :
    Restored kind attrs kwargs (temporaryMutation order kind attrs kwargs body).1 ↔
      ∀ front x back, order oldValues = front ++ x :: back →
        Blocked kind (body entered).1 x → ∀ y ∈ x :: back, AsBefore kind (body entered).1 y := by
  obtain ⟨hold, hmistaken⟩ := enter_ok kind kwargs attrs entered [] oldValues hkeys
    (fun _ _ => List.not_mem_nil) henter
  rw [List.nil_append] at hold
  have hmem : ∀ x, x ∈ order oldValues ↔
      ∃ entry ∈ kwargs, (entry.1, kind.lookup attrs entry.1) = x := by
    intro x
    rw [(horder oldValues).mem_iff, hold, List.mem_map]
  have hnodup : (keys (order oldValues)).Nodup := by
    have hperm := (horder oldValues).map Prod.fst
    rw [keys, hperm.nodup_iff, hold, List.map_map]
    exact hkeys
  have hfits : ∀ x ∈ order oldValues, Fits kind x := by
    intro x hx
    obtain ⟨entry, hentry, rfl⟩ := (hmem x).mp hx
    exact fits_of_lookup (hmistaken (List.ne_nil_of_mem hentry)) entry.1
  have hfinal : (temporaryMutation order kind attrs kwargs body).1 =
      (restore kind (body entered).1 (order oldValues)).1 := by
    unfold temporaryMutation
    rw [henter]
    show (match restore kind (body entered).1 (order oldValues) with
      | (attrs, some e) => (attrs, some e)
      | (attrs, none) => (attrs, (body entered).2)).1 = _
    split
    · next heq => rw [heq]
    · next heq => rw [heq]
  show _ ↔ FromFirst _ _ _
  rw [hfinal, ← restore_iff kind _ _ hnodup hfits]
  constructor
  · intro hrestored x hx
    obtain ⟨entry, hentry, rfl⟩ := (hmem x).mp hx
    exact hrestored entry.1 (List.mem_map_of_mem hentry)
  · intro hall attr hattr
    obtain ⟨entry, hentry, rfl⟩ := List.mem_map.mp hattr
    exact hall _ ((hmem _).mpr ⟨entry, hentry, rfl⟩)

/-- An object with `b = 1` and without `a`. -/
def plainObject : Kind Nat := .object "Context" []

/-- A body that deletes `b` and raises. -/
def deletesB (attrs : List (String × Nat)) : List (String × Nat) × Option PyError :=
  (without "b" attrs, some (.of .external "stop"))

/-- A body that deletes `a`. -/
def deletesA (attrs : List (String × Nat)) : List (String × Nat) × Option PyError :=
  (without "a" attrs, none)

theorem restored_deletesB :
    Restored plainObject [("b", 1)] [("a", 5), ("b", 2)]
      (temporaryMutation id plainObject [("b", 1)] [("a", 5), ("b", 2)] deletesB).1 := by
  have henter : enter plainObject [("b", 1)] [("a", 5), ("b", 2)] [] =
      ([("b", 2), ("a", 5)], .ok [("a", none), ("b", some 1)]) := rfl
  refine (restored_iff id (fun _ => List.Perm.refl _) plainObject _ _ (by decide) deletesB
    henter).mpr ?_
  intro front x back hsplit hblocked
  have hx : x ∈ [("a", none), ("b", some 1)] := by
    rw [← id_eq [("a", none), ("b", some 1)], hsplit]
    exact List.mem_append_right _ List.mem_cons_self
  rcases hblocked with ⟨hnone, hlost⟩ | ⟨-, hlike⟩
  · rcases List.mem_pair.mp hx with rfl | rfl
    · cases hlost
    · cases hnone
  · cases hlike

/-- `b` keeps the value it was given for the block. -/
theorem not_restored_deletesA :
    ¬ Restored plainObject [("b", 1)] [("a", 5), ("b", 2)]
      (temporaryMutation id plainObject [("b", 1)] [("a", 5), ("b", 2)] deletesA).1 :=
  fun h => absurd (h "b" (by decide)) (by decide)

end PolarBear.Utils
