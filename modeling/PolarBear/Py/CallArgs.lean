import PolarBear.Lib.Dict

/-!
# Binding the arguments of a call

A function has named parameters, of which the last ones may have defaults, and may collect
further positional arguments in a tuple and further keywords in a dictionary. The
arguments that a call passes by position stand first, then those by keyword, then the
defaults: a parameter gets the first value there is for its name. `getcallargs` gives
each parameter with its value, or fails where the call itself would. It takes the function
as its own argument `func`, so a call with a keyword of that name cannot be bound by it.
-/

namespace PolarBear.Py

variable {α : Type}

/-- What `inspect.getargspec` tells of a function. -/
structure Signature (α : Type) where
  args : List String
  defaults : List α
  varargs : Option String
  varkw : Option String
  nodup : (args ++ varargs.toList ++ varkw.toList).Nodup
  defaults_le : defaults.length ≤ args.length

/-- The value of a parameter: one argument, the tuple of the further ones, or the dictionary of
the further keywords. -/
inductive Bound (α : Type) where
  | value (v : α)
  | tuple (extra : List α)
  | dict (collected : List (String × α))
  deriving DecidableEq, Repr

namespace Signature

variable (s : Signature α) (positional : List α) (named : List (String × α))

/-- The last parameters and their defaults. -/
def defaulted : List (String × α) :=
  (s.args.drop (s.args.length - s.defaults.length)).zip s.defaults

/-- What there is for the parameters, in the order in which it counts. -/
def given : List (String × α) := s.args.zip positional ++ named ++ s.defaulted

/-- The positional arguments that are left over. -/
def extra : List α := positional.drop s.args.length

/-- The keywords that are left over. -/
def collected : List (String × α) := named.filter (fun e => e.1 ∉ s.args)

/-- The call can be made: no parameter is given twice, what is left over is collected, and every
parameter has a value. -/
def Accepts : Prop :=
  (∀ k ∈ Dict.keys (s.args.zip positional), k ∉ Dict.keys named) ∧
  (s.extra positional = [] ∨ s.varargs.isSome) ∧
  (s.collected named = [] ∨ s.varkw.isSome) ∧
  ∀ k ∈ s.args, k ∈ Dict.keys (s.given positional named)

instance : Decidable (s.Accepts positional named) :=
  inferInstanceAs (Decidable (_ ∧ _ ∧ _ ∧ _))

/-- Every parameter with its value. -/
def bind : List (String × Bound α) :=
  s.args.filterMap (fun k => ((s.given positional named).lookup k).map (fun v => (k, .value v))) ++
  s.varargs.toList.map (fun k => (k, .tuple (s.extra positional))) ++
  s.varkw.toList.map (fun k => (k, .dict (s.collected named)))

/-- `inspect.getcallargs(func, *positional, **named)`; a `TypeError` is `none`. -/
def getcallargs : Option (List (String × Bound α)) :=
  if "func" ∈ Dict.keys named then none
  else if s.Accepts positional named then some (s.bind positional named) else none

/-! ## What is bound -/

variable {s positional named} {k : String} {v : α}

theorem mem_bind_value : (k, Bound.value v) ∈ s.bind positional named ↔
    k ∈ s.args ∧ (s.given positional named).lookup k = some v := by
  unfold bind
  simp only [List.mem_append, List.mem_filterMap, List.mem_map, Option.map_eq_some_iff]
  constructor
  · rintro ((⟨a, ha, w, hw, heq⟩ | ⟨a, _, heq⟩) | ⟨a, _, heq⟩)
    · cases heq
      exact ⟨ha, hw⟩
    · cases heq
    · cases heq
  · rintro ⟨ha, hv⟩
    exact .inl (.inl ⟨k, ha, v, hv, rfl⟩)

theorem mem_bind_tuple {extra : List α} : (k, Bound.tuple extra) ∈ s.bind positional named ↔
    s.varargs = some k ∧ s.extra positional = extra := by
  unfold bind
  simp only [List.mem_append, List.mem_filterMap, List.mem_map, Option.map_eq_some_iff,
    Option.mem_toList]
  constructor
  · rintro ((⟨a, _, w, _, heq⟩ | ⟨a, ha, heq⟩) | ⟨a, _, heq⟩)
    · cases heq
    · cases heq
      exact ⟨ha, rfl⟩
    · cases heq
  · rintro ⟨hk, rfl⟩
    exact .inl (.inr ⟨k, hk, rfl⟩)

theorem mem_bind_dict {d : List (String × α)} : (k, Bound.dict d) ∈ s.bind positional named ↔
    s.varkw = some k ∧ s.collected named = d := by
  unfold bind
  simp only [List.mem_append, List.mem_filterMap, List.mem_map, Option.map_eq_some_iff,
    Option.mem_toList]
  constructor
  · rintro ((⟨a, _, w, _, heq⟩ | ⟨a, _, heq⟩) | ⟨a, ha, heq⟩)
    · cases heq
    · cases heq
    · cases heq
      exact ⟨ha, rfl⟩
  · rintro ⟨hk, rfl⟩
    exact .inr ⟨k, hk, rfl⟩

theorem args_nodup (s : Signature α) : s.args.Nodup := by
  have h := s.nodup
  rw [List.append_assoc] at h
  exact (List.nodup_append.mp h).1

theorem keys_zip_sublist : ∀ (ks : List String) (vs : List α), (Dict.keys (ks.zip vs)).Sublist ks
  | [], _ => List.Sublist.slnil
  | _ :: _, [] => List.nil_sublist _
  | k :: ks, _ :: vs => (keys_zip_sublist ks vs).cons_cons k

/-- A positional argument is the value of its parameter. -/
theorem lookup_given_position (h : (k, v) ∈ s.args.zip positional) :
    (s.given positional named).lookup k = some v := by
  have hnodup := s.args_nodup.sublist (keys_zip_sublist s.args positional)
  unfold given
  rw [List.append_assoc, List.lookup_append, Dict.lookup_of_mem hnodup h]
  rfl

/-- A keyword is the value of its parameter, if that is not given by position. -/
theorem lookup_given_keyword (hnodup : (Dict.keys named).Nodup)
    (hposition : k ∉ Dict.keys (s.args.zip positional)) (h : (k, v) ∈ named) :
    (s.given positional named).lookup k = some v := by
  unfold given
  rw [List.append_assoc, List.lookup_append, (Dict.lookup_eq_none_iff _ _).mpr hposition,
    Option.none_or, List.lookup_append, Dict.lookup_of_mem hnodup h]
  rfl

/-- A default is the value of its parameter, if that is not given. -/
theorem lookup_given_default (hposition : k ∉ Dict.keys (s.args.zip positional))
    (hkeyword : k ∉ Dict.keys named) (h : (k, v) ∈ s.defaulted) :
    (s.given positional named).lookup k = some v := by
  have hnodup : (Dict.keys s.defaulted).Nodup :=
    (s.args_nodup.sublist (List.drop_sublist ..)).sublist (keys_zip_sublist ..)
  unfold given
  rw [List.lookup_append, List.lookup_append, (Dict.lookup_eq_none_iff _ _).mpr hposition,
    (Dict.lookup_eq_none_iff _ _).mpr hkeyword, Dict.lookup_of_mem hnodup h]
  rfl

end Signature
end PolarBear.Py
