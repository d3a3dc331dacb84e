import Mathlib.Data.List.Nodup
import Mathlib.Logic.Function.Basic
import PolarBear.Lib.Fallible
import PolarBear.Py.Builtins
import PolarBear.Py.JsonText

/-!
# `Resource`: finding the method and its extensions

A resource dispatches a request to a method of its controller or to one of its
registered actions. Extensions of both kinds are kept in two tables of the
resource, under the name of the method or of the action. A resource may inherit
from another; then a request also runs the extensions of that one.

`get_method` does not copy. What it returns is the list in the table itself, if
there is one, and a new list otherwise, and it appends the extensions of the
resource it inherits from in place. So a list is modelled with where it is kept
(`ListRef`), and the tables of all resources are the state.

Reading a body takes two parameters: what UTF-8 decoding makes of bytes, which
Python 2 and 3 do not agree on for surrogates, and the text of a float that was
read.
-/

namespace PolarBear.Wsgi

open PolarBear.Fallible
open PolarBear.Py

variable {μ χ : Type}

/-! ## Tables of extensions -/

/-- `wsgi_extensions` and `wsgi_action_extensions`. -/
inductive Kind where
  | method
  | action
  deriving DecidableEq, Repr

/-- A name in one of the two tables. -/
structure Key where
  kind : Kind
  name : String
  deriving DecidableEq, Repr

/-- The tables of all resources: the list that a resource keeps under a key. -/
abbrev Tables (χ : Type) : Type := Nat × Key → Option (List χ)

/-- A list, and where it is kept. -/
inductive ListRef (χ : Type) where
  | stored (id : Nat) (key : Key)
  | fresh (items : List χ)

/-- `table.get(key, [])`. -/
def Tables.get (t : Tables χ) (id : Nat) (key : Key) : ListRef χ :=
  if (t (id, key)).isSome then .stored id key else .fresh []

def Tables.read (t : Tables χ) : ListRef χ → List χ
  | .stored id key => (t (id, key)).getD []
  | .fresh items => items

/-- `extensions.extend(items)`. -/
def Tables.extend (t : Tables χ) (ref : ListRef χ) (items : List χ) : Tables χ × ListRef χ :=
  match ref with
  | .stored id key => (Function.update t (id, key) (some (t.read ref ++ items)), ref)
  | .fresh own => (t, .fresh (own ++ items))

/-! ## Resources -/

/-- A resource of its own: its attributes are those of its controller, or without one its own. -/
structure Own (μ : Type) where
  id : Nat
  getattr : String → Option μ
  wsgiActions : List (String × μ)

/-- A resource, with the resources it inherits from, the nearest first. They are different
objects. -/
structure Resource (μ : Type) where
  own : Own μ
  ancestors : List (Own μ)
  distinct : ((own :: ancestors).map Own.id).Nodup

def Resource.chain (r : Resource μ) : List (Own μ) := r.own :: r.ancestors

/-- The exceptions of a lookup. -/
inductive LookupError where
  | attributeError
  | typeError
  | keyError (name : String)
  | malformedRequestBody (reason : String)
  deriving DecidableEq, Repr

/-- `_ROUTES_METHODS`. -/
def routesMethods : List String := ["create", "delete", "show", "update"]

section

variable (decode : List UInt8 → Option String) (floatRepr : String → String)

/-- `jsonutils.loads` of bytes; `none` is a `ValueError`, and `UnicodeDecodeError` is one. -/
def jsonLoads (body : List UInt8) : Option Json := do
  let text ← decode body
  loads floatRepr text

/-- `list(decoded.keys())[0]`. -/
def firstKey : Json → Except LookupError String
  | .obj ((key, _) :: _) => .ok key
  | _ => .error .attributeError

/-- `action_peek`. -/
def actionPeek (body : List UInt8) : Except LookupError String :=
  match jsonLoads decode floatRepr body with
  | none => .error (.malformedRequestBody "cannot understand JSON")
  | some decoded =>
    match decoded.len with
    | .error _ => .error .typeError
    | .ok n =>
      if n ≠ 1 then .error (.malformedRequestBody "too many body keys") else firstKey decoded

/-- The name of the action that a request asks for. -/
def actionName (action : String) (body : List UInt8) : Except LookupError String :=
  if action = "action" then actionPeek decode floatRepr body else .ok action

/-- The method of a registered action. -/
def Own.registered (own : Own μ) (name : String) : Except LookupError (μ × Key) :=
  match own.wsgiActions.lookup name with
  | some meth => .ok (meth, ⟨.action, name⟩)
  | none => .error (.keyError name)

/-- `_get_method`: the method, and under which key its extensions are. -/
def Own.find (own : Own μ) (action : Option String) (body : List UInt8) :
    Except LookupError (μ × Key) :=
  match action with
  -- `getattr` takes no `None`
  | none => .error .typeError
  | some action =>
    match own.getattr action with
    | some meth => .ok (meth, ⟨.method, action⟩)
    | none =>
      if own.wsgiActions.isEmpty || !(routesMethods ++ ["action"]).contains action then
        .error .attributeError
      else do
        let name ← actionName decode floatRepr action body
        own.registered name

/-- `_get_method`. -/
def Own.getMethod (own : Own μ) (action : Option String) (body : List UInt8) (t : Tables χ) :
    Except LookupError (μ × ListRef χ) := do
  let (meth, key) ← own.find decode floatRepr action body
  .ok (meth, t.get own.id key)

/-- `get_method` of a resource and those it inherits from, with the tables it leaves. -/
def chainGetMethod (action : Option String) (body : List UInt8) (own : Own μ) :
    List (Own μ) → Tables χ → Except LookupError ((μ × ListRef χ) × Tables χ)
  | [], t => do
    let found ← own.getMethod decode floatRepr action body t
    .ok (found, t)
  | parent :: ancestors, t => do
    let (meth, extensions) ← own.getMethod decode floatRepr action body t
    let ((_, parentExt), t) ← chainGetMethod action body parent ancestors t
    let (t, extensions) := t.extend extensions (t.read parentExt)
    .ok ((meth, extensions), t)

/-- `get_method`. -/
def Resource.getMethod (r : Resource μ) (action : Option String) (body : List UInt8)
    (t : Tables χ) : Except LookupError ((μ × ListRef χ) × Tables χ) :=
  chainGetMethod decode floatRepr action body r.own r.ancestors t

end

/-- UTF-8 decoding, of ASCII only. -/
def asciiText (body : List UInt8) : Option String :=
  if body.all (fun b => b < 128) then some (String.ofList (body.map (fun b => Char.ofNat b.toNat)))
  else none

/-! ## Running extensions -/

/-- How an extension ends: with nothing, with a response, by not having a version for the
request, or by raising a fault. -/
inductive Ran (ρ : Type) where
  | nothing
  | response (r : ρ)
  | versionNotFound
  | fault (f : ρ)

/-- `process_extensions`: the extensions that ran, and the response if one gave one. -/
def processExtensions {ρ : Type} (run : χ → Ran ρ) : List χ → List χ × Option ρ
  | [] => ([], none)
  | ext :: extensions =>
    match run ext with
    | .nothing | .versionNotFound =>
      let (ran, response) := processExtensions run extensions
      (ext :: ran, response)
    | .response r | .fault r => ([ext], some r)

/-- An extension that lets the next one run. -/
def Ran.passes {ρ : Type} : Ran ρ → Bool
  | .nothing | .versionNotFound => true
  | .response _ | .fault _ => false

/-- If no extension ends the processing, each runs once, in order. -/
theorem processExtensions_all {ρ : Type} (run : χ → Ran ρ) {extensions : List χ}
    (h : ∀ ext ∈ extensions, (run ext).passes = true) :
    processExtensions run extensions = (extensions, none) := by
  induction extensions with
  | nil => rfl
  | cons ext extensions ih =>
    have hext := h ext (List.mem_cons_self ..)
    have hrest := ih (fun e he => h e (List.mem_cons_of_mem _ he))
    unfold processExtensions
    cases hran : run ext with
    | nothing => simp only [hrest]
    | versionNotFound => simp only [hrest]
    | response r =>
      rw [hran] at hext
      cases hext
    | fault f =>
      rw [hran] at hext
      cases hext

/-! ## What a lookup finds -/

/-- What one resource of a chain contributes: its method, and the key of its extensions. -/
structure Found (μ : Type) where
  id : Nat
  meth : μ
  key : Key

section

variable (decode : List UInt8 → Option String) (floatRepr : String → String)

/-- The lookups of a chain, in the order they are made. -/
def findAll (action : Option String) (body : List UInt8) :
    List (Own μ) → Except LookupError (List (Found μ))
  | [] => .ok []
  | own :: ancestors => do
    let (meth, key) ← own.find decode floatRepr action body
    let rest ← findAll action body ancestors
    .ok (⟨own.id, meth, key⟩ :: rest)

end

/-- The extensions that are registered for what was found. -/
def Tables.contents (t : Tables χ) (found : List (Found μ)) : List χ :=
  found.flatMap (fun f => (t (f.id, f.key)).getD [])

/-- No list in the tables stands below one that is not empty. -/
def Tables.Quiet (t : Tables χ) (found : List (Found μ)) : Prop :=
  found.Pairwise (fun f above => t (f.id, f.key) = none ∨ (t (above.id, above.key)).getD [] = [])

section

variable {decode : List UInt8 → Option String} {floatRepr : String → String}
  {action : Option String} {body : List UInt8} {t : Tables χ}

theorem read_get (t : Tables χ) (id : Nat) (key : Key) :
    t.read (t.get id key) = (t (id, key)).getD [] := by
  unfold Tables.get
  cases hkey : t (id, key) with
  | none => rfl
  | some items =>
    rw [Option.isSome_some, if_pos rfl]
    exact congrArg (fun o => Option.getD o []) hkey

/-- The lookups of a chain succeed if each does. -/
theorem findAll_cons_ok {own : Own μ} {ancestors : List (Own μ)} {found : List (Found μ)}
    (h : findAll decode floatRepr action body (own :: ancestors) = .ok found) :
    ∃ meth key rest, own.find decode floatRepr action body = .ok (meth, key) ∧
      findAll decode floatRepr action body ancestors = .ok rest ∧
      found = ⟨own.id, meth, key⟩ :: rest := by
  obtain ⟨⟨meth, key⟩, hfind, h⟩ := bind_ok_iff.mp h
  obtain ⟨rest, hrest, h⟩ := bind_ok_iff.mp h
  cases h
  exact ⟨meth, key, rest, hfind, hrest, rfl⟩

/-- What appending to a list of the tables leaves, and when that is nothing. -/
theorem extend_get {id : Nat} {key : Key} {t t' : Tables χ} (hkept : t' (id, key) = t (id, key))
    (items : List χ) :
    (t'.extend (t.get id key) items).1.read (t'.extend (t.get id key) items).2 =
        (t (id, key)).getD [] ++ items ∧
      (∀ p ≠ (id, key), (t'.extend (t.get id key) items).1 p = t' p) ∧
      ((t'.extend (t.get id key) items).1 = t ↔
        t' = t ∧ (t (id, key) = none ∨ items = [])) := by
  unfold Tables.get
  cases hkey : t (id, key) with
  | none =>
    refine ⟨rfl, fun _ _ => rfl, ?_⟩
    show t' = t ↔ _
    simp
  | some own =>
    have hown : t' (id, key) = some own := hkept.trans hkey
    have hread : t'.read (.stored id key) = own := congrArg (fun o => Option.getD o []) hown
    rw [Option.isSome_some, if_pos rfl]
    unfold Tables.extend
    rw [hread]
    refine ⟨?_, fun p hp => Function.update_of_ne hp _ _, ?_⟩
    · show (Function.update t' (id, key) (some (own ++ items)) (id, key)).getD [] = _
      rw [Function.update_self]
      rfl
    · show Function.update t' (id, key) (some (own ++ items)) = t ↔ _
      constructor
      · intro heq
        have hself := congrFun heq (id, key)
        rw [Function.update_self, hkey] at hself
        have hitems : items = [] := List.append_right_eq_self.mp (Option.some.inj hself)
        rw [hitems, List.append_nil, ← hown, Function.update_eq_self] at heq
        exact ⟨heq, Or.inr hitems⟩
      · rintro ⟨rfl, hnone | rfl⟩
        · cases hnone
        · rw [List.append_nil, ← hown, Function.update_eq_self]

/-- What `_get_method` gives. -/
theorem ownGetMethod_eq (own : Own μ) (t : Tables χ) :
    own.getMethod decode floatRepr action body t =
      (own.find decode floatRepr action body).map
        (fun found => (found.1, t.get own.id found.2)) := by
  unfold Own.getMethod
  cases own.find decode floatRepr action body <;> rfl

/-- The first lookup that fails decides. -/
theorem findAll_cons_error {own : Own μ} {ancestors : List (Own μ)} {e : LookupError} :
    findAll decode floatRepr action body (own :: ancestors) = .error e ↔
      own.find decode floatRepr action body = .error e ∨
        (∃ found, own.find decode floatRepr action body = .ok found) ∧
          findAll decode floatRepr action body ancestors = .error e := by
  rw [findAll]
  cases own.find decode floatRepr action body with
  | error e' => simp [bind, Except.bind]
  | ok found =>
    simp only [bind, Except.bind]
    cases findAll decode floatRepr action body ancestors <;> simp

/-- **A lookup that fails** raises the first exception of the chain. -/
theorem getMethod_error {own : Own μ} {ancestors : List (Own μ)} {e : LookupError}
    (h : findAll decode floatRepr action body (own :: ancestors) = .error e) :
    chainGetMethod decode floatRepr action body own ancestors t = .error e := by
  induction ancestors generalizing own with
  | nil =>
    rcases findAll_cons_error.mp h with hfind | ⟨-, hrest⟩
    · rw [chainGetMethod, ownGetMethod_eq, hfind]
      rfl
    · cases hrest
  | cons parent ancestors ih =>
    rcases findAll_cons_error.mp h with hfind | ⟨⟨found, hfind⟩, hrest⟩
    · rw [chainGetMethod, ownGetMethod_eq, hfind]
      rfl
    · rw [chainGetMethod, ownGetMethod_eq, hfind]
      show (chainGetMethod decode floatRepr action body parent ancestors t >>= _) = _
      rw [ih hrest]
      rfl

/-- A list of the tables, where none is below it. -/
theorem quiet_cons (f : Found μ) (rest : List (Found μ)) :
    t.Quiet (f :: rest) ↔ (t (f.id, f.key) = none ∨ t.contents rest = []) ∧ t.Quiet rest := by
  unfold Tables.Quiet Tables.contents
  rw [List.pairwise_cons, List.flatMap_eq_nil_iff]
  refine and_congr_left (fun _ => ?_)
  constructor
  · intro h
    by_cases hnone : t (f.id, f.key) = none
    · exact Or.inl hnone
    · exact Or.inr (fun above habove => (h above habove).resolve_left hnone)
  · rintro (hnone | hempty) above habove
    · exact Or.inl hnone
    · exact Or.inr (hempty above habove)

/-- **A lookup that succeeds** returns the method of the resource, with its extensions and those
of the chain, changes no table outside the chain, and leaves all as they were exactly if no list
stands below one that is not empty. -/
theorem getMethod_ok {own : Own μ} {ancestors : List (Own μ)} {f : Found μ}
    {rest : List (Found μ)} (hdistinct : ((own :: ancestors).map Own.id).Nodup)
    (h : findAll decode floatRepr action body (own :: ancestors) = .ok (f :: rest)) :
    ∃ ref t', chainGetMethod decode floatRepr action body own ancestors t =
        .ok ((f.meth, ref), t') ∧ t'.read ref = t.contents (f :: rest) ∧
      (∀ p : Nat × Key, p.1 ∉ (own :: ancestors).map Own.id → t' p = t p) ∧
      (t' = t ↔ t.Quiet (f :: rest)) := by
  induction ancestors generalizing own f rest with
  | nil =>
    obtain ⟨meth, key, rest', hfind, hrest, heq⟩ := findAll_cons_ok h
    cases hrest
    cases heq
    refine ⟨t.get own.id key, t, ?_, ?_, fun _ _ => rfl, iff_of_true rfl ?_⟩
    · rw [chainGetMethod, ownGetMethod_eq, hfind]
      rfl
    · rw [read_get]
      unfold Tables.contents
      rw [List.flatMap_cons, List.flatMap_nil, List.append_nil]
    · exact List.pairwise_singleton _ _
  | cons parent ancestors ih =>
    obtain ⟨meth, key, found, hfind, hfound, heq⟩ := findAll_cons_ok h
    cases heq
    obtain ⟨_, _, _, -, -, rfl⟩ := findAll_cons_ok hfound
    rw [List.map_cons, List.nodup_cons] at hdistinct
    obtain ⟨hown, hdistinct⟩ := hdistinct
    obtain ⟨ref, t', hget, hread, hframe, hquiet⟩ := ih hdistinct hfound
    have hkept : t' (own.id, key) = t (own.id, key) := hframe _ hown
    obtain ⟨hlist, hothers, hsame⟩ := extend_get hkept (t'.read ref)
    refine ⟨(t'.extend (t.get own.id key) (t'.read ref)).2,
      (t'.extend (t.get own.id key) (t'.read ref)).1, ?_, ?_, ?_, ?_⟩
    · rw [chainGetMethod, ownGetMethod_eq, hfind]
      show (chainGetMethod decode floatRepr action body parent ancestors t >>= _) = _
      rw [hget]
      rfl
    · rw [hlist, hread]
      rfl
    · intro p hp
      rw [List.map_cons, List.mem_cons, not_or] at hp
      rw [hothers p (fun heq => hp.1 (congrArg Prod.fst heq)), hframe p hp.2]
    · rw [hsame, hread, hquiet]
      exact Iff.trans and_comm (quiet_cons (⟨own.id, meth, key⟩ : Found μ) _).symm

end

end PolarBear.Wsgi
