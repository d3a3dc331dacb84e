import PolarBear.Wsgi.Resource

/-!
# The tables over many requests

`register_extensions` fills the tables once, when the application is set up. A
request should only read them. It does, unless a resource of the chain has a list
for it and inherits extensions for it: then those are appended to the list in the
table, and the next request runs them twice. `dispatch_keeps_iff` says of every
sequence of requests that it keeps the tables, and runs what was registered,
exactly if no request of it meets such a list.
-/

namespace PolarBear.Wsgi

open PolarBear.Fallible

variable {μ χ : Type}

/-- A request, as far as `get_method` looks at it. -/
structure Request (μ : Type) where
  resource : Resource μ
  action : Option String
  body : List UInt8

section

variable (decode : List UInt8 → Option String) (floatRepr : String → String)

/-- The method and the extensions of a request, and the tables it leaves. -/
def serve (t : Tables χ) (r : Request μ) : Except LookupError (μ × List χ) × Tables χ :=
  match r.resource.getMethod decode floatRepr r.action r.body t with
  | .ok ((meth, extensions), t') => (.ok (meth, t'.read extensions), t')
  | .error e => (.error e, t)

/-- What each request of a sequence gets, and the tables it leaves. -/
def serveAll (t : Tables χ) :
    List (Request μ) → List (Except LookupError (μ × List χ) × Tables χ)
  | [] => []
  | r :: requests =>
    let served := serve decode floatRepr t r
    served :: serveAll served.2 requests

/-- What is found for a request, along the chain of its resource. -/
def foundFor (r : Request μ) : Except LookupError (List (Found μ)) :=
  findAll decode floatRepr r.action r.body r.resource.chain

/-- What a request should get: the method of its resource, and the extensions that are registered
for it there and up the chain. -/
def registered (t : Tables χ) (r : Request μ) : Except LookupError (μ × List χ) :=
  match foundFor decode floatRepr r with
  | .ok (f :: rest) => .ok (f.meth, t.contents (f :: rest))
  | .ok [] => .error .attributeError
  | .error e => .error e

/-- A sequence of requests leaves the tables alone, each gets what is registered, and where no
extension ends the processing each one runs once. -/
structure KeepsTables (t : Tables χ) (requests : List (Request μ)) : Prop where
  served : serveAll decode floatRepr t requests =
    requests.map (fun r => (registered decode floatRepr t r, t))
  ran : ∀ answer ∈ serveAll decode floatRepr t requests, ∀ meth extensions,
    answer.1 = .ok (meth, extensions) → ∀ (ρ : Type) (run : χ → Ran ρ),
      (∀ ext ∈ extensions, (run ext).passes = true) →
      (processExtensions run extensions).1 = extensions

/-- A request that appends nothing: none of the lists it reads stands below one that is not
empty, unless a lookup raises. -/
def AppendsNothing (t : Tables χ) (r : Request μ) : Prop :=
  ∀ found, foundFor decode floatRepr r = .ok found → t.Quiet found

end

section

variable (decode : List UInt8 → Option String) (floatRepr : String → String) (t : Tables χ)

/-- **One request**: it gets what is registered, and leaves the tables as they were exactly if it
appends nothing. -/
theorem serve_spec (r : Request μ) :
    (serve decode floatRepr t r).1 = registered decode floatRepr t r ∧
      ((serve decode floatRepr t r).2 = t ↔ AppendsNothing decode floatRepr t r) := by
  unfold serve registered AppendsNothing Resource.getMethod
  cases hfound : foundFor decode floatRepr r with
  | error e =>
    have herror : findAll decode floatRepr r.action r.body
        (r.resource.own :: r.resource.ancestors) = .error e := hfound
    rw [getMethod_error herror]
    refine ⟨rfl, iff_of_true rfl (fun found h => ?_)⟩
    cases h
  | ok found =>
    obtain ⟨meth, key, rest, -, -, rfl⟩ := findAll_cons_ok hfound
    obtain ⟨ref, t', hget, hread, -, hquiet⟩ := getMethod_ok (t := t) r.resource.distinct hfound
    rw [hget]
    refine ⟨?_, ?_⟩
    · show Except.ok (meth, t'.read ref) = Except.ok (meth, _)
      rw [hread]
    · show t' = t ↔ _
      rw [hquiet]
      constructor
      · intro h found hfound'
        cases hfound'
        exact h
      · exact fun h => h _ rfl

/-- **Dispatch keeps the tables** over a sequence of requests exactly if none of them appends. -/
theorem dispatch_keeps_iff (requests : List (Request μ)) :
    KeepsTables decode floatRepr t requests ↔
      ∀ r ∈ requests, AppendsNothing decode floatRepr t r := by
  have hserved : serveAll decode floatRepr t requests =
      requests.map (fun r => (registered decode floatRepr t r, t)) ↔
        ∀ r ∈ requests, AppendsNothing decode floatRepr t r := by
    induction requests with
    | nil => exact iff_of_true rfl (fun r hr => absurd hr List.not_mem_nil)
    | cons r requests ih =>
      obtain ⟨hanswer, hkept⟩ := serve_spec decode floatRepr t r
      rw [serveAll, List.map_cons, List.forall_mem_cons, List.cons_eq_cons, ← hkept]
      constructor
      · rintro ⟨hfirst, hrest⟩
        have htables : (serve decode floatRepr t r).2 = t := congrArg Prod.snd hfirst
        rw [htables] at hrest
        exact ⟨htables, ih.mp hrest⟩
      · rintro ⟨htables, hrest⟩
        refine ⟨Prod.ext hanswer htables, ?_⟩
        rw [htables]
        exact ih.mpr hrest
  rw [← hserved]
  refine ⟨KeepsTables.served, fun h => ⟨h, ?_⟩⟩
  intro answer _ meth extensions _ ρ run hpasses
  rw [processExtensions_all run hpasses]

end

/-! ## A resource that inherits -/

/-- A resource with a `show`. -/
def shows (id : Nat) : Own String := ⟨id, fun name => if name = "show" then some name else none, []⟩

theorem shows_distinct : ([shows 1, shows 2].map Own.id).Nodup := by decide

/-- Two resources, the first inherits from the second. -/
def inheriting : Resource String := ⟨shows 1, [shows 2], shows_distinct⟩

/-- An extension of `show` for either. -/
def showExtensions : Tables String := fun p =>
  if p = (1, ⟨.method, "show"⟩) then some ["own"]
  else if p = (2, ⟨.method, "show"⟩) then some ["inherited"]
  else none

/-- One request appends the inherited extension to the list of the first. -/
theorem dispatch_appends :
    ¬ KeepsTables asciiText id showExtensions [⟨inheriting, some "show", []⟩] := by
  intro h
  have hlist := congrArg (List.map (fun answer => answer.2 (1, ⟨.method, "show"⟩))) h.served
  exact absurd hlist (by decide)

end PolarBear.Wsgi
