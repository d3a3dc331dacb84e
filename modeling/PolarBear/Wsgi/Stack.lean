import PolarBear.Wsgi.Resource

/-!
# `_process_stack`: what a body can do

The body of a request is read in up to three places: `action_peek` reads it for
the name of an action, the debug message reads it as text, and the deserializer
reads it for the method. The first and the last answer a body they cannot read
with a fault. The message decodes the bytes outside of every handler, so bytes
that are not UTF-8 raise there, if a method was found for them
(`processStack_raised_iff`).

Only `POST` and `PUT` have a body to deserialize, and both may be empty. What the
other methods carry is not looked at, except by `action_peek`.
-/

namespace PolarBear.Wsgi

open PolarBear.Fallible
open PolarBear.Py

variable {μ χ : Type}

/-- `_METHODS_WITH_BODY`. -/
def methodsWithBody : List String := ["POST", "PUT"]

/-- What `_process_stack` is called with, but for the body. The context has a project, or `None`;
there may be no context. -/
structure Call where
  method : String
  contentLength : Option Nat
  action : Option String
  projectId : Option String
  context : Option (Option String)

/-- Where `_process_stack` is before it dispatches: done with a fault, left by an exception, or
about to call the method with these contents. -/
inductive Outcome (μ χ : Type) where
  | fault (status : Nat) (explanation : Option String)
  | unicodeDecodeError
  | dispatch (meth : μ) (extensions : ListRef χ) (contents : Option Json)

/-- A fault with status 400 or 404. -/
def Outcome.ClientError (o : Outcome μ χ) : Prop :=
  ∃ explanation, o = .fault 400 explanation ∨ o = .fault 404 explanation

/-- The handlers of `get_method`. -/
def lookupFault : LookupError → Outcome μ χ
  | .attributeError | .typeError => .fault 404 none
  | .keyError name => .fault 400 (some s!"There is no such action: {name}")
  | .malformedRequestBody _ => .fault 400 (some "Malformed request body")

/-- The project of the URL is not that of the context. -/
def projectMismatch (call : Call) : Bool :=
  match call.context, call.projectId with
  | some contextProject, some project => project != "" && some project != contextProject
  | _, _ => false

def mismatchMessage (call : Call) : String :=
  "Malformed request URL: URL's project_id '" ++ call.projectId.getD "None" ++
    "' doesn't match Context's project_id '" ++ (call.context.getD none).getD "None" ++ "'"

section

variable (decode : List UInt8 → Option String) (floatRepr : String → String)

/-- The contents of a request; `none` is `MalformedRequestBody`. -/
def readContents (call : Call) (body : List UInt8) : Option (Option Json) :=
  if methodsWithBody.contains call.method then
    -- allow empty body with PUT and POST
    if call.contentLength = some 0 then some (some .null)
    else (jsonLoads decode floatRepr body).map some
  else some none

/-- `_process_stack`, up to the dispatch. -/
def processStack (r : Resource μ) (t : Tables χ) (call : Call) (body : List UInt8) :
    Outcome μ χ :=
  match r.getMethod decode floatRepr call.action body t with
  | .error e => lookupFault e
  | .ok ((meth, extensions), _) =>
    -- the body as text, for the debug message
    if body ≠ [] ∧ decode body = none then .unicodeDecodeError
    else
      match readContents decode floatRepr call body with
      | none => .fault 400 (some "Malformed request body")
      | some contents =>
        if projectMismatch call then .fault 400 (some (mismatchMessage call))
        else .dispatch meth extensions contents

/-- The bytes are a JSON text. -/
def ValidJson (body : List UInt8) : Prop := (jsonLoads decode floatRepr body).isSome = true

instance (body : List UInt8) : Decidable (ValidJson decode floatRepr body) :=
  inferInstanceAs (Decidable (_ = true))

/-- The bytes are an object with one key, which is an action of the resource. -/
def OneKnownAction (own : Own μ) (body : List UInt8) : Prop :=
  ∃ name value, jsonLoads decode floatRepr body = some (.obj [(name, value)]) ∧
    (own.wsgiActions.lookup name).isSome = true

end

/-! ## Lookups that fail -/

section

variable {decode : List UInt8 → Option String} {floatRepr : String → String}
  {r : Resource μ} {t : Tables χ} {call : Call} {body : List UInt8}

theorem lookupFault_clientError (e : LookupError) :
    (lookupFault e : Outcome μ χ).ClientError := by
  cases e with
  | attributeError => exact ⟨_, Or.inr rfl⟩
  | typeError => exact ⟨_, Or.inr rfl⟩
  | keyError name => exact ⟨_, Or.inl rfl⟩
  | malformedRequestBody reason => exact ⟨_, Or.inl rfl⟩

/-- What `action_peek` returns is the one key of an object. -/
theorem actionPeek_ok {name : String} (h : actionPeek decode floatRepr body = .ok name) :
    ∃ value, jsonLoads decode floatRepr body = some (.obj [(name, value)]) := by
  unfold actionPeek at h
  cases hloads : jsonLoads decode floatRepr body with
  | none =>
    rw [hloads] at h
    cases h
  | some decoded =>
    rw [hloads] at h
    cases decoded with
    | obj fields =>
      rcases fields with _ | ⟨⟨key, value⟩, _ | ⟨_, _⟩⟩
      · cases h
      · cases h
        exact ⟨value, rfl⟩
      · cases h
    | null => cases h
    | bool b => cases h
    | int n => cases h
    | float repr => cases h
    | str s =>
      simp only [Json.len] at h
      split at h <;> cases h
    | arr xs =>
      simp only [Json.len] at h
      split at h <;> cases h

/-- On the route `action`, a resource without that attribute finds a method only for an object
with one known key. -/
theorem find_action_error {own : Own μ} (hattr : own.getattr "action" = none)
    (hbody : ¬ OneKnownAction decode floatRepr own body) :
    ∃ e, own.find decode floatRepr (some "action") body = .error e := by
  unfold Own.find
  simp only [hattr]
  split
  · exact ⟨_, rfl⟩
  · unfold actionName
    rw [if_pos rfl]
    cases hpeek : actionPeek decode floatRepr body with
    | error e => exact ⟨e, rfl⟩
    | ok name =>
      obtain ⟨value, hloads⟩ := actionPeek_ok hpeek
      have hunknown : own.wsgiActions.lookup name = none := by
        by_contra hknown
        exact hbody ⟨name, value, hloads, Option.isSome_iff_ne_none.mpr hknown⟩
      refine ⟨.keyError name, ?_⟩
      show own.registered name = _
      unfold Own.registered
      rw [hunknown]

/-- One lookup that fails makes the lookups of the chain fail. -/
theorem findAll_error {action : Option String} {chain : List (Own μ)} {own : Own μ}
    (hmem : own ∈ chain) {e : LookupError}
    (h : own.find decode floatRepr action body = .error e) :
    ∃ e', findAll decode floatRepr action body chain = .error e' := by
  induction chain with
  | nil => cases hmem
  | cons first chain ih =>
    cases hfirst : first.find decode floatRepr action body with
    | error e' => exact ⟨e', findAll_cons_error.mpr (Or.inl hfirst)⟩
    | ok found =>
      rcases List.mem_cons.mp hmem with rfl | hmem
      · rw [hfirst] at h
        cases h
      · obtain ⟨e', he'⟩ := ih hmem
        exact ⟨e', findAll_cons_error.mpr (Or.inr ⟨⟨found, hfirst⟩, he'⟩)⟩

/-- Where a lookup fails, the request ends with a client error. -/
theorem processStack_error {e : LookupError}
    (h : r.getMethod decode floatRepr call.action body t = .error e) :
    (processStack decode floatRepr r t call body).ClientError := by
  unfold processStack
  rw [h]
  exact lookupFault_clientError e

/-- **The exception that escapes**: bytes that are not text, for which a method was found. -/
theorem processStack_raised_iff :
    processStack decode floatRepr r t call body = .unicodeDecodeError ↔
      body ≠ [] ∧ decode body = none ∧
        ∃ found, r.getMethod decode floatRepr call.action body t = .ok found := by
  unfold processStack
  cases hget : r.getMethod decode floatRepr call.action body t with
  | error e => cases e <;> simp [lookupFault]
  | ok found =>
    obtain ⟨⟨meth, extensions⟩, t'⟩ := found
    by_cases hbytes : body ≠ [] ∧ decode body = none
    · simp [hbytes]
    · simp only [if_neg hbytes]
      refine iff_of_false ?_ (fun h => hbytes ⟨h.1, h.2.1⟩)
      cases readContents decode floatRepr call body with
      | none => exact fun h => by cases h
      | some contents =>
        dsimp only
        split <;> exact fun h => by cases h

/-- Where no exception escapes, the request ends with a client error or is dispatched. -/
theorem processStack_ends (h : processStack decode floatRepr r t call body ≠ .unicodeDecodeError) :
    (processStack decode floatRepr r t call body).ClientError ∨
      ∃ meth extensions contents,
        processStack decode floatRepr r t call body = .dispatch meth extensions contents := by
  unfold processStack at h ⊢
  cases hget : r.getMethod decode floatRepr call.action body t with
  | error e => exact Or.inl (lookupFault_clientError e)
  | ok found =>
    obtain ⟨⟨meth, extensions⟩, t'⟩ := found
    rw [hget] at h
    dsimp only at h ⊢
    split at h
    · exact absurd rfl h
    · next hbytes =>
      rw [if_neg hbytes]
      cases readContents decode floatRepr call body with
      | none => exact Or.inl ⟨_, Or.inl rfl⟩
      | some contents =>
        dsimp only
        split
        · exact Or.inl ⟨_, Or.inl rfl⟩
        · exact Or.inr ⟨_, _, _, rfl⟩

/-- Contents that are not JSON end the request, if it has text for contents. -/
theorem processStack_invalid (hbody : ¬ ValidJson decode floatRepr body)
    (hmethod : call.method ∈ methodsWithBody) (hlength : call.contentLength ≠ some 0)
    (htext : body = [] ∨ (decode body).isSome = true) :
    (processStack decode floatRepr r t call body).ClientError := by
  have hread : readContents decode floatRepr call body = none := by
    unfold ValidJson at hbody
    unfold readContents
    rw [if_pos (List.contains_iff_mem.mpr hmethod), if_neg hlength,
      Option.not_isSome_iff_eq_none.mp hbody]
    rfl
  have hbytes : ¬ (body ≠ [] ∧ decode body = none) := by
    rintro ⟨hne, hnone⟩
    rcases htext with hempty | hsome
    · exact hne hempty
    · rw [hnone] at hsome
      cases hsome
  unfold processStack
  cases r.getMethod decode floatRepr call.action body t with
  | error e => exact lookupFault_clientError e
  | ok found =>
    dsimp only
    rw [if_neg hbytes, hread]
    exact ⟨_, Or.inl rfl⟩

/-- **A malformed body is a client error.** What a method with a body cannot read as JSON, and
what the route `action` cannot read as one known action, ends with a fault of status 400 or 404;
and no exception escapes before the dispatch, for a body that is text and for a request without a
method. -/
theorem malformed_client_error (decode : List UInt8 → Option String)
    (floatRepr : String → String) (r : Resource μ) (t : Tables χ) (call : Call)
    (body : List UInt8) :
    (¬ ValidJson decode floatRepr body → call.method ∈ methodsWithBody →
      call.contentLength ≠ some 0 → body = [] ∨ (decode body).isSome = true →
      (processStack decode floatRepr r t call body).ClientError) ∧
    (call.action = some "action" → ∀ own ∈ r.chain, own.getattr "action" = none →
      ¬ OneKnownAction decode floatRepr own body →
      (processStack decode floatRepr r t call body).ClientError) ∧
    (body = [] ∨ (decode body).isSome = true ∨
        (∃ e, r.getMethod decode floatRepr call.action body t = .error e) →
      (processStack decode floatRepr r t call body).ClientError ∨
        ∃ meth extensions contents,
          processStack decode floatRepr r t call body = .dispatch meth extensions contents) := by
  refine ⟨processStack_invalid, fun haction own hown hattr hbody => ?_, fun h => ?_⟩
  · obtain ⟨e, hfind⟩ := find_action_error hattr hbody
    rw [← haction] at hfind
    obtain ⟨e', hall⟩ := findAll_error hown hfind
    exact processStack_error (getMethod_error hall)
  · refine processStack_ends (fun hraised => ?_)
    obtain ⟨hne, hnone, found, hfound⟩ := processStack_raised_iff.mp hraised
    rcases h with hempty | htext | ⟨e, he⟩
    · exact hne hempty
    · rw [hnone] at htext
      cases htext
    · rw [he] at hfound
      cases hfound

end

/-! ## Two requests -/

/-- A resource with a `create` and a `show`. -/
def createAndShow : Resource String where
  own := ⟨1, fun name => if name = "create" ∨ name = "show" then some name else none, []⟩
  ancestors := []
  distinct := List.nodup_singleton 1

/-- No extensions. -/
def noExtensions : Tables String := fun _ => none

/-- A `POST` with one brace for a body. -/
theorem malformed_client_error_brace :
    (processStack asciiText id createAndShow noExtensions
      ⟨"POST", some 1, some "create", none, none⟩ [123]).ClientError :=
  (malformed_client_error asciiText id createAndShow noExtensions
    ⟨"POST", some 1, some "create", none, none⟩ [123]).1 (by decide) (by decide) (by decide)
    (Or.inr (by decide))

/-- A `GET` with the same body is dispatched. -/
theorem malformed_get_dispatched :
    ¬ ValidJson asciiText id [123] ∧
      ¬ (processStack asciiText id createAndShow noExtensions
        ⟨"GET", some 1, some "show", none, none⟩ [123]).ClientError := by
  refine ⟨by decide, ?_⟩
  rintro ⟨explanation, h | h⟩
  · cases h
  · cases h

end PolarBear.Wsgi
