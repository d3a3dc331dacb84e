import PolarBear.Wsgi.Stack

/-!
# From a method to the response

What a method raises is seen by up to three handlers before it is a response: `expected_errors`
around the method, `ResourceExceptionHandler` around the method and around each extension, and
`FaultWrapper` around the application. `nova.exception` has no `ConvertedException`, so the branch
for `Invalid` raises an `AttributeError` itself.

The message of an exception may hold what a client must not see. `messages_hidden_iff` says for
which exceptions the response does not depend on it, whatever the method and its extensions do.
-/

namespace PolarBear.Wsgi

open PolarBear.Py

/-- An exception of `webob.exc` that is a response; `type` is the text of its class. -/
structure HttpError where
  code : Nat
  explanation : String
  headers : List (String × String)
  type : String
  deriving DecidableEq, Repr

/-- The classes of `nova.exception` that a handler tells apart. -/
inductive NovaClass where
  | forbidden
  | versionNotFoundForAPIMethod
  | validationError
  | invalid
  | unauthorized
  | other
  deriving DecidableEq, Repr

/-- What a handler reads of another exception. -/
structure Attributes where
  name : String
  type : String
  message : String
  safe : Bool
  code : Option Nat
  headers : List (String × String)
  deriving DecidableEq, Repr

/-- An exception, as the handlers tell them apart. -/
inductive Raised where
  | http (e : HttpError)
  | fault (e : HttpError)
  | nova (cls : NovaClass) (a : Attributes)
  | typeError (a : Attributes)
  | other (a : Attributes)
  deriving DecidableEq, Repr

/-- The text of the class. -/
def Raised.type : Raised → String
  | .http e => e.type
  | .fault _ => "<class 'nova.api.openstack.wsgi.Fault'>"
  | .nova _ a | .typeError a | .other a => a.type

/-- An exception of a method, as the handlers see it; `describe` reads its attributes. -/
def Raised.ofPy (describe : PyError → Attributes) (e : PyError) : Raised :=
  match e.cls with
  | .httpBadRequest => .http ⟨400, (describe e).message, [], "<class 'webob.exc.HTTPBadRequest'>"⟩
  | .typeError => .typeError (describe e)
  | .invalid => .nova .invalid (describe e)
  | _ => .other (describe e)

/-! ## `expected_errors` -/

/-- `HTTPInternalServerError`, with the class of the exception in its text. -/
def unexpected (e : Raised) : Raised :=
  .http ⟨500, "Unexpected API Error. Please report this at http://bugs.launchpad.net/nova/ and " ++
    "attach the Nova API log if possible.\n" ++ e.type, [],
    "<class 'webob.exc.HTTPInternalServerError'>"⟩

/-- What the decorator raises. A `Fault` is not a `WSGIHTTPException`. -/
def expectedError (errors : List Nat) (e : Raised) : Raised :=
  match e with
  | .http h => if errors.contains h.code then e else unexpected e
  | .nova .forbidden _ | .nova .validationError _ | .nova .unauthorized _ => e
  | _ => unexpected e

/-- `expected_errors(errors)`. -/
def expectedErrors {α : Type} (errors : List Nat) : Except Raised α → Except Raised α
  | .ok v => .ok v
  | .error e => .error (expectedError errors e)

/-! ## `ResourceExceptionHandler` -/

/-- `exception.ConvertedException`. -/
def noConvertedException : Raised :=
  .other ⟨"AttributeError", "<type 'exceptions.AttributeError'>",
    "'module' object has no attribute 'ConvertedException'", false, none, []⟩

/-- What leaves the `with` block when `e` is raised in it; `webob` has a text for each code. -/
def resourceExceptionHandler (texts : Nat → String) : Raised → Raised
  | .nova .forbidden a => .fault ⟨403, a.message, [], "<class 'webob.exc.HTTPForbidden'>"⟩
  | .nova .versionNotFoundForAPIMethod a => .nova .versionNotFoundForAPIMethod a
  | .nova .validationError _ | .nova .invalid _ => noConvertedException
  | .typeError _ => .fault ⟨400, texts 400, [], "<class 'webob.exc.HTTPBadRequest'>"⟩
  | .fault e | .http e => .fault e
  | .nova .unauthorized a => .nova .unauthorized a
  | .nova .other a => .nova .other a
  | .other a => .other a

/-! ## `_process_stack`, from the dispatch -/

/-- `ResponseObject`. -/
structure ResponseObject where
  obj : Option Json
  defaultCode : Nat
  code : Option Nat
  headers : List (String × String)

/-- `self._code or self._default_code`. -/
def ResponseObject.status (r : ResponseObject) : Nat :=
  match r.code with
  | some code => if code = 0 then r.defaultCode else code
  | none => r.defaultCode

/-- What a method or an extension returns. -/
inductive Returned where
  | none
  | dict (fields : List (String × Json))
  | object (r : ResponseObject)
  | text (t : String)
  | fault (e : HttpError)

/-- `if response:`. -/
def Returned.isTruthy : Returned → Bool
  | .none => false
  | .dict fields => !fields.isEmpty
  | .text t => t ≠ ""
  | .object _ | .fault _ => true

/-- A response object for a dictionary, for nothing, and for a response object. -/
def Returned.toResponseObject : Returned → Option ResponseObject
  | .none => some ⟨.none, 200, .none, []⟩
  | .dict fields => some ⟨some (.obj fields), 200, .none, []⟩
  | .object r => some r
  | .text _ | .fault _ => .none

/-- What a resource answers: a response object that is serialized, or what was returned. -/
inductive Answer where
  | serialized (status : Nat) (obj : Option Json) (headers : List (String × String))
  | returned (v : Returned)

/-- An extension sees the response object and may change it, also before it raises. -/
abbrev ResponseExtension : Type := ResponseObject → ResponseObject × Except Raised Returned

section

variable (texts : Nat → String)

/-- `dispatch`. -/
def dispatch : Except Raised Returned → Except Raised Returned
  | .error (.nova .versionNotFoundForAPIMethod _) =>
    .ok (.fault ⟨404, texts 404, [], "<class 'webob.exc.HTTPNotFound'>"⟩)
  | result => result

/-- What an extension gives; an exception for the version, or anything false, ends nothing. -/
def extensionEnds : Except Raised Returned → Option (Except Raised Returned)
  | .ok v => if v.isTruthy then some (.ok v) else none
  | .error e =>
    match resourceExceptionHandler texts e with
    | .nova .versionNotFoundForAPIMethod _ => none
    | .fault f => some (.ok (.fault f))
    | e => some (.error e)

/-- `process_extensions`, with what the extensions do to the response object. -/
def postProcess : List ResponseExtension → ResponseObject → ResponseObject × Except Raised Returned
  | [], r => (r, .ok .none)
  | ext :: extensions, r =>
    match extensionEnds texts (ext r).2 with
    | some result => ((ext r).1, result)
    | none => postProcess extensions (ext r).1

/-- `except Fault`, around the dispatch. -/
def caught : Raised → Except Raised Answer
  | .fault f => .ok (.returned (.fault f))
  | e => .error e

/-- `_process_stack`, from the dispatch on. -/
def respond (wsgiCode : Option Nat) (result : Except Raised Returned)
    (extensions : List ResponseExtension) : Except Raised Answer :=
  match dispatch texts result with
  | .error e => caught (resourceExceptionHandler texts e)
  | .ok v =>
    match v.toResponseObject with
    | none => .ok (.returned v)
    | some r =>
      match postProcess texts extensions
        { r with defaultCode := wsgiCode.getD r.defaultCode } with
      -- the extensions run outside of the `try` around the dispatch
      | (_, .error e) => .error e
      | (r, .ok v) =>
        if v.isTruthy then .ok (.returned v) else .ok (.serialized r.status r.obj r.headers)

/-! ## `FaultWrapper` -/

/-- The code, the headers and the text that an exception gives its fault; a `Fault` has none of
these attributes. -/
def Raised.exposed : Raised → Option Nat × List (String × String) × Option String
  | .http e => (some e.code, e.headers, none)
  | .fault _ => (none, [], none)
  | .nova _ a | .typeError a | .other a =>
    (a.code, a.headers, if a.safe then some (a.name ++ ": " ++ a.message) else none)

/-- `FaultWrapper._error`. -/
def faultOf (statusToType : Nat → HttpError) (e : Raised) : HttpError :=
  let (code, headers, text) := e.exposed
  let outer := statusToType (code.getD 500)
  { outer with
    headers := if headers.isEmpty then outer.headers else headers
    explanation := text.getD outer.explanation }

/-- `FaultWrapper`. -/
def faultWrapper (statusToType : Nat → HttpError) : Except Raised Answer → Answer
  | .ok answer => answer
  | .error e => .returned (.fault (faultOf statusToType e))

end

/-! ## What the client gets -/

/-- A status and a body. -/
structure Reply where
  status : Nat
  body : String
  deriving DecidableEq, Repr

/-- `_fault_names`. -/
def faultNames : List (Nat × String) :=
  [(400, "badRequest"), (401, "unauthorized"), (403, "forbidden"), (404, "itemNotFound"),
    (405, "badMethod"), (409, "conflictingRequest"), (413, "overLimit"), (415, "badMediaType"),
    (429, "overLimit"), (501, "notImplemented"), (503, "serviceUnavailable")]

/-- The entry `retryAfter` of a fault; the names of headers have no case. -/
def HttpError.retryAfter (e : HttpError) : List (String × Json) :=
  if e.code = 413 ∨ e.code = 429 then
    match e.headers.find? (fun h => h.1.toLower = "retry-after") with
    | some (_, t) => if t = "" then [] else [("retryAfter", .str t)]
    | none => []
  else []

/-- `Fault.__call__`. -/
def HttpError.reply (e : HttpError) : Reply :=
  ⟨e.code, dumps (.obj [((faultNames.lookup e.code).getD "computeFault",
    .obj ([("code", .int e.code), ("message", .str e.explanation)] ++ e.retryAfter))])⟩

/-- What `webob` makes of an answer: a text has status 200, and it cannot call a dictionary or a
response object. -/
def Answer.reply : Answer → Option Reply
  | .serialized status obj _ => some ⟨status, (obj.map dumps).getD ""⟩
  | .returned .none => some ⟨200, ""⟩
  | .returned (.text t) => some ⟨200, t⟩
  | .returned (.fault e) => some e.reply
  | .returned (.dict _) | .returned (.object _) => none

/-! ## Hidden messages -/

/-- The same exception, with another message. -/
def Raised.withMessage (m : String) : Raised → Raised
  | .http e => .http e
  | .fault e => .fault e
  | .nova cls a => .nova cls { a with message := m }
  | .typeError a => .typeError { a with message := m }
  | .other a => .other { a with message := m }

/-- No handler puts the message into a response. -/
def Raised.hidden : Raised → Bool
  | .nova .forbidden _ => false
  | .nova .unauthorized a | .nova .other a | .other a => !a.safe
  | .http _ | .fault _ | .typeError _ | .nova .versionNotFoundForAPIMethod _
  | .nova .validationError _ | .nova .invalid _ => true

/-- Exceptions that differ in a hidden message. -/
def Raised.Alike (e e' : Raised) : Prop := e' = e ∨ e.hidden = true ∧ ∃ m, e' = e.withMessage m

/-- Results that differ in a hidden message. -/
def Alike {α : Type} (x y : Except Raised α) : Prop :=
  x = y ∨ ∃ e e', x = .error e ∧ y = .error e' ∧ e.Alike e'

/-- Extensions that do the same, but for a hidden message. -/
def ExtensionsAlike (f g : ResponseExtension) : Prop :=
  ∀ r, (f r).1 = (g r).1 ∧ Alike (f r).2 (g r).2

section

variable (texts : Nat → String) {e e' : Raised}

theorem Raised.Alike.handler (h : e.Alike e') :
    (resourceExceptionHandler texts e).Alike (resourceExceptionHandler texts e') := by
  rcases h with rfl | ⟨hhidden, m, rfl⟩
  · exact .inl rfl
  · cases e with
    | http e => exact .inl rfl
    | fault e => exact .inl rfl
    | typeError a => exact .inl rfl
    | other a => exact .inr ⟨hhidden, m, rfl⟩
    | nova cls a =>
      cases cls with
      | forbidden => cases hhidden
      | versionNotFoundForAPIMethod => exact .inr ⟨rfl, m, rfl⟩
      | validationError => exact .inl rfl
      | invalid => exact .inl rfl
      | unauthorized => exact .inr ⟨hhidden, m, rfl⟩
      | other => exact .inr ⟨hhidden, m, rfl⟩

/-- A decorated method shows no more. -/
theorem Raised.Alike.expectedError (errors : List Nat) (h : e.Alike e') :
    (expectedError errors e).Alike (expectedError errors e') := by
  rcases h with rfl | ⟨hhidden, m, rfl⟩
  · exact .inl rfl
  · cases e with
    | http e => exact .inl rfl
    | fault e => exact .inl rfl
    | typeError a => exact .inl rfl
    | other a => exact .inl rfl
    | nova cls a =>
      cases cls with
      | forbidden => cases hhidden
      | versionNotFoundForAPIMethod => exact .inl rfl
      | validationError => exact .inr ⟨rfl, m, rfl⟩
      | invalid => exact .inl rfl
      | unauthorized => exact .inr ⟨hhidden, m, rfl⟩
      | other => exact .inl rfl

/-- Exceptions that are alike are of one kind. -/
theorem Raised.Alike.kind (h : e.Alike e') :
    ((∃ a, e = .nova .versionNotFoundForAPIMethod a) ∧
      ∃ a, e' = .nova .versionNotFoundForAPIMethod a) ∨
    (∃ f, e = .fault f ∧ e' = .fault f) ∨
    ((∀ a, e ≠ .nova .versionNotFoundForAPIMethod a) ∧ (∀ f, e ≠ .fault f) ∧
      (∀ a, e' ≠ .nova .versionNotFoundForAPIMethod a) ∧ ∀ f, e' ≠ .fault f) := by
  rcases h with rfl | ⟨-, m, rfl⟩
  · cases e' with
    | fault f => exact .inr (.inl ⟨f, rfl, rfl⟩)
    | http e => exact .inr (.inr ⟨by simp, by simp, by simp, by simp⟩)
    | typeError a => exact .inr (.inr ⟨by simp, by simp, by simp, by simp⟩)
    | other a => exact .inr (.inr ⟨by simp, by simp, by simp, by simp⟩)
    | nova cls a =>
      by_cases hcls : cls = .versionNotFoundForAPIMethod
      · subst hcls
        exact .inl ⟨⟨a, rfl⟩, a, rfl⟩
      · exact .inr (.inr ⟨by simp [hcls], by simp, by simp [hcls], by simp⟩)
  · cases e with
    | fault f => exact .inr (.inl ⟨f, rfl, rfl⟩)
    | http e => exact .inr (.inr ⟨by simp, by simp, by simp [withMessage], by simp [withMessage]⟩)
    | typeError a =>
      exact .inr (.inr ⟨by simp, by simp, by simp [withMessage], by simp [withMessage]⟩)
    | other a => exact .inr (.inr ⟨by simp, by simp, by simp [withMessage], by simp [withMessage]⟩)
    | nova cls a =>
      by_cases hcls : cls = .versionNotFoundForAPIMethod
      · subst hcls
        exact .inl ⟨⟨a, rfl⟩, _, rfl⟩
      · exact .inr (.inr ⟨by simp [hcls], by simp, by simp [withMessage, hcls],
          by simp [withMessage]⟩)

theorem Alike.refl {α : Type} (x : Except Raised α) : Alike x x := .inl rfl

theorem Alike.error {α : Type} (h : e.Alike e') :
    Alike (.error e : Except Raised α) (.error e') := .inr ⟨e, e', rfl, rfl, h⟩

/-! ## The three handlers, one after the other -/

theorem dispatch_error (h : ∀ a, e ≠ .nova .versionNotFoundForAPIMethod a) :
    dispatch texts (.error e) = .error e := by
  unfold dispatch
  split
  · next heq =>
    cases heq
    exact absurd rfl (h _)
  · rfl

omit texts in
theorem caught_error (h : ∀ f, e ≠ .fault f) : caught e = .error e := by
  unfold caught
  split
  · exact absurd rfl (h _)
  · rfl

theorem alike_dispatch {x y : Except Raised Returned} (h : Alike x y) :
    Alike (dispatch texts x) (dispatch texts y) := by
  rcases h with rfl | ⟨e, e', rfl, rfl, h⟩
  · exact .refl _
  · rcases h.kind with ⟨⟨a, rfl⟩, a', rfl⟩ | ⟨f, rfl, rfl⟩ | ⟨hv, -, hv', -⟩
    · exact .refl _
    · exact .refl _
    · rw [dispatch_error texts hv, dispatch_error texts hv']
      exact .error h

theorem alike_extensionEnds {x y : Except Raised Returned} (h : Alike x y) :
    (extensionEnds texts x = none ∧ extensionEnds texts y = none) ∨
      ∃ x' y', extensionEnds texts x = some x' ∧ extensionEnds texts y = some y' ∧ Alike x' y' := by
  rcases h with rfl | ⟨e, e', rfl, rfl, h⟩
  · cases extensionEnds texts x with
    | none => exact .inl ⟨rfl, rfl⟩
    | some x' => exact .inr ⟨x', x', rfl, rfl, .refl _⟩
  · unfold extensionEnds
    dsimp only
    rcases (h.handler texts).kind with ⟨⟨a, ha⟩, a', ha'⟩ | ⟨f, hf, hf'⟩ | ⟨hv, hf, hv', hf'⟩
    · rw [ha, ha']
      exact .inl ⟨rfl, rfl⟩
    · rw [hf, hf']
      exact .inr ⟨_, _, rfl, rfl, .refl _⟩
    · refine .inr ⟨.error _, .error _, ?_, ?_, .error (h.handler texts)⟩
      · split
        · next h => exact absurd h (hv _)
        · next h => exact absurd h (hf _)
        · rfl
      · split
        · next h => exact absurd h (hv' _)
        · next h => exact absurd h (hf' _)
        · rfl

/-- **Extensions that are alike**, one after the other. -/
theorem alike_postProcess {fs gs : List ResponseExtension}
    (h : List.Forall₂ ExtensionsAlike fs gs) :
    ∀ r, (postProcess texts fs r).1 = (postProcess texts gs r).1 ∧
      Alike (postProcess texts fs r).2 (postProcess texts gs r).2 := by
  induction h with
  | nil => exact fun r => ⟨rfl, .refl _⟩
  | @cons f g fs gs hfg _ ih =>
    intro r
    obtain ⟨hobject, halike⟩ := hfg r
    unfold postProcess
    rcases alike_extensionEnds texts halike with ⟨hx, hy⟩ | ⟨x', y', hx, hy, hends⟩
    · rw [hx, hy, hobject]
      exact ih (g r).1
    · rw [hx, hy]
      exact ⟨hobject, hends⟩

/-- **Methods and extensions that are alike** are answered alike. -/
theorem alike_respond (wsgiCode : Option Nat) {x y : Except Raised Returned}
    {fs gs : List ResponseExtension} (h : Alike x y) (hexts : List.Forall₂ ExtensionsAlike fs gs) :
    Alike (respond texts wsgiCode x fs) (respond texts wsgiCode y gs) := by
  unfold respond
  rcases alike_dispatch texts h with heq | ⟨e, e', hx, hy, he⟩
  · rw [heq]
    split
    · exact .refl _
    · next v _ =>
      cases v.toResponseObject with
      | none => exact .refl _
      | some r =>
        dsimp only
        obtain ⟨hobject, halike⟩ := alike_postProcess texts hexts
          { r with defaultCode := wsgiCode.getD r.defaultCode }
        generalize postProcess texts fs _ = p at hobject halike
        generalize postProcess texts gs _ = q at hobject halike
        obtain ⟨r₁, x⟩ := p
        obtain ⟨r₂, y⟩ := q
        dsimp only at hobject halike
        subst hobject
        rcases halike with rfl | ⟨e, e', rfl, rfl, he⟩
        · exact .refl _
        · exact .error he
  · rw [hx, hy]
    dsimp only
    rcases (he.handler texts).kind with ⟨⟨a, ha⟩, a', ha'⟩ | ⟨f, hf, hf'⟩ | ⟨-, hf, -, hf'⟩
    · rw [ha, ha']
      exact .error (ha ▸ ha' ▸ he.handler texts)
    · rw [hf, hf']
      exact .refl _
    · rw [caught_error hf, caught_error hf']
      exact .error (he.handler texts)

/-! ## What escapes -/

/-- An exception that leaves the resource. -/
def Escaped (e : Raised) : Prop :=
  (∃ e₀, e = resourceExceptionHandler texts e₀) ∧ (∀ f, e ≠ .fault f) ∧
    ∀ a, e ≠ .nova .versionNotFoundForAPIMethod a

theorem extensionEnds_error {x : Except Raised Returned}
    (h : extensionEnds texts x = some (.error e)) : Escaped texts e := by
  unfold extensionEnds at h
  split at h
  · split at h
    · cases h
    · cases h
  · next e₀ =>
    split at h
    · cases h
    · cases h
    · next hv hf =>
      cases h
      exact ⟨⟨e₀, rfl⟩, hf, hv⟩

theorem postProcess_error : ∀ {exts : List ResponseExtension} {r : ResponseObject},
    (postProcess texts exts r).2 = .error e → Escaped texts e
  | [], _, h => by cases h
  | ext :: exts, r, h => by
    unfold postProcess at h
    split at h
    · next hends =>
      dsimp only at h
      rw [h] at hends
      exact extensionEnds_error texts hends
    · exact postProcess_error h

theorem caught_handler_error {e₀ : Raised} (hv : ∀ a, e₀ ≠ .nova .versionNotFoundForAPIMethod a)
    (h : caught (resourceExceptionHandler texts e₀) = .error e) : Escaped texts e := by
  have hversion (a) :
      resourceExceptionHandler texts e₀ ≠ .nova .versionNotFoundForAPIMethod a := by
    intro ha
    cases e₀ with
    | nova cls b =>
      cases cls with
      | versionNotFoundForAPIMethod => exact hv b rfl
      | forbidden => cases ha
      | validationError => cases ha
      | invalid => cases ha
      | unauthorized => cases ha
      | other => cases ha
    | http e => cases ha
    | fault e => cases ha
    | typeError a => cases ha
    | other a => cases ha
  unfold caught at h
  split at h
  · cases h
  · next hf =>
    cases h
    exact ⟨⟨e₀, rfl⟩, hf, hversion⟩

theorem respond_error {wsgiCode : Option Nat} {x : Except Raised Returned}
    {exts : List ResponseExtension} (h : respond texts wsgiCode x exts = .error e) :
    Escaped texts e := by
  unfold respond at h
  split at h
  · next e₀ hdispatch =>
    refine caught_handler_error texts (fun a ha => ?_) h
    subst ha
    unfold dispatch at hdispatch
    split at hdispatch
    · cases hdispatch
    · next hne =>
      exact hne a hdispatch
  · split at h
    · cases h
    · split at h
      · next hpost =>
        cases h
        exact postProcess_error texts (congrArg Prod.snd hpost)
      · split at h
        · cases h
        · cases h

/-- An exception that escapes is exposed without its message, if that is hidden. -/
theorem faultOf_alike (statusToType : Nat → HttpError) (hescaped : Escaped texts e)
    (h : e.Alike e') : faultOf statusToType e = faultOf statusToType e' := by
  rcases h with rfl | ⟨hhidden, m, rfl⟩
  · rfl
  · obtain ⟨⟨e₀, rfl⟩, hf, hv⟩ := hescaped
    have hunsafe : ∀ a : Attributes, (!a.safe) = true → a.safe = false :=
      fun a ha => by simpa using ha
    cases e₀ with
    | http e => exact absurd rfl (hf e)
    | fault e => exact absurd rfl (hf e)
    | typeError a => exact absurd rfl (hf _)
    | other a =>
      have ha := hunsafe a hhidden
      simp [resourceExceptionHandler, Raised.withMessage, faultOf, Raised.exposed, ha]
    | nova cls a =>
      cases cls with
      | forbidden => exact absurd rfl (hf _)
      | versionNotFoundForAPIMethod => exact absurd rfl (hv a)
      | validationError => rfl
      | invalid => rfl
      | unauthorized =>
        have ha := hunsafe a hhidden
        simp [resourceExceptionHandler, Raised.withMessage, faultOf, Raised.exposed, ha]
      | other =>
        have ha := hunsafe a hhidden
        simp [resourceExceptionHandler, Raised.withMessage, faultOf, Raised.exposed, ha]

theorem faultWrapper_alike (statusToType : Nat → HttpError) (wsgiCode : Option Nat)
    {x y : Except Raised Returned} {fs gs : List ResponseExtension} (h : Alike x y)
    (hexts : List.Forall₂ ExtensionsAlike fs gs) :
    faultWrapper statusToType (respond texts wsgiCode x fs) =
      faultWrapper statusToType (respond texts wsgiCode y gs) := by
  rcases alike_respond texts wsgiCode h hexts with heq | ⟨e, e', hx, hy, he⟩
  · rw [heq]
  · rw [hx, hy]
    exact congrArg (fun f => Answer.returned (.fault f))
      (faultOf_alike texts statusToType (respond_error texts hx) he)

omit texts in
theorem append_longer_ne (s t : String) : s ++ (t ++ "!") ≠ s ++ t := by
  intro heq
  have hlength := congrArg String.length heq
  simp only [String.length_append] at hlength
  have hone : "!".length = 1 := rfl
  omega

omit texts in
/-- A safe exception is exposed with its message. -/
theorem faultOf_safe_ne (statusToType : Nat → HttpError) {a : Attributes} (e e' : Raised)
    (h : e.exposed = (a.code, a.headers, some (a.name ++ ": " ++ a.message)))
    (h' : e'.exposed = (a.code, a.headers, some (a.name ++ ": " ++ (a.message ++ "!")))) :
    faultOf statusToType e' ≠ faultOf statusToType e := by
  intro heq
  unfold faultOf at heq
  rw [h, h'] at heq
  exact append_longer_ne _ _ (HttpError.mk.inj heq).2.1

/-- A message that is not hidden is shown. -/
theorem shown_of_not_hidden (statusToType : Nat → HttpError) (wsgiCode : Option Nat)
    (exts : List ResponseExtension) (h : e.hidden = false) :
    ∃ m, faultWrapper statusToType (respond texts wsgiCode (.error (e.withMessage m)) exts) ≠
      faultWrapper statusToType (respond texts wsgiCode (.error e) exts) := by
  have hsafe : ∀ a : Attributes, (!a.safe) = false → a.safe = true :=
    fun a ha => by simpa using ha
  cases e with
  | http e => cases h
  | fault e => cases h
  | typeError a => cases h
  | other a =>
    refine ⟨a.message ++ "!", fun heq => ?_⟩
    exact faultOf_safe_ne statusToType (a := a) (.other a)
      (.other { a with message := a.message ++ "!" })
      (by simp [Raised.exposed, hsafe a h]) (by simp [Raised.exposed, hsafe a h])
      (Returned.fault.inj (Answer.returned.inj heq))
  | nova cls a =>
    cases cls with
    | forbidden =>
      refine ⟨a.message ++ "!", fun heq => ?_⟩
      have htext := (HttpError.mk.inj (Returned.fault.inj (Answer.returned.inj heq))).2.1
      simp at htext
    | versionNotFoundForAPIMethod => cases h
    | validationError => cases h
    | invalid => cases h
    | unauthorized =>
      refine ⟨a.message ++ "!", fun heq => ?_⟩
      exact faultOf_safe_ne statusToType (a := a) (.nova .unauthorized a)
        (.nova .unauthorized { a with message := a.message ++ "!" })
        (by simp [Raised.exposed, hsafe a h]) (by simp [Raised.exposed, hsafe a h])
        (Returned.fault.inj (Answer.returned.inj heq))
    | other =>
      refine ⟨a.message ++ "!", fun heq => ?_⟩
      exact faultOf_safe_ne statusToType (a := a) (.nova .other a)
        (.nova .other { a with message := a.message ++ "!" })
        (by simp [Raised.exposed, hsafe a h]) (by simp [Raised.exposed, hsafe a h])
        (Returned.fault.inj (Answer.returned.inj heq))

/-- **Hidden messages.** Whatever a method and its extensions do, decorated or not, two runs that
differ in hidden messages are answered alike, and with the same response behind a `FaultWrapper`;
and for any exception of a method that response is independent of the message exactly if it is
hidden. -/
theorem messages_hidden_iff (statusToType : Nat → HttpError) (wsgiCode : Option Nat) :
    (∀ (x y : Except Raised Returned) (fs gs : List ResponseExtension), Alike x y →
      List.Forall₂ ExtensionsAlike fs gs →
      (∀ errors, Alike (expectedErrors errors x) (expectedErrors errors y)) ∧
      Alike (respond texts wsgiCode x fs) (respond texts wsgiCode y gs) ∧
      faultWrapper statusToType (respond texts wsgiCode x fs) =
        faultWrapper statusToType (respond texts wsgiCode y gs)) ∧
    ∀ (e : Raised) (exts : List ResponseExtension),
      (∀ m, faultWrapper statusToType (respond texts wsgiCode (.error (e.withMessage m)) exts) =
        faultWrapper statusToType (respond texts wsgiCode (.error e) exts)) ↔ e.hidden = true := by
  refine ⟨fun x y fs gs h hexts => ⟨fun errors => ?_, alike_respond texts wsgiCode h hexts,
    faultWrapper_alike texts statusToType wsgiCode h hexts⟩, fun e exts => ⟨fun h => ?_,
      fun h m => ?_⟩⟩
  · rcases h with rfl | ⟨e, e', rfl, rfl, he⟩
    · exact .refl _
    · exact .error (he.expectedError errors)
  · cases hhidden : e.hidden with
    | true => rfl
    | false =>
      obtain ⟨m, hm⟩ := shown_of_not_hidden texts statusToType wsgiCode exts hhidden
      exact absurd (h m) hm
  · refine (faultWrapper_alike texts statusToType wsgiCode (.error (.inr ⟨h, m, rfl⟩)) ?_).symm
    exact List.forall₂_same.mpr (fun ext _ r => ⟨rfl, .refl _⟩)

end

/-- A key that is not found. -/
def keyError (key : String) : Raised :=
  .other ⟨"KeyError", "<type 'exceptions.KeyError'>", key, false, none, []⟩

/-- The key is not shown. -/
theorem keyError_hidden : faultWrapper (fun code => ⟨code, "", [], ""⟩)
      (respond (fun _ => "") (some 202) (.error (keyError "admin_token"))
        [fun r => (r, .ok .none)]) =
    faultWrapper (fun code => ⟨code, "", [], ""⟩)
      (respond (fun _ => "") (some 202) (.error (keyError "id")) [fun r => (r, .ok .none)]) :=
  ((messages_hidden_iff (fun _ => "") (fun code => ⟨code, "", [], ""⟩) (some 202)).1
    (.error (keyError "admin_token")) (.error (keyError "id")) [fun r => (r, .ok .none)]
    [fun r => (r, .ok .none)] (.error (.inr ⟨rfl, "id", rfl⟩))
    (.cons (fun _ => ⟨rfl, .refl _⟩) .nil)).2.2

end PolarBear.Wsgi
