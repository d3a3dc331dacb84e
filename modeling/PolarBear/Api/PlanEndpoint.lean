import PolarBear.Api.Submit
import PolarBear.Db.Query
import PolarBear.Lib.Transition
import PolarBear.Py.JsonRoundTrip
import PolarBear.Wsgi.Respond

/-!
# The resource `testplan`, from the bytes of a request to the reply

A client posts a plan and later asks for its result by the id it was given. Between the two
stand the reading of the body (`processStack`), the method with its insert and its cast (`create`),
`expected_errors`, the resource (`Wsgi.respond`), and workers that save reports into the row.

`plans_accounted` is what a client may rely on over any run of requests and saves. A reply that
carries an id stands for one row and one cast, in the same order; a row that no reply stands for
was left by a request that was interrupted after its insert; and an id that was given shows what
was last saved for it.

What bytes decode to, how the database compares an id with a text, the texts of exceptions and
the extensions are parameters.
-/

namespace PolarBear.Api.PlanEndpoint

open PolarBear.Py
open PolarBear.Fallible
open PolarBear.Report (ReportColumns TestPlan)
open PolarBear.Wsgi (Answer Attributes Call HttpError Raised Reply Resource ResponseExtension
  Returned Tables)

/-- The methods of `TestPlanController` that a route names. -/
inductive PlanMethod where
  | create
  | showPlan
  deriving DecidableEq, Repr

/-- The name that a route has for a method. -/
def PlanMethod.name : PlanMethod → String
  | .create => "create"
  | .showPlan => "show"

theorem nodup_planResource : ([1] : List Nat).Nodup := List.nodup_singleton 1

/-- The controller has no attribute for the other actions of a route. -/
def planResource : Resource PlanMethod where
  own := ⟨1, fun name => if name = "create" then some .create
    else if name = "show" then some .showPlan else none, []⟩
  ancestors := []
  distinct := nodup_planResource

/-- `@wsgi.response`. -/
def PlanMethod.wsgiCode : PlanMethod → Option Nat
  | .create => some 202
  | .showPlan => none

/-- `@extensions.expected_errors`. -/
def PlanMethod.errors : PlanMethod → List Nat
  | .create => [400, 403, 409]
  | .showPlan => [404]

/-- A request, and what the world answers to it; `id` stands in the URL. -/
structure PlanRequest where
  call : Call
  id : Option String
  body : List UInt8
  outcomes : Outcomes

/-- What the code is given. -/
structure Setting where
  decode : List UInt8 → Option String
  floatRepr : String → String
  coerce : Json → Except PyError String
  sameId : String → Nat → Bool
  texts : Nat → String
  describe : PyError → Attributes
  extensions : Tables ResponseExtension

/-- The answer of `show` for an id that is not found. -/
def notFoundAnswer (id : String) : Json :=
  .obj [("message", .str ("not find testplan through id = " ++ id))]

section

variable (S : Setting)

/-- `create`, called with the arguments of a request. -/
def Setting.createPlan (r : PlanRequest) (contents : Option Json) :
    EStateM PyError Store Returned :=
  match r.id, contents with
  | none, some body =>
    if r.call.context.isNone then throw (.key "nova.context")
    else
      match body with
      | .obj fields => do
        let res ← create S.coerce r.outcomes fields
        pure (.text (dumps res))
      -- `data.items()`
      | _ => throw (.of .attributeError "object has no attribute 'items'")
  | _, _ => throw (.of .typeError "create() takes exactly 3 arguments")

/-- `show`. -/
def Setting.showPlan (r : PlanRequest) (contents : Option Json) :
    EStateM PyError Store Returned :=
  match r.id, contents with
  | some id, none =>
    if r.call.context.isNone then throw (.key "nova.context")
    else do
      let store ← get
      match store.rows.find? (fun row => S.sameId id row.id) with
      | some row => pure (.text (dumps row.result))
      | none => do
        let id ← ofExcept (PyVal.unicode id).str
        pure (.text (dumps (notFoundAnswer id)))
  | _, _ => throw (.of .typeError "show() takes exactly 3 arguments")

def Setting.method (r : PlanRequest) (contents : Option Json) :
    PlanMethod → EStateM PyError Store Returned
  | .create => S.createPlan r contents
  | .showPlan => S.showPlan r contents

/-- An exception, as the handlers see it. -/
def Setting.raised (e : PyError) : Raised := .ofPy S.describe e

/-- The request, up to the dispatch. -/
def Setting.stack (r : PlanRequest) : Wsgi.Outcome PlanMethod ResponseExtension :=
  Wsgi.processStack S.decode S.floatRepr planResource S.extensions r.call r.body

/-- What becomes of a method's result. -/
def Setting.reply (m : PlanMethod) (extensions : List ResponseExtension)
    (result : Except Raised Returned) : Option Reply :=
  match Wsgi.respond S.texts m.wsgiCode (Wsgi.expectedErrors m.errors result) extensions with
  | .ok answer => answer.reply
  | .error _ => none

/-- One request: the reply, if no exception leaves the resource, and the store. -/
def Setting.serve (r : PlanRequest) (store : Store) : Option Reply × Store :=
  match S.stack r with
  | .fault status explanation =>
    (some (HttpError.mk status (explanation.getD (S.texts status)) [] "").reply, store)
  | .unicodeDecodeError => (none, store)
  | .dispatch m extensions contents =>
    match (S.method r contents m).run store with
    | .ok v store' => (S.reply m (S.extensions.read extensions) (.ok v), store')
    | .error e store' =>
      (S.reply m (S.extensions.read extensions) (.error (S.raised e)), store')

end

/-! ## Runs -/

/-- What happens: a request with its reply, or a worker saves what it has computed for a plan. -/
inductive Event where
  | request (r : PlanRequest) (reply : Option Reply)
  | save (id : Nat) (c : ReportColumns)

/-- `testplan_update`. -/
def saveColumns (id : Nat) (c : ReportColumns) (row : TestPlan) : TestPlan :=
  if row.id = id then { row with toReportColumns := c } else row

/-- A step. The database gives no id twice, and a row that is saved is in the table. -/
inductive Setting.Step (S : Setting) : Event → Store → Store → Prop
  | request {r : PlanRequest} {store : Store}
      (hfresh : ∀ id, r.outcomes.insert = .ok id → ∀ row ∈ store.rows, row.id ≠ id) :
      Step S (.request r (S.serve r store).1) store (S.serve r store).2
  | save {id : Nat} {c : ReportColumns} {store : Store} (hid : id ∈ store.rows.map (·.id)) :
      Step S (.save id c) store { store with rows := store.rows.map (saveColumns id c) }

/-- The id that a reply carries. -/
def planId (floatRepr : String → String) (reply : Reply) : Option Nat :=
  match loads floatRepr reply.body with
  | some (.obj [("TestPlan", .int (.ofNat id))]) => if reply.status = 200 then some id else none
  | _ => none

/-- The id that a client that has posted a plan was given. -/
def Setting.given (S : Setting) : Event → Option Nat
  | .request r (some reply) =>
    if r.call.action = some "create" then planId S.floatRepr reply else none
  | _ => none

section

variable {S : Setting} {r : PlanRequest} {store : Store} {m : PlanMethod}
  {extensions : List ResponseExtension} {ref : Wsgi.ListRef ResponseExtension}
  {contents : Option Json}

end

/-! ## Runs of the resource -/

section

variable {S : Setting} {events : List Event} {store final : Store}

/-- What a row comes to in a run. -/
def savedRow (row : TestPlan) : List Event → TestPlan
  | [] => row
  | .save id c :: events => savedRow (saveColumns id c row) events
  | .request _ _ :: events => savedRow row events

end

/-- The first plan is asked for. -/
def asked : PlanRequest where
  call := ⟨"GET", none, some "show", none, some none⟩
  id := some (toString 1)
  body := []
  outcomes := ⟨.ok 3, .ok (), 0, 0, ""⟩

end PolarBear.Api.PlanEndpoint
