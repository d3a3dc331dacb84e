import PolarBear.Api.Submit

/-!
# `CaseController.create`: submitting a single case

Like a plan, a case is inserted, its id is written into the data that came with
the request, and the data is cast to the conductor. The data is the body itself,
which is a dictionary.
-/

namespace PolarBear.Api

open PolarBear.Py
open PolarBear.Fallible

/-- A `TestCase` row; `beginning` and `ending` are whole seconds. -/
structure TestCase where
  id : Nat
  uuid : String
  caseName : String
  status : String
  host : String
  beginning : Nat
  ending : Nat
  message : String
  errors : Int
  deriving DecidableEq, Repr

/-- The `TestCase` table and the conductor's queue of `handle_cases`. -/
structure CaseStore where
  rows : List TestCase
  casts : List Json

variable (coerce : Json → Except PyError String)

/-- The two texts of a valid body, as `StringField` coerces them. -/
structure CaseSubmission where
  host : String
  caseName : String

/-- The lines of `create` before the insert. -/
def caseData (body : List (String × Json)) : Except PyError CaseSubmission := do
  let host ← (Json.obj body).getItem "host"
  let host ← coerce host
  -- the host is coerced before the method is asked for
  let method ← (Json.obj body).getItem "method"
  let caseName ← coerce method
  .ok ⟨host, caseName⟩

/-- The inserted row, with the columns' defaults. -/
def newCase (o : Outcomes) (id : Nat) (c : CaseSubmission) : TestCase where
  id := id
  uuid := o.uuid
  caseName := c.caseName
  status := "initing"
  host := c.host
  beginning := o.beginning
  ending := o.ending
  message := "0"
  errors := 0

/-- `case.create()`. -/
def insertCase (o : Outcomes) (c : CaseSubmission) : EStateM PyError CaseStore Nat := do
  let id ← ofExcept o.insert
  modify (fun store => { store with rows := store.rows ++ [newCase o id c] })
  pure id

/-- `compute_task_api.handle_cases(context, data)`. -/
def handleCases (o : Outcomes) (data : Json) : EStateM PyError CaseStore Unit := do
  ofExcept o.cast
  modify (fun store => { store with casts := store.casts ++ [data] })

/-- The `try` body of `create`. -/
def submitCase (o : Outcomes) (body : List (String × Json)) : EStateM PyError CaseStore Json := do
  let c ← ofExcept (caseData coerce body)
  let id ← insertCase o c
  -- the row is in the table, whatever becomes of the cast
  handleCases o (.obj (Dict.set "id" (.int id) body))
  pure (.obj [("CaseId", .int id)])

/-- `CaseController.create`. -/
def createCase (o : Outcomes) (body : List (String × Json)) : EStateM PyError CaseStore Json :=
  tryCatch (submitCase coerce o body)
    (fun (e : PyError) =>
      if e.cls = .invalid then throw ⟨.httpBadRequest, e.message⟩ else throw e)

section

variable {o : Outcomes} {body : List (String × Json)} {c : CaseSubmission} {store : CaseStore}

/-- The database refuses the row. -/
theorem run_submitCase_refused {e : PyError} (h : caseData coerce body = .ok c)
    (hinsert : o.insert = .error e) :
    (submitCase coerce o body).run store = .error e store := by
  unfold submitCase insertCase
  rw [run_bind_ok (run_ofExcept_ok h store)]
  exact run_bind_error (run_bind_error (run_ofExcept_error hinsert store))

/-- The database takes the row, and the conductor the data. -/
theorem run_submitCase_ok {id : Nat} {u : Unit} (h : caseData coerce body = .ok c)
    (hinsert : o.insert = .ok id) (hcast : o.cast = .ok u) :
    (submitCase coerce o body).run store = .ok (.obj [("CaseId", .int id)])
      ⟨store.rows ++ [newCase o id c],
        store.casts ++ [.obj (Dict.set "id" (.int id) body)]⟩ := by
  have hrow : (insertCase o c).run store =
      .ok id { store with rows := store.rows ++ [newCase o id c] } := by
    unfold insertCase
    rw [run_bind_ok (run_ofExcept_ok hinsert store)]
    rfl
  unfold submitCase handleCases
  rw [run_bind_ok (run_ofExcept_ok h store), run_bind_ok hrow, hcast]
  rfl

end

end PolarBear.Api
