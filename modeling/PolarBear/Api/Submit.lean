import PolarBear.Lib.Fallible
import PolarBear.Report.Record

/-!
# `TestPlanController.create`: submitting a plan

A submission validates the body, inserts a `TestPlan` row, writes the new id
into the user's environment and casts `handle_testplan` with it. The insert
commits on its own, so whatever fails after it leaves a row without a plan
behind: an environment that is not a dictionary (`template()` checks the type,
`environment()` does not), or the cast.

`create_atomic_iff` is the exact boundary. The coercion of a `StringField`, the
database's answer to the insert and the outcome of the cast are parameters.
-/

namespace PolarBear.Api

open PolarBear.Py
open PolarBear.Fallible
open PolarBear.Report (TestPlan)

/-- The data of a cast `handle_testplan`. -/
structure PlanMessage where
  name : Json
  environment : Json
  testplan : Json

/-- What a submission changes: the `TestPlan` table and the conductor's queue. -/
structure Store where
  rows : List TestPlan
  casts : List PlanMessage

/-- What the world answers: the id the insert gives or its exception, the
outcome of the cast, the clock, which is read for each of the two columns, and
the generated uuid. -/
structure Outcomes where
  insert : Except PyError Nat
  cast : Except PyError Unit
  beginning : Nat
  ending : Nat
  uuid : String

/-! ## `InstantiationData` -/

def testplanName (data : List (String × Json)) : Except PyError Json :=
  match data.lookup "name" with
  | some name => .ok name
  | none => .error (.of .httpBadRequest "No stack name specified")

def template (data : List (String × Json)) : Except PyError Json :=
  match data.lookup "testplan" with
  | some templateData =>
    if templateData.isDict then .ok templateData
    else .error (.of .httpBadRequest "testplan format is not correct")
  | none => .error (.of .httpBadRequest "body has not testplan")

/-- The type of the environment is not looked at. -/
def environment (data : List (String × Json)) : Except PyError Json :=
  match data.lookup "environment" with
  | some envData => .ok envData
  | none => .error (.of .httpBadRequest "body has not testplan")

/-! ## `create` -/

variable (coerce : Json → Except PyError String)

/-- What a valid body says; `text` is the name as `StringField` coerces it. -/
structure Submission where
  name : Json
  text : String
  testplan : Json
  environment : Json

/-- The lines of `create` before the insert. -/
def validate (body : List (String × Json)) : Except PyError Submission := do
  let name ← testplanName body
  let testplans ← template body
  let environment ← environment body
  let text ← coerce name
  .ok ⟨name, text, testplans, environment⟩

/-- The inserted row, with the columns' defaults. -/
def newRow (o : Outcomes) (id : Nat) (text : String) : TestPlan where
  id := id
  uuid := o.uuid
  testplanName := text
  status := "initing"
  beginning := o.beginning
  ending := o.ending
  message := ""
  result := .obj []
  summary := .obj []

/-- `testplan.create()`. -/
def insertPlan (o : Outcomes) (text : String) : EStateM PyError Store Nat := do
  let id ← ofExcept o.insert
  modify (fun store => { store with rows := store.rows ++ [newRow o id text] })
  pure id

/-- `compute_task_api.handle_testplan(context, name, environment, testplan)`. -/
def handleTestplan (o : Outcomes) (message : PlanMessage) : EStateM PyError Store Unit := do
  ofExcept o.cast
  modify (fun store => { store with casts := store.casts ++ [message] })

/-- The `try` body of `create`. -/
def submit (o : Outcomes) (body : List (String × Json)) : EStateM PyError Store Json := do
  let s ← ofExcept (validate coerce body)
  let id ← insertPlan o s.text
  let environment ← ofExcept (s.environment.setItem "id" (.int id))
  handleTestplan o ⟨s.name, environment, s.testplan⟩
  let res ← ofExcept (environment.getItem "id")
  pure (.obj [("TestPlan", res)])

/-- `create`; the result is the value its answer is dumped from. -/
def create (o : Outcomes) (body : List (String × Json)) : EStateM PyError Store Json :=
  tryCatch (submit coerce o body)
    (fun (e : PyError) =>
      if e.cls = .invalid then throw ⟨.httpBadRequest, e.message⟩ else throw e)

/-! ## Atomicity -/

/-- All or nothing: the new plan's id is returned, with its row inserted and
its message cast, or an exception is raised and nothing changed. -/
def Atomic (before : Store) : EStateM.Result PyError Store Json → Prop
  | .ok res after => ∃ row message, res = .obj [("TestPlan", .int row.id)] ∧
      after.rows = before.rows ++ [row] ∧ after.casts = before.casts ++ [message] ∧
      message.environment.getItem "id" = .ok (.int row.id)
  | .error _ after => after = before

/-- The submission fails after the insert. -/
def Interrupted (o : Outcomes) (body : List (String × Json)) : Prop :=
  ∃ s id, validate coerce body = .ok s ∧ o.insert = .ok id ∧
    (s.environment.isDict = false ∨ ∃ e, o.cast = .error e)

/-- The handler changes the exception, not the state. -/
theorem create_atomic_iff_submit (o : Outcomes) (body : List (String × Json)) (store : Store) :
    Atomic store ((create coerce o body).run store) ↔
      Atomic store ((submit coerce o body).run store) := by
  unfold create
  rw [run_tryCatch]
  cases (submit coerce o body).run store with
  | ok res after => exact Iff.rfl
  | error e after =>
    dsimp only
    split
    · exact Iff.rfl
    · exact Iff.rfl

theorem getItem_set (fields : List (String × Json)) (k : String) (v : Json) :
    (Json.obj (Dict.set k v fields)).getItem k = .ok v := by
  show (match (Dict.set k v fields).lookup k with | some v => _ | none => _) = _
  rw [Dict.lookup_set_self]

section

variable {o : Outcomes} {body : List (String × Json)} {s : Submission} {store : Store}

theorem run_submit_invalid {e : PyError} (h : validate coerce body = .error e) :
    (submit coerce o body).run store = .error e store := by
  unfold submit
  exact run_bind_error (run_ofExcept_error h store)

/-- The row an insert leaves. -/
def Store.inserted (store : Store) (row : TestPlan) : Store :=
  { store with rows := store.rows ++ [row] }

theorem run_insertPlan {id : Nat} (hinsert : o.insert = .ok id) (text : String) :
    (insertPlan o text).run store = .ok id (store.inserted (newRow o id text)) := by
  unfold insertPlan
  rw [run_bind_ok (run_ofExcept_ok hinsert store)]
  rfl

theorem run_handleTestplan {u : Unit} (hcast : o.cast = .ok u) (message : PlanMessage) :
    (handleTestplan o message).run store =
      .ok () { store with casts := store.casts ++ [message] } := by
  unfold handleTestplan
  rw [run_bind_ok (run_ofExcept_ok hcast store)]
  rfl

theorem run_submit_refused {e : PyError} (h : validate coerce body = .ok s)
    (hinsert : o.insert = .error e) :
    (submit coerce o body).run store = .error e store := by
  unfold submit insertPlan
  rw [run_bind_ok (run_ofExcept_ok h store)]
  exact run_bind_error (run_bind_error (run_ofExcept_error hinsert store))

/-- An environment that takes no item leaves the row without a cast. -/
theorem run_submit_no_dict {id : Nat} {e : PyError} (h : validate coerce body = .ok s)
    (hinsert : o.insert = .ok id) (henv : s.environment.setItem "id" (.int id) = .error e) :
    (submit coerce o body).run store = .error e (store.inserted (newRow o id s.text)) := by
  unfold submit
  rw [run_bind_ok (run_ofExcept_ok h store), run_bind_ok (run_insertPlan hinsert s.text)]
  exact run_bind_error (run_ofExcept_error henv _)

/-- With a dictionary, the cast decides. -/
theorem run_submit_dict {id : Nat} {fields : List (String × Json)}
    (h : validate coerce body = .ok s) (hinsert : o.insert = .ok id)
    (henv : s.environment = .obj fields) :
    (submit coerce o body).run store =
      let inserted := store.inserted (newRow o id s.text)
      let environment := Json.obj (Dict.set "id" (.int id) fields)
      match o.cast with
      | .ok _ => .ok (.obj [("TestPlan", .int id)])
          { inserted with casts := store.casts ++ [⟨s.name, environment, s.testplan⟩] }
      | .error e => .error e inserted := by
  have hset : s.environment.setItem "id" (.int id)
      = .ok (.obj (Dict.set "id" (.int id) fields)) := by
    rw [henv]
    rfl
  unfold submit
  rw [run_bind_ok (run_ofExcept_ok h store), run_bind_ok (run_insertPlan hinsert s.text),
    run_bind_ok (run_ofExcept_ok hset _)]
  cases hcast : o.cast with
  | error e => exact run_bind_error (run_bind_error (run_ofExcept_error hcast _))
  | ok u =>
    have hget := getItem_set fields "id" (.int id)
    rw [run_bind_ok (run_handleTestplan hcast _), run_bind_ok (run_ofExcept_ok hget _)]
    rfl

/-- A store with a row more is another store. -/
theorem inserted_ne (store : Store) (row : TestPlan) : store.inserted row ≠ store := by
  intro h
  have hlen := congrArg (fun s => s.rows.length) h
  simp [Store.inserted] at hlen

end

theorem isDict_iff {j : Json} : j.isDict = true ↔ ∃ fields, j = .obj fields := by
  cases j <;> simp [Json.isDict]

theorem setItem_error {j v : Json} {k : String} (h : j.isDict = false) :
    ∃ e, j.setItem k v = .error e := by
  cases j with
  | obj fields => cases h
  | _ => exact ⟨_, rfl⟩

/-- **When a submission is atomic**: unless it is interrupted after the
insert. -/
theorem create_atomic_iff (o : Outcomes) (body : List (String × Json)) (store : Store) :
    Atomic store ((create coerce o body).run store) ↔ ¬ Interrupted coerce o body := by
  rw [create_atomic_iff_submit]
  unfold Interrupted
  cases hvalid : validate coerce body with
  | error e =>
    refine ⟨fun _ h => ?_, fun _ => ?_⟩
    · obtain ⟨_, _, h, -⟩ := h
      cases h
    · rw [run_submit_invalid coerce hvalid]
      rfl
  | ok s =>
    cases hinsert : o.insert with
    | error e =>
      refine ⟨fun _ h => ?_, fun _ => ?_⟩
      · obtain ⟨_, _, -, h, -⟩ := h
        cases h
      · rw [run_submit_refused coerce hvalid hinsert]
        rfl
    | ok id =>
      cases henv : s.environment.isDict with
      | false =>
        -- the row is there, and nothing else
        obtain ⟨e, hset⟩ := setItem_error (k := "id") (v := .int id) henv
        rw [run_submit_no_dict coerce hvalid hinsert hset]
        refine ⟨fun h => absurd h (inserted_ne store _), fun h => ?_⟩
        exact (h ⟨s, id, rfl, rfl, Or.inl henv⟩).elim
      | true =>
        obtain ⟨fields, hfields⟩ := isDict_iff.mp henv
        rw [run_submit_dict coerce hvalid hinsert hfields]
        cases hcast : o.cast with
        | ok u =>
          refine ⟨fun _ h => ?_, fun _ => ?_⟩
          · obtain ⟨s', _, hs, -, hbad⟩ := h
            cases hs
            rcases hbad with hdict | ⟨_, hraise⟩
            · rw [henv] at hdict
              cases hdict
            · cases hraise
          · exact ⟨newRow o id s.text, ⟨s.name, .obj (Dict.set "id" (.int id) fields),
              s.testplan⟩, rfl, rfl, rfl, getItem_set fields "id" _⟩
        | error e =>
          -- the row is there, the message is not
          refine ⟨fun h => absurd h (inserted_ne store _), fun h => ?_⟩
          exact (h ⟨s, id, rfl, rfl, Or.inr ⟨e, rfl⟩⟩).elim

/-- `StringField` on the JSON values it takes. -/
def coerceString : Json → Except PyError String
  | .str s => .ok s
  | .int n => .ok (toString n)
  | .float r => .ok r
  | .bool b => .ok (if b then "True" else "False")
  | _ => .error (.of .valueError "a string is required")

/-- A body without an environment to speak of: the row stays, the request
fails. -/
theorem create_null_environment_not_atomic :
    ¬ Atomic ⟨[], []⟩ ((create coerceString ⟨.ok 1, .ok (), 0, 0, ""⟩
      [("name", .str "nightly"), ("testplan", .obj []), ("environment", .null)]).run ⟨[], []⟩) := by
  intro h
  have hrows : [newRow ⟨.ok 1, .ok (), 0, 0, ""⟩ 1 "nightly"] = [] := congrArg Store.rows h
  cases hrows

end PolarBear.Api
