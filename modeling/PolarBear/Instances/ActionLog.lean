import PolarBear.Db.Query
import PolarBear.Lib.Fallible
import PolarBear.Lib.Table

/-!
# The log of actions on instances

A request that acts on an instance starts an action, and what is done for it is reported as events
of the action: an `EventReporter` starts an event when it is entered and finishes it when it is
left. The event is looked up again to be finished, by the action of the request and by its name; a
context without a project takes the last action of the instance where the request has none. A
query without an order gives rows by their ids.

So a reporter may finish the event of another one: that of an earlier reporter with the same name,
or one of an action that was started in between. `actionLog_right_iff` is the exact boundary over
runs, and says what the log shows within it.
-/

namespace PolarBear.Instances

open Db
open Transition (Run)

/-- A row of `instance_actions`. -/
structure InstanceAction where
  id : Nat
  action : String
  instanceUuid : String
  requestId : String
  startTime : Nat
  finishTime : Option Nat
  message : Option String
  createdAt : Nat
  deleted : Nat
  deriving DecidableEq, Repr

/-- What is written at the end of an event. -/
structure EventEnd where
  finishTime : Nat
  result : String
  traceback : Option String
  deriving DecidableEq, Repr

/-- A row of `instance_actions_events`. -/
structure ActionEvent where
  id : Nat
  event : String
  actionId : Nat
  startTime : Nat
  finish : Option EventEnd
  deleted : Nat
  deriving DecidableEq, Repr

/-- Both tables. -/
structure ActionLog where
  actions : Table InstanceAction InstanceAction.id
  events : Table ActionEvent ActionEvent.id

/-- The exceptions. -/
inductive LogError where
  | nova (e : NovaError)
  | instanceActionNotFound (requestId instanceUuid : String)
  | instanceActionEventNotFound (actionId : Nat) (event : String)
  deriving DecidableEq, Repr

/-! ## Actions -/

/-- `action_start`. -/
def actionStart (instanceUuid requestId action : String) (startTime now : Nat) (log : ActionLog) :
    ActionLog :=
  ⟨log.actions.insert
    (fun id => ⟨id, action, instanceUuid, requestId, startTime, none, none, now, 0⟩)
    (fun _ => rfl), log.events⟩

/-- An action of a request. -/
def InstanceAction.ofRequest (shown : Nat → Bool) (instanceUuid requestId : String)
    (a : InstanceAction) : Bool :=
  shown a.deleted && a.instanceUuid == instanceUuid && a.requestId == requestId

/-- `action_finish`. -/
def actionFinish (ctxt : Context) (instanceUuid requestId : String) (finishTime : Nat)
    (log : ActionLog) : Except LogError ActionLog := do
  let shown ← (modelQuery ctxt none).mapError .nova
  let asked := InstanceAction.ofRequest shown instanceUuid requestId
  if (log.actions.rows.filter asked).length = 1 then
    pure ⟨log.actions.modify asked (fun a => { a with finishTime := some finishTime })
      (fun _ => rfl), log.events⟩
  else throw (.instanceActionNotFound requestId instanceUuid)

/-- `_action_get_by_request_id`. -/
def actionGetByRequestId (shown : Nat → Bool) (instanceUuid requestId : String)
    (log : ActionLog) : Option InstanceAction :=
  log.actions.rows.find? (InstanceAction.ofRequest shown instanceUuid requestId)

/-- `order_by(desc("created_at"), desc("id"))`. -/
def InstanceAction.before (a b : InstanceAction) : Bool :=
  decide (b.createdAt < a.createdAt) || (a.createdAt == b.createdAt && decide (b.id < a.id))

def laterAction (last : Option InstanceAction) (a : InstanceAction) : Option InstanceAction :=
  match last with
  | some b => if a.before b then some a else some b
  | none => some a

/-- The first row in that order. -/
def lastCreated (rows : List InstanceAction) : Option InstanceAction := rows.foldl laterAction none

/-- `_action_get_last_created_by_instance_uuid`. -/
def actionGetLastCreatedByInstanceUuid (shown : Nat → Bool) (instanceUuid : String)
    (log : ActionLog) : Option InstanceAction :=
  lastCreated (log.actions.rows.filter (fun a => shown a.deleted && a.instanceUuid == instanceUuid))

/-- The action that an event belongs to. -/
def findAction (ctxt : Context) (shown : Nat → Bool) (instanceUuid requestId : String)
    (log : ActionLog) : Option InstanceAction :=
  match actionGetByRequestId shown instanceUuid requestId log with
  | some a => some a
  | none =>
    if truthy ctxt.projectId then none
    else actionGetLastCreatedByInstanceUuid shown instanceUuid log

/-! ## Events -/

/-- `action_event_start`, with the id of the row. -/
def actionEventStart (ctxt : Context) (instanceUuid requestId event : String) (startTime : Nat)
    (log : ActionLog) : Except LogError (Nat × ActionLog) := do
  let shown ← (modelQuery ctxt none).mapError .nova
  match findAction ctxt shown instanceUuid requestId log with
  | none => throw (.instanceActionNotFound requestId instanceUuid)
  | some a => pure (log.events.next, ⟨log.actions,
      log.events.insert (fun id => ⟨id, event, a.id, startTime, none, 0⟩) (fun _ => rfl)⟩)

/-- An event of an action, by its name. -/
def ActionEvent.named (shown : Nat → Bool) (actionId : Nat) (event : String) (r : ActionEvent) :
    Bool :=
  shown r.deleted && r.actionId == actionId && r.event == event

/-- `values['result'].lower() == 'error'`. -/
def EventEnd.isError (e : EventEnd) : Bool :=
  e.result.toList.map Char.toLower == ['e', 'r', 'r', 'o', 'r']

/-- `action_event_finish`. -/
def actionEventFinish (ctxt : Context) (instanceUuid requestId event : String) (finish : EventEnd)
    (log : ActionLog) : Except LogError ActionLog := do
  let shown ← (modelQuery ctxt none).mapError .nova
  match findAction ctxt shown instanceUuid requestId log with
  | none => throw (.instanceActionNotFound requestId instanceUuid)
  | some a =>
    match log.events.rows.find? (ActionEvent.named shown a.id event) with
    | none => throw (.instanceActionEventNotFound a.id event)
    | some r => pure ⟨
        if finish.isError then log.actions.modify (fun b => b.id == a.id)
          (fun b => { b with message := some "Error" }) (fun _ => rfl)
        else log.actions,
        log.events.modify (fun b => b.id == r.id)
          (fun b => { b with finish := some finish }) (fun _ => rfl)⟩

/-! ## What the calls write -/

/-- The action shows an error. -/
def flagged (log : ActionLog) (id : Nat) : Bool :=
  (log.actions.byId id).any (fun a => a.message == some "Error")

variable {ctxt : Context} {u q event : String} {log log' : ActionLog}

theorem flagged_actionStart (action : String) (startTime now : Nat) (id : Nat) :
    flagged (actionStart u q action startTime now log) id = flagged log id := by
  unfold flagged actionStart
  dsimp only
  rw [Table.byId_insert]
  split
  · next h =>
    rw [h, Table.byId_next]
    rfl
  · rfl

/-- `action_finish` writes a time, if it writes. -/
theorem actionFinish_ok {finishTime : Nat} (h : actionFinish ctxt u q finishTime log = .ok log') :
    log'.events = log.events ∧ ∀ id, flagged log' id = flagged log id := by
  unfold actionFinish at h
  obtain ⟨shown, -, h⟩ := Fallible.bind_ok_iff.mp h
  dsimp only at h
  split at h
  · cases h
    refine ⟨rfl, fun id => ?_⟩
    unfold flagged
    dsimp only
    rw [Table.byId_modify]
    cases log.actions.byId id with
    | none => rfl
    | some a =>
      rw [Option.map_some, Option.any_some, Option.any_some]
      split <;> rfl
  · cases h

theorem ok_of_mapError {ε ε' α : Type} {f : ε → ε'} {x : Except ε α} {a : α}
    (h : x.mapError f = .ok a) : x = .ok a := by
  cases x with
  | error e => cases h
  | ok b =>
    cases h
    rfl

theorem actionEventStart_ok {startTime e : Nat}
    (h : actionEventStart ctxt u q event startTime log = .ok (e, log')) :
    ∃ shown a, modelQuery ctxt none = .ok shown ∧ findAction ctxt shown u q log = some a ∧
      e = log.events.next ∧ log'.actions = log.actions ∧
      log'.events = log.events.insert (fun id => ⟨id, event, a.id, startTime, none, 0⟩)
        (fun _ => rfl) := by
  unfold actionEventStart at h
  obtain ⟨shown, hshown, h⟩ := Fallible.bind_ok_iff.mp h
  split at h
  · cases h
  · next a ha =>
    cases h
    exact ⟨shown, a, ok_of_mapError hshown, ha, rfl, rfl, rfl⟩

/-- The event that `action_event_finish` writes to, and its action. -/
def FindsEvent (ctxt : Context) (u q event : String) (log : ActionLog) (actionId e : Nat) : Prop :=
  ∃ shown a r, modelQuery ctxt none = .ok shown ∧ findAction ctxt shown u q log = some a ∧
    log.events.rows.find? (ActionEvent.named shown a.id event) = some r ∧ a.id = actionId ∧ r.id = e

theorem laterAction_cases (last : Option InstanceAction) (a : InstanceAction) :
    laterAction last a = last ∨ laterAction last a = some a := by
  unfold laterAction
  split
  · split
    · exact .inr rfl
    · exact .inl rfl
  · exact .inr rfl

theorem mem_lastCreated {rows : List InstanceAction} {a : InstanceAction}
    (h : lastCreated rows = some a) : a ∈ rows := by
  have hfold : ∀ (rows : List InstanceAction) (last : Option InstanceAction),
      rows.foldl laterAction last = some a → last = some a ∨ a ∈ rows := by
    intro rows
    induction rows with
    | nil => exact fun last h => .inl h
    | cons b rows ih =>
      intro last h
      rcases ih _ h with hlast | hmem
      · rcases laterAction_cases last b with hl | hl
        · exact .inl (hl ▸ hlast)
        · rw [hl] at hlast
          cases hlast
          exact .inr (List.mem_cons_self ..)
      · exact .inr (List.mem_cons_of_mem _ hmem)
  exact (hfold rows none h).resolve_left (Option.some_ne_none a).symm

theorem mem_of_findAction {shown : Nat → Bool} {a : InstanceAction}
    (h : findAction ctxt shown u q log = some a) : a ∈ log.actions.rows := by
  unfold findAction at h
  split at h
  · next b hb =>
    cases h
    exact List.mem_of_find?_eq_some hb
  · split at h
    · cases h
    · exact (List.mem_filter.mp (mem_lastCreated h)).1

/-- **`action_event_finish`** writes to one event, and to its action if that ended in an error. -/
theorem actionEventFinish_ok {finish : EventEnd}
    (h : actionEventFinish ctxt u q event finish log = .ok log') :
    ∃ actionId e, FindsEvent ctxt u q event log actionId e ∧
      (∀ id, log'.events.byId id = (log.events.byId id).map (fun r =>
        if r.id = e then { r with finish := some finish } else r)) ∧
      ∀ id, flagged log' id = (flagged log id || (finish.isError && id == actionId)) := by
  unfold actionEventFinish at h
  obtain ⟨shown, hshown, h⟩ := Fallible.bind_ok_iff.mp h
  split at h
  · cases h
  · next a ha =>
    split at h
    · cases h
    · next r hr =>
      cases h
      refine ⟨a.id, r.id, ⟨shown, a, r, ok_of_mapError hshown, ha, hr, rfl, rfl⟩,
        fun id => ?_, fun id => ?_⟩
      · dsimp only
        rw [Table.byId_modify]
        simp only [beq_iff_eq]
      · have hbyId : log.actions.byId a.id = some a :=
          log.actions.byId_iff.mpr ⟨mem_of_findAction ha, rfl⟩
        unfold flagged
        dsimp only
        by_cases herror : finish.isError = true
        · rw [if_pos herror, herror, Bool.true_and, Table.byId_modify]
          by_cases hid : id = a.id
          · rw [hid, hbyId, beq_self_eq_true, Bool.or_true, Option.map_some,
              if_pos (beq_self_eq_true a.id)]
            rfl
          · rw [beq_false_of_ne hid, Bool.or_false]
            cases hb : log.actions.byId id with
            | none => rfl
            | some b =>
              have hne : b.id ≠ a.id := fun h => hid ((log.actions.byId_iff.mp hb).2.symm.trans h)
              rw [Option.map_some, if_neg (fun h => hne (beq_iff_eq.mp h))]
        · rw [if_neg herror, Bool.eq_false_iff.mpr herror, Bool.false_and, Bool.or_false]

/-- It returns where the event is there. -/
theorem actionEventFinish_of_finds (finish : EventEnd) {actionId e : Nat}
    (h : FindsEvent ctxt u q event log actionId e) :
    ∃ log', actionEventFinish ctxt u q event finish log = .ok log' := by
  obtain ⟨shown, a, r, hctxt, ha, hr, -, -⟩ := h
  unfold actionEventFinish
  rw [hctxt]
  simp only [Except.mapError, bind, Except.bind, ha, hr]
  exact ⟨_, rfl⟩

theorem FindsEvent.unique {a b e f : Nat} (h : FindsEvent ctxt u q event log a e)
    (h' : FindsEvent ctxt u q event log b f) : a = b ∧ e = f := by
  obtain ⟨shown, x, r, hctxt, hx, hr, rfl, rfl⟩ := h
  obtain ⟨shown', x', r', hctxt', hx', hr', rfl, rfl⟩ := h'
  rw [hctxt] at hctxt'
  cases hctxt'
  rw [hx] at hx'
  cases hx'
  rw [hr] at hr'
  cases hr'
  exact ⟨rfl, rfl⟩

/-! ## Reporters -/

/-- An `EventReporter` for one instance; `result` and `traceback` say how its block ends. The
objects it calls give the database the instance, the request of the context and the event. -/
structure EventReporter where
  ctxt : Context
  instanceUuid : String
  requestId : String
  event : String
  result : String
  traceback : Option String

def EventReporter.finish (p : EventReporter) (now : Nat) : EventEnd := ⟨now, p.result, p.traceback⟩

/-- `__enter__`. -/
def EventReporter.enter (p : EventReporter) (now : Nat) (log : ActionLog) :
    Except LogError (Nat × ActionLog) :=
  actionEventStart p.ctxt p.instanceUuid p.requestId p.event now log

/-- `__exit__`. -/
def EventReporter.exit (p : EventReporter) (now : Nat) (log : ActionLog) :
    Except LogError ActionLog :=
  actionEventFinish p.ctxt p.instanceUuid p.requestId p.event (p.finish now) log

/-! ## Runs -/

/-- The log, the events that reporters have opened, and how they were closed. -/
structure Reporting (κ : Type) where
  log : ActionLog
  opened : κ → Option Nat
  closed : κ → Option EventEnd
  clock : Nat

/-- What happens to the log. -/
inductive LogStep (κ : Type) where
  | start (instanceUuid requestId action : String) (startTime : Nat)
  | finish (ctxt : Context) (instanceUuid requestId : String)
  | enter (k : κ)
  | exit (k : κ)

section

variable {κ : Type} [DecidableEq κ] (reporter : κ → EventReporter)

/-- A step at a later time. A call that raises changes nothing; a block that is left is left, even
if that raises. -/
def logStep (l : LogStep κ × Nat) (s s' : Reporting κ) : Prop :=
  s.clock < l.2 ∧
  match l.1 with
  | .start u r action startTime =>
    s' = { s with log := actionStart u r action startTime l.2 s.log, clock := l.2 }
  | .finish ctxt u r =>
    s' = { s with log := ((actionFinish ctxt u r l.2 s.log).toOption).getD s.log, clock := l.2 }
  | .enter k =>
    s.opened k = none ∧
    match (reporter k).enter l.2 s.log with
    | .ok (e, log) =>
      s' = { s with log := log, opened := Function.update s.opened k (some e), clock := l.2 }
    | .error _ => s' = { s with clock := l.2 }
  | .exit k =>
    (s.opened k).isSome ∧ s.closed k = none ∧
    s' = { s with
      log := ((reporter k).exit l.2 s.log).toOption.getD s.log
      closed := Function.update s.closed k (some ((reporter k).finish l.2))
      clock := l.2 }

/-- A reporter that is left finishes the event it has opened. -/
def FinishesOwn (l : LogStep κ × Nat) (s s' : Reporting κ) : Prop :=
  ∀ k, l.1 = .exit k → ∀ e, s.opened k = some e →
    ∃ r, s'.log.events.byId e = some r ∧ r.finish = some ((reporter k).finish l.2)

/-- The event of the reporter is of the action that is looked up, and no event that is seen of this
action and name comes before it. -/
def FindsOwn (l : LogStep κ × Nat) (s : Reporting κ) : Prop :=
  ∀ k, l.1 = .exit k → ∀ e, s.opened k = some e →
    ∃ shown a r, modelQuery (reporter k).ctxt none = .ok shown ∧
      findAction (reporter k).ctxt shown (reporter k).instanceUuid (reporter k).requestId s.log =
        some a ∧
      s.log.events.byId e = some r ∧ r.named shown a.id (reporter k).event = true ∧
      ∀ r' ∈ s.log.events.rows, r'.named shown a.id (reporter k).event = true → e ≤ r'.id

/-- What every step keeps. -/
structure Reporting.WellFormed (s : Reporting κ) : Prop where
  row : ∀ k e, s.opened k = some e → ∃ r, s.log.events.byId e = some r
  once : ∀ k j e, s.opened k = some e → s.opened j = some e → k = j
  past : ∀ e r, s.log.events.byId e = some r → ∀ f, r.finish = some f → f.finishTime ≤ s.clock
  closed : ∀ k, s.opened k = none → s.closed k = none

variable {reporter} {s s' : Reporting κ} {l : LogStep κ × Nat}

/-- **What a step does**: it leaves the events alone, opens one, or leaves a block. -/
theorem logStep_cases (h : logStep reporter l s s') :
    s.clock < l.2 ∧ s'.clock = l.2 ∧
    ((s'.log.events = s.log.events ∧ (∀ id, flagged s'.log id = flagged s.log id) ∧
      s'.opened = s.opened ∧ s'.closed = s.closed ∧ ∀ k, l.1 ≠ .exit k) ∨
    (∃ k actionId, l.1 = .enter k ∧ s.opened k = none ∧
      s'.log.events = s.log.events.insert
        (fun id => ⟨id, (reporter k).event, actionId, l.2, none, 0⟩) (fun _ => rfl) ∧
      (∀ id, flagged s'.log id = flagged s.log id) ∧
      s'.opened = Function.update s.opened k (some s.log.events.next) ∧ s'.closed = s.closed) ∨
    (∃ k, l.1 = .exit k ∧ (s.opened k).isSome ∧ s.closed k = none ∧ s'.opened = s.opened ∧
      s'.closed = Function.update s.closed k (some ((reporter k).finish l.2)) ∧
      s'.log = ((reporter k).exit l.2 s.log).toOption.getD s.log)) := by
  obtain ⟨l, now⟩ := l
  obtain ⟨hclock, h⟩ := h
  refine ⟨hclock, ?_⟩
  cases l with
  | start u q action startTime =>
    subst h
    refine ⟨rfl, .inl ⟨rfl, flagged_actionStart action startTime now, rfl, rfl, fun k hk => ?_⟩⟩
    cases hk
  | finish ctxt u q =>
    subst h
    refine ⟨rfl, .inl ⟨?_, ?_, rfl, rfl, fun k hk => by cases hk⟩⟩
    · cases hfinish : actionFinish ctxt u q now s.log with
      | ok log => exact (actionFinish_ok hfinish).1
      | error e => rfl
    · cases hfinish : actionFinish ctxt u q now s.log with
      | ok log => exact (actionFinish_ok hfinish).2
      | error e => exact fun _ => rfl
  | enter k =>
    obtain ⟨hopened, h⟩ := h
    dsimp only at h
    split at h
    · next e log henter =>
      subst h
      obtain ⟨shown, a, -, -, rfl, hactions, hevents⟩ := actionEventStart_ok henter
      refine ⟨rfl, .inr (.inl ⟨k, a.id, rfl, hopened, hevents, fun id => ?_, rfl, rfl⟩)⟩
      unfold flagged
      rw [hactions]
    · subst h
      exact ⟨rfl, .inl ⟨rfl, fun _ => rfl, rfl, rfl, fun j hj => by cases hj⟩⟩
  | exit k =>
    obtain ⟨hsome, hnone, rfl⟩ := h
    exact ⟨rfl, .inr (.inr ⟨k, rfl, hsome, hnone, rfl, rfl, rfl⟩)⟩

/-- Before the first reporter. -/
structure Reporting.Initial (s : Reporting κ) : Prop where
  opened : ∀ k, s.opened k = none
  closed : ∀ k, s.closed k = none
  past : ∀ e r, s.log.events.byId e = some r → ∀ f, r.finish = some f → f.finishTime ≤ s.clock

omit [DecidableEq κ] in
theorem Reporting.Initial.wellFormed (h : s.Initial) : s.WellFormed where
  row k e hk := by rw [h.opened k] at hk; cases hk
  once k j e hk := by rw [h.opened k] at hk; cases hk
  past := h.past
  closed k _ := h.closed k

/-- The events after a block is left: all as before, or one is finished. -/
theorem byId_exit (p : EventReporter) (now : Nat) (log : ActionLog) :
    (p.exit now log).toOption.getD log = log ∨
    ∃ actionId e, FindsEvent p.ctxt p.instanceUuid p.requestId p.event log actionId e ∧
      (∀ id, ((p.exit now log).toOption.getD log).events.byId id =
        (log.events.byId id).map (fun r =>
          if r.id = e then { r with finish := some (p.finish now) } else r)) ∧
      ∀ id, flagged ((p.exit now log).toOption.getD log) id =
        (flagged log id || ((p.finish now).isError && id == actionId)) := by
  cases h : p.exit now log with
  | error e => exact .inl rfl
  | ok log' => exact .inr (actionEventFinish_ok h)

omit [DecidableEq κ] in
/-- The next id is nobody's. -/
theorem Reporting.WellFormed.ne_next (hs : s.WellFormed) {k : κ} {e : Nat}
    (he : s.opened k = some e) : e ≠ s.log.events.next := by
  rintro rfl
  obtain ⟨r, hr⟩ := hs.row k _ he
  rw [Table.byId_next] at hr
  cases hr

/-- An event is opened. -/
theorem wellFormed_enter (hs : s.WellFormed) {k : κ} {row : Nat → ActionEvent}
    {hid : ∀ id, (row id).id = id} (hfinish : ∀ id, (row id).finish = none)
    (hclock : s.clock ≤ s'.clock) (hnone : s.opened k = none)
    (hevents : s'.log.events = s.log.events.insert row hid)
    (hopened : s'.opened = Function.update s.opened k (some s.log.events.next))
    (hclosed : s'.closed = s.closed) : s'.WellFormed := by
  refine ⟨fun j e hj => ?_, fun i j e hi hj => ?_, fun e r hr f hf => ?_, fun j hj => ?_⟩
  · rw [hopened] at hj
    rw [hevents, Table.byId_insert]
    by_cases hjk : j = k
    · rw [hjk, Function.update_self] at hj
      cases hj
      exact ⟨_, if_pos rfl⟩
    · rw [Function.update_of_ne hjk] at hj
      rw [if_neg (hs.ne_next hj)]
      exact hs.row j e hj
  · rw [hopened] at hi hj
    by_cases hik : i = k
    · by_cases hjk : j = k
      · rw [hik, hjk]
      · rw [hik, Function.update_self] at hi
        rw [Function.update_of_ne hjk, ← hi] at hj
        exact absurd rfl (hs.ne_next hj)
    · by_cases hjk : j = k
      · rw [hjk, Function.update_self] at hj
        rw [Function.update_of_ne hik, ← hj] at hi
        exact absurd rfl (hs.ne_next hi)
      · rw [Function.update_of_ne hik] at hi
        rw [Function.update_of_ne hjk] at hj
        exact hs.once i j e hi hj
  · rw [hevents, Table.byId_insert] at hr
    split at hr
    · cases hr
      rw [hfinish] at hf
      cases hf
    · exact (hs.past e r hr f hf).trans hclock
  · rw [hopened] at hj
    rw [hclosed]
    by_cases hjk : j = k
    · rw [hjk]
      exact hs.closed k hnone
    · rw [Function.update_of_ne hjk] at hj
      exact hs.closed j hj

/-- Leaving a block changes the end of one event at most. -/
theorem wellFormed_exit (hs : s.WellFormed) {k : κ} (hclock : s.clock ≤ s'.clock)
    (hsome : (s.opened k).isSome) (hopened : s'.opened = s.opened)
    (hclosed : s'.closed = Function.update s.closed k (some ((reporter k).finish s'.clock)))
    (hlog : s'.log = ((reporter k).exit s'.clock s.log).toOption.getD s.log) :
    s'.WellFormed := by
  have hbyId : ∀ id, ∃ f : ActionEvent → ActionEvent,
      s'.log.events.byId id = (s.log.events.byId id).map f ∧
      ∀ r, f r = r ∨ f r = { r with finish := some ((reporter k).finish s'.clock) } := by
    intro id
    rw [hlog]
    rcases byId_exit (reporter k) s'.clock s.log with hsame | ⟨actionId, e, -, hwrote, -⟩
    · rw [hsame]
      exact ⟨fun r => r, Option.map_id'.symm, fun r => .inl rfl⟩
    · refine ⟨_, hwrote id, fun r => ?_⟩
      split
      · exact .inr rfl
      · exact .inl rfl
  refine ⟨fun j e hj => ?_, ?_, fun e r' hr' g hg => ?_, fun j hj => ?_⟩
  · rw [hopened] at hj
    obtain ⟨r, hr⟩ := hs.row j e hj
    obtain ⟨f, hf, -⟩ := hbyId e
    rw [hf, hr]
    exact ⟨_, rfl⟩
  · rw [hopened]
    exact hs.once
  · obtain ⟨f, hf, hone⟩ := hbyId e
    rw [hf] at hr'
    obtain ⟨r, hr, rfl⟩ := Option.map_eq_some_iff.mp hr'
    rcases hone r with hsame | hwrote
    · rw [hsame] at hg
      exact (hs.past e r hr g hg).trans hclock
    · rw [hwrote] at hg
      cases hg
      exact Nat.le_refl _
  · rw [hopened] at hj
    rw [hclosed]
    by_cases hjk : j = k
    · rw [hjk] at hj
      rw [hj] at hsome
      cases hsome
    · rw [Function.update_of_ne hjk]
      exact hs.closed j hj

theorem wellFormed_step (h : logStep reporter l s s') (hs : s.WellFormed) : s'.WellFormed := by
  obtain ⟨hlt, hclock, hcases⟩ := logStep_cases h
  have hle : s.clock ≤ s'.clock := hclock ▸ Nat.le_of_lt hlt
  rw [← hclock] at hcases
  obtain ⟨hevents, -, hopened, hclosed, -⟩ | ⟨k, actionId, -, hnone, hevents, -, hopened, hclosed⟩ |
    ⟨k, -, hsome, -, hopened, hclosed, hlog⟩ := hcases
  · refine ⟨?_, ?_, fun e r hr f hf => ?_, ?_⟩
    · rw [hopened, hevents]
      exact hs.row
    · rw [hopened]
      exact hs.once
    · rw [hevents] at hr
      exact (hs.past e r hr f hf).trans hle
    · rw [hopened, hclosed]
      exact hs.closed
  · exact wellFormed_enter hs (fun _ => rfl) hle hnone hevents hopened hclosed
  · exact wellFormed_exit hs hle hsome hopened hclosed hlog

/-! ## Whose event is finished -/

omit [DecidableEq κ] in
theorem findsEvent_of_own {p : EventReporter} {shown : Nat → Bool} {a : InstanceAction}
    {r : ActionEvent} {e : Nat} (hctxt : modelQuery p.ctxt none = .ok shown)
    (ha : findAction p.ctxt shown p.instanceUuid p.requestId s.log = some a)
    (hr : s.log.events.byId e = some r) (hnamed : r.named shown a.id p.event = true)
    (hfirst : ∀ r' ∈ s.log.events.rows, r'.named shown a.id p.event = true → e ≤ r'.id) :
    FindsEvent p.ctxt p.instanceUuid p.requestId p.event s.log a.id e := by
  obtain ⟨hmem, rfl⟩ := s.log.events.byId_iff.mp hr
  exact ⟨shown, a, r, hctxt, ha,
    s.log.events.find?_iff_least.mpr ⟨hmem, hnamed, hfirst⟩, rfl, rfl⟩

/-- **One block that is left**: it finishes its own event exactly if it finds it. -/
theorem finishesOwn_iff (h : logStep reporter l s s') (hs : s.WellFormed) :
    FinishesOwn reporter l s s' ↔ FindsOwn reporter l s := by
  obtain ⟨hlt, -, hcases⟩ := logStep_cases h
  obtain ⟨-, -, -, -, hno⟩ | ⟨k, actionId, hl, -⟩ | ⟨k, hl, -, -, -, -, hlog⟩ := hcases
  · exact ⟨fun _ k hk => absurd hk (hno k), fun _ k hk => absurd hk (hno k)⟩
  · constructor
    all_goals
      intro _ j hj
      rw [hl] at hj
      cases hj
  · constructor
    · intro hfinishes j hj e he
      rw [hl] at hj
      cases hj
      obtain ⟨r, hr, hfinish⟩ := hfinishes k hl e he
      -- an end of this step is none of those before
      have hnew : s.log.events.byId e ≠ some r := by
        intro hold
        have hpast := hs.past e r hold _ hfinish
        exact absurd hpast (Nat.not_le.mpr hlt)
      rw [hlog] at hr
      rcases byId_exit (reporter k) l.2 s.log with hsame | ⟨actionId, e', hfinds, hwrote, -⟩
      · rw [hsame] at hr
        exact absurd hr hnew
      · rw [hwrote] at hr
        obtain ⟨r₀, hr₀, hr₁⟩ := Option.map_eq_some_iff.mp hr
        split at hr₁
        · next he' =>
          obtain ⟨shown, a, r₂, hctxt, ha, hfind, -, hid⟩ := hfinds
          obtain ⟨hmem, hnamed, hfirst⟩ := s.log.events.find?_iff_least.mp hfind
          have hee : r₂.id = e := by
            rw [hid, ← he', (s.log.events.byId_iff.mp hr₀).2]
          exact ⟨shown, a, r₂, hctxt, ha, s.log.events.byId_iff.mpr ⟨hmem, hee⟩, hnamed,
            fun r' hr' hn => hee ▸ hfirst r' hr' hn⟩
        · rw [hr₁] at hr₀
          exact absurd hr₀ hnew
    · intro hown j hj e he
      rw [hl] at hj
      cases hj
      obtain ⟨shown, a, r, hctxt, ha, hr, hnamed, hfirst⟩ := hown k hl e he
      have hfinds := findsEvent_of_own hctxt ha hr hnamed hfirst
      obtain ⟨log, hexit⟩ := actionEventFinish_of_finds ((reporter k).finish l.2) hfinds
      obtain ⟨actionId, e', hfinds', hwrote, -⟩ := actionEventFinish_ok hexit
      obtain ⟨-, rfl⟩ := hfinds.unique hfinds'
      refine ⟨{ r with finish := some ((reporter k).finish l.2) }, ?_, rfl⟩
      rw [hlog, show (reporter k).exit l.2 s.log = .ok log from hexit]
      show log.events.byId e = _
      rw [hwrote, hr, Option.map_some, if_pos (s.log.events.byId_iff.mp hr).2]

/-! ## What the log shows -/

/-- A reporter of the action has ended in an error. -/
def Reporting.Failed (s : Reporting κ) (actionId : Nat) : Prop :=
  ∃ k e r f, s.opened k = some e ∧ s.closed k = some f ∧ f.isError = true ∧
    s.log.events.byId e = some r ∧ r.actionId = actionId

/-- Every event is of the name of its reporter and shows how that has ended, if it has; and an
action shows an error if it did so before or if one of its reporters has failed. -/
structure Shows (reporter : κ → EventReporter) (s s' : Reporting κ) : Prop where
  events : ∀ k e, s'.opened k = some e → ∃ r, s'.log.events.byId e = some r ∧
    r.event = (reporter k).event ∧ r.finish = s'.closed k
  errors : ∀ id, flagged s'.log id = true ↔ flagged s.log id = true ∨ s'.Failed id

variable {s₀ : Reporting κ}

omit [DecidableEq κ] in
/-- **Leaving a block that finds its own event.** -/
theorem exit_own {k : κ} (hown : FindsOwn reporter l s) (hl : l.1 = .exit k) {e : Nat}
    (he : s.opened k = some e) {log : ActionLog}
    (hlog : log = ((reporter k).exit l.2 s.log).toOption.getD s.log) :
    ∃ r, s.log.events.byId e = some r ∧
      (∀ n, log.events.byId n = (s.log.events.byId n).map (fun r =>
        if r.id = e then { r with finish := some ((reporter k).finish l.2) } else r)) ∧
      ∀ n, flagged log n =
        (flagged s.log n || (((reporter k).finish l.2).isError && n == r.actionId)) := by
  obtain ⟨shown, a, r, hctxt, ha, hr, hnamed, hfirst⟩ := hown k hl e he
  have hfinds := findsEvent_of_own hctxt ha hr hnamed hfirst
  obtain ⟨log', hexit⟩ := actionEventFinish_of_finds ((reporter k).finish l.2) hfinds
  obtain ⟨actionId, e', hfinds', hwrote, hflagged⟩ := actionEventFinish_ok hexit
  obtain ⟨rfl, rfl⟩ := hfinds.unique hfinds'
  rw [show (reporter k).exit l.2 s.log = .ok log' from hexit] at hlog
  subst hlog
  refine ⟨r, hr, hwrote, ?_⟩
  unfold ActionEvent.named at hnamed
  rw [Bool.and_eq_true, Bool.and_eq_true, beq_iff_eq] at hnamed
  rw [hnamed.1.2]
  exact hflagged

theorem shows_enter (hs : s.WellFormed) (hshows : Shows reporter s₀ s) {k : κ} {actionId now : Nat}
    (hnone : s.opened k = none)
    (hevents : s'.log.events = s.log.events.insert
      (fun id => ⟨id, (reporter k).event, actionId, now, none, 0⟩) (fun _ => rfl))
    (hflagged : ∀ id, flagged s'.log id = flagged s.log id)
    (hopened : s'.opened = Function.update s.opened k (some s.log.events.next))
    (hclosed : s'.closed = s.closed) : Shows reporter s₀ s' := by
  have hother : ∀ j, j ≠ k → s'.opened j = s.opened j ∧
      ∀ e, s.opened j = some e → s'.log.events.byId e = s.log.events.byId e := by
    intro j hj
    refine ⟨?_, fun e he => ?_⟩
    · rw [hopened, Function.update_of_ne hj]
    · rw [hevents, Table.byId_insert, if_neg (hs.ne_next he)]
  refine ⟨fun j e he => ?_, fun id => ?_⟩
  · by_cases hjk : j = k
    · rw [hopened, hjk, Function.update_self] at he
      cases he
      refine ⟨⟨s.log.events.next, (reporter k).event, actionId, now, none, 0⟩, ?_, ?_, ?_⟩
      · rw [hevents, Table.byId_insert, if_pos rfl]
      · rw [hjk]
      · rw [hclosed, hjk, hs.closed k hnone]
    · obtain ⟨hsame, hrow⟩ := hother j hjk
      rw [hsame] at he
      rw [hrow e he, hclosed]
      exact hshows.events j e he
  · rw [hflagged, hshows.errors]
    refine or_congr Iff.rfl ⟨?_, ?_⟩
    · rintro ⟨j, e, r, f, he, hf, herror, hr, ha⟩
      have hjk : j ≠ k := by
        rintro rfl
        rw [hnone] at he
        cases he
      obtain ⟨hsame, hrow⟩ := hother j hjk
      exact ⟨j, e, r, f, hsame.trans he, hclosed ▸ hf, herror, (hrow e he).trans hr, ha⟩
    · rintro ⟨j, e, r, f, he, hf, herror, hr, ha⟩
      rw [hclosed] at hf
      have hjk : j ≠ k := by
        rintro rfl
        rw [hs.closed j hnone] at hf
        cases hf
      obtain ⟨hsame, hrow⟩ := hother j hjk
      rw [hsame] at he
      exact ⟨j, e, r, f, he, hf, herror, (hrow e he).symm.trans hr, ha⟩

theorem shows_exit (hs : s.WellFormed) (hshows : Shows reporter s₀ s) {k : κ}
    (hown : FindsOwn reporter l s) (hl : l.1 = .exit k) (hsome : (s.opened k).isSome)
    (hnone : s.closed k = none) (hopened : s'.opened = s.opened)
    (hclosed : s'.closed = Function.update s.closed k (some ((reporter k).finish l.2)))
    (hlog : s'.log = ((reporter k).exit l.2 s.log).toOption.getD s.log) :
    Shows reporter s₀ s' := by
  obtain ⟨e₀, he₀⟩ := Option.isSome_iff_exists.mp hsome
  obtain ⟨r₀, hr₀, hwrote, hflagged⟩ := exit_own hown hl he₀ hlog
  have hself : s'.log.events.byId e₀ =
      some { r₀ with finish := some ((reporter k).finish l.2) } := by
    rw [hwrote, hr₀, Option.map_some, if_pos (s.log.events.byId_iff.mp hr₀).2]
  have hother : ∀ j, j ≠ k → s'.closed j = s.closed j ∧
      ∀ e, s.opened j = some e → s'.log.events.byId e = s.log.events.byId e := by
    intro j hj
    refine ⟨?_, fun e he => ?_⟩
    · rw [hclosed, Function.update_of_ne hj]
    · obtain ⟨r, hr⟩ := hs.row j e he
      have hid := (s.log.events.byId_iff.mp hr).2
      rw [hwrote, hr, Option.map_some, if_neg]
      intro h
      exact hj (hs.once j k e he ((hid.symm.trans h) ▸ he₀))
  refine ⟨fun j e he => ?_, fun n => ?_⟩
  · rw [hopened] at he
    obtain ⟨r, hr, hname, hfinish⟩ := hshows.events j e he
    by_cases hjk : j = k
    · rw [hjk] at he hname
      rw [he₀] at he
      cases he
      rw [hr₀] at hr
      cases hr
      refine ⟨_, hself, hjk ▸ hname, ?_⟩
      rw [hjk, hclosed, Function.update_self]
    · obtain ⟨hsame, hrow⟩ := hother j hjk
      exact ⟨r, (hrow e he).trans hr, hname, hfinish.trans hsame.symm⟩
  · rw [hflagged, Bool.or_eq_true, Bool.and_eq_true, beq_iff_eq, hshows.errors, or_assoc]
    refine or_congr Iff.rfl ⟨?_, ?_⟩
    · rintro (⟨j, e, r, f, he, hf, herror, hr, ha⟩ | ⟨herror, rfl⟩)
      · have hjk : j ≠ k := by
          rintro rfl
          rw [hnone] at hf
          cases hf
        obtain ⟨hsame, hrow⟩ := hother j hjk
        exact ⟨j, e, r, f, hopened ▸ he, hsame.trans hf, herror, (hrow e he).trans hr, ha⟩
      · refine ⟨k, e₀, _, _, hopened ▸ he₀, ?_, herror, hself, rfl⟩
        rw [hclosed, Function.update_self]
    · rintro ⟨j, e, r, f, he, hf, herror, hr, ha⟩
      rw [hopened] at he
      by_cases hjk : j = k
      · rw [hjk] at he hf
        rw [he₀] at he
        cases he
        rw [hself] at hr
        cases hr
        rw [hclosed, Function.update_self] at hf
        cases hf
        exact .inr ⟨herror, ha.symm⟩
      · obtain ⟨hsame, hrow⟩ := hother j hjk
        exact .inl ⟨j, e, r, f, he, hsame.symm.trans hf, herror, (hrow e he).symm.trans hr, ha⟩

theorem shows_step (h : logStep reporter l s s') (hs : s.WellFormed)
    (hown : FindsOwn reporter l s) (hshows : Shows reporter s₀ s) : Shows reporter s₀ s' := by
  obtain ⟨-, -, ⟨hevents, hflagged, hopened, hclosed, -⟩ |
    ⟨k, actionId, -, hnone, hevents, hflagged, hopened, hclosed⟩ |
    ⟨k, hl, hsome, hnone, hopened, hclosed, hlog⟩⟩ := logStep_cases h
  · refine ⟨?_, fun id => ?_⟩
    · rw [hopened, hclosed, hevents]
      exact hshows.events
    · rw [hflagged, hshows.errors]
      unfold Reporting.Failed
      rw [hopened, hclosed, hevents]
  · exact shows_enter hs hshows hnone hevents hflagged hopened hclosed
  · exact shows_exit hs hshows hown hl hsome hnone hopened hclosed hlog

/-! ## Names that differ -/

/-- The action of the request of a reporter. -/
def EventReporter.action (p : EventReporter) (log : ActionLog) : Option InstanceAction :=
  actionGetByRequestId (fun deleted => deleted == 0) p.instanceUuid p.requestId log

/-- Every event is that of a reporter, of the action of its request. -/
def Reporting.Known (reporter : κ → EventReporter) (s : Reporting κ) : Prop :=
  ∀ e r, s.log.events.byId e = some r → r.deleted = 0 ∧ ∃ k, s.opened k = some e ∧
    r.event = (reporter k).event ∧
    ∃ a, (reporter k).action s.log = some a ∧ a.id = r.actionId

/-- The contexts hide deleted rows and have a project, and the events of a request have different
names. -/
structure DistinctNames (reporter : κ → EventReporter) : Prop where
  hides : ∀ k, (reporter k).ctxt.readDeleted = "no"
  project : ∀ k, truthy (reporter k).ctxt.projectId = true
  names : ∀ j k, (reporter j).instanceUuid = (reporter k).instanceUuid →
    (reporter j).requestId = (reporter k).requestId → (reporter j).event = (reporter k).event →
    j = k

omit [DecidableEq κ] in
theorem findAction_eq (hr : DistinctNames reporter) (k : κ) (log : ActionLog) :
    findAction (reporter k).ctxt (fun deleted => deleted == 0) (reporter k).instanceUuid
      (reporter k).requestId log = (reporter k).action log := by
  unfold findAction EventReporter.action
  rw [if_pos (hr.project k)]
  split
  · next h => rw [h]
  · next h => rw [h]

omit [DecidableEq κ] in
theorem action_some {p : EventReporter} {a : InstanceAction} (h : p.action log = some a) :
    a ∈ log.actions.rows ∧ a.instanceUuid = p.instanceUuid ∧ a.requestId = p.requestId := by
  have hof := List.find?_some h
  unfold InstanceAction.ofRequest at hof
  rw [Bool.and_eq_true, Bool.and_eq_true, beq_iff_eq, beq_iff_eq, beq_iff_eq] at hof
  exact ⟨List.mem_of_find?_eq_some h, hof.1.2, hof.2⟩

theorem named_iff {shown : Nat → Bool} {actionId : Nat} {event : String} {r : ActionEvent} :
    r.named shown actionId event = true ↔
      shown r.deleted = true ∧ r.actionId = actionId ∧ r.event = event := by
  unfold ActionEvent.named
  rw [Bool.and_eq_true, Bool.and_eq_true, beq_iff_eq, beq_iff_eq, and_assoc]

omit [DecidableEq κ] in
/-- **Names that differ** are found again. -/
theorem findsOwn_of_known (hr : DistinctNames reporter) (hs : s.WellFormed)
    (hknown : s.Known reporter) : FindsOwn reporter l s := by
  intro k _ e he
  obtain ⟨r, hrow⟩ := hs.row k e he
  obtain ⟨hlive, j, hj, hname, a, ha, haction⟩ := hknown e r hrow
  obtain rfl := hs.once j k e hj he
  refine ⟨_, a, r, modelQuery_hides (hr.hides j), (findAction_eq hr j s.log).trans ha, hrow,
    named_iff.mpr ⟨beq_iff_eq.mpr hlive, haction.symm, hname⟩, fun r' hr' hnamed => ?_⟩
  -- another event of the action and the name would be of the same request
  obtain ⟨-, hsame, hname'⟩ := named_iff.mp hnamed
  obtain ⟨-, i, hi, hiname, b, hb, hbaction⟩ :=
    hknown r'.id r' (s.log.events.byId_iff.mpr ⟨hr', rfl⟩)
  obtain ⟨hamem, hauuid, harequest⟩ := action_some ha
  obtain ⟨hbmem, hbuuid, hbrequest⟩ := action_some hb
  have hab : b = a := s.log.actions.eq_of_key hbmem hamem (hbaction.trans hsame)
  rw [hab] at hbuuid hbrequest
  have hij : i = j := hr.names i j (hbuuid.symm.trans hauuid) (hbrequest.symm.trans harequest)
    (hiname.symm.trans hname')
  rw [hij, he] at hi
  exact Nat.le_of_eq (Option.some.inj hi)

/-- An action that was found stays the one that is found. -/
theorem find?_modify_ids {rows : List InstanceAction} {p q : InstanceAction → Bool}
    {f : InstanceAction → InstanceAction} (hp : ∀ a, p (f a) = p a) (hid : ∀ a, (f a).id = a.id)
    {a : InstanceAction} (h : rows.find? p = some a) :
    ∃ b, (rows.map (fun r => if q r then f r else r)).find? p = some b ∧ b.id = a.id := by
  refine ⟨if q a then f a else a, ?_, ?_⟩
  · rw [List.find?_map]
    have hcomp : (p ∘ fun r => if q r then f r else r) = p := by
      funext r
      rw [Function.comp_apply]
      split
      · exact hp r
      · rfl
    rw [hcomp, h]
    rfl
  · split
    · exact hid a
    · rfl

/-- Every reporter still finds the action that it found. -/
def ActionsStay (log log' : ActionLog) : Prop :=
  ∀ (p : EventReporter) a, p.action log = some a → ∃ b, p.action log' = some b ∧ b.id = a.id

theorem ActionsStay.of_eq (h : log'.actions = log.actions) : ActionsStay log log' := by
  intro p a ha
  refine ⟨a, ?_, rfl⟩
  unfold EventReporter.action actionGetByRequestId at ha ⊢
  rw [h]
  exact ha

theorem ActionsStay.of_map {q : InstanceAction → Bool} {f : InstanceAction → InstanceAction}
    (h : log'.actions.rows = log.actions.rows.map (fun a => if q a then f a else a))
    (hid : ∀ a, (f a).id = a.id)
    (hf : ∀ a shown u r, (f a).ofRequest shown u r = a.ofRequest shown u r) :
    ActionsStay log log' := by
  intro p a ha
  unfold EventReporter.action actionGetByRequestId at ha ⊢
  rw [h]
  exact find?_modify_ids (fun a => hf a _ _ _) hid ha

theorem actionsStay_start (action : String) (startTime now : Nat) :
    ActionsStay log (actionStart u q action startTime now log) := by
  intro p a ha
  refine ⟨a, ?_, rfl⟩
  unfold EventReporter.action actionGetByRequestId at ha ⊢
  show List.find? _ (log.actions.rows ++ _) = _
  rw [List.find?_append, ha]
  rfl

theorem actionsStay_finish (ctxt : Context) (u q : String) (finishTime : Nat) (log : ActionLog) :
    ActionsStay log ((actionFinish ctxt u q finishTime log).toOption.getD log) := by
  cases h : actionFinish ctxt u q finishTime log with
  | error e => exact .of_eq rfl
  | ok log' =>
    unfold actionFinish at h
    obtain ⟨shown, -, h⟩ := Fallible.bind_ok_iff.mp h
    dsimp only at h
    split at h
    · cases h
      exact .of_map rfl (fun _ => rfl) (fun _ _ _ _ => rfl)
    · cases h

theorem actionsStay_exit (p : EventReporter) (now : Nat) (log : ActionLog) :
    ActionsStay log ((p.exit now log).toOption.getD log) := by
  cases h : p.exit now log with
  | error e => exact .of_eq rfl
  | ok log' =>
    unfold EventReporter.exit actionEventFinish at h
    obtain ⟨shown, -, h⟩ := Fallible.bind_ok_iff.mp h
    split at h
    · cases h
    · split at h
      · cases h
      · cases h
        dsimp only [Except.toOption, Option.getD]
        by_cases herror : (p.finish now).isError = true
        · rw [if_pos herror]
          exact .of_map rfl (fun _ => rfl) (fun _ _ _ _ => rfl)
        · rw [if_neg herror]
          exact .of_eq rfl

omit [DecidableEq κ] in
/-- What is known of an event stays known. -/
theorem known_row (hknown : s.Known reporter) (hactions : ActionsStay s.log s'.log)
    (hopened : ∀ k e, s.opened k = some e → s'.opened k = some e) {e : Nat} {r r' : ActionEvent}
    (hr : s.log.events.byId e = some r)
    (hr' : r' = r ∨ ∃ finish, r' = { r with finish := finish }) :
    r'.deleted = 0 ∧ ∃ k, s'.opened k = some e ∧ r'.event = (reporter k).event ∧
      ∃ a, (reporter k).action s'.log = some a ∧ a.id = r'.actionId := by
  obtain ⟨hlive, k, hk, hname, a, ha, haid⟩ := hknown e r hr
  obtain ⟨b, hb, hbid⟩ := hactions (reporter k) a ha
  have hb' : b.id = r.actionId := hbid.trans haid
  rcases hr' with rfl | ⟨finish, rfl⟩
  · exact ⟨hlive, k, hopened k e hk, hname, b, hb, hb'⟩
  · exact ⟨hlive, k, hopened k e hk, hname, b, hb, hb'⟩

omit [DecidableEq κ] in
/-- A step that leaves the events alone. -/
theorem known_of_events (hknown : s.Known reporter) (hactions : ActionsStay s.log s'.log)
    (hopened : s'.opened = s.opened) (hevents : s'.log.events = s.log.events) :
    s'.Known reporter := by
  intro e r he
  rw [hevents] at he
  exact known_row hknown hactions (by rw [hopened]; exact fun _ _ hk => hk) he (.inl rfl)

/-- The event of a reporter that is entered is of the action it has found. -/
theorem known_enter (hr : DistinctNames reporter) {k : κ} {now e₀ : Nat} {log : ActionLog}
    (hnone : s.opened k = none) (henter : (reporter k).enter now s.log = .ok (e₀, log))
    (hlog : s'.log = log) (hopened : s'.opened = Function.update s.opened k (some e₀))
    (hknown : s.Known reporter) : s'.Known reporter := by
  obtain ⟨shown, a, hctxt, ha, rfl, hactions, hevents⟩ := actionEventStart_ok henter
  rw [modelQuery_hides (hr.hides k)] at hctxt
  cases hctxt
  rw [findAction_eq hr] at ha
  have hstay : ActionsStay s.log s'.log := .of_eq (by rw [hlog]; exact hactions)
  have hothers : ∀ j e, s.opened j = some e → s'.opened j = some e := by
    intro j e hj
    have hjk : j ≠ k := by
      rintro rfl
      rw [hnone] at hj
      cases hj
    rw [hopened, Function.update_of_ne hjk]
    exact hj
  intro e r he
  rw [hlog, hevents, Table.byId_insert] at he
  split at he
  · next hnext =>
    -- the new event
    cases he
    obtain ⟨b, hb, hbid⟩ := hstay (reporter k) a ha
    refine ⟨rfl, k, ?_, rfl, b, hb, hbid⟩
    rw [hopened, Function.update_self, hnext]
  · exact known_row hknown hstay hothers he (.inl rfl)

omit [DecidableEq κ] in
theorem known_exit {k : κ} {now : Nat}
    (hlog : s'.log = ((reporter k).exit now s.log).toOption.getD s.log)
    (hopened : s'.opened = s.opened) (hknown : s.Known reporter) : s'.Known reporter := by
  have hothers : ∀ j e, s.opened j = some e → s'.opened j = some e := by
    rw [hopened]
    exact fun _ _ hk => hk
  have hstay : ActionsStay s.log s'.log := hlog ▸ actionsStay_exit (reporter k) now s.log
  intro e r' he
  rw [hlog] at he
  rcases byId_exit (reporter k) now s.log with hsame | ⟨actionId, e', -, hwrote, -⟩
  · rw [hsame] at he
    exact known_row hknown hstay hothers he (.inl rfl)
  · rw [hwrote] at he
    obtain ⟨r, hrow, rfl⟩ := Option.map_eq_some_iff.mp he
    refine known_row hknown hstay hothers hrow ?_
    split
    · exact .inr ⟨_, rfl⟩
    · exact .inl rfl

theorem known_step (hr : DistinctNames reporter) (h : logStep reporter l s s')
    (hknown : s.Known reporter) : s'.Known reporter := by
  obtain ⟨l, now⟩ := l
  obtain ⟨-, h⟩ := h
  cases l with
  | start u q action startTime =>
    have hstay : ActionsStay s.log s'.log := by
      rw [h]
      exact actionsStay_start action startTime now
    exact known_of_events hknown hstay (by rw [h]) (by rw [h]; rfl)
  | finish ctxt u q =>
    have hstay : ActionsStay s.log s'.log := by
      rw [h]
      exact actionsStay_finish ctxt u q now s.log
    refine known_of_events hknown hstay (by rw [h]) ?_
    rw [h]
    cases hfinish : actionFinish ctxt u q now s.log with
    | ok log => exact (actionFinish_ok hfinish).1
    | error e => rfl
  | enter k =>
    obtain ⟨hnone, h⟩ := h
    dsimp only at h
    split at h
    · next henter => exact known_enter hr hnone henter (by rw [h]) (by rw [h]) hknown
    · exact known_of_events hknown (.of_eq (by rw [h])) (by rw [h]) (by rw [h])
  | exit k =>
    obtain ⟨-, -, h⟩ := h
    exact known_exit (by rw [h]) (by rw [h]) hknown

/-! ## Every run -/

/-- **The log of actions.** Over every run of actions that are started and finished and of
reporters that are entered and left, in any order and any contexts: each reporter finishes its own
event exactly if that is the first event of its name of the action that is looked up. In these runs
each event shows how its reporter ended, and an action shows an error exactly if it did so before
or one of its reporters failed. Every run is one of these if the log has no events at the start,
the contexts hide deleted rows and have a project, and the events of a request have different
names. -/
theorem actionLog_right_iff (reporter : κ → EventReporter) (hs : s.Initial)
    (ls : List (LogStep κ × Nat)) :
    (Run (fun l s s' => logStep reporter l s s' ∧ FinishesOwn reporter l s s') s ls s' ↔
      Run (fun l s s' => logStep reporter l s s' ∧ FindsOwn reporter l s) s ls s') ∧
    (Run (fun l s s' => logStep reporter l s s' ∧ FindsOwn reporter l s) s ls s' →
      Shows reporter s s') ∧
    (DistinctNames reporter → s.log.events.rows = [] → Run (logStep reporter) s ls s' →
      Run (fun l s s' => logStep reporter l s s' ∧ FindsOwn reporter l s) s ls s') := by
  refine ⟨?_, fun hrun => ?_, fun hr hempty hrun => ?_⟩
  · exact Run.congr (I := Reporting.WellFormed) (fun l s s' hs h _ => wellFormed_step h hs)
      (fun l s s' hs h => finishesOwn_iff h hs) hs.wellFormed
  · have hstart : Shows reporter s s := by
      refine ⟨fun k e hk => ?_, fun id => ⟨.inl, fun h => h.resolve_right ?_⟩⟩
      · rw [hs.opened k] at hk
        cases hk
      · rintro ⟨k, e, r, f, hk, -⟩
        rw [hs.opened k] at hk
        cases hk
    have hboth : s'.WellFormed ∧ Shows reporter s s' :=
      hrun.invariant (I := fun s₁ => s₁.WellFormed ∧ Shows reporter s s₁)
        (fun l s₁ s₂ hs₁ h => ⟨wellFormed_step h.1 hs₁.1, shows_step h.1 hs₁.1 h.2 hs₁.2⟩)
        ⟨hs.wellFormed, hstart⟩
    exact hboth.2
  · have hknown : s.Known reporter := by
      intro e r he
      have hmem := (s.log.events.byId_iff.mp he).1
      rw [hempty] at hmem
      cases hmem
    have hwf := hs.wellFormed
    clear hs hempty
    induction hrun with
    | nil s => exact .nil s
    | cons h _ ih =>
      exact .cons ⟨h, findsOwn_of_known hr hwf hknown⟩
        (ih (known_step hr h hknown) (wellFormed_step h hwf))

end

/-- One request reboots an instance twice. -/
def twiceReporter : Bool → EventReporter
  | false => ⟨⟨some "u", some "p", false, "no"⟩, "i", "req-1", "compute_reboot_instance", "Error",
      some "timed out"⟩
  | true => ⟨⟨some "u", some "p", false, "no"⟩, "i", "req-1", "compute_reboot_instance", "Success",
      none⟩

def noLog : Reporting Bool := ⟨⟨Table.empty, Table.empty⟩, fun _ => none, fun _ => none, 0⟩

def rebootedTwice : List (LogStep Bool × Nat) :=
  [(.start "i" "req-1" "reboot" 1, 1), (.enter false, 2), (.exit false, 3), (.enter true, 4),
    (.exit true, 5)]

/-- The second reboot ends in the event of the first. -/
theorem rebootedTwice_unfinished : ∃ s', Run (logStep twiceReporter) noLog rebootedTwice s' ∧
    s'.opened true = some 1 ∧ (s'.log.events.byId 1).map ActionEvent.finish = some none ∧
    ¬ Run (fun l s s' => logStep twiceReporter l s s' ∧ FindsOwn twiceReporter l s) noLog
      rebootedTwice s' := by
  have hinitial : noLog.Initial :=
    ⟨fun _ => rfl, fun _ => rfl, fun e r hr => by cases hr⟩
  have hrun : ∃ s', Run (logStep twiceReporter) noLog rebootedTwice s' ∧
      s'.opened true = some 1 ∧ (s'.log.events.byId 1).map ActionEvent.finish = some none ∧
      s'.closed true = some ⟨5, "Success", none⟩ :=
    ⟨_, .cons ⟨by decide, rfl⟩ (.cons ⟨by decide, rfl, rfl⟩ (.cons ⟨by decide, rfl, rfl, rfl⟩
      (.cons ⟨by decide, rfl, rfl⟩ (.cons ⟨by decide, rfl, rfl, rfl⟩ (.nil _))))), rfl, rfl, rfl⟩
  obtain ⟨s', hrun, hopened, hopen, hclosed⟩ := hrun
  refine ⟨s', hrun, hopened, hopen, fun hown => ?_⟩
  have hshows := (actionLog_right_iff twiceReporter hinitial rebootedTwice).2.1 hown
  obtain ⟨r, hrow, -, hfinish⟩ := hshows.events true 1 hopened
  rw [hrow, Option.map_some, hfinish, hclosed] at hopen
  cases hopen

end PolarBear.Instances
