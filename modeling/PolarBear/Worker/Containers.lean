import Mathlib.Data.List.Infix
import PolarBear.Docker.Engine
import PolarBear.Worker.Steps

/-!
# Docker steps and the container they name

`docker_command` runs its command in the first running container that the
daemon's name filter lets through, whatever that container is called. The other
methods compare whole names. `docker_steps_iff` is the exact boundary.
-/

namespace PolarBear.Worker

open PolarBear.Py
open PolarBear.Fallible
open PolarBear.Docker

variable {strOther : Json → String} {b : Behaviour} {tools : Tools Engine}
  {deliver : Nat → Delivery} {parameters : List (String × Json)} {topic name : String}

/-- Tools whose docker client is that of an engine. -/
def Tools.onEngine (tools : Tools Engine) (b : Behaviour) : Tools Engine :=
  { tools with docker := engineClient b }

/-- **The container a command is run in**: the first one the filter lets through. -/
theorem run_dockerCommandTool (hname : getParam parameters "name" = .str name) (d : Engine) :
    (dockerCommandTool (tools.onEngine b) parameters).run d =
      match d.containers.find? (HostContainer.passes name) with
      | none => .error .raisedText d
      | some c =>
        let command := getParam parameters "command"
        match b.accepts c.listing command with
        | .error e => .error e d
        | .ok () => match b.output c.listing command with
          | .ok out => .ok (out, .pass) (d.ran c.listing command)
          | .error e => .error e (d.ran c.listing command) := by
  have hlisting : ((engineClient b).containers (.filters (.str name) "running")).run d =
      .ok ((d.containers.filter (HostContainer.passes name)).map HostContainer.listing) d := rfl
  have hconnect : ((engineClient b).connect (.str "auto")).run d = .ok () d := rfl
  unfold dockerCommandTool
  dsimp only [Tools.onEngine]
  rw [run_bind_ok hconnect, hname, run_bind_ok hlisting, ← List.head?_filter]
  cases d.containers.filter (HostContainer.passes name) with
  | nil => rfl
  | cons c rest =>
    dsimp only [List.map_cons, List.head?_cons]
    generalize getParam parameters "command" = command
    cases haccepts : b.accepts c.listing command with
    | error e =>
      have hcreate : (Engine.execCreate b c.listing command).run d = .error e d := by
        unfold Engine.execCreate
        exact run_bind_error (run_ofExcept_error haccepts d)
      exact run_bind_error hcreate
    | ok u =>
      have hcreate : (Engine.execCreate b c.listing command).run d =
          .ok (.int d.jobs.length) { d with jobs := d.jobs ++ [(c.listing, command)] } := by
        unfold Engine.execCreate
        rw [run_bind_ok (run_ofExcept_ok haccepts d)]
        rfl
      have hstart : (Engine.execStart b (.int d.jobs.length)).run
            { d with jobs := d.jobs ++ [(c.listing, command)] } =
          match b.output c.listing command with
          | .ok out => .ok out (d.ran c.listing command)
          | .error e => .error e (d.ran c.listing command) := by
        have hjob : (d.jobs ++ [(c.listing, command)])[(d.jobs.length : Int).toNat]? =
            some (c.listing, command) := by
          rw [Int.toNat_natCast]
          exact List.getElem?_concat_length
        unfold Engine.execStart
        rw [EStateM.run_bind, EStateM.run_get]
        dsimp only
        rw [hjob]
        dsimp only
        cases b.output c.listing command <;> rfl
      show EStateM.run (do
        let job ← Engine.execCreate b c.listing command
        let out ← Engine.execStart b job
        pure (out, Status.pass)) d = _
      rw [run_bind_ok hcreate, EStateM.run_bind, hstart]
      cases b.output c.listing command <;> rfl

/-! ## What a step may touch -/

/-- The command was run in the named container only; and where that is not running, the step
is reported as failed. -/
def CommandsNamed (name : String) (before after : Run Engine) : Prop :=
  ∃ ran sent, after.world.executed = before.world.executed ++ ran ∧
    after.session.sent = before.session.sent ++ sent ∧
    (∀ x ∈ ran, ("/" ++ name) ∈ x.1.names) ∧
    ((∀ c ∈ before.world.containers, c.running = true → c.called name = false) →
      sent ≠ [] ∧ ∀ r ∈ sent, r.status = .fail)

/-- What the three methods do with the containers of an engine. -/
structure ActsOnNamed (strOther : Json → String) (b : Behaviour) (tools : Tools Engine)
    (deliver : Nat → Delivery) (parameters : List (String × Json)) (topic name : String)
    (run : Run Engine) : Prop where
  checked : ∃ found,
    (checkContainer strOther (engineClient b)).run ⟨parameters, false, run.world⟩ =
        .ok found ⟨parameters, false, run.world⟩ ∧
      (∀ c ∈ run.world.containers, c.called name = true → found = some c.listing) ∧
      ((∀ c ∈ run.world.containers, c.called name = false) → found = none)
  removed : ∀ r, (Docker.removeContainer strOther (engineClient b)).run
      ⟨parameters, false, run.world⟩ = r →
    (∀ c ∈ run.world.containers, c.called name = false → c ∈ (endState r).dc.containers) ∧
      (∀ c ∈ (endState r).dc.containers, c ∈ run.world.containers) ∧
      ∀ w, r = .ok () w → ∀ c ∈ w.dc.containers, c.called name = false
  commanded : CommandsNamed name run
    (endState ((dockerCommand (tools.onEngine b) deliver parameters topic).run run))

/-- Where the command goes: to the named container, or nowhere. -/
def FirstMatchNamed (b : Behaviour) (name : String) (command : Json) (d : Engine) : Prop :=
  ∀ c, d.containers.find? (HostContainer.passes name) = some c →
    c.called name = true ∨ ∃ e, b.accepts c.listing command = .error e ∧
      (PyVal.strOk e.message ∨ ∃ c' ∈ d.containers, c'.running = true ∧ c'.called name = true)

/-! ## The boundary -/

/-- What the handler adds: a failed report, if its message has a text. -/
theorem failed_adds (deliver : Nat → Delivery) (topic method : String) (stepid : Json)
    (message : PyVal) (r : Run Engine) :
    ∃ sent, (failed deliver topic method stepid (dockerHandlerOut message) r).session.sent =
        r.session.sent ++ sent ∧
      (failed deliver topic method stepid (dockerHandlerOut message) r).world = r.world ∧
      (∀ x ∈ sent, x.status = .fail) ∧ (message.strOk ↔ sent ≠ []) := by
  unfold failed
  cases hout : dockerHandlerOut message with
  | error e =>
    refine ⟨[], (List.append_nil _).symm, rfl, fun x hx => ?_, fun hok => ?_, fun h => ?_⟩
    · cases hx
    · obtain ⟨out, hok⟩ := (dockerHandlerOut_ok message).mpr hok
      rw [hout] at hok
      cases hok
    · exact absurd rfl h
  | ok out =>
    refine ⟨[_], rfl, rfl, fun x hx => ?_, fun _ => List.cons_ne_nil _ _, fun _ => ?_⟩
    · rw [List.mem_singleton.mp hx]
    · exact (dockerHandlerOut_ok message).mp ⟨out, hout⟩

/-- A tool that raises without running anything. -/
theorem commandsNamed_raised_iff {run : Run Engine} {message : PyVal} (method : String)
    (stepid : Json) :
    CommandsNamed name run (failed deliver topic method stepid (dockerHandlerOut message) run) ↔
      message.strOk ∨ ∃ c ∈ run.world.containers, c.running = true ∧ c.called name = true := by
  obtain ⟨sent, hsent, hworld, hfail, hok⟩ :=
    failed_adds deliver topic method stepid message run
  constructor
  · rintro ⟨ran, sent', -, hsent', -, hfails⟩
    by_cases hnamed : ∃ c ∈ run.world.containers, c.running = true ∧ c.called name = true
    · exact Or.inr hnamed
    · -- the named container is not running, so there is a report
      obtain rfl := List.append_cancel_left (hsent'.symm.trans hsent)
      refine Or.inl (hok.mpr (hfails ?_).1)
      intro c hc hrunning
      by_contra hcalled
      exact hnamed ⟨c, hc, hrunning, by simpa using hcalled⟩
  · intro hstr
    refine ⟨[], sent, ?_, hsent, fun x hx => ?_, fun hnone => ⟨?_, hfail⟩⟩
    · rw [hworld, List.append_nil]
    · cases hx
    · rcases hstr with hstr | ⟨c, hc, hrunning, hcalled⟩
      · exact hok.mp hstr
      · rw [hnone c hc hrunning] at hcalled
        cases hcalled

/-- A command that was run in one container. -/
theorem commandsNamed_ran_iff {before after : Run Engine} {c : HostContainer} {command : Json}
    {sent : List Report} (hc : c ∈ before.world.containers) (hrunning : c.running = true)
    (hran : after.world.executed = before.world.executed ++ [(c.listing, command)])
    (hsent : after.session.sent = before.session.sent ++ sent) :
    CommandsNamed name before after ↔ c.called name = true := by
  constructor
  · rintro ⟨ran, -, hran', -, honly, -⟩
    obtain rfl := List.append_cancel_left (hran'.symm.trans hran)
    rw [← contains_listing]
    exact List.contains_iff_mem.mpr (honly _ (List.mem_singleton.mpr rfl))
  · intro hcalled
    refine ⟨_, sent, hran, hsent, fun x hx => ?_, fun hnone => ?_⟩
    · rw [List.mem_singleton.mp hx]
      rw [← contains_listing] at hcalled
      exact List.contains_iff_mem.mp hcalled
    · rw [hnone c hc hrunning] at hcalled
      cases hcalled

/-- A command that was run: the state it leaves, and what was reported since. -/
theorem endState_ran (tools : Tools Engine) (deliver : Nat → Delivery) (topic : String)
    {run : Run Engine} {c : HostContainer} {command : Json}
    (hname : getParam parameters "name" = .str name)
    (hcommand : getParam parameters "command" = command)
    (hfind : run.world.containers.find? (HostContainer.passes name) = some c)
    (haccepts : b.accepts c.listing command = .ok ()) :
    ∃ sent,
      (endState ((dockerCommand (tools.onEngine b) deliver parameters topic).run
          run)).world.executed = run.world.executed ++ [(c.listing, command)] ∧
        (endState ((dockerCommand (tools.onEngine b) deliver parameters topic).run
          run)).session.sent = run.session.sent ++ sent := by
  unfold dockerCommand
  rw [endState_reportedStep, run_dockerCommandTool hname, hfind, hcommand]
  dsimp only
  rw [haccepts]
  dsimp only
  cases b.output c.listing command with
  | error e =>
    obtain ⟨sent, hsent, hworld, -⟩ := failed_adds deliver topic "docker_command"
      (getParam parameters "stepid") e.message
      { run with world := run.world.ran c.listing command }
    exact ⟨sent, congrArg Engine.executed hworld, hsent⟩
  | ok out =>
    dsimp only
    cases (deliver run.session.sent.length).raises with
    | none => exact ⟨_, rfl, rfl⟩
    | some e =>
      dsimp only
      let passed : Report :=
        ⟨topic, "docker_command", out, .pass, getParam parameters "stepid"⟩
      obtain ⟨sent, hsent, hworld, -⟩ := failed_adds deliver topic "docker_command"
        (getParam parameters "stepid") e.message
        (Run.after deliver passed { run with world := run.world.ran c.listing command })
      refine ⟨passed :: sent, congrArg Engine.executed hworld, hsent.trans ?_⟩
      exact List.append_assoc run.session.sent [passed] sent

/-- **When a command stays with the named container.** -/
theorem commandsNamed_iff {run : Run Engine} (hname : getParam parameters "name" = .str name) :
    CommandsNamed name run
        (endState ((dockerCommand (tools.onEngine b) deliver parameters topic).run run)) ↔
      FirstMatchNamed b name (getParam parameters "command") run.world := by
  generalize hcommand : getParam parameters "command" = command
  unfold FirstMatchNamed
  cases hfind : run.world.containers.find? (HostContainer.passes name) with
  | none =>
    refine ⟨fun _ c hc => (by cases hc), fun _ => ?_⟩
    unfold dockerCommand
    rw [endState_reportedStep, run_dockerCommandTool hname, hfind]
    exact (commandsNamed_raised_iff _ _).mpr (Or.inl ⟨_, rfl⟩)
  | some c =>
    have hc : c ∈ run.world.containers := List.mem_of_find?_eq_some hfind
    have hpasses : c.passes name = true := List.find?_some hfind
    have hrunning : c.running = true := (Bool.and_eq_true_iff.mp hpasses).1
    cases haccepts : b.accepts c.listing command with
    | error e =>
      -- nothing is run
      have hend : endState ((dockerCommand (tools.onEngine b) deliver parameters topic).run run) =
          failed deliver topic "docker_command" (getParam parameters "stepid")
            (dockerHandlerOut e.message) run := by
        unfold dockerCommand
        rw [endState_reportedStep, run_dockerCommandTool hname, hfind, hcommand]
        dsimp only
        rw [haccepts]
      rw [hend, commandsNamed_raised_iff]
      constructor
      · intro h c₁ hc₁
        cases hc₁
        exact Or.inr ⟨e, haccepts, h⟩
      · intro h
        rcases h c rfl with hcalled | ⟨e', he', hstr⟩
        · exact Or.inr ⟨c, hc, hrunning, hcalled⟩
        · rw [haccepts] at he'
          cases he'
          exact hstr
    | ok u =>
      obtain ⟨sent, hran, hsent⟩ :=
        endState_ran tools deliver topic hname hcommand hfind haccepts
      rw [commandsNamed_ran_iff hc hrunning hran hsent]
      constructor
      · intro hcalled c₁ hc₁
        cases hc₁
        exact Or.inl hcalled
      · intro h
        rcases h c rfl with hcalled | ⟨e, he, -⟩
        · exact hcalled
        · rw [haccepts] at he
          cases he

/-- Looking a container up, by its whole name. -/
theorem checked_ascii (run : Run Engine) (hname : getParam parameters "name" = .str name)
    (hascii : isAscii name = true) :
    ∃ found, (checkContainer strOther (engineClient b)).run ⟨parameters, false, run.world⟩ =
        .ok found ⟨parameters, false, run.world⟩ ∧
      (∀ c ∈ run.world.containers, c.called name = true → found = some c.listing) ∧
      ((∀ c ∈ run.world.containers, c.called name = false) → found = none) := by
  refine ⟨(run.world.containers.find? (HostContainer.called name)).map HostContainer.listing,
    ?_, fun c hc hcalled => ?_, fun hnone => ?_⟩
  · rw [run_checkContainer_engine (w := ⟨parameters, false, run.world⟩) hname, if_pos hascii]
  · cases hfind : run.world.containers.find? (HostContainer.called name) with
    | none =>
      have := List.find?_eq_none.mp hfind c hc
      exact absurd hcalled this
    | some c' =>
      have hsame := run.world.eq_of_called (List.mem_of_find?_eq_some hfind) hc
        (List.find?_some hfind) hcalled
      rw [hsame]
      rfl
  · have : run.world.containers.find? (HostContainer.called name) = none := by
      rw [List.find?_eq_none]
      intro c hc hcalled
      rw [hnone c hc] at hcalled
      cases hcalled
    rw [this]
    rfl

/-- Removing a container, by its whole name. -/
theorem removed_named (run : Run Engine) (hname : getParam parameters "name" = .str name)
    (r : EStateM.Result PyError (DockerWorker Engine) Unit)
    (hr : (Docker.removeContainer strOther (engineClient b)).run
      ⟨parameters, false, run.world⟩ = r) :
    (∀ c ∈ run.world.containers, c.called name = false → c ∈ (endState r).dc.containers) ∧
      (∀ c ∈ (endState r).dc.containers, c ∈ run.world.containers) ∧
      ∀ w, r = .ok () w → ∀ c ∈ w.dc.containers, c.called name = false := by
  have hstart : getParam (DockerWorker.mk parameters false run.world).params "name" =
      .str name := hname
  have hframe := @removeContainer_frame strOther b _ _ hstart
  rw [hr] at hframe
  obtain ⟨hleft, hreturns⟩ := hframe
  refine ⟨fun c hc hother => ?_, fun c hc => ?_, fun w hw c hc => ?_⟩
  · rcases hleft with h | h <;> rw [h]
    · exact hc
    · exact List.mem_filter.mpr ⟨hc, by rw [hother]; rfl⟩
  · rcases hleft with h | h <;> rw [h] at hc
    · exact hc
    · exact (List.mem_filter.mp hc).1
  · have := List.find?_eq_none.mp (hreturns w hw) c hc
    simpa using this

/-- **The three methods act on the named container** exactly when its name is in ASCII and the
first container the filter lets through is the named one, or is refused the command. -/
theorem docker_steps_iff (strOther : Json → String) (b : Behaviour) (tools : Tools Engine)
    (deliver : Nat → Delivery) (parameters : List (String × Json)) (topic name : String)
    (run : Run Engine) (hname : getParam parameters "name" = .str name) :
    ActsOnNamed strOther b tools deliver parameters topic name run ↔
      isAscii name = true ∧
        FirstMatchNamed b name (getParam parameters "command") run.world := by
  constructor
  · intro h
    refine ⟨?_, (commandsNamed_iff hname).mp h.commanded⟩
    by_contra hascii
    obtain ⟨found, hfound, -, -⟩ := h.checked
    rw [run_checkContainer_engine (w := ⟨parameters, false, run.world⟩) hname,
      if_neg hascii] at hfound
    cases hfound
  · rintro ⟨hascii, hfirst⟩
    exact {
      checked := checked_ascii run hname hascii
      removed := removed_named run hname
      commanded := (commandsNamed_iff hname).mpr hfirst }

/-- Two running containers, in the order they are listed. -/
def twoRunning (first second : String) (hne : first ≠ second) : Engine where
  containers := [⟨[first], "Up 2 hours", true⟩, ⟨[second], "Up 2 hours", true⟩]
  jobs := []
  executed := []
  uniqueNames := by simpa using hne

/-- A daemon that does what it is asked. -/
def obliging : Behaviour := ⟨none, fun _ _ => .ok (), fun _ _ => .ok (.bytes "done")⟩

/-- Tools of which only the docker client is used. -/
def engineTools : Tools Engine where
  requestsGet _ := pure ⟨200, .ok ""⟩
  requestsPost _ _ := pure ⟨200, .ok ""⟩
  docker := engineClient obliging
  execute _ _ _ := pure (.bytes "", .bytes "")

/-- A step that looks into the container `web`, on these two. -/
def webStep : List (String × Json) := [("name", .str "web"), ("command", .str "ls")]

/-- With `web` listed first it is found. -/
theorem docker_steps_web_first :
    ActsOnNamed (fun _ => "None") obliging engineTools (fun _ => .lost) webStep "worker" "web"
      ⟨⟨⟨1, 1, "7", "login"⟩, []⟩, twoRunning "web" "web-old" (by decide)⟩ := by
  refine (docker_steps_iff _ obliging engineTools _ webStep "worker" "web" _ rfl).mpr
    ⟨by decide, fun c hc => ?_⟩
  have hfirst : (twoRunning "web" "web-old" (by decide)).containers.find?
      (HostContainer.passes "web") = some ⟨["web"], "Up 2 hours", true⟩ := by decide
  rw [hfirst] at hc
  cases hc
  exact Or.inl (by decide)

/-- With `web-old` listed first the command is run there, though `web` is running. -/
theorem docker_command_elsewhere :
    ¬ ActsOnNamed (fun _ => "None") obliging engineTools (fun _ => .lost) webStep "worker" "web"
      ⟨⟨⟨1, 1, "7", "login"⟩, []⟩, twoRunning "web-old" "web" (by decide)⟩ := by
  intro h
  have hfirst : (twoRunning "web-old" "web" (by decide)).containers.find?
      (HostContainer.passes "web") = some ⟨["web-old"], "Up 2 hours", true⟩ := by decide
  rcases (commandsNamed_iff rfl).mp h.commanded _ hfirst with hcalled | ⟨e, he, -⟩
  · revert hcalled
    decide
  · cases he

end PolarBear.Worker
