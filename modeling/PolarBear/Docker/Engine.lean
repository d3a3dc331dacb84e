import Mathlib.Data.List.Flatten
import Mathlib.Data.List.Nodup
import Mathlib.Data.List.Pairwise
import PolarBear.Docker.Daemon

/-!
# Containers and their names

`Engine` is a daemon whose containers have any number of names, no name twice.
What it makes of a removal, of `exec_create` and of a command is left open: a
removal may fail before or after the container is gone. `execute` starts and
keeps what was run where.

`check_container` compares names as a whole, and `remove_container` passes the
name on, so both act on the container that has it (`run_checkContainer_engine`,
`removeContainer_frame`). The name filter of the daemon looks for a text anywhere
in a name.
-/

namespace PolarBear.Docker

open PolarBear.Py
open PolarBear.Fallible

/-- A container, with its names as they were given. -/
structure HostContainer where
  names : List String
  status : String
  running : Bool
  deriving DecidableEq

/-- Its entry in `dc.containers()`; each name has a leading slash. -/
def HostContainer.listing (c : HostContainer) : Container :=
  ⟨c.names.map (fun name => "/" ++ name), c.status⟩

def HostContainer.called (name : String) (c : HostContainer) : Bool := c.names.contains name

/-- The containers, the commands created and the commands run. -/
structure Engine where
  containers : List HostContainer
  jobs : List (Container × Json)
  executed : List (Container × Json)
  uniqueNames : (containers.flatMap HostContainer.names).Nodup

/-- The container with a name is gone. -/
def Engine.without (d : Engine) (name : String) : Engine where
  containers := d.containers.filter (fun c => !c.called name)
  jobs := d.jobs
  executed := d.executed
  uniqueNames := d.uniqueNames.sublist (List.filter_sublist.flatMap _)

/-- A removal that fails: what it raises, and whether the container is gone all the same. -/
structure RemovalFailure where
  raised : PyError
  gone : Bool

/-- What an engine makes of what it is asked. -/
structure Behaviour where
  removal : Option RemovalFailure
  accepts : Container → Json → Except PyError Unit
  output : Container → Json → Except PyError PyVal

/-- `dc.remove_container(container=name, force=True)`. -/
def Engine.remove (failure : Option RemovalFailure) : Json → EStateM PyError Engine Unit
  | .str name => do
    let d : Engine ← get
    if d.containers.any (HostContainer.called name) then
      match failure with
      | none => set (d.without name)
      | some f =>
        if f.gone then set (d.without name)
        throw f.raised
    else throw (apiError "No such container")
  | _ => throw (apiError "bad parameter")

/-- The containers the daemon's filter lets through. -/
def HostContainer.passes (text : String) (c : HostContainer) : Bool :=
  c.running && c.listing.names.any (isInText text)

/-- The listing that a query asks for. -/
def Engine.listing (d : Engine) : ContainerQuery → List Container
  | .all => d.containers.map HostContainer.listing
  | .filters (.str name) "running" =>
    (d.containers.filter (HostContainer.passes name)).map HostContainer.listing
  | .filters _ _ => d.containers.map HostContainer.listing

/-- `dc.exec_create`: a command that is accepted gets a job. -/
def Engine.execCreate (b : Behaviour) (con : Container) (command : Json) :
    EStateM PyError Engine Json := do
  ofExcept (b.accepts con command)
  let d : Engine ← get
  set { d with jobs := d.jobs ++ [(con, command)] }
  pure (.int d.jobs.length)

/-- `dc.exec_start`: the command of a job is run. -/
def Engine.execStart (b : Behaviour) (job : Json) : EStateM PyError Engine PyVal := do
  let d : Engine ← get
  match job with
  | .int n =>
    match d.jobs[n.toNat]? with
    | some (con, command) =>
      set { d with executed := d.executed ++ [(con, command)] }
      ofExcept (b.output con command)
    | none => throw (apiError "No such exec instance")
  | _ => throw (apiError "No such exec instance")

/-- The client of an engine. The operations that neither name a container nor run a command
do not matter here. -/
def engineClient (b : Behaviour) : DockerClient Engine where
  connect _ := pure ()
  login _ _ _ _ := pure ()
  images := pure []
  containers query := do pure ((← get).listing query)
  pull _ _ := pure []
  createHostConfig options := pure (.obj options)
  createContainer _ := pure ()
  start _ := pure ()
  stop _ _ := pure ()
  removeContainer name _ := Engine.remove b.removal name
  wait _ := pure (.int 0)
  logs _ _ _ := pure (.bytes "")
  execCreate := Engine.execCreate b
  execStart := Engine.execStart b

/-- The engine after a command was run. -/
def Engine.ran (d : Engine) (con : Container) (command : Json) : Engine :=
  { d with jobs := d.jobs ++ [(con, command)], executed := d.executed ++ [(con, command)] }

/-! ## Names -/

theorem contains_listing (name : String) (c : HostContainer) :
    c.listing.names.contains ("/" ++ name) = c.called name := by
  have hmem : "/" ++ name ∈ c.listing.names ↔ name ∈ c.names := by
    constructor
    · intro h
      obtain ⟨n, hn, heq⟩ := List.mem_map.mp h
      obtain rfl : n = name := String.append_right_inj "/" |>.mp heq
      exact hn
    · exact fun h => List.mem_map.mpr ⟨name, h, rfl⟩
  unfold HostContainer.called
  rw [List.contains_eq_mem, List.contains_eq_mem]
  exact decide_eq_decide.mpr hmem

/-- The name determines the container. -/
theorem Engine.eq_of_called (d : Engine) {name : String} {c c' : HostContainer}
    (hc : c ∈ d.containers) (hc' : c' ∈ d.containers) (h : c.called name = true)
    (h' : c'.called name = true) : c = c' := by
  by_contra hne
  have hdisjoint := (List.nodup_flatMap.mp d.uniqueNames).2
  have : Std.Symm (Function.onFun List.Disjoint HostContainer.names) :=
    ⟨fun _ _ h _ hn hn' => h hn' hn⟩
  exact hdisjoint.forall hc hc' hne (List.contains_iff_mem.mp h) (List.contains_iff_mem.mp h')

theorem findContainer_listing (name : String) (containers : List HostContainer) :
    findContainer ("/" ++ name) (containers.map HostContainer.listing) =
      (containers.find? (HostContainer.called name)).map HostContainer.listing := by
  unfold findContainer
  rw [List.find?_map]
  have hsame : (fun cont : Container => cont.names.contains ("/" ++ name)) ∘ HostContainer.listing
      = HostContainer.called name := funext (contains_listing name)
  rw [hsame]

/-! ## `check_container` and `remove_container` -/

section

variable {strOther : Json → String} {b : Behaviour} {w : DockerWorker Engine} {name : String}

/-- Looking for a container changes nothing. The name is formatted first. -/
theorem run_checkContainer_engine (hname : getParam w.params "name" = .str name) :
    (checkContainer strOther (engineClient b)).run w =
      if isAscii name then
        .ok ((w.dc.containers.find? (HostContainer.called name)).map HostContainer.listing) w
      else .error .encode w := by
  unfold checkContainer
  rw [EStateM.run_bind, run_param]
  dsimp only
  have hstr : (Json.str name).pyStr strOther = if isAscii name then .ok name else .error .encode :=
    rfl
  rw [EStateM.run_bind, hname, hstr]
  by_cases hascii : isAscii name = true
  · rw [if_pos hascii, if_pos hascii]
    show EStateM.Result.ok (findContainer ("/" ++ name) (w.dc.containers.map _)) w = _
    rw [findContainer_listing]
  · rw [if_neg hascii, if_neg hascii]
    rfl

theorem any_called (h : (w.dc.containers.find? (HostContainer.called name)).isSome = true) :
    w.dc.containers.any (HostContainer.called name) = true := by
  rw [List.find?_isSome] at h
  exact List.any_eq_true.mpr h

theorem Engine.find_without (d : Engine) (name : String) :
    (d.without name).containers.find? (HostContainer.called name) = none := by
  rw [List.find?_eq_none]
  intro c hc hcalled
  have hother := (List.mem_filter.mp hc).2
  rw [hcalled] at hother
  cases hother

/-- The part of a worker's state that a removal leaves. -/
def DockerWorker.removed (w : DockerWorker Engine) (dc : Engine) : DockerWorker Engine :=
  { w with changed := true, dc := dc }

/-- The call of `dc.remove_container`. -/
theorem run_removeCall (hname : getParam w.params "name" = .str name)
    (hany : w.dc.containers.any (HostContainer.called name) = true) :
    (do onClient ((engineClient b).removeContainer (← param "name") true) :
        Method Engine Unit).run (w.removed w.dc) =
      match b.removal with
      | none => .ok () (w.removed (w.dc.without name))
      | some f => .error f.raised (w.removed (if f.gone then w.dc.without name else w.dc)) := by
  have hparam : getParam (w.removed w.dc).params "name" = .str name := hname
  have hengine : (Engine.remove b.removal (.str name)).run w.dc = match b.removal with
      | none => .ok () (w.dc.without name)
      | some f => .error f.raised (if f.gone then w.dc.without name else w.dc) := by
    unfold Engine.remove
    rw [EStateM.run_bind, EStateM.run_get]
    dsimp only
    rw [if_pos hany]
    cases b.removal with
    | none => rfl
    | some f =>
      obtain ⟨raised, gone⟩ := f
      cases gone <;> rfl
  rw [EStateM.run_bind, run_param, hparam]
  show (onClient (Engine.remove b.removal (.str name))).run (w.removed w.dc) = _
  unfold onClient DockerWorker.removed
  rw [run_onPart]
  dsimp only
  rw [hengine]
  cases b.removal <;> rfl

/-- Looking once more, after the call has raised. -/
theorem run_checkAgain (hname : getParam w.params "name" = .str name)
    (hascii : isAscii name = true) (dc : Engine) :
    (checkContainer strOther (engineClient b)).run (w.removed dc) =
      .ok ((dc.containers.find? (HostContainer.called name)).map HostContainer.listing)
        (w.removed dc) := by
  rw [run_checkContainer_engine (w := w.removed dc) hname, if_pos hascii]
  rfl

/-- **`remove_container` of a container that is there**: an `APIError` counts only if the
container is there afterwards. -/
theorem run_removeContainer_present (hname : getParam w.params "name" = .str name)
    (hascii : isAscii name = true) {c : HostContainer}
    (hfind : w.dc.containers.find? (HostContainer.called name) = some c) :
    (removeContainer strOther (engineClient b)).run w =
      match b.removal with
      | none => .ok () (w.removed (w.dc.without name))
      | some f =>
        if f.raised.cls = .apiError ∧ f.gone = true then .ok () (w.removed (w.dc.without name))
        else .error f.raised (w.removed (if f.gone then w.dc.without name else w.dc)) := by
  have hcheck : (checkContainer strOther (engineClient b)).run w = _ :=
    run_checkContainer_engine hname
  rw [if_pos hascii, hfind] at hcheck
  have hany : w.dc.containers.any (HostContainer.called name) = true :=
    any_called (by rw [hfind]; rfl)
  have hcall := run_removeCall (b := b) hname hany
  have hchanged : (setChanged true : Method Engine Unit).run w = .ok () (w.removed w.dc) := rfl
  unfold removeContainer
  rw [run_bind_ok hcheck]
  dsimp only [Option.map_some, Option.isSome_some]
  rw [if_pos rfl, run_bind_ok hchanged, run_tryCatch, hcall]
  cases b.removal with
  | none => rfl
  | some f =>
    dsimp only
    by_cases hapi : f.raised.cls = .apiError
    · rw [if_pos hapi, run_bind_ok (run_checkAgain hname hascii _)]
      cases hgone : f.gone with
      | true =>
        have hboth : f.raised.cls = .apiError ∧ true = true := ⟨hapi, rfl⟩
        rw [if_pos rfl, Engine.find_without, if_pos hboth]
        rfl
      | false =>
        have hstays : ¬ (f.raised.cls = .apiError ∧ false = true) :=
          fun h => Bool.false_ne_true h.2
        rw [if_neg Bool.false_ne_true, hfind, if_neg hstays]
        rfl
    · -- an exception of another class passes through
      have hother : ¬ (f.raised.cls = .apiError ∧ f.gone = true) := fun h => hapi h.1
      rw [if_neg hapi, if_neg hother]
      rfl

/-- **What `remove_container` leaves**: everything, or everything but the named container; and
when it returns, the named container is gone. -/
theorem removeContainer_frame (hname : getParam w.params "name" = .str name) :
    ((endState ((removeContainer strOther (engineClient b)).run w)).dc = w.dc ∨
      (endState ((removeContainer strOther (engineClient b)).run w)).dc = w.dc.without name) ∧
    ∀ w', (removeContainer strOther (engineClient b)).run w = .ok () w' →
      w'.dc.containers.find? (HostContainer.called name) = none := by
  have hcheck : (checkContainer strOther (engineClient b)).run w = _ :=
    run_checkContainer_engine hname
  by_cases hascii : isAscii name = true
  · rw [if_pos hascii] at hcheck
    cases hfind : w.dc.containers.find? (HostContainer.called name) with
    | none =>
      -- nothing to remove
      rw [hfind] at hcheck
      unfold removeContainer
      rw [run_bind_ok hcheck]
      refine ⟨Or.inl rfl, fun w' h => ?_⟩
      cases h
      exact hfind
    | some c =>
      rw [run_removeContainer_present hname hascii hfind]
      cases b.removal with
      | none =>
        refine ⟨Or.inr rfl, fun w' h => ?_⟩
        cases h
        exact w.dc.find_without name
      | some f =>
        dsimp only
        split
        · refine ⟨Or.inr rfl, fun w' h => ?_⟩
          cases h
          exact w.dc.find_without name
        · refine ⟨?_, fun w' h => (by cases h)⟩
          show (if f.gone then w.dc.without name else w.dc) = w.dc ∨ _
          split
          · exact Or.inr rfl
          · exact Or.inl rfl
  · -- the name cannot be formatted
    rw [if_neg hascii] at hcheck
    unfold removeContainer
    rw [run_bind_error hcheck]
    exact ⟨Or.inl rfl, fun w' h => (by cases h)⟩

end

end PolarBear.Docker
