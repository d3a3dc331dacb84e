import PolarBear.Docker.Daemon

/-!
# The failures a worker checks for

`DockerWorker` looks for four failures itself and builds a message for each: a status with an
error in the stream of a pull, a container to stop that is not there, and an exit code that is
not zero; `docker_command` looks for a running container. None of the messages is raised. What
stands after `raise` is a text, which is no exception, and the class has neither the `module`
that is to fail nor the `get_image_id` that `pull_image` asks before it pulls.

`StartHits` says when `start_container` comes to one of its failures, statement by statement
and for any client; `startContainer_hits` is what it raises then.
-/

namespace PolarBear.Docker

open PolarBear.Py
open PolarBear.Fallible

variable {κ α : Type}

/-- A failure, with what its message tells. -/
inductive Failure where
  | imageMissing (image tag : String)
  | pullError (error : String)
  | noContainer (name : String)
  | exited (rc : String)
  | notRunning
  deriving DecidableEq, Repr

/-- The message that is built. -/
def Failure.message : Failure → String
  | .imageMissing image tag => "The requested image does not exist: " ++ image ++ ":" ++ tag
  | .pullError error => "Unknown error message: " ++ error
  | .noContainer name => "No such container: " ++ name ++ " to stop"
  | .exited rc => "Container exited with non-zero return code " ++ rc
  | .notRunning => "container is not running"

/-- A missing attribute of the class. -/
def lostAttribute (name : String) : PyError :=
  .of .attributeError ("'DockerWorker' object has no attribute '" ++ name ++ "'")

/-- What is raised in its place. -/
def Failure.raised : Failure → PyError
  | .imageMissing _ _ => lostAttribute "get_image_id"
  | .pullError _ => lostAttribute "get_image_id"
  | .noContainer _ => .raisedText
  | .exited _ => .raisedText
  | .notRunning => .raisedText

/-! ## Where they stand -/

/-- `pull_image` up to the image id. -/
def pullReference (client : DockerClient κ) : Method κ (String × String) := do
  if (← param "auth_username").truthy then
    onClient (client.login (← param "auth_username") (← param "auth_password")
      (← param "auth_registry") (← param "auth_email"))
  ofExcept (parseImage (← param "image"))

/-- The statuses that `pull_image` is to read, with the image and the tag they are of. -/
def pullStream (client : DockerClient κ) : Method κ ((String × String) × List Json) := do
  let reference ← pullReference client
  let statuses ← onClient (client.pull reference.1 reference.2)
  pure (reference, statuses)

/-- `status['error']`, if there is one. -/
def errorOf : Json → Option Json
  | .obj fields => fields.lookup "error"
  | _ => none

/-- `s.endswith(suffix)`. -/
def endsWith (suffix s : String) : Bool := suffix.toList.isSuffixOf s.toList

/-- The failure of a stream. It is read from its end, and an error is a text. -/
def pullFailure (image tag : String) (statuses : List Json) : Option Failure :=
  match statuses.reverse.findSome? errorOf with
  | some (.str error) =>
    some (if endsWith "not found" error then .imageMissing image tag else .pullError error)
  | _ => none

/-- A stream without an error. -/
def PullsClean (client : DockerClient κ) (w : DockerWorker κ) : Prop :=
  ∃ reference statuses w', (pullStream client).run w = .ok (reference, statuses) w' ∧
    ∀ status ∈ statuses, errorOf status = none

variable (strOther : Json → String)

/-- `"%s" % rc`. -/
def percentS : Json → String
  | .str s => s
  | rc => strOther rc

/-- `start_container` until the container is up. -/
def bringUp (client : DockerClient κ) : Method κ Unit := do
  ensureImage client
  let container ← ensureContainer strOther client
  ensureUp client container

/-- The return code of a container in the foreground. -/
def exitCode (client : DockerClient κ) : Method κ Json := do
  let rc ← onClient (client.wait (← param "name"))
  let rc ← ofExcept (statusCode rc)
  let _stdout ← onClient (client.logs (← param "name") true false)
  let _stderr ← onClient (client.logs (← param "name") false true)
  pure rc

/-- The container is stopped and removed, if it is not to stay. -/
def cleanUp (client : DockerClient κ) : Method κ Unit := do
  if (← param "remove_on_exit").truthy then
    stopContainer strOther client
    removeContainer strOther client

/-- `stop_container` finds no container. -/
def StopHits (client : DockerClient κ) (w : DockerWorker κ) (name : String) : Prop :=
  (getParam w.params "name").pyStr strOther = .ok name ∧
    ∃ w', (checkContainer strOther client).run w = .ok none w'

/-- A container in the foreground has exited. -/
inductive ExitHits (client : DockerClient κ) (w : DockerWorker κ) : Failure → Prop
  | stop {rc : Json} {w₁ : DockerWorker κ} {name : String} :
      (exitCode client).run w = .ok rc w₁ → (getParam w₁.params "remove_on_exit").truthy = true →
      StopHits strOther client w₁ name → ExitHits client w (.noContainer name)
  | exited {rc : Json} {w₁ w₂ : DockerWorker κ} :
      (exitCode client).run w = .ok rc w₁ → (cleanUp strOther client).run w₁ = .ok () w₂ →
      rc.isZero = false → ExitHits client w (.exited (percentS strOther rc))

/-- `start_container` comes to a failure. A container that is there already is compared by a
method that is missing, so it is stopped nowhere but at its exit. -/
inductive StartHits (client : DockerClient κ) (w : DockerWorker κ) : Failure → Prop
  | pull {w₁ w₂ : DockerWorker κ} {image tag : String} {statuses : List Json} {f : Failure} :
      (checkImage client).run w = .ok none w₁ →
      (pullStream client).run w₁ = .ok ((image, tag), statuses) w₂ →
      pullFailure image tag statuses = some f → StartHits client w f
  | exit {w₁ : DockerWorker κ} {f : Failure} :
      (bringUp strOther client).run w = .ok () w₁ → (getParam w₁.params "detach").truthy = false →
      ExitHits strOther client w₁ f → StartHits client w f

/-! ## What is raised there -/

variable {strOther} {client : DockerClient κ} {w w₁ : DockerWorker κ} {f : Failure}

/-- The reference is read, and the image id is asked for after it. -/
theorem run_pullParsed (client : DockerClient κ) (w : DockerWorker κ) :
    (do
      let (image, tag) ← ofExcept (parseImage (← param "image"))
      let oldImageId ← getImageId
      let statuses ← onClient (client.pull image tag)
      statuses.reverse.forM pullStatus
      let newImageId ← getImageId
      setChanged (oldImageId != newImageId) : Method κ Unit).run w =
      match (do ofExcept (parseImage (← param "image")) : Method κ (String × String)).run w with
      | .ok _ w₁ => .error (lostAttribute "get_image_id") w₁
      | .error e w₁ => .error e w₁ := by
  rw [run_bind_ok (run_param _ w), run_bind_ok (run_param _ w), EStateM.run_bind]
  cases parseImage (getParam w.params "image") with
  | ok reference => rfl
  | error e => rfl

/-- **`pull_image`** asks for the image id as soon as it has the reference. -/
theorem run_pullImage (client : DockerClient κ) (w : DockerWorker κ) :
    (pullImage client).run w = match (pullReference client).run w with
      | .ok _ w₁ => .error (lostAttribute "get_image_id") w₁
      | .error e w₁ => .error e w₁ := by
  -- whether it logs in or not
  unfold pullImage pullReference
  rw [run_bind_ok (run_param _ w), run_bind_ok (run_param _ w)]
  split
  · rw [run_bind_ok (run_param _ w), run_bind_ok (run_param _ w), run_bind_ok (run_param _ w),
      run_bind_ok (run_param _ w), run_bind_ok (run_param _ w), run_bind_ok (run_param _ w),
      run_bind_ok (run_param _ w), run_bind_ok (run_param _ w), EStateM.run_bind,
      EStateM.run_bind]
    cases (onClient (client.login _ _ _ _) : Method κ Unit).run w with
    | ok u w₁ => exact run_pullParsed client w₁
    | error e w₁ => rfl
  · exact run_pullParsed client w

/-- **`stop_container`** of a container that is not there. -/
theorem stopHits_raises {name : String} (h : StopHits strOther client w name) :
    ∃ w', (stopContainer strOther client).run w = .error .raisedText w' := by
  obtain ⟨hname, w', hcheck⟩ := h
  refine ⟨w', ?_⟩
  unfold stopContainer
  rw [run_bind_ok (run_param _ w), run_bind_ok (run_param _ w)]
  dsimp only
  rw [run_bind_ok hcheck]
  dsimp only
  rw [run_bind_ok (run_ofExcept_ok hname w')]
  rfl

/-- A foreground container is waited for, cleaned up and then judged. -/
theorem awaitExit_eq : awaitExit strOther client = (do
    let rc ← exitCode client
    cleanUp strOther client
    if !rc.isZero then throw .raisedText) := by
  unfold awaitExit exitCode cleanUp
  simp only [bind_assoc, pure_bind]
  repeat (refine bind_congr (fun _ => ?_))
  split
  · simp only [bind_assoc]
  · simp only [pure_bind]

theorem startContainer_eq : startContainer strOther client = (do
    bringUp strOther client
    if !(← param "detach").truthy then awaitExit strOther client) := by
  unfold startContainer bringUp
  simp only [bind_assoc]

/-- The stream is that of the reference. -/
theorem pullReference_of_pullStream {reference : String × String} {statuses : List Json}
    (h : (pullStream client).run w = .ok (reference, statuses) w₁) :
    ∃ w₂, (pullReference client).run w = .ok reference w₂ := by
  unfold pullStream at h
  obtain ⟨reference', w₂, hreference, h⟩ := run_bind_ok_iff.mp h
  obtain ⟨statuses', w₃, -, h⟩ := run_bind_ok_iff.mp h
  cases h
  exact ⟨w₂, hreference⟩

/-- **`pull_image` raises** whatever the stream has, where it gets to pull. -/
theorem pullImage_lost {reference : String × String} {statuses : List Json}
    (h : (pullStream client).run w = .ok (reference, statuses) w₁) :
    ∃ w', (pullImage client).run w = .error (lostAttribute "get_image_id") w' := by
  obtain ⟨w₂, hreference⟩ := pullReference_of_pullStream h
  refine ⟨w₂, ?_⟩
  rw [run_pullImage, hreference]

theorem pullFailure_raised {image tag : String} {statuses : List Json}
    (h : pullFailure image tag statuses = some f) : f.raised = lostAttribute "get_image_id" := by
  unfold pullFailure at h
  split at h
  · cases h
    split <;> rfl
  · cases h

/-- **An exited container**: what is raised is no message. -/
theorem exitHits_raises (h : ExitHits strOther client w f) :
    ∃ w', (awaitExit strOther client).run w = .error f.raised w' := by
  rw [awaitExit_eq]
  cases h with
  | stop hexit hremove hstop =>
    obtain ⟨w', hraises⟩ := stopHits_raises hstop
    refine ⟨w', ?_⟩
    rw [run_bind_ok hexit]
    -- cleaning up raises before the return code is looked at
    refine run_bind_error ?_
    unfold cleanUp
    rw [run_bind_ok (run_param _ _), if_pos hremove]
    exact run_bind_error hraises
  | exited hexit hclean hzero =>
    rw [run_bind_ok hexit, run_bind_ok hclean, hzero]
    exact ⟨_, rfl⟩

/-- **Main result for the worker.** Where `start_container` comes to a failure, it raises an
exception of the interpreter. -/
theorem startContainer_hits (h : StartHits strOther client w f) :
    ∃ w', (startContainer strOther client).run w = .error f.raised w' := by
  cases h with
  | pull hcheck hstream hfailure =>
    obtain ⟨w', hpull⟩ := pullImage_lost hstream
    refine ⟨w', ?_⟩
    unfold startContainer
    refine run_bind_error ?_
    unfold ensureImage
    rw [run_bind_ok hcheck, pullFailure_raised hfailure]
    exact hpull
  | exit hup hdetach hexit =>
    obtain ⟨w', hraises⟩ := exitHits_raises hexit
    refine ⟨w', ?_⟩
    rw [startContainer_eq, run_bind_ok hup, run_bind_ok (run_param _ _), hdetach]
    exact hraises

/-! ## Messages -/

/-- The text of a message. -/
def textOf : PyVal → Option String
  | .unicode s => some s
  | .bytes s => some s
  | .object _ => none

theorem head?_ofList (c : Char) (cs : List Char) :
    (String.ofList (c :: cs)).toList.head? = some c := by
  rw [String.toList_ofList]
  rfl

theorem head?_append {a : String} {c : Char} (h : a.toList.head? = some c) (b : String) :
    (a ++ b).toList.head? = some c := by
  rw [String.toList_append, List.head?_append, h]
  rfl

/-- What is raised reads like no message that is built: it starts with another letter. -/
theorem textOf_raised_ne (f : Failure) : textOf f.raised.message ≠ some f.message := by
  have hletters : ∀ {c c' : Char} {s : String}, textOf f.raised.message = some s →
      s.toList.head? = some c → f.message.toList.head? = some c' → c ≠ c' →
      textOf f.raised.message ≠ some f.message := by
    intro c c' s hraised hfirst hmessage hne h
    rw [← Option.some.inj (hraised.symm.trans h), hfirst] at hmessage
    exact hne (Option.some.inj hmessage)
  have hattribute :
      ("'DockerWorker' object has no attribute '" ++ "get_image_id" ++ "'").toList.head? =
        some '\'' := head?_append (head?_append (head?_ofList _ _) _) _
  have htype : ("exceptions must be old-style classes or derived from BaseException, not str"
      : String).toList.head? = some 'e' := head?_ofList _ _
  cases f with
  | imageMissing image tag =>
    have hmessage : (Failure.imageMissing image tag).message.toList.head? = some 'T' :=
      head?_append (head?_append (head?_append (head?_ofList _ _) image) ":") tag
    exact hletters rfl hattribute hmessage (by decide)
  | pullError error =>
    have hmessage : (Failure.pullError error).message.toList.head? = some 'U' :=
      head?_append (head?_ofList _ _) error
    exact hletters rfl hattribute hmessage (by decide)
  | noContainer name =>
    have hmessage : (Failure.noContainer name).message.toList.head? = some 'N' :=
      head?_append (head?_append (head?_ofList _ _) name) " to stop"
    exact hletters rfl htype hmessage (by decide)
  | exited rc =>
    have hmessage : (Failure.exited rc).message.toList.head? = some 'C' :=
      head?_append (head?_ofList _ _) rc
    exact hletters rfl htype hmessage (by decide)
  | notRunning =>
    have hmessage : Failure.notRunning.message.toList.head? = some 'c' := head?_ofList _ _
    exact hletters rfl htype hmessage (by decide)

end PolarBear.Docker
