import PolarBear.Lib.Fallible
import PolarBear.Py.Builtins

/-!
# `DockerWorker`: one docker step

`DockerWorker` carries out what a docker step asks for through
`docker.APIClient`. The client is an interface here, `DockerClient`: one
operation for each method the worker calls, on a state `κ` that nothing in this
module looks at. A concrete daemon implements it in `PolarBear.Docker.Daemon`;
what is proved for every client holds of any behaviour of docker.

The worker keeps its parameters in `params` and normalises some of them in
place, so they are part of its state, next to `changed`.

Two names the methods use were never defined on the class: `get_image_id`, the
first thing `pull_image` asks for after parsing the reference, and
`check_container_differs`, asked of every container that already exists. Both
lookups raise `AttributeError`.
-/

namespace PolarBear.Docker

open PolarBear.Py
open PolarBear.Fallible

/-- An entry of `dc.containers()`. -/
structure Container where
  names : List String
  status : String
  deriving DecidableEq, Repr

/-- An entry of `dc.images()`. -/
structure Image where
  repoTags : Option (List String)
  deriving DecidableEq, Repr

/-- The arguments of `dc.containers`. -/
inductive ContainerQuery where
  | all
  | filters (name : Json) (status : String)

/-- The operations of `docker.APIClient` the worker uses, on a state `κ`. -/
structure DockerClient (κ : Type) where
  connect : (version : Json) → EStateM PyError κ Unit
  login : (username password registry email : Json) → EStateM PyError κ Unit
  images : EStateM PyError κ (List Image)
  containers : ContainerQuery → EStateM PyError κ (List Container)
  pull : (repository tag : String) → EStateM PyError κ (List Json)
  createHostConfig : (options : List (String × Json)) → EStateM PyError κ Json
  createContainer : (options : List (String × Json)) → EStateM PyError κ Unit
  start : (container : Json) → EStateM PyError κ Unit
  stop : (container timeout : Json) → EStateM PyError κ Unit
  removeContainer : (container : Json) → (force : Bool) → EStateM PyError κ Unit
  wait : (container : Json) → EStateM PyError κ Json
  logs : (container : Json) → (stdout stderr : Bool) → EStateM PyError κ PyVal
  execCreate : (container : Container) → (command : Json) → EStateM PyError κ Json
  execStart : (job : Json) → EStateM PyError κ PyVal

/-- A `DockerWorker` object, with what its client works on. -/
structure DockerWorker (κ : Type) where
  params : List (String × Json)
  changed : Bool
  dc : κ

variable {κ α : Type}

/-- A method of the worker. -/
abbrev Method (κ α : Type) : Type := EStateM PyError (DockerWorker κ) α

/-- A call on `self.dc`. -/
def onClient (x : EStateM PyError κ α) : Method κ α :=
  onPart DockerWorker.dc (fun d w => { w with dc := d }) x

/-- `self.params.get(k)`. -/
def param (k : String) : Method κ Json := do
  let w ← get
  pure (getParam w.params k)

/-- `self.params[k] = v`. -/
def setParam (k : String) (v : Json) : Method κ Unit :=
  modify (fun w => { w with params := Dict.set k v w.params })

/-- `self.params[k] = bool(self.params[k])`. -/
def boolParam (k : String) : Method κ Unit := do
  let w ← get
  match w.params.lookup k with
  | some v => setParam k (.bool v.truthy)
  | none => throw (.key k)

/-- `self.changed = b`. -/
def setChanged (b : Bool) : Method κ Unit := modify (fun w => { w with changed := b })

/-- A method the class does not have. -/
def missingAttribute (name : String) : Method κ α :=
  throw (.of .attributeError ("'DockerWorker' object has no attribute '" ++ name ++ "'"))

/-! ## Volumes and options -/

/-- What `generate_volumes` has collected: container paths and the mapping
from host to bind. -/
structure Volumes where
  volList : List Json
  volDict : List (String × Json)

/-- One round of the loop over `volumes`. -/
def addVolume (acc : Volumes) (vol : Json) : Except PyError Volumes := do
  if (← vol.len) = 0 then .ok acc
  else if !(← vol.contains ':') then .ok { acc with volList := acc.volList ++ [vol] }
  else
    let splitVol := split ':' (← vol.asText "split")
    match splitVol with
    | [] => .ok acc -- `split` gives at least one part
    | [_] => .error (.of .indexError "list index out of range")
    | [host, bind] =>
      -- no mode is added where the host is a path and the container part is not
      if !host.toList.contains '/' || bind.toList.contains '/' then
        .ok ⟨acc.volList ++ [.str bind],
          Dict.set host (.obj [("bind", .str bind), ("mode", .str "rw")]) acc.volDict⟩
      else .error (.of .indexError "list index out of range")
    | host :: bind :: mode :: _ =>
      .ok ⟨acc.volList ++ [.str bind],
        Dict.set host (.obj [("bind", .str bind), ("mode", .str mode)]) acc.volDict⟩

/-- `None, None` without volumes. -/
def generateVolumes (volumes : Json) : Except PyError (Option Volumes) :=
  if !volumes.truthy then .ok none
  else do
    let vols ← volumes.iter
    let acc ← vols.foldlM addVolume ⟨[], []⟩
    .ok (some acc)

/-- The restart policies the options know. -/
def restartPolicies : List String := ["on-failure", "always", "unless-stopped"]

/-- The `restart_policy` option. -/
def restartPolicy (policy retries : Json) : Option Json :=
  if restartPolicies.any policy.isText then
    if policy.isText "on-failure" then
      some (.obj [("Name", policy), ("MaximumRetryCount", retries)])
    else some (.obj [("Name", policy)])
  else none

def buildHostConfig (client : DockerClient κ) (binds : Option (List (String × Json))) :
    Method κ Json := do
  if (← param "volumes_from").isText "None" then setParam "volumes_from" .null
  let options := [
    ("network_mode", .str "host"),
    ("ipc_mode", ← param "ipc_mode"),
    ("cap_add", ← param "cap_add"),
    ("security_opt", ← param "security_opt"),
    ("pid_mode", ← param "pid_mode"),
    ("privileged", ← param "privileged"),
    ("volumes_from", ← param "volumes_from")]
  let options := match restartPolicy (← param "restart_policy") (← param "restart_retries") with
    | some policy => options ++ [("restart_policy", policy)]
    | none => options
  let options := match binds with
    | some (b :: bs) => options ++ [("binds", .obj (b :: bs))]
    | _ => options
  onClient (client.createHostConfig options)

def buildContainerOptions (client : DockerClient κ) : Method κ (List (String × Json)) := do
  let volumes ← ofExcept (generateVolumes (← param "volumes"))
  boolParam "tty"
  boolParam "detach"
  boolParam "privileged"
  boolParam "remove_on_exit"
  if (← param "command").isText "None" then setParam "command" .null
  pure [
    ("command", ← param "command"),
    ("detach", ← param "detach"),
    ("environment", ← param "environment"),
    ("host_config", ← buildHostConfig client (volumes.map Volumes.volDict)),
    ("labels", ← param "labels"),
    ("image", ← param "image"),
    ("name", ← param "name"),
    ("volumes", match volumes with
      | some v => .arr v.volList
      | none => .null),
    ("tty", ← param "tty")]

/-! ## Images -/

/-- `parse_image` of a text: repository and tag. -/
def parseReference (fullImage : String) : String × String :=
  let image := if fullImage.toList.contains '/' then afterFirst '/' fullImage else fullImage
  -- a colon before the first slash belongs to a port
  if image.toList.contains ':' then rsplit ':' fullImage else (fullImage, "latest")

/-- `parse_image`. Anything but a text fails, here or where the parts are
joined. -/
def parseImage (fullImage : Json) : Except PyError (String × String) := do
  if ← fullImage.contains '/' then
    let s ← fullImage.asText "split"
    .ok (parseReference s)
  else
    let s ← fullImage.asText "rsplit"
    .ok (parseReference s)

/-- Some image lists the tag. -/
def findImage (find : String) (images : List Image) : Option Image :=
  images.find? (fun image => match image.repoTags with
    | some tags => tags.any (fun name => name == find)
    | none => false)

def checkImage (client : DockerClient κ) : Method κ (Option Image) := do
  let (repository, tag) ← ofExcept (parseImage (← param "image"))
  let images ← onClient client.images
  pure (findImage (repository ++ ":" ++ tag) images)

/-- `self.get_image_id()`. -/
def getImageId : Method κ String := missingAttribute "get_image_id"

/-- `'error' in status`, and what follows for such a status: the class has no
`module` either. -/
def pullStatus (status : Json) : Method κ Unit :=
  match status with
  | .obj fields =>
    match fields.lookup "error" with
    | some _ => missingAttribute "module"
    | none => pure ()
  | _ => pure ()

def pullImage (client : DockerClient κ) : Method κ Unit := do
  if (← param "auth_username").truthy then
    onClient (client.login (← param "auth_username") (← param "auth_password")
      (← param "auth_registry") (← param "auth_email"))
  let (image, tag) ← ofExcept (parseImage (← param "image"))
  let oldImageId ← getImageId
  let statuses ← onClient (client.pull image tag)
  statuses.reverse.forM pullStatus
  let newImageId ← getImageId
  setChanged (oldImageId != newImageId)

/-! ## Containers -/

variable (strOther : Json → String)

/-- The first listed container that has `/name` among its names. -/
def findContainer (findName : String) (containers : List Container) : Option Container :=
  containers.find? (fun cont => cont.names.contains findName)

def checkContainer (client : DockerClient κ) : Method κ (Option Container) := do
  let name ← ofExcept ((← param "name").pyStr strOther)
  let containers ← onClient (client.containers .all)
  pure (findContainer ("/" ++ name) containers)

/-- `self.check_container_differs()`. -/
def checkContainerDiffers : Method κ Bool := missingAttribute "check_container_differs"

def stopContainer (client : DockerClient κ) : Method κ Unit := do
  let name ← param "name"
  let gracefulTimeout ← param "graceful_timeout"
  let gracefulTimeout := if gracefulTimeout.truthy then gracefulTimeout else .int 10
  match ← checkContainer strOther client with
  | none =>
    let _ ← ofExcept (name.pyStr strOther)
    throw .raisedText
  | some container =>
    if !startsWith "Exited " container.status then
      setChanged true
      onClient (client.stop name gracefulTimeout)

def removeContainer (client : DockerClient κ) : Method κ Unit := do
  if (← checkContainer strOther client).isSome then
    setChanged true
    tryCatch (do onClient (client.removeContainer (← param "name") true))
      (fun (e : PyError) => do
        if e.cls = .apiError then
          -- the container may be gone all the same
          if (← checkContainer strOther client).isSome then throw e
        else throw e)

def createContainer (client : DockerClient κ) : Method κ Unit := do
  setChanged true
  let options ← buildContainerOptions client
  onClient (client.createContainer options)

/-- `rc = rc['StatusCode']` if it is a dictionary. -/
def statusCode (rc : Json) : Except PyError Json :=
  if rc.isDict then rc.getItem "StatusCode" else .ok rc

/-! ## `start_container`, in its four parts -/

/-- `if not self.check_image(): self.pull_image()`. -/
def ensureImage (client : DockerClient κ) : Method κ Unit := do
  if (← checkImage client).isNone then pullImage client

/-- Remove a container that differs, create a missing one, and look again. -/
def ensureContainer (client : DockerClient κ) : Method κ (Option Container) := do
  let container ← checkContainer strOther client
  let differs ← if container.isSome then checkContainerDiffers else pure false
  let container ← if differs then
      stopContainer strOther client
      removeContainer strOther client
      checkContainer strOther client
    else pure container
  if container.isNone then
    createContainer client
    checkContainer strOther client
  else pure container

/-- Start the container unless it is up. -/
def ensureUp (client : DockerClient κ) (container : Option Container) : Method κ Unit := do
  match container with
  | none => throw (.of .typeError "'NoneType' object has no attribute '__getitem__'")
  | some container =>
    if !startsWith "Up " container.status then
      setChanged true
      onClient (client.start (← param "name"))

/-- What happens to a container in the foreground. -/
def awaitExit (client : DockerClient κ) : Method κ Unit := do
  let rc ← onClient (client.wait (← param "name"))
  let rc ← ofExcept (statusCode rc)
  let _stdout ← onClient (client.logs (← param "name") true false)
  let _stderr ← onClient (client.logs (← param "name") false true)
  if (← param "remove_on_exit").truthy then
    stopContainer strOther client
    removeContainer strOther client
  if !rc.isZero then throw .raisedText

def startContainer (client : DockerClient κ) : Method κ Unit := do
  ensureImage client
  let container ← ensureContainer strOther client
  ensureUp client container
  if !(← param "detach").truthy then awaitExit strOther client

/-- Run a method of a new worker on the state of its client. -/
def runMethod (parameters : List (String × Json)) (method : Method κ Unit) :
    EStateM PyError κ Unit := fun d =>
  match method.run ⟨parameters, false, d⟩ with
  | .ok a w => .ok a w.dc
  | .error e w => .error e w.dc

/-- It returns exactly when the method does. -/
theorem runMethod_ok_iff {parameters : List (String × Json)} {method : Method κ Unit} {d d' : κ} :
    (runMethod parameters method).run d = .ok () d' ↔
      ∃ w, method.run ⟨parameters, false, d⟩ = .ok () w ∧ w.dc = d' := by
  show (match method.run ⟨parameters, false, d⟩ with | .ok a w => _ | .error e w => _) = _ ↔ _
  cases method.run ⟨parameters, false, d⟩ with
  | ok a w => simp
  | error e w => simp

/-- `DockerWorker(parameters)`, which connects the client, followed by one of
its methods. -/
def withWorker (client : DockerClient κ) (parameters : List (String × Json))
    (method : Method κ Unit) : EStateM PyError κ Unit := do
  client.connect (getParam parameters "api_version")
  runMethod parameters method

end PolarBear.Docker
