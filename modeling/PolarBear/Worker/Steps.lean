import PolarBear.Docker.DockerWorker
import PolarBear.Worker.Rpc

/-!
# The plugin methods that execute a step

Seven methods execute a step and report it: `get` and `post` of the http
plugin, `start_container`, `remove_container` and `docker_command` of the docker
plugin, `ping` and `run_shell` of the linux plugin. The tools they use
(`requests`, the docker client, `utils.execute`) are parameters, so their
answers and exceptions are arbitrary.

The first five are `reportedStep` applied to what they do between `try` and the
report. The linux methods call `result(ctxt=, result=)`, which is the signature
`RPCClient.result` had before it was rewritten.
-/

namespace PolarBear.Worker

open PolarBear.Py
open PolarBear.Fallible
open PolarBear.Docker (DockerClient withWorker)

/-- What `requests` answers; reading `text` decodes the body and may fail. -/
structure Response where
  statusCode : Int
  text : Except PyError String

/-- The tools of a worker, on the state `κ` of the world outside. -/
structure Tools (κ : Type) where
  requestsGet : (url : Json) → EStateM PyError κ Response
  requestsPost : (url json : Json) → EStateM PyError κ Response
  docker : DockerClient κ
  /-- `utils.execute(*cmd, cwd=cwd, run_as_root=run_as_root)`: `out, err`. -/
  execute : (cmd : List Json) → (cwd : String) → (runAsRoot : Bool) →
    EStateM PyError κ (PyVal × PyVal)

variable {κ : Type} (tools : Tools κ) (strOther : Json → String)
  (deliver : Nat → Delivery)

/-- A docker client without a daemon to talk to. -/
def noDaemon : DockerClient Unit :=
  let refused : PyError := .of .external "Connection refused"
  { connect := fun _ => throw refused
    login := fun _ _ _ _ => throw refused
    images := throw refused
    containers := fun _ => throw refused
    pull := fun _ _ => throw refused
    createHostConfig := fun _ => throw refused
    createContainer := fun _ => throw refused
    start := fun _ => throw refused
    stop := fun _ _ => throw refused
    removeContainer := fun _ _ => throw refused
    wait := fun _ => throw refused
    logs := fun _ _ _ => throw refused
    execCreate := fun _ _ => throw refused
    execStart := fun _ => throw refused }

/-- A worker on which every request answers `response`, every command `outErr`,
and no docker daemon runs. -/
def plainTools (response : EStateM PyError Unit Response)
    (outErr : EStateM PyError Unit (PyVal × PyVal)) : Tools Unit where
  requestsGet _ := response
  requestsPost _ _ := response
  docker := noDaemon
  execute _ _ _ := outErr

/-! ## http -/

/-- From the request to `LOG.info("xx" + str(url))`. -/
def httpTool (request : EStateM PyError κ Response) (url : Json) :
    EStateM PyError κ (PyVal × Status) := do
  let response ← request
  let status := if response.statusCode = 200 then Status.pass else Status.fail
  let out ← ofExcept response.text
  let _ ← ofExcept (url.pyStr strOther)
  pure (.unicode out, status)

/-- `out = str(e.message)`. -/
def httpHandlerOut (message : PyVal) : Except PyError PyVal := do
  let s ← message.str
  .ok (.bytes s)

def getTool (parameters : List (String × Json)) : EStateM PyError κ (PyVal × Status) :=
  let url := getParam parameters "url"
  httpTool strOther (tools.requestsGet url) url

def postTool (parameters : List (String × Json)) : EStateM PyError κ (PyVal × Status) :=
  let url := getParam parameters "url"
  httpTool strOther (tools.requestsPost url (getParam parameters "data")) url

/-- `ComputeManager_http.get`. -/
def get (parameters : List (String × Json)) (topic : String) : EStateM PyError (Run κ) Unit :=
  reportedStep deliver topic "get" (getParam parameters "stepid")
    (getTool tools strOther parameters) httpHandlerOut

/-- `ComputeManager_http.post`, which also reports itself as `get`. -/
def post (parameters : List (String × Json)) (topic : String) : EStateM PyError (Run κ) Unit :=
  reportedStep deliver topic "get" (getParam parameters "stepid")
    (postTool tools strOther parameters) httpHandlerOut

/-! ## docker -/

/-- `out = e.message`, then `LOG.info(str(e.message))`. -/
def dockerHandlerOut (message : PyVal) : Except PyError PyVal := do
  let _ ← message.str
  .ok message

def startContainerTool (parameters : List (String × Json)) :
    EStateM PyError κ (PyVal × Status) := do
  withWorker tools.docker parameters (Docker.startContainer strOther tools.docker)
  pure (.bytes "start container successfully", .pass)

/-- It reports the text of `start_container`. -/
def removeContainerTool (parameters : List (String × Json)) :
    EStateM PyError κ (PyVal × Status) := do
  withWorker tools.docker parameters (Docker.removeContainer strOther tools.docker)
  pure (.bytes "start container successfully", .pass)

/-- The container is the first the daemon's filter lets through. -/
def dockerCommandTool (parameters : List (String × Json)) :
    EStateM PyError κ (PyVal × Status) := do
  let name := getParam parameters "name"
  let command := getParam parameters "command"
  tools.docker.connect (.str "auto")
  match ← tools.docker.containers (.filters name "running") with
  | [] => throw .raisedText
  | con :: _ =>
    let job ← tools.docker.execCreate con command
    let out ← tools.docker.execStart job
    pure (out, .pass)

/-- `ComputeManager_docker.start_container`. -/
def startContainer (parameters : List (String × Json)) (topic : String) :
    EStateM PyError (Run κ) Unit :=
  reportedStep deliver topic "get" (getParam parameters "stepid")
    (startContainerTool tools strOther parameters) dockerHandlerOut

/-- `ComputeManager_docker.remove_container`. -/
def removeContainer (parameters : List (String × Json)) (topic : String) :
    EStateM PyError (Run κ) Unit :=
  reportedStep deliver topic "get" (getParam parameters "stepid")
    (removeContainerTool tools strOther parameters) dockerHandlerOut

/-- `ComputeManager_docker.docker_command`. -/
def dockerCommand (parameters : List (String × Json)) (topic : String) :
    EStateM PyError (Run κ) Unit :=
  reportedStep deliver topic "docker_command" (getParam parameters "stepid")
    (dockerCommandTool tools parameters) dockerHandlerOut

/-! ## linux_system -/

/-- `err == ''`. -/
def PyVal.isEmptyText : PyVal → Bool
  | .unicode s => s == ""
  | .bytes s => s == ""
  | .object _ => false

/-- The keyword arguments of the linux plugin. -/
def linuxKeywords (method : String) (out : PyVal) (status : Status) : List Keyword :=
  [.ctxt, .result method out status]

/-- `if topic: RPCClient(topic=topic).result(ctxt=context, result=result)`. -/
def reportLinux (topic method : String) (out : PyVal) (status : Status) :
    EStateM PyError (Run κ) Unit :=
  if topic ≠ "" then result deliver topic (linuxKeywords method out status) else pure ()

/-- `out, err` of the command, or the message of its exception and `-1`. -/
def pingCommand (address : Json) (count interval : String) :
    EStateM PyError κ (PyVal × Option PyVal) :=
  tryCatch
    (do
      let (out, err) ← tools.execute [.str "ping", address, .str count, .str interval] "/root" true
      pure (out, some err))
    (fun (e : PyError) => pure (e.message, none))

/-- `ComputeManager_linux_system.ping`. -/
def ping (parameters : List (String × Json)) (topic : String) : EStateM PyError (Run κ) Unit := do
  let address := getParam parameters "address"
  let count ← ofExcept (((parameters.lookup "count").getD (.int 4)).pyStr strOther)
  let interval ← ofExcept (((parameters.lookup "interval").getD (.int 1)).pyStr strOther)
  if address.isNull then
    reportLinux deliver topic "ping" (.bytes "has not cmd parameters, can not run") .fail
  else
    let (out, err) ← onWorld (pingCommand tools address ("-c " ++ count) ("-i " ++ interval))
    let res := if err.any PyVal.isEmptyText then Status.pass else Status.fail
    reportLinux deliver topic "ping" out res

/-- `ComputeManager_linux_system.run_shell`: nothing here handles an exception
of the command. -/
def runShell (parameters : List (String × Json)) (topic : String) :
    EStateM PyError (Run κ) Unit := do
  let cmd := getParam parameters "cmd"
  let arg := getParam parameters "args"
  if cmd.isNull then
    reportLinux deliver topic "run_shell" (.bytes "has not cmd parameters, can not run") .fail
  else
    let arg := if arg.isNull then .str "" else arg
    let (out, err) ← onWorld (tools.execute [cmd, arg] "/root" true)
    let res := if PyVal.isEmptyText err then Status.pass else Status.fail
    reportLinux deliver topic "run_shell" out res

/-! ## All seven -/

/-- The methods whose body is `reportedStep`. -/
inductive ReportedMethod where
  | get
  | post
  | startContainer
  | removeContainer
  | dockerCommand
  deriving DecidableEq, Repr

/-- The methods that execute a step. -/
inductive StepMethod where
  | ping
  | runShell
  | reported (m : ReportedMethod)
  deriving DecidableEq, Repr

/-- A call of an http or docker method. -/
def callReported (m : ReportedMethod) (parameters : List (String × Json)) (topic : String) :
    EStateM PyError (Run κ) Unit :=
  match m with
  | .get => get tools strOther deliver parameters topic
  | .post => post tools strOther deliver parameters topic
  | .startContainer => startContainer tools strOther deliver parameters topic
  | .removeContainer => removeContainer tools strOther deliver parameters topic
  | .dockerCommand => dockerCommand tools deliver parameters topic

/-- A call of any of the seven. -/
def call (m : StepMethod) (parameters : List (String × Json)) (topic : String) :
    EStateM PyError (Run κ) Unit :=
  match m with
  | .ping => ping tools strOther deliver parameters topic
  | .runShell => runShell tools deliver parameters topic
  | .reported m => callReported tools strOther deliver m parameters topic

/-- What an http or docker method does before it reports. -/
def stepTool (m : ReportedMethod) (parameters : List (String × Json)) :
    EStateM PyError κ (PyVal × Status) :=
  match m with
  | .get => getTool tools strOther parameters
  | .post => postTool tools strOther parameters
  | .startContainer => startContainerTool tools strOther parameters
  | .removeContainer => removeContainerTool tools strOther parameters
  | .dockerCommand => dockerCommandTool tools parameters

theorem httpHandlerOut_ok (message : PyVal) :
    (∃ out, httpHandlerOut message = .ok out) ↔ message.strOk := by
  unfold httpHandlerOut PyVal.strOk
  cases message.str <;> simp [bind, Except.bind]

theorem dockerHandlerOut_ok (message : PyVal) :
    (∃ out, dockerHandlerOut message = .ok out) ↔ message.strOk := by
  unfold dockerHandlerOut PyVal.strOk
  cases message.str <;> simp [bind, Except.bind]

/-- The five calls are `reportedStep` for their tool, with a handler that
succeeds exactly when `str` accepts the message. -/
theorem callReported_eq (m : ReportedMethod) (parameters : List (String × Json))
    (topic : String) :
    ∃ method handlerOut, callReported tools strOther deliver m parameters topic =
        reportedStep deliver topic method (getParam parameters "stepid")
          (stepTool tools strOther m parameters) handlerOut ∧
      ∀ message, (∃ out, handlerOut message = .ok out) ↔ PyVal.strOk message := by
  cases m with
  | get => exact ⟨_, _, rfl, httpHandlerOut_ok⟩
  | post => exact ⟨_, _, rfl, httpHandlerOut_ok⟩
  | startContainer => exact ⟨_, _, rfl, dockerHandlerOut_ok⟩
  | removeContainer => exact ⟨_, _, rfl, dockerHandlerOut_ok⟩
  | dockerCommand => exact ⟨_, _, rfl, dockerHandlerOut_ok⟩

end PolarBear.Worker
