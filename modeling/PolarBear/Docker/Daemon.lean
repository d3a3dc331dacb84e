import PolarBear.Docker.DockerWorker

/-!
# A docker daemon, and starting a container on it

`Daemon` is what the daemon behind `docker.APIClient` keeps: the images with
their tags, the named containers, and the references a registry would serve.
`daemonClient` implements the client's operations as docker documents them; the
worker's methods run on it unchanged.

A start that succeeds leaves a container behind, and the next start of the same
container asks for `check_container_differs`, which does not exist. So
`start_container` is not idempotent in any state of any daemon:
`start_never_converges`.
-/

namespace PolarBear.Docker

open PolarBear.Py
open PolarBear.Fallible

/-- The state of a container. -/
inductive ContainerStatus where
  | up
  | exited
  | created
  deriving DecidableEq, Repr

/-- `Status` as `dc.containers()` words it. -/
def ContainerStatus.text : ContainerStatus → String
  | .up => "Up 2 seconds"
  | .exited => "Exited (0) 2 seconds ago"
  | .created => "Created"

/-- A container on the daemon. -/
structure NamedContainer where
  name : String
  image : String
  status : ContainerStatus

/-- Its entry in `dc.containers()`; a name is listed with a leading slash. -/
def NamedContainer.listing (c : NamedContainer) : Container :=
  ⟨["/" ++ c.name], c.status.text⟩

/-- The daemon: local images, containers, and what the registry serves. -/
structure Daemon where
  images : List Image
  containers : List NamedContainer
  registry : List String

/-- `docker.errors.APIError`. -/
def apiError (message : String) : PyError := .of .apiError message

/-- Change the container of a given name, which must exist. -/
def onContainer (name : Json) (change : NamedContainer → List NamedContainer) :
    EStateM PyError Daemon Unit := do
  let d : Daemon ← get
  if d.containers.any (fun c => name.isText c.name) then
    let containers := d.containers.flatMap (fun c => if name.isText c.name then change c else [c])
    set { d with containers := containers }
  else throw (apiError "No such container")

/-- `dc.pull`: the image is added, or a status carries the error. -/
def Daemon.pull (repository tag : String) : EStateM PyError Daemon (List Json) := do
  let d : Daemon ← get
  let reference := repository ++ ":" ++ tag
  if d.registry.contains reference then
    set { d with images := d.images ++ [Image.mk (some [reference])] }
    pure [.obj [("status", .str "Pull complete")]]
  else pure [.obj [("error", .str "manifest not found")]]

/-- `dc.create_container`: the name must be free and the image local. -/
def Daemon.createContainer (options : List (String × Json)) : EStateM PyError Daemon Unit := do
  let d : Daemon ← get
  match getParam options "name", getParam options "image" with
  | .str name, .str image =>
    let (repository, tag) := parseReference image
    if d.containers.any (fun c => c.name == name) then throw (apiError "Conflict")
    else if (findImage (repository ++ ":" ++ tag) d.images).isNone then
      throw (apiError "No such image")
    else set { d with containers := d.containers ++ [NamedContainer.mk name image .created] }
  | _, _ => throw (apiError "bad parameter")

/-- The listing that a query asks for; docker's name filter looks for the text
anywhere in a name. -/
def Daemon.listing (d : Daemon) : ContainerQuery → List Container
  | .all => d.containers.map NamedContainer.listing
  | .filters name status =>
    (d.containers.filter (fun c => (match name with
      | .str s => isInText s c.name
      | _ => true) && (status != "running" || c.status == .up))).map NamedContainer.listing

/-- The client of a daemon. -/
def daemonClient : DockerClient Daemon where
  connect _ := pure ()
  login _ _ _ _ := pure ()
  images := do pure (← get).images
  containers query := do pure ((← get).listing query)
  pull := Daemon.pull
  createHostConfig options := pure (.obj options)
  createContainer := Daemon.createContainer
  start name := onContainer name (fun c => [{ c with status := .up }])
  stop name _ := onContainer name (fun c => [{ c with status := .exited }])
  removeContainer name _ := onContainer name (fun _ => [])
  wait name := do
    onContainer name (fun c => [{ c with status := .exited }])
    pure (.obj [("StatusCode", .int 0)])
  logs _ _ _ := pure (.bytes "")
  execCreate _ command := pure command
  execStart _ := pure (.bytes "")

variable (strOther : Json → String)

/-- `DockerWorker(parameters).start_container()` on a daemon. -/
def start (parameters : List (String × Json)) : EStateM PyError Daemon Unit :=
  withWorker daemonClient parameters (startContainer strOther daemonClient)

/-- Connecting changes nothing on the daemon. -/
theorem run_start (parameters : List (String × Json)) (d : Daemon) :
    (start strOther parameters).run d =
      (runMethod parameters (startContainer strOther daemonClient)).run d := rfl

/-! ## A container that exists -/

theorem run_param {κ : Type} (k : String) (w : DockerWorker κ) :
    (param k).run w = .ok (getParam w.params k) w := rfl

/-- `pull_image` never returns: it asks for `get_image_id`. -/
theorem pullImage_raises {κ : Type} (client : DockerClient κ) (w w' : DockerWorker κ) :
    (pullImage client).run w ≠ .ok () w' := by
  intro h
  unfold pullImage at h
  rw [EStateM.run_bind, run_param] at h
  dsimp only at h
  -- whether it logs in or not, what follows parses the reference and asks
  have hrest : ∀ w₂, (do
      let (image, tag) ← ofExcept (parseImage (← param "image"))
      let oldImageId ← getImageId
      let statuses ← onClient (client.pull image tag)
      statuses.reverse.forM pullStatus
      let newImageId ← getImageId
      setChanged (oldImageId != newImageId) : Method κ Unit).run w₂ ≠ .ok () w' := by
    intro w₂ h
    obtain ⟨_, w₃, -, h⟩ := run_bind_ok_iff.mp h
    obtain ⟨⟨image, tag⟩, w₄, -, h⟩ := run_bind_ok_iff.mp h
    obtain ⟨_, w₅, hid, -⟩ := run_bind_ok_iff.mp h
    cases hid
  split at h
  · obtain ⟨_, w₁, -, h⟩ := run_bind_ok_iff.mp h
    obtain ⟨_, w₂, -, h⟩ := run_bind_ok_iff.mp h
    obtain ⟨_, w₃, -, h⟩ := run_bind_ok_iff.mp h
    obtain ⟨_, w₄, -, h⟩ := run_bind_ok_iff.mp h
    obtain ⟨_, w₅, -, h⟩ := run_bind_ok_iff.mp h
    exact hrest _ h
  · exact hrest _ h

theorem run_checkImage (w : DockerWorker Daemon) :
    (checkImage daemonClient).run w = match parseImage (getParam w.params "image") with
      | .ok (repository, tag) => .ok (findImage (repository ++ ":" ++ tag) w.dc.images) w
      | .error e => .error e w := by
  unfold checkImage
  rw [EStateM.run_bind, run_param]
  dsimp only
  rw [EStateM.run_bind]
  cases parseImage (getParam w.params "image") with
  | ok p => rfl
  | error e => rfl

/-- Looking for a container changes nothing. -/
theorem run_checkContainer (w : DockerWorker Daemon) :
    (checkContainer strOther daemonClient).run w =
      match (getParam w.params "name").pyStr strOther with
      | .ok name => .ok (findContainer ("/" ++ name) (w.dc.listing .all)) w
      | .error e => .error e w := by
  unfold checkContainer
  rw [EStateM.run_bind, run_param]
  dsimp only
  rw [EStateM.run_bind]
  cases (getParam w.params "name").pyStr strOther with
  | ok name => rfl
  | error e => rfl

/-- The daemon lists every container it has under its name. -/
theorem findContainer_isSome {d : Daemon} {c : NamedContainer} (hc : c ∈ d.containers) :
    (findContainer ("/" ++ c.name) (d.listing .all)).isSome = true := by
  unfold findContainer
  rw [List.find?_isSome]
  exact ⟨c.listing, List.mem_map.mpr ⟨c, hc, rfl⟩, by simp [NamedContainer.listing]⟩

/-- If the image is found locally, nothing changed; otherwise `pull_image`
raises. -/
theorem ensureImage_ok {w w' : DockerWorker Daemon}
    (h : (ensureImage daemonClient).run w = .ok () w') : w' = w := by
  unfold ensureImage at h
  rw [EStateM.run_bind, run_checkImage] at h
  cases hparse : parseImage (getParam w.params "image") with
  | error e =>
    rw [hparse] at h
    cases h
  | ok reference =>
    rw [hparse] at h
    dsimp only at h
    split at h
    · exact absurd h (pullImage_raises daemonClient w w')
    · cases h
      rfl

/-- A container that exists is compared with the requested one, and that
raises. -/
theorem ensureContainer_raises {w w' : DockerWorker Daemon} {c : NamedContainer}
    {found : Option Container} (hname : getParam w.params "name" = .str c.name)
    (hc : c ∈ w.dc.containers) :
    (ensureContainer strOther daemonClient).run w ≠ .ok found w' := by
  intro h
  unfold ensureContainer at h
  rw [EStateM.run_bind, run_checkContainer, hname] at h
  by_cases hascii : isAscii c.name = true
  · simp only [Json.pyStr, if_pos hascii, findContainer_isSome hc, if_true] at h
    obtain ⟨_, _, hdiffers, -⟩ := run_bind_ok_iff.mp h
    cases hdiffers
  · simp only [Json.pyStr, if_neg hascii] at h
    cases h

/-- **A container that exists is not started again.** -/
theorem start_existing_raises {parameters : List (String × Json)} {d d' : Daemon}
    {c : NamedContainer} (hname : getParam parameters "name" = .str c.name)
    (hc : c ∈ d.containers) : (start strOther parameters).run d ≠ .ok () d' := by
  intro h
  rw [run_start] at h
  obtain ⟨w', hstart, -⟩ := runMethod_ok_iff.mp h
  unfold startContainer at hstart
  obtain ⟨_, w₁, himage, hrest⟩ := run_bind_ok_iff.mp hstart
  obtain ⟨_, w₂, hcontainer, -⟩ := run_bind_ok_iff.mp hrest
  rw [ensureImage_ok himage] at hcontainer
  exact ensureContainer_raises strOther hname hc hcontainer

/-! ## Convergence -/

/-- Starting converges: it returns, with the requested container up and the
others as they were, and a second start returns and changes nothing. -/
def StartConverges (parameters : List (String × Json)) (d : Daemon) : Prop :=
  ∃ d', (start strOther parameters).run d = .ok () d' ∧
    (∃ c ∈ d'.containers, getParam parameters "name" = .str c.name ∧
      getParam parameters "image" = .str c.image ∧ c.status = .up) ∧
    (∀ c, getParam parameters "name" ≠ .str c.name → (c ∈ d'.containers ↔ c ∈ d.containers)) ∧
    (start strOther parameters).run d' = .ok () d'

/-- **No start converges**, whatever the daemon and the parameters. -/
theorem start_never_converges (parameters : List (String × Json)) (d : Daemon) :
    ¬ StartConverges strOther parameters d := by
  intro h
  obtain ⟨d', -, hup, -, hagain⟩ := h
  obtain ⟨c, hc, hname, -⟩ := hup
  exact start_existing_raises strOther hname hc hagain

/-- Parameters of a container with all four flags. -/
def webParameters : List (String × Json) :=
  [("name", .str "web"), ("image", .str "nginx"), ("tty", .bool false), ("detach", .bool true),
    ("privileged", .bool false), ("remove_on_exit", .bool false)]

/-- A daemon that has the image and one other container. -/
def idleDaemon : Daemon :=
  ⟨[⟨some ["nginx:latest"]⟩], [⟨"db", "mysql", .exited⟩], ["nginx:latest"]⟩

/-- The first start brings the container up, next to the other one; the second
one raises. -/
theorem start_again_raises :
    (start (fun _ => "None") webParameters).run idleDaemon =
        .ok () { idleDaemon with
          containers := [⟨"db", "mysql", .exited⟩, ⟨"web", "nginx", .up⟩] } ∧
      ¬ StartConverges (fun _ => "None") webParameters idleDaemon := by
  refine ⟨rfl, fun h => ?_⟩
  obtain ⟨d', -, hup, -, hagain⟩ := h
  obtain ⟨c, hc, hname, -⟩ := hup
  exact start_existing_raises _ hname hc hagain

end PolarBear.Docker
