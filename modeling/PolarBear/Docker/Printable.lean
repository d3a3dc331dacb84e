import PolarBear.Docker.DockerWorker

/-!
# What `DockerWorker` raises

A step is reported with the message of the exception that ended it, so it
matters which messages `str()` accepts. The worker's own exceptions all carry
one: a byte string, or the name of a missing key, which is one of the
parameters it reads. An exception whose message `str()` rejects therefore comes
from the client: `startContainer_printable` and its siblings.

The rules are those of `Raises` and `Ends`, applied along the source; no lemma
looks at a state.
-/

namespace PolarBear.Docker

open PolarBear.Py
open PolarBear.Fallible

/-- `str(e.message)` gives a text. -/
def Printable (e : PyError) : Prop := e.message.strOk

theorem printable_of (cls : ExcClass) (msg : String) : Printable (.of cls msg) := ⟨msg, rfl⟩

theorem printable_key {k : String} (hk : isAscii k = true) : Printable (.key k) := by
  refine ⟨k, ?_⟩
  show (if isAscii k then Except.ok k else Except.error PyError.encode) = _
  rw [if_pos hk]

theorem printable_encode : Printable .encode := printable_of ..

theorem printable_raisedText : Printable .raisedText := printable_of ..

/-! ## Built-in operations -/

theorem raises_len (j : Json) : Raises Printable j.len := by
  cases j with
  | arr xs => exact Raises.ok _
  | str s => exact Raises.ok _
  | obj fields => exact Raises.ok _
  | _ => exact Raises.error (printable_of ..)

theorem raises_contains (c : Char) (j : Json) : Raises Printable (j.contains c) := by
  cases j with
  | arr xs => exact Raises.ok _
  | str s => exact Raises.ok _
  | obj fields => exact Raises.ok _
  | _ => exact Raises.error (printable_of ..)

theorem raises_iter (j : Json) : Raises Printable j.iter := by
  cases j with
  | arr xs => exact Raises.ok _
  | str s => exact Raises.ok _
  | obj fields => exact Raises.ok _
  | _ => exact Raises.error (printable_of ..)

theorem raises_asText (attr : String) (j : Json) : Raises Printable (j.asText attr) := by
  cases j with
  | str s => exact Raises.ok _
  | _ => exact Raises.error (printable_of ..)

theorem raises_pyStr (strOther : Json → String) (j : Json) :
    Raises Printable (j.pyStr strOther) := by
  cases j with
  | str s =>
    show Raises Printable (if isAscii s then .ok s else .error .encode)
    split
    · exact Raises.ok _
    · exact Raises.error printable_encode
  | _ => exact Raises.ok _

theorem raises_getItem (j : Json) {k : String} (hk : isAscii k = true) :
    Raises Printable (j.getItem k) := by
  cases j with
  | obj fields =>
    unfold Json.getItem
    dsimp only
    split
    · exact Raises.ok _
    · exact Raises.error (printable_key hk)
  | _ => exact Raises.error (printable_of ..)

/-! ## Volumes and references -/

theorem raises_addVolume (acc : Volumes) (vol : Json) : Raises Printable (addVolume acc vol) := by
  unfold addVolume
  refine (raises_len vol).bind (fun n => ?_)
  split
  · exact Raises.ok _
  · refine (raises_contains ':' vol).bind (fun b => ?_)
    split
    · exact Raises.ok _
    · refine (raises_asText "split" vol).bind (fun s => ?_)
      dsimp only
      split
      · exact Raises.ok _
      · exact Raises.error (printable_of ..)
      · split
        · exact Raises.ok _
        · exact Raises.error (printable_of ..)
      · exact Raises.ok _

theorem raises_generateVolumes (volumes : Json) : Raises Printable (generateVolumes volumes) := by
  unfold generateVolumes
  split
  · exact Raises.ok _
  · refine (raises_iter volumes).bind (fun vols => ?_)
    exact (Raises.foldlM raises_addVolume vols _).bind (fun _ => Raises.ok _)

theorem raises_parseImage (fullImage : Json) : Raises Printable (parseImage fullImage) := by
  unfold parseImage
  refine (raises_contains '/' fullImage).bind (fun b => ?_)
  split
  · exact (raises_asText _ fullImage).bind (fun _ => Raises.ok _)
  · exact (raises_asText _ fullImage).bind (fun _ => Raises.ok _)

theorem raises_statusCode (rc : Json) : Raises Printable (statusCode rc) := by
  unfold statusCode
  split
  · exact raises_getItem rc (by decide)
  · exact Raises.ok _

/-! ## The worker -/

/-- Every exception of the client has a message `str()` accepts. -/
structure PrintableClient {κ : Type} (client : DockerClient κ) : Prop where
  connect : ∀ v, RaisesOnly Printable (client.connect v)
  login : ∀ u p r e, RaisesOnly Printable (client.login u p r e)
  images : RaisesOnly Printable client.images
  containers : ∀ q, RaisesOnly Printable (client.containers q)
  pull : ∀ r t, RaisesOnly Printable (client.pull r t)
  createHostConfig : ∀ o, RaisesOnly Printable (client.createHostConfig o)
  createContainer : ∀ o, RaisesOnly Printable (client.createContainer o)
  start : ∀ c, RaisesOnly Printable (client.start c)
  stop : ∀ c t, RaisesOnly Printable (client.stop c t)
  removeContainer : ∀ c f, RaisesOnly Printable (client.removeContainer c f)
  wait : ∀ c, RaisesOnly Printable (client.wait c)
  logs : ∀ c o e, RaisesOnly Printable (client.logs c o e)
  execCreate : ∀ c cmd, RaisesOnly Printable (client.execCreate c cmd)
  execStart : ∀ j, RaisesOnly Printable (client.execStart j)

variable {κ : Type}

theorem param_printable (k : String) : RaisesOnly Printable (param k : Method κ Json) :=
  ⟨fun _ => trivial⟩

theorem setParam_printable (k : String) (v : Json) :
    RaisesOnly Printable (setParam k v : Method κ Unit) := Ends.modify _

theorem setChanged_printable (b : Bool) : RaisesOnly Printable (setChanged b : Method κ Unit) :=
  Ends.modify _

theorem boolParam_printable {k : String} (hk : isAscii k = true) :
    RaisesOnly Printable (boolParam k : Method κ Unit) := by
  unfold boolParam
  refine RaisesOnly.bind Ends.get (fun w => ?_)
  split
  · exact setParam_printable ..
  · exact Ends.throw (printable_key hk)

theorem missingAttribute_printable {α : Type} (name : String) :
    RaisesOnly Printable (missingAttribute name : Method κ α) := Ends.throw (printable_of ..)

theorem onClient_printable {α : Type} {x : EStateM PyError κ α} (hx : RaisesOnly Printable x) :
    RaisesOnly Printable (onClient x) := Ends.onPart hx

theorem pullStatus_printable (status : Json) :
    RaisesOnly Printable (pullStatus status : Method κ Unit) := by
  unfold pullStatus
  split
  · split
    · exact missingAttribute_printable ..
    · exact Ends.pure trivial
  · exact Ends.pure trivial

variable {client : DockerClient κ} (hclient : PrintableClient client)

include hclient

theorem buildHostConfig_printable (binds : Option (List (String × Json))) :
    RaisesOnly Printable (buildHostConfig client binds) := by
  unfold buildHostConfig
  refine (param_printable _).bind (fun volumesFrom => ?_)
  dsimp only
  split
  · refine (setParam_printable _ _).bind (fun _ => ?_)
    repeat refine (param_printable _).bind (fun _ => ?_)
    exact onClient_printable (hclient.createHostConfig _)
  · repeat refine (param_printable _).bind (fun _ => ?_)
    exact onClient_printable (hclient.createHostConfig _)

theorem buildContainerOptions_printable :
    RaisesOnly Printable (buildContainerOptions client) := by
  unfold buildContainerOptions
  refine (param_printable _).bind (fun volumes => ?_)
  refine (Ends.ofExcept (raises_generateVolumes volumes)).bind (fun volumes => ?_)
  refine (boolParam_printable (by decide)).bind (fun _ => ?_)
  refine (boolParam_printable (by decide)).bind (fun _ => ?_)
  refine (boolParam_printable (by decide)).bind (fun _ => ?_)
  refine (boolParam_printable (by decide)).bind (fun _ => ?_)
  refine (param_printable _).bind (fun command => ?_)
  -- the options are read the same way after either branch
  have hoptions : ∀ rest : Json → Json → Json → Json → Json → Json → Json → Json →
      List (String × Json), RaisesOnly Printable (do
        let command ← param "command"
        let detach ← param "detach"
        let environment ← param "environment"
        let hostConfig ← buildHostConfig client (volumes.map Volumes.volDict)
        let labels ← param "labels"
        let image ← param "image"
        let name ← param "name"
        let tty ← param "tty"
        pure (rest command detach environment hostConfig labels image name tty)) := by
    intro rest
    repeat refine (param_printable _).bind (fun _ => ?_)
    refine (buildHostConfig_printable hclient _).bind (fun _ => ?_)
    repeat refine (param_printable _).bind (fun _ => ?_)
    exact Ends.pure trivial
  dsimp only
  split
  · exact (setParam_printable _ _).bind (fun _ => hoptions _)
  · exact hoptions _

theorem checkImage_printable : RaisesOnly Printable (checkImage client) := by
  unfold checkImage
  refine (param_printable _).bind (fun image => ?_)
  refine (Ends.ofExcept (raises_parseImage image)).bind (fun reference => ?_)
  exact (onClient_printable hclient.images).bind (fun _ => Ends.pure trivial)

theorem pullImage_printable : RaisesOnly Printable (pullImage client) := by
  unfold pullImage
  refine (param_printable _).bind (fun username => ?_)
  have hpull : RaisesOnly Printable (do
      let reference ← ofExcept (parseImage (← param "image"))
      let oldImageId ← getImageId
      let statuses ← onClient (client.pull reference.1 reference.2)
      statuses.reverse.forM pullStatus
      let newImageId ← getImageId
      setChanged (oldImageId != newImageId)) := by
    refine (param_printable _).bind (fun image => ?_)
    refine (Ends.ofExcept (raises_parseImage image)).bind (fun reference => ?_)
    refine (missingAttribute_printable _).bind (fun _ => ?_)
    refine (onClient_printable (hclient.pull _ _)).bind (fun statuses => ?_)
    refine (RaisesOnly.forM pullStatus_printable _).bind (fun _ => ?_)
    exact (missingAttribute_printable _).bind (fun _ => setChanged_printable _)
  dsimp only
  split
  · repeat refine (param_printable _).bind (fun _ => ?_)
    exact (onClient_printable (hclient.login _ _ _ _)).bind (fun _ => hpull)
  · exact hpull

theorem createContainer_printable : RaisesOnly Printable (createContainer client) := by
  unfold createContainer
  refine (setChanged_printable _).bind (fun _ => ?_)
  refine (buildContainerOptions_printable hclient).bind (fun _ => ?_)
  exact onClient_printable (hclient.createContainer _)

variable (strOther : Json → String)

theorem checkContainer_printable : RaisesOnly Printable (checkContainer strOther client) := by
  unfold checkContainer
  refine (param_printable _).bind (fun name => ?_)
  refine (Ends.ofExcept (raises_pyStr strOther name)).bind (fun _ => ?_)
  exact (onClient_printable (hclient.containers _)).bind (fun _ => Ends.pure trivial)

theorem stopContainer_printable : RaisesOnly Printable (stopContainer strOther client) := by
  unfold stopContainer
  refine (param_printable _).bind (fun name => ?_)
  refine (param_printable _).bind (fun gracefulTimeout => ?_)
  refine (checkContainer_printable hclient strOther).bind (fun container => ?_)
  cases container with
  | none =>
    refine (Ends.ofExcept (raises_pyStr strOther name)).bind (fun _ => ?_)
    exact Ends.throw printable_raisedText
  | some container =>
    dsimp only
    split
    · exact (setChanged_printable _).bind (fun _ => onClient_printable (hclient.stop _ _))
    · exact Ends.pure trivial

/-- The handler only raises again what the client raised. -/
theorem removeContainer_printable : RaisesOnly Printable (removeContainer strOther client) := by
  unfold removeContainer
  refine (checkContainer_printable hclient strOther).bind (fun container => ?_)
  split
  · refine (setChanged_printable _).bind (fun _ => ?_)
    refine Ends.tryCatch
      ((param_printable _).bind (fun _ => onClient_printable (hclient.removeContainer _ _))) ?_
    intro e he
    split
    · refine (checkContainer_printable hclient strOther).bind (fun container => ?_)
      split
      · exact Ends.throw he
      · exact Ends.pure trivial
    · exact Ends.throw he
  · exact Ends.pure trivial

theorem ensureImage_printable : RaisesOnly Printable (ensureImage client) := by
  unfold ensureImage
  refine (checkImage_printable hclient).bind (fun image => ?_)
  split
  · exact pullImage_printable hclient
  · exact Ends.pure trivial

theorem ensureContainer_printable :
    RaisesOnly Printable (ensureContainer strOther client) := by
  unfold ensureContainer
  refine (checkContainer_printable hclient strOther).bind (fun container => ?_)
  -- the two halves after the comparison, each for every value it starts from
  have hcreate : ∀ container : Option Container, RaisesOnly Printable
      (if container.isNone then do
        createContainer client
        checkContainer strOther client
      else pure container) := by
    intro container
    split
    · exact (createContainer_printable hclient).bind
        (fun _ => checkContainer_printable hclient strOther)
    · exact Ends.pure trivial
  have hremove : ∀ differs : Bool, RaisesOnly Printable (do
      let container ← if differs then do
          stopContainer strOther client
          removeContainer strOther client
          checkContainer strOther client
        else pure container
      if container.isNone then do
        createContainer client
        checkContainer strOther client
      else pure container) := by
    intro differs
    dsimp only
    split
    · refine (stopContainer_printable hclient strOther).bind (fun _ => ?_)
      refine (removeContainer_printable hclient strOther).bind (fun _ => ?_)
      exact (checkContainer_printable hclient strOther).bind hcreate
    · exact RaisesOnly.bind (Ends.pure trivial) hcreate
  dsimp only
  split
  · exact (missingAttribute_printable _).bind hremove
  · exact RaisesOnly.bind (Ends.pure trivial) hremove

theorem ensureUp_printable (container : Option Container) :
    RaisesOnly Printable (ensureUp client container) := by
  unfold ensureUp
  cases container with
  | none => exact Ends.throw (printable_of ..)
  | some container =>
    dsimp only
    split
    · refine (setChanged_printable _).bind (fun _ => ?_)
      exact (param_printable _).bind (fun _ => onClient_printable (hclient.start _))
    · exact Ends.pure trivial

theorem awaitExit_printable : RaisesOnly Printable (awaitExit strOther client) := by
  unfold awaitExit
  refine (param_printable _).bind (fun _ => ?_)
  refine (onClient_printable (hclient.wait _)).bind (fun rc => ?_)
  refine (Ends.ofExcept (raises_statusCode rc)).bind (fun rc => ?_)
  refine (param_printable _).bind (fun _ => ?_)
  refine (onClient_printable (hclient.logs _ _ _)).bind (fun _ => ?_)
  refine (param_printable _).bind (fun _ => ?_)
  refine (onClient_printable (hclient.logs _ _ _)).bind (fun _ => ?_)
  refine (param_printable _).bind (fun removeOnExit => ?_)
  have hexit : RaisesOnly Printable
      (if !rc.isZero then throw .raisedText else pure () : Method κ Unit) := by
    split
    · exact Ends.throw printable_raisedText
    · exact Ends.pure trivial
  dsimp only
  split
  · refine (stopContainer_printable hclient strOther).bind (fun _ => ?_)
    exact (removeContainer_printable hclient strOther).bind (fun _ => hexit)
  · exact hexit

/-- **Starting a container** raises nothing `str()` rejects unless the client
does. -/
theorem startContainer_printable : RaisesOnly Printable (startContainer strOther client) := by
  unfold startContainer
  refine (ensureImage_printable hclient).bind (fun _ => ?_)
  refine (ensureContainer_printable hclient strOther).bind (fun container => ?_)
  refine (ensureUp_printable hclient container).bind (fun _ => ?_)
  refine (param_printable _).bind (fun detach => ?_)
  split
  · exact awaitExit_printable hclient strOther
  · exact Ends.pure trivial

/-- The same for any method run by a new worker. -/
theorem withWorker_printable {method : Method κ Unit} (hmethod : RaisesOnly Printable method)
    (parameters : List (String × Json)) :
    RaisesOnly Printable (withWorker client parameters method) := by
  unfold withWorker
  refine (hclient.connect _).bind (fun _ => ⟨fun d => ?_⟩)
  have hrun := hmethod.run ⟨parameters, false, d⟩
  cases hr : method.run ⟨parameters, false, d⟩ with
  | ok a w =>
    have hworker : (runMethod parameters method).run d = .ok a w.dc := by
      show runMethod parameters method d = _
      unfold runMethod
      rw [hr]
    rw [hworker]
    trivial
  | error e w =>
    have hworker : (runMethod parameters method).run d = .error e w.dc := by
      show runMethod parameters method d = _
      unfold runMethod
      rw [hr]
    rw [hworker]
    rw [hr] at hrun
    exact hrun

end PolarBear.Docker
