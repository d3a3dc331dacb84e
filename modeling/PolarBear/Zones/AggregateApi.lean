import PolarBear.Zones.Store

/-!
# `AggregateAPI`

The six operations on host aggregates, and `is_safe_to_update_az`, the check they
share: a zone may be given to an aggregate if no other aggregate with one of its
hosts has another zone. The check reads all aggregates that have a zone, and
reading one that has no uuid gives it one.

The scheduler client, notifications, the zone cache and the compute RPC do nothing
to the tables and are left out. `services` is the check that a host has a compute
service.
-/

namespace PolarBear.Zones

open PolarBear.Db
open PolarBear.Fallible
open PolarBear.Aggregates (Aggregate AggregateRow DbAggregate)

/-- The metadata key of the zone. -/
def zoneKey : String := "availability_zone"

/-- `Aggregate.availability_zone`. -/
def availabilityZone (a : Aggregate) : Option String := a.metadata.lookup zoneKey

/-- A dictionary of values to set, or to delete where the value is `None`. -/
structure Values where
  entries : List (String × Option String)
  nodup : (Dict.keys entries).Nodup

/-- `values.get(key)`, with `None` for a value and for nothing told apart. -/
def Values.get (values : Values) (key : String) : Option (Option String) :=
  values.entries.lookup key

/-- What `values.pop(key)` leaves. -/
def Values.pop (values : Values) (key : String) : Values where
  entries := values.entries.filter (fun kv => kv.1 != key)
  nodup := values.nodup.sublist (List.filter_sublist.map _)

/-- `"%s" % azs`. -/
def listText (azs : List (Option String)) : String :=
  "[" ++ ", ".intercalate (azs.map fun
    | some az => "u'" ++ az ++ "'"
    | none => "None") ++ "]"

variable {μ : Type} (main : MainDatabase μ) (ctxt : Context) (env : Env)
  (services : String → Except AggregateError Unit)

/-- `hosts or aggregate.hosts`. -/
def checkedHosts (hosts : Option (List String)) (aggregate : Aggregate) : List String :=
  match hosts with
  | some (host :: rest) => host :: rest
  -- an empty list is false, too
  | _ => aggregate.hosts

/-- `is_safe_to_update_az`. -/
def isSafeToUpdateAz (metadata : List (String × Option String)) (aggregate : Aggregate)
    (hosts : Option (List String)) (action : Action) : AggregateM μ Unit :=
  match metadata.lookup zoneKey with
  | none => pure ()
  | some zone =>
    if truthy zone then do
      let hostAggregates ←
        getByMetadataKey main ctxt env zoneKey (some (checkedHosts hosts aggregate))
      let conflictingAzs := (hostAggregates.filter (fun agg =>
        availabilityZone agg != zone && agg.id != aggregate.id)).map availabilityZone
      if conflictingAzs.isEmpty then pure ()
      else throw (.invalidAggregateAction action aggregate.id
        ("One or more hosts already in availability zone(s) " ++ listText conflictingAzs))
    -- `None` and the empty text alike
    else throw (.invalidAggregateAction action aggregate.id
      ("Aggregate " ++ aggregate.name ++ " does not support empty named availability zone"))

/-- A name for an aggregate: the field takes no `None`. -/
def nameField : Option String → Except AggregateError String
  | some name => .ok name
  | none => .error (.nova (.valueError "Field name cannot be None"))

/-- `create_aggregate`. -/
def createAggregate (name zone : Option String) : AggregateM μ Aggregate := do
  let name ← ofExcept (nameField name)
  let metadata := if truthy zone then [(zoneKey, zone.getD "")] else []
  create main ctxt env name metadata

/-- The first step of `update_aggregate`: the name is saved. -/
def saveName (values : Values) (aggregate : Aggregate) : AggregateM μ Aggregate :=
  match values.get "name" with
  | some name => do
    let name ← ofExcept (nameField name)
    save main ctxt env aggregate.id aggregate.uuid ⟨some name, none, none⟩
  | none => pure aggregate

/-- `update_aggregate`. -/
def updateAggregate (id : Nat) (values : Values) : AggregateM μ Aggregate := do
  let aggregate ← getById main ctxt env id
  let aggregate ← saveName main ctxt env values aggregate
  -- the name is in the database before the zone is checked
  let values := values.pop "name"
  isSafeToUpdateAz main ctxt env values.entries aggregate none .update
  if values.entries.isEmpty then pure aggregate
  else
    let aggregate ← updateMetadata main ctxt aggregate values.entries
    pure { aggregate with updatedAt := some env.now }

/-- `update_aggregate_metadata`. -/
def updateAggregateMetadata (id : Nat) (metadata : Values) : AggregateM μ Aggregate := do
  let aggregate ← getById main ctxt env id
  isSafeToUpdateAz main ctxt env metadata.entries aggregate none .updateMeta
  let aggregate ← updateMetadata main ctxt aggregate metadata.entries
  pure { aggregate with updatedAt := some env.now }

/-- `delete_aggregate`. -/
def deleteAggregate (id : Nat) : AggregateM μ Unit := do
  let aggregate ← getById main ctxt env id
  if aggregate.hosts.isEmpty then destroy main ctxt aggregate.id
  else throw (.invalidAggregateAction .delete id "Host aggregate is not empty")

/-- `add_host_to_aggregate`. -/
def addHostToAggregate (id : Nat) (host : String) : AggregateM μ Aggregate := do
  ofExcept (services host)
  let aggregate ← getById main ctxt env id
  -- the new host is checked against the zone that the aggregate has
  let metadata := aggregate.metadata.map (fun kv => (kv.1, some kv.2))
  isSafeToUpdateAz main ctxt env metadata aggregate (some [host]) .add
  addHost main ctxt aggregate host

/-- `remove_host_from_aggregate`. -/
def removeHostFromAggregate (id : Nat) (host : String) : AggregateM μ Aggregate := do
  ofExcept (services host)
  let aggregate ← getById main ctxt env id
  deleteHost main ctxt aggregate host

end PolarBear.Zones
