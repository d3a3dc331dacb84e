import PolarBear.Compute.Lookup
import PolarBear.Compute.Saving
import PolarBear.Py.JsonText

/-!
# The listings of slaves

`index` and `detail` list the compute nodes in a dictionary under their uuids, and `show` gives
one of them. A uuid may be missing or stand in two rows, the method of a node may be missing or
no JSON, and a node without a host is looked up through its service, for which an object that
is being read has no context. One such row breaks a whole listing or hides another row.

`slaves_iff` says which tables are listed right, and `run_listed` that a table is, if it was
filled by `create` and `save` with rows of their own uuid, a JSON method, and a host or no
service.
-/

namespace PolarBear.Api

open PolarBear.Compute
open PolarBear.Db
open PolarBear.Fallible
open PolarBear.Py
open PolarBear.Transition

variable {κ α : Type}

/-! ## The views -/

/-- An entry of `index`. -/
structure IndexEntry where
  id : Nat
  host : Option String

/-- An entry of `detail`. -/
structure DetailEntry extends IndexEntry where
  computeNodeType : Option String
  computeNodeMethod : Json

/-- The answer of `show`. -/
structure ShownNode extends DetailEntry where
  uuid : String

inductive SlavesError where
  | node (e : NodeError)
  | valueError
  | httpNotFound (explanation : String)

def liftNode {α : Type} : Except NodeError α → Except SlavesError α
  | .ok a => .ok a
  | .error e => .error (.node e)

/-- Reading a field; one that is not set cannot be loaded. -/
def readField (name : String) : Option α → Except SlavesError α
  | some v => .ok v
  | none => .error (.node (.notImplemented name))

/-- `ComputeNodeList.get_all`: the objects have no context while they are made. -/
def getAll (services : StoredServices) (ctxt : CellContext κ) (c : Databases κ) :
    Except NodeError (List NodeObject) :=
  (computeNodeGetAll ctxt c).mapM (fun db => load services (NodeObject.new none) db.toDb)

/-- The entry of a node, under its uuid. -/
def keyed (entry : NodeObject → Except SlavesError α) (node : NodeObject) :
    Except SlavesError (String × α) := do
  let uuid ← readField "uuid" node.uuid
  let e ← entry node
  .ok (uuid, e)

/-- The loop of the listings. -/
def listing (entry : NodeObject → Except SlavesError α) (nodes : List NodeObject) :
    Except SlavesError (List (String × α)) :=
  nodes.foldlM (fun results node => do
    let e ← keyed entry node
    .ok (Dict.set e.1 e.2 results)) []

def indexEntry (node : NodeObject) : Except SlavesError IndexEntry := do
  let id ← readField "id" node.id
  let host ← readField "host" node.host
  .ok ⟨id, host⟩

/-- `FlavorsController.index`; whatever is raised becomes a 500. -/
def slavesIndex (services : StoredServices) (ctxt : CellContext κ) (c : Databases κ) :
    Except SlavesError (List (String × IndexEntry)) := do
  let computeNodes ← liftNode (getAll services ctxt c)
  listing indexEntry computeNodes

variable (floatRepr : String → String)

/-- `jsonutils.loads(node.compute_node_method)`. -/
def readMethod (node : NodeObject) : Except SlavesError Json := do
  let text ← readField "compute_node_method" node.computeNodeMethod
  match loads floatRepr text with
  | some method => .ok method
  | none => .error .valueError

def detailEntry (node : NodeObject) : Except SlavesError DetailEntry := do
  let computeNodeType ← readField "compute_node_type" node.computeNodeType
  let computeNodeMethod ← readMethod floatRepr node
  let host ← readField "host" node.host
  let id ← readField "id" node.id
  .ok ⟨⟨id, host⟩, computeNodeType, computeNodeMethod⟩

/-- `FlavorsController.detail`. -/
def slavesDetail (services : StoredServices) (ctxt : CellContext κ) (c : Databases κ) :
    Except SlavesError (List (String × DetailEntry)) := do
  let computeNodes ← liftNode (getAll services ctxt c)
  listing (detailEntry floatRepr) computeNodes

/-- `except exception.NotFound`. -/
def notFound : NodeError → SlavesError
  | .store (.computeHostNotFound host) =>
    .httpNotFound ("Compute host " ++ host ++ " could not be found.")
  | .lookup (.service (.serviceNotFound serviceId)) =>
    .httpNotFound ("Service " ++ toString serviceId ++ " could not be found.")
  | e => .node e

/-- `FlavorsController.show`, for an id that is a number. -/
def slavesShow (services : StoredServices) (ctxt : CellContext κ) (id : Nat) (c : Databases κ) :
    Except SlavesError ShownNode := do
  let node ← (Compute.getById services ctxt id c).mapError notFound
  let id ← readField "id" node.id
  let uuid ← readField "uuid" node.uuid
  let host ← readField "host" node.host
  let computeNodeType ← readField "compute_node_type" node.computeNodeType
  let computeNodeMethod ← readMethod floatRepr node
  .ok ⟨⟨⟨id, host⟩, computeNodeType, computeNodeMethod⟩, uuid⟩

/-! ## What they should list -/

/-- The rows of a table that a context sees. -/
def seen (ctxt : CellContext κ) (t : ComputeNodeTable) : List ComputeNodeRow :=
  t.rows.filter (visible ctxt.toContext)

/-- One entry for each row. -/
def OnePerRow (id : α → Nat) (results : List (String × α)) (rows : List ComputeNodeRow) : Prop :=
  (results.map (fun e => id e.2)).Perm (rows.map ComputeNodeRow.id)

/-- The entry of a row is the one that `show` gives. -/
def LikeShow (services : StoredServices) (ctxt : CellContext κ) (t : ComputeNodeTable)
    (results : List (String × DetailEntry)) (r : ComputeNodeRow) : Prop :=
  ∃ shown, slavesShow floatRepr services ctxt r.id (fixedTable t) = .ok shown ∧
    shown.id = r.id ∧ (shown.uuid, shown.toDetailEntry) ∈ results

/-- The listings raise nothing and have one entry for each row that is seen, which `show`
confirms. -/
structure SlavesListed (services : StoredServices) (ctxt : CellContext κ) (t : ComputeNodeTable) :
    Prop where
  index : ∃ results, slavesIndex services ctxt (fixedTable t) = .ok results ∧
    OnePerRow IndexEntry.id results (seen ctxt t)
  detail : ∃ results, slavesDetail floatRepr services ctxt (fixedTable t) = .ok results ∧
    OnePerRow (fun e => e.id) results (seen ctxt t) ∧
    ∀ r ∈ seen ctxt t, LikeShow floatRepr services ctxt t results r

/-- A row that can be listed. -/
structure Listable (r : ComputeNodeRow) : Prop where
  host : HostKnown r
  uuid : ∃ uuid, r.uuid = some uuid ∧ isAscii uuid = true
  method : ∃ text, r.computeNodeMethod = some text ∧ loads floatRepr text ≠ none

/-- Rows that can be listed together. -/
structure AllListable (rows : List ComputeNodeRow) : Prop where
  each : ∀ r ∈ rows, Listable floatRepr r
  distinct : (rows.map ComputeNodeRow.uuid).Nodup

/-! ## The objects of the rows -/

variable {floatRepr : String → String} {services : StoredServices} {ctxt : CellContext κ}
  {r : ComputeNodeRow} {rows : List ComputeNodeRow} {t t' : ComputeNodeTable}

theorem getAll_fixed : getAll services ctxt (fixedTable t) =
    (seen ctxt t).mapM (fun r => load services (NodeObject.new none) r.toDb) := by
  unfold getAll computeNodeGetAll computeNodeFetchall computeNodeSelect Filters.none
  simp only [Bool.and_true]
  rfl

theorem getAll_known (h : ∀ r ∈ seen ctxt t, Loadable r) :
    getAll services ctxt (fixedTable t) = .ok ((seen ctxt t).map nodeOf) := by
  rw [getAll_fixed]
  exact mapM_ok (fun r hr => load_known services (h r hr))

/-! ## The loop -/

variable {entry : NodeObject → Except SlavesError α}

theorem listing_eq (nodes : List NodeObject) : listing entry nodes = (do
    let es ← nodes.mapM (keyed entry)
    .ok (Dict.update [] es)) :=
  foldlM_eq_mapM nodes []

theorem keyed_key {node : NodeObject} {e : String × α} (h : keyed entry node = .ok e) :
    some e.1 = node.uuid ∧ entry node = .ok e.2 := by
  unfold keyed at h
  obtain ⟨uuid, hread, h⟩ := bind_ok_iff.mp h
  obtain ⟨v, hentry, h⟩ := bind_ok_iff.mp h
  cases h
  refine ⟨?_, hentry⟩
  cases huuid : node.uuid with
  | none =>
    rw [huuid] at hread
    cases hread
  | some u =>
    rw [huuid] at hread
    cases hread
    rfl

/-- **Rows that are listed together**: the loop gives an entry for each. -/
theorem listing_ok (entryOf : ComputeNodeRow → α) (h : AllListable floatRepr rows)
    (hentry : ∀ r ∈ rows, entry (nodeOf r) = .ok (entryOf r)) :
    ∃ results, listing entry (rows.map nodeOf) = .ok results ∧
      results.map Prod.snd = rows.map entryOf ∧
      ∀ r ∈ rows, ∃ uuid, r.uuid = some uuid ∧ (uuid, entryOf r) ∈ results := by
  have hkeyed : rows.mapM (fun r => keyed entry (nodeOf r)) =
      .ok (rows.map (fun r => (r.uuid.getD "", entryOf r))) := by
    refine mapM_ok (fun r hr => ?_)
    obtain ⟨uuid, huuid, -⟩ := (h.each r hr).uuid
    unfold keyed
    rw [hentry r hr]
    show (readField "uuid" r.uuid >>= _) = _
    rw [huuid]
    rfl
  have hkeys : (rows.map (fun r => r.uuid.getD "")).map some = rows.map ComputeNodeRow.uuid := by
    rw [List.map_map]
    refine List.map_congr_left (fun r hr => ?_)
    obtain ⟨uuid, huuid, -⟩ := (h.each r hr).uuid
    show some (r.uuid.getD "") = r.uuid
    rw [huuid]
    rfl
  have hnodup : (Dict.keys (rows.map (fun r => (r.uuid.getD "", entryOf r)))).Nodup := by
    have hdistinct := h.distinct
    rw [← hkeys] at hdistinct
    show ((rows.map _).map Prod.fst).Nodup
    rw [List.map_map]
    exact hdistinct.of_map
  refine ⟨rows.map (fun r => (r.uuid.getD "", entryOf r)), ?_, ?_, fun r hr => ?_⟩
  · rw [listing_eq, List.mapM_map]
    show (rows.mapM (fun r => keyed entry (nodeOf r)) >>= _) = _
    rw [hkeyed]
    exact congrArg Except.ok (Dict.update_nil hnodup)
  · rw [List.map_map]
    rfl
  · obtain ⟨uuid, huuid, -⟩ := (h.each r hr).uuid
    refine ⟨uuid, huuid, List.mem_map.mpr ⟨r, hr, ?_⟩⟩
    rw [huuid]
    rfl

/-- **A loop that gives an entry for each row** was given distinct uuids, and no entry raised. -/
theorem listing_inv {id : α → Nat} {results : List (String × α)}
    (h : listing entry (rows.map nodeOf) = .ok results) (hone : OnePerRow id results rows) :
    (rows.map ComputeNodeRow.uuid).Nodup ∧
      ∀ r ∈ rows, r.uuid ≠ none ∧ ∃ e, entry (nodeOf r) = .ok e := by
  rw [listing_eq] at h
  obtain ⟨es, hes, h⟩ := bind_ok_iff.mp h
  cases h
  have hkeys : es.map (fun e => some e.1) = rows.map ComputeNodeRow.uuid := by
    rw [map_of_mapM_ok (fun _ _ hk => (keyed_key hk).1) hes, List.map_map]
    rfl
  constructor
  · -- as many entries as rows: no uuid was written twice
    have hlength : (Dict.update [] es).length = es.length := by
      have hperm := hone.length_eq
      have hrows := congrArg List.length hkeys
      simp only [List.length_map] at hperm hrows
      omega
    have hnodup := Dict.length_update_nil_iff.mp hlength
    rw [← hkeys]
    have hsome := hnodup.map (Option.some_injective String)
    rw [Dict.keys, List.map_map] at hsome
    exact hsome
  · intro r hr
    obtain ⟨e, he⟩ := mapM_mem_ok hes (nodeOf r) (List.mem_map_of_mem hr)
    obtain ⟨huuid, hentry⟩ := keyed_key he
    refine ⟨fun hnone => ?_, e.2, hentry⟩
    have hnode : some e.1 = r.uuid := huuid
    rw [hnone] at hnode
    cases hnode

/-! ## The entries -/

/-- The entry of a row in `index`. -/
def indexOf (r : ComputeNodeRow) : IndexEntry := ⟨r.id, r.host⟩

theorem indexEntry_nodeOf (r : ComputeNodeRow) : indexEntry (nodeOf r) = .ok (indexOf r) := rfl

variable (floatRepr) in
/-- The entry of a row in `detail`. -/
def detailOf (r : ComputeNodeRow) : DetailEntry :=
  ⟨⟨r.id, r.host⟩, some r.computeNodeType,
    (loads floatRepr (r.computeNodeMethod.getD "")).getD .null⟩

theorem readMethod_nodeOf (h : Listable floatRepr r) :
    readMethod floatRepr (nodeOf r) =
      .ok ((loads floatRepr (r.computeNodeMethod.getD "")).getD .null) := by
  obtain ⟨text, htext, hloads⟩ := h.method
  obtain ⟨method, hmethod⟩ := Option.ne_none_iff_exists'.mp hloads
  unfold readMethod nodeOf
  dsimp only
  rw [htext]
  show (match loads floatRepr text with
    | some method => Except.ok method
    | none => .error SlavesError.valueError) = .ok ((loads floatRepr text).getD .null)
  rw [hmethod]
  rfl

theorem listable_method {j : Json} (h : readMethod floatRepr (nodeOf r) = .ok j) :
    ∃ text, r.computeNodeMethod = some text ∧ loads floatRepr text ≠ none := by
  unfold readMethod at h
  obtain ⟨text, hread, h⟩ := bind_ok_iff.mp h
  replace hread : readField "compute_node_method" r.computeNodeMethod = .ok text := hread
  cases hmethod : r.computeNodeMethod with
  | none =>
    rw [hmethod] at hread
    cases hread
  | some text' =>
    rw [hmethod] at hread
    cases hread
    refine ⟨text, rfl, fun hnone => ?_⟩
    rw [hnone] at h
    cases h

theorem detailEntry_nodeOf (h : Listable floatRepr r) :
    detailEntry floatRepr (nodeOf r) = .ok (detailOf floatRepr r) := by
  unfold detailEntry
  rw [readMethod_nodeOf h]
  rfl

/-- `show` of a row that can be listed. -/
theorem slavesShow_ok (services : StoredServices) (h : Listable floatRepr r)
    (hr : r ∈ seen ctxt t) :
    ∃ uuid, r.uuid = some uuid ∧
      slavesShow floatRepr services ctxt r.id (fixedTable t) =
        .ok ⟨detailOf floatRepr r, uuid⟩ := by
  obtain ⟨hmem, hvisible⟩ := List.mem_filter.mp hr
  obtain ⟨uuid, huuid, hascii⟩ := h.uuid
  -- the row is seen, so its id finds it
  have hget : computeNodeGet ctxt r.id (fixedTable t) = .ok r := by
    rw [computeNodeGet_fixed, find?_id hmem, if_pos hvisible]
    rfl
  have hnode : Compute.getById services ctxt r.id (fixedTable t) =
      .ok { nodeOf r with context := some ctxt.toContext } := by
    unfold Compute.getById
    rw [hget]
    show (load services (NodeObject.new none) r.toDb >>= _) = _
    rw [load_known services ⟨h.host, fun u hu => Option.some.inj (huuid.symm.trans hu) ▸ hascii⟩]
    rfl
  refine ⟨uuid, huuid, ?_⟩
  have hmethod := readMethod_nodeOf h
  unfold slavesShow
  rw [hnode]
  show (readField "uuid" r.uuid >>= fun uuid =>
    readMethod floatRepr (nodeOf r) >>= fun method => Except.ok _) = _
  rw [hmethod, huuid]
  rfl

/-! ## The result for a table -/

theorem liftNode_ok {β : Type} {x : Except NodeError β} {b : β} (h : liftNode x = .ok b) :
    x = .ok b := by
  cases x with
  | error e => cases h
  | ok a =>
    cases h
    rfl

theorem onePerRow_of_map {id : α → Nat} {results : List (String × α)} {entryOf : ComputeNodeRow → α}
    (h : results.map Prod.snd = rows.map entryOf) (hid : ∀ r, id (entryOf r) = r.id) :
    OnePerRow id results rows := by
  have hids : results.map (fun e => id e.2) = rows.map ComputeNodeRow.id := by
    calc
      results.map (fun e => id e.2) = (results.map Prod.snd).map id := List.map_map.symm
      _ = (rows.map entryOf).map id := by rw [h]
      _ = rows.map ComputeNodeRow.id := by
        rw [List.map_map]
        exact List.map_congr_left (fun r _ => hid r)
  unfold OnePerRow
  rw [hids]

/-- Rows that can be listed together are. -/
theorem listed_of_listable (services : StoredServices)
    (h : AllListable floatRepr (seen ctxt t)) : SlavesListed floatRepr services ctxt t := by
  have hall : getAll services ctxt (fixedTable t) = .ok ((seen ctxt t).map nodeOf) := by
    refine getAll_known (fun r hr => ⟨(h.each r hr).host, fun uuid huuid => ?_⟩)
    obtain ⟨uuid', huuid', hascii⟩ := (h.each r hr).uuid
    exact Option.some.inj (huuid'.symm.trans huuid) ▸ hascii
  constructor
  · obtain ⟨results, hlisting, hentries, -⟩ :=
      listing_ok indexOf h (fun r _ => indexEntry_nodeOf r)
    refine ⟨results, ?_, onePerRow_of_map hentries (fun _ => rfl)⟩
    unfold slavesIndex
    rw [hall]
    exact hlisting
  · obtain ⟨results, hlisting, hentries, hmem⟩ :=
      listing_ok (detailOf floatRepr) h (fun r hr => detailEntry_nodeOf (h.each r hr))
    refine ⟨results, ?_, onePerRow_of_map hentries (fun _ => rfl), fun r hr => ?_⟩
    · unfold slavesDetail
      rw [hall]
      exact hlisting
    · obtain ⟨uuid, huuid, hshow⟩ := slavesShow_ok services (h.each r hr) hr
      obtain ⟨uuid', huuid', hin⟩ := hmem r hr
      obtain rfl := Option.some.inj (huuid.symm.trans huuid')
      exact ⟨_, hshow, rfl, hin⟩

/-- Rows that are listed can be. -/
theorem listable_of_listed (h : SlavesListed floatRepr services ctxt t) :
    AllListable floatRepr (seen ctxt t) := by
  obtain ⟨⟨results, hindex, hone⟩, details, hdetail, honeDetail, -⟩ := h
  obtain ⟨nodes, hnodes, hindex⟩ := bind_ok_iff.mp hindex
  obtain ⟨nodes', hnodes', hdetail⟩ := bind_ok_iff.mp hdetail
  -- both listings are made of the same objects
  obtain rfl := Except.ok.inj (hnodes.symm.trans hnodes')
  replace hnodes := liftNode_ok hnodes
  have hknown : ∀ r ∈ seen ctxt t, Loadable r := by
    intro r hr
    rw [getAll_fixed] at hnodes
    obtain ⟨o, ho⟩ := mapM_mem_ok hnodes r hr
    exact known_of_load ho
  obtain rfl := Except.ok.inj (hnodes.symm.trans (getAll_known hknown))
  obtain ⟨hdistinct, huuids⟩ := listing_inv hindex hone
  refine ⟨fun r hr => ⟨(hknown r hr).host, ?_, ?_⟩, hdistinct⟩
  · obtain ⟨uuid, huuid⟩ := Option.ne_none_iff_exists'.mp (huuids r hr).1
    exact ⟨uuid, huuid, (hknown r hr).uuid uuid huuid⟩
  · obtain ⟨-, e, he⟩ := (listing_inv hdetail honeDetail).2 r hr
    unfold detailEntry at he
    obtain ⟨computeNodeType, htype, hrest⟩ := bind_ok_iff.mp he
    obtain ⟨j, hmethod, -⟩ := bind_ok_iff.mp hrest
    exact listable_method hmethod

variable (floatRepr services ctxt t) in
/-- **A table is listed right** exactly if the rows that are seen can be listed together. -/
theorem slaves_iff :
    SlavesListed floatRepr services ctxt t ↔ AllListable floatRepr (seen ctxt t) :=
  ⟨listable_of_listed, listed_of_listable services⟩

/-! ## Tables that are filled -/

/-- A call that stores an object. -/
inductive Fill where
  | create (now : Nat) (generated : String) (o : NodeObject)
  | save (now : Nat) (o : NodeObject)

/-- The table that a call leaves; what it raises after the row is stored does not matter. -/
def fillStep : Fill → ComputeNodeTable → ComputeNodeTable → Prop
  | .create now generated o, t, t' => o.context ≠ none ∧ o.id = none ∧
    ∃ o₁, o.withUuid generated = .ok o₁ ∧ computeNodeCreate now o₁.updates t = .ok t'
  | .save now o, t, t' => ∃ ctxt id, o.context = some ctxt ∧ o.id = some id ∧
    computeNodeUpdate ctxt now id o.updates t = .ok t'

variable (floatRepr) in
/-- A row that can be listed and has a uuid of its own. -/
def FitsIn (r : ComputeNodeRow) (t : ComputeNodeTable) : Prop :=
  Listable floatRepr r ∧ ∀ s ∈ t.rows, s.id ≠ r.id → s.uuid ≠ r.uuid

variable (floatRepr) in
/-- The row that the call stores fits in. -/
def Fill.Fits : Fill → ComputeNodeTable → Prop
  | .create now generated o, t => ∀ o₁, o.withUuid generated = .ok o₁ →
    FitsIn floatRepr (createdRow now o₁.updates t) t
  | .save now o, t => ∀ r ∈ t.rows, o.id = some r.id →
    FitsIn floatRepr (savedRow now o.updates r) t

/-- `create` fills. -/
theorem fillStep_of_create {now : Nat} {generated : String} {o o' : NodeObject}
    (h : Compute.create services now generated o t = .ok (o', t')) :
    fillStep (.create now generated o) t t' := by
  unfold Compute.create at h
  split at h
  · cases h
  · cases h
  · next hctxt hid =>
    obtain ⟨o₁, huuid, h⟩ := bind_ok_iff.mp h
    obtain ⟨t₁, hstore, h⟩ := bind_ok_iff.mp h
    obtain ⟨o₂, -, heq⟩ := bind_ok_iff.mp h
    cases heq
    exact ⟨hctxt ▸ Option.some_ne_none _, hid, o₁, huuid, stored_ok hstore⟩

/-- `save` fills. -/
theorem fillStep_of_save {now : Nat} {o o' : NodeObject}
    (h : Compute.save services now o t = .ok (o', t')) : fillStep (.save now o) t t' := by
  unfold Compute.save at h
  split at h
  · cases h
  · cases h
  · next ctxt id hctxt hid =>
    obtain ⟨r, -, h⟩ := bind_ok_iff.mp h
    obtain ⟨t₁, hstore, h⟩ := bind_ok_iff.mp h
    obtain ⟨o₂, -, heq⟩ := bind_ok_iff.mp h
    cases heq
    exact ⟨ctxt, id, hctxt, hid, stored_ok hstore⟩

/-- **A call that stores a fitting row** keeps the table listable. -/
theorem fillStep_listable {fill : Fill} (h : AllListable floatRepr t.rows)
    (hfits : fill.Fits floatRepr t) (hstep : fillStep fill t t') :
    AllListable floatRepr t'.rows := by
  have hpairwise : t.rows.Pairwise (fun r s => r.uuid ≠ s.uuid) := List.pairwise_map.mp h.distinct
  cases fill with
  | create now generated o =>
    obtain ⟨-, -, o₁, huuid, hstore⟩ := hstep
    obtain ⟨hlistable, hown⟩ := hfits o₁ huuid
    rw [rows_of_create hstore]
    constructor
    · intro r hr
      rcases List.mem_append.mp hr with hr | hr
      · exact h.each r hr
      · exact List.mem_singleton.mp hr ▸ hlistable
    · refine List.pairwise_map.mpr (List.pairwise_append.mpr
        ⟨hpairwise, List.pairwise_singleton _ _, fun r hr s hs => ?_⟩)
      -- the new row has an id of its own, and so a uuid of its own
      rw [List.mem_singleton.mp hs]
      exact hown r hr (t.table.key_ne_next hr)
  | save now o =>
    obtain ⟨ctxt, id, -, hid, hstore⟩ := hstep
    obtain ⟨r, hr, rfl, hrows⟩ := rows_of_update hstore
    obtain ⟨hlistable, hown⟩ := hfits r hr hid
    have heq : ∀ s ∈ t.rows, (s.id == r.id) = true → s = r :=
      fun s hs hsame => t.table.eq_of_key hs hr (beq_iff_eq.mp hsame)
    rw [hrows]
    constructor
    · intro s' hs'
      obtain ⟨s, hs, rfl⟩ := List.mem_map.mp hs'
      split
      · next hsame => exact heq s hs hsame ▸ hlistable
      · exact h.each s hs
    · -- two rows of which at most one is saved
      refine List.pairwise_map.mpr (List.pairwise_map.mpr
        ((t.table.sorted.and hpairwise).imp_of_mem (fun {a b} ha hb hab => ?_)))
      have hids : a.id ≠ b.id := Nat.ne_of_lt hab.1
      by_cases hsa : (a.id == r.id) = true
      · obtain rfl := heq a ha hsa
        have hsb : ¬ (b.id == a.id) = true := fun hsb => hids (beq_iff_eq.mp hsb).symm
        rw [if_pos hsa, if_neg hsb]
        exact (hown b hb hids.symm).symm
      · rw [if_neg hsa]
        by_cases hsb : (b.id == r.id) = true
        · obtain rfl := heq b hb hsb
          rw [if_pos hsb]
          exact hown a ha hids
        · rw [if_neg hsb]
          exact hab.2

/-- The table before the first node. -/
def noNodes : ComputeNodeTable := (emptyDatabases none).primary

variable (floatRepr) in
/-- A step that stores a fitting row. -/
def fittingStep (fill : Fill) (t t' : ComputeNodeTable) : Prop :=
  fill.Fits floatRepr t ∧ fillStep fill t t'

/-- **Tables that are filled with fitting rows** are listed right. -/
theorem run_listed {fills : List Fill} (hrun : Run (fittingStep floatRepr) noNodes fills t)
    (services : StoredServices) (ctxt : CellContext κ) :
    SlavesListed floatRepr services ctxt t := by
  have hempty : AllListable floatRepr noNodes.rows :=
    ⟨fun r hr => absurd hr List.not_mem_nil, List.nodup_nil⟩
  have hkeeps : ∀ fill s s', AllListable floatRepr s.rows → fittingStep floatRepr fill s s' →
      AllListable floatRepr s'.rows :=
    fun fill s s' hs hstep => fillStep_listable hs hstep.1 hstep.2
  have hall : AllListable floatRepr t.rows := hrun.invariant hkeeps hempty
  have hsub : (seen ctxt t).Sublist t.rows := List.filter_sublist
  exact listed_of_listable services
    ⟨fun r hr => hall.each r (hsub.subset hr), hall.distinct.sublist (hsub.map _)⟩

variable (κ) in
/-- **Main result.** A table is listed right exactly if the rows that are seen can be listed
together, and so is every table that is filled with fitting rows. -/
theorem slaves_listed :
    (∀ (floatRepr : String → String) (services : StoredServices) (ctxt : CellContext κ)
        (t : ComputeNodeTable),
      SlavesListed floatRepr services ctxt t ↔ AllListable floatRepr (seen ctxt t)) ∧
    ∀ (floatRepr : String → String) (fills : List Fill) (t : ComputeNodeTable),
      Run (fittingStep floatRepr) noNodes fills t →
      ∀ (services : StoredServices) (ctxt : CellContext κ),
        SlavesListed floatRepr services ctxt t :=
  ⟨slaves_iff, fun _ _ _ hrun services ctxt => run_listed hrun services ctxt⟩

/-! ## Rows that do not fit -/

/-- A node of a host, with a uuid that is given. -/
def nodeOn (host : String) : NodeObject :=
  { NodeObject.new (some adminContext) with
    uuid := some "9f2c"
    host := some (some host)
    computeNodeType := some (some "kvm")
    computeNodeMethod := some "null"
    changed := ["uuid", "host", "compute_node_type", "compute_node_method"] }

/-- A node without a host, of a service. -/
def hostless : NodeObject :=
  { NodeObject.new (some adminContext) with
    serviceId := some (some 9)
    computeNodeType := some (some "kvm")
    computeNodeMethod := some "null"
    changed := ["service_id", "compute_node_type", "compute_node_method"] }

/-- One node is listed. -/
theorem lone_node_listed : ∃ t, Run (fittingStep id) noNodes [.create 60 "" (nodeOn "lab")] t ∧
    SlavesListed id labTables.services (⟨adminContext, none⟩ : CellContext String) t := by
  have hfits : Fill.Fits id (.create 60 "" (nodeOn "lab")) noNodes := by
    intro o₁ ho₁
    cases ho₁
    refine ⟨⟨fun h => (nomatch h), ⟨"9f2c", rfl, by decide⟩, "null", rfl, ?_⟩,
      fun s hs => absurd hs List.not_mem_nil⟩
    decide
  have hrun : Run (fittingStep id) noNodes [.create 60 "" (nodeOn "lab")] _ :=
    .cons ⟨hfits, Option.some_ne_none _, rfl, _, rfl, rfl⟩ (.nil _)
  exact ⟨_, hrun, (slaves_listed String).2 id _ _ hrun labTables.services ⟨adminContext, none⟩⟩

/-- Of two nodes with one uuid the listing shows one, and it is not made at all where a node has
a service and no host. -/
theorem twins_hidden :
    (∃ t, Run fillStep noNodes [.create 60 "" (nodeOn "lab"), .create 61 "" (nodeOn "attic")] t ∧
      ¬ SlavesListed id labTables.services (⟨adminContext, none⟩ : CellContext String) t) ∧
    ∃ t, Run fillStep noNodes [.create 60 "e07b" hostless] t ∧
      ¬ SlavesListed id labTables.services (⟨adminContext, none⟩ : CellContext String) t := by
  refine ⟨⟨_, .cons ⟨Option.some_ne_none _, rfl, _, rfl, rfl⟩
      (.cons ⟨Option.some_ne_none _, rfl, _, rfl, rfl⟩ (.nil _)), ?_⟩,
    ⟨_, .cons ⟨Option.some_ne_none _, rfl, _, rfl, rfl⟩ (.nil _), ?_⟩⟩
  · rintro ⟨⟨results, hindex, hone⟩, -⟩
    cases hindex
    exact absurd hone.length_eq (by decide)
  · rintro ⟨⟨results, hindex, -⟩, -⟩
    cases hindex

end PolarBear.Api
