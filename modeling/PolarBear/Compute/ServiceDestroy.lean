import PolarBear.Compute.ComputeNode

/-!
# Destroying a service

`service_destroy` marks the row of the service, and then every compute node that
has the service's id or its host. The host is shared by the services of all
binaries, and only one of them is the host's `nova-compute`. So whatever service
of a host goes, the compute node of the host goes with it, unless there is none
that the service does not own (`serviceDestroy_iff`).

Both tables carry what soft deletion relies on: an id is positive, and `deleted`
is `0` or the row's own id. So marking a row never runs into a constraint.
-/

namespace PolarBear.Compute

open PolarBear.Db
open PolarBear.Fallible
open PolarBear.Services (ServiceRow compatible sqlEq)

/-- The mark of a row: it is live, or its id stands in `deleted`. -/
def Marked (id deleted : Nat) : Prop := 0 < id ∧ (deleted = 0 ∨ deleted = id)

/-- A row of `services`, with the times that soft deletion and time stamps add. -/
structure StoredService extends ServiceRow where
  createdAt : Option Nat
  updatedAt : Option Nat
  deletedAt : Option Nat
  deriving DecidableEq, Repr

/-- A row that `soft_delete` marks. -/
def StoredService.softDelete (now : Nat) (r : StoredService) : StoredService :=
  { r with deleted := r.id, deletedAt := some now }

theorem StoredService.softDelete_id (now : Nat) (r : StoredService) :
    (r.softDelete now).id = r.id := rfl

theorem ComputeNodeRow.softDelete_id (now : Nat) (r : ComputeNodeRow) :
    (r.softDelete now).id = r.id := rfl

/-- The table of the services. -/
structure StoredServices where
  table : Table StoredService (fun r => r.id)
  sound : table.rows.Pairwise (fun r s => compatible r.toServiceRow s.toServiceRow = true)
  marks : ∀ r ∈ table.rows, Marked r.id r.deleted

abbrev StoredServices.rows (t : StoredServices) : List StoredService := t.table.rows

/-- The table of the compute nodes, with its marks. -/
structure StoredNodes extends ComputeNodeTable where
  marks : ∀ r ∈ table.rows, Marked r.id r.deleted

/-! ## Marking rows -/

/-- The mark of one row is on no other. -/
theorem Marked.ne_id {id id' deleted deleted' : Nat} (h : Marked id deleted)
    (h' : Marked id' deleted') (hne : id ≠ id') : id ≠ deleted' := by
  obtain ⟨hpos, -⟩ := h
  obtain ⟨-, hdeleted⟩ := h'
  omega

/-- Two rows of which one is marked anew differ in `deleted`. -/
theorem deleted_ne {ρ : Type} (id deleted : ρ → Nat) {mark : ρ → ρ} {p : ρ → Bool}
    (hmark : ∀ r, deleted (mark r) = id r) {r s : ρ} (hr : Marked (id r) (deleted r))
    (hs : Marked (id s) (deleted s)) (hne : id r ≠ id s) (hp : p r = true ∨ p s = true) :
    deleted (if p r then mark r else r) ≠ deleted (if p s then mark s else s) := by
  by_cases hpr : p r = true
  · rw [if_pos hpr, hmark]
    by_cases hps : p s = true
    · rw [if_pos hps, hmark]
      exact hne
    · rw [if_neg hps]
      exact hr.ne_id hs hne
  · rw [if_neg hpr, if_pos (hp.resolve_left hpr), hmark]
    exact (hs.ne_id hr hne.symm).symm

/-- A marked table stays one. -/
theorem marks_modify {ρ : Type} {id : ρ → Nat} (deleted : ρ → Nat) {mark : ρ → ρ}
    {p : ρ → Bool} (hid : ∀ r, id (mark r) = id r) (hmark : ∀ r, deleted (mark r) = id r)
    {t : Table ρ id} (h : ∀ r ∈ t.rows, Marked (id r) (deleted r)) :
    ∀ r ∈ (t.modify p mark hid).rows, Marked (id r) (deleted r) := by
  intro r hr
  obtain ⟨s, hs, rfl⟩ := (Table.mem_modify hid).mp hr
  by_cases hp : p s = true
  · rw [if_pos hp, hid, hmark]
    exact ⟨(h s hs).1, Or.inr rfl⟩
  · rw [if_neg hp]
    exact h s hs

/-- Two rows with different marks are compatible if they were. -/
theorem compatible_of_deleted_ne {r s : ServiceRow} (hid : r.id ≠ s.id)
    (hne : r.deleted ≠ s.deleted) : compatible r s = true := by
  unfold compatible Services.Constraint.clash
  simp [hid, hne]

theorem hostClash_of_deleted_ne {r s : ComputeNodeRow} (hne : r.deleted ≠ s.deleted) :
    hostClash r s = false := by
  unfold hostClash
  simp [hne]

/-- Marking services breaks no constraint. -/
theorem compatible_softDelete (t : StoredServices) (p : StoredService → Bool) (now : Nat) :
    (t.table.modify p (StoredService.softDelete now)
      (StoredService.softDelete_id now)).rows.Pairwise
      (fun r s => compatible r.toServiceRow s.toServiceRow = true) := by
  show (t.rows.map _).Pairwise _
  rw [List.pairwise_map]
  refine (t.table.sorted.and t.sound).imp_of_mem (fun {r s} hr hs hrs => ?_)
  have hid : r.id ≠ s.id := Nat.ne_of_lt hrs.1
  by_cases hp : p r = true ∨ p s = true
  · refine compatible_of_deleted_ne ?_ ?_
    · split <;> split <;> exact hid
    · exact deleted_ne (fun r : StoredService => r.id) (fun r => r.deleted) (fun _ => rfl)
        (t.marks r hr) (t.marks s hs) hid hp
  · rw [not_or] at hp
    rw [if_neg hp.1, if_neg hp.2]
    exact hrs.2

theorem hostClash_softDelete (t : StoredNodes) (p : ComputeNodeRow → Bool) (now : Nat) :
    (t.table.modify p (ComputeNodeRow.softDelete now)
      (ComputeNodeRow.softDelete_id now)).rows.Pairwise
      (fun r s => hostClash r s = false) := by
  show (t.rows.map _).Pairwise _
  rw [List.pairwise_map]
  refine (t.table.sorted.and t.unique).imp_of_mem (fun {r s} hr hs hrs => ?_)
  have hid : r.id ≠ s.id := Nat.ne_of_lt hrs.1
  by_cases hp : p r = true ∨ p s = true
  · exact hostClash_of_deleted_ne (deleted_ne ComputeNodeRow.id ComputeNodeRow.deleted
      (fun _ => rfl) (t.marks r hr) (t.marks s hs) hid hp)
  · rw [not_or] at hp
    rw [if_neg hp.1, if_neg hp.2]
    exact hrs.2

/-- `query.soft_delete()` on services. -/
def StoredServices.softDelete (now : Nat) (p : StoredService → Bool) (t : StoredServices) :
    StoredServices where
  table := t.table.modify p (StoredService.softDelete now) (StoredService.softDelete_id now)
  sound := compatible_softDelete t p now
  marks := marks_modify (fun r : StoredService => r.deleted) (StoredService.softDelete_id now)
    (fun _ => rfl) t.marks

/-- `query.soft_delete()` on compute nodes. -/
def StoredNodes.softDelete (now : Nat) (p : ComputeNodeRow → Bool) (t : StoredNodes) :
    StoredNodes where
  table := t.table.modify p (ComputeNodeRow.softDelete now) (ComputeNodeRow.softDelete_id now)
  unique := hostClash_softDelete t p now
  marks := marks_modify ComputeNodeRow.deleted (ComputeNodeRow.softDelete_id now) (fun _ => rfl)
    t.marks

/-! ## Destroying -/

/-- The two tables. -/
structure HostTables where
  services : StoredServices
  computeNodes : StoredNodes

inductive HostError where
  | nova (e : NovaError)
  | serviceNotFound (serviceId : Int)
  deriving DecidableEq, Repr

/-- The filter of `model_query`. -/
def queried (ctxt : Context) : Except HostError (Nat → Bool) :=
  match modelQuery ctxt none with
  | .ok shown => .ok shown
  | .error e => .error (.nova e)

/-- The result of `query.first()`, or the exception where there is none. -/
def foundService (serviceId : Int) : Option StoredService → Except HostError StoredService
  | some r => .ok r
  | none => .error (.serviceNotFound serviceId)

/-- `service_get`. -/
def serviceGet (ctxt : Context) (serviceId : Int) (t : StoredServices) :
    Except HostError StoredService := do
  let shown ← queried ctxt
  foundService serviceId (t.rows.find? (fun r => shown r.deleted && (r.id : Int) == serviceId))

/-- `service_destroy`; SQLAlchemy compares a host of `None` with `IS NULL`. -/
def serviceDestroy (ctxt : Context) (now : Nat) (serviceId : Int) (db : HostTables) :
    Except HostError HostTables := do
  let service ← serviceGet ctxt serviceId db.services
  let shown ← queried ctxt
  .ok {
    services := db.services.softDelete now
      (fun r => shown r.deleted && (r.id : Int) == serviceId)
    computeNodes := db.computeNodes.softDelete now
      (fun r => shown r.deleted && (r.serviceId == some serviceId || r.host == service.host)) }

/-- `Service.destroy` of an object with this context and id. -/
def Service.destroy (ctxt : Context) (now : Nat) (id : Int) (db : HostTables) :
    Except HostError HostTables :=
  serviceDestroy ctxt now id db

/-! ## What a destruction should do -/

/-- A service as `soft_delete` leaves it: not live, and otherwise what it was. -/
def StoredService.SoftDeleted (r r' : StoredService) : Prop :=
  r'.deleted ≠ 0 ∧ { r' with deleted := r.deleted, deletedAt := r.deletedAt } = r

def ComputeNodeRow.SoftDeleted (r r' : ComputeNodeRow) : Prop :=
  r'.deleted ≠ 0 ∧ { r' with deleted := r.deleted, deletedAt := r.deletedAt } = r

/-- The compute nodes of a service: those with its id, and for the `nova-compute` of a host those
of the host. -/
def Belongs (service : StoredService) (r : ComputeNodeRow) : Prop :=
  r.serviceId = some (service.id : Int) ∨
    (service.binary = some "nova-compute" ∧ r.host = service.host)

/-- The service and the nodes that belong to it are deleted, and no other row is changed. -/
structure DestroysOnly (service : StoredService) (db db' : HostTables) : Prop where
  destroyed : ∃ r, db'.services.table.byId service.id = some r ∧ service.SoftDeleted r
  services : ∀ n ≠ service.id, db'.services.table.byId n = db.services.table.byId n
  ids : db'.computeNodes.rows.map ComputeNodeRow.id = db.computeNodes.rows.map ComputeNodeRow.id
  belonging : ∀ r ∈ db.computeNodes.rows, Belongs service r →
    ∃ r', db'.computeNodes.table.byId r.id = some r' ∧ r.SoftDeleted r'
  others : ∀ r ∈ db.computeNodes.rows, ¬ Belongs service r →
    db'.computeNodes.table.byId r.id = some r
  otherBinary : service.binary ≠ some "nova-compute" → ∀ r ∈ db.computeNodes.rows,
    r.serviceId ≠ some (service.id : Int) →
    (∃ s ∈ db.services.rows, s.live = true ∧ s.binary = some "nova-compute" ∧ s.host = r.host) →
    db'.computeNodes.table.byId r.id = some r

/-- The service that a context sees under an id. -/
def Sees (ctxt : Context) (serviceId : Int) (db : HostTables) (service : StoredService) : Prop :=
  service ∈ db.services.rows ∧ shows ctxt.readDeleted service.deleted = true ∧
    (service.id : Int) = serviceId

/-- Destroying the service under an id deletes it and its nodes, and without one it raises. -/
def DestroysService (ctxt : Context) (now : Nat) (serviceId : Int) (db : HostTables) : Prop :=
  (∀ service, Sees ctxt serviceId db service →
    ∃ db', Service.destroy ctxt now serviceId db = .ok db' ∧ DestroysOnly service db db') ∧
  ((∀ service, ¬ Sees ctxt serviceId db service) →
    Service.destroy ctxt now serviceId db = .error (.serviceNotFound serviceId))

/-- The nodes of the host that the context sees are the service's, unless they carry this very
mark; and a context that sees deleted rows only finds no live node of the service. -/
def OnlyOwnNodes (ctxt : Context) (now : Nat) (serviceId : Int) (db : HostTables) : Prop :=
  ∀ service, Sees ctxt serviceId db service →
    (∀ r ∈ db.computeNodes.rows, shows ctxt.readDeleted r.deleted = true →
      r.host = service.host → ¬ Belongs service r → r.softDelete now = r) ∧
    (ctxt.readDeleted = "only" → ∀ r ∈ db.computeNodes.rows, Belongs service r → r.deleted ≠ 0)

/-! ## What it does -/

theorem ComputeNodeRow.softDeleted_softDelete (now : Nat) {r : ComputeNodeRow} (hid : 0 < r.id) :
    r.SoftDeleted (r.softDelete now) := ⟨Nat.ne_of_gt hid, rfl⟩

theorem StoredService.softDeleted_softDelete (now : Nat) {r : StoredService} (hid : 0 < r.id) :
    r.SoftDeleted (r.softDelete now) := ⟨Nat.ne_of_gt hid, rfl⟩

section

variable {ctxt : Context} {now : Nat} {serviceId : Int} {db : HostTables}

theorem queried_eq (hctxt : ctxt.readDeleted ∈ readDeletedValues) :
    queried ctxt = .ok (shows ctxt.readDeleted) := by
  unfold queried
  rw [modelQuery_shows hctxt]

/-- The service that is seen is the one that is read. -/
theorem serviceGet_sees (hctxt : ctxt.readDeleted ∈ readDeletedValues) {service : StoredService}
    (h : Sees ctxt serviceId db service) : serviceGet ctxt serviceId db.services = .ok service := by
  obtain ⟨hmem, hshown, hid⟩ := h
  unfold serviceGet
  rw [queried_eq hctxt]
  show foundService serviceId _ = _
  cases hfind : db.services.rows.find?
      (fun r => shows ctxt.readDeleted r.deleted && (r.id : Int) == serviceId) with
  | none =>
    have hno := List.find?_eq_none.mp hfind service hmem
    simp [hshown, hid] at hno
  | some r =>
    have hr := List.find?_some hfind
    have hrid : (r.id : Int) = serviceId := by simpa using (Bool.and_eq_true_iff.mp hr).2
    have hmemr := List.mem_of_find?_eq_some hfind
    rw [db.services.table.eq_of_key hmemr hmem (by omega)]
    rfl

theorem serviceGet_unseen (hctxt : ctxt.readDeleted ∈ readDeletedValues)
    (h : ∀ service, ¬ Sees ctxt serviceId db service) :
    serviceGet ctxt serviceId db.services = .error (.serviceNotFound serviceId) := by
  have hnone : db.services.rows.find?
      (fun r => shows ctxt.readDeleted r.deleted && (r.id : Int) == serviceId) = none := by
    rw [List.find?_eq_none]
    intro r hr hp
    rw [Bool.and_eq_true_iff] at hp
    exact h r ⟨hr, hp.1, by simpa using hp.2⟩
  unfold serviceGet
  rw [queried_eq hctxt]
  show foundService serviceId _ = _
  rw [hnone]
  rfl

/-- **What a destruction does**: it marks the rows with the id, and the nodes the context sees
with the id or the host. -/
theorem destroy_eq_ok (hctxt : ctxt.readDeleted ∈ readDeletedValues) {service : StoredService}
    (h : Sees ctxt serviceId db service) :
    Service.destroy ctxt now serviceId db = .ok {
      services := db.services.softDelete now
        (fun r => shows ctxt.readDeleted r.deleted && (r.id : Int) == serviceId)
      computeNodes := db.computeNodes.softDelete now
        (fun r => shows ctxt.readDeleted r.deleted &&
          (r.serviceId == some serviceId || r.host == service.host)) } := by
  unfold Service.destroy serviceDestroy
  rw [serviceGet_sees hctxt h, queried_eq hctxt]
  rfl

theorem service_byId_softDelete (t : StoredServices) (p : StoredService → Bool) (n : Nat) :
    (t.softDelete now p).table.byId n =
      (t.table.byId n).map (fun r => if p r then r.softDelete now else r) :=
  t.table.byId_modify p (StoredService.softDelete now) (StoredService.softDelete_id now) n

/-- What a node reads after a marking. -/
theorem byId_softDelete (t : StoredNodes) (p : ComputeNodeRow → Bool) {r : ComputeNodeRow}
    (hr : r ∈ t.rows) :
    (t.softDelete now p).table.byId r.id = some (if p r then r.softDelete now else r) := by
  have hread : t.table.byId r.id = some r := t.table.byId_iff.mpr ⟨hr, rfl⟩
  have hmarked := t.table.byId_modify p (ComputeNodeRow.softDelete now)
    (ComputeNodeRow.softDelete_id now) r.id
  rw [hread] at hmarked
  exact hmarked

/-- A row that is hidden is deleted, unless the context sees deleted rows only. -/
theorem deleted_of_hidden {deleted : Nat} (h : shows ctxt.readDeleted deleted = false)
    (honly : ctxt.readDeleted ≠ "only") : deleted ≠ 0 := by
  unfold shows at h
  by_cases hno : ctxt.readDeleted = "no"
  · rw [if_pos hno] at h
    exact beq_eq_false_iff_ne.mp h
  · rw [if_neg hno, if_neg honly] at h
    cases h

/-- The nodes, row by row. -/
theorem nodes_of_own {service : StoredService} (hid : (service.id : Int) = serviceId)
    (hothers : ∀ r ∈ db.computeNodes.rows, shows ctxt.readDeleted r.deleted = true →
      r.host = service.host → ¬ Belongs service r → r.softDelete now = r)
    {r : ComputeNodeRow} (hr : r ∈ db.computeNodes.rows) (hbelongs : ¬ Belongs service r) :
    (db.computeNodes.softDelete now (fun r => shows ctxt.readDeleted r.deleted &&
      (r.serviceId == some serviceId || r.host == service.host))).table.byId r.id = some r := by
  rw [byId_softDelete _ _ hr]
  split
  · next hp =>
    rw [Bool.and_eq_true_iff, Bool.or_eq_true_iff, beq_iff_eq, beq_iff_eq] at hp
    obtain ⟨hshown, hserviceId | hhost⟩ := hp
    · exact absurd (Or.inl (hserviceId.trans (congrArg some hid.symm))) hbelongs
    · rw [hothers r hr hshown hhost hbelongs]
  · rfl

/-- Where nothing else is marked, the destruction is what it should be. -/
theorem destroysOnly_of_own {service : StoredService} (hsees : Sees ctxt serviceId db service)
    (hothers : ∀ r ∈ db.computeNodes.rows, shows ctxt.readDeleted r.deleted = true →
      r.host = service.host → ¬ Belongs service r → r.softDelete now = r)
    (honly : ctxt.readDeleted = "only" →
      ∀ r ∈ db.computeNodes.rows, Belongs service r → r.deleted ≠ 0) :
    DestroysOnly service db {
      services := db.services.softDelete now
        (fun r => shows ctxt.readDeleted r.deleted && (r.id : Int) == serviceId)
      computeNodes := db.computeNodes.softDelete now
        (fun r => shows ctxt.readDeleted r.deleted &&
          (r.serviceId == some serviceId || r.host == service.host)) } := by
  obtain ⟨hmem, hshown, hid⟩ := hsees
  have hread : db.services.table.byId service.id = some service :=
    db.services.table.byId_iff.mpr ⟨hmem, rfl⟩
  refine ⟨⟨service.softDelete now, ?_, ?_⟩, fun n hn => ?_, ?_, fun r hr hbelongs => ?_,
    fun r hr hbelongs => nodes_of_own hid hothers hr hbelongs, fun hbinary r hr hne _ => ?_⟩
  · rw [service_byId_softDelete, hread, Option.map_some, if_pos (by simp [hshown, hid])]
  · exact StoredService.softDeleted_softDelete now (db.services.marks service hmem).1
  · rw [service_byId_softDelete]
    cases hreadn : db.services.table.byId n with
    | none => rfl
    | some r =>
      obtain ⟨-, hrid⟩ := db.services.table.byId_iff.mp hreadn
      rw [Option.map_some, if_neg]
      simp only [Bool.and_eq_true, beq_iff_eq, not_and]
      intro _
      omega
  · show (db.computeNodes.rows.map _).map _ = _
    rw [List.map_map]
    refine List.map_congr_left (fun r _ => ?_)
    show (if _ then r.softDelete now else r).id = r.id
    split <;> rfl
  · refine ⟨_, byId_softDelete _ _ hr, ?_⟩
    by_cases hrshown : shows ctxt.readDeleted r.deleted = true
    · have howned : r.serviceId = some serviceId ∨ r.host = service.host :=
        hbelongs.imp (fun h => hid ▸ h) And.right
      rw [if_pos (by simpa [hrshown] using howned)]
      exact ComputeNodeRow.softDeleted_softDelete now (db.computeNodes.marks r hr).1
    · rw [if_neg (by simp [hrshown])]
      refine ⟨?_, rfl⟩
      by_cases h : ctxt.readDeleted = "only"
      · exact honly h r hr hbelongs
      · exact deleted_of_hidden (Bool.eq_false_iff.mpr hrshown) h
  · exact nodes_of_own hid hothers hr (not_or.mpr ⟨hne, fun h => hbinary h.1⟩)

/-- **A service takes its own nodes with it, and no other** exactly where the context sees no
other node of its host, and no node of its own is hidden from it for being live. -/
theorem serviceDestroy_iff (hctxt : ctxt.readDeleted ∈ readDeletedValues) :
    DestroysService ctxt now serviceId db ↔ OnlyOwnNodes ctxt now serviceId db := by
  constructor
  · rintro ⟨hdestroys, -⟩ service hsees
    obtain ⟨db', hdestroy, hown⟩ := hdestroys service hsees
    rw [destroy_eq_ok hctxt hsees] at hdestroy
    cases hdestroy
    refine ⟨fun r hr hshown hhost hbelongs => ?_, fun honly r hr hbelongs => ?_⟩
    · have hkept := hown.others r hr hbelongs
      rw [byId_softDelete _ _ hr, if_pos (by simp [hshown, hhost])] at hkept
      exact Option.some.inj hkept
    · obtain ⟨r', hread, hdeleted, -⟩ := hown.belonging r hr hbelongs
      -- a live node is not among the rows that this context marks
      intro hlive
      have hhidden : shows ctxt.readDeleted r.deleted = false := by
        rw [honly, hlive]
        rfl
      rw [byId_softDelete _ _ hr, hhidden] at hread
      cases hread
      exact hdeleted hlive
  · intro hown
    refine ⟨fun service hsees => ⟨_, destroy_eq_ok hctxt hsees, ?_⟩, fun hunseen => ?_⟩
    · obtain ⟨hothers, honly⟩ := hown service hsees
      exact destroysOnly_of_own hsees hothers honly
    · unfold Service.destroy serviceDestroy
      rw [serviceGet_unseen hctxt hunseen]
      rfl

end

/-! ## A host with two services -/

instance (id deleted : Nat) : Decidable (Marked id deleted) :=
  inferInstanceAs (Decidable (_ ∧ _))

/-- The scheduler of `lab`. -/
def labScheduler : StoredService :=
  ⟨⟨1, some "lab", some "nova-scheduler", some "scheduler", 0, false, none, none, false, some 9, 0⟩,
    some 10, none, none⟩

/-- The `nova-compute` of `lab`. -/
def labCompute : StoredService :=
  ⟨⟨2, some "lab", some "nova-compute", some "compute", 0, false, none, none, false, some 9, 0⟩,
    some 10, none, none⟩

/-- The compute node of `lab`. -/
def labNode : ComputeNodeRow :=
  ⟨1, some 2, some "lab", some "6d9e", "docker", none, some 20, none, none, 0⟩

theorem labServices_sorted :
    [labScheduler, labCompute].Pairwise (fun r s => r.id < s.id) := by decide

theorem labServices_below : ∀ r ∈ [labScheduler, labCompute], r.id < 3 := by decide

theorem labServices_sound : [labScheduler, labCompute].Pairwise
    (fun r s => compatible r.toServiceRow s.toServiceRow = true) := by decide

theorem labServices_marks : ∀ r ∈ [labScheduler, labCompute], Marked r.id r.deleted := by decide

theorem labNodes_sorted : [labNode].Pairwise (fun r s => r.id < s.id) := by decide

theorem labNodes_below : ∀ r ∈ [labNode], r.id < 2 := by decide

theorem labNodes_unique : [labNode].Pairwise (fun r s => hostClash r s = false) := by decide

theorem labNodes_marks : ∀ r ∈ [labNode], Marked r.id r.deleted := by decide

def labTables : HostTables where
  services := ⟨⟨[labScheduler, labCompute], 3, labServices_sorted, labServices_below⟩,
    labServices_sound, labServices_marks⟩
  computeNodes := ⟨⟨⟨[labNode], 2, labNodes_sorted, labNodes_below⟩, labNodes_unique⟩,
    labNodes_marks⟩

/-- Destroying the `nova-compute` deletes its node, and leaves the scheduler. -/
theorem serviceDestroy_compute : DestroysService adminContext 60 2 labTables := by
  refine (serviceDestroy_iff (by decide)).mpr ?_
  rintro service ⟨hmem, -, hid⟩
  have hservice : service = labCompute := by
    rcases List.mem_cons.mp hmem with rfl | hmem
    · exact absurd hid (by decide)
    · exact List.mem_singleton.mp hmem
  subst hservice
  refine ⟨fun r hr _ _ hbelongs => absurd ?_ hbelongs, fun honly => absurd honly (by decide)⟩
  rw [List.mem_singleton.mp hr]
  exact Or.inl rfl

/-- Destroying the scheduler deletes the node of the live `nova-compute`. -/
theorem serviceDestroy_scheduler : ¬ DestroysService adminContext 60 1 labTables := by
  rintro ⟨hdestroys, -⟩
  obtain ⟨db', hdestroy, hown⟩ :=
    hdestroys labScheduler ⟨List.mem_cons_self .., by decide, by decide⟩
  cases hdestroy
  have hbelongs : ¬ Belongs labScheduler labNode := by
    rintro (h | h)
    · exact absurd h (by decide)
    · exact absurd h.1 (by decide)
  have hkept := hown.others labNode (List.mem_singleton.mpr rfl) hbelongs
  exact absurd (congrArg (Option.map ComputeNodeRow.deleted) hkept) (by decide)

end PolarBear.Compute
