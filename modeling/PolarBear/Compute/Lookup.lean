import PolarBear.Compute.Loading
import PolarBear.Compute.Reads

/-!
# Looking a compute node up

The lookups of compute nodes read through two kinds of queries. The hand-built
`_compute_node_select` hides deleted rows for `read_deleted = "no"` and live rows
never, and it has no filter for the type of a node. `model_query` knows all three
values of `read_deleted`. `compute_node_get` and the lookup by host and type use
the first, `compute_node_update` uses the second.

Over one fixed table, `lookup_iff` says when the lookup by host and type returns
the node asked for, and `readers_agree_iff` when the two kinds of queries find
the same rows. Above the rows, a new object has to take the row that is read
(`Loadable`): it has no context with which a service could be looked up, and it
takes no uuid that is not ASCII.
-/

namespace PolarBear.Compute

open PolarBear.Db
open PolarBear.Fallible
open PolarBear.Replication

variable {κ : Type}

/-- The databases while nothing is written: all of them hold the table. -/
def fixedTable (t : ComputeNodeTable) : Databases κ := fun _ => ⟨t, []⟩

/-! ## Objects -/

/-- `_from_db_object` on a new object, which then gets the context of the call. -/
def fromDbObject (services : StoredServices) (ctxt : Context) (db : ComputeNodeRow) :
    Except NodeError NodeObject := do
  let compute ← load services (NodeObject.new none) db.toDb
  .ok { compute with context := some ctxt }

/-- `ComputeNode.get_by_id`. -/
def getById (services : StoredServices) (ctxt : CellContext κ) (computeId : Nat)
    (c : Databases κ) : Except NodeError NodeObject := do
  let dbCompute ← stored (computeNodeGet ctxt computeId c)
  fromDbObject services ctxt.toContext dbCompute

/-- `ComputeNode.get_by_host_and_nodename`. -/
def getByHostAndNodename (services : StoredServices) (ctxt : CellContext κ)
    (host computeNodeType : Option String) (c : Databases κ) :
    Except NodeError NodeObject := do
  let dbCompute ← stored (computeNodeGetByHostAndNodename ctxt host computeNodeType c)
  fromDbObject services ctxt.toContext dbCompute

/-- The object of a row has the row's columns. -/
structure IsObjectOf (r : ComputeNodeRow) (o : NodeObject) : Prop where
  id : o.id = some r.id
  uuid : o.uuid = r.uuid
  host : o.host = some r.host
  computeNodeType : o.computeNodeType = some (some r.computeNodeType)
  computeNodeMethod : o.computeNodeMethod = r.computeNodeMethod

theorem fromDbObject_loadable (services : StoredServices) (ctxt : Context) {r : ComputeNodeRow}
    (h : Loadable r) : ∃ o, fromDbObject services ctxt r = .ok o ∧ IsObjectOf r o := by
  unfold fromDbObject
  rw [load_known services h]
  exact ⟨_, rfl, ⟨rfl, rfl, rfl, rfl, rfl⟩⟩

theorem loadable_of_fromDbObject {services : StoredServices} {ctxt : Context}
    {r : ComputeNodeRow} {o : NodeObject} (h : fromDbObject services ctxt r = .ok o) :
    Loadable r := by
  obtain ⟨o₁, hload, -⟩ := bind_ok_iff.mp h
  exact known_of_load hload

/-! ## The first row of a select -/

theorem firstResult_filter (host : String) (p : ComputeNodeRow → Bool)
    (rows : List ComputeNodeRow) :
    firstResult host (rows.filter p) =
      ((rows.find? p).map Except.ok).getD (.error (.computeHostNotFound host)) := by
  rw [← List.head?_filter]
  cases rows.filter p <;> rfl

section

variable (ctxt : CellContext κ) (t : ComputeNodeTable)

/-- `compute_node_get` on a fixed table. -/
theorem computeNodeGet_fixed (computeId : Nat) :
    computeNodeGet ctxt computeId (fixedTable t) =
      ((t.rows.find? (fun r => visible ctxt.toContext r && r.id == computeId)).map Except.ok).getD
        (.error (.computeHostNotFound (toString computeId))) := by
  rw [← firstResult_filter]
  unfold computeNodeGet computeNodeFetchall computeNodeSelect byComputeId Filters.none
  simp only [Bool.and_true]
  rfl

/-- The lookup by host and type does not look at the type. -/
theorem byHost_fixed (host computeNodeType : Option String) :
    computeNodeGetByHostAndNodename ctxt host computeNodeType (fixedTable t) =
      ((t.rows.find? (fun r => visible ctxt.toContext r && r.host == host)).map Except.ok).getD
        (.error (.computeHostNotFound (host.getD "None"))) := by
  rw [← firstResult_filter]
  unfold computeNodeGetByHostAndNodename computeNodeFetchall computeNodeSelect byHostAndType
    Filters.none
  simp only [Bool.and_true]
  rfl

end

theorem visible_of_shows {ctxt : Context} {r : ComputeNodeRow}
    (h : shows ctxt.readDeleted r.deleted = true) : visible ctxt r = true := by
  unfold shows at h
  unfold visible
  split
  · next hno => rwa [if_pos hno] at h
  · rfl

/-- The two filters on `deleted` differ on live rows, for `"only"`. -/
theorem shows_iff_visible {ctxt : Context} {r : ComputeNodeRow} :
    shows ctxt.readDeleted r.deleted = true ↔
      visible ctxt r = true ∧ (ctxt.readDeleted = "only" → r.deleted ≠ 0) := by
  constructor
  · intro h
    refine ⟨visible_of_shows h, fun honly => ?_⟩
    rw [honly] at h
    exact bne_iff_ne.mp h
  · rintro ⟨hvisible, honly⟩
    unfold shows
    unfold visible at hvisible
    by_cases hno : ctxt.readDeleted = "no"
    · rw [if_pos hno] at hvisible ⊢
      exact hvisible
    · rw [if_neg hno]
      split
      · next h => exact bne_iff_ne.mpr (honly h)
      · rfl

/-! ## The node asked for -/

/-- The rows that a lookup by host and type asks for. -/
def AskedFor (ctxt : Context) (host computeNodeType : Option String) (r : ComputeNodeRow) : Prop :=
  r.host = host ∧ some r.computeNodeType = computeNodeType ∧
    shows ctxt.readDeleted r.deleted = true

/-- The lookup finds a row that is asked for, as a row and as an object, and raises
`ComputeHostNotFound` if there is none. -/
def FindsAsked (services : StoredServices) (ctxt : CellContext κ)
    (host computeNodeType : Option String) (t : ComputeNodeTable) : Prop :=
  (∃ r ∈ t.rows, AskedFor ctxt.toContext host computeNodeType r ∧
    computeNodeGetByHostAndNodename ctxt host computeNodeType (fixedTable t) = .ok r ∧
    ∃ o, getByHostAndNodename services ctxt host computeNodeType (fixedTable t) = .ok o ∧
      IsObjectOf r o) ∨
  ((∀ r ∈ t.rows, ¬ AskedFor ctxt.toContext host computeNodeType r) ∧
    computeNodeGetByHostAndNodename ctxt host computeNodeType (fixedTable t) =
      .error (.computeHostNotFound (host.getD "None")) ∧
    getByHostAndNodename services ctxt host computeNodeType (fixedTable t) =
      .error (.store (.computeHostNotFound (host.getD "None"))))

/-- Of the rows of the host that are not hidden, the one with the least id is asked for. -/
def FirstIsAsked (ctxt : Context) (host computeNodeType : Option String) (t : ComputeNodeTable) :
    Prop :=
  ∀ r ∈ t.rows, visible ctxt r = true → r.host = host →
    (∀ s ∈ t.rows, visible ctxt s = true → s.host = host → r.id ≤ s.id) →
    AskedFor ctxt host computeNodeType r ∧ Loadable r

/-- **The lookup by host and type returns the node asked for** exactly where that is the first
row of the host. -/
theorem lookup_iff (services : StoredServices) (ctxt : CellContext κ)
    (host computeNodeType : Option String) (t : ComputeNodeTable) :
    FindsAsked services ctxt host computeNodeType t ↔
      FirstIsAsked ctxt.toContext host computeNodeType t := by
  unfold FindsAsked getByHostAndNodename
  rw [byHost_fixed]
  cases hfind : t.rows.find? (fun r => visible ctxt.toContext r && r.host == host) with
  | none =>
    have hno := List.find?_eq_none.mp hfind
    refine iff_of_true (Or.inr ⟨fun r hr hasked => ?_, rfl, rfl⟩) (fun r hr hvisible hhost => ?_)
    · exact hno r hr (by simp [hasked.1, visible_of_shows hasked.2.2])
    · exact absurd (by simp [hvisible, hhost]) (hno r hr)
  | some r =>
    obtain ⟨hr, hp, hleast⟩ := t.table.find?_iff_least.mp hfind
    rw [Bool.and_eq_true_iff, beq_iff_eq] at hp
    obtain ⟨hvisible, hhost⟩ := hp
    have hfirst : ∀ s ∈ t.rows, visible ctxt.toContext s = true → s.host = host → r.id ≤ s.id :=
      fun s hs hvs hhs => hleast s hs (by simp [hvs, hhs])
    rw [Option.map_some, Option.getD_some]
    show (_ ∨ _ ∧ Except.ok r = _ ∧ _) ↔ _
    constructor
    · rintro (⟨r', hr', hasked, hget, o, hobject, -⟩ | ⟨-, hget, -⟩)
      · cases hget
        intro s hs hvs hhs hmin
        have hsr : s = r := t.table.eq_of_key hs hr
          (Nat.le_antisymm (hmin r hr hvisible hhost) (hfirst s hs hvs hhs))
        subst hsr
        have hok : fromDbObject services ctxt.toContext s = .ok o := hobject
        exact ⟨hasked, loadable_of_fromDbObject hok⟩
      · cases hget
    · intro h
      obtain ⟨hasked, hloadable⟩ := h r hr hvisible hhost hfirst
      exact Or.inl ⟨r, hr, hasked, rfl, fromDbObject_loadable services ctxt.toContext hloadable⟩

/-- Who asks for a node of another type gets the node of the host. -/
theorem lookup_other_type :
    ¬ FindsAsked labTables.services (⟨adminContext, none⟩ : CellContext String) (some "lab")
      (some "virtual") labTables.computeNodes.toComputeNodeTable := by
  rintro (⟨r, hr, ⟨-, htype, -⟩, -⟩ | ⟨-, hget, -⟩)
  · rw [List.mem_singleton.mp hr] at htype
    exact absurd htype (by decide)
  · cases hget

/-! ## Two readers -/

/-- Both readers find the row with the id, or none does, and `compute_node_update` accepts the id
exactly if `ComputeNode.get_by_id` finds it. -/
structure ReadersAgree (services : StoredServices) (ctxt : CellContext κ) (computeId : Nat)
    (t : ComputeNodeTable) : Prop where
  rows : (computeNodeGet ctxt computeId (fixedTable t) =
        .error (.computeHostNotFound (toString computeId)) ∧
      computeNodeGetModel ctxt.toContext computeId t =
        .error (.computeHostNotFound (toString computeId))) ∨
    ∃ r ∈ t.rows, r.id = computeId ∧ computeNodeGet ctxt computeId (fixedTable t) = .ok r ∧
      computeNodeGetModel ctxt.toContext computeId t = .ok r
  accepted : ∀ now values, computeNodeUpdate ctxt.toContext now computeId values t ≠
      .error (.computeHostNotFound (toString computeId)) ↔
    ∃ o, getById services ctxt computeId (fixedTable t) = .ok o

/-- With `"only"` no live row has the id, and a new object takes a row with the id that is not
hidden. -/
def SameFilter (ctxt : Context) (computeId : Nat) (t : ComputeNodeTable) : Prop :=
  ∀ r ∈ t.rows, r.id = computeId →
    (ctxt.readDeleted = "only" → r.deleted ≠ 0) ∧ (visible ctxt r = true → Loadable r)

/-- `compute_node_get_model`. -/
theorem computeNodeGetModel_eq {ctxt : Context} (hctxt : ctxt.readDeleted ∈ readDeletedValues)
    (computeId : Nat) (t : ComputeNodeTable) :
    computeNodeGetModel ctxt computeId t =
      ((t.rows.find? (fun r => shows ctxt.readDeleted r.deleted && r.id == computeId)).map
        Except.ok).getD (.error (.computeHostNotFound (toString computeId))) := by
  unfold computeNodeGetModel shownRows
  rw [modelQuery_shows hctxt]
  simp only [bind, Except.bind]
  cases t.rows.find? _ <;> rfl

/-- An update that gets past the lookup does not raise `ComputeHostNotFound`. -/
theorem computeNodeUpdate_found {ctxt : Context} {now computeId : Nat} {values : Values}
    {t : ComputeNodeTable} {r : ComputeNodeRow}
    (h : computeNodeGetModel ctxt computeId t = .ok r) (host : String) :
    computeNodeUpdate ctxt now computeId values t ≠ .error (.computeHostNotFound host) := by
  unfold computeNodeUpdate
  rw [h]
  simp only [bind, Except.bind]
  split
  · exact fun herror => by cases herror
  · unfold commit
    split <;> exact fun herror => by cases herror

theorem computeNodeUpdate_missing {ctxt : Context} {now computeId : Nat} {values : Values}
    {t : ComputeNodeTable} {e : ComputeError}
    (h : computeNodeGetModel ctxt computeId t = .error e) :
    computeNodeUpdate ctxt now computeId values t = .error e := by
  unfold computeNodeUpdate
  rw [h]
  rfl

/-- An object is made of the row that is read. -/
theorem getById_ok_iff {services : StoredServices} {ctxt : CellContext κ} {computeId : Nat}
    {c : Databases κ} :
    (∃ o, getById services ctxt computeId c = .ok o) ↔
      ∃ r, computeNodeGet ctxt computeId c = .ok r ∧ Loadable r := by
  unfold getById
  cases hget : computeNodeGet ctxt computeId c with
  | error e =>
    refine iff_of_false ?_ ?_
    · rintro ⟨o, h⟩
      cases h
    · rintro ⟨r, h, -⟩
      cases h
  | ok r =>
    show (∃ o, fromDbObject services ctxt.toContext r = .ok o) ↔ _
    constructor
    · rintro ⟨o, h⟩
      exact ⟨r, rfl, loadable_of_fromDbObject h⟩
    · rintro ⟨r', h, hloadable⟩
      cases h
      obtain ⟨o, ho, -⟩ := fromDbObject_loadable services ctxt.toContext hloadable
      exact ⟨o, ho⟩

/-- Where both readers find nothing they agree. -/
theorem agree_of_missing (services : StoredServices) {ctxt : CellContext κ} {computeId : Nat}
    {t : ComputeNodeTable}
    (hget : computeNodeGet ctxt computeId (fixedTable t) =
      .error (.computeHostNotFound (toString computeId)))
    (hmodel : computeNodeGetModel ctxt.toContext computeId t =
      .error (.computeHostNotFound (toString computeId))) :
    ReadersAgree services ctxt computeId t := by
  refine ⟨Or.inl ⟨hget, hmodel⟩, fun now values => iff_of_false ?_ (fun h => ?_)⟩
  · exact fun h => h (computeNodeUpdate_missing hmodel)
  · obtain ⟨r, hget', -⟩ := getById_ok_iff.mp h
    rw [hget] at hget'
    cases hget'

/-- What an id finds under a condition on the rows. -/
theorem find?_id {t : ComputeNodeTable} {r : ComputeNodeRow} (hr : r ∈ t.rows)
    (p : ComputeNodeRow → Bool) :
    t.rows.find? (fun s => p s && s.id == r.id) = if p r then some r else none := by
  split
  · next hp =>
    refine t.table.find?_iff_least.mpr ⟨hr, by simp [hp], fun s _ hs => ?_⟩
    have hid : s.id = r.id := by simpa using (Bool.and_eq_true_iff.mp hs).2
    exact Nat.le_of_eq hid.symm
  · next hp =>
    rw [List.find?_eq_none]
    intro s hs hps
    rw [Bool.and_eq_true_iff, beq_iff_eq] at hps
    exact hp (t.table.eq_of_key hs hr hps.2 ▸ hps.1)

/-- **The two readers see the same rows** exactly where they do not differ on the row with the
id. -/
theorem readers_agree_iff (services : StoredServices) {ctxt : CellContext κ}
    (hctxt : ctxt.readDeleted ∈ readDeletedValues) (computeId : Nat) (t : ComputeNodeTable) :
    ReadersAgree services ctxt computeId t ↔ SameFilter ctxt.toContext computeId t := by
  by_cases hrow : ∃ r ∈ t.rows, r.id = computeId
  · obtain ⟨r, hr, rfl⟩ := hrow
    have hget := computeNodeGet_fixed ctxt t r.id
    have hmodel := computeNodeGetModel_eq hctxt r.id t
    rw [find?_id hr (visible ctxt.toContext)] at hget
    rw [find?_id hr (fun r => shows ctxt.readDeleted r.deleted)] at hmodel
    have hsame : SameFilter ctxt.toContext r.id t ↔
        (ctxt.readDeleted = "only" → r.deleted ≠ 0) ∧
          (visible ctxt.toContext r = true → Loadable r) :=
      ⟨fun h => h r hr rfl, fun h s hs hid => t.table.eq_of_key hs hr hid ▸ h⟩
    rw [hsame]
    by_cases hvisible : visible ctxt.toContext r = true
    · rw [if_pos hvisible] at hget
      by_cases hshown : shows ctxt.readDeleted r.deleted = true
      · rw [if_pos hshown] at hmodel
        have honly := (shows_iff_visible.mp hshown).2
        constructor
        · intro hagree
          have hfound := (hagree.accepted 0 ⟨none, none, none, none, none, none, none, none⟩).mp
            (computeNodeUpdate_found hmodel _)
          obtain ⟨r', hget', hloadable⟩ := getById_ok_iff.mp hfound
          rw [hget] at hget'
          cases hget'
          exact ⟨honly, fun _ => hloadable⟩
        · rintro ⟨-, hloadable⟩
          refine ⟨Or.inr ⟨r, hr, rfl, hget, hmodel⟩, fun now values => ?_⟩
          exact iff_of_true (computeNodeUpdate_found hmodel _)
            (getById_ok_iff.mpr ⟨r, hget, hloadable hvisible⟩)
      · -- the live row that only the hand-built select shows
        rw [if_neg hshown] at hmodel
        refine iff_of_false ?_ (fun h => hshown (shows_iff_visible.mpr ⟨hvisible, h.1⟩))
        rintro ⟨⟨hget', -⟩ | ⟨_, -, -, -, hmodel'⟩, -⟩
        · rw [hget] at hget'
          cases hget'
        · rw [hmodel] at hmodel'
          cases hmodel'
    · have hshown : ¬ shows ctxt.readDeleted r.deleted = true :=
        fun h => hvisible (visible_of_shows h)
      rw [if_neg hvisible] at hget
      rw [if_neg hshown] at hmodel
      refine iff_of_true (agree_of_missing services hget hmodel)
        ⟨fun honly => absurd ?_ hvisible, fun h => absurd h hvisible⟩
      unfold visible
      rw [honly]
      rfl
  · have hnone : ∀ p : ComputeNodeRow → Bool,
        t.rows.find? (fun r => p r && r.id == computeId) = none := by
      intro p
      rw [List.find?_eq_none]
      intro r hr hp
      exact hrow ⟨r, hr, by simpa using (Bool.and_eq_true_iff.mp hp).2⟩
    have hget := computeNodeGet_fixed ctxt t computeId
    have hmodel := computeNodeGetModel_eq hctxt computeId t
    rw [hnone] at hget hmodel
    exact iff_of_true (agree_of_missing services hget hmodel)
      (fun r hr hid => absurd ⟨r, hr, hid⟩ hrow)

/-- The node of `lab` is live, and both readers find it. -/
theorem readers_agree_lab :
    ReadersAgree labTables.services (⟨adminContext, none⟩ : CellContext String) 1
      labTables.computeNodes.toComputeNodeTable := by
  refine (readers_agree_iff _ (by decide) 1 _).mpr (fun r hr _ => ?_)
  rw [List.mem_singleton.mp hr]
  refine ⟨fun honly => absurd honly (by decide), fun _ => ⟨fun hhost => ?_, fun uuid huuid => ?_⟩⟩
  · exact absurd hhost (by decide)
  · obtain rfl := Option.some.inj huuid
    decide

/-- With `"only"` it is live for one reader and missing for the other. -/
theorem readers_differ_lab :
    ¬ ReadersAgree labTables.services
      (⟨{ adminContext with readDeleted := "only" }, none⟩ : CellContext String) 1
      labTables.computeNodes.toComputeNodeTable := by
  rintro ⟨⟨hget, -⟩ | ⟨_, -, -, -, hmodel⟩, -⟩
  · cases hget
  · cases hmodel

end PolarBear.Compute
