import PolarBear.Db.Query
import PolarBear.Lib.SoftRows
import PolarBear.Lib.Transition

/-!
# Metadata of instances

The users' metadata and the system's are two tables of rows that are deleted softly. The functions
on the first always ask for the live rows; `_instance_system_metadata_get_query` leaves it to the
context which rows there are. In a context that shows deleted rows an update can find a deleted row
of its key, write that one, and add none: the entry is lost.

`metadata_refines_iff` is the exact boundary: a run of updates, deletions and readings does to the
entries what it does to two dictionaries per instance exactly if each system update finds its rows
writable. Where all contexts hide deleted rows every run is such a one.
-/

namespace PolarBear.Instances

open PolarBear.Db
open PolarBear.Transition (Run)
open SoftRows (Functional Merged Consistent)

/-- A dictionary. -/
structure Metadata where
  entries : List (String × String)
  nodup : (Dict.keys entries).Nodup

theorem Metadata.consistent (m : Metadata) : Consistent m.entries :=
  fun _ _ h => Dict.lookup_of_mem m.nodup h

/-- `instance_metadata` and `instance_system_metadata`; the owner is the uuid of an instance. -/
structure MetadataTables where
  metadata : SoftRows String String String
  systemMetadata : SoftRows String String String

/-- What the update of either table does. -/
def updateRows (ctxt : Context) (readDeleted : Option String) (instanceUuid : String)
    (metadata : Metadata) (delete : Bool) (t : SoftRows String String String) :
    Except NovaError (SoftRows String String String) := do
  requireContext ctxt
  let shown ← modelQuery ctxt readDeleted
  pure (t.merge shown instanceUuid metadata.entries delete)

/-- What the reading of either table gives. -/
def readRows (ctxt : Context) (readDeleted : Option String) (instanceUuid : String)
    (t : SoftRows String String String) : Except NovaError (List (String × String)) := do
  requireContext ctxt
  let shown ← modelQuery ctxt readDeleted
  pure (t.toDict shown instanceUuid)

/-- `instance_metadata_get`. -/
def instanceMetadataGet (ctxt : Context) (instanceUuid : String) (s : MetadataTables) :
    Except NovaError (List (String × String)) :=
  readRows ctxt (some "no") instanceUuid s.metadata

/-- `instance_metadata_delete`. -/
def instanceMetadataDelete (ctxt : Context) (instanceUuid key : String) (s : MetadataTables) :
    Except NovaError MetadataTables := do
  requireContext ctxt
  let shown ← modelQuery ctxt (some "no")
  let hit := fun r => SoftRows.belongs shown instanceUuid r && r.key == key
  pure { s with metadata := s.metadata.softDelete hit }

/-- `instance_metadata_update`. -/
def instanceMetadataUpdate (ctxt : Context) (instanceUuid : String) (metadata : Metadata)
    (delete : Bool) (s : MetadataTables) : Except NovaError (Metadata × MetadataTables) := do
  let t ← updateRows ctxt (some "no") instanceUuid metadata delete s.metadata
  pure (metadata, { s with metadata := t })

/-- `instance_system_metadata_get`. -/
def instanceSystemMetadataGet (ctxt : Context) (instanceUuid : String) (s : MetadataTables) :
    Except NovaError (List (String × String)) :=
  readRows ctxt none instanceUuid s.systemMetadata

/-- `instance_system_metadata_update`. -/
def instanceSystemMetadataUpdate (ctxt : Context) (instanceUuid : String) (metadata : Metadata)
    (delete : Bool) (s : MetadataTables) : Except NovaError (Metadata × MetadataTables) := do
  let t ← updateRows ctxt none instanceUuid metadata delete s.systemMetadata
  pure (metadata, { s with systemMetadata := t })

/-! ## Calls -/

inductive MetadataCall where
  | get (instanceUuid : String)
  | delete (instanceUuid key : String)
  | update (instanceUuid : String) (metadata : Metadata) (deleting : Bool)
  | systemGet (instanceUuid : String)
  | systemUpdate (instanceUuid : String) (metadata : Metadata) (deleting : Bool)

/-- The dictionary the call returns, and the tables after it. -/
def MetadataCall.run (ctxt : Context) (c : MetadataCall) (s : MetadataTables) :
    Except NovaError (List (String × String) × MetadataTables) :=
  match c with
  | .get uuid => (instanceMetadataGet ctxt uuid s).map (fun d => (d, s))
  | .delete uuid key => (instanceMetadataDelete ctxt uuid key s).map (fun s' => ([], s'))
  | .update uuid metadata deleting =>
    (instanceMetadataUpdate ctxt uuid metadata deleting s).map (fun r => (r.1.entries, r.2))
  | .systemGet uuid => (instanceSystemMetadataGet ctxt uuid s).map (fun d => (d, s))
  | .systemUpdate uuid metadata deleting =>
    (instanceSystemMetadataUpdate ctxt uuid metadata deleting s).map
      (fun r => (r.1.entries, r.2))

/-- A call, its context, and how it ended. -/
structure MetadataLabel where
  ctxt : Context
  call : MetadataCall
  answer : Except NovaError (List (String × String))

/-- A call that raises leaves the tables as they are. -/
def metadataStep (l : MetadataLabel) (s s' : MetadataTables) : Prop :=
  (∃ d, l.call.run l.ctxt s = .ok (d, s') ∧ l.answer = .ok d) ∨
    ∃ e, l.call.run l.ctxt s = .error e ∧ l.answer = .error e ∧ s' = s

/-! ## Two dictionaries for each instance -/

/-- What the live rows of either table say. -/
structure Entries where
  metadata : String → String → String → Prop
  systemMetadata : String → String → String → Prop

def MetadataTables.entries (s : MetadataTables) : Entries where
  metadata := s.metadata.Holds
  systemMetadata := s.systemMetadata.Holds

/-- A dictionary that says what the entries of an instance are. -/
def Says (d : List (String × String)) (H : String → String → String → Prop)
    (instanceUuid : String) : Prop :=
  ∀ k v, d.lookup k = some v ↔ H instanceUuid k v

/-- What a call that returns `d` does to the dictionaries. A reading of the system's promises
something in a context that hides deleted rows. -/
def MetadataCall.spec (ctxt : Context) (d : List (String × String)) (f f' : Entries) :
    MetadataCall → Prop
  | .get uuid => f' = f ∧ Says d f.metadata uuid
  | .delete uuid key =>
    f'.metadata = (fun o k v => f.metadata o k v ∧ ¬ (o = uuid ∧ k = key)) ∧
      f'.systemMetadata = f.systemMetadata
  | .update uuid metadata deleting =>
    f'.metadata = Merged uuid metadata.entries deleting f.metadata ∧
      f'.systemMetadata = f.systemMetadata ∧ d = metadata.entries
  | .systemGet uuid => f' = f ∧ (ctxt.readDeleted = "no" → Says d f.systemMetadata uuid)
  | .systemUpdate uuid metadata deleting =>
    f'.systemMetadata = Merged uuid metadata.entries deleting f.systemMetadata ∧
      f'.metadata = f.metadata ∧ d = metadata.entries

/-- A call does to the dictionaries what it should; if it raises, nothing. -/
def MetadataLabel.spec (l : MetadataLabel) (f f' : Entries) : Prop :=
  match l.answer with
  | .ok d => l.call.spec l.ctxt d f f'
  | .error _ => f' = f

/-- The system update finds its rows writable. -/
def MetadataLabel.writable (l : MetadataLabel) (s : MetadataTables) : Prop :=
  match l.call with
  | .systemUpdate uuid metadata delete =>
    requireContext l.ctxt = .ok () → ∀ shown, modelQuery l.ctxt none = .ok shown →
      s.systemMetadata.Writable shown uuid metadata.entries delete
  | _ => True

/-- No key has two values. -/
structure Entries.Functional (f : Entries) : Prop where
  metadata : SoftRows.Functional f.metadata
  systemMetadata : SoftRows.Functional f.systemMetadata

/-! ## One call -/

/-- The live rows are those whose `deleted` is `0`. -/
theorem liveOnly (d : Nat) : (d == 0) = true ↔ d = 0 := beq_iff_eq

theorem functional_merged {H : String → String → String → Prop} (h : SoftRows.Functional H)
    (uuid : String) (metadata : Metadata) (delete : Bool) :
    SoftRows.Functional (Merged uuid metadata.entries delete H) := by
  intro o k v w hv hw
  unfold Merged at hv hw
  split at hv
  · next ho =>
    rw [if_pos ho] at hw
    rcases hv with hv | ⟨hnone, -, hv⟩
    · rcases hw with hw | ⟨hnone, -, -⟩
      · exact Option.some.inj (hv.symm.trans hw)
      · rw [hnone] at hv
        cases hv
    · rcases hw with hw | ⟨-, -, hw⟩
      · rw [hnone] at hw
        cases hw
      · exact h o k v w hv hw
  · next ho =>
    rw [if_neg ho] at hw
    exact h o k v w hv hw

/-- The first table is written through the live rows. -/
theorem holds_update (t : SoftRows String String String) (uuid : String) (metadata : Metadata)
    (delete : Bool) : (t.merge (fun deleted => deleted == 0) uuid metadata.entries delete).Holds =
      Merged uuid metadata.entries delete t.Holds := by
  funext o k v
  exact propext ((SoftRows.merge_iff metadata.consistent).mpr
    (SoftRows.writable_of_live liveOnly) o k v)

theorem holds_delete (t : SoftRows String String String) (uuid key : String) :
    (t.softDelete (fun r => SoftRows.belongs (fun deleted => deleted == 0) uuid r &&
      r.key == key)).Holds = fun o k v => t.Holds o k v ∧ ¬ (o = uuid ∧ k = key) := by
  funext o k v
  rw [SoftRows.holds_softDelete]
  have hp : ∀ r : SoftRow String String String, r.deleted = 0 → r.owner = o → r.key = k →
      ((SoftRows.belongs (fun deleted => deleted == 0) uuid r && r.key == key) = false ↔
        ¬ (o = uuid ∧ k = key)) := by
    rintro r hlive rfl rfl
    rw [← Bool.not_eq_true, not_iff_not, Bool.and_eq_true, SoftRows.belongs_iff, liveOnly,
      and_iff_right hlive, beq_iff_eq]
  refine propext ⟨?_, ?_⟩
  · rintro ⟨r, hr, hlive, hfalse, howner, hkey, hvalue⟩
    exact ⟨⟨r, hr, hlive, howner, hkey, hvalue⟩, (hp r hlive howner hkey).mp hfalse⟩
  · rintro ⟨⟨r, hr, hlive, howner, hkey, hvalue⟩, hno⟩
    exact ⟨r, hr, hlive, (hp r hlive howner hkey).mpr hno, howner, hkey, hvalue⟩

/-- A caller without rights is turned away. -/
theorem run_forbidden {ctxt : Context} {e : NovaError} (h : requireContext ctxt = .error e)
    (c : MetadataCall) (s : MetadataTables) : c.run ctxt s = .error e := by
  cases c with
  | get uuid =>
    unfold MetadataCall.run instanceMetadataGet readRows
    rw [h]
    rfl
  | delete uuid key =>
    unfold MetadataCall.run instanceMetadataDelete
    rw [h]
    rfl
  | update uuid metadata deleting =>
    unfold MetadataCall.run instanceMetadataUpdate updateRows
    rw [h]
    rfl
  | systemGet uuid =>
    unfold MetadataCall.run instanceSystemMetadataGet readRows
    rw [h]
    rfl
  | systemUpdate uuid metadata deleting =>
    unfold MetadataCall.run instanceSystemMetadataUpdate updateRows
    rw [h]
    rfl

variable {ctxt : Context}

theorem run_get (h : requireContext ctxt = .ok ()) (uuid : String) (s : MetadataTables) :
    MetadataCall.run ctxt (.get uuid) s =
      .ok (s.metadata.toDict (fun deleted => deleted == 0) uuid, s) := by
  unfold MetadataCall.run instanceMetadataGet readRows
  rw [h]
  rfl

theorem run_delete (h : requireContext ctxt = .ok ()) (uuid key : String) (s : MetadataTables) :
    MetadataCall.run ctxt (.delete uuid key) s = .ok ([], ⟨s.metadata.softDelete (fun r =>
      SoftRows.belongs (fun deleted => deleted == 0) uuid r && r.key == key),
        s.systemMetadata⟩) := by
  unfold MetadataCall.run instanceMetadataDelete
  rw [h]
  rfl

theorem run_update (h : requireContext ctxt = .ok ()) (uuid : String) (metadata : Metadata)
    (deleting : Bool) (s : MetadataTables) :
    MetadataCall.run ctxt (.update uuid metadata deleting) s = .ok (metadata.entries,
      ⟨s.metadata.merge (fun deleted => deleted == 0) uuid metadata.entries deleting,
        s.systemMetadata⟩) := by
  unfold MetadataCall.run instanceMetadataUpdate updateRows
  rw [h]
  rfl

theorem run_systemGet (h : requireContext ctxt = .ok ()) {shown : Nat → Bool}
    (hshown : modelQuery ctxt none = .ok shown) (uuid : String) (s : MetadataTables) :
    MetadataCall.run ctxt (.systemGet uuid) s =
      .ok (s.systemMetadata.toDict shown uuid, s) := by
  unfold MetadataCall.run instanceSystemMetadataGet readRows
  rw [h, hshown]
  rfl

theorem run_systemUpdate (h : requireContext ctxt = .ok ()) {shown : Nat → Bool}
    (hshown : modelQuery ctxt none = .ok shown) (uuid : String) (metadata : Metadata)
    (deleting : Bool) (s : MetadataTables) :
    MetadataCall.run ctxt (.systemUpdate uuid metadata deleting) s = .ok (metadata.entries,
      ⟨s.metadata, s.systemMetadata.merge shown uuid metadata.entries deleting⟩) := by
  unfold MetadataCall.run instanceSystemMetadataUpdate updateRows
  rw [h, hshown]
  rfl

/-- A context with a `read_deleted` that is none is an error of the system's functions. -/
theorem run_unrecognized (h : requireContext ctxt = .ok ()) {e : NovaError}
    (hshown : modelQuery ctxt none = .error e) (uuid : String) (metadata : Metadata)
    (deleting : Bool) (s : MetadataTables) :
    MetadataCall.run ctxt (.systemGet uuid) s = .error e ∧
      MetadataCall.run ctxt (.systemUpdate uuid metadata deleting) s = .error e := by
  unfold MetadataCall.run instanceSystemMetadataGet instanceSystemMetadataUpdate readRows updateRows
  rw [h]
  dsimp only
  rw [hshown]
  exact ⟨rfl, rfl⟩

/-- A call that raises has nothing to write. -/
theorem writable_of_error {c : MetadataCall} {s : MetadataTables} {e : NovaError}
    (hrun : c.run ctxt s = .error e) (answer : Except NovaError (List (String × String))) :
    MetadataLabel.writable ⟨ctxt, c, answer⟩ s := by
  cases c with
  | get uuid => trivial
  | delete uuid key => trivial
  | update uuid metadata deleting => trivial
  | systemGet uuid => trivial
  | systemUpdate uuid metadata deleting =>
    intro hctxt shown hshown
    rw [run_systemUpdate hctxt hshown] at hrun
    cases hrun

theorem writable_systemUpdate_iff {ctxt : Context} {shown : Nat → Bool}
    (hctxt : requireContext ctxt = .ok ()) (hshown : modelQuery ctxt none = .ok shown)
    (uuid : String) (metadata : Metadata) (deleting : Bool)
    (answer : Except NovaError (List (String × String))) (s : MetadataTables) :
    MetadataLabel.writable ⟨ctxt, .systemUpdate uuid metadata deleting, answer⟩ s ↔
      s.systemMetadata.Writable shown uuid metadata.entries deleting := by
  constructor
  · exact fun h => h hctxt shown hshown
  · intro h _ shown' hshown'
    rw [hshown] at hshown'
    cases hshown'
    exact h

/-- **One call** does what it should exactly if it finds its rows writable. -/
theorem spec_iff {l : MetadataLabel} {s s' : MetadataTables} (h : metadataStep l s s')
    (hf : s.entries.Functional) : l.spec s.entries s'.entries ↔ l.writable s := by
  obtain ⟨ctxt, call, answer⟩ := l
  rcases h with ⟨d, hrun, hanswer⟩ | ⟨e, hrun, hanswer, rfl⟩
  · dsimp only at hrun hanswer
    subst hanswer
    cases hctxt : requireContext ctxt with
    | error e =>
      rw [run_forbidden hctxt] at hrun
      cases hrun
    | ok u =>
      cases call with
      | get uuid =>
        rw [run_get hctxt] at hrun
        cases hrun
        exact iff_of_true ⟨rfl, fun k v => SoftRows.lookup_toDict liveOnly hf.metadata⟩ trivial
      | delete uuid key =>
        rw [run_delete hctxt] at hrun
        cases hrun
        exact iff_of_true ⟨holds_delete s.metadata uuid key, rfl⟩ trivial
      | update uuid metadata deleting =>
        rw [run_update hctxt] at hrun
        cases hrun
        exact iff_of_true ⟨holds_update s.metadata uuid metadata deleting, rfl, rfl⟩ trivial
      | systemGet uuid =>
        cases hshown : modelQuery ctxt none with
        | error e =>
          rw [(run_unrecognized hctxt hshown uuid ⟨[], List.nodup_nil⟩ false s).1] at hrun
          cases hrun
        | ok shown =>
          rw [run_systemGet hctxt hshown] at hrun
          cases hrun
          refine iff_of_true ⟨rfl, fun hhide k v => ?_⟩ trivial
          rw [modelQuery_hides hhide] at hshown
          cases hshown
          exact SoftRows.lookup_toDict liveOnly hf.systemMetadata
      | systemUpdate uuid metadata deleting =>
        cases hshown : modelQuery ctxt none with
        | error e =>
          rw [(run_unrecognized hctxt hshown uuid metadata deleting s).2] at hrun
          cases hrun
        | ok shown =>
          rw [run_systemUpdate hctxt hshown] at hrun
          cases hrun
          rw [writable_systemUpdate_iff hctxt hshown,
            ← SoftRows.merge_iff metadata.consistent]
          constructor
          · rintro ⟨hspec, -, -⟩ o k v
            exact iff_of_eq (congrFun (congrFun (congrFun hspec o) k) v)
          · intro hspec
            refine ⟨?_, rfl, rfl⟩
            funext o k v
            exact propext (hspec o k v)
  · dsimp only at hrun hanswer
    subst hanswer
    exact iff_of_true rfl (writable_of_error hrun _)

/-- What a call should do leaves one value for each key. -/
theorem functional_spec {l : MetadataLabel} {f f' : Entries} (h : l.spec f f')
    (hf : f.Functional) : f'.Functional := by
  obtain ⟨ctxt, call, answer⟩ := l
  cases answer with
  | error e =>
    have hsame : f' = f := h
    rw [hsame]
    exact hf
  | ok d =>
    cases call with
    | get uuid =>
      rw [h.1]
      exact hf
    | delete uuid key =>
      refine ⟨?_, by rw [h.2]; exact hf.systemMetadata⟩
      rw [h.1]
      exact fun o k v w hv hw => hf.metadata o k v w hv.1 hw.1
    | update uuid metadata deleting =>
      refine ⟨?_, by rw [h.2.1]; exact hf.systemMetadata⟩
      rw [h.1]
      exact functional_merged hf.metadata uuid metadata deleting
    | systemGet uuid =>
      rw [h.1]
      exact hf
    | systemUpdate uuid metadata deleting =>
      refine ⟨by rw [h.2.1]; exact hf.metadata, ?_⟩
      rw [h.1]
      exact functional_merged hf.systemMetadata uuid metadata deleting

/-- A context that hides deleted rows finds all rows writable. -/
theorem writable_of_hides {l : MetadataLabel} (hhide : l.ctxt.readDeleted = "no")
    (s : MetadataTables) : l.writable s := by
  obtain ⟨ctxt, call, answer⟩ := l
  cases call with
  | get uuid => trivial
  | delete uuid key => trivial
  | update uuid metadata deleting => trivial
  | systemGet uuid => trivial
  | systemUpdate uuid metadata deleting =>
    intro _ shown hshown
    rw [modelQuery_hides hhide] at hshown
    cases hshown
    exact SoftRows.writable_of_live liveOnly

/-- **Metadata.** Take any run of updates, deletions and readings of the two metadata of any
instances, by any contexts. Its calls do to the entries, and return, what they would with two
dictionaries for each instance exactly if each system update finds its rows writable. So do those
of every run whose contexts hide deleted rows. -/
theorem metadata_refines_iff {s s' : MetadataTables} (hf : s.entries.Functional)
    (ls : List MetadataLabel) :
    (Run (fun l s s' => metadataStep l s s' ∧ l.spec s.entries s'.entries) s ls s' ↔
      Run (fun l s s' => metadataStep l s s' ∧ l.writable s) s ls s') ∧
    ((∀ l ∈ ls, l.ctxt.readDeleted = "no") → Run metadataStep s ls s' →
      Run MetadataLabel.spec s.entries ls s'.entries) := by
  constructor
  · exact Run.congr (I := fun s => s.entries.Functional)
      (fun l s s' hf _ hspec => functional_spec hspec hf) (fun l s s' hf hstep => spec_iff hstep hf)
      hf
  · intro hhide hrun
    induction hrun with
    | nil s => exact .nil _
    | @cons s s₁ s' l ls hstep _ ih =>
      obtain ⟨hfirst, hrest⟩ := List.forall_mem_cons.mp hhide
      have hspec := (spec_iff hstep hf).mpr (writable_of_hides hfirst s)
      exact .cons hspec (ih (functional_spec hspec hf) hrest)

/-- An entry that was deleted once. -/
def onceDeleted : MetadataTables where
  metadata := SoftRows.empty
  systemMetadata := (SoftRows.empty.add "i" "image_os" "linux").softDelete (fun _ => true)

/-- The entry is written again, in a context that shows deleted rows, and read. -/
theorem onceDeleted_lost : ∃ s',
    Run metadataStep onceDeleted
      [⟨⟨none, none, true, "yes"⟩, .systemUpdate "i" ⟨[("image_os", "bsd")], by decide⟩ false,
          .ok [("image_os", "bsd")]⟩,
        ⟨adminContext, .systemGet "i", .ok []⟩] s' ∧
    ¬ Run (fun l s s' => metadataStep l s s' ∧ l.spec s.entries s'.entries) onceDeleted
      [⟨⟨none, none, true, "yes"⟩, .systemUpdate "i" ⟨[("image_os", "bsd")], by decide⟩ false,
          .ok [("image_os", "bsd")]⟩,
        ⟨adminContext, .systemGet "i", .ok []⟩] s' := by
  refine ⟨_, .cons (.inl ⟨_, rfl, rfl⟩) (.cons (.inl ⟨_, rfl, rfl⟩) (.nil _)), fun hspec => ?_⟩
  have hnone : ∀ o k v, ¬ onceDeleted.systemMetadata.Holds o k v := by
    rintro o k v ⟨r, hr, hlive, -⟩
    have hdead : ∀ r ∈ onceDeleted.systemMetadata.rows, r.deleted ≠ 0 := by decide
    exact hdead r hr hlive
  have hf : onceDeleted.entries.Functional :=
    ⟨fun o k v w hv => absurd hv (by rintro ⟨r, hr, -⟩; cases hr),
      fun o k v w hv => absurd hv (hnone o k v)⟩
  have hwritable := (metadata_refines_iff hf _).1.mp hspec
  cases hwritable with
  | cons hstep _ =>
    have hshows : onceDeleted.systemMetadata.Shows (fun _ => true) "i" "image_os" := by
      unfold SoftRows.Shows
      decide
    obtain ⟨v, hv⟩ := (hstep.2 rfl _ rfl).inserts "image_os" "bsd" rfl hshows
    exact hnone "i" "image_os" v hv

end PolarBear.Instances
