import PolarBear.Flavors.Lossless
import PolarBear.Flavors.Save

/-!
# What `save` leaves of a modified flavor

A loaded object agrees with its row (`Tracks`), and so it does after any edits, but for
what was edited. `save` then writes the specs and after them the projects; each of its
loops does one write a round, and `eval_foldlM` says what they do together.

What was assigned without a difference is not written and stays marked. The projects of an
object that never loaded them are compared with none, so that those it has are not deleted,
and adding one of them again is refused.
-/

namespace PolarBear.Flavors

open Transactions Db
open Transactions.Prog (transaction reading compute)

/-! ## Writing a row -/

/-- The row with an id is now `r'`, and nothing else has changed. -/
structure Writes (s s' : Databases) (id : Nat) (r' : FlavorRow) : Prop where
  row : s'.api.find? id = some r'
  others : ∀ id', id' ≠ id → s'.api.find? id' = s.api.find? id'
  main : s'.main = s.main

variable {s s' s₁ : Databases} {id : Nat} {r r₁ : FlavorRow} {now : Nat}

theorem Writes.refl (h : s.api.find? id = some r) : Writes s s id r := ⟨h, fun _ _ => rfl, rfl⟩

theorem Writes.trans {r' : FlavorRow} (h : Writes s s₁ id r) (h' : Writes s₁ s' id r') :
    Writes s s' id r' :=
  ⟨h'.row, fun id' hne => (h'.others id' hne).trans (h.others id' hne), h'.main.trans h.main⟩

theorem writes_modify (h : s.api.find? id = some r)
    (specs : List (String × Option String) → List (String × Option String))
    (projects : List String → List String) :
    Writes s (s.modify id specs projects) id
      { r with extraSpecs := specs r.extraSpecs, projects := projects r.projects } := by
  have hfind : ∀ id', (s.modify id specs projects).api.find? id' =
      (s.api.find? id').map (fun r =>
        if r.id == id then
          { r with extraSpecs := specs r.extraSpecs, projects := projects r.projects }
        else r) := by
    intro id'
    show List.find? _ (List.map _ _) = _
    rw [List.find?_map]
    refine congrArg (Option.map _) (congrFun (congrArg List.find? (funext fun t => ?_)) _)
    dsimp only [Function.comp_apply]
    split <;> rfl
  have hid : ∀ {id' : Nat} {t : FlavorRow}, s.api.find? id' = some t → t.id = id' :=
    fun ht => beq_iff_eq.mp (List.find?_some (p := fun t : FlavorRow => t.id == _) ht)
  refine ⟨?_, fun id' hne => ?_, rfl⟩
  · rw [hfind, h, Option.map_some, if_pos (beq_iff_eq.mpr (hid h))]
  · rw [hfind]
    cases ht : s.api.find? id' with
    | none => rfl
    | some t =>
      rw [Option.map_some, if_neg]
      exact fun heq => hne ((hid ht).symm.trans (beq_iff_eq.mp heq))

theorem eval_flavorAddProject (h : s.api.find? id = some r) (projectId : String) :
    (flavorAddProject id projectId).eval now s =
      if projectId ∈ r.projects then (.error (.flavorAccessExists id projectId), s)
      else (.ok (), s.modify id (fun rows => rows) (fun projects => projects ++ [projectId])) := by
  unfold flavorAddProject
  rw [eval_transaction, h]
  by_cases hmem : projectId ∈ r.projects
  · simp only [if_pos hmem]
  · simp only [if_neg hmem]

theorem eval_flavorDelProject (h : s.api.find? id = some r) {projectId : String}
    (hmem : projectId ∈ r.projects) :
    (flavorDelProject id projectId).eval now s = (.ok (), s.modify id (fun rows => rows)
      (fun projects => projects.filter (fun p => p != projectId))) := by
  unfold flavorDelProject
  rw [eval_transaction, h]
  dsimp only
  rw [if_pos hmem]

theorem eval_flavorExtraSpecsAdd (h : s.api.find? id = some r) (specs : List (String × String)) :
    (flavorExtraSpecsAdd id specs).eval now s =
      (.ok (), s.modify id (withSpecs specs) (fun projects => projects)) := by
  unfold flavorExtraSpecsAdd
  rw [eval_transaction, h]

theorem eval_flavorExtraSpecsDel (h : s.api.find? id = some r) {key : String}
    (hmem : key ∈ Dict.keys r.extraSpecs) :
    (flavorExtraSpecsDel id key).eval now s = (.ok (), s.modify id
      (fun rows => rows.filter (fun kv => kv.1 != key)) (fun projects => projects)) := by
  unfold flavorExtraSpecsDel
  rw [eval_transaction, h]
  dsimp only
  rw [if_pos hmem]

/-! ## The loops -/

section

variable {o o' : FlavorObject} {main : MainAccess} {order : List String → List String}

/-- `in_api` holds: it is remembered, or the row is shown to the context. -/
def Ready (s : Databases) (o : FlavorObject) : Prop :=
  o.inApi = true ∨ requireContext o.context = .ok () ∧
    ∃ t ∈ flavorGetQueryFromDb o.context s.api, t.id = o.flavor.id

theorem eval_checkInApi (h : Ready s o) :
    o.checkInApi.eval now s = (.ok { o with inApi := true }, s) := by
  unfold FlavorObject.checkInApi
  by_cases hin : o.inApi = true
  · rw [if_pos hin, eval_pure, ← hin]
  · obtain ⟨hcontext, t, ht, hid⟩ := h.resolve_left hin
    have hget : ∃ f, (flavorGetFromDb o.context o.flavor.id).eval now s = (.ok f, s) := by
      unfold flavorGetFromDb
      rw [eval_bind, eval_compute, hcontext]
      dsimp only
      rw [eval_reading]
      cases hfind : (flavorGetQueryFromDb o.context s.api).find? (fun r => r.id == o.flavor.id) with
      | none => exact absurd (beq_iff_eq.mpr hid) (List.find?_eq_none.mp hfind t ht)
      | some r => exact ⟨_, rfl⟩
    obtain ⟨f, hf⟩ := hget
    rw [if_neg hin, eval_tryCatch, eval_bind_ok now hf]
    rfl

variable (s now) in
/-- Without a context that may ask, it raises. -/
theorem eval_checkInApi_error (hin : o.inApi = false) {e : NovaError}
    (hcontext : requireContext o.context = .error e) :
    ∃ e', o.checkInApi.eval now s = (.error e', s) := by
  have he : e = .forbidden := by
    unfold requireContext at hcontext
    split at hcontext
    · exact (Except.error.inj hcontext).symm
    · cases hcontext
  subst he
  refine ⟨.forbidden, ?_⟩
  unfold FlavorObject.checkInApi flavorGetFromDb
  rw [if_neg (by rw [hin]; exact Bool.false_ne_true), eval_tryCatch]
  simp only [eval_bind, eval_compute, hcontext]
  rfl

variable (now main) in
/-- One grant. -/
theorem eval_addAccess (h : Ready s o) (hr : s.api.find? o.flavor.id = some r)
    (projectId : String) :
    (o.addAccess main projectId).eval now s =
      if projectId ∈ r.projects then
        (.error (.flavorAccessExists o.flavor.id projectId), s)
      else (.ok { o with inApi := true },
        s.modify o.flavor.id (fun rows => rows) (fun projects => projects ++ [projectId])) := by
  unfold FlavorObject.addAccess
  rw [eval_bind_ok now (eval_checkInApi h)]
  dsimp only
  rw [if_pos rfl, eval_bind, eval_flavorAddProject hr]
  by_cases hmem : projectId ∈ r.projects
  · simp only [if_pos hmem]
  · simp only [if_neg hmem, eval_pure]

theorem eval_removeAccess (h : Ready s o) (hr : s.api.find? o.flavor.id = some r)
    {projectId : String} (hmem : projectId ∈ r.projects) :
    (o.removeAccess main projectId).eval now s = (.ok { o with inApi := true },
      s.modify o.flavor.id (fun rows => rows)
        (fun projects => projects.filter (fun p => p != projectId))) := by
  unfold FlavorObject.removeAccess
  rw [eval_bind_ok now (eval_checkInApi h)]
  dsimp only
  rw [if_pos rfl, eval_bind_ok now (eval_flavorDelProject hr hmem), eval_pure]

theorem eval_deleteSpec (hin : o.inApi = true) (hr : s.api.find? o.flavor.id = some r)
    {key : String} (hmem : key ∈ Dict.keys r.extraSpecs) :
    (o.deleteSpec main key).eval now s = (.ok (), s.modify o.flavor.id
      (fun rows => rows.filter (fun kv => kv.1 != key)) (fun projects => projects)) := by
  unfold FlavorObject.deleteSpec
  rw [if_pos hin]
  exact eval_flavorExtraSpecsDel hr hmem

/-- In the loop that adds: what was done, and what is still to do. -/
structure AddedTo (s : Databases) (o : FlavorObject) (r : FlavorRow) (ids rest : List String)
    (o' : FlavorObject) (s' : Databases) : Prop where
  object : ∃ inApi, o' = { o with inApi := inApi }
  ready : Ready s' o'
  added : ∃ done, done ++ rest = ids ∧
    Writes s s' o.flavor.id { r with projects := r.projects ++ done }

variable (now main) in
/-- Projects that are not there yet are added. -/
theorem eval_addLoop (h : Ready s o) (hr : s.api.find? o.flavor.id = some r) {ids : List String}
    (hnodup : ids.Nodup) (hnew : ∀ p ∈ ids, p ∉ r.projects) :
    ∃ o' s', (ids.foldlM (FlavorObject.addAccess main) o).eval now s = (.ok o', s') ∧
      (∃ inApi, o' = { o with inApi := inApi }) ∧ Ready s' o' ∧
      Writes s s' o.flavor.id { r with projects := r.projects ++ ids } := by
  have hloop := eval_foldlM now (f := FlavorObject.addAccess main)
    (I := AddedTo s o r ids) ?_ ids o s
    ⟨⟨o.inApi, rfl⟩, h, [], rfl, by rw [List.append_nil]; exact Writes.refl hr⟩
  · obtain ⟨o', s', heval, hobject, hready, done, hdone, hwrites⟩ := hloop
    rw [List.append_nil] at hdone
    exact ⟨o', s', heval, hobject, hready, hdone ▸ hwrites⟩
  · intro p rest o₁ s₁ hI
    obtain ⟨⟨inApi, hobject⟩, hready, done, hdone, hwrites⟩ := hI
    subst hobject
    have hp : p ∉ r.projects ++ done := by
      rw [List.mem_append, not_or]
      refine ⟨hnew p (hdone ▸ List.mem_append_right _ List.mem_cons_self), fun hin => ?_⟩
      rw [← hdone, List.nodup_append] at hnodup
      exact hnodup.2.2 p hin p List.mem_cons_self rfl
    refine ⟨_, _, (eval_addAccess now main hready hwrites.row p).trans (if_neg hp), ⟨true, rfl⟩,
      .inl rfl, done ++ [p], ?_, ?_⟩
    · rw [List.append_assoc, List.singleton_append, hdone]
    · have hstep := writes_modify hwrites.row (fun rows => rows) (fun projects => projects ++ [p])
      rw [← List.append_assoc]
      exact hwrites.trans hstep

variable (now main) in
/-- A project that is there already ends the loop. -/
theorem eval_addLoop_error :
    ∀ {ids : List String} {o : FlavorObject} {s : Databases} {r : FlavorRow}, Ready s o →
      s.api.find? o.flavor.id = some r → (∃ p ∈ ids, p ∈ r.projects) →
      ∃ e s', (ids.foldlM (FlavorObject.addAccess main) o).eval now s = (.error e, s')
  | [], _, _, _, _, _, h => absurd h.choose_spec.1 List.not_mem_nil
  | p :: ids, o, s, r, hready, hr, h => by
    rw [List.foldlM_cons]
    by_cases hp : p ∈ r.projects
    · have heval := (eval_addAccess now main hready hr p).trans (if_pos hp)
      exact ⟨_, _, eval_bind_error now heval _⟩
    · have heval := (eval_addAccess now main hready hr p).trans (if_neg hp)
      have hwrites := writes_modify hr (fun rows => rows) (fun projects => projects ++ [p])
      obtain ⟨q, hq, hthere⟩ := h
      have hrest : q ∈ ids := (List.mem_cons.mp hq).resolve_left (fun heq => hp (heq ▸ hthere))
      rw [eval_bind_ok now heval]
      exact eval_addLoop_error (.inl rfl) hwrites.row
        ⟨q, hrest, List.mem_append_left _ hthere⟩

variable (now main) in
/-- Projects that are there are taken away. -/
theorem eval_removeLoop (h : Ready s o) (hr : s.api.find? o.flavor.id = some r)
    {ids : List String} (hnodup : ids.Nodup) (hold : ∀ p ∈ ids, p ∈ r.projects) :
    ∃ o' s', (ids.foldlM (FlavorObject.removeAccess main) o).eval now s = (.ok o', s') ∧
      (∃ inApi, o' = { o with inApi := inApi }) ∧
      ∃ projects, Writes s s' o.flavor.id { r with projects := projects } ∧
        ∀ p, p ∈ projects ↔ p ∈ r.projects ∧ p ∉ ids := by
  have hloop := eval_foldlM now (f := FlavorObject.removeAccess main)
    (I := fun rest o' s' => (∃ inApi, o' = { o with inApi := inApi }) ∧ Ready s' o' ∧
      rest.Nodup ∧ ∃ projects, Writes s s' o.flavor.id { r with projects := projects } ∧
        (∀ p ∈ rest, p ∈ projects) ∧
        ∀ p, (p ∈ projects ∧ p ∉ rest) ↔ (p ∈ r.projects ∧ p ∉ ids)) ?_ ids o s
    ⟨⟨o.inApi, rfl⟩, h, hnodup, r.projects, Writes.refl hr, hold, fun _ => Iff.rfl⟩
  · obtain ⟨o', s', heval, hobject, -, -, projects, hwrites, -, hprojects⟩ := hloop
    refine ⟨o', s', heval, hobject, projects, hwrites, fun p => ?_⟩
    rw [← hprojects p]
    exact (and_iff_left List.not_mem_nil).symm
  · intro p rest o₁ s₁ hI
    obtain ⟨⟨inApi, hobject⟩, hready, hrest, projects, hwrites, hthere, hprojects⟩ := hI
    subst hobject
    rw [List.nodup_cons] at hrest
    have hstep := writes_modify hwrites.row (fun rows => rows)
      (fun projects => projects.filter (fun q => q != p))
    refine ⟨_, _, eval_removeAccess hready hwrites.row (hthere p List.mem_cons_self), ⟨true, rfl⟩,
      .inl rfl, hrest.2, _, hwrites.trans hstep, fun q hq => ?_, fun q => ?_⟩
    · exact List.mem_filter.mpr ⟨hthere q (List.mem_cons_of_mem _ hq),
        bne_iff_ne.mpr (fun heq => hrest.1 (heq ▸ hq))⟩
    · rw [← hprojects q, List.mem_filter, bne_iff_ne, List.mem_cons, not_or, and_assoc]

variable (now main) in
/-- Specs that are there are deleted. -/
theorem eval_deleteLoop (hin : o.inApi = true) (hr : s.api.find? o.flavor.id = some r)
    {keys : List String} (hnodup : keys.Nodup) (hold : ∀ k ∈ keys, k ∈ Dict.keys r.extraSpecs) :
    ∃ s', (keys.foldlM (fun _ key => o.deleteSpec main key) ()).eval now s = (.ok (), s') ∧
      ∃ rows, Writes s s' o.flavor.id { r with extraSpecs := rows } ∧
        ∀ kv, kv ∈ rows ↔ kv ∈ r.extraSpecs ∧ kv.1 ∉ keys := by
  have hloop := eval_foldlM now (f := fun (_ : Unit) key => o.deleteSpec main key)
    (I := fun rest _ s' => rest.Nodup ∧ ∃ rows,
      Writes s s' o.flavor.id { r with extraSpecs := rows } ∧ (∀ k ∈ rest, k ∈ Dict.keys rows) ∧
      ∀ kv, (kv ∈ rows ∧ kv.1 ∉ rest) ↔ (kv ∈ r.extraSpecs ∧ kv.1 ∉ keys)) ?_ keys () s
    ⟨hnodup, r.extraSpecs, Writes.refl hr, hold, fun _ => Iff.rfl⟩
  · obtain ⟨_, s', heval, -, rows, hwrites, -, hspecs⟩ := hloop
    refine ⟨s', heval, rows, hwrites, fun kv => ?_⟩
    rw [← hspecs kv]
    exact (and_iff_left List.not_mem_nil).symm
  · intro k rest _ s₁ hI
    obtain ⟨hrest, rows, hwrites, hthere, hspecs⟩ := hI
    rw [List.nodup_cons] at hrest
    have hstep := writes_modify hwrites.row
      (fun rows => rows.filter (fun kv => kv.1 != k)) (fun projects => projects)
    refine ⟨_, _, eval_deleteSpec hin hwrites.row (hthere k List.mem_cons_self), hrest.2, _,
      hwrites.trans hstep, fun q hq => ?_, fun kv => ?_⟩
    · obtain ⟨kv, hkv, rfl⟩ := List.mem_map.mp (hthere q (List.mem_cons_of_mem _ hq))
      exact List.mem_map_of_mem (List.mem_filter.mpr ⟨hkv,
        bne_iff_ne.mpr (fun heq => hrest.1 (heq ▸ hq))⟩)
    · rw [← hspecs kv, List.mem_filter, bne_iff_ne, List.mem_cons, not_or, and_assoc]

end

/-! ## Edits -/

/-- A dictionary of strings. -/
structure Specs where
  entries : List (String × String)
  nodup : (Dict.keys entries).Nodup

/-- What is done to an object before it is saved: the specs are modified in place or
assigned, and so are the projects. -/
inductive Edit where
  | readProjects
  | modifyExtraSpecs (specs : Specs)
  | assignExtraSpecs (specs : Specs)
  | modifyProjects (projects : List String)
  | assignProjects (projects : List String)

def FlavorObject.withExtraSpecs (o : FlavorObject) (specs : Specs) : FlavorObject :=
  { o with flavor := { o.flavor with extraSpecs := specs.entries } }

def FlavorObject.withProjects (o : FlavorObject) (projects : List String) : FlavorObject :=
  { o with projects := some projects }

/-- The setter of a field. -/
def FlavorObject.mark (o : FlavorObject) (field : String) : FlavorObject :=
  { o with changedFields := field :: o.changedFields }

def Edit.perform (o : FlavorObject) : Edit → FlavorProg FlavorObject
  | .readProjects => do
    let (_, o) ← o.getProjects
    pure o
  | .modifyExtraSpecs specs => pure (o.withExtraSpecs specs)
  | .assignExtraSpecs specs => pure ((o.withExtraSpecs specs).mark "extra_specs")
  | .modifyProjects projects => do
    let (_, o) ← o.getProjects
    pure (o.withProjects projects)
  | .assignProjects projects => pure ((o.withProjects projects).mark "projects")

/-- A flavor of the API database that a context was shown. -/
structure Loaded (ctxt : Context) (s : Databases) (r : FlavorRow) (flavor : Flavor) : Prop where
  shown : r ∈ flavorGetQueryFromDb ctxt s.api
  object : (r.dictWithExtraSpecs none).fromDbObject = .ok flavor

/-- What an object keeps track of agrees with its row, but for edits. -/
structure Tracks (ctxt : Context) (r : FlavorRow) (o : FlavorObject) : Prop where
  context : o.context = ctxt
  inApi : o.inApi = false
  id : o.flavor.id = r.id
  flavorid : o.flavor.flavorid = r.flavorid
  nodup : (Dict.keys o.flavor.extraSpecs).Nodup
  specs : Dict.update [] r.extraSpecs = nullable o.origExtraSpecs
  fields : ∀ f ∈ o.changedFields, f = "projects" ∨ f = "extra_specs"
  assigned : "projects" ∈ o.changedFields → o.projects ≠ none
  unloaded : o.projects = none → o.origProjects = []
  projects : ∀ projects, o.projects = some projects →
    o.origProjects = r.projects ∨ o.origProjects = [] ∧ "projects" ∈ o.changedFields

section

variable {ctxt : Context} {flavor : Flavor} {o : FlavorObject}

theorem keys_nullable (d : List (String × String)) : Dict.keys (nullable d) = Dict.keys d :=
  List.map_map

theorem tracks_ofFlavor (h : Loaded ctxt s r flavor) :
    Tracks ctxt r (FlavorObject.ofFlavor ctxt flavor) := by
  obtain ⟨hid, -, hflavorid⟩ := fromDbObject_ids h.object
  obtain ⟨_, -, hobject⟩ := Fallible.bind_ok_iff.mp h.object
  obtain ⟨_, -, hobject⟩ := Fallible.bind_ok_iff.mp hobject
  obtain ⟨specs, hspecs, hobject⟩ := Fallible.bind_ok_iff.mp hobject
  have hupdate : Dict.update [] r.extraSpecs = nullable flavor.extraSpecs := by
    cases hobject
    exact dictOfStrings_ok.mp hspecs
  refine ⟨rfl, rfl, hid, hflavorid, ?_, hupdate, fun f hf => absurd hf List.not_mem_nil,
    fun hf => absurd hf List.not_mem_nil, fun _ => rfl, fun projects hp => ?_⟩
  · show (Dict.keys flavor.extraSpecs).Nodup
    rw [← keys_nullable, ← hupdate]
    exact Dict.nodup_keys_update List.nodup_nil
  · cases hp

theorem eval_loadProjects (hr : r ∈ s.api.rows) (hflavorid : o.flavor.flavorid = r.flavorid) :
    o.loadProjects.eval now s =
      (.ok ((o.withProjects r.projects).objResetChanges ["projects"]), s) := by
  have hfind := find_of_nodup s.api.uniqFlavorid hr
  have hread : (getProjectsFromDb o.flavor.flavorid).eval now s = (.ok r.projects, s) := by
    unfold getProjectsFromDb
    rw [eval_reading, hflavorid, hfind]
  have hload : (loadProjects o.flavor.flavorid).eval now s = (.ok r.projects, s) := by
    unfold loadProjects
    rw [eval_tryCatch, hread]
  unfold FlavorObject.loadProjects
  rw [eval_bind_ok now hload]
  rfl

variable (now) in
/-- Reading the projects. -/
theorem Tracks.getProjects (h : Tracks ctxt r o) (hr : r ∈ s.api.rows) :
    ∃ projects o', o.getProjects.eval now s = (.ok (projects, o'), s) ∧ Tracks ctxt r o' ∧
      o'.projects = some projects := by
  cases hp : o.projects with
  | some projects =>
    unfold FlavorObject.getProjects
    rw [hp]
    exact ⟨projects, o, rfl, h, hp⟩
  | none =>
    unfold FlavorObject.getProjects
    rw [hp]
    dsimp only
    rw [eval_bind_ok now (eval_loadProjects hr h.flavorid)]
    refine ⟨_, _, rfl, ⟨h.context, h.inApi, h.id, h.flavorid, h.nodup, h.specs, fun f hf => ?_,
      fun _ => Option.some_ne_none _, fun hnone => absurd hnone (Option.some_ne_none _),
      fun _ _ => .inl rfl⟩, rfl⟩
    exact h.fields f (List.mem_filter.mp hf).1

variable (now) in
/-- An edit. -/
theorem Tracks.perform (h : Tracks ctxt r o) (hr : r ∈ s.api.rows) (edit : Edit) :
    ∃ o', (edit.perform o).eval now s = (.ok o', s) ∧ Tracks ctxt r o' := by
  cases edit with
  | readProjects =>
    obtain ⟨projects, o', heval, htracks, -⟩ := h.getProjects now hr
    exact ⟨o', eval_bind_ok now heval _, htracks⟩
  | modifyExtraSpecs specs =>
    exact ⟨_, rfl, { h with nodup := specs.nodup }⟩
  | assignExtraSpecs specs =>
    refine ⟨_, rfl, { h with nodup := specs.nodup, fields := ?_, assigned := ?_, projects := ?_ }⟩
    · exact List.forall_mem_cons.mpr ⟨.inr rfl, h.fields⟩
    · intro hf
      exact h.assigned ((List.mem_cons.mp hf).resolve_left (by decide))
    · intro projects hp
      exact (h.projects projects hp).imp_right (fun hnone =>
        ⟨hnone.1, List.mem_cons_of_mem _ hnone.2⟩)
  | modifyProjects projects =>
    obtain ⟨loaded, o', heval, htracks, hloaded⟩ := h.getProjects now hr
    refine ⟨o'.withProjects projects, eval_bind_ok now heval _,
      { htracks with
        assigned := fun _ => Option.some_ne_none _
        unloaded := fun hnone => absurd hnone (Option.some_ne_none _)
        projects := ?_ }⟩
    exact fun _ _ => htracks.projects loaded hloaded
  | assignProjects projects =>
    refine ⟨_, rfl, { h with
      fields := List.forall_mem_cons.mpr ⟨.inl rfl, h.fields⟩
      assigned := fun _ => Option.some_ne_none _
      unloaded := fun hnone => absurd hnone (Option.some_ne_none _)
      projects := fun _ _ => ?_ }⟩
    cases hp : o.projects with
    | some before =>
      exact (h.projects before hp).imp_right (fun hnone => ⟨hnone.1, List.mem_cons_self⟩)
    | none => exact .inr ⟨h.unloaded hp, List.mem_cons_self⟩

variable (now) in
/-- Any edits. -/
theorem eval_edits (h : Loaded ctxt s r flavor) (edits : List Edit) :
    ∃ o, (edits.foldlM Edit.perform (FlavorObject.ofFlavor ctxt flavor)).eval now s = (.ok o, s) ∧
      Tracks ctxt r o := by
  have hr : r ∈ s.api.rows := List.mem_of_mem_filter h.shown
  have hloop := eval_foldlM now (f := Edit.perform)
    (I := fun _ o s' => s' = s ∧ Tracks ctxt r o) ?_ edits (FlavorObject.ofFlavor ctxt flavor) s
    ⟨rfl, tracks_ofFlavor h⟩
  · obtain ⟨o, s', heval, hs, htracks⟩ := hloop
    subst hs
    exact ⟨o, heval, htracks⟩
  · intro edit rest o s' hI
    obtain ⟨hs, htracks⟩ := hI
    subst hs
    obtain ⟨o', heval, htracks'⟩ := htracks.perform now hr edit
    exact ⟨o', _, heval, rfl, htracks'⟩

end

/-! ## What `save` writes -/

section

variable {ctxt : Context} {o o₁ : FlavorObject} {main : MainAccess}
  {order : List String → List String}

theorem mem_setDifference {xs ys : List String} {x : String} :
    x ∈ setDifference xs ys ↔ x ∈ xs ∧ x ∉ ys := by
  unfold setDifference
  rw [List.mem_dedup, List.mem_filter, decide_eq_true_iff]

theorem mem_order (horder : ∀ xs, (order xs).Perm xs) {xs : List String} {x : String} :
    x ∈ order xs ↔ x ∈ xs := (horder xs).mem_iff

theorem nodup_order (horder : ∀ xs, (order xs).Perm xs) (xs ys : List String) :
    (order (setDifference xs ys)).Nodup := (horder _).nodup_iff.mpr (List.nodup_dedup _)

/-- The rows read as the dictionary. -/
def Stores (rows : List (String × Option String)) (specs : List (String × String)) : Prop :=
  ∀ key, (Dict.update [] rows).lookup key = (specs.lookup key).map some

theorem mem_keys_withSpecs {specs : List (String × String)}
    (rows : List (String × Option String)) {key : String}
    (h : key ∈ Dict.keys rows ∨ key ∈ Dict.keys specs) :
    key ∈ Dict.keys (withSpecs specs rows) := by
  have hupdated : ∀ ref, (updateSpec specs ref).1 = ref.1 := by
    intro ref
    unfold updateSpec
    split <;> rfl
  unfold withSpecs Dict.keys
  rw [List.map_append, List.mem_append]
  by_cases hrows : key ∈ Dict.keys rows
  · obtain ⟨ref, href, hkey⟩ := List.mem_map.mp hrows
    exact .inl (List.mem_map.mpr ⟨updateSpec specs ref, List.mem_map_of_mem href,
      (hupdated ref).trans hkey⟩)
  · obtain ⟨kv, hkv, hkey⟩ := List.mem_map.mp (h.resolve_left hrows)
    refine .inr (List.mem_map.mpr ⟨(kv.1, some kv.2), List.mem_map.mpr ⟨kv, ?_, rfl⟩, hkey⟩)
    exact List.mem_filter.mpr ⟨hkv, decide_eq_true (hkey ▸ hrows)⟩

/-- What is added, less what is deleted, is the dictionary. -/
theorem stores_written {specs : List (String × String)} (hspecs : (Dict.keys specs).Nodup)
    {rows rows' : List (String × Option String)} {deleted : List String}
    (hdeleted : ∀ k, k ∈ deleted ↔ k ∈ Dict.keys rows ∧ k ∉ Dict.keys specs)
    (hrows' : ∀ kv, kv ∈ rows' ↔ kv ∈ withSpecs specs rows ∧ kv.1 ∉ deleted) :
    Stores rows' specs := by
  refine fun key => Dict.lookup_update_nil (f := fun k => (specs.lookup k).map some) ?_ ?_ key
  · intro kv hkv
    obtain ⟨hwith, hkept⟩ := (hrows' kv).mp hkv
    rcases List.mem_append.mp hwith with hold | hnew
    · obtain ⟨ref, href, hupdated⟩ := List.mem_map.mp hold
      unfold updateSpec at hupdated
      cases hlookup : specs.lookup ref.1 with
      | some value =>
        rw [hlookup] at hupdated
        rw [← hupdated, hlookup, Option.map_some]
      | none =>
        -- a row that is not updated is deleted
        rw [hlookup] at hupdated
        have hkv' : ref = kv := hupdated
        rw [hkv'] at href hlookup
        have hnot : kv.1 ∉ Dict.keys specs := by
          intro hmem
          obtain ⟨v, hv⟩ := (Dict.mem_keys_iff _ _).mp hmem
          rw [hlookup] at hv
          cases hv
        exact absurd ((hdeleted kv.1).mpr ⟨List.mem_map_of_mem href, hnot⟩) hkept
    · obtain ⟨entry, hentry, heq⟩ := List.mem_map.mp hnew
      rw [← heq]
      dsimp only
      rw [Dict.lookup_of_mem hspecs (List.mem_of_mem_filter hentry), Option.map_some]
  · intro k v hk
    have hmem : k ∈ Dict.keys specs := by
      obtain ⟨value, hvalue, -⟩ := Option.map_eq_some_iff.mp hk
      exact (Dict.mem_keys_iff _ _).mpr ⟨value, hvalue⟩
    obtain ⟨kv, hkv, rfl⟩ := List.mem_map.mp (mem_keys_withSpecs rows (.inr hmem))
    exact List.mem_map_of_mem ((hrows' kv).mpr ⟨hkv, fun hdel => ((hdeleted _).mp hdel).2 hmem⟩)

theorem mem_keys_update_nil {rows : List (String × Option String)} {key : String} :
    key ∈ Dict.keys (Dict.update [] rows) ↔ key ∈ Dict.keys rows := by
  refine ⟨fun h => ?_, Dict.mem_keys_update⟩
  obtain ⟨kv, hkv, rfl⟩ := List.mem_map.mp h
  exact List.mem_map_of_mem ((Dict.mem_update hkv).resolve_left List.not_mem_nil)

theorem Tracks.keys (h : Tracks ctxt r o) {key : String} :
    key ∈ Dict.keys o.origExtraSpecs ↔ key ∈ Dict.keys r.extraSpecs := by
  rw [← mem_keys_update_nil, h.specs, keys_nullable]

/-- Equal dictionaries read alike. -/
theorem sameDict_iff {d e : List (String × String)} :
    sameDict d e = true ↔ ∀ key, d.lookup key = e.lookup key := by
  unfold sameDict
  rw [List.all_eq_true]
  refine ⟨fun h key => ?_, fun h key _ => beq_iff_eq.mpr (h key)⟩
  by_cases hkey : key ∈ Dict.keys d ++ Dict.keys e
  · exact beq_iff_eq.mp (h key hkey)
  · rw [List.mem_append, not_or] at hkey
    have hnone : ∀ {d : List (String × String)}, key ∉ Dict.keys d → d.lookup key = none := by
      intro d hd
      cases hlookup : d.lookup key with
      | none => rfl
      | some v => exact absurd ((Dict.mem_keys_iff key d).mpr ⟨v, hlookup⟩) hd
    rw [hnone hkey.1, hnone hkey.2]

/-- Specs that have not changed are stored. -/
theorem Tracks.stores (h : Tracks ctxt r o)
    (hsame : sameDict o.flavor.extraSpecs o.origExtraSpecs) :
    Stores r.extraSpecs o.flavor.extraSpecs := by
  intro key
  rw [h.specs, sameDict_iff.mp hsame key]
  unfold nullable
  induction o.origExtraSpecs with
  | nil => rfl
  | cons kv d ih =>
    rw [List.map_cons]
    by_cases hkv : kv.1 = key
    · rw [← hkv, List.lookup_cons_self, List.lookup_cons_self, Option.map_some]
    · rw [Dict.lookup_cons_ne hkv, Dict.lookup_cons_ne hkv, ih]

/-- What `obj_what_changed` lists. -/
theorem mem_objWhatChanged {f : String} : f ∈ o.objWhatChanged ↔
    f ∈ o.changedFields ∨
      f = "extra_specs" ∧ sameDict o.flavor.extraSpecs o.origExtraSpecs = false ∨
      f = "projects" ∧ ∃ projects, o.projects = some projects ∧ projects ≠ o.origProjects := by
  unfold FlavorObject.objWhatChanged
  rw [List.mem_append, List.mem_append, or_assoc]
  refine or_congr Iff.rfl (or_congr ?_ ?_)
  · cases sameDict o.flavor.extraSpecs o.origExtraSpecs <;> simp
  · cases o.projects with
    | none => simp
    | some projects =>
      dsimp only
      split
      · next heq => simp [heq]
      · next hne => simp [hne]

/-- The first part of `save`: the specs are stored and no longer differ; the mark is left
where there was nothing to write. -/
structure SpecsSaved (s : Databases) (r : FlavorRow) (o o₁ : FlavorObject) (s₁ : Databases)
    (rows : List (String × Option String)) : Prop where
  flavor : o₁.flavor = o.flavor
  projects : o₁.projects = o.projects
  origProjects : o₁.origProjects = o.origProjects
  ready : Ready s₁ o₁
  writes : Writes s s₁ o.flavor.id { r with extraSpecs := rows }
  stores : Stores rows o.flavor.extraSpecs
  same : sameDict o₁.flavor.extraSpecs o₁.origExtraSpecs = true
  marks : ∀ f, f ∈ o₁.changedFields ↔ f ∈ o.changedFields ∧
    (f = "extra_specs" → o.flavor.extraSpecs = [] ∧ r.extraSpecs = [])

theorem find?_of_shown (h : Tracks ctxt r o) (hshown : r ∈ flavorGetQueryFromDb ctxt s.api) :
    s.api.find? o.flavor.id = some r := by
  rw [h.id]
  exact find_of_nodup s.api.uniqId (List.mem_of_mem_filter hshown)

theorem ready_of_shown (h : Tracks ctxt r o) (hshown : r ∈ flavorGetQueryFromDb ctxt s.api)
    (hcontext : requireContext ctxt = .ok ()) : Ready s o := by
  refine .inr ⟨h.context.symm ▸ hcontext, r, ?_, h.id.symm⟩
  rw [h.context]
  exact hshown

/-- Nothing is to be written when there is no spec, now or before. -/
theorem Tracks.noKeys_iff (h : Tracks ctxt r o) (hchanged : "extra_specs" ∈ o.objWhatChanged) :
    ¬ (o.addedKeys ≠ [] ∨ o.deletedKeys ≠ []) ↔ o.flavor.extraSpecs = [] ∧ r.extraSpecs = [] := by
  unfold FlavorObject.addedKeys FlavorObject.deletedKeys
  rw [if_pos hchanged, if_pos hchanged, not_or, not_not, not_not]
  refine and_congr_right (fun hempty => ?_)
  rw [hempty, List.eq_nil_iff_forall_not_mem, List.eq_nil_iff_forall_not_mem]
  refine ⟨fun hnone kv hkv => ?_, fun hnone key hkey => ?_⟩
  · exact hnone kv.1 (mem_setDifference.mpr
      ⟨h.keys.mpr (List.mem_map_of_mem hkv), List.not_mem_nil⟩)
  · obtain ⟨kv, hkv, -⟩ := List.mem_map.mp (h.keys.mp (mem_setDifference.mp hkey).1)
    exact hnone kv hkv

/-- Then they do not differ. -/
theorem Tracks.same_of_empty (h : Tracks ctxt r o)
    (hempty : o.flavor.extraSpecs = [] ∧ r.extraSpecs = []) :
    sameDict o.flavor.extraSpecs o.origExtraSpecs = true := by
  have hkeys : o.origExtraSpecs = [] := by
    refine List.eq_nil_iff_forall_not_mem.mpr (fun kv hkv => ?_)
    have hmem := h.keys.mp (List.mem_map_of_mem (f := Prod.fst) hkv)
    rw [hempty.2] at hmem
    cases hmem
  rw [hempty.1, hkeys]
  rfl

theorem sameDict_self (d : List (String × String)) : sameDict d d = true :=
  sameDict_iff.mpr (fun _ => rfl)

variable (now main) in
/-- `save_extra_specs`, of all specs and of the keys that are gone. -/
theorem eval_saveExtraSpecs (h : Tracks ctxt r o) (hready : Ready s o)
    (hr : s.api.find? o.flavor.id = some r) (horder : ∀ xs, (order xs).Perm xs)
    (hchanged : "extra_specs" ∈ o.objWhatChanged) :
    ∃ s₁ rows, (o.saveExtraSpecs main order o.flavor.extraSpecs o.deletedKeys).eval now s =
        (.ok ({ o with inApi := true }.objResetChanges ["extra_specs"]), s₁) ∧
      Writes s s₁ o.flavor.id { r with extraSpecs := rows } ∧ Stores rows o.flavor.extraSpecs := by
  have hdeleted : o.deletedKeys =
      setDifference (Dict.keys o.origExtraSpecs) (Dict.keys o.flavor.extraSpecs) := if_pos hchanged
  -- the specs are written in one go, if there are any
  have hadd : ∃ s', (FlavorObject.addSpecs main { o with inApi := true }
        o.flavor.extraSpecs).eval now s = (.ok (), s') ∧
      Writes s s' o.flavor.id
        { r with extraSpecs := withSpecs o.flavor.extraSpecs r.extraSpecs } := by
    unfold FlavorObject.addSpecs
    by_cases hempty : o.flavor.extraSpecs = []
    · refine ⟨s, by rw [if_pos hempty, eval_pure], ?_⟩
      have hnone : withSpecs [] r.extraSpecs = r.extraSpecs :=
        (List.append_nil _).trans (List.map_id'' (fun _ => rfl) _)
      rw [hempty, hnone]
      exact Writes.refl hr
    · rw [if_neg hempty, if_pos rfl]
      exact ⟨_, eval_flavorExtraSpecsAdd hr _, writes_modify hr _ (fun projects => projects)⟩
  obtain ⟨s', hadd, hwrites⟩ := hadd
  have hold : ∀ k ∈ order o.deletedKeys,
      k ∈ Dict.keys (withSpecs o.flavor.extraSpecs r.extraSpecs) := by
    intro k hk
    rw [mem_order horder, hdeleted, mem_setDifference, h.keys] at hk
    exact mem_keys_withSpecs _ (.inl hk.1)
  obtain ⟨s₁, hloop, rows, hrest, hrows⟩ := eval_deleteLoop now main
    (o := { o with inApi := true }) rfl hwrites.row
    (hdeleted ▸ nodup_order horder _ _) hold
  refine ⟨s₁, rows, ?_, hwrites.trans hrest, ?_⟩
  · unfold FlavorObject.saveExtraSpecs
    rw [eval_bind_ok now (eval_checkInApi hready), eval_bind_ok now hadd,
      eval_bind_ok now hloop, eval_pure]
  · refine stores_written h.nodup (fun k => ?_) hrows
    rw [mem_order horder, hdeleted, mem_setDifference, h.keys]

variable (now main) in
/-- **The specs.** -/
theorem eval_saveChangedSpecs (h : Tracks ctxt r o) (hshown : r ∈ flavorGetQueryFromDb ctxt s.api)
    (hcontext : requireContext ctxt = .ok ()) (horder : ∀ xs, (order xs).Perm xs) :
    ∃ o₁ s₁ rows, (o.saveChangedSpecs main order).eval now s = (.ok o₁, s₁) ∧
      SpecsSaved s r o o₁ s₁ rows := by
  unfold FlavorObject.saveChangedSpecs
  have hr := find?_of_shown h hshown
  have hready := ready_of_shown h hshown hcontext
  by_cases hchanged : "extra_specs" ∈ o.objWhatChanged
  · by_cases hwrite : o.addedKeys ≠ [] ∨ o.deletedKeys ≠ []
    · obtain ⟨s₁, rows, heval, hwrites, hstores⟩ :=
        eval_saveExtraSpecs now main h hready hr horder hchanged
      rw [if_pos hwrite]
      refine ⟨_, s₁, rows, heval, rfl, rfl, rfl, .inl rfl, hwrites, hstores, ?_, fun f => ?_⟩
      · exact sameDict_self _
      · refine List.mem_filter.trans (and_congr_right (fun _ => ?_))
        rw [decide_eq_true_iff, List.mem_singleton]
        have hsome : ¬ (o.flavor.extraSpecs = [] ∧ r.extraSpecs = []) :=
          fun hboth => absurd hwrite ((h.noKeys_iff hchanged).mpr hboth)
        exact ⟨fun hne heq => absurd heq hne, fun himp heq => hsome (himp heq)⟩
    · have hempty := (h.noKeys_iff hchanged).mp hwrite
      have hsame := h.same_of_empty hempty
      rw [if_neg hwrite]
      exact ⟨o, s, r.extraSpecs, rfl, rfl, rfl, rfl, hready, Writes.refl hr, h.stores hsame, hsame,
        fun f => (and_iff_left (fun _ => hempty)).symm⟩
  · have hnone : ¬ (o.addedKeys ≠ [] ∨ o.deletedKeys ≠ []) := by
      unfold FlavorObject.addedKeys FlavorObject.deletedKeys
      rw [if_neg hchanged, if_neg hchanged]
      simp
    rw [mem_objWhatChanged, not_or, not_or] at hchanged
    have hsame : sameDict o.flavor.extraSpecs o.origExtraSpecs = true := by
      rw [← Bool.not_eq_false]
      exact fun hdiff => hchanged.2.1 ⟨rfl, hdiff⟩
    rw [if_neg hnone]
    refine ⟨o, s, r.extraSpecs, rfl, rfl, rfl, rfl, hready, Writes.refl hr, h.stores hsame, hsame,
      fun f => ⟨fun hf => ⟨hf, fun heq => absurd (heq ▸ hf) hchanged.1⟩, fun hf => hf.1⟩⟩

/-- When the projects are saved: a change was made to what is stored, and is a difference. -/
def ProjectsSavable (o : FlavorObject) (r : FlavorRow) : Prop :=
  "projects" ∈ o.objWhatChanged →
    (∀ p, p ∈ o.origProjects ↔ p ∈ r.projects) ∧
      ¬ ∀ p, p ∈ o.projects.getD [] ↔ p ∈ r.projects

/-- The object has the projects that are stored, if it has any loaded. -/
def HasProjects (o : FlavorObject) (projects : List String) : Prop :=
  ∀ given, o.projects = some given → ∀ p, p ∈ given ↔ p ∈ projects

/-- The second part of `save`, from what the first one left. -/
structure ProjectsSaved (r : FlavorRow) (o o₁ o₂ : FlavorObject) (s₁ s₂ : Databases)
    (rows : List (String × Option String)) (projects : List String) : Prop where
  flavor : o₂.flavor = o₁.flavor
  given : o₂.projects = o₁.projects
  origExtraSpecs : o₂.origExtraSpecs = o₁.origExtraSpecs
  marks : ∀ f, f ≠ "projects" → (f ∈ o₂.changedFields ↔ f ∈ o₁.changedFields)
  writes : Writes s₁ s₂ o.flavor.id { r with extraSpecs := rows, projects := projects }
  saved : ("projects" ∉ o₂.objWhatChanged ∧ HasProjects o₂ projects) ↔ ProjectsSavable o r

variable {s₂ : Databases} {o₂ : FlavorObject} {rows : List (String × Option String)}
  {projects : List String} {flavor : Flavor}

variable (now main) in
/-- `save_projects`, from a state where what it deletes is there. -/
theorem eval_saveProjects (hready : Ready s o) (hr : s.api.find? o.flavor.id = some r)
    {toAdd toDelete : List String} (hadd : (order toAdd).Nodup) (hdelete : (order toDelete).Nodup)
    (horder : ∀ xs, (order xs).Perm xs) (hold : ∀ p ∈ toDelete, p ∈ r.projects)
    (hnew : ∀ p ∈ toAdd, p ∉ r.projects) :
    ∃ o' s' projects, (o.saveProjects main order toAdd toDelete).eval now s =
        (.ok (o'.objResetChanges ["projects"]), s') ∧ (∃ inApi, o' = { o with inApi := inApi }) ∧
      Writes s s' o.flavor.id { r with projects := projects } ∧
      ∀ p, p ∈ projects ↔ (p ∈ r.projects ∨ p ∈ toAdd) ∧ p ∉ toDelete := by
  obtain ⟨o₁, s₁, hloop, hobject, hready₁, hwrites⟩ := eval_addLoop now main
    hready hr hadd (fun p hp => hnew p ((mem_order horder).mp hp))
  obtain ⟨inApi, rfl⟩ := hobject
  obtain ⟨o₂, s₂, hloop₂, hobject₂, projects, hwrites₂, hprojects⟩ :=
    eval_removeLoop now main hready₁ hwrites.row hdelete
      (fun p hp => List.mem_append_left _ (hold p ((mem_order horder).mp hp)))
  obtain ⟨inApi₂, rfl⟩ := hobject₂
  refine ⟨_, s₂, projects, ?_, ⟨inApi₂, rfl⟩, hwrites.trans hwrites₂, fun p => ?_⟩
  · unfold FlavorObject.saveProjects
    rw [eval_bind_ok now hloop, eval_bind_ok now hloop₂, eval_pure]
  · rw [hprojects p, List.mem_append, mem_order horder, mem_order horder]

/-- No difference, no write. -/
theorem noProjects_iff (hchanged : "projects" ∈ o.objWhatChanged) :
    ¬ (o.addedProjects ≠ [] ∨ o.deletedProjects ≠ []) ↔
      ∀ p, p ∈ o.projects.getD [] ↔ p ∈ o.origProjects := by
  unfold FlavorObject.addedProjects FlavorObject.deletedProjects
  rw [if_pos hchanged, if_pos hchanged, not_or, not_not, not_not,
    List.eq_nil_iff_forall_not_mem, List.eq_nil_iff_forall_not_mem]
  simp only [mem_setDifference, not_and, not_not]
  exact ⟨fun h p => ⟨h.1 p, h.2 p⟩, fun h => ⟨fun p => (h p).mp, fun p => (h p).mpr⟩⟩

theorem Tracks.given (h : Tracks ctxt r o) (hchanged : "projects" ∈ o.objWhatChanged) :
    ∃ given, o.projects = some given := by
  rcases mem_objWhatChanged.mp hchanged with hmark | ⟨heq, -⟩ | ⟨-, given, hgiven, -⟩
  · exact Option.ne_none_iff_exists'.mp (h.assigned hmark)
  · exact absurd heq (by decide)
  · exact ⟨given, hgiven⟩

/-- Projects that have not changed are those that were loaded. -/
theorem Tracks.hasProjects (h : Tracks ctxt r o) (hsame : "projects" ∉ o.objWhatChanged) :
    HasProjects o r.projects := by
  intro given hgiven p
  rw [mem_objWhatChanged, not_or, not_or] at hsame
  have hgiven' : given = o.origProjects := by
    by_contra hne
    exact hsame.2.2 ⟨rfl, given, hgiven, hne⟩
  rcases h.projects given hgiven with heq | ⟨-, hmark⟩
  · rw [hgiven', heq]
  · exact absurd hmark hsame.1

variable (projects) in
theorem hasProjects_iff {given : List String} (hgiven : o.projects = some given) :
    HasProjects o projects ↔ ∀ p, p ∈ given ↔ p ∈ projects := by
  unfold HasProjects
  rw [hgiven]
  exact ⟨fun hall => hall given rfl, fun hall _ heq => Option.some.inj heq ▸ hall⟩

theorem projects_reset : "projects" ∉ (o.objResetChanges ["projects"]).objWhatChanged := by
  rw [mem_objWhatChanged]
  rintro (hmark | ⟨heq, -⟩ | ⟨-, given, hgiven, hne⟩)
  · exact of_decide_eq_true (List.mem_filter.mp hmark).2 (List.mem_singleton.mpr rfl)
  · exact absurd heq (by decide)
  · refine hne ?_
    show given = o.projects.getD []
    have hgiven' : o.projects = some given := hgiven
    rw [hgiven', Option.getD_some]

/-- What is written is what was given if the projects were loaded. Otherwise what is stored
stays, and none of it was given. -/
theorem written_iff {given orig stored : List String} (hdiff : ¬ ∀ p, p ∈ given ↔ p ∈ orig)
    (horig : orig = stored ∨ orig = []) (hnew : ∀ p ∈ given, p ∉ orig → p ∉ stored) :
    (∀ p, p ∈ given ↔ (p ∈ stored ∨ p ∈ given ∧ p ∉ orig) ∧ ¬ (p ∈ orig ∧ p ∉ given)) ↔
      (∀ p, p ∈ orig ↔ p ∈ stored) ∧ ¬ ∀ p, p ∈ given ↔ p ∈ stored := by
  rcases horig with rfl | rfl
  · refine iff_of_true (fun p => ?_) ⟨fun _ => Iff.rfl, hdiff⟩
    tauto
  · -- the projects were never loaded: what is stored stays
    constructor
    · intro hall
      have hempty : ∀ p, p ∉ stored := fun p hp => hnew p
        ((hall p).mpr ⟨.inl hp, fun hmem => List.not_mem_nil hmem.1⟩) List.not_mem_nil hp
      have hsame : ∀ p, p ∈ ([] : List String) ↔ p ∈ stored := fun p =>
        ⟨fun hp => absurd hp List.not_mem_nil, fun hp => absurd hp (hempty p)⟩
      exact ⟨hsame, fun hall' => hdiff (fun p => (hall' p).trans (hsame p).symm)⟩
    · rintro ⟨hsame, -⟩ p
      rw [← hsame p]
      have hnone := List.not_mem_nil (a := p)
      tauto

theorem addedProjects_eq (hchanged : "projects" ∈ o.objWhatChanged) {given : List String}
    (hgiven : o.projects = some given) :
    o.addedProjects = setDifference given o.origProjects ∧
      o.deletedProjects = setDifference o.origProjects given := by
  have hgetD : o.projects.getD [] = given := by rw [hgiven, Option.getD_some]
  exact ⟨hgetD ▸ if_pos hchanged, hgetD ▸ if_pos hchanged⟩

/-- Where nothing is written, the stored projects are those that were. -/
theorem SpecsSaved.projects_unwritten (h₁ : SpecsSaved s r o o₁ s₁ rows)
    (hsaved : ("projects" ∉ o₁.objWhatChanged ∧ HasProjects o₁ r.projects) ↔
      ProjectsSavable o r) :
    ProjectsSaved r o o₁ o₁ s₁ s₁ rows r.projects :=
  ⟨rfl, rfl, rfl, fun _ _ => Iff.rfl, Writes.refl h₁.writes.row, hsaved⟩

theorem SpecsSaved.projects_changed_iff (h₁ : SpecsSaved s r o o₁ s₁ rows) :
    "projects" ∈ o₁.objWhatChanged ↔ "projects" ∈ o.objWhatChanged := by
  rw [mem_objWhatChanged, mem_objWhatChanged, h₁.projects, h₁.origProjects, h₁.marks]
  simp

/-- The row as it is before the projects are written. -/
theorem SpecsSaved.row (h₁ : SpecsSaved s r o o₁ s₁ rows) :
    s₁.api.find? o₁.flavor.id = some { r with extraSpecs := rows } := by
  rw [h₁.flavor]
  exact h₁.writes.row

/-- Projects that are not written are left as they are, in the store and in the object. -/
theorem SpecsSaved.projects_skipped (h : Tracks ctxt r o) (h₁ : SpecsSaved s r o o₁ s₁ rows)
    (hskip : ¬ (o.addedProjects ≠ [] ∨ o.deletedProjects ≠ [])) :
    ProjectsSaved r o o₁ o₁ s₁ s₁ rows r.projects := by
  have hwhat := h₁.projects_changed_iff
  refine h₁.projects_unwritten ?_
  by_cases hchanged : "projects" ∈ o.objWhatChanged
  · -- what was assigned is what there was: it stays marked
    refine iff_of_false (fun hleft => hleft.1 (hwhat.mpr hchanged)) (fun hsavable => ?_)
    obtain ⟨hloaded, hdiff⟩ := hsavable hchanged
    have hsame := (noProjects_iff hchanged).mp hskip
    exact hdiff (fun p => (hsame p).trans (hloaded p))
  · refine iff_of_true ⟨fun hin => hchanged (hwhat.mp hin), ?_⟩ (fun hin => absurd hin hchanged)
    unfold HasProjects
    rw [h₁.projects]
    exact h.hasProjects hchanged

/-- Only projects that have changed are written. -/
theorem projects_changed_of_written (hwrite : o.addedProjects ≠ [] ∨ o.deletedProjects ≠ []) :
    "projects" ∈ o.objWhatChanged := by
  by_contra hchanged
  unfold FlavorObject.addedProjects FlavorObject.deletedProjects at hwrite
  rw [if_neg hchanged, if_neg hchanged] at hwrite
  exact hwrite.elim (fun h => h rfl) (fun h => h rfl)

variable (now main) in
/-- A project that is granted already is refused. -/
theorem eval_saveProjects_refused (h₁ : SpecsSaved s r o o₁ s₁ rows)
    (horder : ∀ xs, (order xs).Perm xs) (hchanged : "projects" ∈ o.objWhatChanged)
    {given : List String} (hgiven : o.projects = some given) {p : String}
    (hp : p ∈ o.addedProjects) (hmem : p ∈ r.projects) :
    (∃ e s', (o₁.saveProjects main order o.addedProjects o.deletedProjects).eval now s₁ =
      (.error e, s')) ∧ ¬ ProjectsSavable o r := by
  obtain ⟨e, s', herror⟩ := eval_addLoop_error now main h₁.ready h₁.row
    ⟨p, (mem_order horder).mpr hp, hmem⟩
  refine ⟨⟨e, s', ?_⟩, fun hsavable => ?_⟩
  · unfold FlavorObject.saveProjects
    exact eval_bind_error now herror _
  · rw [(addedProjects_eq hchanged hgiven).1, mem_setDifference] at hp
    exact hp.2 (((hsavable hchanged).1 p).mpr hmem)

variable (now main) in
/-- Other projects are written. -/
theorem eval_saveProjects_written (h : Tracks ctxt r o) (h₁ : SpecsSaved s r o o₁ s₁ rows)
    (horder : ∀ xs, (order xs).Perm xs) (hchanged : "projects" ∈ o.objWhatChanged)
    (hwrite : o.addedProjects ≠ [] ∨ o.deletedProjects ≠ []) {given : List String}
    (hgiven : o.projects = some given) (hnew : ∀ p ∈ o.addedProjects, p ∉ r.projects) :
    ∃ o₂ s₂ projects,
      (o₁.saveProjects main order o.addedProjects o.deletedProjects).eval now s₁ =
        (.ok o₂, s₂) ∧ ProjectsSaved r o o₁ o₂ s₁ s₂ rows projects := by
  have hdiff := mt (noProjects_iff hchanged).mpr (not_not.mpr hwrite)
  have hgetD : o.projects.getD [] = given := by rw [hgiven, Option.getD_some]
  obtain ⟨hadded, hdeleted⟩ := addedProjects_eq hchanged hgiven
  have horig : o.origProjects = r.projects ∨ o.origProjects = [] :=
    (h.projects given hgiven).imp_right And.left
  have hold : ∀ p ∈ o.deletedProjects, p ∈ r.projects := by
    intro p hp
    rw [hdeleted, mem_setDifference] at hp
    rcases horig with heq | hnil
    · exact heq ▸ hp.1
    · exact absurd (hnil ▸ hp.1) List.not_mem_nil
  obtain ⟨o', s₂, projects, heval, ⟨inApi, rfl⟩, hwrites, hprojects⟩ :=
    eval_saveProjects now main h₁.ready h₁.row
      (hadded ▸ nodup_order horder _ _) (hdeleted ▸ nodup_order horder _ _) horder hold hnew
  rw [h₁.flavor] at hwrites
  refine ⟨_, s₂, projects, heval, rfl, rfl, rfl, fun f hf => ?_, hwrites, ?_⟩
  · refine List.mem_filter.trans (and_iff_left ?_)
    exact decide_eq_true (fun hmem => hf (List.mem_singleton.mp hmem))
  · have hhas := hasProjects_iff projects
      (o := { o₁ with inApi := inApi }.objResetChanges ["projects"]) (h₁.projects.trans hgiven)
    rw [and_iff_right projects_reset, hhas]
    simp only [hprojects, hadded, hdeleted, mem_setDifference]
    unfold ProjectsSavable
    rw [hgetD] at hdiff ⊢
    rw [forall_prop_of_true hchanged]
    refine written_iff hdiff horig (fun p hp hnot => hnew p ?_)
    rw [hadded]
    exact mem_setDifference.mpr ⟨hp, hnot⟩

variable (now main) in
/-- **The projects.** They are saved as `ProjectsSavable` says, or the call raises. -/
theorem eval_saveChangedProjects (h : Tracks ctxt r o)
    (h₁ : SpecsSaved s r o o₁ s₁ rows) (horder : ∀ xs, (order xs).Perm xs) :
    (∃ e s', (o.saveChangedProjects main order o₁).eval now s₁ = (.error e, s') ∧
      ¬ ProjectsSavable o r) ∨
    ∃ o₂ s₂ projects, (o.saveChangedProjects main order o₁).eval now s₁ = (.ok o₂, s₂) ∧
      ProjectsSaved r o o₁ o₂ s₁ s₂ rows projects := by
  unfold FlavorObject.saveChangedProjects
  by_cases hwrite : o.addedProjects ≠ [] ∨ o.deletedProjects ≠ []
  · have hchanged := projects_changed_of_written hwrite
    obtain ⟨given, hgiven⟩ := h.given hchanged
    rw [if_pos hwrite]
    by_cases hthere : ∃ p ∈ o.addedProjects, p ∈ r.projects
    · obtain ⟨p, hp, hmem⟩ := hthere
      obtain ⟨⟨e, s', herror⟩, hnot⟩ :=
        eval_saveProjects_refused now main h₁ horder hchanged hgiven hp hmem
      exact .inl ⟨e, s', herror, hnot⟩
    · exact .inr (eval_saveProjects_written now main h h₁ horder hchanged hwrite hgiven
        (fun p hp hmem => hthere ⟨p, hp, hmem⟩))
  · rw [if_neg hwrite]
    exact .inr ⟨o₁, s₁, r.projects, rfl, h₁.projects_skipped h hwrite⟩

/-! ## Saving -/

/-- The object agrees with what is stored, and has nothing more to write. -/
structure Synchronised (main : MainAccess) (order : List String → List String) (now : Nat)
    (s : Databases) (o : FlavorObject) : Prop where
  stored : ∃ r, s.api.find? o.flavor.id = some r ∧
    Stores r.extraSpecs o.flavor.extraSpecs ∧
    ∃ projects o', o.getProjects.eval now s = (.ok (projects, o'), s) ∧
      ∀ p, p ∈ projects ↔ p ∈ r.projects
  clean : o.objWhatChanged = []
  again : (o.save main order).eval now s = (.ok o, s)

/-- `save` returns, it leaves the specs and the projects of the object as they are, and what
it leaves is synchronised. -/
def SavesCleanly (main : MainAccess) (order : List String → List String) (now : Nat)
    (s : Databases) (o : FlavorObject) : Prop :=
  ∃ o' s', (o.save main order).eval now s = (.ok o', s') ∧ o'.flavor = o.flavor ∧
    o'.projects = o.projects ∧ Synchronised main order now s' o'

/-- When a changed object is saved as it should be: the context may ask for the flavor, a
changed dictionary of specs is not empty or replaces one that was not, and changed projects
differ from the stored ones, which were loaded. -/
structure Savable (o : FlavorObject) (r : FlavorRow) : Prop where
  context : o.objWhatChanged ≠ [] → requireContext o.context = .ok ()
  specs : "extra_specs" ∈ o.objWhatChanged → o.flavor.extraSpecs ≠ [] ∨ r.extraSpecs ≠ []
  projects : ProjectsSavable o r

theorem Tracks.readable (h : Tracks ctxt r o) :
    o.objWhatChanged.any (fun f => f != "projects" && f != "extra_specs") = false := by
  rw [List.any_eq_false]
  intro f hf
  rw [Bool.and_eq_true, bne_iff_ne, bne_iff_ne, not_and_or, not_not, not_not]
  rcases mem_objWhatChanged.mp hf with hmark | ⟨heq, -⟩ | ⟨heq, -⟩
  · exact h.fields f hmark
  · exact .inr heq
  · exact .inl heq

theorem Tracks.eval_save (h : Tracks ctxt r o) :
    (o.save main order).eval now s = (do
      let written ← o.saveChangedSpecs main order
      o.saveChangedProjects main order written).eval now s := by
  unfold FlavorObject.save
  rw [h.readable, if_neg Bool.false_ne_true]

/-- An object without changes is not written. -/
theorem eval_save_clean (hclean : o.objWhatChanged = []) :
    (o.save main order).eval now s = (.ok o, s) := by
  have hnot : ∀ f, f ∉ o.objWhatChanged := fun f => hclean ▸ List.not_mem_nil
  unfold FlavorObject.save FlavorObject.saveChangedSpecs FlavorObject.saveChangedProjects
    FlavorObject.addedKeys FlavorObject.deletedKeys FlavorObject.addedProjects
    FlavorObject.deletedProjects
  rw [if_neg (hnot _), if_neg (hnot _), if_neg (hnot _), if_neg (hnot _), hclean]
  rfl

/-- The projects are read as they are stored. -/
theorem eval_getProjects (hr : s.api.find? o.flavor.id = some r)
    (hflavorid : o.flavor.flavorid = r.flavorid) (hhas : HasProjects o r.projects) :
    ∃ projects o', o.getProjects.eval now s = (.ok (projects, o'), s) ∧
      ∀ p, p ∈ projects ↔ p ∈ r.projects := by
  unfold FlavorObject.getProjects
  cases hp : o.projects with
  | some given => exact ⟨given, o, rfl, hhas given hp⟩
  | none =>
    dsimp only
    rw [eval_bind_ok now (eval_loadProjects (List.mem_of_find?_eq_some hr) hflavorid)]
    exact ⟨r.projects, _, rfl, fun _ => Iff.rfl⟩

/-- Nothing has changed, and nothing is written. -/
theorem Tracks.savesCleanly_of_clean (h : Tracks ctxt r o)
    (hr : s.api.find? o.flavor.id = some r) (hclean : o.objWhatChanged = []) :
    SavesCleanly main order now s o := by
  have hnot : ∀ f, f ∉ o.objWhatChanged := fun f => hclean ▸ List.not_mem_nil
  have hspecs := hnot "extra_specs"
  rw [mem_objWhatChanged, not_or, not_or] at hspecs
  have hsame : sameDict o.flavor.extraSpecs o.origExtraSpecs = true := by
    rw [← Bool.not_eq_false]
    exact fun hdiff => hspecs.2.1 ⟨rfl, hdiff⟩
  have hhas := h.hasProjects (hnot "projects")
  exact ⟨o, s, eval_save_clean hclean, rfl, rfl,
    ⟨r, hr, h.stores hsame, eval_getProjects hr h.flavorid hhas⟩, hclean, eval_save_clean hclean⟩

/-- Where the first write of `save_projects` raises, so does the call. -/
theorem eval_saveProjects_error {e : NovaError}
    (hcheck : o.checkInApi.eval now s = (.error e, s)) (horder : ∀ xs, (order xs).Perm xs)
    {toAdd toDelete : List String} (hsome : toAdd ≠ [] ∨ toDelete ≠ []) :
    (o.saveProjects main order toAdd toDelete).eval now s = (.error e, s) := by
  have hnil : ∀ xs, order xs = [] → xs = [] := fun xs hxs =>
    (List.nil_perm.mp (hxs ▸ horder xs))
  unfold FlavorObject.saveProjects
  cases hadd : order toAdd with
  | cons p rest =>
    have hloop : ((p :: rest).foldlM (FlavorObject.addAccess main) o).eval now s =
        (.error e, s) := by
      rw [List.foldlM_cons]
      exact eval_bind_error now (eval_bind_error now hcheck _) _
    exact eval_bind_error now hloop _
  | nil =>
    cases hdelete : order toDelete with
    | cons p rest =>
      have hloop : ((p :: rest).foldlM (FlavorObject.removeAccess main) o).eval now s =
          (.error e, s) := by
        rw [List.foldlM_cons]
        exact eval_bind_error now (eval_bind_error now hcheck _) _
      rw [List.foldlM_nil, eval_bind_ok now (eval_pure now o s)]
      exact eval_bind_error now hloop _
    | nil => exact absurd hsome (by rw [hnil _ hadd, hnil _ hdelete]; simp)

/-- Without a context that may ask, changes are not saved. -/
theorem Tracks.not_savesCleanly (h : Tracks ctxt r o) (horder : ∀ xs, (order xs).Perm xs)
    {e : NovaError} (hcontext : requireContext ctxt = .error e) (hchanged : o.objWhatChanged ≠ []) :
    ¬ SavesCleanly main order now s o := by
  rintro ⟨o', s', heval, -, -, hsync⟩
  obtain ⟨e', hcheck⟩ := eval_checkInApi_error s now h.inApi
    (h.context.symm ▸ hcontext)
  rw [h.eval_save] at heval
  by_cases hspecs : o.addedKeys ≠ [] ∨ o.deletedKeys ≠ []
  · have herror : (o.saveChangedSpecs main order).eval now s = (.error e', s) := by
      unfold FlavorObject.saveChangedSpecs
      rw [if_pos hspecs]
      exact eval_bind_error now hcheck _
    rw [eval_bind_error now herror] at heval
    cases heval
  · -- no spec is to be written, so the check is met with the projects, or not at all
    have hpure : (o.saveChangedSpecs main order).eval now s = (.ok o, s) := by
      unfold FlavorObject.saveChangedSpecs
      rw [if_neg hspecs, eval_pure]
    rw [eval_bind_ok now hpure] at heval
    unfold FlavorObject.saveChangedProjects at heval
    split at heval
    · next hprojects =>
      rw [eval_saveProjects_error hcheck horder hprojects] at heval
      cases heval
    · have heq : o = o' := Except.ok.inj (Prod.mk.inj heval).1
      exact hchanged (heq ▸ hsync.clean)

/-- The mark of the specs is left where there was nothing to write. -/
theorem Tracks.specs_left (h : Tracks ctxt r o) (h₁ : SpecsSaved s r o o₁ s₁ rows)
    (h₂ : ProjectsSaved r o o₁ o₂ s₁ s₂ rows projects) :
    "extra_specs" ∈ o₂.objWhatChanged ↔ "extra_specs" ∈ o.objWhatChanged ∧
      o.flavor.extraSpecs = [] ∧ r.extraSpecs = [] := by
  have hsame₂ : sameDict o₂.flavor.extraSpecs o₂.origExtraSpecs = true := by
    rw [h₂.flavor, h₂.origExtraSpecs]
    exact h₁.same
  rw [mem_objWhatChanged, mem_objWhatChanged, h₂.marks _ (by decide), h₁.marks]
  constructor
  · rintro (⟨hmark, hempty⟩ | ⟨-, hdiff⟩ | ⟨heq, -⟩)
    · exact ⟨.inl hmark, hempty rfl⟩
    · rw [hsame₂] at hdiff
      cases hdiff
    · exact absurd heq (by decide)
  · rintro ⟨hmark | ⟨-, hdiff⟩ | ⟨heq, -⟩, hempty⟩
    · exact .inl ⟨hmark, fun _ => hempty⟩
    · rw [h.same_of_empty hempty] at hdiff
      cases hdiff
    · exact absurd heq (by decide)

/-- What was saved leaves nothing to save. -/
theorem Tracks.clean_of_savable (h : Tracks ctxt r o) (h₁ : SpecsSaved s r o o₁ s₁ rows)
    (h₂ : ProjectsSaved r o o₁ o₂ s₁ s₂ rows projects) (hsavable : Savable o r) :
    o₂.objWhatChanged = [] := by
  refine List.eq_nil_iff_forall_not_mem.mpr (fun f hf => ?_)
  by_cases hprojects : f = "projects"
  · exact (h₂.saved.mpr hsavable.projects).1 (hprojects ▸ hf)
  by_cases hspecs : f = "extra_specs"
  · obtain ⟨hin, hempty⟩ := (h.specs_left h₁ h₂).mp (hspecs ▸ hf)
    rcases hsavable.specs hin with hsome | hsome
    · exact hsome hempty.1
    · exact hsome hempty.2
  · -- another field is never changed, so it is marked by nothing
    rcases mem_objWhatChanged.mp hf with hmark | ⟨heq, -⟩ | ⟨heq, -⟩
    · have hmark₁ := (h₁.marks f).mp ((h₂.marks f hprojects).mp hmark)
      exact (h.fields f hmark₁.1).elim hprojects hspecs
    · exact hspecs heq
    · exact hprojects heq

/-- What agrees with the store and has nothing to save was `Savable`. -/
theorem Tracks.savable_of_synchronised (h : Tracks ctxt r o)
    (h₁ : SpecsSaved s r o o₁ s₁ rows) (h₂ : ProjectsSaved r o o₁ o₂ s₁ s₂ rows projects)
    (hcontext : requireContext o.context = .ok ())
    (hsync : Synchronised main order now s₂ o₂) : Savable o r := by
  have hnot : ∀ f, f ∉ o₂.objWhatChanged := fun f => hsync.clean ▸ List.not_mem_nil
  refine ⟨fun _ => hcontext, fun hin => ?_, h₂.saved.mp ⟨hnot _, fun given hgiven p => ?_⟩⟩
  · by_contra hempty
    rw [not_or, not_not, not_not] at hempty
    exact hnot _ ((h.specs_left h₁ h₂).mpr ⟨hin, hempty⟩)
  · obtain ⟨r', hr', -, projects', o', hread, hsame⟩ := hsync.stored
    unfold FlavorObject.getProjects at hread
    rw [hgiven] at hread
    cases hread
    rw [h₂.flavor.trans h₁.flavor, h₂.writes.row] at hr'
    cases hr'
    exact hsame p

/-- **Saving a tracked object.** -/
theorem Tracks.savesCleanly_iff (h : Tracks ctxt r o)
    (hshown : r ∈ flavorGetQueryFromDb ctxt s.api) (horder : ∀ xs, (order xs).Perm xs) :
    SavesCleanly main order now s o ↔ Savable o r := by
  have hr := find?_of_shown h hshown
  -- without changes nothing is written; with changes, the context decides first
  by_cases hclean : o.objWhatChanged = []
  · have hnot : ∀ f, f ∉ o.objWhatChanged := fun f => hclean ▸ List.not_mem_nil
    exact iff_of_true (h.savesCleanly_of_clean hr hclean)
      ⟨fun hne => absurd hclean hne, fun hin => absurd hin (hnot _),
        fun hin => absurd hin (hnot _)⟩
  cases hcontext : requireContext ctxt with
  | error e =>
    refine iff_of_false (h.not_savesCleanly horder hcontext hclean) (fun hsavable => ?_)
    have hok := hsavable.context hclean
    rw [h.context, hcontext] at hok
    cases hok
  | ok _ =>
    obtain ⟨o₁, s₁, rows, heval₁, h₁⟩ := eval_saveChangedSpecs now main
      h hshown hcontext horder
    have hsave : (o.save main order).eval now s =
        (o.saveChangedProjects main order o₁).eval now s₁ := by
      rw [h.eval_save, eval_bind_ok now heval₁]
    rcases eval_saveChangedProjects now main h h₁ horder with
      ⟨e, s', heval₂, hnot⟩ | ⟨o₂, s₂, projects, heval₂, h₂⟩
    · refine iff_of_false ?_ (fun hsavable => hnot hsavable.projects)
      rintro ⟨o', s₂, heval, -⟩
      rw [hsave, heval₂] at heval
      cases heval
    · constructor
      · rintro ⟨o', s', heval, -, -, hsync⟩
        rw [hsave, heval₂] at heval
        cases heval
        exact h.savable_of_synchronised h₁ h₂ (h.context.symm ▸ hcontext) hsync
      · intro hsavable
        have hclean₂ := h.clean_of_savable h₁ h₂ hsavable
        have hid : o₂.flavor = o.flavor := h₂.flavor.trans h₁.flavor
        have hrow := h₂.writes.row
        rw [← hid] at hrow
        refine ⟨o₂, s₂, hsave.trans heval₂, hid, h₂.given.trans h₁.projects,
          ⟨_, hrow, ?_, eval_getProjects hrow ?_ (h₂.saved.mpr hsavable.projects).2⟩,
          hclean₂, eval_save_clean hclean₂⟩
        · rw [hid]
          exact h₁.stores
        · rw [hid]
          exact h.flavorid

/-- **Main result.** A flavor is loaded from the API database and edited in any way, and
nobody else writes. Then saving it leaves it and the database in agreement, and nothing more
to save, exactly where it is `Savable`. -/
theorem save_synchronises_iff (main : MainAccess) (order : List String → List String)
    (horder : ∀ xs, (order xs).Perm xs) (hload : Loaded ctxt s r flavor) (edits : List Edit)
    (now : Nat) :
    ∃ o, (edits.foldlM Edit.perform (FlavorObject.ofFlavor ctxt flavor)).eval now s = (.ok o, s) ∧
      (SavesCleanly main order now s o ↔ Savable o r) := by
  obtain ⟨o, heval, htracks⟩ := eval_edits now hload edits
  exact ⟨o, heval, htracks.savesCleanly_iff hload.shown horder⟩

end

/-! ## A flavor with two projects -/

def sharedRow : FlavorRow where
  id := 1
  name := "m1.tiny"
  memoryMb := 512
  vcpus := 1
  rootGb := some 1
  ephemeralGb := some 0
  flavorid := "1"
  swap := 0
  rxtxFactor := some 1
  vcpuWeight := some 0
  disabled := some false
  isPublic := some false
  createdAt := none
  updatedAt := none
  extraSpecs := [("hw", some "a")]
  projects := ["p", "q"]

def sharedFlavor : Flavor where
  id := 1
  name := "m1.tiny"
  memoryMb := 512
  vcpus := 1
  rootGb := 1
  ephemeralGb := 0
  flavorid := "1"
  swap := 0
  rxtxFactor := some 1
  vcpuWeight := 0
  disabled := false
  isPublic := false
  createdAt := none
  updatedAt := none
  deletedAt := none
  deleted := false
  extraSpecs := [("hw", "a")]

def sharedDatabases : Databases where
  api := {
    rows := [sharedRow]
    uniqId := by decide
    uniqFlavorid := by decide
    uniqName := by decide }
  main := []

theorem sharedFlavor_loaded : Loaded adminContext sharedDatabases sharedRow sharedFlavor :=
  ⟨List.mem_singleton.mpr rfl, rfl⟩

/-- Flavors of the main database are not written here. -/
def noMainAccess : MainAccess where
  flavorAccessAdd := fun _ _ _ => throw .dbError
  flavorAccessRemove := fun _ _ _ => throw .dbError
  flavorExtraSpecsUpdateOrCreate := fun _ _ _ => throw .dbError
  flavorExtraSpecsDelete := fun _ _ _ => throw .dbError

/-- The object, with projects assigned after they were read. -/
def assigned (projects : List String) : FlavorObject where
  context := adminContext
  flavor := sharedFlavor
  projects := some projects
  origExtraSpecs := [("hw", "a")]
  origProjects := ["p", "q"]
  inApi := false
  changedFields := ["projects"]

/-- Projects in another order are not written, and stay changed. -/
theorem reordered_not_synchronised :
    ([Edit.readProjects, .assignProjects ["q", "p"]].foldlM Edit.perform
        (FlavorObject.ofFlavor adminContext sharedFlavor)).eval 0 sharedDatabases =
      (.ok (assigned ["q", "p"]), sharedDatabases) ∧
    ¬ SavesCleanly noMainAccess (fun xs => xs) 0 sharedDatabases (assigned ["q", "p"]) := by
  refine ⟨rfl, ?_⟩
  rintro ⟨o', s', heval, -, -, hsync⟩
  have hsave : ((assigned ["q", "p"]).save noMainAccess (fun xs => xs)).eval 0 sharedDatabases =
    (.ok (assigned ["q", "p"]), sharedDatabases) := rfl
  rw [hsave] at heval
  cases heval
  exact absurd hsync.clean (by decide)

/-- One project goes and another comes, and one of them is given twice. -/
theorem exchanged_synchronised :
    SavesCleanly noMainAccess (fun xs => xs) 0 sharedDatabases (assigned ["q", "r", "q"]) := by
  obtain ⟨o, heval, hiff⟩ := save_synchronises_iff noMainAccess (fun xs => xs)
    (fun _ => List.Perm.refl _) sharedFlavor_loaded
    [Edit.readProjects, .assignProjects ["q", "r", "q"]] 0
  have ho : o = assigned ["q", "r", "q"] := by
    cases heval
    rfl
  subst ho
  refine hiff.mpr ⟨fun _ => rfl, fun hin => absurd hin (by decide), fun _ => ⟨fun _ => Iff.rfl, ?_⟩⟩
  exact fun hall => absurd ((hall "p").mpr (by decide)) (by decide)

end PolarBear.Flavors
