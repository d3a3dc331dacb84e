import PolarBear.Lib.Fallible
import PolarBear.Flavors.Migrate

/-!
# Migrating flavors: what is kept

The copy of a flavor and the deletion of its original are transactions of two
databases. Where a crash falls between them the flavor is in both, and the copy
stands in the way of every later attempt: creating it again collides, the
collision is logged, and the original is never deleted. Where no crash falls
there, every state a call leaves is `Clean`: no live flavor of the main database
has a copy. `Progress` adds that each flavor that was live at the start is live
still or has a copy with its attributes.

One round moves the first live flavor (`wp_migrateFlavor`), so a call that
completes has moved all it found, and one that moved nothing found nothing.
-/

namespace PolarBear.Flavors

open Transactions Db
open Transition (Run)
open Fallible (Raises bind_ok_iff)

/-- A crash falls before any transaction but the deletion of an original. -/
def outsideWindow (tx : Tx) : Prop := tx ≠ .flavorDestroy ∧ tx ≠ .destroyFlavorHard

/-! ## The object of a row and of its copy -/

/-- Reading a row fails on a null only. -/
theorem fromDbObject_raises (f : DbFlavor) :
    Raises (fun e => ∃ text, e = NovaError.valueError text) f.fromDbObject := by
  have hnone : ∀ {α : Type} (field : String) (a : Option α),
      Raises (fun e => ∃ text, e = NovaError.valueError text) (notNone field a) := by
    intro α field a
    cases a with
    | none => exact .error ⟨_, rfl⟩
    | some a => exact .ok a
  have hdict : ∀ d : List (String × Option String),
      Raises (fun e => ∃ text, e = NovaError.valueError text) (dictOfStrings "extra_specs" d) := by
    intro d
    unfold dictOfStrings
    induction d with
    | nil => exact .ok _
    | cons kv d ih =>
      rw [List.mapM_cons]
      exact .bind (.bind (hnone _ _) (fun _ => .ok _)) (fun _ => .bind ih (fun _ => .ok _))
  exact .bind (hnone _ _) (fun _ => .bind (hnone _ _) (fun _ => .bind (hdict _) (fun _ => .ok _)))

/-- The strings of a dictionary that has no null, as nullable ones. -/
def nullable (d : List (String × String)) : List (String × Option String) :=
  d.map (fun kv => (kv.1, some kv.2))

theorem dictOfStrings_ok {field : String} :
    ∀ {d : List (String × Option String)} {d' : List (String × String)},
      dictOfStrings field d = .ok d' ↔ d = nullable d'
  | [], d' => by
    cases d' with
    | nil => exact ⟨fun _ => rfl, fun _ => rfl⟩
    | cons kv d' => exact ⟨(fun h => nomatch h), (fun h => nomatch h)⟩
  | (k, v) :: d, d' => by
    have ih : ∀ rest, dictOfStrings field d = .ok rest ↔ d = nullable rest :=
      fun rest => dictOfStrings_ok
    unfold dictOfStrings at ih ⊢
    rw [List.mapM_cons]
    cases v with
    | none =>
      constructor
      · intro h
        cases h
      · intro h
        cases d' with
        | nil => cases h
        | cons kv d' => cases (List.cons.inj h).1
    | some v =>
      constructor
      · intro h
        obtain ⟨kv, hkv, h⟩ := bind_ok_iff.mp h
        obtain ⟨rest, hrest, h⟩ := bind_ok_iff.mp h
        cases hkv
        cases h
        rw [(ih rest).mp hrest]
        rfl
      · intro h
        cases d' with
        | nil => cases h
        | cons kv d' =>
          obtain ⟨hkv, hrest⟩ := List.cons.inj h
          cases hkv
          exact bind_ok_iff.mpr ⟨_, rfl, bind_ok_iff.mpr ⟨d', (ih d').mpr hrest, rfl⟩⟩

/-- The object of a row has its identifiers. -/
theorem fromDbObject_ids {f : DbFlavor} {flavor : Flavor} (h : f.fromDbObject = .ok flavor) :
    flavor.id = f.row.id ∧ flavor.name = f.row.name ∧ flavor.flavorid = f.row.flavorid := by
  obtain ⟨_, -, h⟩ := bind_ok_iff.mp h
  obtain ⟨_, -, h⟩ := bind_ok_iff.mp h
  obtain ⟨_, -, h⟩ := bind_ok_iff.mp h
  cases h
  exact ⟨rfl, rfl, rfl⟩

/-- The columns that the API model fills in where they are null. -/
def MainFlavorRow.stamped (r : MainFlavorRow) : Bool := r.rxtxFactor.isSome && r.createdAt.isSome

/-- The copy is read as the same flavor; only what a deletion leaves is not copied. -/
theorem fromDbObject_copy {r : MainFlavorRow} (hlive : r.live = true) (hstamp : r.stamped = true)
    {flavor : Flavor} (h : r.dictWithExtraSpecs.fromDbObject = .ok flavor)
    (projects : List String) (now : Nat) :
    ((flavor.toRow projects now).dictWithExtraSpecs none).fromDbObject =
      .ok { flavor with deletedAt := none } := by
  obtain ⟨disabled, hdisabled, h⟩ := bind_ok_iff.mp h
  obtain ⟨isPublic, hpublic, h⟩ := bind_ok_iff.mp h
  obtain ⟨specs, hspecs, h⟩ := bind_ok_iff.mp h
  rw [dictOfStrings_ok] at hspecs
  have hkeys : (Dict.keys (nullable specs)).Nodup := by
    rw [← hspecs]
    exact Dict.nodup_keys_update List.nodup_nil
  obtain ⟨hrxtx, hcreated⟩ := Bool.and_eq_true_iff.mp hstamp
  obtain ⟨rxtx, hrxtx⟩ := Option.isSome_iff_exists.mp hrxtx
  obtain ⟨created, hcreated⟩ := Option.isSome_iff_exists.mp hcreated
  have hdeleted : r.deleted = 0 := beq_iff_eq.mp hlive
  have hdict : Dict.update [] (nullable specs) = nullable specs := Dict.update_eq_append hkeys
  cases h
  refine bind_ok_iff.mpr ⟨disabled, rfl, bind_ok_iff.mpr ⟨isPublic, rfl,
    bind_ok_iff.mpr ⟨specs, dictOfStrings_ok.mpr hdict, ?_⟩⟩⟩
  simp only [MainFlavorRow.dictWithExtraSpecs, FlavorRow.dictWithExtraSpecs, Flavor.toRow,
    hrxtx, hcreated, hdeleted, Option.getD_some, Option.map_some, Option.map_none,
    Option.getD_none]
  rfl

/-! ## The invariant -/

/-- The API database has a row with an identifier of the flavor. -/
def Collides (s : Databases) (r : MainFlavorRow) : Prop :=
  ∃ a ∈ s.api.rows, a.id = r.id ∨ a.name = r.name ∨ a.flavorid = r.flavorid

/-- The live flavors of the main database have their identifiers for themselves, and none
has a copy. -/
structure Clean (s : Databases) : Prop where
  ids : (s.liveRows.map (fun r => r.id)).Nodup
  names : (s.liveRows.map (fun r => r.name)).Nodup
  flavorids : (s.liveRows.map (fun r => r.flavorid)).Nodup
  apart : ∀ r ∈ s.liveRows, ¬ Collides s r

/-- The API row is read as the flavor of the main row, and has its projects. -/
def SameFlavor (a : FlavorRow) (r : MainFlavorRow) : Prop :=
  (∃ flavor, r.dictWithExtraSpecs.fromDbObject = .ok flavor ∧
    (a.dictWithExtraSpecs none).fromDbObject = .ok { flavor with deletedAt := none }) ∧
  ∀ p, p ∈ a.projects ↔ p ∈ r.projects

/-- What calls have done since `s₀`. -/
structure Progress (s₀ s : Databases) : Prop where
  clean : Clean s
  stamped : ∀ r ∈ s.liveRows, r.stamped = true
  kept : ∀ r ∈ s₀.liveRows, r ∈ s.liveRows ∨ ∃ a ∈ s.api.rows, SameFlavor a r

variable {ctxt : Context} {s₀ s : Databases} {r : MainFlavorRow} {others : List MainFlavorRow}

theorem live_of_mem (hr : r ∈ s.liveRows) : r ∈ s.main ∧ r.live = true := List.mem_filter.mp hr

/-- Moving the first live flavor keeps the invariant. -/
theorem Progress.move (h : Progress s₀ s) (hlive : s.liveRows = r :: others) {flavor : Flavor}
    (hread : r.dictWithExtraSpecs.fromDbObject = .ok flavor) {now : Nat} {s' : Databases}
    (hapi : s'.api.rows = flavor.toRow r.projects now :: s.api.rows)
    (hrest : s'.liveRows = others) : Progress s₀ s' := by
  obtain ⟨⟨hids, hnames, hflavorids, hapart⟩, hstamped, hkept⟩ := h
  obtain ⟨hid, hname, hflavorid⟩ := fromDbObject_ids hread
  have hmem : r ∈ s.liveRows := hlive ▸ List.mem_cons_self ..
  have hsub : ∀ t ∈ others, t ∈ s.liveRows := fun t ht => hlive ▸ List.mem_cons_of_mem _ ht
  rw [hlive, List.map_cons, List.nodup_cons] at hids hnames hflavorids
  refine ⟨⟨hrest ▸ hids.2, hrest ▸ hnames.2, hrest ▸ hflavorids.2, ?_⟩, ?_, ?_⟩
  · -- the copy has the identifiers of the flavor that went, so no other flavor's
    intro t ht
    rw [hrest] at ht
    rintro ⟨a, ha, hcollide⟩
    rw [hapi] at ha
    rcases List.mem_cons.mp ha with rfl | ha
    · rcases hcollide with h | h | h
      · exact hids.1 (List.mem_map.mpr ⟨t, ht, h.symm.trans hid⟩)
      · exact hnames.1 (List.mem_map.mpr ⟨t, ht, h.symm.trans hname⟩)
      · exact hflavorids.1 (List.mem_map.mpr ⟨t, ht, h.symm.trans hflavorid⟩)
    · exact hapart t (hsub t ht) ⟨a, ha, hcollide⟩
  · intro t ht
    rw [hrest] at ht
    exact hstamped t (hsub t ht)
  · intro t ht
    rcases hkept t ht with hstill | ⟨a, ha, hsame⟩
    · rw [hlive] at hstill
      rcases List.mem_cons.mp hstill with rfl | hother
      · refine .inr ⟨_, hapi ▸ List.mem_cons_self .., ⟨flavor, hread, ?_⟩, fun p => ?_⟩
        · exact fromDbObject_copy (live_of_mem hmem).2 (hstamped t hmem) hread t.projects now
        · exact List.mem_dedup
      · exact .inl (hrest ▸ hother)
    · exact .inr ⟨a, hapi ▸ List.mem_cons_of_mem _ ha, hsame⟩

/-! ## One round -/

/-- A live flavor without a copy is read from the main database. -/
theorem wp_getById (hadmin : ctxt.isAdmin = true) (hhide : ctxt.readDeleted = "no")
    (h : Clean s) (hr : r ∈ s.liveRows) :
    wp outsideWindow (fun o s' => s' = s ∧ match o with
        | .returned flavor => r.dictWithExtraSpecs.fromDbObject = .ok flavor
        | .raised e => ∃ text, e = .valueError text
        | .crashed => True)
      (getById ctxt r.id) s := by
  have hshown : ∀ t : FlavorRow, shownTo ctxt t = true := by
    intro t
    unfold shownTo
    rw [hadmin, Bool.true_or]
  have hnone : (flavorGetQueryFromDb ctxt s.api).find? (fun t => t.id == r.id) = none := by
    rw [List.find?_eq_none]
    intro a ha hk
    exact h.apart r hr ⟨a, List.mem_of_mem_filter ha, .inl (beq_iff_eq.mp hk)⟩
  have hmain : flavorGetQuery ctxt none s.main = .ok s.liveRows := by
    unfold flavorGetQuery
    rw [modelQuery_hides hhide]
    refine congrArg Except.ok (List.filter_congr (fun t _ => ?_))
    rw [hshown, Bool.and_true]
    rfl
  have hfind := find_of_nodup h.ids hr
  unfold getById flavorGetFromDb flavorGet
  rw [wp_bind, wp_tryCatch, wp_bind, wp_compute, requireContext_admin hadmin]
  dsimp only
  rw [wp_reading, hnone]
  refine ⟨fun _ => ⟨rfl, trivial⟩, ?_⟩
  show wp outsideWindow _ (_ >>= _) s
  rw [wp_bind, wp_compute]
  dsimp only
  rw [wp_reading, hmain]
  dsimp only [bind, Except.bind]
  rw [hfind]
  refine ⟨fun _ => ⟨rfl, trivial⟩, ?_⟩
  dsimp only
  rw [wp_compute]
  cases hread : r.dictWithExtraSpecs.fromDbObject with
  | ok flavor => exact ⟨rfl, rfl⟩
  | error e => exact ⟨rfl, fromDbObject_raises _ e hread⟩

/-- Its projects, too. -/
theorem wp_loadProjects (h : Clean s) (hlive : s.liveRows = r :: others) :
    wp outsideWindow (fun o s' => s' = s ∧ match o with
        | .returned projects => projects = r.projects
        | .raised _ => False
        | .crashed => True)
      (loadProjects r.flavorid) s := by
  have hmem : r ∈ s.liveRows := hlive ▸ List.mem_cons_self ..
  have hnone : s.api.rows.find? (fun t => t.flavorid == r.flavorid) = none := by
    rw [List.find?_eq_none]
    intro a ha hk
    exact h.apart r hmem ⟨a, ha, .inr (.inr (beq_iff_eq.mp hk))⟩
  have hone : s.liveRows.filter (fun t => t.flavorid == r.flavorid) = [r] := by
    have hflavorids := h.flavorids
    rw [hlive] at hflavorids ⊢
    exact filter_head_eq hflavorids
  unfold loadProjects getProjectsFromDb
  rw [wp_tryCatch, wp_reading, hnone]
  refine ⟨fun _ => ⟨rfl, trivial⟩, ?_⟩
  show wp outsideWindow _ (flavorAccessGetByFlavorId r.flavorid) s
  unfold flavorAccessGetByFlavorId
  rw [wp_reading, hone]
  exact ⟨fun _ => ⟨rfl, trivial⟩, rfl, rfl⟩

/-- The copy is made. -/
theorem wp_flavorCreate (h : Clean s) (hr : r ∈ s.liveRows) {flavor : Flavor}
    (hread : r.dictWithExtraSpecs.fromDbObject = .ok flavor) (projects : List String) :
    wp outsideWindow (fun o s' => match o with
        | .returned _ => s'.main = s.main ∧
            ∃ now, s'.api.rows = flavor.toRow projects now :: s.api.rows
        | .raised _ => False
        | .crashed => s' = s)
      (flavorCreate flavor projects) s := by
  obtain ⟨hid, hname, hflavorid⟩ := fromDbObject_ids hread
  unfold flavorCreate
  rw [wp_transaction]
  refine ⟨fun _ => rfl, fun now => ?_⟩
  unfold ApiFlavors.insert
  rw [dif_neg, dif_neg, dif_neg]
  · exact ⟨rfl, now, rfl⟩
  · intro hmem
    obtain ⟨a, ha, hk⟩ := List.mem_map.mp hmem
    exact h.apart r hr ⟨a, ha, .inr (.inl (hk.trans hname))⟩
  · intro hmem
    obtain ⟨a, ha, hk⟩ := List.mem_map.mp hmem
    exact h.apart r hr ⟨a, ha, .inr (.inr (hk.trans hflavorid))⟩
  · intro hmem
    obtain ⟨a, ha, hk⟩ := List.mem_map.mp hmem
    exact h.apart r hr ⟨a, ha, .inl (hk.trans hid)⟩

/-- The original is deleted, and no crash falls before that. -/
theorem wp_destroy (hnames : (s.liveRows.map (fun t => t.name)).Nodup)
    (hlive : s.liveRows = r :: others) {flavor : Flavor} (hname : flavor.name = r.name)
    (hflavorid : flavor.flavorid = r.flavorid) (hardDelete : Bool) :
    wp outsideWindow (fun o s' => match o with
        | .returned _ => s'.api = s.api ∧ s'.liveRows = others
        | _ => False)
      (destroyOriginal hardDelete flavor) s := by
  unfold destroyOriginal
  rw [hname, hflavorid]
  have hmem : r ∈ s.liveRows := hlive ▸ List.mem_cons_self ..
  cases hardDelete with
  | true =>
    rw [if_pos rfl]
    unfold destroyFlavorHard
    rw [wp_transaction]
    refine ⟨fun hsafe => hsafe.2 rfl, fun _ => ⟨rfl, ?_⟩⟩
    rw [hlive] at hnames
    show (s.main.filter (fun t => t.name != r.name)).filter MainFlavorRow.live = others
    rw [List.filter_comm]
    show s.liveRows.filter (fun t => t.name != r.name) = others
    rw [hlive]
    exact filter_head_ne hnames
  | false =>
    rw [if_neg Bool.false_ne_true]
    unfold flavorDestroy
    rw [wp_transaction]
    refine ⟨fun hsafe => hsafe.1 rfl, fun now => ?_⟩
    have hhit : MainFlavorRow.isLive r.flavorid r = true :=
      Bool.and_eq_true_iff.mpr ⟨(live_of_mem hmem).2, beq_iff_eq.mpr rfl⟩
    dsimp only
    rw [if_pos (List.any_eq_true.mpr ⟨r, (live_of_mem hmem).1, hhit⟩)]
    refine ⟨rfl, ?_⟩
    show (updateFirst _ _ s.main).filter MainFlavorRow.live = others
    rw [filter_updateFirst_dead]
    · show s.liveRows.eraseP _ = others
      rw [hlive, List.eraseP_cons_of_pos hhit]
    · exact fun t ht => (Bool.and_eq_true_iff.mp ht).1
    · intro t _ hdead
      have hzero : t.id = 0 := beq_iff_eq.mp hdead
      have := t.id_pos
      omega

/-- **One round** moves the first live flavor and counts it, or ends the call. -/
theorem wp_migrateFlavor (hadmin : ctxt.isAdmin = true) (hhide : ctxt.readDeleted = "no")
    (h : Progress s₀ s) (hlive : s.liveRows = r :: others) (hardDelete : Bool) (countHit : Nat) :
    wp outsideWindow (fun o s' => match o with
        | .returned n => Progress s₀ s' ∧ s'.liveRows = others ∧ n = countHit + 1
        | .raised _ => Progress s₀ s'
        | .crashed => Progress s₀ s')
      (migrateFlavor ctxt hardDelete countHit r.id) s := by
  have hmem : r ∈ s.liveRows := hlive ▸ List.mem_cons_self ..
  unfold migrateFlavor
  rw [wp_tryCatch, wp_bind]
  refine wp_mono (wp_getById hadmin hhide h.clean hmem) (fun o s₁ ho => ?_)
  obtain ⟨rfl, ho⟩ := ho
  cases o with
  | crashed => exact h
  | raised e =>
    -- a null where the object has none: nobody catches it
    obtain ⟨text, rfl⟩ := ho
    exact h
  | returned flavor =>
    obtain ⟨-, hname, hflavorid⟩ := fromDbObject_ids ho
    have hname' : flavor.name = r.name := hname
    have hflavorid' : flavor.flavorid = r.flavorid := hflavorid
    dsimp only
    rw [wp_bind, hflavorid']
    refine wp_mono (wp_loadProjects h.clean hlive) (fun o' s₂ ho' => ?_)
    obtain ⟨rfl, ho'⟩ := ho'
    cases o' with
    | crashed => exact h
    | raised e => exact absurd ho' id
    | returned projects =>
      subst ho'
      dsimp only
      rw [wp_bind]
      refine wp_mono (wp_flavorCreate h.clean hmem ho r.projects) (fun o'' s₃ hcreated => ?_)
      cases o'' with
      | crashed => exact hcreated ▸ h
      | raised e => exact absurd hcreated id
      | returned u =>
        obtain ⟨hmain, now, hapi⟩ := hcreated
        have hlive₃ : s₃.liveRows = s₂.liveRows :=
          congrArg (fun rows => rows.filter MainFlavorRow.live) hmain
        dsimp only
        rw [wp_tryCatch, wp_bind]
        refine wp_mono (wp_destroy (hlive₃ ▸ h.clean.names) (hlive₃.trans hlive) hname'
          hflavorid' hardDelete)
          (fun last s₄ hgone => ?_)
        cases last with
        | crashed => exact absurd hgone id
        | raised e => exact absurd hgone id
        | returned u =>
          have hmoved := h.move hlive ho (hgone.1 ▸ hapi) hgone.2
          exact ⟨hmoved, hgone.2, rfl⟩

/-! ## Calls and runs -/

/-- A call that completes has moved everything it found, from the front. -/
theorem wp_migrateFlavors (hadmin : ctxt.isAdmin = true) (hhide : ctxt.readDeleted = "no")
    (h : Progress s₀ s) (count : Nat) (hardDelete : Bool) :
    wp outsideWindow (fun o s' => match o with
        | .returned r => Progress s₀ s' ∧ r.1 = min count s.liveRows.length ∧ r.2 = r.1 ∧
            s'.liveRows = s.liveRows.drop count
        | _ => Progress s₀ s')
      (migrateFlavors ctxt count hardDelete) s := by
  unfold migrateFlavors getMainDbFlavorIds
  refine wp_mono (wp_migrateBatch outsideWindow Databases.liveRows (fun r => r.id)
    (migrateFlavor ctxt hardDelete) (P := Progress s₀) (fun s r others hit h hlive => ?_) h count)
    (fun o s' ho => ?_)
  · refine wp_mono (wp_migrateFlavor hadmin hhide h hlive hardDelete hit) (fun o s' ho => ?_)
    cases o <;> exact ho
  · cases o <;> exact ho

/-- The arguments of a call: the batch size, and whether originals go for good. -/
abbrev Args : Type := Nat × Bool

def migration (ctxt : Context) (args : Args) : FlavorProg (Nat × Nat) :=
  migrateFlavors ctxt args.1 args.2

/-- The flavor is in the API database, once and with its attributes, and not live in the
main one. -/
def Moved (s : Databases) (r : MainFlavorRow) : Prop :=
  (∃ a ∈ s.api.rows, SameFlavor a r ∧ ∀ b ∈ s.api.rows,
    b.id = r.id ∨ b.name = r.name ∨ b.flavorid = r.flavorid → b = a) ∧
  ∀ t ∈ s.liveRows, t.id ≠ r.id

/-- The copy is the only row with one of its identifiers. -/
theorem SameFlavor.unique {a : FlavorRow} (h : SameFlavor a r) (ha : a ∈ s.api.rows)
    {b : FlavorRow} (hb : b ∈ s.api.rows)
    (hcollide : b.id = r.id ∨ b.name = r.name ∨ b.flavorid = r.flavorid) : b = a := by
  obtain ⟨⟨flavor, hread, hcopy⟩, -⟩ := h
  obtain ⟨hid, hname, hflavorid⟩ := fromDbObject_ids hread
  obtain ⟨hid', hname', hflavorid'⟩ := fromDbObject_ids hcopy
  rcases hcollide with hb' | hb' | hb'
  · exact List.inj_on_of_nodup_map s.api.uniqId hb ha (hb'.trans (hid.symm.trans hid'))
  · exact List.inj_on_of_nodup_map s.api.uniqName hb ha (hb'.trans (hname.symm.trans hname'))
  · exact List.inj_on_of_nodup_map s.api.uniqFlavorid hb ha
      (hb'.trans (hflavorid.symm.trans hflavorid'))

theorem run_progress (hadmin : ctxt.isAdmin = true) (hhide : ctxt.readDeleted = "no")
    {calls : List (Args × Outcome NovaError (Nat × Nat))} {s' : Databases} (h : Progress s₀ s)
    (hrun : Run (CallStep outsideWindow (migration ctxt)) s calls s') : Progress s₀ s' := by
  refine hrun.invariant (fun l s s' hs hstep => ?_) h
  refine CallStep.invariant (fun args s hs => ?_) hs hstep
  refine wp_mono (wp_migrateFlavors hadmin hhide hs args.1 args.2) (fun o s' ho => ?_)
  cases o with
  | returned r => exact ho.1
  | raised e => exact ho
  | crashed => exact ho

/-- **Flavors are moved**, if no crash falls before the deletion of an original. -/
theorem flavors_moved (hadmin : ctxt.isAdmin = true) (hhide : ctxt.readDeleted = "no")
    (hclean : Clean s) (hstamped : ∀ r ∈ s.liveRows, r.stamped = true) {s' : Databases}
    (hrun : Finished outsideWindow (migration ctxt) Prod.fst s s') :
    ∀ r ∈ s.liveRows, Moved s' r := by
  obtain ⟨calls, s₁, ⟨count, hardDelete⟩, found, hit, -, hrun, hcount, hlast, hstop⟩ := hrun
  have h₁ := run_progress hadmin hhide ⟨hclean, hstamped, fun r hr => .inl hr⟩ hrun
  obtain ⟨h', hfound, hhit, hrest⟩ :=
    wp_iff_exec.mp (wp_migrateFlavors hadmin hhide h₁ count hardDelete) _ _ hlast
  have hcount' : 1 ≤ count := hcount
  have hfound' : found = min count s₁.liveRows.length := hfound
  have hhit' : hit = found := hhit
  have hempty : s'.liveRows = [] := by
    rw [hrest]
    exact List.drop_eq_nil_of_le (by omega)
  intro r hr
  rw [Moved, hempty]
  refine ⟨?_, fun t ht => absurd ht List.not_mem_nil⟩
  rcases h'.kept r hr with hlive | ⟨a, ha, hsame⟩
  · rw [hempty] at hlive
    exact absurd hlive List.not_mem_nil
  · exact ⟨a, ha, hsame, fun b hb hcollide => hsame.unique ha hb hcollide⟩

end PolarBear.Flavors
