import PolarBear.Lib.Transition
import PolarBear.Services.Service

/-!
# The minimum version over time

Code that negotiates by `service_get_minimum_version` relies on the minimum
never going back: `_check_minimum_version` says so, and lets neither a creation
nor an update of an older service through. Only `save` calls it. And what it
compares is the version of the object, which need not be the version of the row
that ends up in the table.

`minimum_version_kept` gives the exact boundary for one call and, for runs, that
the minimum of every binary only rises as long as every call stays within it.
-/

namespace PolarBear.Services

/-- A `create` or `save` call: its object, what the process and the database
contribute. -/
inductive Call where
  | create (enableNewServices : Bool) (reported : Constraint) (id : Nat) (o : ServiceObject)
  | save (cache : VersionCache) (now : Nat) (o : ServiceObject)

/-- The outcome of a call: the new table and the row it wrote, or an
exception. -/
def Call.run (t : ServiceTable) : Call → Except ServiceError (ServiceTable × ServiceRow)
  | .create enable reported id o => Services.create enable reported id o t
  | .save cache now o => Services.save cache now o t

/-- The row a call writes unless it raises. -/
def Call.row (t : ServiceTable) : Call → Option ServiceRow
  | .create enable _ id o => some (o.changes.newRow enable id)
  | .save _ now o => (o.id.bind t.byId).map (o.changes.onRow now)

/-- The table after a call; an exception leaves it alone. -/
def Call.after (t : ServiceTable) (c : Call) : ServiceTable :=
  match c.run t with
  | .ok (t', _) => t'
  | .error _ => t

/-- The minimum over the services of a binary is not below what it was, if there
were services and there are. -/
def NotLowered (binary : String) (t t' : ServiceTable) : Prop :=
  t.services binary ≠ [] → t'.services binary ≠ [] → t.minimum binary ≤ t'.minimum binary

/-- Writing the row lowers the minimum of a binary: the row is one of its
services with a lower version, or it stops being one and takes the only versions
with it, leaving nulls. -/
def Lowers (t : ServiceTable) (binary : String) (row : ServiceRow) : Prop :=
  t.services binary ≠ [] ∧
    ((counted binary row = true ∧ ∃ v, row.version = some v ∧ v < t.minimum binary) ∨
      (counted binary row = false ∧ 0 < t.minimum binary ∧
        (∃ r ∈ t.services binary, r.id ≠ row.id) ∧
        ∀ r ∈ t.services binary, r.id ≠ row.id → r.version = none))

/-! ## What a call writes -/

/-- **What a call writes**: its row. A row it replaces keeps its version unless
a new one is written over it. -/
theorem call_wrote {c : Call} {t t' : ServiceTable} {row : ServiceRow}
    (h : c.run t = .ok (t', row)) :
    c.row t = some row ∧ Wrote t row t' ∧
      ∀ r ∈ t.rows, r.id = row.id → r.version ≠ none → row.version ≠ none := by
  cases c with
  | create enable reported id o =>
    have hcreate : Services.create enable reported id o t = .ok (t', row) := h
    unfold Services.create serviceCreate at hcreate
    split at hcreate
    · cases hcreate
    · dsimp only at hcreate
      split at hcreate
      · next t₁ hinsert =>
        cases hcreate
        exact ⟨rfl, wrote_insert hinsert, fun _ _ _ _ => by simp [ServiceChanges.newRow]⟩
      · cases hcreate
  | save cache now o =>
    have hsave : Services.save cache now o t = .ok (t', row) := h
    obtain ⟨-, id, hid, hupdate⟩ := save_ok hsave
    obtain ⟨old, hold, hrow, hput⟩ := serviceUpdate_ok hupdate
    obtain ⟨hmem, -, -⟩ := byId_some hold
    have hrowid : old.id = row.id := by rw [hrow]; rfl
    refine ⟨?_, wrote_update hmem hrowid hput, fun r hr hre hv => ?_⟩
    · show (o.id.bind t.byId).map _ = _
      rw [hid, Option.bind_some, hold, hrow]
      rfl
    · rw [t.eq_of_id hr hmem (hre.trans hrowid.symm)] at hv
      rw [hrow]
      unfold ServiceChanges.onRow
      cases o.changes.version with
      | none => exact hv
      | some v => simp

/-! ## One call -/

section

variable {t t' : ServiceTable} {row : ServiceRow} {binary : String}

theorem mem_services_wrote (hwrote : Wrote t row t') (r : ServiceRow) :
    r ∈ t'.services binary ↔
      (r = row ∧ counted binary row = true) ∨ (r ∈ t.services binary ∧ r.id ≠ row.id) := by
  rw [mem_services, mem_services, hwrote r]
  constructor
  · intro h
    obtain ⟨hr | ⟨hr, hne⟩, hc⟩ := h
    · exact Or.inl ⟨hr, hr ▸ hc⟩
    · exact Or.inr ⟨⟨hr, hc⟩, hne⟩
  · intro h
    rcases h with ⟨hr, hc⟩ | ⟨⟨hr, hc⟩, hne⟩
    · exact ⟨Or.inl hr, hr ▸ hc⟩
    · exact ⟨Or.inr ⟨hr, hne⟩, hc⟩

/-- A row that lowers the minimum does. -/
theorem not_notLowered_of_lowers (hwrote : Wrote t row t') (h : Lowers t binary row) :
    ¬ NotLowered binary t t' := by
  obtain ⟨hne, hcase⟩ := h
  intro hkept
  rcases hcase with ⟨hc, v, hv, hlt⟩ | ⟨hc, hpos, ⟨r, hr, hrid⟩, hnull⟩
  · have hmem : row ∈ t'.services binary := (mem_services_wrote hwrote row).mpr (Or.inl ⟨rfl, hc⟩)
    have hle := hkept hne (List.ne_nil_of_mem hmem)
    have := minimum_le hmem hv
    omega
  · have hmem : r ∈ t'.services binary := (mem_services_wrote hwrote r).mpr (Or.inr ⟨hr, hrid⟩)
    have hle := hkept hne (List.ne_nil_of_mem hmem)
    -- what is left has null versions only
    have hzero : t'.minimum binary = 0 := by
      rcases minimum_attained t' binary with ⟨s, hs, hv⟩ | hzero
      · rcases (mem_services_wrote hwrote s).mp hs with ⟨-, hcs⟩ | ⟨hst, hsid⟩
        · rw [hc] at hcs
          cases hcs
        · rw [hnull s hst hsid] at hv
          cases hv
      · exact hzero.1
    omega

/-- Every other row keeps it. -/
theorem notLowered_of_not_lowers (hwrote : Wrote t row t')
    (hversion : ∀ r ∈ t.rows, r.id = row.id → r.version ≠ none → row.version ≠ none)
    (h : ¬ Lowers t binary row) : NotLowered binary t t' := by
  intro hne hne'
  rcases minimum_attained t' binary with ⟨s, hs, hv⟩ | ⟨hzero, hnull⟩
  · rcases (mem_services_wrote hwrote s).mp hs with ⟨hrow, hc⟩ | ⟨hst, -⟩
    · -- the minimum is the written row's version
      by_contra hlt
      exact h ⟨hne, Or.inl ⟨hc, t'.minimum binary, hrow ▸ hv, by omega⟩⟩
    · exact minimum_le hst hv
  · -- no version is left: there was none before, or the row took them away
    by_contra hlt
    rcases minimum_attained t binary with ⟨s, hs, hv⟩ | ⟨hz, -⟩
    · have hothers : ∀ r ∈ t.services binary, r.id ≠ row.id → r.version = none := fun r hr hrid =>
        hnull r ((mem_services_wrote hwrote r).mpr (Or.inr ⟨hr, hrid⟩))
      have hsid : s.id = row.id := by
        by_contra hsid
        rw [hothers s hs hsid] at hv
        cases hv
      have hrow : row.version ≠ none :=
        hversion s (mem_services.mp hs).1 hsid (by rw [hv]; simp)
      have hcount : counted binary row = false := by
        by_contra hc
        exact hrow (hnull row ((mem_services_wrote hwrote row).mpr
          (Or.inl ⟨rfl, by simpa using hc⟩)))
      obtain ⟨r, hr⟩ := List.exists_mem_of_ne_nil _ hne'
      rcases (mem_services_wrote hwrote r).mp hr with ⟨-, hc⟩ | ⟨hrt, hrid⟩
      · rw [hcount] at hc
        cases hc
      · exact h ⟨hne, Or.inr ⟨hcount, by omega, ⟨r, hrt, hrid⟩, hothers⟩⟩
    · omega

end

/-- The check passes only on a version that is at least the minimum. -/
theorem version_of_checked {cache : VersionCache} (hcache : cache.caching = false)
    {t : ServiceTable} {o : ServiceObject} (h : checkMinimumVersion cache t o = .ok ()) :
    ∃ v, o.version = some v ∧ t.minimum o.binary ≤ v := by
  unfold checkMinimumVersion at h
  cases hnova : Py.startsWith "nova-" o.binary with
  | false =>
    rw [getMinimumVersion_error cache t hnova] at h
    cases h
  | true =>
    obtain ⟨cache', hmin⟩ := getMinimumVersion_eq hcache t hnova
    rw [hmin] at h
    simp only [bind, Except.bind] at h
    split at h
    · cases h
    · next hold =>
      unfold olderThan at hold
      cases hv : o.version with
      | none => simp [hv] at hold
      | some v => exact ⟨v, rfl, by simpa [hv] using hold⟩

/-- **What the check is good for**: a `save` that writes the object's version,
made without a cache, writes none below the minimum of its binary. -/
theorem save_checked {cache : VersionCache} (hcache : cache.caching = false) {now : Nat}
    {o : ServiceObject} {t t' : ServiceTable} {row : ServiceRow} {v : Nat}
    (hv : o.changes.version = some v) (h : save cache now o t = .ok (t', row)) :
    row.version = some v ∧ t.minimum o.binary ≤ v := by
  obtain ⟨hcheck, id, -, hupdate⟩ := save_ok h
  obtain ⟨old, -, hrow, -⟩ := serviceUpdate_ok hupdate
  obtain ⟨w, hw, hle⟩ := version_of_checked hcache hcheck
  have hvw : some v = some w := (o.version_eq v hv).symm.trans hw
  cases hvw
  refine ⟨?_, hle⟩
  rw [hrow]
  unfold ServiceChanges.onRow
  rw [hv]

/-- The call goes through: a creation of a new object that the constraints
allow, or an update that passes the check, of a row that exists and may be
changed so. -/
def Call.accepted (t : ServiceTable) : Call → Bool
  | .create enable _ id o => o.id.isNone && (t.insert? (o.changes.newRow enable id)).isSome
  | .save cache now o => (checkMinimumVersion cache t o).isOk &&
      ((o.id.bind t.byId).bind (fun old => t.update? (o.changes.onRow now old))).isSome

/-- Such calls are those that do not raise. -/
theorem accepted_iff (c : Call) (t : ServiceTable) :
    c.accepted t = true ↔ ∃ p, c.run t = .ok p := by
  cases c with
  | create enable reported id o =>
    show _ ↔ ∃ p, Services.create enable reported id o t = .ok p
    unfold Services.create serviceCreate
    dsimp only [Call.accepted]
    cases o.id with
    | some _ => simp
    | none =>
      cases hinsert : t.insert? (o.changes.newRow enable id) with
      | none => simp
      | some t' => simp
  | save cache now o =>
    show _ ↔ ∃ p, Services.save cache now o t = .ok p
    unfold Services.save serviceUpdate
    dsimp only [Call.accepted]
    cases checkMinimumVersion cache t o with
    | error e => simp [bind, Except.bind, Except.isOk, Except.toBool]
    | ok u =>
      cases o.id with
      | none => simp [bind, Except.bind]
      | some id =>
        cases hold : t.byId id with
        | none => simp [bind, Except.bind, hold]
        | some old =>
          cases hput : t.update? (o.changes.onRow now old) with
          | none => simp [bind, Except.bind, hold, hput]
          | some t' => simp [bind, Except.bind, Except.isOk, Except.toBool, hold, hput]

/-- One call keeps the minimum of a binary exactly if it raises or its row does
not lower it. -/
theorem call_notLowered_iff (c : Call) (t : ServiceTable) (binary : String) :
    NotLowered binary t (c.after t) ↔
      ¬ (c.accepted t = true ∧ ∃ row, c.row t = some row ∧ Lowers t binary row) := by
  rw [accepted_iff]
  unfold Call.after
  cases hrun : c.run t with
  | error e =>
    refine ⟨fun _ h => ?_, fun _ _ _ => Nat.le_refl _⟩
    obtain ⟨p, hp⟩ := h.1
    cases hp
  | ok p =>
    obtain ⟨t', row⟩ := p
    obtain ⟨hrow, hwrote, hversion⟩ := call_wrote hrun
    dsimp only
    constructor
    · intro h hbad
      obtain ⟨-, row', hrow', hlow⟩ := hbad
      rw [hrow] at hrow'
      cases hrow'
      exact not_notLowered_of_lowers hwrote hlow h
    · intro h
      exact notLowered_of_not_lowers hwrote hversion
        (fun hlow => h ⟨⟨_, rfl⟩, row, hrow, hlow⟩)

/-! ## Runs -/

/-- The condition on a step of a run: the call raises, or its row lowers the
minimum of no binary and does not take a service out of one (by forcing it down
or moving it). -/
def Call.Safe (t : ServiceTable) (c : Call) : Prop :=
  c.accepted t = true → ∀ row, c.row t = some row → ∀ binary,
    ¬ Lowers t binary row ∧
      ∀ r ∈ t.services binary, r.id = row.id → counted binary row = true

/-- A call as a step, if it is safe. -/
def safeStep (c : Call) (t t' : ServiceTable) : Prop := c.Safe t ∧ t' = c.after t

/-- A safe call keeps every binary's services and its minimum. -/
theorem safeStep_kept {c : Call} {t t' : ServiceTable} (h : safeStep c t t') (binary : String) :
    (t.services binary ≠ [] → t'.services binary ≠ []) ∧
      t.minimum binary ≤ t'.minimum binary := by
  obtain ⟨hsafe, rfl⟩ := h
  have hnot : NotLowered binary t (c.after t) := by
    rw [call_notLowered_iff]
    intro h
    obtain ⟨hacc, row, hrow, hlow⟩ := h
    exact (hsafe hacc row hrow binary).1 hlow
  have hne : t.services binary ≠ [] → (c.after t).services binary ≠ [] := by
    intro hne
    obtain ⟨r, hr⟩ := List.exists_mem_of_ne_nil _ hne
    unfold Call.after
    cases hrun : c.run t with
    | error e => exact hne
    | ok p =>
      obtain ⟨t', row⟩ := p
      obtain ⟨hrow, hwrote, -⟩ := call_wrote hrun
      have hacc : c.accepted t = true := (accepted_iff c t).mpr ⟨_, hrun⟩
      by_cases hid : r.id = row.id
      · have hc := (hsafe hacc row hrow binary).2 r hr hid
        exact List.ne_nil_of_mem ((mem_services_wrote hwrote row).mpr (Or.inl ⟨rfl, hc⟩))
      · exact List.ne_nil_of_mem ((mem_services_wrote hwrote r).mpr (Or.inr ⟨hr, hid⟩))
  refine ⟨hne, ?_⟩
  by_cases hempty : t.services binary = []
  · -- without services the minimum is `0`
    have hzero : t.minimum binary = 0 := by
      unfold ServiceTable.minimum
      rw [hempty]
      rfl
    omega
  · exact hnot hempty (hne hempty)

/-- **The minimum version.** One call keeps the minimum of a binary exactly if
it raises or its row does not lower it; and over every run of safe calls, by any
processes, no minimum decreases. -/
theorem minimum_version_kept (t : ServiceTable) (binary : String) :
    (∀ c : Call, NotLowered binary t (c.after t) ↔
      ¬ (c.accepted t = true ∧ ∃ row, c.row t = some row ∧ Lowers t binary row)) ∧
    ∀ (t' : ServiceTable) (cs : List Call), Transition.Run safeStep t cs t' →
      t.minimum binary ≤ t'.minimum binary := by
  refine ⟨fun c => call_notLowered_iff c t binary, fun t' cs hrun => ?_⟩
  exact hrun.relates (R := fun t t' => t.minimum binary ≤ t'.minimum binary)
    (fun _ => Nat.le_refl _) (fun _ _ _ => Nat.le_trans)
    (fun c t t' h => (safeStep_kept h binary).2)

/-- A live `nova-compute` service. -/
def computeRow (id : Nat) (host : String) (version : Nat) : ServiceRow :=
  ⟨id, some host, some "nova-compute", some "compute", 0, false, none, none, false, some version, 0⟩

/-- The object an old process creates for its own host. -/
def oldService : ServiceObject where
  id := none
  binary := "nova-compute"
  version := some 9
  changes := { ServiceChanges.empty with
    host := some (some "old"), binary := some (some "nova-compute")
    topic := some (some "compute"), reportCount := some 0, version := some 9 }
  binary_eq := by
    intro b h
    cases h
    rfl
  version_eq := by
    intro v h
    cases h
    rfl

/-- **Creating an older service lowers the minimum**, from `15` to `9`. -/
theorem create_lowers_minimum :
    ¬ NotLowered "nova-compute" ⟨[computeRow 1 "new" 15], by decide⟩
      ((Call.create true .hostBinary 2 oldService).after
        ⟨[computeRow 1 "new" 15], by decide⟩) := by
  intro h
  exact absurd (h (by decide) (by decide)) (by decide)

end PolarBear.Services
