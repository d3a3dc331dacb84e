import PolarBear.Lib.Transition
import PolarBear.Services.Service

/-!
# `Service.start`: registering a service from several workers

The workers of one service start together, and each registers the service: it
looks the row up by host and binary, updates its version if found, and creates
it otherwise; if a sibling was faster, the insert violates a unique constraint
and the worker looks the row up again. Each database access is a step of its
own, and the steps of the workers interleave freely.

`registration_race_free`: when all workers are done there is one live row for
the host and binary and every worker holds it. The assumptions are those under
which a single worker succeeds. One of them is about the name of the binary:
updating a row of another version goes through `get_minimum_version`, which
refuses every binary whose name does not start with `nova-`.
-/

namespace PolarBear.Services

open PolarBear.Transition (Run)

/-- What the workers share: the service they register, the `SERVICE_VERSION` of
their code and the configuration. -/
structure Registration where
  host : String
  binary : String
  topic : String
  serviceVersion : Nat
  enableNewServices : Bool

variable (reg : Registration)

/-- The changes `_create_service_ref` writes. -/
def Registration.createChanges : ServiceChanges :=
  { ServiceChanges.empty with
    host := some (some reg.host), binary := some (some reg.binary)
    topic := some (some reg.topic), reportCount := some 0
    version := some reg.serviceVersion }

/-- The change `_update_service_ref` writes. -/
def Registration.updateChanges : ServiceChanges :=
  { ServiceChanges.empty with version := some reg.serviceVersion }

/-- The object `_update_service_ref` saves: the row it read, with the version of
the code. -/
def Registration.updated (r : ServiceRow) : ServiceObject where
  id := some r.id
  binary := reg.binary
  version := some reg.serviceVersion
  changes := reg.updateChanges
  binary_eq := by
    intro b h
    cases h
  version_eq := by
    intro v h
    cases h
    rfl

/-- Where a worker is in `start`, and what it has read. -/
inductive Pc where
  | lookup
  | check (ref : ServiceRow)
  | update (ref : ServiceRow)
  | insert
  | relookup
  | done (serviceRef : Option ServiceRow)
  | failed (e : ServiceError)

/-- A worker has finished, one way or the other. -/
def Pc.finished : Pc → Bool
  | .done _ => true
  | .failed _ => true
  | _ => false

/-- The table and the place of every worker. -/
structure Workers (ι : Type) where
  table : ServiceTable
  pc : ι → Pc

/-- One database access of a worker: the table and its place afterwards. The id
of a new row is any that no row has, and the database may report any constraint
when an insert fails. -/
inductive Access : ServiceTable → Pc → ServiceTable → Pc → Prop
  | found {t : ServiceTable} {r : ServiceRow} :
      t.byHostAndBinary reg.host reg.binary = some r → r.version = some reg.serviceVersion →
      Access t .lookup t (.done (some r))
  | outdated {t : ServiceTable} {r : ServiceRow} :
      t.byHostAndBinary reg.host reg.binary = some r → r.version ≠ some reg.serviceVersion →
      Access t .lookup t (.check r)
  | missing {t : ServiceTable} :
      t.byHostAndBinary reg.host reg.binary = none → Access t .lookup t .insert
  | checked {t : ServiceTable} {r : ServiceRow} :
      checkMinimumVersion .off t (reg.updated r) = .ok () → Access t (.check r) t (.update r)
  | tooOld {t : ServiceTable} {r : ServiceRow} {e : ServiceError} :
      checkMinimumVersion .off t (reg.updated r) = .error e → Access t (.check r) t (.failed e)
  | updated {t t' : ServiceTable} {r row : ServiceRow} {now : Nat} :
      serviceUpdate now r.id reg.updateChanges t = .ok (t', row) →
      Access t (.update r) t' (.done (some row))
  | notUpdated {t : ServiceTable} {r : ServiceRow} {now : Nat} {e : ServiceError} :
      serviceUpdate now r.id reg.updateChanges t = .error e →
      Access t (.update r) t (.failed e)
  | inserted {t t' : ServiceTable} {row : ServiceRow} {id : Nat} {reported : Constraint} :
      (∀ r ∈ t.rows, r.id ≠ id) →
      serviceCreate reg.enableNewServices reported id reg.createChanges t = .ok (t', row) →
      Access t .insert t' (.done (some row))
  | lost {t : ServiceTable} {id : Nat} {reported : Constraint} {e : ServiceError} :
      (∀ r ∈ t.rows, r.id ≠ id) →
      serviceCreate reg.enableNewServices reported id reg.createChanges t = .error e →
      Access t .insert t .relookup
  | again {t : ServiceTable} :
      Access t .relookup t (.done (t.byHostAndBinary reg.host reg.binary))

/-- A step of one worker; the others stay where they are. -/
def workerStep {ι : Type} (i : ι) (s s' : Workers ι) : Prop :=
  Access reg s.table (s.pc i) s'.table (s'.pc i) ∧ ∀ j, j ≠ i → s'.pc j = s.pc j

/-! ## Assumptions and invariant -/

/-- A live row of the host and binary. -/
def Registration.mine (r : ServiceRow) : Prop :=
  r.live = true ∧ r.host = some reg.host ∧ r.binary = some reg.binary

/-- The assumptions on the table: no live service of the binary is of a later
version, no live row of the host with another binary uses the topic, and the
name of the binary starts with `nova-` unless the row is of this version
already. -/
structure Registration.Assumed (t : ServiceTable) : Prop where
  version : ∀ r ∈ t.services reg.binary, ∀ v, r.version = some v → v ≤ reg.serviceVersion
  topic : ∀ r ∈ t.rows, r.live = true → r.host = some reg.host → r.topic = some reg.topic →
    r.binary = some reg.binary
  nova : Py.startsWith "nova-" reg.binary = true ∨
    ∀ r ∈ t.rows, reg.mine r → r.version = some reg.serviceVersion

/-- What a worker's place says about the table. -/
def Registration.Placed (t : ServiceTable) : Pc → Prop
  | .lookup => True
  | .check ref => Py.startsWith "nova-" reg.binary = true ∧ ∃ r ∈ t.rows, reg.mine r ∧ r.id = ref.id
  | .update ref => ∃ r ∈ t.rows, reg.mine r ∧ r.id = ref.id
  | .insert => True
  | .relookup => ∃ r ∈ t.rows, reg.mine r
  | .done serviceRef => ∃ ref, serviceRef = some ref ∧ ∃ r ∈ t.rows, reg.mine r ∧ r.id = ref.id
  | .failed _ => False

/-- The invariant of the registration. -/
structure Registration.Inv {ι : Type} (s : Workers ι) : Prop where
  assumed : reg.Assumed s.table
  placed : ∀ i, reg.Placed s.table (s.pc i)

/-! ## The table grows -/

section

variable {reg}

/-- The rows of the host and binary stay, by id. -/
def Registration.Grows (reg : Registration) (t t' : ServiceTable) : Prop :=
  ∀ r ∈ t.rows, reg.mine r → ∃ r' ∈ t'.rows, reg.mine r' ∧ r'.id = r.id

theorem grows_refl (t : ServiceTable) : reg.Grows t t := fun r hr hm => ⟨r, hr, hm, rfl⟩

/-- Writing a row of the host and binary keeps the others and itself. -/
theorem grows_wrote {t t' : ServiceTable} {row : ServiceRow} (h : Wrote t row t')
    (hrow : reg.mine row) : reg.Grows t t' := by
  intro r hr hm
  by_cases hid : r.id = row.id
  · exact ⟨row, (h row).mpr (Or.inl rfl), hrow, hid.symm⟩
  · exact ⟨r, (h r).mpr (Or.inr ⟨hr, hid⟩), hm, rfl⟩

/-- What a worker relies on survives the steps of the others. -/
theorem placed_mono {t t' : ServiceTable} (h : reg.Grows t t') {pc : Pc}
    (hpc : reg.Placed t pc) : reg.Placed t' pc := by
  have hstay : ∀ id, (∃ r ∈ t.rows, reg.mine r ∧ r.id = id) →
      ∃ r ∈ t'.rows, reg.mine r ∧ r.id = id := by
    intro id hex
    obtain ⟨r, hr, hm, hid⟩ := hex
    obtain ⟨r', hr', hm', hid'⟩ := h r hr hm
    exact ⟨r', hr', hm', hid'.trans hid⟩
  cases pc with
  | lookup => trivial
  | insert => trivial
  | failed e => exact hpc
  | check ref => exact ⟨hpc.1, hstay _ hpc.2⟩
  | update ref => exact hstay _ hpc
  | relookup =>
    obtain ⟨r, hr, hm⟩ := hpc
    obtain ⟨r', hr', hm', -⟩ := h r hr hm
    exact ⟨r', hr', hm'⟩
  | done serviceRef =>
    obtain ⟨ref, href, hex⟩ := hpc
    exact ⟨ref, href, hstay _ hex⟩

/-- A row of this version for the host and binary, with the topic of the
service or that of the row it replaces, keeps the assumptions. -/
theorem assumed_wrote {t t' : ServiceTable} {row : ServiceRow} (ht : reg.Assumed t)
    (h : Wrote t row t') (hrow : reg.mine row)
    (hversion : row.version = some reg.serviceVersion) : reg.Assumed t' where
  version := by
    intro r hr v hv
    obtain ⟨hmem, hc⟩ := mem_services.mp hr
    rcases (h r).mp hmem with heq | ⟨hr', -⟩
    · rw [heq, hversion] at hv
      cases hv
      exact Nat.le_refl _
    · exact ht.version r (mem_services.mpr ⟨hr', hc⟩) v hv
  topic := by
    intro r hr hl hh htop
    rcases (h r).mp hr with heq | ⟨hr', -⟩
    · rw [heq]
      exact hrow.2.2
    · exact ht.topic r hr' hl hh htop
  nova := by
    rcases ht.nova with hnova | hall
    · exact Or.inl hnova
    · refine Or.inr (fun r hr hm => ?_)
      rcases (h r).mp hr with heq | ⟨hr', -⟩
      · rw [heq]
        exact hversion
      · exact hall r hr' hm

/-! ## The steps that can fail -/

/-- Nobody is too old to register. -/
theorem checkMinimumVersion_ok {t : ServiceTable} (ht : reg.Assumed t)
    (hnova : Py.startsWith "nova-" reg.binary = true) (r : ServiceRow) :
    checkMinimumVersion .off t (reg.updated r) = .ok () := by
  have hle : t.minimum reg.binary ≤ reg.serviceVersion := by
    rcases minimum_attained t reg.binary with ⟨s, hs, hv⟩ | ⟨hzero, -⟩
    · exact ht.version s hs _ hv
    · omega
  have hoff : VersionCache.off.caching = false := rfl
  obtain ⟨cache', hmin⟩ := getMinimumVersion_eq hoff t hnova
  have hmin' : getMinimumVersion .off t (reg.updated r).binary = .ok (_, cache') := hmin
  have hold : olderThan (reg.updated r).version (t.minimum reg.binary) = false := by
    show decide (reg.serviceVersion < _) = false
    exact decide_eq_false (by omega)
  unfold checkMinimumVersion
  rw [hmin']
  show (if olderThan _ _ then _ else _) = _
  rw [hold]
  rfl

/-- Writing the version of a live row succeeds: no constraint is about it. -/
theorem update_version_ok (reg : Registration) {t : ServiceTable} {r : ServiceRow}
    (hr : r ∈ t.rows) (now : Nat) :
    ∃ t', t.update? (reg.updateChanges.onRow now r) = some t' := by
  have hkeep : ∀ x ∈ t.rows, ∀ y, compatible
      (if x.id = r.id then reg.updateChanges.onRow now r else x) y = compatible x y := by
    intro x hx y
    split
    · next hid => rw [t.eq_of_id hx hr hid]; rfl
    · rfl
  have hkeep' : ∀ x ∈ t.rows, ∀ y, compatible y
      (if x.id = r.id then reg.updateChanges.onRow now r else x) = compatible y x := by
    intro x hx y
    split
    · next hid => rw [t.eq_of_id hx hr hid]; rfl
    · rfl
  refine ofRows?_isSome (List.pairwise_map.mpr ?_)
  refine t.sound.imp_of_mem (fun {x y} hx hy hxy => ?_)
  have h₁ := hkeep x hx (if y.id = r.id then reg.updateChanges.onRow now r else y)
  have h₂ := hkeep' y hy x
  exact (h₁.trans h₂).trans hxy

theorem serviceUpdate_version_ok (reg : Registration) {t : ServiceTable} {r : ServiceRow}
    (hr : r ∈ t.rows) (hl : r.live = true) (now : Nat) :
    ∃ p, serviceUpdate now r.id reg.updateChanges t = .ok p := by
  have hfind : t.byId r.id = some r := by
    cases hold : t.byId r.id with
    | none =>
      have hnone := List.find?_eq_none.mp hold r hr
      simp [hl] at hnone
    | some old =>
      obtain ⟨hmem, -, hid⟩ := byId_some hold
      rw [t.eq_of_id hmem hr hid]
  obtain ⟨t', ht'⟩ := update_version_ok reg hr now
  unfold serviceUpdate
  rw [hfind]
  dsimp only
  rw [ht']
  exact ⟨_, rfl⟩

/-- An insert fails because a sibling was faster. -/
theorem mine_of_lost {t : ServiceTable} (ht : reg.Assumed t) {id : Nat}
    (hfresh : ∀ r ∈ t.rows, r.id ≠ id)
    (h : t.insert? (reg.createChanges.newRow reg.enableNewServices id) = none) :
    ∃ r ∈ t.rows, reg.mine r := by
  obtain ⟨r, hr, hclash⟩ := clash_of_insert?_none h
  refine ⟨r, hr, ?_⟩
  have hid : (r.id == id) = false := by simpa using hfresh r hr
  -- an insert is refused for one of the two constraints, the id being new
  have hcase : (sqlEq r.host (some reg.host) && sqlEq r.topic (some reg.topic) && r.deleted == 0)
      = true ∨ (sqlEq r.host (some reg.host) && sqlEq r.binary (some reg.binary)
        && r.deleted == 0) = true := by
    have hexp : (!(r.id == id) &&
        !(sqlEq r.host (some reg.host) && sqlEq r.topic (some reg.topic) && r.deleted == 0) &&
        !(sqlEq r.host (some reg.host) && sqlEq r.binary (some reg.binary) && r.deleted == 0))
          = false := hclash
    rw [hid] at hexp
    by_contra hno
    rw [not_or] at hno
    simp only [Bool.not_eq_true] at hno
    rw [hno.1, hno.2] at hexp
    exact absurd hexp (by decide)
  have hsql : ∀ {a : Option String} {b : String}, sqlEq a (some b) = true → a = some b := by
    intro a b hab
    cases a with
    | none => cases hab
    | some x => rw [show x = b by simpa [sqlEq] using hab]
  rcases hcase with hc | hc
  · simp only [Bool.and_eq_true] at hc
    exact ⟨hc.2, hsql hc.1.1, ht.topic r hr hc.2 (hsql hc.1.1) (hsql hc.1.2)⟩
  · simp only [Bool.and_eq_true] at hc
    exact ⟨hc.2, hsql hc.1.1, hsql hc.1.2⟩

/-! ## One step -/

/-- **One database access** keeps the assumptions and the rows, and leads the
worker to a place it may be in. -/
theorem access_kept {t t' : ServiceTable} {pc pc' : Pc} (ht : reg.Assumed t)
    (hpc : reg.Placed t pc) (h : Access reg t pc t' pc') :
    reg.Assumed t' ∧ reg.Grows t t' ∧ reg.Placed t' pc' := by
  cases h with
  | found hr hv =>
    obtain ⟨hmem, hl, hh, hb⟩ := byHostAndBinary_some hr
    exact ⟨ht, grows_refl t, _, rfl, _, hmem, ⟨hl, hh, hb⟩, rfl⟩
  | outdated hr hv =>
    -- only a binary of the prefix can have a row of another version
    obtain ⟨hmem, hl, hh, hb⟩ := byHostAndBinary_some hr
    have hnova := ht.nova.resolve_right (fun hall => hv (hall _ hmem ⟨hl, hh, hb⟩))
    exact ⟨ht, grows_refl t, hnova, _, hmem, ⟨hl, hh, hb⟩, rfl⟩
  | missing hr => exact ⟨ht, grows_refl t, trivial⟩
  | checked hcheck => exact ⟨ht, grows_refl t, hpc.2⟩
  | tooOld hcheck =>
    rw [checkMinimumVersion_ok ht hpc.1] at hcheck
    cases hcheck
  | @updated _ ref row now hput =>
    obtain ⟨old, hold, hrow, hput'⟩ := serviceUpdate_ok hput
    obtain ⟨r, hr, hm, hid⟩ := hpc
    obtain ⟨hmem, -, hoid⟩ := byId_some hold
    -- the row read for the update is the one found by host and binary
    have heq : old = r := t.eq_of_id hmem hr (hoid.trans hid.symm)
    have hwrote := wrote_update hmem (by rw [hrow]; rfl) hput'
    have hmine : reg.mine row := by
      rw [hrow, heq]
      exact hm
    refine ⟨assumed_wrote ht hwrote hmine (by rw [hrow]; rfl), grows_wrote hwrote hmine, ?_⟩
    exact ⟨_, rfl, _, (hwrote _).mpr (Or.inl rfl), hmine, rfl⟩
  | notUpdated hput =>
    obtain ⟨r, hr, hm, hid⟩ := hpc
    obtain ⟨p, hok⟩ := serviceUpdate_version_ok reg hr hm.1 _
    rw [← hid, hok] at hput
    cases hput
  | @inserted _ _ id _ hfresh hcreate =>
    unfold serviceCreate at hcreate
    dsimp only at hcreate
    split at hcreate
    · next t₁ hinsert =>
      cases hcreate
      have hwrote := wrote_insert hinsert
      have hmine : reg.mine (reg.createChanges.newRow reg.enableNewServices id) :=
        ⟨rfl, rfl, rfl⟩
      refine ⟨assumed_wrote ht hwrote hmine rfl, grows_wrote hwrote hmine, ?_⟩
      exact ⟨_, rfl, _, (hwrote _).mpr (Or.inl rfl), hmine, rfl⟩
    · cases hcreate
  | lost hfresh hcreate =>
    unfold serviceCreate at hcreate
    dsimp only at hcreate
    split at hcreate
    · cases hcreate
    · next hinsert => exact ⟨ht, grows_refl t, mine_of_lost ht hfresh hinsert⟩
  | again =>
    obtain ⟨r, hr, hl, hh, hb⟩ := hpc
    cases hfind : t.byHostAndBinary reg.host reg.binary with
    | none =>
      have hnone := List.find?_eq_none.mp hfind r hr
      simp [hl, hh, hb] at hnone
    | some ref =>
      obtain ⟨hmem, hlr, hhr, hbr⟩ := byHostAndBinary_some hfind
      exact ⟨ht, grows_refl t, ref, rfl, ref, hmem, ⟨hlr, hhr, hbr⟩, rfl⟩

end

/-- The invariant survives a step of any worker. -/
theorem inv_step {ι : Type} (i : ι) (s s' : Workers ι) (hs : reg.Inv s)
    (h : workerStep reg i s s') : reg.Inv s' := by
  obtain ⟨hassumed, hgrows, hplaced⟩ := access_kept hs.assumed (hs.placed i) h.1
  refine ⟨hassumed, fun j => ?_⟩
  by_cases hj : j = i
  · rw [hj]
    exact hplaced
  · rw [h.2 j hj]
    exact placed_mono hgrows (hs.placed j)

/-! ## Whole runs -/

/-- **Registration is race-free**: whatever order the workers' database accesses
take, when all are done there is one live row for the host and binary, and every
worker holds it. -/
theorem registration_race_free {ι : Type} [Nonempty ι] {s s' : Workers ι} {is : List ι}
    (hstart : ∀ i, s.pc i = .lookup) (hassumed : reg.Assumed s.table)
    (hrun : Run (workerStep reg) s is s') (hdone : ∀ i, (s'.pc i).finished = true) :
    ∃ r ∈ s'.table.rows, reg.mine r ∧ (∀ r' ∈ s'.table.rows, reg.mine r' → r' = r) ∧
      ∀ i, ∃ ref, s'.pc i = .done (some ref) ∧ ref.id = r.id := by
  have hinv : reg.Inv s' := by
    refine Run.invariant (inv_step reg) hrun ⟨hassumed, fun i => ?_⟩
    rw [hstart i]
    trivial
  -- a finished worker holds a row
  have hheld : ∀ i, ∃ ref, s'.pc i = .done (some ref) ∧
      ∃ r ∈ s'.table.rows, reg.mine r ∧ r.id = ref.id := by
    intro i
    have hplaced := hinv.placed i
    have hfin := hdone i
    cases hpc : s'.pc i with
    | done serviceRef =>
      rw [hpc] at hplaced
      obtain ⟨ref, href, hrow⟩ := hplaced
      exact ⟨ref, by rw [href], hrow⟩
    | failed e =>
      rw [hpc] at hplaced
      exact hplaced.elim
    | lookup | check _ | update _ | insert | relookup =>
      rw [hpc] at hfin
      cases hfin
  have hunique : ∀ r ∈ s'.table.rows, ∀ r' ∈ s'.table.rows, reg.mine r → reg.mine r' →
      r' = r := fun r hr r' hr' hm hm' =>
    s'.table.eq_of_hostBinary hr' hr hm'.1 hm.1 hm'.2.1 hm.2.1 hm'.2.2 hm.2.2
  obtain ⟨-, -, r, hr, hm, -⟩ := hheld (Classical.arbitrary ι)
  refine ⟨r, hr, hm, fun r' hr' hm' => hunique r hr r' hr' hm hm', fun i => ?_⟩
  obtain ⟨ref, hpc, r', hr', hm', hid⟩ := hheld i
  exact ⟨ref, hpc, by rw [← hid, hunique r hr r' hr' hm hm']⟩

/-! ## Runs on either side -/

/-- A compute service with two workers. -/
def computeRegistration : Registration := ⟨"node1", "nova-compute", "compute", 15, true⟩

/-- The row either of them inserts. -/
def registeredRow : ServiceRow := computeRegistration.createChanges.newRow true 1

/-- The table without a row, and with that row. -/
def noServices : ServiceTable := ⟨[], ServiceTable.sound_nil⟩

def registeredTable : ServiceTable := ⟨[registeredRow], List.pairwise_singleton _ _⟩

/-- The places of two workers. -/
def places (first second : Pc) : Bool → Pc
  | false => first
  | true => second

theorem places_step {t t' : ServiceTable} {a a' b : Pc}
    (h : Access computeRegistration t a t' a') :
    workerStep computeRegistration false ⟨t, places a b⟩ ⟨t', places a' b⟩ := by
  refine ⟨h, fun j hj => ?_⟩
  cases j with
  | false => exact absurd rfl hj
  | true => rfl

theorem places_step' {t t' : ServiceTable} {a b b' : Pc}
    (h : Access computeRegistration t b t' b') :
    workerStep computeRegistration true ⟨t, places a b⟩ ⟨t', places a b'⟩ := by
  refine ⟨h, fun j hj => ?_⟩
  cases j with
  | false => rfl
  | true => exact absurd rfl hj

/-- Both workers find no row and both insert; the second one looks again. -/
theorem race_run : Run (workerStep computeRegistration)
    ⟨noServices, places .lookup .lookup⟩ [false, true, false, true, true]
    ⟨registeredTable, places (.done (some registeredRow)) (.done (some registeredRow))⟩ := by
  have hmissing : noServices.byHostAndBinary "node1" "nova-compute" = none := rfl
  have hcreated : serviceCreate true .hostBinary 1 computeRegistration.createChanges noServices
      = .ok (registeredTable, registeredRow) := rfl
  have hlost : serviceCreate true .hostBinary 2 computeRegistration.createChanges registeredTable
      = .error (.serviceBinaryExists (some "node1") (some "nova-compute")) := rfl
  refine .cons (places_step (.missing hmissing)) ?_
  refine .cons (places_step' (.missing hmissing)) ?_
  refine .cons (places_step (.inserted (fun r hr => nomatch hr) hcreated)) ?_
  refine .cons (places_step' (.lost (fun r hr => ?_) hlost)) ?_
  · rw [List.mem_singleton.mp hr]
    decide
  · exact .cons (places_step' .again) (.nil _)

theorem noServices_assumed : computeRegistration.Assumed noServices where
  version := fun r hr => nomatch hr
  topic := fun r hr => nomatch hr
  nova := Or.inl (by decide)

/-- After the race there is one row, and both workers hold it. -/
theorem registration_race_free_two :
    ∃ r ∈ registeredTable.rows, computeRegistration.mine r ∧
      (∀ r' ∈ registeredTable.rows, computeRegistration.mine r' → r' = r) ∧
      ∀ i, ∃ ref, places (.done (some registeredRow)) (.done (some registeredRow)) i
        = .done (some ref) ∧ ref.id = r.id :=
  registration_race_free computeRegistration (fun i => by cases i <;> rfl) noServices_assumed
    race_run (fun i => by cases i <;> rfl)

/-- A service whose binary has another prefix, after an upgrade. -/
def agentRegistration : Registration := ⟨"node1", "agent", "agent", 15, true⟩

/-- Its row, of the version before. -/
def agentRow : ServiceRow :=
  { agentRegistration.createChanges.newRow true 1 with version := some 14 }

def agentTable : ServiceTable := ⟨[agentRow], List.pairwise_singleton _ _⟩

/-- **A worker can fail**: no service is newer and no other binary has the
topic, but the version check refuses the name of the binary. And without any
worker there is no row. -/
theorem registration_fails :
    ((∀ r ∈ agentTable.services "agent", ∀ v, r.version = some v → v ≤ 15) ∧
      (∀ r ∈ agentTable.rows, r.live = true → r.host = some "node1" → r.topic = some "agent" →
        r.binary = some "agent") ∧
      Run (workerStep agentRegistration) (⟨agentTable, fun _ => .lookup⟩ : Workers Unit) [(), ()]
        ⟨agentTable, fun _ => .failed
          (.objectActionError "get_minimum_version" "Invalid binary prefix")⟩) ∧
    ∃ s' : Workers Empty,
      Run (workerStep agentRegistration) ⟨noServices, fun i => nomatch i⟩ [] s' ∧
        s'.table.rows = [] := by
  have hrow : ∀ r ∈ agentTable.rows, r = agentRow := fun r hr => List.mem_singleton.mp hr
  have hfound : agentTable.byHostAndBinary "node1" "agent" = some agentRow := rfl
  have hrefused : checkMinimumVersion .off agentTable (agentRegistration.updated agentRow)
      = .error (.objectActionError "get_minimum_version" "Invalid binary prefix") := rfl
  refine ⟨⟨fun r hr v hv => ?_, fun r hr _ _ _ => ?_, ?_⟩, _, .nil _, rfl⟩
  · rw [hrow r (mem_services.mp hr).1] at hv
    have hv14 : v = 14 := by simpa [agentRow] using hv.symm
    omega
  · rw [hrow r hr]
    rfl
  · have hlookup : workerStep agentRegistration () ⟨agentTable, fun _ => .lookup⟩
        ⟨agentTable, fun _ => .check agentRow⟩ :=
      ⟨.outdated hfound (by decide), fun j hj => absurd rfl hj⟩
    exact .cons hlookup (.cons ⟨.tooOld hrefused, fun j hj => absurd rfl hj⟩ (.nil _))

end PolarBear.Services
