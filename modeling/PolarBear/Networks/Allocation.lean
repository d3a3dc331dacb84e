import PolarBear.Db.Query
import PolarBear.Lib.GuardedUpdate
import PolarBear.Networks.FloatingIps

/-!
# Giving out floating ips

A project is given an address of a pool by two statements: one finds an address that nobody has,
the other marks it for the project, but only if nobody has it still. If it marked no row, another
caller was faster, and the whole is tried again, five times. Addresses are given back, and tied to
fixed ips, by such guarded statements too; `floating_ip_disassociate` alone writes what it read.

The statements of any number of callers may be interleaved. To its users the table is a map from
addresses to rows, on which each call acts at once (`addresses_linearizable`), and an address is
given to two callers only if it was given back in between.
-/

namespace PolarBear.Networks

open PolarBear.Db PolarBear.Transactions
open PolarBear.Transition (Run)
open PolarBear.Transactions.Prog (transaction reading compute)

/-! ## The tables -/

/-- A row of `floating_ips`, with its pool and what it is tied to. -/
structure PoolIp extends FloatingIpRow where
  pool : String
  fixedIpId : Option Nat
  host : Option String
  deriving DecidableEq, Repr

def PoolIp.live (r : PoolIp) : Bool := r.deleted == 0

/-- A row of `fixed_ips`; times are seconds. -/
structure FixedIp where
  id : Nat
  address : String
  networkId : Option Nat
  instanceUuid : Option String
  virtualInterfaceId : Option Nat
  host : Option String
  reserved : Bool
  leased : Bool
  allocated : Bool
  updatedAt : Option Nat
  deleted : Nat
  deriving DecidableEq, Repr

def FixedIp.live (r : FixedIp) : Bool := r.deleted == 0

/-- Both tables. -/
structure Addresses where
  floating : Keyed PoolIp String (fun r => r.id) (fun r => r.address) PoolIp.live
  fixed : Keyed FixedIp String FixedIp.id FixedIp.address FixedIp.live

def floatingIps : Part Addresses (Keyed PoolIp String (fun r => r.id) (fun r => r.address)
    PoolIp.live) :=
  ⟨Addresses.floating, fun t s => { s with floating := t }, fun _ _ => rfl⟩

/-- The exceptions. -/
inductive AddressError where
  | nova (e : NovaError)
  | noMoreFloatingIps
  | floatingIpAllocateFailed
  | floatingIpAssociateFailed (address : String)
  | floatingIpNotFoundForAddress (address : String)
  | fixedIpNotFoundForAddress (address : String)
  | invalidUuid (uuid : String)
  | noMoreFixedIps (net : Option Nat)
  | fixedIpNotFoundForNetwork (address : String) (networkUuid : Option Nat)
  | fixedIpAlreadyInUse (address instanceUuid : String)
  | fixedIpAssociateFailed (net : Option Nat)
  | retryRequest (inner : AddressError)
  deriving DecidableEq, Repr

/-- `retry_on_request`: what is tried again, and what is raised in the end. -/
def retryOnRequest : AddressError → Option AddressError
  | .retryRequest inner => some inner
  | _ => none

/-- The statements. -/
inductive Statement where
  | select
  | update
  deriving DecidableEq, Repr

/-- Programs on addresses. -/
abbrev AddressProg := Prog Choice Statement Addresses AddressError

/-- What raises an exception of the queries. -/
def fromNova {α : Type} (x : Except NovaError α) : AddressProg α := compute (x.mapError .nova)

/-- An `UPDATE` of floating ips: how many rows it changed. -/
def updateFloating (p : PoolIp → Bool) (f : PoolIp → PoolIp)
    (hf : Keyed.Keeps (fun r : PoolIp => r.id) (fun r => r.address) PoolIp.live f) :
    AddressProg Nat :=
  updateWhere .update floatingIps p (fun _ => f) (fun _ => hf)

/-- `authorize_project_context`. -/
def authorizeProjectContext (ctxt : Context) (projectId : String) : Except NovaError Unit :=
  if isUserContext ctxt && ctxt.projectId != some projectId then .error .forbidden else .ok ()

/-! ## The calls -/

/-- Nobody has it. -/
def PoolIp.free (pool : String) (r : PoolIp) : Bool :=
  r.deleted == 0 && r.fixedIpId == none && r.projectId == none && r.pool == pool

/-- What `params` change. -/
def PoolIp.give (projectId : String) (autoAssigned : Bool) (r : PoolIp) : PoolIp :=
  { r with projectId := some projectId, autoAssigned := autoAssigned }

theorem give_keeps (projectId : String) (autoAssigned : Bool) :
    Keyed.Keeps (fun r : PoolIp => r.id) (fun r => r.address) PoolIp.live
      (PoolIp.give projectId autoAssigned) :=
  ⟨fun _ => rfl, fun _ => rfl, fun _ => rfl⟩

/-- One attempt of `floating_ip_allocate_address`. -/
def allocateAttempt (ctxt : Context) (projectId pool : String) (autoAssigned : Bool) :
    AddressProg String := do
  fromNova (authorizeProjectContext ctxt projectId)
  let floatingIpRef ← selectFirst .select (fun s => s.floating.rows.filter (PoolIp.free pool))
    .noMoreFloatingIps
  let rowsUpdate ← updateFloating (fun r => r.id == floatingIpRef.id && r.free pool)
    (.give projectId autoAssigned) (give_keeps ..)
  if rowsUpdate = 0 then throw (.retryRequest .floatingIpAllocateFailed)
  else pure floatingIpRef.address

/-- `floating_ip_allocate_address`. -/
def floatingIpAllocateAddress (ctxt : Context) (projectId pool : String) (autoAssigned : Bool) :
    AddressProg String := do
  fromNova (requireContext ctxt)
  retrying retryOnRequest (allocateAttempt ctxt projectId pool autoAssigned) 5

/-- What `floating_ip_deallocate` changes. -/
def PoolIp.giveBack (r : PoolIp) : PoolIp :=
  { r with projectId := none, host := none, autoAssigned := false }

theorem giveBack_keeps :
    Keyed.Keeps (fun r : PoolIp => r.id) (fun r => r.address) PoolIp.live PoolIp.giveBack :=
  ⟨fun _ => rfl, fun _ => rfl, fun _ => rfl⟩

/-- `floating_ip_deallocate`: how many rows it changed. -/
def floatingIpDeallocate (ctxt : Context) (address : String) : AddressProg Nat := do
  fromNova (requireContext ctxt)
  let shown ← fromNova (modelQuery ctxt none)
  updateFloating (fun r => shown r.deleted && r.address == address &&
      (r.projectId != none && r.fixedIpId == none))
    .giveBack giveBack_keeps

/-- What tying changes. -/
def PoolIp.tie (fixedIpId : Nat) (host : Option String) (r : PoolIp) : PoolIp :=
  { r with fixedIpId := some fixedIpId, host := host }

theorem tie_keeps (fixedIpId : Nat) (host : Option String) :
    Keyed.Keeps (fun r : PoolIp => r.id) (fun r => r.address) PoolIp.live
      (PoolIp.tie fixedIpId host) :=
  ⟨fun _ => rfl, fun _ => rfl, fun _ => rfl⟩

/-- `floating_ip_fixed_ip_associate`, with the id of the fixed ip. -/
def floatingIpFixedIpAssociate (ctxt : Context) (floatingAddress fixedAddress : String)
    (host : Option String) : AddressProg Nat := do
  fromNova (requireContext ctxt)
  let shown ← fromNova (modelQuery ctxt none)
  let fixedIpRef ← selectFirst .select (fun s => s.fixed.rows.filter
    (fun r => shown r.deleted && r.address == fixedAddress))
    (.fixedIpNotFoundForAddress fixedAddress)
  let rows ← updateFloating (fun r => shown r.deleted && r.address == floatingAddress &&
      (r.projectId == ctxt.projectId &&
        (r.fixedIpId == some fixedIpRef.id || r.fixedIpId == none)))
    (.tie fixedIpRef.id host) (tie_keeps ..)
  if rows = 0 then throw (.floatingIpAssociateFailed floatingAddress)
  else pure fixedIpRef.id

/-- What the flush of a changed object writes: of the two columns those that were set before. -/
def PoolIp.untie (fixedIp host : Bool) (r : PoolIp) : PoolIp :=
  { r with
    fixedIpId := if fixedIp then none else r.fixedIpId
    host := if host then none else r.host }

theorem untie_keeps (fixedIp host : Bool) :
    Keyed.Keeps (fun r : PoolIp => r.id) (fun r => r.address) PoolIp.live
      (PoolIp.untie fixedIp host) :=
  ⟨fun _ => rfl, fun _ => rfl, fun _ => rfl⟩

/-- `floating_ip_disassociate`, with the fixed ip that the address was tied to. -/
def floatingIpDisassociate (ctxt : Context) (address : String) :
    AddressProg (Option FixedIp) := do
  fromNova (requireContext ctxt)
  let shown ← fromNova (modelQuery ctxt none)
  let floatingIpRef ← selectFirst .select (fun s => s.floating.rows.filter
    (fun r => shown r.deleted && r.address == address)) (.floatingIpNotFoundForAddress address)
  let fixedIpRef ← transaction .select (fun i s =>
    .ok (i.first (s.fixed.rows.filter
      (fun r => shown r.deleted && some r.id == floatingIpRef.fixedIpId)), s))
  if floatingIpRef.fixedIpId.isSome || floatingIpRef.host.isSome then
    let _ ← updateFloating (fun r => r.id == floatingIpRef.id)
      (.untie floatingIpRef.fixedIpId.isSome floatingIpRef.host.isSome) (untie_keeps ..)
    pure fixedIpRef
  else pure fixedIpRef

/-! ## The addresses as a map -/

/-- The live row of each address. -/
abbrev Floating : Type := String → Option PoolIp

/-- What a call does at one moment; `kept` is a deallocation that changes no row. -/
inductive Move where
  | gave (address : String)
  | freed (address : String)
  | kept (address : String)
  | tied (address : String) (fixedIpId : Nat)
  | untied (address : String) (fixedIp host : Bool)
  deriving DecidableEq, Repr

inductive AddressCall where
  | allocate (projectId pool : String) (autoAssigned : Bool)
  | deallocate (address : String)
  | associate (floatingAddress fixedAddress : String) (host : Option String)
  | disassociate (address : String)

/-- What a call returns. -/
inductive Reply where
  | address (address : String)
  | rows (n : Nat)
  | fixedIpId (id : Nat)
  | fixedIp (r : Option FixedIp)

def AddressCall.prog (ctxt : Context) : AddressCall → AddressProg Reply
  | .allocate projectId pool autoAssigned =>
    floatingIpAllocateAddress ctxt projectId pool autoAssigned >>= fun a => pure (.address a)
  | .deallocate address => floatingIpDeallocate ctxt address >>= fun n => pure (.rows n)
  | .associate floatingAddress fixedAddress host =>
    floatingIpFixedIpAssociate ctxt floatingAddress fixedAddress host >>=
      fun id => pure (.fixedIpId id)
  | .disassociate address => floatingIpDisassociate ctxt address >>= fun r => pure (.fixedIp r)

/-- The address has a live row that satisfies `P`, and `f` is done to it. -/
def Writes (a : String) (P : PoolIp → Prop) (f : PoolIp → PoolIp) (v v' : Floating) : Prop :=
  ∃ r, v a = some r ∧ P r ∧ v' = Function.update v a (some (f r))

def AddressCall.effect (ctxt : Context) : AddressCall → Move → Floating → Floating → Prop
  | .allocate projectId pool autoAssigned, .gave a, v, v' =>
    Writes a (fun r => r.free pool = true) (.give projectId autoAssigned) v v'
  | .deallocate address, .freed a, v, v' => a = address ∧
    Writes a (fun r => r.projectId ≠ none ∧ r.fixedIpId = none) .giveBack v v'
  | .deallocate address, .kept a, v, v' => a = address ∧ v' = v ∧
    ∀ r, v a = some r → r.projectId = none ∨ r.fixedIpId ≠ none
  | .associate floatingAddress _ host, .tied a fixedIpId, v, v' => a = floatingAddress ∧
    Writes a (fun r => r.projectId = ctxt.projectId ∧
      (r.fixedIpId = some fixedIpId ∨ r.fixedIpId = none)) (.tie fixedIpId host) v v'
  | .disassociate address, .untied a fixedIp host, v, v' => a = address ∧
    Writes a (fun _ => True) (.untie fixedIp host) v v'
  | _, _, _, _ => False

/-- How a call ends, by its move. -/
def AddressCall.ends : AddressCall → Option Move → Except AddressError Reply → Prop
  | .allocate _ _ _, d, .ok reply => ∃ a, d = some (.gave a) ∧ reply = .address a
  | .deallocate address, d, .ok reply =>
    (d = some (.freed address) ∧ reply = .rows 1) ∨ (d = some (.kept address) ∧ reply = .rows 0)
  | .associate floatingAddress _ _, d, .ok reply =>
    ∃ id, d = some (.tied floatingAddress id) ∧ reply = .fixedIpId id
  | .disassociate address, d, .ok reply => (∃ r, reply = .fixedIp r) ∧
    (d = none ∨ ∃ fixedIp host, d = some (.untied address fixedIp host))
  | _, d, .error e => d = none ∧ retryOnRequest e = none

/-! ## The calls act at once -/

section

variable {ctxt : Context} {s : Addresses}

theorem atomic_fromNova {α ℓ : Type} {eff : ℓ → Floating → Floating → Prop}
    {Q : Option ℓ → Except AddressError α → Addresses → Prop} {x : Except NovaError α}
    {d : Option ℓ} : Atomic (SameRows floatingIps) floatingIps.view eff Q (fromNova x) d s ↔
      Q d (x.mapError .nova) s :=
  atomic_compute

theorem atomic_allocateAttempt (projectId pool : String) (autoAssigned : Bool) (s : Addresses) :
    Atomic (SameRows floatingIps) floatingIps.view
      (AddressCall.effect ctxt (.allocate projectId pool autoAssigned))
      (fun d o _ => match o with
        | .ok a => d = some (.gave a)
        | .error e => match retryOnRequest e with
          | some inner => d = none ∧ True ∧ d = none ∧ retryOnRequest inner = none
          | none => d = none ∧ retryOnRequest e = none)
      (allocateAttempt ctxt projectId pool autoAssigned) none s := by
  unfold allocateAttempt
  rw [atomic_bind, atomic_fromNova]
  cases authorizeProjectContext ctxt projectId with
  | error e => exact ⟨rfl, rfl⟩
  | ok u =>
    show Atomic _ _ _ _ _ none s
    rw [atomic_bind]
    refine atomic_selectFirst (fun s₁ ref hG href => ?_) (fun s₁ hG hempty => ⟨rfl, rfl⟩)
    dsimp only
    rw [atomic_bind]
    refine atomic_updateWhere (fun s' hG' r hr hp => ?_) (fun s₂ hG' r hr r' hr' hp hp' => ?_)
      (fun s₂ hG' hnone s₃ => .inl ?_) (fun s₂ r hG' hp hread i s₃ => ?_)
    · have hfree := (Bool.and_eq_true_iff.mp hp).2
      unfold PoolIp.free at hfree
      simp only [Bool.and_eq_true] at hfree
      exact hfree.1.1.1
    · have hid := beq_iff_eq.mp (Bool.and_eq_true_iff.mp hp).1
      have hid' := beq_iff_eq.mp (Bool.and_eq_true_iff.mp hp').1
      exact Keyed.eq_of_ident hr hr' (hid.trans hid'.symm)
    · dsimp only
      rw [if_pos rfl]
      exact ⟨rfl, trivial, rfl, rfl⟩
    · -- the row is the one that was found, under its address
      obtain ⟨hid, hfree⟩ := Bool.and_eq_true_iff.mp hp
      have haddress : r.address = ref.address :=
        (Keyed.Same.of_ident hG' (List.mem_filter.mp href).1 (Keyed.read_iff.mp hread).1
          (beq_iff_eq.mp hid)).1
      refine ⟨.gave r.address, ⟨r, hread, hfree, rfl⟩, ?_⟩
      dsimp only
      rw [if_neg Nat.one_ne_zero, haddress]
      rfl

theorem atomic_allocate (projectId pool : String) (autoAssigned : Bool) (s : Addresses) :
    Atomic (SameRows floatingIps) floatingIps.view
      (AddressCall.effect ctxt (.allocate projectId pool autoAssigned))
      (fun d o _ => AddressCall.ends (.allocate projectId pool autoAssigned) d o)
      (AddressCall.prog ctxt (.allocate projectId pool autoAssigned)) none s := by
  show Atomic _ _ _ _ (floatingIpAllocateAddress ctxt projectId pool autoAssigned >>=
    fun a => pure (Reply.address a)) none s
  unfold floatingIpAllocateAddress
  rw [atomic_bind, atomic_bind, atomic_fromNova]
  cases requireContext ctxt with
  | error e => exact ⟨rfl, rfl⟩
  | ok u =>
    show Atomic _ _ _ _ (retrying _ _ 5) none s
    refine atomic_retrying (I := fun _ => True) (fun s _ => ?_) 5 s trivial
    refine (atomic_allocateAttempt projectId pool autoAssigned s).mono (fun d o s' h => ?_)
    cases o with
    | ok a => exact ⟨a, h, rfl⟩
    | error e =>
      dsimp only at h ⊢
      cases hagain : retryOnRequest e with
      | some inner =>
        rw [hagain] at h
        exact ⟨h.1, trivial, rfl, h.2.2.2⟩
      | none =>
        rw [hagain] at h
        exact ⟨h.1, hagain⟩

/-- Where deleted rows are hidden, an address matches one row at most. -/
theorem eq_of_address {address : String} {c : PoolIp → Bool} {r r' : PoolIp}
    (hr : r ∈ s.floating.rows) (hr' : r' ∈ s.floating.rows)
    (hp : (r.deleted == 0 && r.address == address && c r) = true)
    (hp' : (r'.deleted == 0 && r'.address == address && c r') = true) : r = r' := by
  simp only [Bool.and_eq_true, beq_iff_eq] at hp hp'
  exact Keyed.eq_of_key hr hr' (beq_iff_eq.mpr hp.1.1) (beq_iff_eq.mpr hp'.1.1)
    (hp.1.2.trans hp'.1.2.symm)

theorem atomic_deallocate (hhide : ctxt.readDeleted = "no") (address : String) (s : Addresses) :
    Atomic (SameRows floatingIps) floatingIps.view (AddressCall.effect ctxt (.deallocate address))
      (fun d o _ => AddressCall.ends (.deallocate address) d o)
      (AddressCall.prog ctxt (.deallocate address)) none s := by
  show Atomic _ _ _ _ (floatingIpDeallocate ctxt address >>= fun n => pure (Reply.rows n)) none s
  unfold floatingIpDeallocate
  rw [atomic_bind, atomic_bind, atomic_fromNova]
  cases requireContext ctxt with
  | error e => exact ⟨rfl, rfl⟩
  | ok u =>
    show Atomic _ _ _ _ _ none s
    rw [atomic_bind, atomic_fromNova, modelQuery_hides hhide]
    show Atomic _ _ _ _ (updateFloating _ _ _) none s
    refine atomic_updateWhere (fun s' hG' r hr hp => ?_)
      (fun s' hG r hr r' hr' hp hp' => eq_of_address
        (c := fun r => r.projectId != none && r.fixedIpId == none) hr hr' hp hp')
      (fun s' hG hnone s'' => .inr ?_)
      (fun s' r hG hp hread i s'' => ?_)
    · simp only [Bool.and_eq_true] at hp
      exact hp.1.1
    · -- the address is not there, or not to be given back
      refine ⟨.kept address, ⟨rfl, rfl, fun r hread => ?_⟩, .inr ⟨rfl, rfl⟩⟩
      obtain ⟨hr, hlive, haddress⟩ := Keyed.read_iff.mp hread
      by_contra hboth
      rw [not_or, not_not] at hboth
      have hmatch := hnone r hr
      dsimp only at hmatch
      rw [show (r.deleted == 0) = true from hlive, haddress, hboth.2] at hmatch
      cases hproject : r.projectId with
      | none => exact hboth.1 hproject
      | some p =>
        rw [hproject] at hmatch
        simp at hmatch
    · simp only [Bool.and_eq_true, beq_iff_eq, bne_iff_ne, ne_eq] at hp
      obtain ⟨⟨hlive, haddress⟩, hproject, hfixed⟩ := hp
      rw [haddress] at hread
      refine ⟨.freed address, ⟨rfl, r, hread, ⟨hproject, hfixed⟩, ?_⟩, .inl ⟨rfl, rfl⟩⟩
      rw [haddress]

theorem atomic_associate (hhide : ctxt.readDeleted = "no") (floatingAddress fixedAddress : String)
    (host : Option String) (s : Addresses) :
    Atomic (SameRows floatingIps) floatingIps.view
      (AddressCall.effect ctxt (.associate floatingAddress fixedAddress host))
      (fun d o _ => AddressCall.ends (.associate floatingAddress fixedAddress host) d o)
      (AddressCall.prog ctxt (.associate floatingAddress fixedAddress host)) none s := by
  show Atomic _ _ _ _ (floatingIpFixedIpAssociate ctxt floatingAddress fixedAddress host >>=
    fun id => pure (Reply.fixedIpId id)) none s
  unfold floatingIpFixedIpAssociate
  rw [atomic_bind, atomic_bind, atomic_fromNova]
  cases requireContext ctxt with
  | error e => exact ⟨rfl, rfl⟩
  | ok u =>
    show Atomic _ _ _ _ _ none s
    rw [atomic_bind, atomic_fromNova, modelQuery_hides hhide]
    show Atomic _ _ _ _ _ none s
    rw [atomic_bind]
    refine atomic_selectFirst (fun s₁ ref hG href => ?_) (fun s₁ hG hempty => ⟨rfl, rfl⟩)
    dsimp only
    rw [atomic_bind]
    refine atomic_updateWhere (fun s' hG' r hr hp => ?_)
      (fun s' hG r hr r' hr' hp hp' => eq_of_address
        (c := fun r => r.projectId == ctxt.projectId &&
          (r.fixedIpId == some ref.id || r.fixedIpId == none)) hr hr' hp hp')
      (fun s' hG hnone s'' => .inl ?_) (fun s' r hG hp hread i s'' => ?_)
    · simp only [Bool.and_eq_true] at hp
      exact hp.1.1
    · dsimp only
      rw [if_pos rfl]
      exact ⟨rfl, rfl⟩
    · simp only [Bool.and_eq_true, Bool.or_eq_true, beq_iff_eq] at hp
      obtain ⟨⟨hlive, haddress⟩, hproject, hfixed⟩ := hp
      rw [haddress] at hread
      refine ⟨.tied floatingAddress ref.id,
        ⟨rfl, r, hread, ⟨hproject, hfixed⟩, by rw [haddress]⟩, ?_⟩
      dsimp only
      rw [if_neg Nat.one_ne_zero]
      exact ⟨ref.id, rfl, rfl⟩

theorem atomic_disassociate (hhide : ctxt.readDeleted = "no") (address : String)
    (s : Addresses) :
    Atomic (SameRows floatingIps) floatingIps.view (AddressCall.effect ctxt (.disassociate address))
      (fun d o _ => AddressCall.ends (.disassociate address) d o)
      (AddressCall.prog ctxt (.disassociate address)) none s := by
  show Atomic _ _ _ _ (floatingIpDisassociate ctxt address >>= fun r => pure (Reply.fixedIp r))
    none s
  unfold floatingIpDisassociate
  rw [atomic_bind, atomic_bind, atomic_fromNova]
  cases requireContext ctxt with
  | error e => exact ⟨rfl, rfl⟩
  | ok u =>
    show Atomic _ _ _ _ _ none s
    rw [atomic_bind, atomic_fromNova, modelQuery_hides hhide]
    show Atomic _ _ _ _ _ none s
    rw [atomic_bind]
    refine atomic_selectFirst (fun s₁ ref hG href => ?_) (fun s₁ hG hempty => ⟨rfl, rfl⟩)
    obtain ⟨hmem, hp⟩ := List.mem_filter.mp href
    obtain ⟨hlive, haddress⟩ := Bool.and_eq_true_iff.mp hp
    dsimp only
    rw [atomic_bind]
    refine atomic_transaction SameRows.refl (fun s₂ hG₂ i found s₃ ht => ?_)
      (fun s₂ hG₂ i e ht => nomatch ht)
    cases ht
    refine ⟨SameRows.refl _, .inl ⟨rfl, ?_⟩⟩
    dsimp only
    split
    · rw [atomic_bind]
      -- the row of that id is the one of the address still
      have hsame : ∀ {s'}, SameRows floatingIps s₂ s' → ∀ r ∈ (floatingIps.get s').rows,
          (r.id == ref.id) = true → r.address = address ∧ r.live = true := by
        intro s' hG' r hr hid
        obtain ⟨hkey, hlive'⟩ :=
          Keyed.Same.of_ident (Keyed.Same.trans hG₂ hG') hmem hr (beq_iff_eq.mp hid)
        exact ⟨hkey.trans (beq_iff_eq.mp haddress), hlive'.trans hlive⟩
      refine atomic_updateWhere (fun s' hG' r hr hp => (hsame hG' r hr hp).2)
        (fun s' hG' r hr r' hr' hp hp' => Keyed.eq_of_ident hr hr'
          ((beq_iff_eq.mp hp).trans (beq_iff_eq.mp hp').symm))
        (fun s' hG' hnone s'' => .inl ⟨⟨_, rfl⟩, .inl rfl⟩) (fun s' r hG' hp hread i s'' => ?_)
      have hr := (hsame hG' r (Keyed.read_iff.mp hread).1 hp).1
      rw [hr] at hread ⊢
      exact ⟨.untied address ref.fixedIpId.isSome ref.host.isSome,
        ⟨rfl, r, hread, trivial, rfl⟩, ⟨_, rfl⟩, .inr ⟨_, _, rfl⟩⟩
    · exact ⟨⟨_, rfl⟩, .inl rfl⟩

end

/-! ## Any number of callers -/

/-- The address belongs to a project. -/
def Owned (a : String) (v : Floating) : Prop := ∃ r, v a = some r ∧ r.projectId ≠ none

/-- A row that is written keeps its project, but where it is given back. -/
theorem Writes.owned {a b : String} {P : PoolIp → Prop} {f : PoolIp → PoolIp} {v v' : Floating}
    (h : Writes b P f v v') (hf : ∀ r, r.projectId ≠ none → (f r).projectId ≠ none)
    (hown : Owned a v) : Owned a v' := by
  obtain ⟨r, hr, hproject⟩ := hown
  obtain ⟨s, hs, -, rfl⟩ := h
  by_cases hab : a = b
  · subst hab
    rw [hr] at hs
    cases hs
    exact ⟨f r, Function.update_self .., hf r hproject⟩
  · exact ⟨r, by rw [Function.update_of_ne hab]; exact hr, hproject⟩

theorem owned_of_effect {ctxt : Context} {call : AddressCall} {m : Move} {a : String}
    {v v' : Floating} (h : call.effect ctxt m v v') (hm : m ≠ .freed a) (hown : Owned a v) :
    Owned a v' := by
  unfold AddressCall.effect at h
  split at h
  · exact h.owned (fun _ _ => Option.some_ne_none _) hown
  · -- another address is given back
    next b =>
    have hab : a ≠ b := fun hab => hm (hab ▸ rfl)
    obtain ⟨r, hr, hproject⟩ := hown
    obtain ⟨-, s, -, -, rfl⟩ := h
    exact ⟨r, by rw [Function.update_of_ne hab]; exact hr, hproject⟩
  · obtain ⟨-, rfl, -⟩ := h
    exact hown
  · exact h.2.owned (fun _ hproject => hproject) hown
  · exact h.2.owned (fun _ hproject => hproject) hown
  · exact absurd h id

/-- An address that is given out was nobody's, and is somebody's then. -/
theorem owned_of_gave {ctxt : Context} {call : AddressCall} {a : String} {v v' : Floating}
    (h : call.effect ctxt (.gave a) v v') : ¬ Owned a v ∧ Owned a v' := by
  cases call with
  | allocate projectId pool autoAssigned =>
    obtain ⟨r, hr, hfree, rfl⟩ := h
    refine ⟨?_, r.give projectId autoAssigned, Function.update_self .., Option.some_ne_none _⟩
    rintro ⟨s, hs, hproject⟩
    rw [hr] at hs
    cases hs
    unfold PoolIp.free at hfree
    simp only [Bool.and_eq_true, beq_iff_eq] at hfree
    exact hproject hfree.1.2
  | deallocate address => exact absurd h id
  | associate floatingAddress fixedAddress host => exact absurd h id
  | disassociate address => exact absurd h id

/-- **Callers of the address tables.** Any number of callers allocate, give back, tie and untie
floating ips, and their statements are interleaved in any way. What they have done up to any point
of a run is what they would have done at once, in some order, which later only gets longer: an
allocation that returned took an address of its pool that nobody had, one that raised took none.
Between two allocations of one address it was given back. -/
theorem addresses_linearizable {κ : Type} [DecidableEq κ] (ctxt : κ → Context)
    (call : κ → AddressCall) (hhide : ∀ k, (ctxt k).readDeleted = "no") {s : Addresses}
    {c₁ c₂ : Callers κ Choice Statement Addresses AddressError Reply} {ks₁ ks₂ : List κ}
    (hrun₁ : Run Turn ⟨s, fun k => (call k).prog (ctxt k)⟩ ks₁ c₁) (hrun₂ : Run Turn c₁ ks₂ c₂) :
    ∃ order more : List (κ × Move),
      Linearized floatingIps.view (fun k => (call k).effect (ctxt k)) (fun k => (call k).ends)
        ⟨s, fun k => (call k).prog (ctxt k)⟩ c₁ order ∧
      Linearized floatingIps.view (fun k => (call k).effect (ctxt k)) (fun k => (call k).ends)
        ⟨s, fun k => (call k).prog (ctxt k)⟩ c₂ (order ++ more) ∧
      ∀ xs ys zs k j a, order ++ more = xs ++ (k, .gave a) :: (ys ++ (j, .gave a) :: zs) →
        ∃ i, (i, .freed a) ∈ ys := by
  have hatomic : ∀ k, Atomic (SameRows floatingIps) floatingIps.view ((call k).effect (ctxt k))
      (fun d o _ => (call k).ends d o) ((call k).prog (ctxt k)) none s := by
    intro k
    cases call k with
    | allocate projectId pool autoAssigned => exact atomic_allocate projectId pool autoAssigned s
    | deallocate address => exact atomic_deallocate (hhide k) address s
    | associate floatingAddress fixedAddress host =>
      exact atomic_associate (hhide k) floatingAddress fixedAddress host s
    | disassociate address => exact atomic_disassociate (hhide k) address s
  obtain ⟨order, more, h₁, h₂, -, -⟩ := linearized (c := ⟨s, fun k => (call k).prog (ctxt k)⟩)
    SameRows.refl SameRows.trans hatomic hrun₁ hrun₂
  refine ⟨order, more, h₁, h₂, fun xs ys zs k j a heq => ?_⟩
  have heffects := h₂.effects
  rw [heq] at heffects
  by_contra hno
  obtain ⟨v, v', hown, hagain⟩ := heffects.between (fun v v' h => (owned_of_gave h).2)
    (fun m hm v v' h => owned_of_effect h (fun hfreed => hno ⟨m.1, hfreed ▸ hm⟩))
  exact (owned_of_gave hagain).1 hown

/-- One free address, and two projects that ask for it. -/
def oneAddress : Addresses where
  floating := ⟨[⟨⟨1, "172.24.4.7", none, false, 0, none, by decide⟩, "public", none, none⟩],
    by decide, by decide⟩
  fixed := ⟨[], List.nodup_nil, List.nodup_nil⟩

def twoProjects (k : Bool) : AddressCall :=
  .allocate (if k then "red" else "blue") "public" false

/-- Both find it before either marks it: one gets it, the other tries again and finds none. -/
theorem addresses_sample : ∃ c₂, Run Turn
      ⟨oneAddress, fun k => (twoProjects k).prog adminContext⟩ [false, true, false, true, true] c₂ ∧
      c₂.prog false = .ret (.address "172.24.4.7") ∧ c₂.prog true = .raise .noMoreFloatingIps ∧
      ∃ order, Linearized floatingIps.view (fun k => (twoProjects k).effect adminContext)
        (fun k => (twoProjects k).ends) ⟨oneAddress, fun k => (twoProjects k).prog adminContext⟩
        c₂ order := by
  have hrun : ∃ c₂, Run Turn
      ⟨oneAddress, fun k => (twoProjects k).prog adminContext⟩ [false, true, false, true, true] c₂ ∧
      c₂.prog false = .ret (.address "172.24.4.7") ∧ c₂.prog true = .raise .noMoreFloatingIps :=
    ⟨_, .cons (.tx ⟨1, 0⟩ rfl) (.cons (.tx ⟨2, 0⟩ rfl) (.cons (.tx ⟨3, 0⟩ rfl)
      (.cons (.tx ⟨4, 0⟩ rfl) (.cons (.tx ⟨5, 0⟩ rfl) (.nil _))))), rfl, rfl⟩
  obtain ⟨c₂, hrun, hfalse, htrue⟩ := hrun
  obtain ⟨order, more, -, h₂, -⟩ := addresses_linearizable (fun _ => adminContext) twoProjects
    (fun _ => rfl) hrun (.nil c₂)
  exact ⟨c₂, hrun, hfalse, htrue, order ++ more, h₂⟩

end PolarBear.Networks
