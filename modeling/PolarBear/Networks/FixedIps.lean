import PolarBear.Networks.Allocation

/-!
# Binding fixed ips

A fixed ip is bound to an instance, or a host, in two ways. `fixed_ip_associate_pool` takes the
oldest free address of a network, by a query and an update that asks again whether it is free.
`fixed_ip_associate` takes a given address: it looks whether the address is in use, but its update
does not ask again.

So between two statements of a call with a given address another call may bind the address, and is
overwritten (`fixedIps_sample`). From the pool an address in use is never taken, whatever other
calls come in between (`fixedIps_pool_safe`).

`is_uuid_like` and the project of an instance, which stands in another table, are parameters.
-/

namespace PolarBear.Networks

open PolarBear.Db PolarBear.Transactions
open PolarBear.Transition (Run)
open PolarBear.Transactions.Prog (transaction reading compute)

def fixedIps : Part Addresses (Keyed FixedIp String FixedIp.id FixedIp.address FixedIp.live) :=
  ⟨Addresses.fixed, fun t s => { s with fixed := t }, fun _ _ => rfl⟩

/-- `network_or_none`. -/
def FixedIp.networkOrNone (networkId : Option Nat) (r : FixedIp) : Bool :=
  r.networkId == networkId || r.networkId == none

/-- A number that is neither `None` nor zero. -/
def given (n : Option Nat) : Bool := n.getD 0 != 0

/-! ## A given address -/

/-- The `params` of `fixed_ip_associate`. -/
def FixedIp.associate (instanceUuid : String) (networkId : Option (Option Nat))
    (virtualInterfaceId : Option Nat) (now : Nat) (r : FixedIp) : FixedIp :=
  { r with
    instanceUuid := some instanceUuid
    allocated := virtualInterfaceId.isSome
    networkId := networkId.getD r.networkId
    virtualInterfaceId :=
      if given virtualInterfaceId then virtualInterfaceId else r.virtualInterfaceId
    updatedAt := some now }

theorem associate_keeps (instanceUuid : String) (networkId : Option (Option Nat))
    (virtualInterfaceId : Option Nat) (now : Nat) :
    Keyed.Keeps FixedIp.id FixedIp.address FixedIp.live
      (FixedIp.associate instanceUuid networkId virtualInterfaceId now) :=
  ⟨fun _ => rfl, fun _ => rfl, fun _ => rfl⟩

/-- What both statements of `fixed_ip_associate` ask. -/
def FixedIp.wanted (address : String) (networkId : Option Nat) (reserved : Bool) (r : FixedIp) :
    Bool :=
  r.deleted == 0 && r.address == address && (r.networkOrNone networkId && r.reserved == reserved)

/-- One attempt of `fixed_ip_associate`. -/
def associateAttempt (isUuidLike : String → Bool) (address instanceUuid : String)
    (networkId : Option Nat) (reserved : Bool) (virtualInterfaceId : Option Nat) :
    AddressProg String := do
  if !isUuidLike instanceUuid then throw (.invalidUuid instanceUuid)
  else
    let ref ← selectFirst .select (fun s => s.fixed.rows.filter
      (FixedIp.wanted address networkId reserved))
      (.fixedIpNotFoundForNetwork address networkId)
    if truthy ref.instanceUuid then throw (.fixedIpAlreadyInUse address instanceUuid)
    else
      let rowsUpdated ← updateWhere .update fixedIps
        (fun r => r.id == ref.id && r.wanted address networkId reserved)
        (fun i => .associate instanceUuid (if given ref.networkId then none else some networkId)
          virtualInterfaceId i.now)
        (fun _ => associate_keeps ..)
      if rowsUpdated = 0 then throw (.retryRequest (.fixedIpAssociateFailed networkId))
      else pure ref.address

/-- `fixed_ip_associate`, with the address of the row. -/
def fixedIpAssociate (isUuidLike : String → Bool) (address instanceUuid : String)
    (networkId : Option Nat) (reserved : Bool) (virtualInterfaceId : Option Nat) :
    AddressProg String :=
  retrying retryOnRequest
    (associateAttempt isUuidLike address instanceUuid networkId reserved virtualInterfaceId) 5

/-! ## An address of the pool -/

/-- The `params` of `fixed_ip_associate_pool`. -/
def FixedIp.draw (networkId : Option (Option Nat)) (instanceUuid host : Option String)
    (virtualInterfaceId : Option Nat) (now : Nat) (r : FixedIp) : FixedIp :=
  { r with
    allocated := virtualInterfaceId.isSome
    networkId := networkId.getD r.networkId
    instanceUuid := if truthy instanceUuid then instanceUuid else r.instanceUuid
    host := if truthy host then host else r.host
    virtualInterfaceId :=
      if given virtualInterfaceId then virtualInterfaceId else r.virtualInterfaceId
    updatedAt := some now }

theorem draw_keeps (networkId : Option (Option Nat)) (instanceUuid host : Option String)
    (virtualInterfaceId : Option Nat) (now : Nat) :
    Keyed.Keeps FixedIp.id FixedIp.address FixedIp.live
      (FixedIp.draw networkId instanceUuid host virtualInterfaceId now) :=
  ⟨fun _ => rfl, fun _ => rfl, fun _ => rfl⟩

/-- Not reserved, and nobody has it. -/
def FixedIp.free (r : FixedIp) : Bool :=
  r.reserved == false && r.instanceUuid == none && r.host == none && r.leased == false

/-- `order_by(asc(updated_at))`: the rows that may come first; `NULL` is before all times. -/
def oldest (rows : List FixedIp) : List FixedIp :=
  rows.filter (fun r => rows.all (fun r' => match r.updatedAt, r'.updatedAt with
    | none, _ => true
    | some _, none => false
    | some t, some t' => t ≤ t'))

/-- One attempt of `fixed_ip_associate_pool`. -/
def associatePoolAttempt (isUuidLike : String → Bool) (networkId : Option Nat)
    (instanceUuid host : Option String) (virtualInterfaceId : Option Nat) : AddressProg String := do
  if truthy instanceUuid && !isUuidLike (instanceUuid.getD "") then
    throw (.invalidUuid (instanceUuid.getD ""))
  else
    let ref ← selectFirst .select (fun s => oldest (s.fixed.rows.filter
      (fun r => r.deleted == 0 && (r.networkOrNone networkId && r.free))))
      (.noMoreFixedIps networkId)
    let rowsUpdated ← updateWhere .update fixedIps
      (fun r => r.id == ref.id && r.deleted == 0 && r.networkId == ref.networkId && r.free &&
        r.address == ref.address)
      (fun i => .draw (if ref.networkId = none then some networkId else none) instanceUuid host
        virtualInterfaceId i.now)
      (fun _ => draw_keeps ..)
    if rowsUpdated = 0 then throw (.retryRequest (.fixedIpAssociateFailed networkId))
    else pure ref.address

/-- `fixed_ip_associate_pool`, with the address of the row. -/
def fixedIpAssociatePool (isUuidLike : String → Bool) (networkId : Option Nat)
    (instanceUuid host : Option String) (virtualInterfaceId : Option Nat) : AddressProg String :=
  retrying retryOnRequest
    (associatePoolAttempt isUuidLike networkId instanceUuid host virtualInterfaceId) 5

/-! ## Setting an address free -/

/-- What the flush of `fixed_ip_disassociate` writes: of the two columns those that were set. -/
def FixedIp.disassociate (instanceUuid virtualInterfaceId : Bool) (now : Nat) (r : FixedIp) :
    FixedIp :=
  { r with
    instanceUuid := if instanceUuid then none else r.instanceUuid
    virtualInterfaceId := if virtualInterfaceId then none else r.virtualInterfaceId
    updatedAt := some now }

theorem disassociate_keeps (instanceUuid virtualInterfaceId : Bool) (now : Nat) :
    Keyed.Keeps FixedIp.id FixedIp.address FixedIp.live
      (FixedIp.disassociate instanceUuid virtualInterfaceId now) :=
  ⟨fun _ => rfl, fun _ => rfl, fun _ => rfl⟩

/-- `_fixed_ip_get_by_address`; the instance of a bound address is looked up for its project. -/
def fixedIpGetByAddress (projectOf : String → Except AddressError String) (ctxt : Context)
    (address : String) : AddressProg FixedIp := do
  let shown ← fromNova (modelQuery ctxt none)
  let result ← selectFirst .select (fun s => s.fixed.rows.filter
    (fun r => shown r.deleted && r.address == address)) (.fixedIpNotFoundForAddress address)
  match result.instanceUuid with
  | some uuid =>
    if isUserContext ctxt then
      let projectId ← compute (projectOf uuid)
      fromNova (authorizeProjectContext ctxt projectId)
      pure result
    else pure result
  | none => pure result

/-- `fixed_ip_disassociate`. -/
def fixedIpDisassociate (projectOf : String → Except AddressError String) (ctxt : Context)
    (address : String) : AddressProg Unit := do
  fromNova (requireContext ctxt)
  let ref ← fixedIpGetByAddress projectOf ctxt address
  if ref.instanceUuid.isSome || ref.virtualInterfaceId.isSome then
    let _ ← updateWhere .update fixedIps (fun r => r.id == ref.id)
      (fun i => .disassociate ref.instanceUuid.isSome ref.virtualInterfaceId.isSome i.now)
      (fun _ => disassociate_keeps ..)
    pure ()
  else pure ()

/-! ## The calls act at once -/

/-- The live row of each address. -/
abbrev Fixed : Type := String → Option FixedIp

inductive FixedMove where
  | bound (address : String)
  | freed (address : String)
  deriving DecidableEq, Repr

inductive FixedCall where
  | associate (address instanceUuid : String) (networkId : Option Nat) (reserved : Bool)
      (virtualInterfaceId : Option Nat)
  | associatePool (networkId : Option Nat) (instanceUuid host : Option String)
      (virtualInterfaceId : Option Nat)
  | disassociate (address : String)

/-- The call takes its address out of the pool. -/
def FixedCall.fromPool : FixedCall → Bool
  | .associatePool _ _ _ _ => true
  | _ => false

/-- The call binds its address to an instance or a host. -/
def FixedCall.claims : FixedCall → Bool
  | .associate _ _ _ _ _ => true
  | .associatePool _ instanceUuid host _ => truthy instanceUuid || truthy host
  | .disassociate _ => false

def FixedCall.effect : FixedCall → FixedMove → Fixed → Fixed → Prop
  | .associate address instanceUuid networkId reserved vif, .bound a, v, v' => a = address ∧
    ∃ r network now, v a = some r ∧ r.wanted address networkId reserved = true ∧
      v' = Function.update v a (some (r.associate instanceUuid network vif now))
  | .associatePool networkId instanceUuid host vif, .bound a, v, v' =>
    ∃ r network now, v a = some r ∧ r.networkOrNone networkId = true ∧ r.free = true ∧
      v' = Function.update v a (some (r.draw network instanceUuid host vif now))
  | .disassociate address, .freed a, v, v' => a = address ∧
    ∃ r instanceUuid vif now, v a = some r ∧
      v' = Function.update v a (some (r.disassociate instanceUuid vif now))
  | _, _, _, _ => False

def FixedCall.ends : FixedCall → Option FixedMove → Except AddressError (Option String) → Prop
  | .associate address _ _ _ _, d, .ok a => a = some address ∧ d = some (.bound address)
  | .associatePool _ _ _ _, d, .ok a => ∃ b, a = some b ∧ d = some (.bound b)
  | .disassociate address, d, .ok a => a = none ∧ (d = none ∨ d = some (.freed address))
  | _, d, .error _ => d = none

section

variable (isUuidLike : String → Bool) (projectOf : String → Except AddressError String)

def FixedCall.prog (ctxt : Context) : FixedCall → AddressProg (Option String)
  | .associate address instanceUuid networkId reserved vif =>
    fixedIpAssociate isUuidLike address instanceUuid networkId reserved vif >>=
      fun a => pure (some a)
  | .associatePool networkId instanceUuid host vif =>
    fixedIpAssociatePool isUuidLike networkId instanceUuid host vif >>= fun a => pure (some a)
  | .disassociate address => fixedIpDisassociate projectOf ctxt address >>= fun _ => pure none

variable {isUuidLike projectOf} {ctxt : Context} {s : Addresses}

theorem atomic_associateAttempt (address instanceUuid : String) (networkId : Option Nat)
    (reserved : Bool) (vif : Option Nat) (s : Addresses) :
    Atomic (SameRows fixedIps) fixedIps.view
      (FixedCall.effect (.associate address instanceUuid networkId reserved vif))
      (fun d o _ => match o with
        | .ok a => a = address ∧ d = some (.bound address)
        | .error _ => d = none)
      (associateAttempt isUuidLike address instanceUuid networkId reserved vif) none s := by
  unfold associateAttempt
  split
  · rfl
  rw [atomic_bind]
  refine atomic_selectFirst (fun s₁ ref hG href => ?_) (fun s₁ hG hempty => rfl)
  dsimp only
  split
  · rfl
  have hwanted := (List.mem_filter.mp href).2
  have haddress : ref.address = address := by
    unfold FixedIp.wanted at hwanted
    simp only [Bool.and_eq_true, beq_iff_eq] at hwanted
    exact hwanted.1.2
  rw [atomic_bind]
  refine atomic_updateWhere (fun s₂ hG' r hr hp => ?_)
    (fun s₂ hG' r hr r' hr' hp hp' => ?_) (fun s₂ hG' hnone s₃ => .inl ?_)
    (fun s₂ r hG' hp hread i s₃ => ?_)
  · have hw := (Bool.and_eq_true_iff.mp hp).2
    unfold FixedIp.wanted at hw
    simp only [Bool.and_eq_true] at hw
    exact hw.1.1
  · have hid := beq_iff_eq.mp (Bool.and_eq_true_iff.mp hp).1
    have hid' := beq_iff_eq.mp (Bool.and_eq_true_iff.mp hp').1
    exact Keyed.eq_of_ident hr hr' (hid.trans hid'.symm)
  · dsimp only
    rw [if_pos rfl]
    rfl
  · have hw := (Bool.and_eq_true_iff.mp hp).2
    have haddress' : r.address = address := by
      unfold FixedIp.wanted at hw
      simp only [Bool.and_eq_true, beq_iff_eq] at hw
      exact hw.1.2
    rw [haddress'] at hread ⊢
    refine ⟨.bound address, ⟨rfl, r, _, _, hread, hw, rfl⟩, ?_⟩
    dsimp only
    rw [if_neg Nat.one_ne_zero]
    exact ⟨haddress, rfl⟩

theorem atomic_associatePoolAttempt (networkId : Option Nat) (instanceUuid host : Option String)
    (vif : Option Nat) (s : Addresses) :
    Atomic (SameRows fixedIps) fixedIps.view
      (FixedCall.effect (.associatePool networkId instanceUuid host vif))
      (fun d o _ => match o with
        | .ok a => d = some (.bound a)
        | .error _ => d = none)
      (associatePoolAttempt isUuidLike networkId instanceUuid host vif) none s := by
  unfold associatePoolAttempt
  split
  · rfl
  rw [atomic_bind]
  refine atomic_selectFirst (fun s₁ ref hG href => ?_) (fun s₁ hG hempty => rfl)
  have hquery := (List.mem_filter.mp (List.mem_filter.mp href).1).2
  have hnetwork : ref.networkOrNone networkId = true := by
    simp only [Bool.and_eq_true] at hquery
    exact hquery.2.1
  dsimp only
  rw [atomic_bind]
  refine atomic_updateWhere (fun s₂ hG' r hr hp => ?_)
    (fun s₂ hG' r hr r' hr' hp hp' => ?_) (fun s₂ hG' hnone s₃ => .inl ?_)
    (fun s₂ r hG' hp hread i s₃ => ?_)
  · simp only [Bool.and_eq_true] at hp
    exact hp.1.1.1.2
  · simp only [Bool.and_eq_true, beq_iff_eq] at hp hp'
    exact Keyed.eq_of_ident hr hr' (hp.1.1.1.1.trans hp'.1.1.1.1.symm)
  · dsimp only
    rw [if_pos rfl]
    rfl
  · simp only [Bool.and_eq_true, beq_iff_eq] at hp
    obtain ⟨⟨⟨-, hsame⟩, hfree⟩, haddress⟩ := hp
    rw [haddress] at hread ⊢
    refine ⟨.bound ref.address, ⟨r, _, _, hread, ?_, hfree, rfl⟩, ?_⟩
    · unfold FixedIp.networkOrNone at hnetwork ⊢
      rw [hsame]
      exact hnetwork
    · dsimp only
      rw [if_neg Nat.one_ne_zero]
      rfl

/-- An attempt never has an effect and raises. -/
theorem atomic_attempts {call : FixedCall} {attempt : AddressProg String}
    {P : String → FixedMove → Prop} (s : Addresses)
    (h : ∀ s, Atomic (SameRows fixedIps) fixedIps.view call.effect
      (fun d o _ => match o with
        | .ok a => ∃ m, d = some m ∧ P a m
        | .error _ => d = none) attempt none s) :
    Atomic (SameRows fixedIps) fixedIps.view call.effect
      (fun d o _ => match o with
        | .ok a => ∃ m, d = some m ∧ P a m
        | .error _ => d = none) (retrying retryOnRequest attempt 5) none s := by
  refine atomic_retrying (I := fun _ => True) (fun s _ => ?_) 5 s trivial
  refine (h s).mono (fun d o s' ho => ?_)
  cases o with
  | ok a => exact ho
  | error e =>
    dsimp only at ho ⊢
    cases retryOnRequest e with
    | some inner => exact ⟨ho, trivial, rfl⟩
    | none => exact ho

theorem atomic_fixedIpGetByAddress {eff : FixedMove → Fixed → Fixed → Prop}
    {Q : Option FixedMove → Except AddressError FixedIp → Addresses → Prop} {address : String}
    (hhide : ctxt.readDeleted = "no")
    (hok : ∀ s' r, SameRows fixedIps s s' → r ∈ (fixedIps.get s').rows → r.address = address →
      r.live = true → Q none (.ok r) s')
    (herror : ∀ s' e, Q none (.error e) s') :
    Atomic (SameRows fixedIps) fixedIps.view eff Q (fixedIpGetByAddress projectOf ctxt address) none
      s := by
  unfold fixedIpGetByAddress fromNova
  rw [atomic_bind, atomic_compute, modelQuery_hides hhide]
  show Atomic _ _ _ _ _ none s
  rw [atomic_bind]
  refine atomic_selectFirst (fun s₁ ref hG href => ?_) (fun s₁ hG hempty => herror s₁ _)
  obtain ⟨hmem, hp⟩ := List.mem_filter.mp href
  obtain ⟨hlive, haddress⟩ := Bool.and_eq_true_iff.mp hp
  have hq := hok s₁ ref hG hmem (beq_iff_eq.mp haddress) hlive
  dsimp only
  split
  · split
    · next uuid _ _ =>
      rw [atomic_bind, atomic_compute]
      cases projectOf uuid with
      | error e => exact herror s₁ e
      | ok projectId =>
        dsimp only
        rw [atomic_bind, atomic_compute]
        cases authorizeProjectContext ctxt projectId with
        | error e => exact herror s₁ _
        | ok u => exact hq
    · exact hq
  · exact hq

theorem atomic_fixedIpDisassociate (hhide : ctxt.readDeleted = "no") (address : String)
    (s : Addresses) :
    Atomic (SameRows fixedIps) fixedIps.view (FixedCall.effect (.disassociate address))
      (fun d o _ => match o with
        | .ok _ => d = none ∨ d = some (.freed address)
        | .error _ => d = none) (fixedIpDisassociate projectOf ctxt address) none s := by
  unfold fixedIpDisassociate fromNova
  rw [atomic_bind, atomic_compute]
  cases requireContext ctxt with
  | error e => rfl
  | ok u =>
    show Atomic _ _ _ _ _ none s
    rw [atomic_bind]
    refine atomic_fixedIpGetByAddress hhide (fun s₁ ref hG hmem haddress hlive => ?_)
      (fun s₁ e => rfl)
    dsimp only
    split
    · rw [atomic_bind]
      -- the row of that id is the one of the address still
      have hsame : ∀ {s'}, SameRows fixedIps s₁ s' → ∀ r ∈ (fixedIps.get s').rows,
          (r.id == ref.id) = true → r.address = address ∧ r.live = true := by
        intro s' hG' r hr hid
        obtain ⟨hkey, hlive'⟩ := Keyed.Same.of_ident hG' hmem hr (beq_iff_eq.mp hid)
        exact ⟨hkey.trans haddress, hlive'.trans hlive⟩
      refine atomic_updateWhere (fun s' hG' r hr hp => (hsame hG' r hr hp).2)
        (fun s' hG' r hr r' hr' hp hp' => Keyed.eq_of_ident hr hr'
          ((beq_iff_eq.mp hp).trans (beq_iff_eq.mp hp').symm))
        (fun s' hG' hnone s'' => .inl (.inl rfl)) (fun s' r hG' hp hread i s'' => ?_)
      have hr := (hsame hG' r (Keyed.read_iff.mp hread).1 hp).1
      rw [hr] at hread ⊢
      exact ⟨.freed address, ⟨rfl, r, _, _, _, hread, rfl⟩, .inr rfl⟩
    · exact .inl rfl

theorem atomic_fixedCall (hhide : ctxt.readDeleted = "no") (call : FixedCall) (s : Addresses) :
    Atomic (SameRows fixedIps) fixedIps.view call.effect (fun d o _ => call.ends d o)
      (call.prog isUuidLike projectOf ctxt) none s := by
  cases call with
  | associate address instanceUuid networkId reserved vif =>
    show Atomic _ _ _ _ (fixedIpAssociate _ _ _ _ _ _ >>= fun a => pure (some a)) none s
    unfold fixedIpAssociate
    rw [atomic_bind]
    refine (atomic_attempts (P := fun a m => a = address ∧ m = .bound address) s (fun s =>
      (atomic_associateAttempt address instanceUuid networkId reserved vif s).mono ?_)).mono ?_
    · intro d o s' ho
      cases o with
      | ok a => exact ⟨_, ho.2, ho.1, rfl⟩
      | error e => exact ho
    · intro d o s' ho
      cases o with
      | ok a =>
        obtain ⟨m, hd, ha, hm⟩ := ho
        exact ⟨congrArg some ha, hd.trans (congrArg some hm)⟩
      | error e => exact ho
  | associatePool networkId instanceUuid host vif =>
    show Atomic _ _ _ _ (fixedIpAssociatePool _ _ _ _ _ >>= fun a => pure (some a)) none s
    unfold fixedIpAssociatePool
    rw [atomic_bind]
    refine (atomic_attempts (P := fun a m => m = .bound a) s (fun s =>
      (atomic_associatePoolAttempt networkId instanceUuid host vif s).mono ?_)).mono ?_
    · intro d o s' ho
      cases o with
      | ok a => exact ⟨_, ho, rfl⟩
      | error e => exact ho
    · intro d o s' ho
      cases o with
      | ok a =>
        obtain ⟨m, hd, hm⟩ := ho
        exact ⟨a, rfl, hd.trans (congrArg some hm)⟩
      | error e => exact ho
  | disassociate address =>
    show Atomic _ _ _ _ (fixedIpDisassociate projectOf ctxt address >>= fun _ => pure none) none s
    rw [atomic_bind]
    refine (atomic_fixedIpDisassociate hhide address s).mono (fun d o s' ho => ?_)
    cases o with
    | ok u => exact ⟨rfl, ho⟩
    | error e => exact ho

/-! ## Any number of callers -/

/-- The address is bound to an instance or a host. -/
def Used (a : String) (v : Fixed) : Prop :=
  ∃ r, v a = some r ∧ (r.instanceUuid ≠ none ∨ r.host ≠ none)

theorem Used.update {a b : String} {v : Fixed} {r : FixedIp} {f : FixedIp → FixedIp}
    (h : Used a v) (hb : v b = some r)
    (hf : (r.instanceUuid ≠ none ∨ r.host ≠ none) → (f r).instanceUuid ≠ none ∨ (f r).host ≠ none) :
    Used a (Function.update v b (some (f r))) := by
  obtain ⟨t, ht, hused⟩ := h
  by_cases hab : a = b
  · subst hab
    rw [hb] at ht
    cases ht
    exact ⟨f r, Function.update_self .., hf hused⟩
  · exact ⟨t, by rw [Function.update_of_ne hab]; exact ht, hused⟩

theorem ne_none_of_truthy {o : Option String} (h : truthy o = true) : o ≠ none := by
  rintro rfl
  cases h

/-- Only a call that sets an address free can end its use. -/
theorem used_of_effect {call : FixedCall} {m : FixedMove} {a : String} {v v' : Fixed}
    (h : call.effect m v v') (hm : m ≠ .freed a) (hused : Used a v) : Used a v' := by
  unfold FixedCall.effect at h
  split at h
  · obtain ⟨-, r, network, now, hr, -, rfl⟩ := h
    exact hused.update hr (fun _ => .inl (Option.some_ne_none _))
  · next instanceUuid host vif b =>
    obtain ⟨r, network, now, hr, -, -, rfl⟩ := h
    refine hused.update (f := fun r => r.draw network instanceUuid host vif now) hr (fun hor => ?_)
    refine hor.imp (fun h => ?_) (fun h => ?_)
    · show (if truthy instanceUuid then instanceUuid else r.instanceUuid) ≠ none
      split
      · next ht => exact ne_none_of_truthy ht
      · exact h
    · show (if truthy host then host else r.host) ≠ none
      split
      · next ht => exact ne_none_of_truthy ht
      · exact h
  · next b =>
    have hab : a ≠ b := fun hab => hm (hab ▸ rfl)
    obtain ⟨t, ht, hor⟩ := hused
    obtain ⟨-, r, instanceUuid, vif, now, -, rfl⟩ := h
    exact ⟨t, by rw [Function.update_of_ne hab]; exact ht, hor⟩
  · exact absurd h id

theorem used_of_claims {call : FixedCall} {a : String} {v v' : Fixed}
    (h : call.effect (.bound a) v v') (hclaims : call.claims = true) : Used a v' := by
  cases call with
  | associate address instanceUuid networkId reserved vif =>
    obtain ⟨-, r, network, now, -, -, rfl⟩ := h
    exact ⟨_, Function.update_self .., .inl (Option.some_ne_none _)⟩
  | associatePool networkId instanceUuid host vif =>
    obtain ⟨r, network, now, -, -, -, rfl⟩ := h
    refine ⟨_, Function.update_self .., (Bool.or_eq_true_iff.mp hclaims).imp ?_ ?_⟩
    · intro ht
      show (if truthy instanceUuid then instanceUuid else r.instanceUuid) ≠ none
      rw [if_pos ht]
      exact ne_none_of_truthy ht
    · intro ht
      show (if truthy host then host else r.host) ≠ none
      rw [if_pos ht]
      exact ne_none_of_truthy ht
  | disassociate address => exact absurd h id

theorem not_used_of_pool {call : FixedCall} {a : String} {v v' : Fixed}
    (h : call.effect (.bound a) v v') (hpool : call.fromPool = true) : ¬ Used a v := by
  cases call with
  | associate => cases hpool
  | associatePool networkId instanceUuid host vif =>
    obtain ⟨r, network, now, hr, -, hfree, -⟩ := h
    rintro ⟨t, ht, hor⟩
    rw [hr] at ht
    cases ht
    unfold FixedIp.free at hfree
    simp only [Bool.and_eq_true, beq_iff_eq] at hfree
    exact hor.elim (fun h => h hfree.1.1.2) (fun h => h hfree.1.2)
  | disassociate address => exact absurd h id

/-- **Callers of the fixed ips.** Any number of callers bind given addresses, take addresses out of
the pool and set addresses free, and their statements are interleaved in any way. What they have
done up to any point of a run is what they would have done at once, in some order, which later only
gets longer. An address that was bound to an instance or a host is taken out of the pool again only
if it was set free in between. -/
theorem fixedIps_pool_safe {κ : Type} [DecidableEq κ] (isUuidLike : String → Bool)
    (projectOf : String → Except AddressError String) (ctxt : κ → Context) (call : κ → FixedCall)
    (hhide : ∀ k, (ctxt k).readDeleted = "no") {s : Addresses}
    {c₁ c₂ : Callers κ Choice Statement Addresses AddressError (Option String)} {ks₁ ks₂ : List κ}
    (hrun₁ : Run Turn ⟨s, fun k => (call k).prog isUuidLike projectOf (ctxt k)⟩ ks₁ c₁)
    (hrun₂ : Run Turn c₁ ks₂ c₂) :
    ∃ order more : List (κ × FixedMove),
      Linearized fixedIps.view (fun k => (call k).effect) (fun k => (call k).ends)
        ⟨s, fun k => (call k).prog isUuidLike projectOf (ctxt k)⟩ c₁ order ∧
      Linearized fixedIps.view (fun k => (call k).effect) (fun k => (call k).ends)
        ⟨s, fun k => (call k).prog isUuidLike projectOf (ctxt k)⟩ c₂ (order ++ more) ∧
      ∀ xs ys zs k j a, order ++ more = xs ++ (k, .bound a) :: (ys ++ (j, .bound a) :: zs) →
        (call k).claims = true → (call j).fromPool = true → ∃ i, (i, .freed a) ∈ ys := by
  have hatomic : ∀ k, Atomic (SameRows fixedIps) fixedIps.view (call k).effect
      (fun d o _ => (call k).ends d o) ((call k).prog isUuidLike projectOf (ctxt k)) none s :=
    fun k => atomic_fixedCall (hhide k) (call k) s
  obtain ⟨order, more, h₁, h₂, -, -⟩ :=
    linearized (c := ⟨s, fun k => (call k).prog isUuidLike projectOf (ctxt k)⟩)
      SameRows.refl SameRows.trans hatomic hrun₁ hrun₂
  refine ⟨order, more, h₁, h₂, fun xs ys zs k j a heq hclaims hpool => ?_⟩
  have heffects := h₂.effects
  rw [heq] at heffects
  by_contra hno
  obtain ⟨v, v', hused, hagain⟩ := heffects.between (fun v v' h => used_of_claims h hclaims)
    (fun m hm v v' h => used_of_effect h (fun hfreed => hno ⟨m.1, hfreed ▸ hm⟩))
  exact not_used_of_pool hagain hpool hused

end

/-- One free fixed ip. -/
def oneFixedIp : Addresses where
  floating := ⟨[], List.nodup_nil, List.nodup_nil⟩
  fixed := ⟨[⟨1, "10.0.0.2", none, none, none, none, false, false, false, none, 0⟩], by decide,
    by decide⟩

/-- Two instances ask for it by its address. -/
def twoInstances (k : Bool) : FixedCall :=
  .associate "10.0.0.2" (if k then "uuid-1" else "uuid-2") (some 4) false none

/-- Both find it free and both are told that they have it. -/
theorem fixedIps_sample : ∃ c₂, Run Turn
      ⟨oneFixedIp, fun k => (twoInstances k).prog (fun _ => true) .ok adminContext⟩
      [true, false, true, false] c₂ ∧
      c₂.prog true = .ret (some "10.0.0.2") ∧ c₂.prog false = .ret (some "10.0.0.2") ∧
      (fixedIps.view c₂.store "10.0.0.2").map FixedIp.instanceUuid = some (some "uuid-2") ∧
      ∃ order, Linearized fixedIps.view (fun k => (twoInstances k).effect)
        (fun k => (twoInstances k).ends)
        ⟨oneFixedIp, fun k => (twoInstances k).prog (fun _ => true) .ok adminContext⟩ c₂ order := by
  have hrun : ∃ c₂, Run Turn
      ⟨oneFixedIp, fun k => (twoInstances k).prog (fun _ => true) .ok adminContext⟩
      [true, false, true, false] c₂ ∧
      c₂.prog true = .ret (some "10.0.0.2") ∧ c₂.prog false = .ret (some "10.0.0.2") ∧
      (fixedIps.view c₂.store "10.0.0.2").map FixedIp.instanceUuid = some (some "uuid-2") :=
    ⟨_, .cons (.tx ⟨1, 0⟩ rfl) (.cons (.tx ⟨2, 0⟩ rfl) (.cons (.tx ⟨3, 0⟩ rfl)
      (.cons (.tx ⟨4, 0⟩ rfl) (.nil _)))), rfl, rfl, rfl⟩
  obtain ⟨c₂, hrun, htrue, hfalse, hread⟩ := hrun
  obtain ⟨order, more, -, h₂, -⟩ := fixedIps_pool_safe (fun _ => true) .ok (fun _ => adminContext)
    twoInstances (fun _ => rfl) hrun (.nil c₂)
  exact ⟨c₂, hrun, htrue, hfalse, hread, order ++ more, h₂⟩

end PolarBear.Networks
