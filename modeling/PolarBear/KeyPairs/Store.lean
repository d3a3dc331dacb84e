import Mathlib.Logic.Function.Basic
import PolarBear.KeyPairs.Migration

/-!
# Creating, deleting and counting key pairs

A key is created in the API database, after a look into the main one; it is deleted from the API
database, or else from the main one. To its users this is one store of keys (`Keys`): `create`
adds a key that is not there, `destroy_by_name` takes one away, a migration changes nothing.

What stands between the two databases and the one store is a key that is live in both, which only
a migration leaves that stopped between its copy and its delete (`Apart`). Deleting such a key
takes away the copy, and the original is found again. `store_refines_iff` says that over runs of
calls, each in a context of its own and any of which may crash, this is all: the calls are those
of the one store exactly if no key in both databases is deleted.
-/

namespace PolarBear.KeyPairs

open Transactions Db
open Transition (Run)
open Transactions.Prog (transaction reading compute)

/-! ## The calls -/

/-- A `KeyPair` object before `create`, with the attributes that are set. -/
structure NewKeyPair where
  id : Option Nat
  userId : String
  name : String
  content : Content
  deriving DecidableEq, Repr

def NewKeyPair.key (o : NewKeyPair) : String × String := (o.userId, o.name)

/-- The row of what `obj_get_changes` gives. -/
def NewKeyPair.row (o : NewKeyPair) (now id : Nat) : KeyPairRow :=
  ⟨id, o.userId, o.name, o.content.fingerprint, o.content.publicKey, o.content.type, some now, none⟩

/-- `_create`. -/
def createKeyPair (o : NewKeyPair) : KeyPairProg KeyPair :=
  transaction .createInDb (fun now s =>
    match s.api.insert? (o.row now) (fun _ => rfl) with
    | some api => .ok ((o.row now s.api.table.next).fromDbObject false none, { s with api := api })
    | none => .error (.keyPairExists o.name))

/-- `except exception.KeypairNotFound: pass`. -/
def passMissing : NovaError → KeyPairProg Unit
  | .keypairNotFound _ _ => pure ()
  | e => throw e

/-- `KeyPair.create`, with the object that it fills. -/
def create (ctxt : Context) (o : NewKeyPair) : KeyPairProg KeyPair :=
  if o.id.isSome then throw (.objectActionError "create" "already created")
  else do
    tryCatch (do
      let _ ← keyPairGet ctxt o.userId o.name
      throw (.keyPairExists o.name)) passMissing
    createKeyPair o

/-- The rows of a key are taken out. -/
def ApiKeyPairs.erase (t : ApiKeyPairs) (userId name : String) : ApiKeyPairs where
  table := t.table.delete (fun r => r.key == (userId, name))
  uniq := t.uniq.sublist ((List.filter_sublist).map _)

/-- `_destroy_in_db`. -/
def destroyInDb (userId name : String) : KeyPairProg Unit :=
  transaction .keyPairDestroy (fun _ s =>
    if (s.api.table.rows.filter (fun r => r.key == (userId, name))).isEmpty then
      .error (.keypairNotFound userId name)
    else .ok ((), { s with api := s.api.erase userId name }))

/-- `except exception.KeypairNotFound: db.key_pair_destroy(..)`. -/
def destroyInMain (ctxt : Context) (userId name : String) : NovaError → KeyPairProg Unit
  | .keypairNotFound _ _ => keyPairDestroy ctxt userId name
  | e => throw e

/-- `KeyPair.destroy_by_name`. -/
def destroyByName (ctxt : Context) (userId name : String) : KeyPairProg Unit :=
  tryCatch (destroyInDb userId name) (destroyInMain ctxt userId name)

/-- `KeyPair.destroy`. -/
def destroy (ctxt : Context) (kp : KeyPair) : KeyPairProg Unit :=
  tryCatch (destroyInDb kp.userId kp.name) (destroyInMain ctxt kp.userId kp.name)

/-- The object that `migrate_keypairs_to_api_db` makes of a live row. -/
def MainKeyPairRow.toNew (r : MainKeyPairRow) : NewKeyPair :=
  ⟨none, r.userId, r.name, r.toKeyPairRow.content⟩

/-- What the migration inserts for a live row is what `_create` inserts for its object. -/
theorem createInDb_eq (r : MainKeyPairRow) (now : Nat) (s : Databases) :
    (createInDb r).eval now s = ((((createKeyPair r.toNew).eval now s).1.map fun _ => ()),
      ((createKeyPair r.toNew).eval now s).2) := by
  have hrow : s.api.insert? (r.toNew.row now) (fun _ => rfl) =
      s.api.insert? (copyRow r now) (fun _ => rfl) := rfl
  unfold createInDb createKeyPair
  rw [eval_transaction, eval_transaction, hrow]
  cases s.api.insert? (copyRow r now) (fun _ => rfl) <;> rfl

/-! ## One store of keys -/

/-- The keys that there are, by user and name. -/
abbrev Keys : Type := String × String → Option Content

/-- The one store that the two databases are. -/
def Databases.keys (s : Databases) : Keys := fun k => s.visible k.1 k.2

/-- The live row of a key. -/
def Databases.live (s : Databases) (k : String × String) : Option MainKeyPairRow :=
  s.liveRows.find? (fun r => r.key == k)

theorem keys_eq (s : Databases) (k : String × String) :
    s.keys k = ((s.api.find k.1 k.2).map KeyPairRow.content).or
      ((s.live k).map (fun r => r.toKeyPairRow.content)) := rfl

/-- No key is live in both databases. -/
def Apart (s : Databases) : Prop := ∀ k, (s.api.find k.1 k.2).isSome → s.live k = none

theorem find_erase (t : ApiKeyPairs) (u n : String) (k : String × String) :
    (t.erase u n).find k.1 k.2 = if k = (u, n) then none else t.find k.1 k.2 := by
  show (t.table.rows.filter (fun r => !(r.key == (u, n)))).find? (fun r => r.key == k) = _
  rw [List.find?_filter]
  split
  · next hk =>
    rw [hk, List.find?_eq_none]
    intro r _
    cases r.key == (u, n) <;> simp
  · next hk =>
    refine congrArg (fun p => List.find? p t.table.rows) (funext fun r => ?_)
    by_cases hr : r.key = k
    · have hne : (r.key == (u, n)) = false := beq_false_of_ne (fun h => hk (hr ▸ h))
      rw [hne, hr]
      simp
    · have hne : (r.key == k) = false := beq_false_of_ne hr
      rw [hne]
      simp

theorem find_isEmpty {t : ApiKeyPairs} {u n : String} :
    (t.table.rows.filter (fun r => r.key == (u, n))).isEmpty = true ↔ t.find u n = none := by
  unfold ApiKeyPairs.find
  rw [List.isEmpty_iff, List.filter_eq_nil_iff, List.find?_eq_none]

/-- **Inserting** a key that is in neither database. -/
theorem keys_insert {s : Databases} {o : NewKeyPair} {now : Nat} {api : ApiKeyPairs}
    (hins : s.api.insert? (o.row now) (fun _ => rfl) = some api) (hmain : s.live o.key = none) :
    s.keys o.key = none ∧
      Databases.keys { s with api := api } = Function.update s.keys o.key (some o.content) := by
  have hapi : s.api.find o.key.1 o.key.2 = none := by
    unfold ApiKeyPairs.insert? at hins
    split at hins
    · cases hins
    · next hmem =>
      refine List.find?_eq_none.mpr (fun r hr hk => hmem ?_)
      exact List.mem_map.mpr ⟨r, hr, beq_iff_eq.mp hk⟩
  refine ⟨by rw [keys_eq, hapi, hmain]; rfl, funext fun k => ?_⟩
  rw [keys_eq, find_insert? hins]
  by_cases hk : k = o.key
  · rw [hk, Function.update_self, hapi]
    rw [if_pos (show (o.row now s.api.table.next).key = (o.key.1, o.key.2) from rfl)]
    rfl
  · rw [Function.update_of_ne hk, keys_eq]
    rw [if_neg (show ¬ (o.row now s.api.table.next).key = (k.1, k.2) from fun h => hk h.symm),
      Option.or_none]
    rfl

/-- **Deleting from the API database** leaves what the main one has of the key. -/
theorem keys_erase (s : Databases) (u n : String) :
    Databases.keys { s with api := s.api.erase u n } = Function.update s.keys (u, n)
      ((s.live (u, n)).map (fun r => r.toKeyPairRow.content)) := by
  funext k
  rw [keys_eq, find_erase]
  by_cases hk : k = (u, n)
  · rw [if_pos hk, hk, Function.update_self]
    rfl
  · rw [if_neg hk, Function.update_of_ne hk]
    rfl

/-- The main database after the rows of a key were deleted there. -/
def Databases.deleteLive (s : Databases) (now : Nat) (k : String × String) : Databases :=
  { s with main := s.main.map (fun r => if r.deleted == 0 && r.key == k then r.softDelete now
      else r) }

theorem liveRows_deleteLive (s : Databases) (now : Nat) (k : String × String) :
    (s.deleteLive now k).liveRows = s.liveRows.filter (fun r => r.key != k) :=
  live_softDelete s.main now k

theorem live_deleteLive (s : Databases) (now : Nat) (k j : String × String) :
    (s.deleteLive now k).live j = if j = k then none else s.live j := by
  unfold Databases.live
  rw [liveRows_deleteLive, List.find?_filter]
  split
  · next hj =>
    rw [hj, List.find?_eq_none]
    intro r _
    cases hr : r.key == k <;> simp [bne, hr]
  · next hj =>
    refine congrArg (fun p => List.find? p s.liveRows) (funext fun r => ?_)
    by_cases hr : r.key = j
    · have hne : (r.key == k) = false := beq_false_of_ne (fun h => hj (hr ▸ h))
      rw [bne, hne, hr]
      simp
    · have hne : (r.key == j) = false := beq_false_of_ne hr
      rw [hne]
      simp

/-- **Deleting from the main database** a key that the API database does not have. -/
theorem keys_deleteLive {s : Databases} {k : String × String} (now : Nat)
    (hapi : s.api.find k.1 k.2 = none) :
    (s.deleteLive now k).keys = Function.update s.keys k none := by
  funext j
  rw [keys_eq, live_deleteLive]
  by_cases hj : j = k
  · rw [if_pos hj, hj, Function.update_self]
    show ((s.api.find k.1 k.2).map KeyPairRow.content).or _ = _
    rw [hapi]
    rfl
  · rw [if_neg hj, Function.update_of_ne hj]
    rfl

/-! ## What a call does -/

section

variable {ctxt : Context} {Q : Outcome NovaError MainKeyPairRow → Databases → Prop}

/-- Looking a key up in the main database. -/
theorem wp_keyPairGet (hctxt : requireContext ctxt = .ok ()) (hhide : ctxt.readDeleted = "no")
    {s : Databases} {u n : String} (hcrash : Q .crashed s)
    (hsome : ∀ r, s.live (u, n) = some r → Q (.returned r) s)
    (hnone : s.live (u, n) = none → Q (.raised (.keypairNotFound u n)) s) :
    wp anyPoint Q (keyPairGet ctxt u n) s := by
  have hlive : s.main.find? (fun r => r.deleted == 0 && r.key == (u, n)) = s.live (u, n) := by
    unfold Databases.live Databases.liveRows
    rw [List.find?_filter]
    simp only [Bool.decide_and, Bool.decide_eq_true]
    rfl
  unfold keyPairGet
  rw [wp_bind, wp_compute, hctxt]
  dsimp only
  rw [wp_reading, modelQuery_hides hhide]
  refine ⟨fun _ => hcrash, ?_⟩
  dsimp only [bind, Except.bind]
  rw [hlive]
  cases hfound : s.live (u, n) with
  | some r => exact hsome r hfound
  | none => exact hnone hfound

end

variable {ctxt : Context}

/-- **Creating a key.** -/
theorem wp_create (hctxt : requireContext ctxt = .ok ()) (hhide : ctxt.readDeleted = "no")
    {o : NewKeyPair} (hid : o.id = none) (s : Databases) :
    wp anyPoint (fun out s' => match out with
      | .returned kp => s.keys o.key = none ∧ s.live o.key = none ∧
          s'.keys = Function.update s.keys o.key (some o.content) ∧ kp.content = o.content ∧
          (∃ now, s.api.insert? (o.row now) (fun _ => rfl) = some s'.api) ∧ s'.main = s.main ∧
          s'.unmigratedInstances = s.unmigratedInstances
      | .raised e => s' = s ∧ (s.keys o.key).isSome ∧ e = .keyPairExists o.name
      | .crashed => s' = s) (create ctxt o) s := by
  unfold create
  rw [if_neg (by rw [hid]; exact Bool.false_ne_true), wp_bind, wp_tryCatch, wp_bind]
  refine wp_keyPairGet hctxt hhide rfl (fun r hr => ?_) (fun hnone => ?_)
  · -- it is live in the main database, and `KeyPairExists` passes the handler
    refine ⟨rfl, ?_, rfl⟩
    rw [keys_eq, show s.live o.key = some r from hr]
    cases s.api.find o.key.1 o.key.2 <;> rfl
  · -- `KeypairNotFound` does not
    dsimp only [passMissing]
    unfold createKeyPair
    simp only [pure, wp]
    rw [wp_transaction]
    refine ⟨fun _ => rfl, fun now => ?_⟩
    cases hins : s.api.insert? (o.row now) (fun _ => rfl) with
    | none =>
      refine ⟨rfl, ?_, rfl⟩
      obtain ⟨r, hr⟩ := Option.isSome_iff_exists.mp (insert?_none hins)
      rw [keys_eq, show s.api.find o.key.1 o.key.2 = some r from hr]
      rfl
    | some api =>
      obtain ⟨habsent, hkeys⟩ := keys_insert hins hnone
      exact ⟨habsent, hnone, hkeys, rfl, ⟨now, hins⟩, rfl, rfl⟩

theorem live_isEmpty {s : Databases} {k : String × String} :
    (s.main.filter (fun r => r.deleted == 0 && r.key == k)).isEmpty = true ↔ s.live k = none := by
  unfold Databases.live Databases.liveRows
  rw [List.find?_filter, List.isEmpty_iff, List.filter_eq_nil_iff, List.find?_eq_none]
  simp only [Bool.decide_and, Bool.decide_eq_true]
  rfl

/-- The second half of deleting a key, where the API database does not have it. -/
theorem wp_destroyInMain (hctxt : requireContext ctxt = .ok ()) (hhide : ctxt.readDeleted = "no")
    {s : Databases} {u n : String} (hapi : s.api.find u n = none) :
    wp anyPoint (fun out s' => match out with
      | .returned _ => (s.keys (u, n)).isSome ∧ ∃ now, s' = s.deleteLive now (u, n)
      | .raised e => s' = s ∧ s.keys (u, n) = none ∧ e = .keypairNotFound u n
      | .crashed => s' = s) (keyPairDestroy ctxt u n) s := by
  have hkey : s.keys (u, n) = (s.live (u, n)).map (fun r => r.toKeyPairRow.content) := by
    rw [keys_eq]
    show ((s.api.find u n).map KeyPairRow.content).or _ = _
    rw [hapi]
    rfl
  unfold keyPairDestroy
  rw [wp_bind, wp_compute, hctxt]
  dsimp only
  rw [wp_transaction, modelQuery_hides hhide]
  refine ⟨fun _ => rfl, fun now => ?_⟩
  dsimp only [bind, Except.bind]
  by_cases hempty : (s.main.filter (fun r => r.deleted == 0 && r.key == (u, n))).isEmpty = true
  · rw [if_pos hempty]
    exact ⟨rfl, by rw [hkey, live_isEmpty.mp hempty]; rfl, rfl⟩
  · rw [if_neg hempty]
    refine ⟨?_, now, rfl⟩
    rw [hkey, Option.isSome_map]
    exact Option.isSome_iff_ne_none.mpr (fun h => hempty (live_isEmpty.mpr h))

/-- **Deleting a key**: its copy in the API database if there is one, and else the live rows. -/
theorem wp_destroyByName (hctxt : requireContext ctxt = .ok ()) (hhide : ctxt.readDeleted = "no")
    (u n : String) (s : Databases) :
    wp anyPoint (fun out s' => match out with
      | .returned _ => (s.keys (u, n)).isSome ∧
          (((s.api.find u n).isSome ∧ s' = { s with api := s.api.erase u n }) ∨
            (s.api.find u n = none ∧ ∃ now, s' = s.deleteLive now (u, n)))
      | .raised e => s' = s ∧ s.keys (u, n) = none ∧ e = .keypairNotFound u n
      | .crashed => s' = s) (destroyByName ctxt u n) s := by
  unfold destroyByName
  rw [wp_tryCatch]
  unfold destroyInDb
  rw [wp_transaction]
  refine ⟨fun _ => rfl, fun now => ?_⟩
  by_cases hempty : (s.api.table.rows.filter (fun r => r.key == (u, n))).isEmpty = true
  · rw [if_pos hempty]
    have hapi := find_isEmpty.mp hempty
    refine wp_mono (wp_destroyInMain hctxt hhide hapi) (fun out s' h => ?_)
    cases out with
    | returned a => exact ⟨h.1, .inr ⟨hapi, h.2⟩⟩
    | raised e => exact h
    | crashed => exact h
  · rw [if_neg hempty]
    have hapi : (s.api.find u n).isSome :=
      Option.isSome_iff_ne_none.mpr (fun h => hempty (find_isEmpty.mpr h))
    refine ⟨?_, .inl ⟨hapi, rfl⟩⟩
    obtain ⟨r, hr⟩ := Option.isSome_iff_exists.mp hapi
    rw [keys_eq, show s.api.find (u, n).1 (u, n).2 = some r from hr]
    rfl

/-! ## Runs of calls -/

/-- The context of a call, which `require_context` accepts and which hides deleted rows. -/
structure Caller extends Context where
  accepted : requireContext toContext = .ok ()
  hides : toContext.readDeleted = "no"

/-- The calls that change keys. -/
inductive StoreCall where
  | create (o : NewKeyPair)
  | destroyByName (userId name : String)
  | migrate (count : Nat)

def StoreCall.prog (ctxt : Context) : StoreCall → KeyPairProg Unit
  | .create o => KeyPairs.create ctxt o >>= fun _ => pure ()
  | .destroyByName u n => KeyPairs.destroyByName ctxt u n
  | .migrate count => migrateKeypairsToApiDb ctxt count >>= fun _ => pure ()

/-- A call in its context, and how it ends. -/
abbrev StoreLabel : Type := (Caller × StoreCall) × Outcome NovaError Unit

abbrev StoreStep : StoreLabel → Databases → Databases → Prop :=
  CallStep anyPoint (fun c => c.2.prog c.1.toContext)

/-- What a call of the one store does, by how it ends; where it crashes it has done all or
nothing. -/
def StoreCall.spec : StoreCall × Outcome NovaError Unit → Keys → Keys → Prop
  | (.create o, .returned _), v, v' =>
    o.id = none ∧ v o.key = none ∧ v' = Function.update v o.key (some o.content)
  | (.create o, .raised e), v, v' => v' = v ∧
    ((o.id.isSome ∧ e = .objectActionError "create" "already created") ∨
      (o.id = none ∧ (v o.key).isSome ∧ e = .keyPairExists o.name))
  | (.create o, .crashed), v, v' => v' = v ∨
    (o.id = none ∧ v o.key = none ∧ v' = Function.update v o.key (some o.content))
  | (.destroyByName u n, .returned _), v, v' =>
    (v (u, n)).isSome ∧ v' = Function.update v (u, n) none
  | (.destroyByName u n, .raised e), v, v' =>
    v' = v ∧ v (u, n) = none ∧ e = .keypairNotFound u n
  | (.destroyByName u n, .crashed), v, v' => v' = v ∨
    ((v (u, n)).isSome ∧ v' = Function.update v (u, n) none)
  | (.migrate _, .raised _), _, _ => False
  | (.migrate _, _), v, v' => v' = v

/-- A deletion that returns is of a key that is not live in both databases, and one that crashes
does not take away a copy whose original has other content. -/
def StoreCall.single : StoreCall × Outcome NovaError Unit → Databases → Databases → Prop
  | (.destroyByName u n, .returned _), s, _ => (s.api.find u n).isSome → s.live (u, n) = none
  | (.destroyByName u n, .crashed), s, s' => ∀ copy r, s.api.find u n = some copy →
    s'.api.find u n = none → s.live (u, n) = some r → r.toKeyPairRow.content = copy.content
  | _, _, _ => True

/-- What the unique constraint of the main database keeps: different live keys. -/
def Ready (s : Databases) : Prop := (s.liveRows.map (fun r => r.key)).Nodup

variable {s s' : Databases}

theorem Ready.of_sublist (h : Ready s) (hrows : s'.liveRows.Sublist s.liveRows) : Ready s' :=
  h.sublist (hrows.map _)

/-- The row of a new key keeps the databases apart. -/
theorem Apart.insert (h : Apart s) {o : NewKeyPair} {now : Nat}
    (hins : s.api.insert? (o.row now) (fun _ => rfl) = some s'.api) (hmain : s'.main = s.main)
    (hnone : s.live o.key = none) : Apart s' := by
  intro k hk
  have hlive : s'.live k = s.live k := by
    unfold Databases.live Databases.liveRows
    rw [hmain]
  rw [hlive]
  by_cases hkey : k = o.key
  · rw [hkey]
    exact hnone
  · refine h k ?_
    rw [find_insert? hins, if_neg (fun he => hkey he.symm), Option.or_none] at hk
    exact hk

theorem Apart.deleteLive (h : Apart s) (now : Nat) (k : String × String) :
    Apart (s.deleteLive now k) := by
  intro j hj
  rw [live_deleteLive]
  split
  · rfl
  · exact h j hj

theorem Apart.erase (h : Apart s) (u n : String) : Apart { s with api := s.api.erase u n } := by
  intro j hj
  rw [find_erase] at hj
  split at hj
  · cases hj
  · exact h j hj

theorem liveRows_of_main (hmain : s'.main = s.main) : s'.liveRows = s.liveRows := by
  unfold Databases.liveRows
  rw [hmain]

/-- What a call keeps, and whether it is one of the one store. -/
structure Kept (c : StoreCall × Outcome NovaError Unit) (s s' : Databases) : Prop where
  ready : Ready s'
  apart : Apart s → Apart s'
  spec : StoreCall.spec c s.keys s'.keys

variable {caller : Caller}

/-- Creating a key that has no id yet. -/
theorem wp_createCall (caller : Caller) {o : NewKeyPair} (hid : o.id = none) (h : Ready s) :
    wp anyPoint (fun out s' => Kept (.create o, out) s s')
      (StoreCall.prog caller.toContext (.create o)) s := by
  show wp anyPoint _ (create caller.toContext o >>= fun _ => pure ()) s
  rw [wp_bind]
  refine wp_mono (wp_create caller.accepted caller.hides hid s) (fun out s' ho => ?_)
  cases out with
  | returned kp =>
    obtain ⟨habsent, hnone, hkeys, -, ⟨now, hins⟩, hmain, -⟩ := ho
    have hrows := liveRows_of_main hmain
    exact ⟨h.of_sublist (hrows ▸ List.Sublist.refl _),
      fun hapart => hapart.insert hins hmain hnone, hid, habsent, hkeys⟩
  | raised e =>
    obtain ⟨rfl, hsome, he⟩ := ho
    exact ⟨h, id, rfl, .inr ⟨hid, hsome, he⟩⟩
  | crashed =>
    have hs : s' = s := ho
    rw [hs]
    exact ⟨h, id, .inl rfl⟩

theorem create_step {o : NewKeyPair} {out : Outcome NovaError Unit} (h : Ready s)
    (hstep : StoreStep ((caller, .create o), out) s s') : Kept (.create o, out) s s' := by
  by_cases hid : o.id = none
  · have hcall := wp_iff_exec.mp (wp_createCall caller hid h)
    cases hstep with
    | ends hexec => exact hcall _ _ hexec
    | late hexec =>
      obtain ⟨hready, hapart, hspec⟩ := hcall _ _ hexec
      exact ⟨hready, hapart, .inr hspec⟩
  · -- the object was created before
    have hsome : o.id.isSome = true := Option.isSome_iff_ne_none.mpr hid
    have hcall : wp anyPoint (fun out s' => s' = s ∧
        out = .raised (.objectActionError "create" "already created"))
        (StoreCall.prog caller.toContext (.create o)) s := by
      show wp anyPoint _ (create caller.toContext o >>= fun _ => pure ()) s
      unfold create
      rw [if_pos hsome]
      exact ⟨rfl, rfl⟩
    rw [wp_iff_exec] at hcall
    cases hstep with
    | ends hexec =>
      obtain ⟨rfl, rfl⟩ := hcall _ _ hexec
      exact ⟨h, id, rfl, .inl ⟨hsome, rfl⟩⟩
    | late hexec =>
      have hout := (hcall _ _ hexec).2
      cases hout

/-- What the transactions of a deletion leave: the copy is gone, or the live rows are. -/
def Deleted (u n : String) (s s' : Databases) : Prop :=
  ((s.api.find u n).isSome ∧ s' = { s with api := s.api.erase u n }) ∨
    (s.api.find u n = none ∧ ∃ now, s' = s.deleteLive now (u, n))

variable {u n : String}

theorem Deleted.ready (hdeleted : Deleted u n s s') (h : Ready s) : Ready s' := by
  rcases hdeleted with ⟨-, rfl⟩ | ⟨-, now, rfl⟩
  · exact h
  · exact h.of_sublist (by rw [liveRows_deleteLive]; exact List.filter_sublist)

theorem Deleted.apart (hdeleted : Deleted u n s s') (h : Apart s) : Apart s' := by
  rcases hdeleted with ⟨-, rfl⟩ | ⟨-, now, rfl⟩
  · exact h.erase u n
  · exact h.deleteLive now (u, n)

/-- The copy is gone in either case. -/
theorem Deleted.find_none (hdeleted : Deleted u n s s') : s'.api.find u n = none := by
  rcases hdeleted with ⟨-, rfl⟩ | ⟨hnone, now, rfl⟩
  · have hfind := find_erase s.api u n (u, n)
    rw [if_pos rfl] at hfind
    exact hfind
  · exact hnone

/-- The key is gone, unless its copy was taken away and the original is found again. -/
theorem Deleted.keys (hdeleted : Deleted u n s s') :
    s'.keys = Function.update s.keys (u, n) (if (s.api.find u n).isSome
      then (s.live (u, n)).map (fun r => r.toKeyPairRow.content) else none) := by
  rcases hdeleted with ⟨hsome, rfl⟩ | ⟨hnone, now, rfl⟩
  · rw [if_pos hsome]
    exact keys_erase s u n
  · rw [hnone, Option.isSome_none, if_neg Bool.false_ne_true]
    exact keys_deleteLive now hnone

/-- The key of a deletion is gone exactly if it was not in both databases. -/
theorem Deleted.gone_iff (hdeleted : Deleted u n s s') :
    s'.keys = Function.update s.keys (u, n) none ↔
      ((s.api.find u n).isSome → s.live (u, n) = none) := by
  rw [hdeleted.keys, (Function.update_injective s.keys (u, n)).eq_iff]
  by_cases hsome : (s.api.find u n).isSome = true
  · rw [if_pos hsome, Option.map_eq_none_iff]
    exact ⟨fun h _ => h, fun h => h hsome⟩
  · rw [if_neg hsome]
    exact iff_of_true rfl (fun h => absurd h hsome)

/-- Nothing has changed for a reader exactly if the original has the content of the copy. -/
theorem Deleted.same_iff (hdeleted : Deleted u n s s') (hkey : (s.keys (u, n)).isSome) :
    s'.keys = s.keys ↔ ∃ copy r, s.api.find u n = some copy ∧ s.live (u, n) = some r ∧
      r.toKeyPairRow.content = copy.content := by
  have hself : Function.update s.keys (u, n) (s.keys (u, n)) = s.keys := Function.update_eq_self _ _
  have hsame : s'.keys = s.keys ↔ (if (s.api.find u n).isSome
      then (s.live (u, n)).map (fun r => r.toKeyPairRow.content) else none) = s.keys (u, n) := by
    rw [hdeleted.keys]
    conv_lhs => rhs; rw [← hself]
    exact (Function.update_injective s.keys (u, n)).eq_iff
  rw [hsame]
  cases hfind : s.api.find u n with
  | none =>
    refine iff_of_false (fun h => ?_) (fun ⟨copy, r, h, _⟩ => by cases h)
    rw [← show none = s.keys (u, n) from h] at hkey
    cases hkey
  | some copy =>
    have hcontent : s.keys (u, n) = some copy.content := by
      rw [keys_eq, show s.api.find (u, n).1 (u, n).2 = some copy from hfind]
      rfl
    rw [hcontent, Option.isSome_some, if_pos rfl, Option.map_eq_some_iff]
    constructor
    · rintro ⟨r, hr, heq⟩
      exact ⟨copy, r, rfl, hr, heq⟩
    · rintro ⟨_, r, heq, hr, hrow⟩
      cases heq
      exact ⟨r, hr, hrow⟩

/-- What a deletion that crashes is to the one store. -/
theorem Deleted.crashed_iff (hdeleted : Deleted u n s s') (hkey : (s.keys (u, n)).isSome) :
    StoreCall.spec (.destroyByName u n, .crashed) s.keys s'.keys ↔
      StoreCall.single (.destroyByName u n, .crashed) s s' := by
  show (s'.keys = s.keys ∨ ((s.keys (u, n)).isSome ∧ _)) ↔ _
  rw [and_iff_right hkey, hdeleted.same_iff hkey, hdeleted.gone_iff]
  constructor
  · rintro (⟨copy, r, hcopy, hr, heq⟩ | hlive) copy' r' hcopy' - hr'
    · cases hcopy.symm.trans hcopy'
      cases hr.symm.trans hr'
      exact heq
    · rw [hlive (by rw [hcopy']; rfl)] at hr'
      cases hr'
  · intro h
    cases hfind : s.api.find u n with
    | none => exact .inr (fun hsome => absurd hsome Bool.false_ne_true)
    | some copy =>
      cases hlive : s.live (u, n) with
      | none => exact .inr (fun _ => rfl)
      | some r => exact .inl ⟨copy, r, rfl, rfl, h copy r hfind hdeleted.find_none hlive⟩

/-- Deleting keeps the invariants, and is a call of the one store exactly if it is `single`. -/
theorem destroy_step {out : Outcome NovaError Unit} (h : Ready s)
    (hstep : StoreStep ((caller, .destroyByName u n), out) s s') :
    Ready s' ∧ (Apart s → Apart s') ∧
      (StoreCall.spec (.destroyByName u n, out) s.keys s'.keys ↔
        StoreCall.single (.destroyByName u n, out) s s') := by
  have hcall := wp_iff_exec.mp (wp_destroyByName caller.accepted caller.hides u n s)
  cases hstep with
  | ends hexec =>
    have ho := hcall _ _ hexec
    cases out with
    | returned a =>
      have hdeleted : Deleted u n s s' := ho.2
      exact ⟨hdeleted.ready h, hdeleted.apart, (and_iff_right ho.1).trans hdeleted.gone_iff⟩
    | raised e =>
      obtain ⟨rfl, hnone, he⟩ := ho
      exact ⟨h, id, iff_of_true ⟨rfl, hnone, he⟩ trivial⟩
    | crashed =>
      have hs : s' = s := ho
      rw [hs]
      refine ⟨h, id, iff_of_true (.inl rfl) (fun copy r hcopy hnone _ => ?_)⟩
      rw [hcopy] at hnone
      cases hnone
  | late hexec =>
    obtain ⟨hkey, hdone⟩ := hcall _ _ hexec
    have hdeleted : Deleted u n s s' := hdone
    exact ⟨hdeleted.ready h, hdeleted.apart, hdeleted.crashed_iff hkey⟩

/-- `P` holds of the databases if the call returns. -/
def IfReturned {α : Type} (P : Databases → Prop) : Outcome NovaError α → Databases → Prop
  | .returned _, s => P s
  | .raised _, _ => True
  | .crashed, _ => True

/-- No key but `k` is live in both databases. -/
def ApartBut (k : String × String) (s : Databases) : Prop :=
  ∀ k', k' ≠ k → (s.api.find k'.1 k'.2).isSome → s.live k' = none

/-- One row of a migration that completes: its key is in one database after it. -/
theorem wp_migrateKeypair_apart (r : MainKeyPairRow) (done : Nat) (h : Apart s) :
    wp anyPoint (IfReturned Apart) (migrateKeypair caller.toContext done r) s := by
  have hcreate : wp anyPoint (IfReturned (ApartBut r.key)) (tryCatch (createInDb r) passExists)
      s := by
    rw [wp_tryCatch]
    unfold createInDb
    rw [wp_transaction]
    refine ⟨fun _ => trivial, fun now => ?_⟩
    cases hins : s.api.insert? (copyRow r now) (fun _ => rfl) with
    | none => exact fun k _ => h k
    | some api =>
      intro k hk hfound
      refine h k ?_
      rw [show Databases.api { s with api := api } = api from rfl, find_insert? hins,
        if_neg (fun he => hk he.symm), Option.or_none] at hfound
      exact hfound
  unfold migrateKeypair
  rw [wp_bind]
  refine wp_mono hcreate (fun o s₁ ho => ?_)
  cases o with
  | raised e => trivial
  | crashed => trivial
  | returned a =>
    dsimp only
    rw [wp_bind]
    unfold keyPairDestroy
    rw [wp_bind, wp_compute, caller.accepted]
    dsimp only
    rw [wp_transaction, modelQuery_hides caller.hides]
    refine ⟨fun _ => trivial, fun now => ?_⟩
    dsimp only [bind, Except.bind]
    split
    · next a' s'' hdestroy =>
      split at hdestroy
      · cases hdestroy
      · cases hdestroy
        show Apart (s₁.deleteLive now r.key)
        intro k hk
        rw [live_deleteLive]
        split
        · rfl
        · next hne => exact ho k hne hk
    · trivial

/-- While an instance has no key pair data yet, a migration does nothing. -/
theorem wp_migrate_blocked {count : Nat} (h : s.unmigratedInstances ≠ 0) :
    wp anyPoint (fun o s' => s' = s ∧ ∀ e, o ≠ .raised e)
      (StoreCall.prog caller.toContext (.migrate count)) s := by
  show wp anyPoint _ (migrateKeypairsToApiDb caller.toContext count >>= fun _ => pure ()) s
  unfold migrateKeypairsToApiDb countUnmigratedInstances
  rw [wp_bind, wp_bind, wp_reading]
  refine ⟨fun _ => ⟨rfl, fun e he => by cases he⟩, ?_⟩
  dsimp only
  rw [if_pos h]
  exact ⟨rfl, fun e he => by cases he⟩

/-- A migration changes no key and raises nothing. -/
theorem wp_migrate (caller : Caller) (count : Nat) (h : Ready s) :
    wp anyPoint (fun o s' => (Ready s' ∧ s'.keys = s.keys) ∧ ∀ e, o ≠ .raised e)
      (StoreCall.prog caller.toContext (.migrate count)) s := by
  by_cases hmigrated : s.unmigratedInstances = 0
  · have hstart : Intact s s := ⟨h, hmigrated, fun _ _ => rfl⟩
    have hready : ∀ {s'' : Databases}, Intact s s'' → Ready s'' ∧ s''.keys = s.keys :=
      fun hi => ⟨hi.one, funext fun k => hi.visible k.1 k.2⟩
    show wp anyPoint _ (migrateKeypairsToApiDb caller.toContext count >>= fun _ => pure ()) s
    rw [wp_bind]
    refine wp_mono (wp_migrateKeypairsToApiDb caller.accepted caller.hides count hstart)
      (fun o s'' ho => ?_)
    cases o with
    | returned a => exact ⟨hready ho.1, fun e he => by cases he⟩
    | raised e => exact ho.elim
    | crashed => exact ⟨hready ho.1, fun e he => by cases he⟩
  · refine wp_mono (wp_migrate_blocked hmigrated) (fun o s'' ho => ?_)
    obtain ⟨rfl, hraises⟩ := ho
    exact ⟨⟨h, rfl⟩, hraises⟩

/-- A migration that returns keeps the databases apart. -/
theorem wp_migrate_apart {count : Nat} (h : Apart s) :
    wp anyPoint (IfReturned Apart) (StoreCall.prog caller.toContext (.migrate count)) s := by
  by_cases hmigrated : s.unmigratedInstances = 0
  · show wp anyPoint _ (migrateKeypairsToApiDb caller.toContext count >>= fun _ => pure ()) s
    unfold migrateKeypairsToApiDb countUnmigratedInstances getMainKeypairs
    rw [wp_bind, wp_bind, wp_reading]
    refine ⟨fun _ => trivial, ?_⟩
    dsimp only
    rw [if_neg (by rw [hmigrated]; simp), wp_bind, wp_reading]
    refine ⟨fun _ => trivial, ?_⟩
    dsimp only
    rw [wp_bind]
    refine wp_mono (wp_foldlM anyPoint (I := fun _ _ s' => Apart s')
      (E := fun _ _ => True) (fun r _ done s₁ h₁ => ?_) (s.liveRows.take count) 0 s h)
      (fun o s'' ho => ?_)
    · refine wp_mono (wp_migrateKeypair_apart r done h₁) (fun o s₂ ho => ?_)
      cases o with
      | returned a => exact ho
      | raised e => trivial
      | crashed => trivial
    · cases o with
      | returned a => exact ho
      | raised e => trivial
      | crashed => trivial
  · refine wp_mono (wp_migrate_blocked hmigrated) (fun o s'' ho => ?_)
    obtain ⟨rfl, -⟩ := ho
    cases o with
    | returned a => exact h
    | raised e => trivial
    | crashed => trivial

/-- A migration does not change the keys, and keeps the databases apart unless it crashes. -/
theorem migrate_step {count : Nat} {out : Outcome NovaError Unit} (h : Ready s)
    (hstep : StoreStep ((caller, .migrate count), out) s s') :
    Ready s' ∧ (out ≠ .crashed → Apart s → Apart s') ∧
      StoreCall.spec (.migrate count, out) s.keys s'.keys := by
  have hcall := wp_iff_exec.mp (wp_migrate caller count h)
  cases hstep with
  | ends hexec =>
    obtain ⟨⟨hready, hkeys⟩, hraises⟩ := hcall _ _ hexec
    cases out with
    | returned a =>
      exact ⟨hready, fun _ ha => wp_iff_exec.mp (wp_migrate_apart ha) _ _ hexec, hkeys⟩
    | raised e => exact absurd rfl (hraises e)
    | crashed => exact ⟨hready, fun hne => absurd rfl hne, hkeys⟩
  | late hexec =>
    obtain ⟨⟨hready, hkeys⟩, -⟩ := hcall _ _ hexec
    exact ⟨hready, fun hne => absurd rfl hne, hkeys⟩

/-- **One call** keeps the databases apart, but for a migration that crashes, and is one of the
one store exactly if it is `single`. -/
theorem store_step (l : StoreLabel) (h : Ready s) (hstep : StoreStep l s s') :
    Ready s' ∧ ((∀ caller count, l ≠ ((caller, .migrate count), .crashed)) → Apart s → Apart s') ∧
      (StoreCall.spec (l.1.2, l.2) s.keys s'.keys ↔ StoreCall.single (l.1.2, l.2) s s') := by
  obtain ⟨⟨caller, c⟩, out⟩ := l
  cases c with
  | create o =>
    obtain ⟨hready, hapart, hspec⟩ := create_step h hstep
    exact ⟨hready, fun _ => hapart, iff_of_true hspec trivial⟩
  | destroyByName u n =>
    obtain ⟨hready, hapart, hspec⟩ := destroy_step h hstep
    exact ⟨hready, fun _ => hapart, hspec⟩
  | migrate count =>
    obtain ⟨hready, hapart, hspec⟩ := migrate_step h hstep
    refine ⟨hready, fun hne => hapart (fun hout => hne caller count ?_), iff_of_true hspec trivial⟩
    rw [hout]

theorem single_of_apart (h : Apart s) (c : StoreCall × Outcome NovaError Unit) :
    StoreCall.single c s s' := by
  obtain ⟨c, out⟩ := c
  cases c with
  | create o => trivial
  | destroyByName u n =>
    cases out with
    | returned a => exact h (u, n)
    | raised e => trivial
    | crashed =>
      intro copy r hcopy _ hlive
      rw [h (u, n) (by rw [show s.api.find (u, n).1 (u, n).2 = some copy from hcopy]; rfl)] at hlive
      cases hlive
  | migrate count => trivial

/-- Where no migration crashes, every run is one of the one store. -/
theorem run_apart (h : Ready s) (hapart : Apart s) {ls : List StoreLabel}
    (hcrash : ∀ caller count, ((caller, StoreCall.migrate count), Outcome.crashed) ∉ ls)
    (hrun : Run StoreStep s ls s') :
    Apart s' ∧ Run (fun l => StoreCall.spec (l.1.2, l.2)) s.keys ls s'.keys := by
  induction hrun with
  | nil s => exact ⟨hapart, .nil _⟩
  | @cons s s₁ s' l ls hstep _ ih =>
    obtain ⟨hready, hkeeps, hspec⟩ := store_step l h hstep
    have hne : ∀ caller count, l ≠ ((caller, .migrate count), .crashed) :=
      fun caller count he => hcrash caller count (he ▸ List.mem_cons_self ..)
    obtain ⟨hend, hruns⟩ := ih hready (hkeeps hne hapart)
      (fun caller count hmem => hcrash caller count (List.mem_cons_of_mem _ hmem))
    exact ⟨hend, .cons (hspec.mpr (single_of_apart hapart _)) hruns⟩

/-- **The two databases are one store.** Take any run of creations, deletions and migrations, each
in a context of its own and each of which may crash between two of its transactions. Its calls do
to the keys what the one store says exactly if no deletion that returns is of a key that is live
in both databases, and none that crashes takes away a copy whose original has other content. If no
key is in both at the start and no migration crashes, none is at the end, and the run is one of
the one store. -/
theorem store_refines_iff (h : Ready s) (ls : List StoreLabel) :
    (Run (fun l s s' => StoreStep l s s' ∧ StoreCall.spec (l.1.2, l.2) s.keys s'.keys) s ls s' ↔
      Run (fun l s s' => StoreStep l s s' ∧ StoreCall.single (l.1.2, l.2) s s') s ls s') ∧
    (Apart s → (∀ caller count, ((caller, StoreCall.migrate count), Outcome.crashed) ∉ ls) →
      Run StoreStep s ls s' →
        Apart s' ∧ Run (fun l => StoreCall.spec (l.1.2, l.2)) s.keys ls s'.keys) := by
  refine ⟨Run.congr ?_ ?_ h, fun hapart hcrash hrun => run_apart h hapart hcrash hrun⟩
  · intro l s₁ s₂ hs hstep _
    exact (store_step l hs hstep).1
  · intro l s₁ s₂ hs hstep
    exact (store_step l hs hstep).2.2

/-- What a migration leaves that stops after its first copy. -/
def halfMigrated : Databases where
  api := ⟨⟨[⟨1, "alice", "laptop", some "3f:a1", some "ssh-rsa AAAA", "ssh", some 20, none⟩], 2,
    by decide, by decide⟩, by decide⟩
  main := sampleDatabases.main
  unmigratedInstances := 0

/-- The owner of the key. -/
def alice : Caller := ⟨⟨some "alice", some "p", false, "no"⟩, rfl, rfl⟩

/-- Her deletion of the key returns, and is none of the one store. -/
theorem store_refines_sample : ∃ s',
    Run StoreStep halfMigrated [((alice, .destroyByName "alice" "laptop"), .returned ())] s' ∧
    ¬ Run (fun l s s' => StoreStep l s s' ∧ StoreCall.spec (l.1.2, l.2) s.keys s'.keys)
      halfMigrated [((alice, .destroyByName "alice" "laptop"), .returned ())] s' := by
  refine ⟨_, .cons (.ends (.tx 30 (.ret _ _))) (.nil _), fun hspec => ?_⟩
  have hready : Ready halfMigrated := by
    unfold Ready
    decide
  have hsingle := (store_refines_iff hready _).1.mp hspec
  cases hsingle with
  | cons hstep _ =>
    have hboth : halfMigrated.live ("alice", "laptop") = none := hstep.2 (by decide)
    exact absurd hboth (by decide)

end PolarBear.KeyPairs
