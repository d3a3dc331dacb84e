import Mathlib.Data.Fintype.Card
import PolarBear.KeyPairs.Callers
import PolarBear.KeyPairs.Listing
import PolarBear.Lib.Overshoot
import PolarBear.Quota.LimitCheck

/-!
# The limit of key pairs

`KeypairAPI` counts the key pairs of the user before it creates one, and compares one more with the
quota. The count, in two transactions, and the insertion are apart, so callers that create at the
same time can get past the limit together.

`keyPair_limit_overshoot` is how far: if at most `w` calls are under way at any time, the user never
has more than `w - 1` key pairs over the limit, or as many as at the start. One call at a time stays
within the limit.
-/

namespace PolarBear.KeyPairs

open Transactions Db
open Transition (Run)
open Transactions.Prog (transaction reading compute)
open PolarBear.Quota (LimitTables Resources QuotaContext LimitError AbsoluteValues limitCheck)

/-- The exceptions of the API. -/
inductive KeypairError where
  | invalidKeypair (reason : String)
  | keypairLimitExceeded
  | quota (e : LimitError)
  | db (e : NovaError)
  | typeError
  deriving DecidableEq, Repr

/-- Programs of the API. -/
abbrev KeypairApiProg := Prog Nat Tx Databases KeypairError

/-- The request context of a call. -/
structure ApiContext where
  db : Context
  quotaClass : Option String

def ApiContext.quota (ctxt : ApiContext) : QuotaContext :=
  ⟨ctxt.db.projectId, ctxt.db.userId, ctxt.quotaClass⟩

/-- The module `crypto`: fingerprints of public keys, and new keys (private key, public key and
fingerprint). The second functions are those for X.509. -/
structure Crypto where
  generateFingerprint : String → Except KeypairError String
  generateX509Fingerprint : String → Except KeypairError String
  generateKeyPair : Except KeypairError (String × String × String)
  generateWinrmX509Cert : String → Except KeypairError (String × String × String)

/-! ## Checking a new key pair -/

/-- `check_string_length` of a string, whose name is itself. -/
def checkStringLength (value : String) (minLength maxLength : Nat) : Except String Unit :=
  if value.length < minLength then
    .error (value ++ " has a minimum character requirement of " ++ toString minLength ++ ".")
  else if maxLength ≠ 0 ∧ maxLength < value.length then
    .error (value ++ " has more than " ++ toString maxLength ++ " characters.")
  else .ok ()

/-- `"_- " + string.digits + string.ascii_letters`. -/
def safeChars : List Char :=
  "_- 0123456789abcdefghijklmnopqrstuvwxyzABCDEFGHIJKLMNOPQRSTUVWXYZ".toList

/-- The checks of the name. -/
def validateName (keyName : String) : Except KeypairError Unit :=
  if keyName.toList.filter (fun x => safeChars.contains x) ≠ keyName.toList then
    .error (.invalidKeypair "Keypair name contains unsafe characters")
  else
    match checkStringLength keyName 1 255 with
    | .ok () => .ok ()
    | .error _ =>
      .error (.invalidKeypair "Keypair name must be string and between 1 and 255 characters long")

/-- `Quotas.limit_check(context, key_pairs=count + 1)`. -/
def checkLimit (t : LimitTables) (resources : Resources) (ctxt : ApiContext) (count : Nat) :
    Except KeypairError Unit :=
  match limitCheck t resources ctxt.quota resources [("key_pairs", (count : Int) + 1)] none
      none with
  | .ok () => .ok ()
  | .error (.overQuota _ _ _) => .error .keypairLimitExceeded
  | .error e => .error (.quota e)

/-- `_validate_new_key_pair`; the two readings are those of `Quotas.count`. -/
def validateNewKeyPair (t : LimitTables) (resources : Resources) (ctxt : ApiContext)
    (userId keyName : String) : KeypairApiProg Unit := do
  compute (validateName keyName)
  let api ← reading .getFromDb (fun s => .ok (getCountFromDb userId s))
  let main ← reading .keyPairGet (fun s => (keyPairCountByUser ctxt.db userId s).mapError .db)
  compute (checkLimit t resources ctxt (api + main))

/-! ## The calls -/

/-- `_generate_fingerprint`; another type of key has none. -/
def generateFingerprint (crypto : Crypto) (publicKey keyType : String) :
    Except KeypairError (Option String) :=
  if keyType = "ssh" then (crypto.generateFingerprint publicKey).map some
  else if keyType = "x509" then (crypto.generateX509Fingerprint publicKey).map some
  else .ok none

/-- `_generate_key_pair`; for another type of key there is nothing to unpack. -/
def generateKeyPair (crypto : Crypto) (userId keyType : String) :
    Except KeypairError (String × String × String) :=
  if keyType = "ssh" then crypto.generateKeyPair
  else if keyType = "x509" then crypto.generateWinrmX509Cert userId
  else .error .typeError

/-- The calls of the API. -/
inductive KeypairCall where
  | importKeyPair (userId keyName publicKey keyType : String)
  | createKeyPair (userId keyName keyType : String)
  | deleteKeyPair (userId keyName : String)

section

variable (t : LimitTables) (resources : Resources) (crypto : Crypto) (ctxt : ApiContext)

/-- `import_key_pair`. -/
def importKeyPair (userId keyName publicKey keyType : String) : KeypairApiProg KeyPair := do
  validateNewKeyPair t resources ctxt userId keyName
  let fingerprint ← compute (generateFingerprint crypto publicKey keyType)
  (create ctxt.db ⟨none, userId, keyName, ⟨fingerprint, some publicKey, keyType⟩⟩).mapError .db

/-- `create_key_pair`, with the private key. -/
def createKeyPairAndKey (userId keyName keyType : String) : KeypairApiProg (KeyPair × String) := do
  validateNewKeyPair t resources ctxt userId keyName
  let (privateKey, publicKey, fingerprint) ← compute (generateKeyPair crypto userId keyType)
  let keypair ← (create ctxt.db ⟨none, userId, keyName,
    ⟨some fingerprint, some publicKey, keyType⟩⟩).mapError .db
  pure (keypair, privateKey)

/-- `delete_key_pair`. -/
def deleteKeyPair (userId keyName : String) : KeypairApiProg Unit :=
  (destroyByName ctxt.db userId keyName).mapError .db

/-- A call, with the key pair it returns and its private key. -/
def KeypairCall.prog : KeypairCall → KeypairApiProg (Option (KeyPair × Option String))
  | .importKeyPair userId keyName publicKey keyType => do
    let keypair ← KeyPairs.importKeyPair t resources crypto ctxt userId keyName publicKey keyType
    pure (some (keypair, none))
  | .createKeyPair userId keyName keyType => do
    let result ← createKeyPairAndKey t resources crypto ctxt userId keyName keyType
    pure (some (result.1, some result.2))
  | .deleteKeyPair userId keyName => do
    KeyPairs.deleteKeyPair ctxt userId keyName
    pure none

end

/-- The user that gets a key pair from the call. -/
def KeypairCall.creates : KeypairCall → Option String
  | .importKeyPair userId _ _ _ => some userId
  | .createKeyPair userId _ _ => some userId
  | .deleteKeyPair _ _ => none

/-! ## What a call adds -/

/-- The user has no live key in the main database. -/
def Moved (u : String) (s : Databases) : Prop := mainRows s u = []

theorem mainRows_eq (s : Databases) (u : String) :
    mainRows s u = s.liveRows.filter (fun r : MainKeyPairRow => r.userId == u) := by
  unfold mainRows Databases.liveRows
  rw [List.filter_filter]
  refine List.filter_congr (fun r _ => ?_)
  rw [Bool.and_comm]
  rfl

theorem Moved.of_main {u : String} {s s' : Databases} (h : Moved u s) (hmain : s'.main = s.main) :
    Moved u s' := by
  unfold Moved at h ⊢
  rw [mainRows_eq, liveRows_of_main hmain, ← mainRows_eq]
  exact h

theorem Moved.deleteLive {u : String} {s : Databases} (h : Moved u s) (now : Nat)
    (k : String × String) : Moved u (s.deleteLive now k) := by
  unfold Moved at h ⊢
  rw [mainRows_eq] at h
  rw [mainRows_eq, liveRows_deleteLive, List.filter_comm, h]
  rfl

/-- Inserting a row adds one to the keys of its user. -/
theorem count_insert {s : Databases} {o : NewKeyPair} {now : Nat} {api : ApiKeyPairs}
    (h : s.api.insert? (o.row now) (fun _ => rfl) = some api) (u : String) :
    getCountFromDb u { s with api := api } =
      getCountFromDb u s + if o.userId = u then 1 else 0 := by
  unfold ApiKeyPairs.insert? at h
  split at h
  · cases h
  · cases h
    show ((s.api.table.rows ++ [_]).filter (fun r : KeyPairRow => r.userId == u)).length = _
    rw [List.filter_append, List.length_append]
    refine congrArg (getCountFromDb u s + ·) ?_
    by_cases hu : o.userId = u
    · rw [if_pos hu, List.filter_cons_of_pos (p := fun r : KeyPairRow => r.userId == u)
        (beq_iff_eq.mpr hu)]
      rfl
    · rw [if_neg hu, List.filter_cons_of_neg (p := fun r : KeyPairRow => r.userId == u)
        (fun h => hu (beq_iff_eq.mp h))]
      rfl

/-- Deleting rows adds none. -/
theorem count_erase (s : Databases) (u userId name : String) :
    getCountFromDb u { s with api := s.api.erase userId name } ≤ getCountFromDb u s :=
  (List.filter_sublist.filter _).length_le

section

variable {ctxt : Context} {u : String}

/-- Any postcondition that asks for nothing. -/
abbrev Anything {ε α : Type} : Nat → Except ε α → Prop := fun _ _ => True

/-- The look into the main database adds nothing, whatever it finds. -/
theorem adds_keyPairGet {Q : Nat → Except NovaError MainKeyPairRow → Prop} {n : Nat}
    (h : ∀ out, Q n out) (userId name : String) :
    Adds (Moved u) (getCountFromDb u) Q (keyPairGet ctxt userId name) n := by
  unfold keyPairGet
  rw [adds_bind, adds_compute]
  cases requireContext ctxt with
  | error e => exact h _
  | ok _ => exact adds_reading (fun s _ => h _)

/-- `create` adds one key to its user. -/
theorem adds_create (o : NewKeyPair) :
    Adds (Moved u) (getCountFromDb u) Anything (create ctxt o)
      (if o.userId = u then 1 else 0) := by
  have hinsert : Adds (Moved u) (getCountFromDb u) Anything (createKeyPair o)
      (if o.userId = u then 1 else 0) := by
    refine adds_transaction (fun s hs now a s' ht => ?_) (fun _ _ _ _ _ => trivial)
    split at ht
    · next api hins =>
      cases ht
      have hcount := count_insert hins u
      exact ⟨hs.of_main rfl, 0, Nat.zero_le _, by omega, trivial⟩
    · cases ht
  unfold create
  split
  · trivial
  · rw [adds_bind, adds_tryCatch, adds_bind]
    refine adds_keyPairGet (fun out => ?_) _ _
    cases out with
    | ok r => trivial
    | error e =>
      cases e with
      | keypairNotFound userId name => exact hinsert
      | _ => trivial

/-- `destroy_by_name` adds none. -/
theorem adds_destroyByName (hhide : ctxt.readDeleted = "no") (userId name : String) :
    Adds (Moved u) (getCountFromDb u) Anything (destroyByName ctxt userId name) 0 := by
  have hmain : Adds (Moved u) (getCountFromDb u) Anything (keyPairDestroy ctxt userId name) 0 := by
    unfold keyPairDestroy
    rw [adds_bind, adds_compute]
    cases requireContext ctxt with
    | error e => trivial
    | ok _ =>
      refine adds_transaction (fun s hs now a s' ht => ?_) (fun _ _ _ _ _ => trivial)
      rw [modelQuery_hides hhide] at ht
      dsimp only [bind, Except.bind] at ht
      split at ht
      · cases ht
      · cases ht
        exact ⟨hs.deleteLive now (userId, name), 0, Nat.le_refl _, Nat.le_refl _, trivial⟩
  unfold destroyByName
  rw [adds_tryCatch]
  refine adds_transaction (fun s hs now a s' ht => ?_) (fun s _ now e ht => ?_)
  · split at ht
    · cases ht
    · cases ht
      refine ⟨hs.of_main rfl, 0, Nat.le_refl _, ?_, trivial⟩
      have hcount := count_erase s u userId name
      omega
  · cases e with
    | keypairNotFound userId' name' =>
      split at ht
      · exact hmain
      · cases ht
    | _ => trivial

end

/-! ## What a call starts with -/

/-- The limit that the quota of a call sets for key pairs. -/
def keyPairLimit (t : LimitTables) (resources : Resources) (ctxt : ApiContext) : Int :=
  PolarBear.Quota.projectLimitByName t ctxt.quota resources none "key_pairs"

/-- What passes the check stays within the limit. -/
theorem checkLimit_ok {t : LimitTables} {resources : Resources} {ctxt : ApiContext} {count L : Nat}
    (hregistered : AbsoluteValues resources resources [("key_pairs", 0)])
    (hlimit : 0 ≤ keyPairLimit t resources ctxt ∧ keyPairLimit t resources ctxt ≤ L)
    (h : checkLimit t resources ctxt count = .ok ()) : count < L := by
  unfold checkLimit at h
  split at h
  · next hcheck =>
    have hpasses := (PolarBear.Quota.limitCheck_single hregistered
      (List.mem_cons_self ..)).mp hcheck
    have hover := (Bool.or_eq_false_iff.mp hpasses.2).1
    have hexceeds : ¬ (0 ≤ keyPairLimit t resources ctxt ∧
      keyPairLimit t resources ctxt < (count : Int) + 1) := of_decide_eq_false hover
    omega
  · cases h
  · cases h

section

variable {t : LimitTables} {resources : Resources} {crypto : Crypto} {ctxt : ApiContext}
  {u : String} {L : Nat} {α : Type}

/-- What is computed before the first transaction. -/
theorem admits_compute {ι τ σ ε β : Type} {I : σ → Prop} {m : σ → Nat} {x : Except ε α}
    {f : α → Prog ι τ σ ε β} (h : ∀ a, Admits I m L (f a)) :
    Admits I m L ((compute x : Prog ι τ σ ε α) >>= f) := by
  cases x with
  | ok a => exact h a
  | error e => trivial

/-- **A call that counts first**, and adds one at most after the check. -/
theorem admits_validated (hctxt : requireContext ctxt.db = .ok ())
    (hregistered : AbsoluteValues resources resources [("key_pairs", 0)]) {userId keyName : String}
    (hlimit : userId = u →
      0 ≤ keyPairLimit t resources ctxt ∧ keyPairLimit t resources ctxt ≤ L)
    {f : Unit → KeypairApiProg α}
    (hf : Adds (Moved u) (getCountFromDb u) Anything (f ()) (if userId = u then 1 else 0)) :
    Admits (Moved u) (getCountFromDb u) L
      (validateNewKeyPair t resources ctxt userId keyName >>= f) := by
  unfold validateNewKeyPair
  rw [Prog.bind_assoc]
  refine admits_compute (fun _ => ?_)
  rw [Prog.bind_assoc]
  refine admits_reading (fun s hs api hread => ?_)
  -- the check compares with what the first reading has, as the main database has no key
  cases hread
  rw [Prog.bind_assoc, adds_bind]
  refine adds_reading (fun s' hs' => ?_)
  have hmain : keyPairCountByUser ctxt.db userId s' = .ok (mainRows s' userId).length := by
    unfold keyPairCountByUser
    rw [hctxt]
    rfl
  rw [hmain]
  show Adds _ _ _ (compute (checkLimit t resources ctxt
    (getCountFromDb userId s + (mainRows s' userId).length)) >>= f) _
  rw [adds_bind, adds_compute]
  cases hcheck : checkLimit t resources ctxt
    (getCountFromDb userId s + (mainRows s' userId).length) with
  | error e => trivial
  | ok _ =>
    refine hf.mono ?_ (fun _ _ _ _ _ => trivial)
    by_cases hu : userId = u
    · have hbelow := checkLimit_ok hregistered (hlimit hu) hcheck
      have hcount : (mainRows s' userId).length = 0 := by
        rw [hu, hs']
        rfl
      rw [hu] at hbelow
      rw [if_pos hu, if_pos (by omega)]
    · rw [if_neg hu]
      exact Nat.zero_le _

/-- **A call** adds one key at most, and only if it counted less than the limit. -/
theorem admits_call (hctxt : requireContext ctxt.db = .ok ()) (hhide : ctxt.db.readDeleted = "no")
    (hregistered : AbsoluteValues resources resources [("key_pairs", 0)]) (c : KeypairCall)
    (hlimit : c.creates = some u →
      0 ≤ keyPairLimit t resources ctxt ∧ keyPairLimit t resources ctxt ≤ L) :
    Admits (Moved u) (getCountFromDb u) L (c.prog t resources crypto ctxt) := by
  cases c with
  | importKeyPair userId keyName publicKey keyType =>
    show Admits _ _ L (importKeyPair t resources crypto ctxt userId keyName publicKey keyType >>=
      fun keypair => pure (some (keypair, none)))
    unfold importKeyPair
    rw [Prog.bind_assoc]
    refine admits_validated hctxt hregistered (fun hu => hlimit (congrArg some hu)) ?_
    rw [Prog.bind_assoc, adds_bind, adds_compute]
    cases generateFingerprint crypto publicKey keyType with
    | error e => trivial
    | ok fingerprint =>
      dsimp only
      rw [adds_bind, adds_mapError]
      refine (adds_create ⟨none, userId, keyName, ⟨fingerprint, some publicKey, keyType⟩⟩).mono
        (Nat.le_refl _) (fun k k' out _ _ => ?_)
      cases out <;> trivial
  | createKeyPair userId keyName keyType =>
    show Admits _ _ L (createKeyPairAndKey t resources crypto ctxt userId keyName keyType >>=
      fun result => pure (some (result.1, some result.2)))
    unfold createKeyPairAndKey
    rw [Prog.bind_assoc]
    refine admits_validated hctxt hregistered (fun hu => hlimit (congrArg some hu)) ?_
    rw [Prog.bind_assoc, adds_bind, adds_compute]
    cases generateKeyPair crypto userId keyType with
    | error e => trivial
    | ok key =>
      obtain ⟨privateKey, publicKey, fingerprint⟩ := key
      dsimp only
      rw [Prog.bind_assoc, adds_bind, adds_mapError]
      refine (adds_create ⟨none, userId, keyName,
        ⟨some fingerprint, some publicKey, keyType⟩⟩).mono (Nat.le_refl _)
        (fun k k' out _ _ => ?_)
      cases out <;> trivial
  | deleteKeyPair userId keyName =>
    refine Adds.admits (Q := Anything) ?_
    show Adds _ _ _ (deleteKeyPair ctxt userId keyName >>= fun _ => pure none) 0
    unfold deleteKeyPair
    rw [adds_bind, adds_mapError]
    refine (adds_destroyByName hhide userId keyName).mono (Nat.le_refl _) (fun k k' out _ _ => ?_)
    cases out <;> trivial

end

/-! ## Any number of callers -/

/-- **The limit of key pairs.** Any number of callers import, create and delete key pairs, each in
its own context, and their transactions are interleaved in any way. Where the keys of a user have
been moved to the API database, and at most `w` calls are under way at any time, the user has at
most `w - 1` keys more than the limit `L` of those who create for him, or as many as at the
start. -/
theorem keyPair_limit_overshoot {κ : Type} [DecidableEq κ] (t : LimitTables)
    (resources : Resources) (crypto : Crypto) (ctxt : κ → ApiContext) (call : κ → KeypairCall)
    (u : String) (L w : Nat) (hctxt : ∀ k, requireContext (ctxt k).db = .ok ())
    (hhide : ∀ k, (ctxt k).db.readDeleted = "no")
    (hregistered : AbsoluteValues resources resources [("key_pairs", 0)])
    (hlimit : ∀ k, (call k).creates = some u →
      0 ≤ keyPairLimit t resources (ctxt k) ∧ keyPairLimit t resources (ctxt k) ≤ L)
    {s : Databases} (hmoved : mainRows s u = [])
    {c : Started κ Nat Tx Databases KeypairError (Option (KeyPair × Option String))} {ks : List κ}
    (hrun : Run (narrowTurn w)
      ⟨⟨s, fun k => (call k).prog t resources crypto (ctxt k)⟩, []⟩ ks c) :
    ∃ n n₀, getCountByUser adminContext u c.callers.store = .ok n ∧
      getCountByUser adminContext u s = .ok n₀ ∧ n + 1 ≤ max (n₀ + 1) (L + w) := by
  have hcount : ∀ s', Moved u s' →
      getCountByUser adminContext u s' = .ok (getCountFromDb u s') := by
    intro s' hs'
    have hnone : (mainRows s' u).length = 0 := by
      rw [hs']
      rfl
    unfold getCountByUser
    show Except.ok (getCountFromDb u s' + (mainRows s' u).length) = _
    rw [hnone, Nat.add_zero]
  obtain ⟨hend, hbound⟩ := overshoot_bounded
    (c := ⟨⟨s, fun k => (call k).prog t resources crypto (ctxt k)⟩, []⟩) hmoved rfl
    (fun k => admits_call (hctxt k) (hhide k) hregistered (call k) (hlimit k)) hrun
  exact ⟨_, _, hcount _ hend, hcount s hmoved, hbound⟩

/-- The quota of one key pair for everybody. -/
def oneKeyTables : LimitTables where
  quotas := [⟨some "p", "key_pairs", 1⟩]
  userQuotas := []
  classes := []
  usages := Table.empty
  distinct := List.Pairwise.nil

def keyResources : Resources := ⟨[⟨"key_pairs", 100, "check", false⟩], List.nodup_singleton _⟩

def aliceContext : ApiContext := ⟨⟨some "alice", some "p", false, "no"⟩, none⟩

/-- Fingerprints that are always the same. -/
def sampleCrypto : Crypto where
  generateFingerprint := fun _ => .ok "3f:a1"
  generateX509Fingerprint := fun _ => .ok "3f:a1"
  generateKeyPair := .ok ("private", "ssh-rsa AAAA", "3f:a1")
  generateWinrmX509Cert := fun _ => .ok ("private", "certificate", "3f:a1")

theorem nodup_noKeys :
    ((Table.empty : Table KeyPairRow KeyPairRow.id).rows.map KeyPairRow.key).Nodup :=
  List.nodup_nil

/-- No key pairs. -/
def noKeys : Databases := ⟨⟨Table.empty, nodup_noKeys⟩, [], 0⟩

/-- Two calls for one user, who may have one key pair. -/
def twoImports : Bool → KeypairCall
  | true => .importKeyPair "alice" "l" "ssh-rsa AAAA" "ssh"
  | false => .createKeyPair "alice" "d" "ssh"

/-- Both get past the check before one of them creates: the bound is reached. -/
theorem keyPair_limit_reached : ∃ c, Run (narrowTurn 2)
      ⟨⟨noKeys, fun k =>
        (twoImports k).prog oneKeyTables keyResources sampleCrypto aliceContext⟩, []⟩
      [true, true, false, false, true, true, false, false] c ∧
    getCountByUser adminContext "alice" c.callers.store = .ok 2 ∧
    ∃ n, getCountByUser adminContext "alice" c.callers.store = .ok n ∧ n + 1 ≤ 1 + 2 := by
  have hnarrow : ∀ c : Started Bool Nat Tx Databases KeypairError
      (Option (KeyPair × Option String)), Narrow 2 c :=
    fun c S _ => Finset.card_le_univ S
  have hrun : ∃ c, Run (narrowTurn 2)
      ⟨⟨noKeys, fun k =>
        (twoImports k).prog oneKeyTables keyResources sampleCrypto aliceContext⟩, []⟩
      [true, true, false, false, true, true, false, false] c ∧
      getCountByUser adminContext "alice" c.callers.store = .ok 2 :=
    ⟨_, .cons (narrowTurn_tx 1 rfl (hnarrow _)) (.cons (narrowTurn_tx 2 rfl (hnarrow _))
      (.cons (narrowTurn_tx 3 rfl (hnarrow _)) (.cons (narrowTurn_tx 4 rfl (hnarrow _))
      (.cons (narrowTurn_tx 5 rfl (hnarrow _)) (.cons (narrowTurn_tx 6 rfl (hnarrow _))
      (.cons (narrowTurn_tx 7 rfl (hnarrow _)) (.cons (narrowTurn_tx 8 rfl (hnarrow _))
      (.nil _)))))))), rfl⟩
  obtain ⟨c, hrun, htwo⟩ := hrun
  have hregistered : AbsoluteValues keyResources keyResources [("key_pairs", 0)] :=
    ⟨List.nodup_singleton _, by decide, by decide, by decide⟩
  obtain ⟨n, n₀, hn, hn₀, hbound⟩ := keyPair_limit_overshoot oneKeyTables keyResources sampleCrypto
    (fun _ => aliceContext) twoImports "alice" 1 2 (fun _ => rfl) (fun _ => rfl) hregistered
    (fun _ _ => by decide) (s := noKeys) rfl hrun
  cases hn₀
  exact ⟨c, hrun, htwo, n, hn, hbound⟩

end PolarBear.KeyPairs
