import PolarBear.KeyPairs.KeyPair

/-!
# Migrating key pairs hides no key and changes none

A migration runs as a sequence of calls, and a call may stop between two of its
transactions. What carries the proof through every such point is `Intact`: the
key that `get_by_name` finds for a user and a name has the content it had at the
start. Inserting a copy keeps it because the copy has the content of the live
row, and is not made where the API database has a key; deleting the row keeps it
because by then the API database has one (`wp_createInDb`, `wp_keyPairDestroy`).

The live rows of the main database are worked off from the front: a loop over the
first of them leaves the others (`wp_migrateEach`), so a completed call is done
with all it found, and calls that complete come to an end (`migration_keeps_keys`).
-/

namespace PolarBear.KeyPairs

open Transactions Db
open Transition (Run)
open Transactions.Prog (transaction reading compute)

variable {ctxt : Context}

/-- A crash may fall before any transaction. -/
abbrev anyPoint : Tx → Prop := fun _ => True

/-! ## What a reader sees -/

/-- The content of the key of a user and a name. -/
def Databases.visible (s : Databases) (userId name : String) : Option Content :=
  ((s.api.find userId name).map KeyPairRow.content).or
    ((s.liveRows.find? (fun r => r.key == (userId, name))).map
      (fun r => r.toKeyPairRow.content))

/-- What `get_by_name` gives when it runs by itself. -/
def found (ctxt : Context) (now : Nat) (s : Databases) (userId name : String) : Option KeyPair :=
  ((getByName ctxt userId name false).eval now s).1.toOption

theorem eval_getFromDb (now : Nat) (s : Databases) (userId name : String) :
    (tryCatch (getFromDb userId name >>= fun r => pure (some r)) passNotFound).eval now s =
      (.ok (s.api.find userId name), s) := by
  unfold getFromDb
  rw [eval_tryCatch, eval_bind, eval_reading]
  cases s.api.find userId name <;> rfl

theorem eval_keyPairGet (hctxt : requireContext ctxt = .ok ()) (hhide : ctxt.readDeleted = "no")
    (now : Nat) (s : Databases) (userId name : String) :
    (keyPairGet ctxt userId name).eval now s =
      (match s.liveRows.find? (fun r => r.key == (userId, name)) with
        | some r => .ok r
        | none => .error (.keypairNotFound userId name), s) := by
  unfold keyPairGet
  rw [eval_bind, eval_compute, hctxt]
  dsimp only
  rw [eval_reading, modelQuery_hides hhide]
  unfold Databases.liveRows
  rw [List.find?_filter]
  simp only [Bool.decide_and, Bool.decide_eq_true]
  rfl

theorem found_content (hctxt : requireContext ctxt = .ok ()) (hhide : ctxt.readDeleted = "no")
    (now : Nat) (s : Databases) (userId name : String) :
    (found ctxt now s userId name).map KeyPair.content = s.visible userId name := by
  unfold found getByName Databases.visible
  rw [if_neg Bool.false_ne_true, eval_bind, eval_getFromDb]
  dsimp only
  cases s.api.find userId name with
  | some r => rfl
  | none =>
    dsimp only
    rw [eval_bind, eval_keyPairGet hctxt hhide]
    cases s.liveRows.find? (fun r => r.key == (userId, name)) <;> rfl

/-! ## What a write does -/

theorem find_insert? {t t' : ApiKeyPairs} {row : Nat → KeyPairRow}
    {hkey : ∀ id, (row id).id = id} (h : t.insert? row hkey = some t') (userId name : String) :
    t'.find userId name = (t.find userId name).or
      (if (row t.table.next).key = (userId, name) then some (row t.table.next) else none) := by
  unfold ApiKeyPairs.insert? at h
  split at h
  · cases h
  · cases h
    show ((t.table.rows ++ [row t.table.next]).find? _) = _
    rw [List.find?_append, List.find?_singleton]
    by_cases hk : (row t.table.next).key = (userId, name)
    · rw [if_pos hk, if_pos (beq_iff_eq.mpr hk)]
      rfl
    · rw [if_neg hk, if_neg (fun he => hk (beq_iff_eq.mp he))]
      rfl

theorem insert?_none {t : ApiKeyPairs} {row : Nat → KeyPairRow}
    {hkey : ∀ id, (row id).id = id} (h : t.insert? row hkey = none) :
    (t.find (row t.table.next).userId (row t.table.next).name).isSome := by
  unfold ApiKeyPairs.insert? at h
  split at h
  · next hmem =>
    obtain ⟨r, hr, hkr⟩ := List.mem_map.mp hmem
    exact List.find?_isSome.mpr ⟨r, hr, beq_iff_eq.mpr hkr⟩
  · cases h

/-- Deleting a key takes the live rows of that key away, and no other. -/
theorem live_softDelete (rows : List MainKeyPairRow) (now : Nat) (k : String × String) :
    (rows.map (fun r => if r.deleted == 0 && r.key == k then r.softDelete now else r)).filter
        MainKeyPairRow.live =
      (rows.filter MainKeyPairRow.live).filter (fun r => r.key != k) := by
  rw [filter_map_dead]
  · refine List.filter_congr (fun r hr => ?_)
    have hlive : (r.deleted == 0) = true := (List.mem_filter.mp hr).2
    rw [hlive, Bool.true_and]
    rfl
  · intro r _ hdead
    have hzero : r.id = 0 := beq_iff_eq.mp hdead
    have := r.id_pos
    omega

/-! ## The invariant -/

/-- No key of `s₀` is hidden or changed in `s`. -/
structure Intact (s₀ s : Databases) : Prop where
  one : (s.liveRows.map (fun r => r.key)).Nodup
  migrated : s.unmigratedInstances = 0
  visible : ∀ userId name, s.visible userId name = s₀.visible userId name

variable {s₀ s : Databases}

/-- Where the copy of a live row is inserted, a reader sees what it saw. -/
theorem Intact.insert (h : Intact s₀ s) {r : MainKeyPairRow} (hr : r ∈ s.liveRows) {now : Nat}
    {api : ApiKeyPairs} (hins : s.api.insert? (copyRow r now) (fun _ => rfl) = some api) :
    Intact s₀ { s with api := api } := by
  refine ⟨h.one, h.migrated, fun userId name => ?_⟩
  rw [← h.visible userId name]
  show ((api.find userId name).map KeyPairRow.content).or _ = _
  unfold Databases.visible
  rw [find_insert? hins]
  cases s.api.find userId name with
  | some a => rfl
  | none =>
    by_cases hk : r.key = (userId, name)
    · have hlive := find_of_nodup h.one hr
      rw [hk] at hlive
      rw [hlive, if_pos (show (copyRow r now s.api.table.next).key = (userId, name) from hk)]
      rfl
    · rw [if_neg (show ¬ (copyRow r now s.api.table.next).key = (userId, name) from hk)]
      rfl

/-- Where the live row of a key that the API database has is deleted, too. -/
theorem Intact.destroy (h : Intact s₀ s) {r : MainKeyPairRow} {others : List MainKeyPairRow}
    (hlive : s.liveRows = r :: others) (hcopy : (s.api.find r.userId r.name).isSome)
    {s' : Databases} (hapi : s'.api = s.api)
    (hinst : s'.unmigratedInstances = s.unmigratedInstances)
    (hrest : s'.liveRows = others) : Intact s₀ s' := by
  refine ⟨?_, hinst.trans h.migrated, fun userId name => ?_⟩
  · have hone := h.one
    rw [hlive, List.map_cons, List.nodup_cons] at hone
    rw [hrest]
    exact hone.2
  · rw [← h.visible userId name]
    unfold Databases.visible
    rw [hapi, hrest, hlive]
    -- the key of the row is found in its copy now
    by_cases hk : r.key = (userId, name)
    · obtain ⟨rfl, rfl⟩ := Prod.mk.inj hk
      obtain ⟨a, ha⟩ := Option.isSome_iff_exists.mp hcopy
      rw [ha]
      rfl
    · have hmiss : ¬ (r.key == (userId, name)) = true := fun he => hk (beq_iff_eq.mp he)
      rw [List.find?_cons_of_neg (p := fun t : MainKeyPairRow => t.key == (userId, name)) hmiss]

/-! ## The migration -/

/-- The first half of a round: the key is in the API database after it. -/
theorem wp_createInDb (h : Intact s₀ s) {r : MainKeyPairRow} (hr : r ∈ s.liveRows) :
    wp anyPoint (fun o s' => match o with
        | .returned _ => Intact s₀ s' ∧ s'.liveRows = s.liveRows ∧
            (s'.api.find r.userId r.name).isSome
        | .raised _ => False
        | .crashed => Intact s₀ s' ∧ s'.liveRows = s.liveRows)
      (tryCatch (createInDb r) passExists) s := by
  rw [wp_tryCatch]
  unfold createInDb
  rw [wp_transaction]
  refine ⟨fun _ => ⟨h, rfl⟩, fun now => ?_⟩
  -- a copy from an earlier, interrupted round is found and passed over
  cases hins : s.api.insert? (copyRow r now) (fun _ => rfl) with
  | none => exact ⟨h, rfl, insert?_none hins⟩
  | some api =>
    refine ⟨h.insert hr hins, rfl, ?_⟩
    show (api.find r.userId r.name).isSome
    have hkey : (copyRow r now s.api.table.next).key = (r.userId, r.name) := rfl
    rw [find_insert? hins, if_pos hkey]
    cases s.api.find r.userId r.name <;> rfl

/-- The second half: the original is gone after it. -/
theorem wp_keyPairDestroy (hctxt : requireContext ctxt = .ok ()) (hhide : ctxt.readDeleted = "no")
    (h : Intact s₀ s) {r : MainKeyPairRow} {others : List MainKeyPairRow}
    (hlive : s.liveRows = r :: others) (hcopy : (s.api.find r.userId r.name).isSome) :
    wp anyPoint (fun o s' => match o with
        | .returned _ => Intact s₀ s' ∧ s'.liveRows = others
        | .raised _ => False
        | .crashed => Intact s₀ s' ∧ s'.liveRows = s.liveRows)
      (keyPairDestroy ctxt r.userId r.name) s := by
  have hmem : r ∈ s.liveRows := hlive ▸ List.mem_cons_self ..
  have hhit : ¬ (s.main.filter
      (fun t => t.deleted == 0 && t.key == (r.userId, r.name))).isEmpty = true := by
    intro hempty
    obtain ⟨hr, hdel⟩ := List.mem_filter.mp hmem
    have hno := List.filter_eq_nil_iff.mp (List.isEmpty_iff.mp hempty) r hr
    exact hno (Bool.and_eq_true_iff.mpr ⟨hdel, beq_iff_eq.mpr rfl⟩)
  -- live rows have different keys
  have hothers : (r :: others).filter (fun t => t.key != r.key) = others := by
    have hone := h.one
    rw [hlive] at hone
    exact filter_head_ne hone
  unfold keyPairDestroy
  rw [wp_bind, wp_compute, hctxt]
  dsimp only
  rw [wp_transaction, modelQuery_hides hhide]
  refine ⟨fun _ => ⟨h, rfl⟩, fun now => ?_⟩
  dsimp only [bind, Except.bind]
  rw [if_neg hhit]
  have hrest : Databases.liveRows { s with main := s.main.map (fun t =>
      if t.deleted == 0 && t.key == (r.userId, r.name) then t.softDelete now else t) } =
        others := by
    show (s.main.map _).filter MainKeyPairRow.live = others
    rw [live_softDelete]
    show s.liveRows.filter (fun t => t.key != r.key) = others
    rw [hlive, hothers]
  exact ⟨h.destroy hlive hcopy rfl rfl hrest, hrest⟩

/-- One round moves the first live row. -/
theorem wp_migrateKeypair (hctxt : requireContext ctxt = .ok ()) (hhide : ctxt.readDeleted = "no")
    (h : Intact s₀ s) {r : MainKeyPairRow} {others : List MainKeyPairRow}
    (hlive : s.liveRows = r :: others) (done : Nat) :
    wp anyPoint (fun o s' => match o with
        | .returned n => Intact s₀ s' ∧ s'.liveRows = others ∧ n = done + 1
        | .raised _ => False
        | .crashed => Intact s₀ s' ∧ s'.liveRows = s.liveRows)
      (migrateKeypair ctxt done r) s := by
  have hmem : r ∈ s.liveRows := hlive ▸ List.mem_cons_self ..
  unfold migrateKeypair
  rw [wp_bind]
  refine wp_mono (wp_createInDb h hmem) (fun o s₁ ho => ?_)
  cases o with
  | raised e => exact ho
  | crashed => exact ho
  | returned u =>
    obtain ⟨h₁, hlive₁, hcopy⟩ := ho
    dsimp only
    rw [wp_bind]
    refine wp_mono (wp_keyPairDestroy hctxt hhide h₁ (hlive₁.trans hlive) hcopy)
      (fun o s₂ ho => ?_)
    cases o with
    | raised e => exact ho
    | crashed => exact ⟨ho.1, ho.2.trans hlive₁⟩
    | returned u => exact ⟨ho.1, ho.2, rfl⟩

/-- The loop works off the rows it is given. -/
theorem wp_migrateEach (hctxt : requireContext ctxt = .ok ()) (hhide : ctxt.readDeleted = "no")
    (h : Intact s₀ s) {rows others : List MainKeyPairRow} (hlive : s.liveRows = rows ++ others) :
    wp anyPoint (fun o s' => match o with
        | .returned n => Intact s₀ s' ∧ s'.liveRows = others ∧ n = rows.length
        | .raised _ => False
        | .crashed => Intact s₀ s' ∧ s'.liveRows.length ≤ s.liveRows.length)
      (rows.foldlM (migrateKeypair ctxt) 0) s := by
  have hshort : ∀ {s' : Databases} {r : MainKeyPairRow} {rest : List MainKeyPairRow},
      s'.liveRows = r :: rest → s'.liveRows.length ≤ s.liveRows.length →
        rest.length ≤ s.liveRows.length := by
    intro s' r rest hlive hlen
    rw [hlive, List.length_cons] at hlen
    omega
  have hloop := wp_workOff anyPoint (migrateKeypair ctxt) Databases.liveRows id
    (P := fun s' => Intact s₀ s' ∧ s'.liveRows.length ≤ s.liveRows.length)
    (R := fun _ _ => False)
    (C := fun s' => Intact s₀ s' ∧ s'.liveRows.length ≤ s.liveRows.length) ?_
    ⟨h, Nat.le_refl _⟩ hlive
  · rw [List.map_id] at hloop
    refine wp_mono hloop (fun o s' ho => ?_)
    cases o with
    | raised e => exact ho
    | crashed => exact ho
    | returned n => exact ⟨ho.1.1, ho.2.1, ho.2.2⟩
  · rintro s₁ r rest done ⟨h₁, hlen⟩ hlive₁
    refine wp_mono (wp_migrateKeypair hctxt hhide h₁ hlive₁ done) (fun o s₂ ho => ?_)
    cases o with
    | raised e => exact ho
    | crashed => exact ⟨ho.1, ho.2 ▸ hlen⟩
    | returned n => exact ⟨⟨ho.1, ho.2.1 ▸ hshort hlive₁ hlen⟩, ho.2.1, ho.2.2⟩

/-- A call that completes has moved everything it found. -/
theorem wp_migrateKeypairsToApiDb (hctxt : requireContext ctxt = .ok ())
    (hhide : ctxt.readDeleted = "no") (count : Nat) (h : Intact s₀ s) :
    wp anyPoint (fun o s' => match o with
        | .returned r => Intact s₀ s' ∧ r.2 = r.1 ∧ r.1 = min count s.liveRows.length ∧
            s'.liveRows = s.liveRows.drop count
        | .raised _ => False
        | .crashed => Intact s₀ s' ∧ s'.liveRows.length ≤ s.liveRows.length)
      (migrateKeypairsToApiDb ctxt count) s := by
  have hcrash : Intact s₀ s ∧ s.liveRows.length ≤ s.liveRows.length := ⟨h, Nat.le_refl _⟩
  unfold migrateKeypairsToApiDb countUnmigratedInstances getMainKeypairs
  rw [wp_bind, wp_reading]
  refine ⟨fun _ => hcrash, ?_⟩
  dsimp only
  rw [if_neg (by rw [h.migrated]; simp), wp_bind, wp_reading]
  refine ⟨fun _ => hcrash, ?_⟩
  dsimp only
  rw [wp_bind]
  refine wp_mono (wp_migrateEach hctxt hhide h (List.take_append_drop count s.liveRows).symm)
    (fun o s' ho => ?_)
  cases o with
  | raised e => exact ho
  | crashed => exact ho
  | returned n => exact ⟨ho.1, ho.2.2, List.length_take, ho.2.1⟩

/-! ## Runs of calls -/

/-- A call of the migration in a run, and how it ended. -/
abbrev Call : Type := Nat × Outcome NovaError (Nat × Nat)

/-- How many calls of a run completed. -/
def completed (calls : List Call) : Nat := calls.countP (fun c => c.2.completed)

abbrev MigrationStep (ctxt : Context) : Call → Databases → Databases → Prop :=
  CallStep anyPoint (migrateKeypairsToApiDb ctxt)

/-- One call: no key is lost, and a completed one works off a live row if there is one. -/
theorem call_intact (hctxt : requireContext ctxt = .ok ()) (hhide : ctxt.readDeleted = "no")
    {c : Call} (hcount : 1 ≤ c.1) {s' : Databases} (h : Intact s₀ s)
    (hstep : MigrationStep ctxt c s s') :
    Intact s₀ s' ∧ s'.liveRows.length ≤ s.liveRows.length - completed [c] := by
  have hcall := wp_iff_exec.mp (wp_migrateKeypairsToApiDb hctxt hhide c.1 h)
  cases hstep with
  | @ends count o _ _ hexec =>
    have ho := hcall o s' hexec
    cases o with
    | raised e => exact absurd ho id
    | crashed => exact ho
    | returned r =>
      refine ⟨ho.1, ?_⟩
      have hcount' : 1 ≤ count := hcount
      rw [ho.2.2.2, List.length_drop]
      show s.liveRows.length - count ≤ s.liveRows.length - 1
      omega
  | @late count r _ _ hexec =>
    have ho := hcall _ s' hexec
    refine ⟨ho.1, ?_⟩
    rw [ho.2.2.2, List.length_drop]
    show s.liveRows.length - count ≤ s.liveRows.length
    omega

theorem run_intact (hctxt : requireContext ctxt = .ok ()) (hhide : ctxt.readDeleted = "no")
    {calls : List Call} {s' : Databases} (hrun : Run (MigrationStep ctxt) s calls s')
    (hcounts : ∀ c ∈ calls, 1 ≤ c.1) (h : Intact s₀ s) :
    Intact s₀ s' ∧ s'.liveRows.length ≤ s.liveRows.length - completed calls := by
  induction hrun with
  | nil s => exact ⟨h, Nat.le_refl _⟩
  | @cons s s₁ s' c calls hstep _ ih =>
    obtain ⟨hfirst, hrest⟩ := List.forall_mem_cons.mp hcounts
    obtain ⟨h₁, hlen₁⟩ := call_intact hctxt hhide hfirst h hstep
    obtain ⟨h', hlen'⟩ := ih hrest h₁
    have hsum : completed (c :: calls) = completed [c] + completed calls := by
      unfold completed
      rw [← List.countP_append]
      rfl
    exact ⟨h', by omega⟩

/-- **Main result.** Take any run of migration calls, each possibly cut short between two
of its transactions. Where it stops, `get_by_name` finds for every user and name a key
exactly when it found one at the start, with the same fingerprint, public key and type. A
call from there raises nothing, returns when it is left alone, and when it returns having
found rows it is done with all of them and leaves fewer live rows. Once as many calls have
completed as there were live rows, none is left, and the API database has at most one row
for each user and name. -/
theorem migration_keeps_keys (hadmin : ctxt.isAdmin = true) (hhide : ctxt.readDeleted = "no")
    {s s' : Databases} (hone : (s.liveRows.map (fun r => r.key)).Nodup)
    (hmigrated : s.unmigratedInstances = 0) {calls : List Call}
    (hcounts : ∀ c ∈ calls, 1 ≤ c.1) (hrun : Run (MigrationStep ctxt) s calls s') :
    (∀ now userId name, (found ctxt now s' userId name).map KeyPair.content =
      (found ctxt now s userId name).map KeyPair.content) ∧
    (∀ count, 1 ≤ count →
      (∀ now, ∃ r, ((migrateKeypairsToApiDb ctxt count).eval now s').1 = .ok r) ∧
      ∀ n done s'', Exec anyPoint (migrateKeypairsToApiDb ctxt count) s' (.returned (n, done)) s'' →
        n ≠ 0 → done = n ∧ s''.liveRows.length < s'.liveRows.length) ∧
    (s.liveRows.length ≤ completed calls → s'.liveRows = [] ∧
      ∀ r ∈ s'.api.table.rows, ∀ t ∈ s'.api.table.rows, r.key = t.key → r = t) := by
  have hctxt := requireContext_admin hadmin
  have hstart : Intact s s := ⟨hone, hmigrated, fun _ _ => rfl⟩
  obtain ⟨h, hlen⟩ := run_intact hctxt hhide hrun hcounts hstart
  refine ⟨fun now userId name => ?_, fun count hcount => ?_, fun hall => ?_⟩
  · rw [found_content hctxt hhide, found_content hctxt hhide, h.visible]
  · have hcall := wp_iff_exec.mp (wp_migrateKeypairsToApiDb hctxt hhide count h)
    refine ⟨fun now => ?_, fun n done s'' hexec hn => ?_⟩
    · have hend := hcall _ _ (exec_eval now (migrateKeypairsToApiDb ctxt count) s')
      cases hr : ((migrateKeypairsToApiDb ctxt count).eval now s').1 with
      | ok r => exact ⟨r, rfl⟩
      | error e =>
        rw [hr] at hend
        exact absurd hend id
    · obtain ⟨-, hdone, hn', hrest⟩ := hcall _ _ hexec
      refine ⟨hdone, ?_⟩
      have hmin : n = min count s'.liveRows.length := hn'
      rw [hrest, List.length_drop]
      omega
  · refine ⟨List.eq_nil_of_length_eq_zero (by omega), fun r hr t ht hk => ?_⟩
    exact List.inj_on_of_nodup_map s'.api.uniq hr ht hk

/-- One key in the main database, none in the API database. -/
def sampleDatabases : Databases where
  api := ⟨⟨[], 1, List.Pairwise.nil, fun _ h => absurd h List.not_mem_nil⟩, List.nodup_nil⟩
  main := [⟨⟨4, "alice", "laptop", some "3f:a1", some "ssh-rsa AAAA", "ssh", some 10, none⟩,
    0, none, by decide⟩]
  unmigratedInstances := 0

/-- A crash between the copy and the delete, and a second call that completes. -/
theorem migration_keeps_keys_sample : ∃ s',
    Run (MigrationStep adminContext) sampleDatabases [(1, .crashed), (1, .returned (1, 1))] s' ∧
      (found adminContext 0 s' "alice" "laptop").map KeyPair.content =
        (found adminContext 0 sampleDatabases "alice" "laptop").map KeyPair.content ∧
      s'.liveRows = [] := by
  have hrun : ∃ s', Run (MigrationStep adminContext) sampleDatabases
      [(1, .crashed), (1, .returned (1, 1))] s' :=
    ⟨_, .cons (.ends (.tx 20 (.tx 20 (.tx 20 (.crash trivial _ _ _)))))
      (.cons (.ends (.tx 30 (.tx 30 (.tx 30 (.tx 30 (.ret _ _)))))) (.nil _))⟩
  obtain ⟨s', hrun⟩ := hrun
  have hadmin : adminContext.isAdmin = true := rfl
  obtain ⟨hsame, -, hend⟩ := migration_keeps_keys hadmin rfl (by decide) rfl (by decide) hrun
  exact ⟨s', hrun, hsame 0 "alice" "laptop", (hend (by decide)).1⟩

end PolarBear.KeyPairs
