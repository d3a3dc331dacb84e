import Mathlib.Algebra.BigOperators.Group.List.Basic
import Mathlib.Algebra.GroupWithZero.Nat
import PolarBear.Archive.Turn

/-!
# Archiving conserves rows

The tables take their turns on one budget (`Pass`). Whether the call returns or raises,
each row is afterwards in its table or in its shadow table, and no more than the budget
were moved. If it returns, it tells the numbers; and what it has left of the rows it
looks for, it has left because the budget was spent or a foreign key refused, so a second
call moves nothing else (`archive_conserves`).
-/

namespace PolarBear.Archive

open PolarBear.Fallible

variable {δ : Type} {refuses : ForeignKeys δ} {now maxRows : Nat} {s s₁ : State δ}

/-- How many rows were moved out of some tables. -/
def countMoved (moved : String → List (Row δ)) (names : List String) : Nat :=
  (names.map (fun name => (moved name).length)).sum

/-- The turns of some tables. -/
structure Pass (now maxRows : Nat) (names : List String) (counts : List (String × Nat))
    (total : Nat) (s : State δ)
    (result : EStateM.Result ArchiveError (State δ) (List (String × Nat)))
    (moved : String → List (Row δ)) : Prop where
  untouched : ∀ name, name ∉ names ∨ skipped name = true →
    (endState result).db.table name = s.db.table name ∧ moved name = []
  sorted : (endState result).db.sortedTables = s.db.sortedTables
  shrinks : Shrinks s.db (endState result).db
  absent : ∀ name, s.db.table name = none →
    (endState result).db.table name = none ∧ moved name = []
  table : ∀ name t, s.db.table name = some t →
    ∃ t', (endState result).db.table name = some t' ∧ Moved now s.db name t t' (moved name)
  count : total + countMoved moved names ≤ maxRows
  keepsWarned : ∀ name ∈ s.warned, name ∈ (endState result).warned
  warned : ∀ name ∈ (endState result).warned,
    name ∈ s.warned ∨ (name ∈ names ∧ ∀ r ∈ moved name, ofInstances s.db.deletedUuids r = true)
  settled : ∀ name, Settled s.db name → moved name = []
  returned : ∀ counts' s', result = .ok counts' s' →
    (∀ name, counts'.lookup name =
      if moved name = [] then counts.lookup name else some (moved name).length) ∧
    (total + countMoved moved names < maxRows → ∀ name ∈ names, skipped name = false →
      name ∈ s'.warned ∨ Settled s'.db name)

/-- No more turns. -/
theorem pass_stop {names : List String} {counts : List (String × Nat)} {total : Nat}
    {result : EStateM.Result ArchiveError (State δ) (List (String × Nat))}
    (hend : endState result = s) (htotal : total ≤ maxRows)
    (hreturned : ∀ counts' s', result = .ok counts' s' →
      counts' = counts ∧ (total < maxRows → names = [])) :
    Pass now maxRows names counts total s result (fun _ => []) := by
  have hcount : countMoved (fun _ => ([] : List (Row δ))) names = 0 := by
    unfold countMoved
    exact List.sum_eq_zero (fun n hn => by
      obtain ⟨_, _, rfl⟩ := List.mem_map.mp hn
      rfl)
  refine ⟨fun name _ => ⟨by rw [hend], rfl⟩, by rw [hend], hend ▸ Shrinks.refl _,
    fun name h => ⟨by rw [hend]; exact h, rfl⟩,
    fun name t ht => ⟨t, by rw [hend]; exact ht, Moved.refl now s.db name t⟩, by omega,
    fun name h => hend ▸ h, fun name h => Or.inl (hend ▸ h), fun _ _ => rfl, ?_⟩
  intro counts' s' hresult
  obtain ⟨hcounts, hnone⟩ := hreturned counts' s' hresult
  refine ⟨fun name => ?_, fun hlt name hname => ?_⟩
  · rw [if_pos rfl, hcounts]
  · rw [hnone (by omega)] at hname
    cases hname

/-- A table that is not archived takes no turn. -/
theorem Pass.skip {name : String} {names : List String} {counts : List (String × Nat)}
    {total : Nat} {result : EStateM.Result ArchiveError (State δ) (List (String × Nat))}
    {moved : String → List (Row δ)} (hskipped : skipped name = true)
    (h : Pass now maxRows names counts total s result moved) :
    Pass now maxRows (name :: names) counts total s result moved := by
  have hnil : moved name = [] := (h.untouched name (Or.inr hskipped)).2
  have hcount : countMoved moved (name :: names) = countMoved moved names := by
    unfold countMoved
    rw [List.map_cons, List.sum_cons, hnil]
    exact Nat.zero_add _
  refine ⟨fun other hother => h.untouched other ?_, h.sorted, h.shrinks, h.absent, h.table,
    hcount ▸ h.count, h.keepsWarned,
    fun other hother => (h.warned other hother).imp_right (fun hand =>
      ⟨List.mem_cons_of_mem _ hand.1, hand.2⟩), h.settled, fun counts' s' hresult => ?_⟩
  · exact hother.imp_left (fun hnot hin => hnot (List.mem_cons_of_mem _ hin))
  · obtain ⟨hcounts, hleft⟩ := h.returned counts' s' hresult
    refine ⟨hcounts, fun hlt other hother hnot => ?_⟩
    rcases List.mem_cons.mp hother with rfl | hother
    · rw [hskipped] at hnot
      cases hnot
    · exact hleft (hcount ▸ hlt) other hother hnot

/-- What is raised later is about the tables that were there before. -/
theorem Turn.raised_back {name : String} {limit : Nat}
    {result : EStateM.Result ArchiveError (State δ) Nat} {moved : List (Row δ)}
    (h : Turn refuses now name limit s result moved) {e : ArchiveError}
    (he : Raised refuses (endState result).db e) : Raised refuses s.db e := by
  cases he with
  | @undeclared other hnone =>
    by_cases hother : other = name
    · subst hother
      cases ht : s.db.table other with
      | none => exact .undeclared ht
      | some t =>
        obtain ⟨t', ht', _⟩ := h.table t ht
        rw [ht'] at hnone
        cases hnone
    · rw [h.others other hother] at hnone
      exact .undeclared hnone
  | refused hrefuses => exact .refused hrefuses
  | @noId t ht hcol =>
    by_cases hname : "dns_domains" = name
    · subst hname
      cases ht₀ : s.db.table "dns_domains" with
      | none =>
        rw [(h.absent ht₀).1] at ht
        cases ht
      | some t₀ =>
        obtain ⟨t', ht', hmoved⟩ := h.table t₀ ht₀
        rw [ht'] at ht
        cases ht
        exact .noId ht₀ (hmoved.columns ▸ hcol)
    · rw [h.others _ hname] at ht
      exact .noId ht hcol

theorem countMoved_update {moved : String → List (Row δ)} {name : String} {names : List String}
    (hnew : name ∉ names) (moved₁ : List (Row δ)) :
    countMoved (Function.update moved name moved₁) (name :: names) =
      moved₁.length + countMoved moved names := by
  have hrest : names.map (fun other => (Function.update moved name moved₁ other).length) =
      names.map (fun other => (moved other).length) := by
    refine List.map_congr_left (fun other hother => ?_)
    rw [Function.update_of_ne (fun heq : other = name => hnew (heq ▸ hother))]
  unfold countMoved
  rw [List.map_cons, List.sum_cons, hrest, Function.update_self]

/-- The counts after a table has had its turn. -/
theorem lookup_counts (name : String) (n : Nat) (counts : List (String × Nat)) (other : String) :
    (if n = 0 then counts else Dict.set name n counts).lookup other =
      if other = name ∧ n ≠ 0 then some n else counts.lookup other := by
  by_cases hn : n = 0
  · rw [if_pos hn, if_neg (fun h => h.2 hn)]
  · rw [if_neg hn]
    by_cases hother : other = name
    · rw [if_pos ⟨hother, hn⟩, hother, Dict.lookup_set_self]
    · rw [if_neg (fun h => hother h.1), Dict.lookup_set_ne hother]

/-- The counts of the whole, from those of the tables that come after. -/
theorem lookup_counts_update {name : String} {counts counts' : List (String × Nat)}
    {moved : String → List (Row δ)} {moved₁ : List (Row δ)} (hnil : moved name = [])
    (hcounts : ∀ other, counts'.lookup other = if moved other = []
      then (if moved₁.length = 0 then counts else Dict.set name moved₁.length counts).lookup other
      else some (moved other).length) (other : String) :
    counts'.lookup other = if Function.update moved name moved₁ other = []
      then counts.lookup other
      else some (Function.update moved name moved₁ other).length := by
  rw [hcounts other, lookup_counts]
  by_cases hother : other = name
  · subst hother
    rw [Function.update_self, if_pos hnil]
    by_cases hempty : moved₁ = []
    · rw [if_pos hempty, hempty, if_neg (fun hand => hand.2 rfl)]
    · rw [if_neg hempty, if_pos ⟨rfl, fun hzero => hempty (List.length_eq_zero_iff.mp hzero)⟩]
  · have hsame : (if other = name ∧ moved₁.length ≠ 0 then some moved₁.length
        else counts.lookup other) = counts.lookup other := if_neg (fun hand => hother hand.1)
    rw [Function.update_of_ne hother, hsame]

/-- What a turn has warned of was warned of before, or is its own table. -/
theorem Turn.warned_of_mem {name : String} {limit : Nat}
    {result : EStateM.Result ArchiveError (State δ) Nat} {moved : List (Row δ)}
    (h : Turn refuses now name limit s result moved) {other : String}
    (hother : other ∈ (endState result).warned) :
    other ∈ s.warned ∨ other = name ∧ ∀ r ∈ moved, ofInstances s.db.deletedUuids r = true := by
  rcases h.warned with heq | ⟨heq, hof⟩
  · exact Or.inl (heq ▸ hother)
  · rw [heq] at hother
    rcases List.mem_cons.mp hother with rfl | hother
    · exact Or.inr ⟨rfl, hof⟩
    · exact Or.inl hother

theorem Turn.keepsWarned {name : String} {limit : Nat}
    {result : EStateM.Result ArchiveError (State δ) Nat} {moved : List (Row δ)}
    (h : Turn refuses now name limit s result moved) {other : String}
    (hother : other ∈ s.warned) : other ∈ (endState result).warned := by
  rcases h.warned with heq | ⟨heq, _⟩
  · exact heq ▸ hother
  · exact heq ▸ List.mem_cons_of_mem _ hother

/-- **A turn, and then the others.** -/
theorem Turn.pass {name : String} {names : List String} {counts : List (String × Nat)}
    {total : Nat} {result₁ : EStateM.Result ArchiveError (State δ) Nat}
    {result : EStateM.Result ArchiveError (State δ) (List (String × Nat))}
    {moved₁ : List (Row δ)} {moved : String → List (Row δ)}
    (hturn : Turn refuses now name (maxRows - total) s result₁ moved₁)
    (hnew : name ∉ names) (hskipped : skipped name = false) (htotal : total ≤ maxRows)
    (hleft : (∃ counts' s', result = .ok counts' s') → moved₁.length < maxRows - total →
      name ∈ (endState result₁).warned ∨ Settled (endState result₁).db name)
    (h : Pass now maxRows names
      (if moved₁.length = 0 then counts else Dict.set name moved₁.length counts)
      (total + moved₁.length) (endState result₁) result moved) :
    Pass now maxRows (name :: names) counts total s result (Function.update moved name moved₁) := by
  have hlength := hturn.length
  have hcount := @countMoved_update _ moved _ _ hnew moved₁
  -- the later turns leave this table alone
  obtain ⟨hsame, hnil⟩ := h.untouched name (Or.inl hnew)
  refine ⟨?untouched, h.sorted.trans hturn.sorted, hturn.shrinks.trans h.shrinks, ?absent, ?table,
    ?count, fun other hother => h.keepsWarned other (hturn.keepsWarned hother), ?warned, ?settled,
    fun counts' s' hresult => ⟨lookup_counts_update hnil (h.returned counts' s' hresult).1, ?left⟩⟩
  case untouched =>
    intro other hother
    have hne : other ≠ name := by
      rintro rfl
      rcases hother with hnot | hskip
      · exact hnot (List.mem_cons_self ..)
      · rw [hskipped] at hskip
        cases hskip
    obtain ⟨htable, hmoved⟩ := h.untouched other
      (hother.imp_left (fun hnot hin => hnot (List.mem_cons_of_mem _ hin)))
    rw [Function.update_of_ne hne]
    exact ⟨htable.trans (hturn.others other hne), hmoved⟩
  case absent =>
    intro other hnone
    by_cases hother : other = name
    · subst hother
      rw [Function.update_self]
      obtain ⟨hnone₁, hmoved₁⟩ := hturn.absent hnone
      exact ⟨hsame.trans hnone₁, hmoved₁⟩
    · rw [Function.update_of_ne hother]
      exact h.absent other ((hturn.others other hother).trans hnone)
  case table =>
    intro other t ht
    by_cases hother : other = name
    · subst hother
      rw [Function.update_self]
      obtain ⟨t', ht', hmoved⟩ := hturn.table t ht
      exact ⟨t', hsame.trans ht', hmoved⟩
    · rw [Function.update_of_ne hother]
      obtain ⟨t', ht', hmoved⟩ := h.table other t ((hturn.others other hother).trans ht)
      exact ⟨t', ht', hmoved.mono hturn.shrinks⟩
  case count =>
    have hrest := h.count
    omega
  case warned =>
    intro other hother
    rcases h.warned other hother with hin | ⟨hin, hof⟩
    · rcases hturn.warned_of_mem hin with hin | ⟨rfl, hof⟩
      · exact Or.inl hin
      · rw [Function.update_self]
        exact Or.inr ⟨List.mem_cons_self .., hof⟩
    · refine Or.inr ⟨List.mem_cons_of_mem _ hin, ?_⟩
      rw [Function.update_of_ne (fun heq : other = name => hnew (heq ▸ hin))]
      exact fun r hr => ofInstances_mono hturn.shrinks.uuids (hof r hr)
  case settled =>
    intro other hsettled
    by_cases hother : other = name
    · subst hother
      rw [Function.update_self]
      exact hturn.settled hsettled
    · rw [Function.update_of_ne hother]
      exact h.settled other (hsettled.mono hturn.shrinks (hturn.others other hother))
  case left =>
    intro hlt other hother hnot
    have hend : endState result = s' := by
      rw [hresult]
      rfl
    rw [hcount] at hlt
    rcases List.mem_cons.mp hother with rfl | hother
    · rcases hleft ⟨counts', s', hresult⟩ (by omega) with hwarned | hsettled
      · exact Or.inl (hend ▸ h.keepsWarned other hwarned)
      · exact Or.inr (hend ▸ hsettled.mono h.shrinks hsame)
    · exact (h.returned counts' s' hresult).2 (by omega) other hother hnot

/-- **The loop.** -/
theorem run_pass (refuses : ForeignKeys δ) (now maxRows : Nat) :
    ∀ (names : List String), names.Nodup → ∀ (counts : List (String × Nat)) (total : Nat)
      (s : State δ), total ≤ maxRows →
      ∃ moved, Pass now maxRows names counts total s
          ((archiveTables refuses now maxRows names counts total).run s) moved ∧
        ∀ e s', (archiveTables refuses now maxRows names counts total).run s = .error e s' →
          Raised refuses s.db e
  | [], _, counts, total, s, htotal => by
    refine ⟨_, pass_stop rfl htotal (fun counts' s' h => ?_), fun e s' h => (by cases h)⟩
    cases h
    exact ⟨rfl, fun _ => rfl⟩
  | name :: names, hnodup, counts, total, s, htotal => by
    obtain ⟨hnew, hnodup⟩ := List.nodup_cons.mp hnodup
    unfold archiveTables
    by_cases hskipped : skipped name = true
    · rw [if_pos hskipped]
      obtain ⟨moved, hpass, hraised⟩ :=
        run_pass refuses now maxRows names hnodup counts total s htotal
      exact ⟨moved, hpass.skip hskipped, hraised⟩
    · have hturns : skipped name = false := Bool.eq_false_of_not_eq_true hskipped
      rw [if_neg hskipped]
      obtain ⟨moved₁, hturn⟩ := run_turn refuses now name (maxRows - total) s
      have hlength := hturn.length
      cases hrun : (archiveDeletedRowsForTable refuses now name (maxRows - total)).run s with
      | error e s₁ =>
        rw [hrun] at hturn
        rw [run_bind_error hrun]
        refine ⟨_, hturn.pass hnew hturns htotal (fun hok => ?_)
          (pass_stop rfl (by omega) (fun counts' s' h => (by cases h))), fun e' s' h => ?_⟩
        · obtain ⟨_, _, h⟩ := hok
          cases h
        · cases h
          exact hturn.raised e s₁ rfl
      | ok n s₁ =>
        rw [hrun] at hturn
        obtain ⟨rfl, hleft⟩ := hturn.returned n s₁ rfl
        rw [run_bind_ok hrun]
        by_cases hfull : total + moved₁.length ≥ maxRows
        · rw [if_pos hfull]
          refine ⟨_, hturn.pass hnew hturns htotal (fun _ hlt => hleft hlt)
            (pass_stop rfl (by omega) (fun counts' s' h => ?_)), fun e' s' h => (by cases h)⟩
          cases h
          exact ⟨rfl, fun hlt => absurd hlt (by omega)⟩
        · rw [if_neg hfull]
          obtain ⟨moved, hpass, hraised⟩ := run_pass refuses now maxRows names hnodup
            (if moved₁.length = 0 then counts else Dict.set name moved₁.length counts)
            (total + moved₁.length) s₁ (by omega)
          exact ⟨_, hturn.pass hnew hturns htotal (fun _ hlt => hleft hlt) hpass,
            fun e s' h => hturn.raised_back (hraised e s' h)⟩

/-! ## The call -/

/-- What a call does to the tables. -/
structure Conserved (now maxRows : Nat) (db db' : Database δ) (moved : String → List (Row δ)) :
    Prop where
  absent : ∀ name, db.table name = none → db'.table name = none ∧ moved name = []
  table : ∀ name t, db.table name = some t →
    ∃ t', db'.table name = some t' ∧ Moved now db name t t' (moved name)
  others : ∀ name, name ∉ db.sortedTables ∨ skipped name = true →
    db'.table name = db.table name ∧ moved name = []
  count : countMoved moved db.sortedTables ≤ maxRows

theorem countMoved_reverse (moved : String → List (Row δ)) (names : List String) :
    countMoved moved names.reverse = countMoved moved names := by
  unfold countMoved
  rw [List.map_reverse, List.sum_reverse]

/-- The call is a pass over all tables. -/
theorem run_archiveDeletedRows (refuses : ForeignKeys δ) (now maxRows : Nat) (db : Database δ) :
    ∃ moved, Pass now maxRows db.sortedTables.reverse [] 0 ⟨db, []⟩
        ((archiveDeletedRows refuses now maxRows).run ⟨db, []⟩) moved ∧
      ∀ e s', (archiveDeletedRows refuses now maxRows).run ⟨db, []⟩ = .error e s' →
        Raised refuses db e :=
  run_pass refuses now maxRows db.sortedTables.reverse (List.nodup_reverse.mpr db.nodup) [] 0
    ⟨db, []⟩ (Nat.zero_le _)

theorem Pass.conserved {db : Database δ}
    {result : EStateM.Result ArchiveError (State δ) (List (String × Nat))}
    {moved : String → List (Row δ)}
    (h : Pass now maxRows db.sortedTables.reverse [] 0 ⟨db, []⟩ result moved) :
    Conserved now maxRows db (endState result).db moved where
  absent := h.absent
  table := h.table
  others := fun name hname => h.untouched name (hname.imp_left (fun hnot hin =>
    hnot (List.mem_reverse.mp hin)))
  count := by
    have hcount := h.count
    rw [countMoved_reverse, Nat.zero_add] at hcount
    exact hcount

/-- **Archiving conserves rows.** However the call ends, `moved` has gone from the tables into
their shadow tables. If it returns, the counts are those of `moved`, and a second call moves rows
out of a table only if the first was refused there or has spent its budget. -/
theorem archive_conserves (refuses : ForeignKeys δ) (now maxRows : Nat) (db : Database δ) :
    ∃ moved : String → List (Row δ),
      Conserved now maxRows db
        (endState ((archiveDeletedRows refuses now maxRows).run ⟨db, []⟩)).db moved ∧
      (∀ name ∈ (endState ((archiveDeletedRows refuses now maxRows).run ⟨db, []⟩)).warned,
        ∀ r ∈ moved name, ofInstances db.deletedUuids r = true) ∧
      (∀ e s', (archiveDeletedRows refuses now maxRows).run ⟨db, []⟩ = .error e s' →
        Raised refuses db e) ∧
      ∀ counts s', (archiveDeletedRows refuses now maxRows).run ⟨db, []⟩ = .ok counts s' →
        (∀ name, counts.lookup name =
          if moved name = [] then none else some (moved name).length) ∧
        ∀ (refuses₂ : ForeignKeys δ) (now₂ maxRows₂ : Nat), ∃ moved₂ : String → List (Row δ),
          Conserved now₂ maxRows₂ s'.db
            (endState ((archiveDeletedRows refuses₂ now₂ maxRows₂).run ⟨s'.db, []⟩)).db moved₂ ∧
          ∀ name, moved₂ name ≠ [] →
            countMoved moved db.sortedTables = maxRows ∨ name ∈ s'.warned := by
  obtain ⟨moved, hpass, hraised⟩ := run_archiveDeletedRows refuses now maxRows db
  refine ⟨moved, hpass.conserved, fun name hname r hr => ?_, hraised, fun counts s' hrun => ?_⟩
  · rcases hpass.warned name hname with hin | ⟨_, hof⟩
    · cases hin
    · exact hof r hr
  · obtain ⟨hcounts, hleft⟩ := hpass.returned counts s' hrun
    refine ⟨hcounts, fun refuses₂ now₂ maxRows₂ => ?_⟩
    obtain ⟨moved₂, hpass₂, _⟩ := run_archiveDeletedRows refuses₂ now₂ maxRows₂ s'.db
    refine ⟨moved₂, hpass₂.conserved, fun name hmoved => ?_⟩
    have hs' : (endState ((archiveDeletedRows refuses now maxRows).run ⟨db, []⟩)) = s' := by
      rw [hrun]
      rfl
    by_cases hspent : countMoved moved db.sortedTables = maxRows
    · exact Or.inl hspent
    · right
      have hcount := hpass.conserved.count
      have hlt : 0 + countMoved moved db.sortedTables.reverse < maxRows := by
        rw [countMoved_reverse]
        omega
      have hsorted : s'.db.sortedTables = db.sortedTables := hs' ▸ hpass.sorted
      by_cases harchived : name ∈ db.sortedTables ∧ skipped name = false
      · rcases hleft hlt name (List.mem_reverse.mpr harchived.1) harchived.2 with hwarned | hsettled
        · exact hwarned
        · exact absurd (hpass₂.settled name hsettled) hmoved
      · refine absurd (hpass₂.untouched name ?_).2 hmoved
        rw [hsorted]
        by_cases hin : name ∈ db.sortedTables
        · right
          by_contra hnot
          exact harchived ⟨hin, Bool.eq_false_of_not_eq_true hnot⟩
        · exact Or.inl (fun h => hin (List.mem_reverse.mp h))

/-- An instance that is soft-deleted, and an event of one of its actions. -/
def oneInstance : Database Unit where
  sortedTables := ["instances", "instance_actions", "instance_actions_events"]
  nodup := by decide
  table := fun name =>
    if name = "instances" then
      some ⟨["id", "uuid", "deleted"], [⟨.id 1, some "u1", none, none, some 1, none, ()⟩], some [],
        by decide⟩
    else if name = "instance_actions" then
      some ⟨["id", "instance_uuid", "deleted"],
        [⟨.id 7, none, some "u1", none, some 0, none, ()⟩], some [], by decide⟩
    else if name = "instance_actions_events" then
      some ⟨["id", "action_id", "deleted"], [⟨.id 5, none, none, some 7, some 0, none, ()⟩],
        some [], by decide⟩
    else none

/-- The event is moved with its action. It was not soft-deleted and has no instance, and it has got
a time of update besides its mark. -/
theorem archive_moves_event :
    ∃ counts s' t t' r r',
      (archiveDeletedRows (fun _ _ _ => false) 60 10).run ⟨oneInstance, []⟩ = .ok counts s' ∧
      oneInstance.table "instance_actions_events" = some t ∧ t.rows = [r] ∧
      s'.db.table "instance_actions_events" = some t' ∧ t'.rows = [] ∧ t'.shadow = some [r'] ∧
      softDeleted r = false ∧ ofInstances oneInstance.deletedUuids r = false ∧
      r' ≠ r ∧ r' ≠ { r with deleted := r.key.toId } :=
  ⟨_, _, _, _, _, _, rfl, rfl, rfl, rfl, rfl, rfl, rfl, rfl, by decide, by decide⟩

end PolarBear.Archive
