import Mathlib.Data.List.Basic
import Mathlib.Data.List.Induction
import Mathlib.Data.List.Nodup
import Mathlib.Logic.Function.Basic

/-!
# Unlocked read-modify-write over one shared cell

Any number of clients update one cell, each in two atomic steps: it reads the
cell, computes on its own copy, and writes the copy back whole. Nothing locks
the cell in between, so a write silently discards whatever was written since
the writer's own read. `run` executes one interleaving of the steps.

What survives is a matter of provenance: `prov evs` is the list of clients
whose updates make up the current cell, in the order they were applied.
`run_replay` says so (the cell is the replay of its provenance), and
`serial_iff` settles when nobody is lost:

> every writer is in the provenance exactly when no write falls between some
> client's own read and write.

Such a run is then the sequential execution of its writers in write order
(`prov_eq_writers`).
-/

namespace PolarBear.Rmw

/-- One atomic step of client `i`. -/
inductive Event (ι : Type) where
  | read (i : ι)
  | write (i : ι)
  deriving DecidableEq, Repr

/-- How far a client has come. -/
inductive Phase (τ : Type) where
  | idle
  | holding (copy : τ)
  | done

/-- A cell of type `σ`, the part `τ` of it that clients read and write back,
and what each client computes on its copy (`none`: it fails and never
writes). -/
structure System (ι σ τ : Type) where
  view : σ → τ
  put : τ → σ → σ
  view_put : ∀ t s, view (put t s) = t
  update : ι → τ → Option τ

structure State (ι σ τ : Type) where
  cell : σ
  phase : ι → Phase τ

/-- Nobody has started yet. -/
def State.initial {ι σ τ : Type} (c : σ) : State ι σ τ := ⟨c, fun _ => .idle⟩

variable {ι σ τ : Type}

/-- The updates of the listed clients applied one after another. -/
def replay (S : System ι σ τ) (t : τ) : List ι → Option τ
  | [] => some t
  | i :: is => (S.update i t).bind (fun t' => replay S t' is)

theorem replay_append (S : System ι σ τ) (t : τ) (is js : List ι) :
    replay S t (is ++ js) = (replay S t is).bind (fun t' => replay S t' js) := by
  induction is generalizing t with
  | nil => rfl
  | cons i is ih =>
    rw [List.cons_append, replay, replay]
    cases hu : S.update i t with
    | none => rfl
    | some t' => exact ih t'

/-! ## Interleavings -/

/-- The writing clients, in the order of their writes. -/
def writers : List (Event ι) → List ι
  | [] => []
  | .read _ :: evs => writers evs
  | .write i :: evs => i :: writers evs

/-- No write falls between a client's own read and its write. -/
def Serial (evs : List (Event ι)) : Prop :=
  ∀ u i v t, evs = u ++ .read i :: (v ++ .write i :: t) → ∀ j, Event.write j ∉ v

theorem writers_append (u v : List (Event ι)) : writers (u ++ v) = writers u ++ writers v := by
  induction u with
  | nil => rfl
  | cons e u ih => cases e <;> simp [writers, ih]

theorem mem_writers {i : ι} {evs : List (Event ι)} : i ∈ writers evs ↔ Event.write i ∈ evs := by
  induction evs with
  | nil => simp [writers]
  | cons e evs ih => cases e <;> simp [writers, ih]

theorem serial_of_snoc {evs : List (Event ι)} {e : Event ι} (h : Serial (evs ++ [e])) :
    Serial evs := by
  intro u i v t heq
  exact h u i v (t ++ [e]) (by rw [heq]; simp)

/-- A trailing read opens no window that it closes. -/
theorem serial_snoc_read {evs : List (Event ι)} {i : ι} (h : Serial evs) :
    Serial (evs ++ [.read i]) := by
  intro u k v t heq
  rcases List.eq_nil_or_concat t with rfl | ⟨t', e, rfl⟩
  · have hsplit : evs ++ [.read i] = (u ++ .read k :: v) ++ [.write k] := by
      rw [heq]; simp
    cases (List.append_inj' hsplit rfl).2
  · rw [List.concat_eq_append] at heq
    have heq' : evs ++ [.read i] = (u ++ .read k :: (v ++ .write k :: t')) ++ [e] := by
      rw [heq]; simp
    exact h u k v t' (List.append_inj' heq' rfl).1

/-- The window that a trailing write closes is the one its client's only read
opened. -/
theorem serial_snoc_write {evs u v : List (Event ι)} {i : ι} (h : Serial evs)
    (heq : evs = u ++ .read i :: v) (hu : Event.read i ∉ u) (hv : Event.read i ∉ v)
    (hno : ∀ j, Event.write j ∉ v) : Serial (evs ++ [.write i]) := by
  intro u' k v' t heq'
  rcases List.eq_nil_or_concat t with rfl | ⟨t', e, rfl⟩
  · have hsplit : evs ++ [.write i] = (u' ++ .read k :: v') ++ [.write k] := by
      rw [heq']; simp
    obtain ⟨hevs, hik⟩ := List.append_inj' hsplit rfl
    cases hik
    rw [heq] at hevs
    have hvv : v = v' := (List.append_cons_inj_of_notMem hu hv |>.mp hevs).2.2
    rw [← hvv]
    exact hno
  · rw [List.concat_eq_append] at heq'
    have hsplit : evs ++ [.write i] = (u' ++ .read k :: (v' ++ .write k :: t')) ++ [e] := by
      rw [heq']; simp
    exact h u' k v' t' (List.append_inj' hsplit rfl).1

/-- An event other than the last one happened before. -/
theorem mem_of_mem_snoc {evs : List (Event ι)} {e e' : Event ι} (h : e' ∈ evs ++ [e])
    (hne : e ≠ e') : e' ∈ evs := by
  rcases List.mem_append.mp h with hold | hlast
  · exact hold
  · exact absurd (List.mem_singleton.mp hlast).symm hne

/-! ## Executing an interleaving -/

variable [DecidableEq ι]

/-- One step; `none` when the client is not at that point of its life. -/
def step (S : System ι σ τ) (s : State ι σ τ) : Event ι → Option (State ι σ τ)
  | .read i =>
    match s.phase i with
    | .idle => some { s with phase := Function.update s.phase i (.holding (S.view s.cell)) }
    | _ => none
  | .write i =>
    match s.phase i with
    | .holding c =>
      match S.update i c with
      | some t => some ⟨S.put t s.cell, Function.update s.phase i .done⟩
      | none => none
    | _ => none

/-- One interleaving, from left to right. -/
def run (S : System ι σ τ) (s : State ι σ τ) : List (Event ι) → Option (State ι σ τ)
  | [] => some s
  | e :: evs => (step S s e).bind (fun s' => run S s' evs)

/-- Whose updates make up the cell, and each client's copy of it. -/
structure Prov (ι : Type) where
  cell : List ι
  held : ι → List ι

def Prov.step (p : Prov ι) : Event ι → Prov ι
  | .read i => { p with held := Function.update p.held i p.cell }
  | .write i => { p with cell := p.held i ++ [i] }

def prov (evs : List (Event ι)) : Prov ι := evs.foldl Prov.step ⟨[], fun _ => []⟩

@[simp] theorem Prov.step_read_held_self (p : Prov ι) (i : ι) :
    (p.step (.read i)).held i = p.cell := Function.update_self ..

theorem Prov.step_read_held_ne {k i : ι} (h : k ≠ i) (p : Prov ι) :
    (p.step (.read i)).held k = p.held k := Function.update_of_ne h ..

/-! ## One step at the end of a run -/

theorem prov_snoc (evs : List (Event ι)) (e : Event ι) :
    prov (evs ++ [e]) = (prov evs).step e := by
  simp [prov]

theorem run_append (S : System ι σ τ) (u v : List (Event ι)) (s : State ι σ τ) :
    run S s (u ++ v) = (run S s u).bind (fun s' => run S s' v) := by
  induction u generalizing s with
  | nil => rfl
  | cons e u ih =>
    rw [List.cons_append, run, run]
    cases hs : step S s e with
    | none => rfl
    | some s' => exact ih s'

theorem run_snoc {S : System ι σ τ} {s s' : State ι σ τ} {evs : List (Event ι)} {e : Event ι}
    (h : run S s (evs ++ [e]) = some s') :
    ∃ m, run S s evs = some m ∧ step S m e = some s' := by
  rw [run_append] at h
  obtain ⟨m, hm, hlast⟩ := Option.bind_eq_some_iff.mp h
  refine ⟨m, hm, ?_⟩
  rw [run] at hlast
  obtain ⟨m', hm', hnil⟩ := Option.bind_eq_some_iff.mp hlast
  rw [hm']
  exact hnil

/-- What a step from `m` can be: a read by an idle client, or a write by a
holding one. -/
theorem step_cases {S : System ι σ τ} {m s : State ι σ τ} {e : Event ι}
    (h : step S m e = some s) :
    (∃ i, e = .read i ∧ m.phase i = .idle ∧
      s = { m with phase := Function.update m.phase i (.holding (S.view m.cell)) }) ∨
    (∃ i c t, e = .write i ∧ m.phase i = .holding c ∧ S.update i c = some t ∧
      s = ⟨S.put t m.cell, Function.update m.phase i .done⟩) := by
  cases e with
  | read i =>
    cases hp : m.phase i with
    | idle =>
      simp only [step, hp, Option.some.injEq] at h
      exact Or.inl ⟨i, rfl, hp, h.symm⟩
    | holding c => simp only [step, hp] at h; cases h
    | done => simp only [step, hp] at h; cases h
  | write i =>
    cases hp : m.phase i with
    | idle => simp only [step, hp] at h; cases h
    | done => simp only [step, hp] at h; cases h
    | holding c =>
      cases hu : S.update i c with
      | none => simp only [step, hp, hu] at h; cases h
      | some t =>
        simp only [step, hp, hu, Option.some.injEq] at h
        exact Or.inr ⟨i, c, t, rfl, hp, hu, h.symm⟩

/-! ## The invariant of a run -/

/-- A client is where its own events say: untouched while idle; while it holds
a copy, past exactly one read and before its write, with the provenance of its
copy the cell's at that read; and it has written once done. -/
def Where (evs : List (Event ι)) (i : ι) : Phase τ → Prop
  | .idle => Event.read i ∉ evs ∧ Event.write i ∉ evs
  | .holding _ => Event.write i ∉ evs ∧
      ∃ u v, evs = u ++ .read i :: v ∧ Event.read i ∉ u ∧ Event.read i ∉ v ∧
        (prov evs).held i = (prov u).cell
  | .done => Event.write i ∈ evs

/-- A run is sound when every client is where its events say, nobody wrote
twice, and cell and copies are the replays of their provenance. -/
structure Sound (S : System ι σ τ) (c₀ : σ) (evs : List (Event ι)) (s : State ι σ τ) : Prop where
  phases : ∀ i, Where evs i (s.phase i)
  once : (writers evs).Nodup
  cell : replay S (S.view c₀) (prov evs).cell = some (S.view s.cell)
  held : ∀ i c, s.phase i = .holding c → replay S (S.view c₀) ((prov evs).held i) = some c

/-- Somebody else's step moves nothing about `i`. -/
theorem where_snoc_ne {evs : List (Event ι)} {e : Event ι} {i : ι} {p : Phase τ}
    (h : Where evs i p) (hr : e ≠ .read i) (hw : e ≠ .write i) : Where (evs ++ [e]) i p := by
  cases p with
  | idle => exact ⟨fun hm => h.1 (mem_of_mem_snoc hm hr), fun hm => h.2 (mem_of_mem_snoc hm hw)⟩
  | holding c =>
    obtain ⟨hnw, u, v, heq, hu, hv, hheld⟩ := h
    refine ⟨fun hm => hnw (mem_of_mem_snoc hm hw), u, v ++ [e], by rw [heq]; simp, hu,
      fun hm => hv (mem_of_mem_snoc hm hr), ?_⟩
    · rw [prov_snoc, ← hheld]
      cases e with
      | read j => exact Prov.step_read_held_ne (fun hij : i = j => hr (by rw [hij])) _
      | write j => rfl
  | done => exact List.mem_append_left _ h

theorem sound_initial (S : System ι σ τ) (c₀ : σ) : Sound S c₀ [] (State.initial c₀) where
  phases _ := ⟨List.not_mem_nil, List.not_mem_nil⟩
  once := List.nodup_nil
  cell := rfl
  held i c h := by cases h

/-- A read keeps the run sound: the reader now holds the cell, with the
provenance of the cell. -/
theorem sound_read {S : System ι σ τ} {c₀ : σ} {evs : List (Event ι)} {m : State ι σ τ} {i : ι}
    (hm : Sound S c₀ evs m) (hidle : m.phase i = .idle) :
    Sound S c₀ (evs ++ [.read i])
      { m with phase := Function.update m.phase i (.holding (S.view m.cell)) } := by
  have hi := hm.phases i
  rw [hidle] at hi
  refine ⟨fun k => ?_, ?_, ?_, fun k c hk => ?_⟩
  · dsimp only
    by_cases hki : k = i
    · subst hki
      rw [Function.update_self]
      refine ⟨fun h => hi.2 (mem_of_mem_snoc h (by simp)), evs, [], rfl, hi.1, List.not_mem_nil, ?_⟩
      rw [prov_snoc, Prov.step_read_held_self]
    · rw [Function.update_of_ne hki]
      exact where_snoc_ne (hm.phases k) (fun h => hki (Event.read.inj h).symm) (by simp)
  · rw [writers_append]
    simpa [writers] using hm.once
  · rw [prov_snoc]
    exact hm.cell
  · dsimp only at hk
    rw [prov_snoc]
    by_cases hki : k = i
    · subst hki
      rw [Function.update_self] at hk
      cases hk
      rw [Prov.step_read_held_self]
      exact hm.cell
    · rw [Function.update_of_ne hki] at hk
      rw [Prov.step_read_held_ne hki]
      exact hm.held k c hk

/-- So does a write: the cell is the writer's copy with its own update. -/
theorem sound_write {S : System ι σ τ} {c₀ : σ} {evs : List (Event ι)} {m : State ι σ τ} {i : ι}
    {c t : τ} (hm : Sound S c₀ evs m) (hhold : m.phase i = .holding c)
    (hupd : S.update i c = some t) :
    Sound S c₀ (evs ++ [.write i]) ⟨S.put t m.cell, Function.update m.phase i .done⟩ := by
  have hi := hm.phases i
  rw [hhold] at hi
  refine ⟨fun k => ?_, ?_, ?_, fun k c' hk => ?_⟩
  · dsimp only
    by_cases hki : k = i
    · subst hki
      rw [Function.update_self]
      exact List.mem_append_right _ (List.mem_singleton_self _)
    · rw [Function.update_of_ne hki]
      exact where_snoc_ne (hm.phases k) (by simp) (fun h => hki (Event.write.inj h).symm)
  · -- a client that still holds its copy has not written
    rw [writers_append]
    refine List.nodup_append.mpr ⟨hm.once, List.nodup_singleton i, fun a ha b hb hab => ?_⟩
    rw [hab, List.mem_singleton.mp hb] at ha
    exact hi.1 (mem_writers.mp ha)
  · rw [prov_snoc]
    show replay S _ ((prov evs).held i ++ [i]) = some (S.view (S.put t m.cell))
    rw [replay_append, hm.held i c hhold, S.view_put]
    simp [replay, hupd]
  · dsimp only at hk
    rw [prov_snoc]
    by_cases hki : k = i
    · subst hki
      rw [Function.update_self] at hk
      cases hk
    · rw [Function.update_of_ne hki] at hk
      exact hm.held k c' hk

/-- One more step keeps the run sound. -/
theorem sound_step {S : System ι σ τ} {c₀ : σ} {evs : List (Event ι)} {m s : State ι σ τ}
    {e : Event ι} (hm : Sound S c₀ evs m) (hs : step S m e = some s) :
    Sound S c₀ (evs ++ [e]) s := by
  rcases step_cases hs with ⟨i, rfl, hidle, rfl⟩ | ⟨i, c, t, rfl, hhold, hupd, rfl⟩
  · exact sound_read hm hidle
  · exact sound_write hm hhold hupd

/-- Every run from the start is sound. -/
theorem run_sound {S : System ι σ τ} {c₀ : σ} :
    ∀ (evs : List (Event ι)) {s : State ι σ τ},
      run S (State.initial c₀) evs = some s → Sound S c₀ evs s := by
  intro evs
  induction evs using List.reverseRecOn with
  | nil =>
    intro s h
    cases h
    exact sound_initial S c₀
  | append_singleton evs e ih =>
    intro s h
    obtain ⟨m, hm, hstep⟩ := run_snoc h
    exact sound_step (ih hm) hstep

/-- **The cell is the replay of its provenance**, whatever the interleaving. -/
theorem run_replay {S : System ι σ τ} {c₀ : σ} {evs : List (Event ι)} {s : State ι σ τ}
    (h : run S (State.initial c₀) evs = some s) :
    replay S (S.view c₀) (prov evs).cell = some (S.view s.cell) :=
  (run_sound evs h).cell

/-! ## Which runs lose nothing -/

/-- Reads do not touch the cell. -/
theorem prov_cell_of_no_write (u : List (Event ι)) :
    ∀ v : List (Event ι), (∀ j, Event.write j ∉ v) → (prov (u ++ v)).cell = (prov u).cell := by
  intro v
  induction v using List.reverseRecOn with
  | nil => intro _; rw [List.append_nil]
  | append_singleton v e ih =>
    intro h
    rw [← List.append_assoc, prov_snoc]
    cases e with
    | read i => exact ih (fun j hj => h j (List.mem_append_left _ hj))
    | write i => exact absurd (List.mem_append_right _ (List.mem_singleton_self _)) (h i)

/-- From a read on, without a write, the cell stays as it was read. -/
theorem prov_cell_past_read (u : List (Event ι)) {v : List (Event ι)} {i : ι}
    (h : ∀ j, Event.write j ∉ v) : (prov (u ++ .read i :: v)).cell = (prov u).cell := by
  refine prov_cell_of_no_write u _ (fun j hj => ?_)
  rcases List.mem_cons.mp hj with hread | hv
  · cases hread
  · exact h j hv

/-- Only writers are in the provenance, of the cell and of every copy. -/
theorem prov_subset_writers :
    ∀ evs : List (Event ι), (∀ j ∈ (prov evs).cell, j ∈ writers evs) ∧
      ∀ i, ∀ j ∈ (prov evs).held i, j ∈ writers evs := by
  intro evs
  induction evs using List.reverseRecOn with
  | nil =>
    exact ⟨fun j hj => absurd hj List.not_mem_nil, fun i j hj => absurd hj List.not_mem_nil⟩
  | append_singleton evs e ih =>
    rw [prov_snoc, writers_append]
    cases e with
    | read k =>
      refine ⟨fun j hj => List.mem_append_left _ (ih.1 j hj), fun i j hj => ?_⟩
      apply List.mem_append_left
      by_cases hik : i = k
      · subst hik
        rw [Prov.step_read_held_self] at hj
        exact ih.1 j hj
      · rw [Prov.step_read_held_ne hik] at hj
        exact ih.2 i j hj
    | write k =>
      refine ⟨fun j hj => ?_, fun i j hj => List.mem_append_left _ (ih.2 i j hj)⟩
      rcases List.mem_append.mp hj with h1 | h2
      · exact List.mem_append_left _ (ih.2 k j h1)
      · exact List.mem_append_right _ (by simpa [writers] using h2)

/-- In a serial run the provenance is exactly the writers, in write order: the
run is the sequential execution of its clients. -/
theorem prov_eq_writers {S : System ι σ τ} {c₀ : σ} :
    ∀ (evs : List (Event ι)) {s : State ι σ τ},
      run S (State.initial c₀) evs = some s → Serial evs → (prov evs).cell = writers evs := by
  intro evs
  induction evs using List.reverseRecOn with
  | nil => intro s _ _; rfl
  | append_singleton evs e ih =>
    intro s h hser
    obtain ⟨m, hm, hstep⟩ := run_snoc h
    have hcell := ih hm (serial_of_snoc hser)
    rw [prov_snoc, writers_append]
    rcases step_cases hstep with ⟨i, rfl, -, -⟩ | ⟨i, c, t, rfl, hhold, -, -⟩
    · rw [← hcell]
      exact (List.append_nil _).symm
    · -- the copy was read from the cell as it still is, so it has every writer
      have hi := (run_sound evs hm).phases i
      rw [hhold] at hi
      obtain ⟨-, u, v, heq, -, -, hheld⟩ := hi
      have hno : ∀ j, Event.write j ∉ v := hser u i v [] (by rw [heq]; simp)
      have hsame : (prov u).cell = (prov evs).cell := by
        rw [heq, prov_cell_past_read u hno]
      show (prov evs).held i ++ [i] = writers evs ++ [i]
      rw [hheld, hsame, hcell]

/-- **A run loses no update exactly when it is serial**: every writer is in
the provenance of the cell if and only if no write falls between a client's
own read and write. -/
theorem serial_iff {S : System ι σ τ} {c₀ : σ} :
    ∀ (evs : List (Event ι)) {s : State ι σ τ},
      run S (State.initial c₀) evs = some s →
      (Serial evs ↔ ∀ j ∈ writers evs, j ∈ (prov evs).cell) := by
  intro evs
  induction evs using List.reverseRecOn with
  | nil =>
    intro s _
    exact ⟨fun _ j hj => hj, fun _ u i v t heq => by simp at heq⟩
  | append_singleton evs e ih =>
    intro s h
    refine ⟨fun hser j hj => by rw [prov_eq_writers _ h hser]; exact hj, fun hall => ?_⟩
    obtain ⟨m, hm, hstep⟩ := run_snoc h
    rw [prov_snoc, writers_append] at hall
    rcases step_cases hstep with ⟨i, rfl, -, -⟩ | ⟨i, c, t, rfl, hhold, -, -⟩
    · refine serial_snoc_read ((ih hm).mpr (fun j hj => ?_))
      exact hall j (List.mem_append_left _ hj)
    · have hsound := run_sound evs hm
      have hi := hsound.phases i
      rw [hhold] at hi
      obtain ⟨hnw, u, v, heq, hu, hv, hheld⟩ := hi
      -- everybody who wrote before is in the copy, hence wrote before the read
      have hbefore : ∀ j ∈ writers evs, j ∈ (prov u).cell := by
        intro j hj
        have hj' : j ∈ (prov evs).held i ++ [i] := hall j (List.mem_append_left _ hj)
        rcases List.mem_append.mp hj' with h1 | h2
        · rw [← hheld]; exact h1
        · rw [List.mem_singleton.mp h2] at hj
          exact absurd (mem_writers.mp hj) hnw
      have hsplit : writers evs = writers u ++ writers v := by
        rw [heq, writers_append]; rfl
      -- and nobody writes twice, so nobody wrote after it
      have hno : ∀ j, Event.write j ∉ v := by
        intro j hj
        have hjv : j ∈ writers v := mem_writers.mpr hj
        have hju : j ∈ writers u := (prov_subset_writers u).1 j
          (hbefore j (by rw [hsplit]; exact List.mem_append_right _ hjv))
        have hnd := hsound.once
        rw [hsplit] at hnd
        exact (List.nodup_append.mp hnd).2.2 j hju j hjv rfl
      have hsame : (prov evs).cell = (prov u).cell := by
        rw [heq, prov_cell_past_read u hno]
      refine serial_snoc_write ((ih hm).mpr (fun j hj => ?_)) heq hu hv hno
      rw [hsame]
      exact hbefore j hj

end PolarBear.Rmw
