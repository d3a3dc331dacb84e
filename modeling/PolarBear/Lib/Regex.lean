import Mathlib.Data.List.Basic

/-!
# Regular expressions with backtracking

A pattern is tried at a place of a text, and gives the ways it can match there in
the order a backtracking matcher tries them: the left branch of an alternative
first, a repetition as often as possible first. The first way is the match. A way
ends somewhere, with the texts its groups took (`State`).

What a pattern does is said by equations on the list of ways. The laws for a
repetition of single characters are the ones that proofs about tokenizers need:
where the pattern that follows cannot start inside of the run, only the whole
run counts (`flatMap_run_only`); where it can go on after the whole run, the
first way has the whole run (`head?_flatMap_run`).
-/

namespace PolarBear.Regex

/-- A place in a text: how many characters come before, what is left, and what the groups took,
the latest first. -/
structure State where
  before : Nat
  rest : List Char
  groups : List (Nat × List Char)
  deriving DecidableEq, Repr

/-- The start of a text. -/
def State.start (text : List Char) : State := ⟨0, text, []⟩

/-- The place after `n` characters. -/
def State.advance (s : State) (n : Nat) : State := ⟨s.before + n, s.rest.drop n, s.groups⟩

inductive Pattern where
  | empty
  /-- A character of a class. -/
  | one (p : Char → Bool)
  | seq (a b : Pattern)
  | alt (a b : Pattern)
  /-- As often as possible. -/
  | star (a : Pattern)
  | group (n : Nat) (a : Pattern)
  /-- `^` -/
  | atStart
  /-- `$`: the end, or before a newline at the end. -/
  | atEnd

/-- `a+` -/
def Pattern.plus (a : Pattern) : Pattern := .seq a (.star a)

/-- `a?` -/
def Pattern.opt (a : Pattern) : Pattern := .alt a .empty

/-- One character. -/
def Pattern.char (c : Char) : Pattern := .one (· == c)

/-- Repetitions of a step, each of which takes something. -/
def repeated (step : State → List State) : Nat → State → List State
  | 0, s => [s]
  | fuel + 1, s =>
    (step s).flatMap (fun s' =>
      if s'.rest.length < s.rest.length then repeated step fuel s' else []) ++ [s]

/-- The character of a class that comes next. -/
def next (p : Char → Bool) (s : State) : List State :=
  match s.rest with
  | [] => []
  | c :: rest => if p c then [⟨s.before + 1, rest, s.groups⟩] else []

/-- The ways a pattern matches at a place, in the order they are tried. -/
def Pattern.run : Pattern → State → List State
  | .empty, s => [s]
  | .one p, s => next p s
  | .seq a b, s => (a.run s).flatMap b.run
  | .alt a b, s => a.run s ++ b.run s
  | .star a, s => repeated a.run s.rest.length s
  | .group n a, s =>
    (a.run s).map (fun s' =>
      { s' with groups := (n, s.rest.take (s'.before - s.before)) :: s'.groups })
  | .atStart, s => if s.before = 0 then [s] else []
  | .atEnd, s => if s.rest = [] ∨ s.rest = ['\n'] then [s] else []

/-- `re.match`. -/
def Pattern.isMatch (r : Pattern) (text : List Char) : Option State := (r.run (.start text)).head?

/-- What a group took; nothing if it has no part in the match. -/
def State.groupText (s : State) (n : Nat) : Option (List Char) := s.groups.lookup n

/-- `re.finditer`: the matches from a place on, each from where the one before ends; after an
empty one from the next character. -/
def Pattern.findAll (r : Pattern) : Nat → State → List State
  | 0, _ => []
  | fuel + 1, s =>
    match (r.run { s with groups := [] }).head? with
    | some s' =>
      if s.before < s'.before then s' :: r.findAll fuel s'
      else s' :: (if s.rest = [] then [] else r.findAll fuel (s.advance 1))
    | none => if s.rest = [] then [] else r.findAll fuel (s.advance 1)

/-! ## Single characters -/

section

variable {p : Char → Bool} {s : State} {f : State → List State}

theorem next_nil {n : Nat} {g : List (Nat × List Char)} : next p ⟨n, [], g⟩ = [] := rfl

theorem next_cons {n : Nat} {c : Char} {cs : List Char} {g : List (Nat × List Char)} :
    next p ⟨n, c :: cs, g⟩ = if p c then [⟨n + 1, cs, g⟩] else [] := rfl

@[simp] theorem run_seq (a b : Pattern) (s : State) :
    (Pattern.seq a b).run s = (a.run s).flatMap b.run := rfl

@[simp] theorem run_alt (a b : Pattern) (s : State) :
    (Pattern.alt a b).run s = a.run s ++ b.run s := rfl

/-- The ways of a repetition of single characters. -/
def runs (p : Char → Bool) (s : State) : List State := (Pattern.star (.one p)).run s

theorem runs_nil {n : Nat} {g : List (Nat × List Char)} : runs p ⟨n, [], g⟩ = [⟨n, [], g⟩] := rfl

theorem runs_cons {n : Nat} {c : Char} {cs : List Char} {g : List (Nat × List Char)} :
    runs p ⟨n, c :: cs, g⟩ =
      if p c then runs p ⟨n + 1, cs, g⟩ ++ [⟨n, c :: cs, g⟩] else [⟨n, c :: cs, g⟩] := by
  show repeated (next p) (cs.length + 1) _ = _
  rw [repeated, next_cons]
  by_cases hc : p c = true
  · rw [if_pos hc, if_pos hc, List.flatMap_cons, List.flatMap_nil, List.append_nil,
      if_pos (by simp)]
    rfl
  · rw [if_neg hc, if_neg hc, List.flatMap_nil, List.nil_append]

/-- Where no character can be taken, nothing is. -/
theorem runs_of_takeWhile_nil {n : Nat} {cs : List Char} {g : List (Nat × List Char)}
    (h : cs.takeWhile p = []) : runs p ⟨n, cs, g⟩ = [⟨n, cs, g⟩] := by
  cases cs with
  | nil => exact runs_nil
  | cons c cs =>
    rw [runs_cons, if_neg]
    intro hc
    rw [List.takeWhile_cons_of_pos hc] at h
    cases h

theorem ne_nil_of_head? {ways : List State} (h : ways.head? = some s) : ways ≠ [] := by
  rw [← List.isSome_head?, h]
  rfl

/-- The end of the run of characters at a place. -/
def State.skip (p : Char → Bool) (s : State) : State :=
  ⟨s.before + (s.rest.takeWhile p).length, s.rest.dropWhile p, s.groups⟩

theorem before_le_skip (p : Char → Bool) (s : State) : s.before ≤ (s.skip p).before :=
  Nat.le_add_right _ _

theorem skip_cons_pos {n : Nat} {c : Char} {cs : List Char} {g : List (Nat × List Char)}
    (hc : p c = true) : State.skip p ⟨n, c :: cs, g⟩ = State.skip p ⟨n + 1, cs, g⟩ := by
  unfold State.skip
  simp only [List.takeWhile_cons_of_pos hc, List.dropWhile_cons_of_pos hc, List.length_cons]
  congr 1
  omega

theorem skip_cons_neg {n : Nat} {c : Char} {cs : List Char} {g : List (Nat × List Char)}
    (hc : ¬ p c = true) : State.skip p ⟨n, c :: cs, g⟩ = ⟨n, c :: cs, g⟩ := by
  unfold State.skip
  simp only [List.takeWhile_cons_of_neg hc, List.dropWhile_cons_of_neg hc]
  rfl

/-- **Only the whole run counts**, where what follows matches at no character of it. -/
theorem flatMap_run_only (hf : ∀ n c cs g, p c = true → f ⟨n, c :: cs, g⟩ = []) :
    ∀ (cs : List Char) (n : Nat) (g : List (Nat × List Char)),
      (runs p ⟨n, cs, g⟩).flatMap f = f (State.skip p ⟨n, cs, g⟩) := by
  intro cs
  induction cs with
  | nil =>
    intro n g
    rw [runs_nil, List.flatMap_cons, List.flatMap_nil, List.append_nil]
    rfl
  | cons c cs ih =>
    intro n g
    rw [runs_cons]
    by_cases hc : p c = true
    · rw [if_pos hc, List.flatMap_append, ih, List.flatMap_cons, List.flatMap_nil, hf n c cs g hc,
        List.append_nil, List.append_nil, skip_cons_pos hc]
    · rw [if_neg hc, List.flatMap_cons, List.flatMap_nil, List.append_nil, skip_cons_neg hc]

/-- **The whole run comes first**, where what follows goes on from its end. -/
theorem head?_flatMap_run :
    ∀ (cs : List Char) (n : Nat) (g : List (Nat × List Char)),
      f (State.skip p ⟨n, cs, g⟩) ≠ [] →
      ((runs p ⟨n, cs, g⟩).flatMap f).head? = (f (State.skip p ⟨n, cs, g⟩)).head? := by
  intro cs
  induction cs with
  | nil =>
    intro n g _
    rw [runs_nil, List.flatMap_cons, List.flatMap_nil, List.append_nil]
    rfl
  | cons c cs ih =>
    intro n g hf
    rw [runs_cons]
    by_cases hc : p c = true
    · rw [skip_cons_pos hc] at hf ⊢
      have hhead := ih (n + 1) g hf
      rw [if_pos hc, List.flatMap_append, List.head?_append, hhead]
      cases hfirst : f (State.skip p ⟨n + 1, cs, g⟩) with
      | nil => exact absurd hfirst hf
      | cons s' rest => rfl
    · rw [if_neg hc, List.flatMap_cons, List.flatMap_nil, List.append_nil, skip_cons_neg hc]

/-- **One character less than the whole run comes first**, where what follows cannot go on from
the end of the run but can from there. -/
theorem head?_flatMap_run_back {c : Char} {cs : List Char} (hc : p c = true)
    (hend : cs.takeWhile p = []) :
    ∀ (w : List Char) (n : Nat) (g : List (Nat × List Char)), (∀ d ∈ w, p d = true) →
      f ⟨n + w.length + 1, cs, g⟩ = [] → f ⟨n + w.length, c :: cs, g⟩ ≠ [] →
      ((runs p ⟨n, w ++ c :: cs, g⟩).flatMap f).head? = (f ⟨n + w.length, c :: cs, g⟩).head? := by
  intro w
  induction w with
  | nil =>
    intro n g _ hnone hsome
    rw [List.nil_append, runs_cons, if_pos hc, runs_of_takeWhile_nil hend, List.flatMap_append,
      List.flatMap_cons, List.flatMap_nil, List.append_nil, List.flatMap_cons, List.flatMap_nil,
      List.append_nil]
    exact congrArg (fun l => (l ++ f ⟨n, c :: cs, g⟩).head?) hnone
  | cons d w ih =>
    intro n g hw hnone hsome
    have hlength : n + (d :: w).length = n + 1 + w.length := by
      rw [List.length_cons]
      omega
    rw [hlength] at hnone hsome ⊢
    have hhead := ih (n + 1) g (fun e he => hw e (List.mem_cons_of_mem _ he)) hnone hsome
    rw [List.cons_append, runs_cons, if_pos (hw d (List.mem_cons_self ..)), List.flatMap_append,
      List.head?_append, hhead]
    cases hfirst : f ⟨n + 1 + w.length, c :: cs, g⟩ with
    | nil => exact absurd hfirst hsome
    | cons s' rest => rfl

/-- The first way of a repetition is the whole run. -/
theorem head?_runs : (runs p s).head? = some (s.skip p) := by
  obtain ⟨n, cs, g⟩ := s
  have hhead := head?_flatMap_run (p := p) (f := fun t => [t]) cs n g (List.cons_ne_nil _ _)
  rwa [List.flatMap_singleton'] at hhead

theorem head?_flatMap_runs (l : List State) :
    (l.flatMap (runs p)).head? = l.head?.map (State.skip p) := by
  cases l with
  | nil => rfl
  | cons t l =>
    rw [List.flatMap_cons, List.head?_append, head?_runs]
    rfl

end

/-! ## Texts that a pattern takes -/

/-- The place after the text `w`, where that is what comes next. -/
def State.after (s : State) (w rest : List Char) : State := ⟨s.before + w.length, rest, s.groups⟩

theorem after_cons {n : Nat} {c : Char} {cs cs' w rest : List Char}
    {g : List (Nat × List Char)} :
    State.after ⟨n, cs, g⟩ (c :: w) rest = State.after ⟨n + 1, cs', g⟩ w rest := by
  unfold State.after
  simp only [List.length_cons]
  congr 1
  omega

section

variable {p : Char → Bool} {s s' : State}

theorem mem_next : s' ∈ next p s ↔ ∃ c rest, s.rest = c :: rest ∧ p c = true ∧
    s' = s.after [c] rest := by
  obtain ⟨n, cs, g⟩ := s
  cases cs with
  | nil => simp [next_nil]
  | cons c cs =>
    rw [next_cons]
    by_cases hc : p c = true
    · rw [if_pos hc, List.mem_singleton]
      constructor
      · rintro rfl
        exact ⟨c, cs, rfl, hc, rfl⟩
      · rintro ⟨d, rest, hcons, -, rfl⟩
        cases hcons
        rfl
    · rw [if_neg hc]
      refine iff_of_false List.not_mem_nil ?_
      rintro ⟨d, rest, hcons, hd, -⟩
      cases hcons
      exact hc hd

/-- A repetition takes any part of the run. -/
theorem mem_runs : s' ∈ runs p s ↔ ∃ w rest, s.rest = w ++ rest ∧ (∀ c ∈ w, p c = true) ∧
    s' = s.after w rest := by
  obtain ⟨n, cs, g⟩ := s
  induction cs generalizing n with
  | nil =>
    rw [runs_nil, List.mem_singleton]
    constructor
    · rintro rfl
      exact ⟨[], [], rfl, fun c hc => absurd hc List.not_mem_nil, rfl⟩
    · rintro ⟨w, rest, hsplit, -, rfl⟩
      obtain ⟨rfl, rfl⟩ := List.append_eq_nil_iff.mp hsplit.symm
      rfl
  | cons c cs ih =>
    rw [runs_cons]
    have hall : ∀ w rest, c :: cs = w ++ rest → (∀ d ∈ w, p d = true) →
        (w = [] ∧ rest = c :: cs) ∨
          (p c = true ∧ ∃ w', w = c :: w' ∧ cs = w' ++ rest ∧ ∀ d ∈ w', p d = true) := by
      intro w rest hsplit hw
      cases w with
      | nil => exact Or.inl ⟨rfl, hsplit.symm⟩
      | cons d w' =>
        cases hsplit
        exact Or.inr ⟨hw c (List.mem_cons_self ..), w', rfl, rfl,
          fun d hd => hw d (List.mem_cons_of_mem _ hd)⟩
    have hself : (⟨n, c :: cs, g⟩ : State) = State.after ⟨n, c :: cs, g⟩ [] (c :: cs) := rfl
    by_cases hc : p c = true
    · rw [if_pos hc, List.mem_append, ih, List.mem_singleton]
      constructor
      · rintro (⟨w, rest, hsplit, hw, rfl⟩ | rfl)
        · refine ⟨c :: w, rest, congrArg (c :: ·) hsplit, ?_, after_cons.symm⟩
          intro d hd
          rcases List.mem_cons.mp hd with rfl | hd
          · exact hc
          · exact hw d hd
        · exact ⟨[], c :: cs, rfl, fun d hd => absurd hd List.not_mem_nil, hself⟩
      · rintro ⟨w, rest, hsplit, hw, rfl⟩
        rcases hall w rest hsplit hw with ⟨rfl, rfl⟩ | ⟨-, w', rfl, hcs, hw'⟩
        · exact Or.inr hself.symm
        · exact Or.inl ⟨w', rest, hcs, hw', after_cons⟩
    · rw [if_neg hc, List.mem_singleton]
      constructor
      · rintro rfl
        exact ⟨[], c :: cs, rfl, fun d hd => absurd hd List.not_mem_nil, hself⟩
      · rintro ⟨w, rest, hsplit, hw, rfl⟩
        rcases hall w rest hsplit hw with ⟨rfl, rfl⟩ | ⟨hpc, -⟩
        · exact hself.symm
        · exact absurd hpc hc

/-- A group keeps the text that its pattern takes. -/
theorem mem_group {n : Nat} {a : Pattern} {P : List Char → Prop}
    (ha : ∀ t, t ∈ a.run s ↔ ∃ w rest, s.rest = w ++ rest ∧ P w ∧ t = s.after w rest) :
    s' ∈ (Pattern.group n a).run s ↔ ∃ w rest, s.rest = w ++ rest ∧ P w ∧
      s' = ⟨s.before + w.length, rest, (n, w) :: s.groups⟩ := by
  have htake : ∀ w rest, s.rest = w ++ rest →
      s.rest.take ((s.after w rest).before - s.before) = w := by
    intro w rest hsplit
    unfold State.after
    rw [hsplit]
    simp
  show s' ∈ (a.run s).map _ ↔ _
  rw [List.mem_map]
  constructor
  · rintro ⟨t, ht, rfl⟩
    obtain ⟨w, rest, hsplit, hw, rfl⟩ := (ha t).mp ht
    refine ⟨w, rest, hsplit, hw, ?_⟩
    rw [htake w rest hsplit]
    rfl
  · rintro ⟨w, rest, hsplit, hw, rfl⟩
    refine ⟨s.after w rest, (ha _).mpr ⟨w, rest, hsplit, hw, rfl⟩, ?_⟩
    rw [htake w rest hsplit]
    rfl

end

/-! ## All matches -/

section

variable {r : Pattern} {fuel n : Nat} {g : List (Nat × List Char)}

/-- Where there is no match, the search goes on at the next character. -/
theorem findAll_of_none {c : Char} {cs : List Char}
    (h : (r.run ⟨n, c :: cs, []⟩).head? = none) :
    r.findAll (fuel + 1) ⟨n, c :: cs, g⟩ = r.findAll fuel ⟨n + 1, cs, g⟩ := by
  rw [Pattern.findAll, h]
  rfl

/-- After a match that is not empty, the search goes on at its end. -/
theorem findAll_of_some {cs : List Char} {m : State} (h : (r.run ⟨n, cs, []⟩).head? = some m)
    (hm : n < m.before) : r.findAll (fuel + 1) ⟨n, cs, g⟩ = m :: r.findAll fuel m := by
  rw [Pattern.findAll, h]
  exact if_pos hm

end

end PolarBear.Regex
