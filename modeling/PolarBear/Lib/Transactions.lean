import PolarBear.Lib.Transition

/-!
# Programs made of transactions, cut short by crashes

A `Prog` is a program that works on a store `σ` through transactions: between
two of them it computes, and what it computes is lost when it crashes, while
the store stays as the last transaction left it. A transaction has a tag, by
which a statement can say before which transactions a crash may fall, and gets
an input from outside (a clock reading, a fresh identifier). One that raises is
rolled back.

`Exec safe p s o s'` is an execution of `p`: it returns, raises, or crashes
before a transaction whose tag is `safe`. `wp` is the weakest precondition for
a postcondition on the outcome and the store together, so what holds at every
crash point is stated like what holds at the end. `wp_iff_exec` connects the
two; `wp_bind`, `wp_tryCatch` and `wp_transaction` compute `wp` along a program.

`CallStep` is one call of a program in a run of calls, and `Run.invariant` of
`Transition` then gives what holds after any number of them.
-/

namespace PolarBear.Transactions

/-- A program with inputs `ι`, tags `τ`, store `σ`, exceptions `ε`, result `α`. -/
inductive Prog (ι τ σ ε α : Type) where
  | ret (a : α)
  | raise (e : ε)
  | tx (tag : τ) (post : ι → σ → σ) (next : ι → σ → Prog ι τ σ ε α)

variable {ι τ σ ε α β : Type}

namespace Prog

def andThen : Prog ι τ σ ε α → (α → Prog ι τ σ ε β) → Prog ι τ σ ε β
  | .ret a, f => f a
  | .raise e, _ => .raise e
  | .tx tag post next, f => .tx tag post (fun i s => (next i s).andThen f)

/-- `try: p except e: handler e`. A crash is not an exception. -/
def handle : Prog ι τ σ ε α → (ε → Prog ι τ σ ε α) → Prog ι τ σ ε α
  | .ret a, _ => .ret a
  | .raise e, handler => handler e
  | .tx tag post next, handler => .tx tag post (fun i s => (next i s).handle handler)

instance : Monad (Prog ι τ σ ε) where
  pure := .ret
  bind := andThen

instance : MonadExcept ε (Prog ι τ σ ε) where
  throw := .raise
  tryCatch := handle

/-- A transaction: it commits what it returns, or raises and is rolled back. -/
def transaction (tag : τ) (t : ι → σ → Except ε (α × σ)) : Prog ι τ σ ε α :=
  .tx tag
    (fun i s => match t i s with
      | .ok (_, s') => s'
      | .error _ => s)
    (fun i s => match t i s with
      | .ok (a, _) => .ret a
      | .error e => .raise e)

/-- A transaction that only reads. -/
def reading (tag : τ) (f : σ → Except ε α) : Prog ι τ σ ε α :=
  transaction tag (fun _ s => (f s).map (fun a => (a, s)))

/-- What is computed between transactions. -/
def compute : Except ε α → Prog ι τ σ ε α
  | .ok a => .ret a
  | .error e => .raise e

/-- The program runs to its end, with the same input for every transaction. -/
def eval (i : ι) : Prog ι τ σ ε α → σ → Except ε α × σ
  | .ret a, s => (.ok a, s)
  | .raise e, s => (.error e, s)
  | .tx _ post next, s => (next i s).eval i (post i s)

end Prog

open Prog (transaction reading compute)

/-- How an execution ends. -/
inductive Outcome (ε α : Type) where
  | returned (a : α)
  | raised (e : ε)
  | crashed
  deriving DecidableEq, Repr

/-- The program came to its end. -/
def Outcome.completed : Outcome ε α → Bool
  | .returned _ => true
  | _ => false

/-- Executions that crash only before a transaction with a `safe` tag. -/
inductive Exec (safe : τ → Prop) : Prog ι τ σ ε α → σ → Outcome ε α → σ → Prop
  | ret (a : α) (s : σ) : Exec safe (.ret a) s (.returned a) s
  | raise (e : ε) (s : σ) : Exec safe (.raise e) s (.raised e) s
  | crash {tag : τ} (h : safe tag) (post : ι → σ → σ) (next : ι → σ → Prog ι τ σ ε α) (s : σ) :
      Exec safe (.tx tag post next) s .crashed s
  | tx {tag : τ} {post : ι → σ → σ} {next : ι → σ → Prog ι τ σ ε α} {s s' : σ}
      {o : Outcome ε α} (i : ι) :
      Exec safe (next i s) (post i s) o s' → Exec safe (.tx tag post next) s o s'

variable {safe : τ → Prop}

/-- An execution without a crash exists, whatever the inputs are. -/
theorem exec_eval (i : ι) (p : Prog ι τ σ ε α) (s : σ) :
    Exec safe p s
      (match (p.eval i s).1 with
        | .ok a => .returned a
        | .error e => .raised e)
      (p.eval i s).2 := by
  induction p generalizing s with
  | ret a => exact .ret a s
  | raise e => exact .raise e s
  | tx tag post next ih => exact .tx i (ih i s (post i s))

/-! ## Weakest preconditions -/

/-- Every execution of the program from the store ends in `Q`. -/
def wp (safe : τ → Prop) (Q : Outcome ε α → σ → Prop) : Prog ι τ σ ε α → σ → Prop
  | .ret a, s => Q (.returned a) s
  | .raise e, s => Q (.raised e) s
  | .tx tag post next, s =>
    (safe tag → Q .crashed s) ∧ ∀ i, wp safe Q (next i s) (post i s)

theorem wp_iff_exec {Q : Outcome ε α → σ → Prop} {p : Prog ι τ σ ε α} {s : σ} :
    wp safe Q p s ↔ ∀ o s', Exec safe p s o s' → Q o s' := by
  constructor
  · intro h o s' hexec
    induction hexec with
    | ret a s => exact h
    | raise e s => exact h
    | crash hsafe post next s => exact h.1 hsafe
    | tx i _ ih => exact ih (h.2 i)
  · intro h
    induction p generalizing s with
    | ret a => exact h _ _ (.ret a s)
    | raise e => exact h _ _ (.raise e s)
    | tx tag post next ih =>
      refine ⟨fun hsafe => h _ _ (.crash hsafe post next s), fun i => ih i s ?_⟩
      intro o s' hexec
      exact h o s' (.tx i hexec)

theorem wp_mono {Q Q' : Outcome ε α → σ → Prop} {p : Prog ι τ σ ε α} {s : σ}
    (h : wp safe Q p s) (hq : ∀ o s', Q o s' → Q' o s') : wp safe Q' p s :=
  wp_iff_exec.mpr (fun o s' hexec => hq o s' (wp_iff_exec.mp h o s' hexec))

/-- **The sequence rule.** -/
theorem wp_bind {Q : Outcome ε β → σ → Prop} {p : Prog ι τ σ ε α} {f : α → Prog ι τ σ ε β}
    {s : σ} : wp safe Q (p >>= f) s ↔
      wp safe (fun o s' => match o with
        | .returned a => wp safe Q (f a) s'
        | .raised e => Q (.raised e) s'
        | .crashed => Q .crashed s') p s := by
  show wp safe Q (p.andThen f) s ↔ _
  induction p generalizing s with
  | ret a => exact Iff.rfl
  | raise e => exact Iff.rfl
  | tx tag post next ih => exact and_congr Iff.rfl (forall_congr' (fun i => ih i s))

/-- **The rule of handlers**: they see exceptions, and no crash. -/
theorem wp_tryCatch {Q : Outcome ε α → σ → Prop} {p : Prog ι τ σ ε α}
    {handler : ε → Prog ι τ σ ε α} {s : σ} : wp safe Q (tryCatch p handler) s ↔
      wp safe (fun o s' => match o with
        | .returned a => Q (.returned a) s'
        | .raised e => wp safe Q (handler e) s'
        | .crashed => Q .crashed s') p s := by
  show wp safe Q (p.handle handler) s ↔ _
  induction p generalizing s with
  | ret a => exact Iff.rfl
  | raise e => exact Iff.rfl
  | tx tag post next ih => exact and_congr Iff.rfl (forall_congr' (fun i => ih i s))

/-- **The rule of transactions**: what holds before one holds at a crash there. -/
theorem wp_transaction {Q : Outcome ε α → σ → Prop} {tag : τ}
    {t : ι → σ → Except ε (α × σ)} {s : σ} : wp safe Q (transaction tag t) s ↔
      (safe tag → Q .crashed s) ∧ ∀ i, match t i s with
        | .ok (a, s') => Q (.returned a) s'
        | .error e => Q (.raised e) s := by
  refine and_congr Iff.rfl (forall_congr' (fun i => ?_))
  dsimp only
  cases t i s <;> exact Iff.rfl

theorem wp_reading {Q : Outcome ε α → σ → Prop} {tag : τ} {f : σ → Except ε α} {s : σ}
    [Nonempty ι] : wp safe Q (reading tag f : Prog ι τ σ ε α) s ↔
      (safe tag → Q .crashed s) ∧ match f s with
        | .ok a => Q (.returned a) s
        | .error e => Q (.raised e) s := by
  unfold reading
  rw [wp_transaction]
  refine and_congr Iff.rfl ((forall_const ι).trans ?_)
  cases f s <;> exact Iff.rfl

theorem wp_compute {Q : Outcome ε α → σ → Prop} {x : Except ε α} {s : σ} :
    wp safe Q (compute x : Prog ι τ σ ε α) s ↔ match x with
      | .ok a => Q (.returned a) s
      | .error e => Q (.raised e) s := by
  cases x <;> exact Iff.rfl

/-- **The rule of loops.** `I rest b s` holds before a round, with `rest` still to do;
whatever ends the loop early satisfies `E`. -/
theorem wp_foldlM (safe : τ → Prop) {κ : Type} {f : β → κ → Prog ι τ σ ε β}
    {I : List κ → β → σ → Prop} {E : Outcome ε β → σ → Prop}
    (hround : ∀ k rest b s, I (k :: rest) b s → wp safe (fun o s' => match o with
      | .returned b' => I rest b' s'
      | o => E o s') (f b k) s) :
    ∀ (l : List κ) (b : β) (s : σ), I l b s → wp safe (fun o s' => match o with
      | .returned b' => I [] b' s'
      | o => E o s') (l.foldlM f b) s
  | [], b, s, h => h
  | k :: rest, b, s, h => by
    rw [List.foldlM_cons, wp_bind]
    refine wp_mono (hround k rest b s h) (fun o s' ho => ?_)
    cases o with
    | returned b' => exact wp_foldlM safe hround rest b' s' ho
    | raised e => exact ho
    | crashed => exact ho

/-- **Working off a list from the front.** Each round takes the first item of what the store
says is left, and counts; `R` and `C` are what exceptions and crashes leave. -/
theorem wp_workOff {ρ κ : Type} (safe : τ → Prop) (round : Nat → κ → Prog ι τ σ ε Nat)
    (left : σ → List ρ) (key : ρ → κ) {P C : σ → Prop} {R : ε → σ → Prop}
    (hround : ∀ s r others n, P s → left s = r :: others → wp safe (fun o s' => match o with
      | .returned n' => P s' ∧ left s' = others ∧ n' = n + 1
      | .raised e => R e s'
      | .crashed => C s') (round n (key r)) s)
    {rows others : List ρ} {s : σ} (h : P s) (hleft : left s = rows ++ others) :
    wp safe (fun o s' => match o with
      | .returned n => P s' ∧ left s' = others ∧ n = rows.length
      | .raised e => R e s'
      | .crashed => C s') ((rows.map key).foldlM round 0) s := by
  have hloop := wp_foldlM safe (f := round)
    (I := fun keys n s' => P s' ∧ (∃ rest : List ρ, keys = rest.map key ∧
      left s' = rest ++ others) ∧ n + keys.length = rows.length)
    (E := fun o s' => match o with
      | .returned _ => False
      | .raised e => R e s'
      | .crashed => C s') ?_ (rows.map key) 0 s
    ⟨h, ⟨rows, rfl, hleft⟩, by rw [Nat.zero_add, List.length_map]⟩
  · refine wp_mono hloop (fun o s' ho => ?_)
    cases o with
    | raised e => exact ho
    | crashed => exact ho
    | returned n =>
      obtain ⟨hP, ⟨rest, hrest, hleft'⟩, hn⟩ := ho
      have hnil : rest = [] := List.map_eq_nil_iff.mp hrest.symm
      rw [hnil, List.nil_append] at hleft'
      exact ⟨hP, hleft', hn⟩
  · rintro k keys n s₁ ⟨hP, ⟨rest, hrest, hleft'⟩, hn⟩
    cases rest with
    | nil => cases hrest
    | cons r rest =>
      rw [List.map_cons] at hrest
      obtain ⟨rfl, rfl⟩ := List.cons.inj hrest
      rw [List.length_cons] at hn
      refine wp_mono (hround s₁ r (rest ++ others) n hP hleft') (fun o s₂ ho => ?_)
      cases o with
      | raised e => exact ho
      | crashed => exact ho
      | returned n' =>
        have hn' : n' = n + 1 := ho.2.2
        exact ⟨ho.1, ⟨rest, rfl, ho.2.1⟩, by omega⟩

/-! ## Running to the end -/

section

variable (i : ι)

theorem eval_bind (p : Prog ι τ σ ε α) (f : α → Prog ι τ σ ε β) (s : σ) :
    (p >>= f).eval i s = match p.eval i s with
      | (.ok a, s') => (f a).eval i s'
      | (.error e, s') => (Except.error e, s') := by
  show (p.andThen f).eval i s = _
  induction p generalizing s with
  | ret a => rfl
  | raise e => rfl
  | tx tag post next ih => exact ih i s (post i s)

theorem eval_bind_ok {p : Prog ι τ σ ε α} {s s' : σ} {a : α} (h : p.eval i s = (.ok a, s'))
    (f : α → Prog ι τ σ ε β) : (p >>= f).eval i s = (f a).eval i s' := by
  rw [eval_bind, h]

theorem eval_bind_error {p : Prog ι τ σ ε α} {s s' : σ} {e : ε} (h : p.eval i s = (.error e, s'))
    (f : α → Prog ι τ σ ε β) : (p >>= f).eval i s = (.error e, s') := by
  rw [eval_bind, h]

theorem eval_tryCatch (p : Prog ι τ σ ε α) (handler : ε → Prog ι τ σ ε α) (s : σ) :
    (tryCatch p handler).eval i s = match p.eval i s with
      | (.ok a, s') => (Except.ok a, s')
      | (.error e, s') => (handler e).eval i s' := by
  show (p.handle handler).eval i s = _
  induction p generalizing s with
  | ret a => rfl
  | raise e => rfl
  | tx tag post next ih => exact ih i s (post i s)

@[simp] theorem eval_pure (a : α) (s : σ) :
    (pure a : Prog ι τ σ ε α).eval i s = (.ok a, s) := rfl

theorem eval_transaction (tag : τ) (t : ι → σ → Except ε (α × σ)) (s : σ) :
    (transaction tag t).eval i s = match t i s with
      | .ok (a, s') => (Except.ok a, s')
      | .error e => (Except.error e, s) := by
  unfold transaction
  simp only [Prog.eval]
  cases t i s <;> rfl

@[simp] theorem eval_reading (tag : τ) (f : σ → Except ε α) (s : σ) :
    (reading tag f : Prog ι τ σ ε α).eval i s = (f s, s) := by
  unfold reading transaction
  cases h : f s <;> simp only [Prog.eval, h] <;> rfl

@[simp] theorem eval_compute (x : Except ε α) (s : σ) :
    (compute x : Prog ι τ σ ε α).eval i s = (x, s) := by
  cases x <;> rfl

/-- **A loop that does not raise.** `I rest b s` holds before a round, with `rest` still to
do. -/
theorem eval_foldlM {κ : Type} {f : β → κ → Prog ι τ σ ε β} {I : List κ → β → σ → Prop}
    (hround : ∀ k rest b s, I (k :: rest) b s →
      ∃ b' s', (f b k).eval i s = (.ok b', s') ∧ I rest b' s') :
    ∀ (l : List κ) (b : β) (s : σ), I l b s →
      ∃ b' s', (l.foldlM f b).eval i s = (.ok b', s') ∧ I [] b' s'
  | [], b, s, h => ⟨b, s, rfl, h⟩
  | k :: rest, b, s, h => by
    obtain ⟨b₁, s₁, heval, hI⟩ := hround k rest b s h
    rw [List.foldlM_cons, eval_bind_ok i heval]
    exact eval_foldlM hround rest b₁ s₁ hI

end

/-! ## Two runs

A program that only reads, on two stores. -/

/-- The program ends in the same way on both stores, and changes neither. -/
structure Agree (i : ι) (s s' : σ) (p : Prog ι τ σ ε α) : Prop where
  same : (p.eval i s).1 = (p.eval i s').1
  left : (p.eval i s).2 = s
  right : (p.eval i s').2 = s'

section

variable {i : ι} {s s' : σ}

theorem Agree.pure (a : α) : Agree i s s' (pure a : Prog ι τ σ ε α) := ⟨rfl, rfl, rfl⟩

theorem Agree.throw (e : ε) : Agree i s s' (throw e : Prog ι τ σ ε α) := ⟨rfl, rfl, rfl⟩

theorem Agree.compute (x : Except ε α) : Agree i s s' (Prog.compute x : Prog ι τ σ ε α) := by
  refine ⟨?_, ?_, ?_⟩ <;> simp only [eval_compute]

theorem Agree.reading {tag : τ} {f : σ → Except ε α} (h : f s = f s') :
    Agree i s s' (Prog.reading tag f : Prog ι τ σ ε α) := by
  refine ⟨?_, ?_, ?_⟩ <;> simp only [eval_reading, h]

theorem Agree.bind {p : Prog ι τ σ ε α} {f : α → Prog ι τ σ ε β} (hp : Agree i s s' p)
    (hf : ∀ a, Agree i s s' (f a)) : Agree i s s' (p >>= f) := by
  obtain ⟨hsame, hleft, hright⟩ := hp
  have heval : p.eval i s = ((p.eval i s).1, s) := Prod.ext rfl hleft
  have heval' : p.eval i s' = ((p.eval i s).1, s') := Prod.ext hsame.symm hright
  refine ⟨?_, ?_, ?_⟩
  · rw [eval_bind, eval_bind, heval, heval']
    cases (p.eval i s).1 with
    | ok a => exact (hf a).same
    | error e => rfl
  · rw [eval_bind, heval]
    cases (p.eval i s).1 with
    | ok a => exact (hf a).left
    | error e => rfl
  · rw [eval_bind, heval']
    cases (p.eval i s).1 with
    | ok a => exact (hf a).right
    | error e => rfl

theorem Agree.tryCatch {p : Prog ι τ σ ε α} {handler : ε → Prog ι τ σ ε α}
    (hp : Agree i s s' p) (hh : ∀ e, Agree i s s' (handler e)) :
    Agree i s s' (tryCatch p handler) := by
  obtain ⟨hsame, hleft, hright⟩ := hp
  have heval : p.eval i s = ((p.eval i s).1, s) := Prod.ext rfl hleft
  have heval' : p.eval i s' = ((p.eval i s).1, s') := Prod.ext hsame.symm hright
  refine ⟨?_, ?_, ?_⟩
  · rw [eval_tryCatch, eval_tryCatch, heval, heval']
    cases (p.eval i s).1 with
    | ok a => rfl
    | error e => exact (hh e).same
  · rw [eval_tryCatch, heval]
    cases (p.eval i s).1 with
    | ok a => rfl
    | error e => exact (hh e).left
  · rw [eval_tryCatch, heval']
    cases (p.eval i s).1 with
    | ok a => rfl
    | error e => exact (hh e).right

end

/-! ## Runs of calls -/

/-- One call in a run of calls. A call that did all its transactions may still
crash before it returns. -/
inductive CallStep {κ : Type} (safe : τ → Prop) (prog : κ → Prog ι τ σ ε α) :
    κ × Outcome ε α → σ → σ → Prop
  | ends {c : κ} {o : Outcome ε α} {s s' : σ} :
      Exec safe (prog c) s o s' → CallStep safe prog (c, o) s s'
  | late {c : κ} {a : α} {s s' : σ} :
      Exec safe (prog c) s (.returned a) s' → CallStep safe prog (c, .crashed) s s'

/-- What every call preserves. -/
theorem CallStep.invariant {κ : Type} {prog : κ → Prog ι τ σ ε α} {Inv : σ → Prop}
    (h : ∀ c s, Inv s → wp safe (fun _ s' => Inv s') (prog c) s) {l : κ × Outcome ε α} {s s' : σ}
    (hs : Inv s) (hstep : CallStep safe prog l s s') : Inv s' := by
  cases hstep with
  | ends hexec => exact wp_iff_exec.mp (h _ s hs) _ _ hexec
  | late hexec => exact wp_iff_exec.mp (h _ s hs) _ _ hexec

end PolarBear.Transactions
