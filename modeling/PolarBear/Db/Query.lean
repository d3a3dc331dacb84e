import Mathlib.Data.List.Nodup
import PolarBear.Lib.Transactions

/-!
# Queries on the API and the main database

What the database functions of flavors, aggregates and key pairs share: the part
of the request context they look at, the exceptions they raise, and soft
deletion, which only the main database has. A row there is live while its
`deleted` is `0` and has its own id in `deleted` after.

`modelQuery` gives the filter on `deleted` that a query starts with: the reader
says which rows it wants, or else its context does.
-/

namespace PolarBear.Db

/-- What a request context says to the database functions. -/
structure Context where
  userId : Option String
  projectId : Option String
  isAdmin : Bool
  readDeleted : String
  deriving DecidableEq, Repr

/-- The exceptions of the database functions. -/
inductive NovaError where
  | forbidden
  | valueError (text : String)
  | notImplementedError
  | argumentError
  | dbError
  | dbDuplicateEntry (columns : List String)
  | invalidSortKey (key : String)
  | markerNotFound (marker : String)
  | keypairNotFound (userId name : String)
  | keyPairExists (keyName : String)
  | flavorNotFound (id : Nat)
  | flavorNotFoundByFlavorId (flavorid : String)
  | flavorNotFoundByName (name : String)
  | flavorExists (name : String)
  | flavorIdExists (flavorid : String)
  | flavorAccessExists (flavorId : Nat) (projectId : String)
  | flavorAccessNotFound (flavorId : Nat) (projectId : String)
  | flavorExtraSpecsNotFound (flavorId : Nat) (extraSpecsKey : String)
  | objectActionError (action reason : String)
  | aggregateNotFound (id : Nat)
  | aggregateNameExists (name : String)
  | aggregateHostExists (host : String) (id : Nat)
  deriving DecidableEq, Repr

/-- A string that is neither `None` nor empty. -/
def truthy : Option String → Bool
  | some s => s != ""
  | none => false

/-- `is_user_context`. -/
def isUserContext (ctxt : Context) : Bool :=
  !ctxt.isAdmin && truthy ctxt.userId && truthy ctxt.projectId

/-- `require_context`. -/
def requireContext (ctxt : Context) : Except NovaError Unit :=
  if !ctxt.isAdmin && !isUserContext ctxt then .error .forbidden else .ok ()

theorem requireContext_admin {ctxt : Context} (h : ctxt.isAdmin = true) :
    requireContext ctxt = .ok () := by
  unfold requireContext
  rw [h]
  rfl

/-- `get_admin_context()`. -/
def adminContext : Context := ⟨none, none, true, "no"⟩

/-- The condition `model_query` puts on `deleted`. -/
def modelQuery (ctxt : Context) (readDeleted : Option String) : Except NovaError (Nat → Bool) :=
  let value := readDeleted.getD ctxt.readDeleted
  if value = "no" then .ok (fun deleted => deleted == 0)
  else if value = "only" then .ok (fun deleted => deleted != 0)
  else if value = "yes" then .ok (fun _ => true)
  else .error (.valueError s!"Unrecognized read_deleted value '{value}'")

/-- A context that hides deleted rows. -/
theorem modelQuery_hides {ctxt : Context} (h : ctxt.readDeleted = "no") :
    modelQuery ctxt none = .ok (fun deleted => deleted == 0) := by
  unfold modelQuery
  rw [Option.getD_none, h]
  rfl

/-- The values `RequestContext` accepts for `read_deleted`. -/
def readDeletedValues : List String := ["no", "yes", "only"]

/-- The rows a `read_deleted` value shows, by their `deleted`. -/
def shows (readDeleted : String) (deleted : Nat) : Bool :=
  if readDeleted = "no" then deleted == 0
  else if readDeleted = "only" then deleted != 0
  else true

theorem modelQuery_shows {ctxt : Context} (h : ctxt.readDeleted ∈ readDeletedValues) :
    modelQuery ctxt none = .ok (shows ctxt.readDeleted) := by
  have hvalue : ctxt.readDeleted = "no" ∨ ctxt.readDeleted = "yes" ∨ ctxt.readDeleted = "only" := by
    simpa [readDeletedValues] using h
  unfold modelQuery shows
  rw [Option.getD_none]
  rcases hvalue with hvalue | hvalue | hvalue <;> rw [hvalue] <;> rfl

/-! ## Rows that differ in a key -/

variable {ρ γ : Type} [BEq γ] [LawfulBEq γ]

/-- The row of a key. -/
theorem find_of_nodup {key : ρ → γ} {rows : List ρ} (h : (rows.map key).Nodup) {r : ρ}
    (hr : r ∈ rows) : rows.find? (fun t => key t == key r) = some r := by
  cases hfind : rows.find? (fun t => key t == key r) with
  | none => exact absurd (beq_iff_eq.mpr rfl) (List.find?_eq_none.mp hfind r hr)
  | some t =>
    have hk : (key t == key r) = true := List.find?_some (p := fun t => key t == key r) hfind
    have ht := List.mem_of_find?_eq_some hfind
    exact congrArg some (List.inj_on_of_nodup_map h ht hr (beq_iff_eq.mp hk))

/-- Where the first row has the key, no other has it. -/
theorem filter_head_ne {key : ρ → γ} {r : ρ} {rows : List ρ} (h : ((r :: rows).map key).Nodup) :
    (r :: rows).filter (fun t => key t != key r) = rows := by
  rw [List.map_cons, List.nodup_cons] at h
  rw [List.filter_cons_of_neg (by simp), List.filter_eq_self]
  intro t ht
  exact bne_iff_ne.mpr (fun he => h.1 (List.mem_map.mpr ⟨t, ht, he⟩))

theorem filter_head_eq {key : ρ → γ} {r : ρ} {rows : List ρ} (h : ((r :: rows).map key).Nodup) :
    (r :: rows).filter (fun t => key t == key r) = [r] := by
  rw [List.map_cons, List.nodup_cons] at h
  rw [List.filter_cons_of_pos (p := fun t => key t == key r) (beq_iff_eq.mpr rfl),
    List.filter_eq_nil_iff.mpr]
  intro t ht hk
  exact h.1 (List.mem_map.mpr ⟨t, ht, beq_iff_eq.mp hk⟩)

/-! ## Changing rows

What a change leaves among the live rows. -/

/-- Rows that are deleted, all of them that satisfy the condition. -/
theorem filter_map_dead {live p : ρ → Bool} {f : ρ → ρ} (hf : ∀ r, p r → ¬ live (f r))
    (rows : List ρ) :
    (rows.map (fun r => if p r then f r else r)).filter live =
      (rows.filter live).filter (fun r => !p r) := by
  induction rows with
  | nil => rfl
  | cons r rows ih =>
    rw [List.map_cons, List.filter_cons, List.filter_cons, ih]
    by_cases hpr : p r = true
    · rw [if_pos hpr, if_neg (hf r hpr)]
      by_cases hlive : live r = true
      · rw [if_pos hlive, List.filter_cons_of_neg (by rw [hpr]; simp)]
      · rw [if_neg hlive]
    · rw [if_neg hpr]
      by_cases hlive : live r = true
      · rw [if_pos hlive, if_pos hlive, List.filter_cons_of_pos (by simpa using hpr)]
      · rw [if_neg hlive, if_neg hlive]

/-- The first row that satisfies the condition is changed. -/
def updateFirst (p : ρ → Bool) (f : ρ → ρ) : List ρ → List ρ
  | [] => []
  | r :: rows => if p r then f r :: rows else r :: updateFirst p f rows

/-- A live row that is changed and stays live. -/
theorem filter_updateFirst_live {live p : ρ → Bool} {f : ρ → ρ} (hp : ∀ r, p r → live r)
    (hf : ∀ r, p r → live (f r)) (rows : List ρ) :
    (updateFirst p f rows).filter live = updateFirst p f (rows.filter live) := by
  induction rows with
  | nil => rfl
  | cons r rows ih =>
    rw [updateFirst]
    by_cases hpr : p r = true
    · rw [if_pos hpr, List.filter_cons_of_pos (hf r hpr), List.filter_cons_of_pos (hp r hpr),
        updateFirst, if_pos hpr]
    · rw [if_neg hpr, List.filter_cons, List.filter_cons, ih]
      by_cases hlive : live r = true
      · rw [if_pos hlive, if_pos hlive, updateFirst, if_neg hpr]
      · rw [if_neg hlive, if_neg hlive]

/-- A live row that is deleted. -/
theorem filter_updateFirst_dead {live p : ρ → Bool} {f : ρ → ρ} (hp : ∀ r, p r → live r)
    (hf : ∀ r, p r → ¬ live (f r)) (rows : List ρ) :
    (updateFirst p f rows).filter live = (rows.filter live).eraseP p := by
  induction rows with
  | nil => rfl
  | cons r rows ih =>
    rw [updateFirst]
    by_cases hpr : p r = true
    · rw [if_pos hpr, List.filter_cons_of_neg (hf r hpr), List.filter_cons_of_pos (hp r hpr),
        List.eraseP_cons_of_pos hpr]
    · rw [if_neg hpr, List.filter_cons, List.filter_cons, ih]
      by_cases hlive : live r = true
      · rw [if_pos hlive, if_pos hlive, List.eraseP_cons_of_neg hpr]
      · rw [if_neg hlive, if_neg hlive]

end PolarBear.Db
