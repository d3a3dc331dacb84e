import Mathlib.Data.List.Basic

/-!
# `get_wrapped_function`

A decorator's wrapper keeps the function it wraps in one of the cells of its closure.
The search for the function at the bottom goes into each cell in turn, and settles
for the first one that holds a callable: for what lies deeper in it, or else for the
callable itself. So it follows the first callable of each closure, and nothing else
(`searchCells_eq`), up to a function whose closure holds no callable (`finds_iff`). It
finds the bottom of a stack exactly if that path leads there (`finds_bottom_iff`). A
closure that comes first in itself is followed for ever.
-/

namespace PolarBear.Utils

variable {φ : Type}

/-- What a closure cell holds: a callable, or another value. -/
inductive Cell (φ : Type) where
  | callable (function : φ)
  | value
  deriving DecidableEq, Repr

variable (closure : φ → List (Cell φ))

/-- The loop over the cells, and what it returns: `None` at the end. -/
def searchCells (deeper : Cell φ → Option (Option φ)) : List (Cell φ) → Option (Option φ)
  | [] => some none
  | cell :: cells => do
    match ← deeper cell with
    | some deeperFunc => some (some deeperFunc)
    | none =>
      match cell with
      | .callable function => some (some function)
      | .value => searchCells deeper cells

/-- `_get_wrapped_function`, on fuel. A value without `__closure__` has nothing deeper, and for
a function without one the loop is empty. -/
def search : Nat → Cell φ → Option (Option φ)
  | _, .value => some none
  | 0, .callable _ => none
  | fuel + 1, .callable function => searchCells (search fuel) (closure function)

/-- `get_wrapped_function`, on fuel. -/
def getWrappedFunction (fuel : Nat) (function : φ) : Option (Option φ) :=
  if (closure function).isEmpty then some (some function)
  else search closure fuel (.callable function)

/-- `top` is a stack of wrappers over `bottom`, which has no closure. -/
inductive Wraps : φ → φ → Prop
  | bottom {function : φ} : closure function = [] → Wraps function function
  | wrapper {function wrapped bottom : φ} : .callable wrapped ∈ closure function →
      Wraps wrapped bottom → Wraps function bottom

/-- The first callable of a closure. -/
def firstCallable : List (Cell φ) → Option φ
  | [] => none
  | .callable function :: _ => some function
  | .value :: cells => firstCallable cells

/-- Going to the first callable of each closure, one comes to a function without closure. -/
inductive LeadsTo : φ → φ → Prop
  | bottom {function : φ} : closure function = [] → LeadsTo function function
  | first {function next bottom : φ} : firstCallable (closure function) = some next →
      LeadsTo next bottom → LeadsTo function bottom

/-- Going to the first callable of each closure, one comes to a function whose closure holds
none. -/
inductive FirstPath : φ → φ → Prop
  | stop {function : φ} : firstCallable (closure function) = none → FirstPath function function
  | first {function next bottom : φ} : firstCallable (closure function) = some next →
      FirstPath next bottom → FirstPath function bottom

/-- The path leads to `bottom`, and is not empty if the function has a closure. -/
def Uncovers (function bottom : φ) : Prop :=
  FirstPath closure function bottom ∧ (closure function = [] ∨ function ≠ bottom)

/-- The search comes to an end, and finds the function. -/
def Finds (function bottom : φ) : Prop :=
  ∃ n, ∀ fuel, n ≤ fuel → getWrappedFunction closure fuel function = some (some bottom)

variable {closure} {function bottom next : φ}

/-! ## The search -/

/-- The loop looks at the first callable cell only. -/
theorem searchCells_eq (fuel : Nat) (cells : List (Cell φ)) :
    searchCells (search closure fuel) cells = match firstCallable cells with
      | none => some none
      | some function =>
        (search closure fuel (.callable function)).map
          (fun found => some (found.getD function)) := by
  induction cells with
  | nil => rfl
  | cons cell cells ih =>
    cases cell with
    | value =>
      rw [searchCells, search, firstCallable, ← ih]
      rfl
    | callable function =>
      rw [searchCells, firstCallable]
      dsimp only
      cases search closure fuel (.callable function) with
      | none => rfl
      | some found => cases found <;> rfl

/-- One step along the path. -/
theorem search_first (hfirst : firstCallable (closure function) = some next) (fuel : Nat) :
    search closure (fuel + 1) (.callable function) =
      (search closure fuel (.callable next)).map (fun found => some (found.getD next)) := by
  rw [search, searchCells_eq, hfirst]

theorem search_none (hnone : firstCallable (closure function) = none) (fuel : Nat) :
    search closure (fuel + 1) (.callable function) = some none := by
  rw [search, searchCells_eq, hnone]

variable (closure) in
/-- Where the search from a function ends: at what it finds, or at the function itself. -/
def reached (fuel : Nat) (function : φ) : Option φ :=
  (search closure fuel (.callable function)).map (fun found => found.getD function)

theorem reached_first (hfirst : firstCallable (closure function) = some next) (fuel : Nat) :
    reached closure (fuel + 1) function = reached closure fuel next := by
  unfold reached
  rw [search_first hfirst, Option.map_map]
  rfl

theorem reached_none (hnone : firstCallable (closure function) = none) (fuel : Nat) :
    reached closure (fuel + 1) function = some function := by
  unfold reached
  rw [search_none hnone]
  rfl

/-- The path is followed to its end. -/
theorem FirstPath.reached (h : FirstPath closure function bottom) :
    ∃ n, ∀ fuel, n ≤ fuel → reached closure fuel function = some bottom := by
  induction h with
  | stop hnone =>
    refine ⟨1, fun fuel hfuel => ?_⟩
    obtain ⟨fuel, rfl⟩ : ∃ f, fuel = f + 1 := ⟨fuel - 1, by omega⟩
    exact reached_none hnone fuel
  | first hfirst _ ih =>
    obtain ⟨n, hn⟩ := ih
    refine ⟨n + 1, fun fuel hfuel => ?_⟩
    obtain ⟨fuel, rfl⟩ : ∃ f, fuel = f + 1 := ⟨fuel - 1, by omega⟩
    rw [reached_first hfirst]
    exact hn fuel (by omega)

/-- What is reached lies at the end of the path. -/
theorem firstPath_of_reached :
    ∀ {fuel : Nat} {function : φ}, reached closure fuel function = some bottom →
      FirstPath closure function bottom
  | 0, _, h => by cases h
  | fuel + 1, function, h => by
    cases hcells : firstCallable (closure function) with
    | none =>
      rw [reached_none hcells] at h
      obtain rfl : function = bottom := Option.some.inj h
      exact .stop hcells
    | some next =>
      rw [reached_first hcells] at h
      exact .first hcells (firstPath_of_reached h)

theorem FirstPath.firstCallable_bottom (h : FirstPath closure function bottom) :
    firstCallable (closure bottom) = none := by
  induction h with
  | stop hnone => exact hnone
  | first _ _ ih => exact ih

/-- What the search finds below a function is not the function itself. -/
theorem ne_of_search {fuel : Nat}
    (h : search closure (fuel + 1) (.callable function) = some (some bottom)) :
    function ≠ bottom := by
  rintro rfl
  cases hcells : firstCallable (closure function) with
  | none =>
    rw [search_none hcells] at h
    cases h
  | some next =>
    -- the function would be the end of its own path
    have hreached : reached closure (fuel + 1) function = some function := by
      unfold reached
      rw [h]
      rfl
    have hend := (firstPath_of_reached hreached).firstCallable_bottom
    rw [hcells] at hend
    cases hend

/-- With fuel for one call, what is returned is what is reached, but for a function that reaches
itself: that is returned only if it has no closure. -/
theorem getWrappedFunction_iff (fuel : Nat) :
    getWrappedFunction closure (fuel + 1) function = some (some bottom) ↔
      reached closure (fuel + 1) function = some bottom ∧
        (closure function = [] ∨ function ≠ bottom) := by
  unfold getWrappedFunction reached
  by_cases hclosure : closure function = []
  · rw [hclosure, search_none (by rw [hclosure]; rfl)]
    simp
  · rw [if_neg (by simpa using hclosure)]
    cases hsearch : search closure (fuel + 1) (.callable function) with
    | none => simp
    | some found =>
      cases found with
      | some g =>
        have hne := ne_of_search hsearch
        simp only [Option.some.injEq, Option.map_some, Option.getD_some]
        exact ⟨fun h => ⟨h, .inr (h ▸ hne)⟩, fun h => h.1⟩
      | none =>
        -- nothing deeper: the function reaches itself, and has a closure
        simp [hclosure]

/-- **What is found**: the end of the path. -/
theorem finds_iff : Finds closure function bottom ↔ Uncovers closure function bottom := by
  constructor
  · rintro ⟨n, hn⟩
    obtain ⟨hreached, hclosure⟩ := (getWrappedFunction_iff n).mp (hn (n + 1) (Nat.le_succ n))
    exact ⟨firstPath_of_reached hreached, hclosure⟩
  · rintro ⟨hpath, hclosure⟩
    obtain ⟨n, hn⟩ := hpath.reached
    refine ⟨n + 1, fun fuel hfuel => ?_⟩
    obtain ⟨fuel, rfl⟩ : ∃ f, fuel = f + 1 := ⟨fuel - 1, by omega⟩
    exact (getWrappedFunction_iff fuel).mpr ⟨hn (fuel + 1) (by omega), hclosure⟩

/-- A function that is found with some fuel is the one that is found. -/
theorem finds_of_found {fuel : Nat}
    (h : getWrappedFunction closure fuel function = some (some bottom)) :
    Finds closure function bottom := by
  cases fuel with
  | zero =>
    unfold getWrappedFunction at h
    split at h
    · next hempty =>
      have hclosure := List.isEmpty_iff.mp hempty
      obtain rfl : function = bottom := Option.some.inj (Option.some.inj h)
      exact finds_iff.mpr ⟨.stop (by rw [hclosure]; rfl), .inl hclosure⟩
    · cases h
  | succ fuel =>
    obtain ⟨hreached, hclosure⟩ := (getWrappedFunction_iff fuel).mp h
    exact finds_iff.mpr ⟨firstPath_of_reached hreached, hclosure⟩

theorem leadsTo_iff (hbottom : closure bottom = []) :
    LeadsTo closure function bottom ↔ FirstPath closure function bottom := by
  constructor
  · intro h
    induction h with
    | bottom hclosure => exact .stop (by rw [hclosure]; rfl)
    | first hfirst _ ih => exact .first hfirst (ih hbottom)
  · intro h
    induction h with
    | stop _ => exact .bottom hbottom
    | first hfirst _ ih => exact .first hfirst (ih hbottom)

theorem Wraps.closure_bottom (h : Wraps closure function bottom) : closure bottom = [] := by
  induction h with
  | bottom hclosure => exact hclosure
  | wrapper _ _ ih => exact ih

/-- **Main result.** For every stack of wrappers over a function without closure, whatever else
the cells hold and whatever they refer to: the bottom function is found exactly if going to
the first callable of each closure leads there. -/
theorem finds_bottom_iff (h : Wraps closure function bottom) :
    Finds closure function bottom ↔ LeadsTo closure function bottom := by
  have hbottom := h.closure_bottom
  rw [finds_iff, leadsTo_iff hbottom]
  refine and_iff_left_of_imp (fun _ => ?_)
  by_cases heq : function = bottom
  · exact .inl (heq ▸ hbottom)
  · exact .inr heq

/-- A function whose first callable is itself: the search never ends. -/
theorem search_cycle (hself : firstCallable (closure function) = some function) :
    ∀ fuel, getWrappedFunction closure fuel function = none := by
  have hnone : ∀ fuel, search closure fuel (.callable function) = none := by
    intro fuel
    induction fuel with
    | zero => rfl
    | succ fuel ih => rw [search_first hself, ih, Option.map_none]
  intro fuel
  unfold getWrappedFunction
  rw [hnone, if_neg]
  intro hempty
  rw [List.isEmpty_iff.mp hempty] at hself
  cases hself

/-! ## Two decorators -/

/-- `notified` keeps its notifier beside the method, and the cells are in the order of the
names. -/
def notifiedClosure : String → List (Cell String)
  | "notified" => [.value, .callable "emit", .callable "resize"]
  | _ => []

/-- `retried` calls itself. -/
def retriedClosure : String → List (Cell String)
  | "retried" => [.callable "retried", .callable "resize"]
  | _ => []

/-- The first decorator is taken for a wrapper of its notifier, and the second is followed into
itself for ever. -/
theorem wrong_callable_found :
    (Wraps notifiedClosure "notified" "resize" ∧
      (∀ fuel, getWrappedFunction notifiedClosure (fuel + 2) "notified" = some (some "emit")) ∧
      ¬ Finds notifiedClosure "notified" "resize") ∧
    (Wraps retriedClosure "retried" "resize" ∧
      (∀ fuel, getWrappedFunction retriedClosure fuel "retried" = none) ∧
      ¬ Finds retriedClosure "retried" "resize") := by
  have hemit : ∀ fuel,
      getWrappedFunction notifiedClosure (fuel + 2) "notified" = some (some "emit") :=
    fun fuel => rfl
  have hcycle : ∀ fuel, getWrappedFunction retriedClosure fuel "retried" = none :=
    search_cycle rfl
  refine ⟨⟨.wrapper (by decide) (.bottom rfl), hemit, fun ⟨n, hn⟩ => ?_⟩,
    ⟨.wrapper (by decide) (.bottom rfl), hcycle, fun ⟨n, hn⟩ => ?_⟩⟩
  · have hfound := hn (n + 2) (by omega)
    rw [hemit] at hfound
    exact absurd (Option.some.inj (Option.some.inj hfound)) (by decide)
  · have hfound := hn n (Nat.le_refl n)
    rw [hcycle] at hfound
    cases hfound

/-- A closure with a value before the method. -/
def timedClosure : String → List (Cell String)
  | "timed" => [.value, .callable "resize"]
  | _ => []

theorem timed_found :
    Finds timedClosure "timed" "resize" ↔ LeadsTo timedClosure "timed" "resize" :=
  finds_bottom_iff (.wrapper (by decide) (.bottom rfl))

end PolarBear.Utils
