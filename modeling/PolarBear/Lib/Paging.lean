import Mathlib.Order.Lattice
import PolarBear.Lib.Blocks

/-!
# Paging with markers

A reader that hands out a list in pages: a request names the last row it has, and
gets the next ones, at most as many as the page size. `collectPages` asks for pages
until one is empty, and `collect` puts them together. They run on fuel, since a reader
could hand out rows for ever.

A reader `Pages` a list when the first page starts the list, and the page after a
row starts with what follows the row. From such a reader the pages are the list,
cut into full ones but for the last (`collectPages_cut`, `collect_eq`), with fuel for one
page more than the list has rows.

`Reads` says the same of a reader with an optional limit, that refuses a marker it does
not have. Two such readers can be read as one: the second fills up what the first leaves
of a page, and is asked for the markers that the first does not have. If no key is in
both, this reads the one list after the other (`Reads.chain`).
-/

namespace PolarBear.Paging

open Blocks

variable {ρ γ ε : Type}

/-- Ask for pages until one is empty; nothing where the fuel is used up. -/
def collectPages (key : ρ → γ) (fetch : Option γ → Except ε (List ρ)) :
    Nat → Option γ → Option (Except ε (List (List ρ)))
  | 0, _ => none
  | fuel + 1, marker =>
    match fetch marker with
    | .error e => some (.error e)
    | .ok page =>
      match page.getLast? with
      | none => some (.ok [])
      | some last => (collectPages key fetch fuel (some (key last))).map (Except.map (page :: ·))

/-- The same, with the pages put together. -/
def collect (key : ρ → γ) (fetch : Option γ → Except ε (List ρ)) :
    Nat → Option γ → Option (Except ε (List ρ))
  | 0, _ => none
  | fuel + 1, marker =>
    match fetch marker with
    | .error e => some (.error e)
    | .ok page =>
      match page.getLast? with
      | none => some (.ok [])
      | some last => (collect key fetch fuel (some (key last))).map (Except.map (page ++ ·))

/-- The reader hands out the list. -/
structure Pages (key : ρ → γ) (fetch : Option γ → Except ε (List ρ)) (limit : Nat)
    (rows : List ρ) : Prop where
  first : fetch none = .ok (rows.take limit)
  after : ∀ done r rest, rows = done ++ r :: rest →
    fetch (some (key r)) = .ok (rest.take limit)

section

variable {key : ρ → γ} {fetch : Option γ → Except ε (List ρ)} {limit : Nat} {rows : List ρ}

theorem collect_eq_flatten : ∀ (fuel : Nat) (marker : Option γ),
    collect key fetch fuel marker =
      (collectPages key fetch fuel marker).map (Except.map List.flatten)
  | 0, _ => rfl
  | fuel + 1, marker => by
    rw [collect, collectPages]
    cases fetch marker with
    | error e => rfl
    | ok page =>
      dsimp only
      cases page.getLast? with
      | none => rfl
      | some last =>
        dsimp only
        rw [collect_eq_flatten fuel]
        cases collectPages key fetch fuel (some (key last)) with
        | none => rfl
        | some pages => cases pages <;> rfl

/-- A round that gets rows goes on from the last of them. -/
theorem collectPages_cons {fuel : Nat} {marker : Option γ} {page : List ρ} {last : ρ}
    (hfetch : fetch marker = .ok (page ++ [last])) :
    collectPages key fetch (fuel + 1) marker =
      (collectPages key fetch fuel (some (key last))).map
        (Except.map ((page ++ [last]) :: ·)) := by
  rw [collectPages, hfetch]
  simp only [List.getLast?_concat]

theorem collectPages_empty {fuel : Nat} {marker : Option γ} (hfetch : fetch marker = .ok []) :
    collectPages key fetch (fuel + 1) marker = some (.ok []) := by
  rw [collectPages, hfetch]
  rfl

/-- The pages that are collected cut the list. -/
def Collects (key : ρ → γ) (fetch : Option γ → Except ε (List ρ)) (limit fuel : Nat)
    (marker : Option γ) (rows : List ρ) : Prop :=
  ∃ pages, collectPages key fetch fuel marker = some (.ok pages) ∧ Cut limit pages rows

/-- One round, and the rest of the list. -/
theorem collects_round (hlimit : 1 ≤ limit) {fuel : Nat} {marker : Option γ} {rest : List ρ}
    (hfetch : fetch marker = .ok (rest.take limit))
    (hrest : ∀ page last more, rest = page ++ last :: more → more.length < rest.length →
      Collects key fetch limit fuel (some (key last)) more) :
    Collects key fetch limit (fuel + 1) marker rest := by
  rcases List.eq_nil_or_concat' (rest.take limit) with hnil | ⟨page, last, hpage⟩
  · rw [hnil] at hfetch
    have hempty : rest = [] := (List.take_eq_nil_iff.mp hnil).resolve_left (by omega)
    exact ⟨[], collectPages_empty hfetch, hempty ▸ Cut.nil⟩
  · have hblock := hpage
    rw [hpage] at hfetch
    have hsplit : rest = page ++ last :: rest.drop limit := by
      conv_lhs => rw [← List.take_append_drop limit rest, hpage]
      rw [List.append_assoc, List.singleton_append]
    have hlength := congrArg List.length hsplit
    rw [List.length_append, List.length_cons] at hlength
    obtain ⟨pages, hpages, hcut⟩ := hrest page last _ hsplit (by omega)
    refine ⟨(page ++ [last]) :: pages, ?_, ?_⟩
    · rw [collectPages_cons hfetch, hpages]
      rfl
    · rw [← hblock]
      by_cases hfull : limit ≤ rest.length
      · conv_rhs => rw [← List.take_append_drop limit rest]
        exact hcut.cons hlimit (List.length_take_of_le hfull)
      · -- the last page, after which nothing is left
        have hshort : rest.length ≤ limit := Nat.le_of_not_le hfull
        rw [List.drop_of_length_le hshort] at hcut
        rw [hcut.eq_nil, List.take_of_length_le hshort]
        exact Cut.last (by rw [hsplit]; simp) hshort

/-- What is collected after a row is what follows it. -/
theorem collects_after (h : Pages key fetch limit rows) (hlimit : 1 ≤ limit) :
    ∀ {fuel : Nat} (done : List ρ) {rest : List ρ} {r : ρ}, rows = done ++ r :: rest →
      rest.length < fuel → Collects key fetch limit fuel (some (key r)) rest := by
  intro fuel
  induction fuel with
  | zero =>
    intro done rest r _ hfuel
    exact absurd hfuel (Nat.not_lt_zero _)
  | succ fuel ih =>
    intro done rest r hrows hfuel
    refine collects_round hlimit (h.after done r rest hrows) (fun page last more hsplit hless => ?_)
    refine ih (done ++ r :: page) ?_ (by omega)
    rw [hrows, hsplit, List.append_assoc, List.cons_append]

/-- **The pages cut the list**: all but the last are full. -/
theorem collectPages_cut (h : Pages key fetch limit rows) (hlimit : 1 ≤ limit) {fuel : Nat}
    (hfuel : rows.length < fuel) : Collects key fetch limit fuel none rows := by
  obtain ⟨fuel, rfl⟩ : ∃ n, fuel = n + 1 := ⟨fuel - 1, by omega⟩
  refine collects_round hlimit h.first (fun page last more hsplit hless => ?_)
  exact collects_after h hlimit page hsplit (by omega)

/-- **The pages are the list**: all of its rows, in order, each once. -/
theorem collect_eq (h : Pages key fetch limit rows) (hlimit : 1 ≤ limit) {fuel : Nat}
    (hfuel : rows.length < fuel) : collect key fetch fuel none = some (.ok rows) := by
  obtain ⟨pages, hpages, hcut⟩ := collectPages_cut h hlimit hfuel
  rw [collect_eq_flatten, hpages, ← hcut.flatten]
  rfl

end

/-- What follows a row, where the keys increase. -/
theorem filter_after [LinearOrder γ] {key : ρ → γ} {done rest : List ρ} {r : ρ}
    (hsorted : (done ++ r :: rest).Pairwise (fun a b => key a < key b)) :
    (done ++ r :: rest).filter (fun a => decide (key r < key a)) = rest := by
  obtain ⟨-, htail, hcross⟩ := List.pairwise_append.mp hsorted
  obtain ⟨hafter, -⟩ := List.pairwise_cons.mp htail
  have hdone : done.filter (fun a => decide (key r < key a)) = [] := by
    rw [List.filter_eq_nil_iff]
    intro a ha
    have hlt := hcross a ha r (List.mem_cons_self ..)
    simpa using le_of_lt hlt
  rw [List.filter_append, hdone, List.nil_append, List.filter_cons_of_neg (by simp),
    List.filter_eq_self]
  intro a ha
  exact decide_eq_true (hafter a ha)

/-! ## Two readers as one -/

/-- The rows up to a limit, if there is one. -/
def upTo (limit : Option Nat) (rows : List ρ) : List ρ :=
  match limit with
  | some n => rows.take n
  | none => rows

/-- The reader hands out the list under every limit of at least one and under none, and refuses a
marker that is no key of the list. -/
structure Reads (key : ρ → γ) (missing : γ → ε)
    (fetch : Option Nat → Option γ → Except ε (List ρ)) (rows : List ρ) : Prop where
  first : ∀ limit, limit ≠ some 0 → fetch limit none = .ok (upTo limit rows)
  after : ∀ limit, limit ≠ some 0 → ∀ done r rest, rows = done ++ r :: rest →
    fetch limit (some (key r)) = .ok (upTo limit rest)
  missing : ∀ limit, limit ≠ some 0 → ∀ marker, marker ∉ rows.map key →
    fetch limit (some marker) = .error (missing marker)

/-- What a limit leaves after some rows, if that is not nothing. -/
def room (limit : Option Nat) (rows : List ρ) : Option (Option Nat) :=
  match limit with
  | some n => if rows.length < n then some (some (n - rows.length)) else none
  | none => some none

/-- The number of rows is all that counts. -/
theorem room_map {σ : Type} (f : ρ → σ) (limit : Option Nat) (rows : List ρ) :
    room limit (rows.map f) = room limit rows := by
  unfold room
  rw [List.length_map]

/-- The first reader, and the second for what is left. -/
def chain (isMissing : ε → Bool) (fetch fetch' : Option Nat → Option γ → Except ε (List ρ))
    (limit : Option Nat) (marker : Option γ) : Except ε (List ρ) :=
  match fetch limit marker with
  | .ok rows =>
    match room limit rows with
    | some limitMore => (fetch' limitMore none).map (rows ++ ·)
    | none => .ok rows
  | .error e => if isMissing e then fetch' limit marker else .error e

section

variable {key : ρ → γ} {missing : γ → ε} {isMissing : ε → Bool}
  {fetch fetch' : Option Nat → Option γ → Except ε (List ρ)} {rows rows' : List ρ}

theorem Reads.pages (h : Reads key missing fetch rows) {limit : Nat} (hlimit : 1 ≤ limit) :
    Pages key (fetch (some limit)) limit rows where
  first := h.first (some limit) (fun h => Nat.ne_of_gt hlimit (Option.some.inj h))
  after := h.after (some limit) (fun h => Nat.ne_of_gt hlimit (Option.some.inj h))

/-- What a reader does without a limit, or with one of at least one, is all that counts. -/
theorem Reads.congr (h : Reads key missing fetch rows)
    (hsame : ∀ limit, limit ≠ some 0 → ∀ marker, fetch' limit marker = fetch limit marker) :
    Reads key missing fetch' rows where
  first := fun limit hlimit => (hsame limit hlimit none).trans (h.first limit hlimit)
  after := fun limit hlimit done r rest hrows =>
    (hsame limit hlimit _).trans (h.after limit hlimit done r rest hrows)
  missing := fun limit hlimit marker hmarker =>
    (hsame limit hlimit _).trans (h.missing limit hlimit marker hmarker)

theorem map_upTo {σ : Type} (f : ρ → σ) (limit : Option Nat) (rows : List ρ) :
    (upTo limit rows).map f = upTo limit (rows.map f) := by
  cases limit with
  | none => rfl
  | some n => exact List.map_take

/-- A reader of other rows with the same keys. -/
theorem Reads.map {σ : Type} {key' : σ → γ} (h : Reads key missing fetch rows) {f : ρ → σ}
    (hkey : ∀ r, key' (f r) = key r) :
    Reads key' missing (fun limit marker => (fetch limit marker).map (List.map f))
      (rows.map f) where
  first := by
    intro limit hlimit
    rw [h.first limit hlimit, ← map_upTo]
    rfl
  after := by
    intro limit hlimit done r rest hrows
    obtain ⟨done, tail, rfl, -, htail⟩ := List.map_eq_append_iff.mp hrows
    obtain ⟨r, rest, rfl, rfl, rfl⟩ := List.map_eq_cons_iff.mp htail
    rw [hkey, h.after limit hlimit done r rest rfl, ← map_upTo]
    rfl
  missing := by
    intro limit hlimit marker hmarker
    have hkeys : (rows.map f).map key' = rows.map key := by
      rw [List.map_map]
      exact List.map_congr_left (fun r _ => hkey r)
    rw [hkeys] at hmarker
    rw [h.missing limit hlimit marker hmarker]
    rfl

/-- What the first reader returns is filled up. -/
theorem chain_ok (h : Reads key missing fetch' rows') {limit : Option Nat} (hlimit : limit ≠ some 0)
    {marker : Option γ} {rest : List ρ} (hfetch : fetch limit marker = .ok (upTo limit rest)) :
    chain isMissing fetch fetch' limit marker = .ok (upTo limit (rest ++ rows')) := by
  unfold chain
  rw [hfetch]
  dsimp only
  cases limit with
  | none =>
    show (fetch' none none).map _ = _
    rw [h.first none (fun h => nomatch h)]
    rfl
  | some n =>
    unfold room upTo
    dsimp only
    rw [List.length_take, List.take_append]
    by_cases hroom : rest.length < n
    · rw [if_pos (by omega), Nat.min_eq_right (Nat.le_of_lt hroom)]
      dsimp only
      have hmore : some (n - rest.length) ≠ some 0 := fun h =>
        Nat.sub_ne_zero_of_lt hroom (Option.some.inj h)
      rw [h.first _ hmore]
      rfl
    · rw [if_neg (by omega), Nat.sub_eq_zero_of_le (Nat.le_of_not_lt hroom), List.take_zero,
        List.append_nil]

/-- **Two readers read the one list after the other**, if no key is in both. -/
theorem Reads.chain (h : Reads key missing fetch rows) (h' : Reads key missing fetch' rows')
    (hmissing : ∀ marker, isMissing (missing marker) = true)
    (hdisjoint : ∀ k ∈ rows.map key, k ∉ rows'.map key) :
    Reads key missing (chain isMissing fetch fetch') (rows ++ rows') where
  first := fun limit hlimit => chain_ok h' hlimit (h.first limit hlimit)
  after := by
    -- a key of the second list, which the first reader does not have
    have hsecond : ∀ limit, limit ≠ some 0 → ∀ done r rest, rows' = done ++ r :: rest →
        Paging.chain isMissing fetch fetch' limit (some (key r)) = .ok (upTo limit rest) := by
      intro limit hlimit done r rest hrows
      have hkey : key r ∈ rows'.map key := by
        rw [hrows]
        exact List.mem_map_of_mem (List.mem_append_right _ (List.mem_cons_self ..))
      unfold Paging.chain
      rw [h.missing limit hlimit _ (fun hmem => hdisjoint _ hmem hkey)]
      dsimp only
      rw [if_pos (hmissing _)]
      exact h'.after limit hlimit done r rest hrows
    intro limit hlimit done r rest hrows
    rcases List.append_eq_append_iff.mp hrows with ⟨more, -, hrows'⟩ | ⟨more, hfirst, hmore⟩
    · exact hsecond limit hlimit more r rest hrows'
    · cases more with
      | nil => exact hsecond limit hlimit [] r rest hmore.symm
      | cons r' more =>
        obtain ⟨rfl, rfl⟩ := List.cons.inj hmore
        exact chain_ok h' hlimit (h.after limit hlimit done r more hfirst)
  missing := by
    intro limit hlimit marker hmarker
    rw [List.map_append, List.mem_append, not_or] at hmarker
    unfold Paging.chain
    rw [h.missing limit hlimit marker hmarker.1]
    dsimp only
    rw [if_pos (hmissing _)]
    exact h'.missing limit hlimit marker hmarker.2

end

end PolarBear.Paging
