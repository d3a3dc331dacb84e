import PolarBear.Flavors.Listing

/-!
# Strangers cannot tell hidden flavors

A flavor is hidden from a project when it is not public and not granted to the
project. Two states that differ in hidden flavors only give the same answer to
every reader: each starts from a query that shows a stranger nothing hidden, so
both states give it the same rows, and what follows looks at these rows alone.
That the queries agree is said once for each database (`query_api_agree`,
`query_main_agree`); the readers are then walked with the rules of `Agree`.
-/

namespace PolarBear.Flavors

open Transactions Db

/-- The flavor is not public, and the project has no grant for it. -/
def hiddenFrom (project : String) (r : FlavorRow) : Bool :=
  r.isPublic != some true && !r.projects.contains project

/-- The tables differ only in rows hidden from the project. -/
def DifferInHidden {ρ : Type} (project : String) (row : ρ → FlavorRow) (t t' : List ρ) : Prop :=
  t.filter (fun r => !hiddenFrom project (row r)) =
    t'.filter (fun r => !hiddenFrom project (row r))

variable {ctxt : Context} {project : String} {s s' : Databases} {d : Dialect} {now : Nat}

/-- A stranger is shown what is not hidden. -/
theorem shownTo_stranger (hadmin : ctxt.isAdmin = false)
    (hproject : ctxt.projectId = some project) (r : FlavorRow) :
    shownTo ctxt r = !hiddenFrom project r := by
  have hgrant : r.projects.any (fun p => some p == ctxt.projectId) =
      r.projects.contains project := by
    rw [hproject, List.contains_eq_any_beq]
    refine congrArg (fun f => r.projects.any f) (funext fun p => ?_)
    show (p == project) = (project == p)
    exact BEq.comm
  unfold shownTo hiddenFrom
  rw [hadmin, hgrant, Bool.false_or, Bool.not_and, Bool.not_not]
  exact congrArg (fun b => b || r.projects.contains project) (Bool.not_not _).symm

theorem query_api_agree (hadmin : ctxt.isAdmin = false) (hproject : ctxt.projectId = some project)
    (h : DifferInHidden project id s.api.rows s'.api.rows) :
    flavorGetQueryFromDb ctxt s.api = flavorGetQueryFromDb ctxt s'.api := by
  unfold flavorGetQueryFromDb
  rw [show shownTo ctxt = fun r => !hiddenFrom project r from
    funext (shownTo_stranger hadmin hproject)]
  exact h

theorem query_main_agree (hadmin : ctxt.isAdmin = false)
    (hproject : ctxt.projectId = some project)
    (h : DifferInHidden project MainFlavorRow.toFlavorRow s.main s'.main)
    (readDeleted : Option String) :
    flavorGetQuery ctxt readDeleted s.main = flavorGetQuery ctxt readDeleted s'.main := by
  unfold flavorGetQuery
  refine congrArg _ (funext fun shown => ?_)
  have hsplit : ∀ rows : List MainFlavorRow,
      rows.filter (fun r => shown r.deleted && shownTo ctxt r.toFlavorRow) =
        (rows.filter (fun r => !hiddenFrom project r.toFlavorRow)).filter
          (fun r => shown r.deleted) := by
    intro rows
    rw [List.filter_filter]
    exact List.filter_congr (fun r _ => by rw [shownTo_stranger hadmin hproject])
  rw [hsplit, hsplit, h]

theorem agree_exceptFlavorNotFound {α : Type} {fallback : FlavorProg α}
    (h : Agree now s s' fallback) (e : NovaError) :
    Agree now s s' (exceptFlavorNotFound fallback e) := by
  unfold exceptFlavorNotFound
  split
  · exact h
  · exact h
  · exact h
  · exact .throw _

theorem agree_exceptFlavorNotFoundByName {α : Type} {fallback : FlavorProg α}
    (h : Agree now s s' fallback) (e : NovaError) :
    Agree now s s' (exceptFlavorNotFoundByName fallback e) := by
  unfold exceptFlavorNotFoundByName
  split
  · exact h
  · exact .throw _

/-! ## The readers -/

section

variable (hapi : flavorGetQueryFromDb ctxt s.api = flavorGetQueryFromDb ctxt s'.api)
  (hmain : ∀ readDeleted,
    flavorGetQuery ctxt readDeleted s.main = flavorGetQuery ctxt readDeleted s'.main)

include hapi hmain

theorem agree_getById (id : Nat) : Agree now s s' (getById ctxt id) := by
  refine .bind (.tryCatch ?_ (agree_exceptFlavorNotFound ?_)) (fun f => .compute _)
  · refine .bind (.compute _) (fun _ => .reading ?_)
    rw [hapi]
  · refine .bind (.compute _) (fun _ => .reading ?_)
    rw [hmain]

theorem agree_getByName (name : String) : Agree now s s' (getByName ctxt name) := by
  refine .bind (.tryCatch ?_ (agree_exceptFlavorNotFoundByName ?_)) (fun f => .compute _)
  · refine .bind (.compute _) (fun _ => .reading ?_)
    rw [hapi]
  · refine .bind (.compute _) (fun _ => .reading ?_)
    rw [hmain]

theorem agree_getByFlavorId (flavorid : String) (readDeleted : Option String) :
    Agree now s s' (getByFlavorId ctxt flavorid readDeleted) := by
  refine .bind (.tryCatch ?_ (agree_exceptFlavorNotFound ?_)) (fun f => .compute _)
  · refine .bind (.compute _) (fun _ => .reading ?_)
    rw [hapi]
  · refine .bind (.compute _) (fun _ => .reading ?_)
    rw [hmain]

theorem agree_getAll (listing : Listing) (marker : Option String) :
    Agree now s s' (getAll d ctxt listing marker) := by
  refine .bind (.tryCatch (.bind (.reading ?_) (fun _ => .pure _)) (fun e => ?_)) ?_
  · dsimp only
    rw [hapi]
  · -- the handler of a marker that is not found reads nothing
    unfold exceptMarkerNotFound
    split
    · exact .pure _
    · exact .throw _
  · rintro ⟨apiDbFlavors, marker⟩
    dsimp only
    split
    · refine .bind (.bind (.compute _) (fun _ => .reading ?_)) (fun _ => .compute _)
      rw [hmain]
    · exact .bind (.pure _) (fun _ => .compute _)

end

/-- **Main result.** Two states of the API database, and two of the main one, that differ only
in flavors hidden from a project: for a context of that project that is not an administrator's,
every reader returns the same or raises the same in both. -/
theorem hidden_flavors_unobservable (hadmin : ctxt.isAdmin = false)
    (hproject : ctxt.projectId = some project)
    (hapi : DifferInHidden project id s.api.rows s'.api.rows)
    (hmain : DifferInHidden project MainFlavorRow.toFlavorRow s.main s'.main) (now : Nat) :
    (∀ id, ((getById ctxt id).eval now s).1 = ((getById ctxt id).eval now s').1) ∧
    (∀ name, ((getByName ctxt name).eval now s).1 = ((getByName ctxt name).eval now s').1) ∧
    (∀ flavorid readDeleted, ((getByFlavorId ctxt flavorid readDeleted).eval now s).1 =
      ((getByFlavorId ctxt flavorid readDeleted).eval now s').1) ∧
    (∀ d listing marker, ((getAll d ctxt listing marker).eval now s).1 =
      ((getAll d ctxt listing marker).eval now s').1) := by
  have hquery := query_api_agree hadmin hproject hapi
  have hqueryMain := query_main_agree hadmin hproject hmain
  exact ⟨fun id => (agree_getById hquery hqueryMain id).same,
    fun name => (agree_getByName hquery hqueryMain name).same,
    fun flavorid readDeleted => (agree_getByFlavorId hquery hqueryMain flavorid readDeleted).same,
    fun d listing marker => (agree_getAll hquery hqueryMain listing marker).same⟩

/-- A user of a project. -/
def stranger : Context := ⟨some "alice", some "red", false, "no"⟩

def smallFlavor (id : Nat) (name : String) (isPublic : Bool) (projects : List String) :
    FlavorRow :=
  ⟨id, name, 512, 1, some 10, some 0, name, 0, some 1, none, some false, some isPublic, some 5,
    none, [("hw", some "any")], projects⟩

/-- A public flavor, and one in each database that is granted to another project. -/
def withHidden : Databases where
  api := ⟨[smallFlavor 1 "tiny" true [], smallFlavor 7 "blue.big" false ["blue"]], by decide,
    by decide, by decide⟩
  main := [⟨smallFlavor 9 "blue.old" false ["blue"], 0, none, by decide⟩]

def withoutHidden : Databases where
  api := ⟨[smallFlavor 1 "tiny" true []], by decide, by decide, by decide⟩
  main := []

/-- To the project `red` the flavors of `blue` are not there. -/
theorem hidden_flavors_unobservable_sample :
    ((getById stranger 7).eval 0 withHidden).1 = .error (.flavorNotFound 7) ∧
      ((getById stranger 9).eval 0 withHidden).1 = .error (.flavorNotFound 9) := by
  have hadmin : stranger.isAdmin = false := rfl
  have hapi : DifferInHidden "red" id withHidden.api.rows withoutHidden.api.rows := rfl
  have hmain : DifferInHidden "red" MainFlavorRow.toFlavorRow withHidden.main
    withoutHidden.main := rfl
  obtain ⟨hbyId, -⟩ := hidden_flavors_unobservable hadmin rfl hapi hmain 0
  exact ⟨(hbyId 7).trans rfl, (hbyId 9).trans rfl⟩

end PolarBear.Flavors
