import PolarBear.Db.Paginate
import PolarBear.KeyPairs.Migration
import PolarBear.Lib.Fallible
import PolarBear.Lib.Paging
import PolarBear.Lib.Sorting

/-!
# `KeyPairList.get_by_user`

A listing takes a page from the API database and fills it up from the main one. In each
database the rows of the user are paged in the order of their names, after the row of a
marker, which is looked up first. A marker that the API database does not have is looked
up in the main one, and nothing is listed from the API database then; one that it has is
not passed on. If the user has no name in both databases, the pages are the keys of the
API database and then those of the main one, each in the order of the names
(`keyPairPages_exact`).

The database orders names by a comparison that tells all of them apart.
-/

namespace PolarBear.KeyPairs

open Db
open PolarBear.Blocks
open PolarBear.Fallible
open PolarBear.Paging
open PolarBear.Sorting

variable {ρ : Type}

/-! ## The code -/

/-- The only column that key pairs are sorted by. -/
def nameModel (name : ρ → String) : Model ρ where
  column := fun key => if key = "name" then some (fun r => .str (name r)) else none
  relationships := []

/-- The row of a marker among the rows of the user, and the page after it. -/
def pageByName (d : Dialect) (name : ρ → String) (rows : List ρ) (limit : Option Int)
    (marker : Option String) : Except NovaError (List ρ) := do
  let markerRow ← match marker with
    | none => .ok none
    | some marker => match rows.find? (fun r => name r == marker) with
      | some r => .ok (some r)
      | none => .error (.markerNotFound marker)
  paginateQuery d (nameModel name) rows limit ["name"] markerRow none

/-- The rows of a user in the API database. -/
def apiRows (s : Databases) (userId : String) : List KeyPairRow :=
  s.api.table.rows.filter (fun r => r.userId == userId)

/-- The rows of a user in the main database that are not deleted. -/
def mainRows (s : Databases) (userId : String) : List MainKeyPairRow :=
  s.main.filter (fun r => r.deleted == 0 && r.userId == userId)

/-- `_get_from_db` without a name. -/
def getAllFromDb (d : Dialect) (userId : String) (limit : Option Int) (marker : Option String)
    (s : Databases) : Except NovaError (List KeyPairRow) :=
  pageByName d (fun r => r.name) (apiRows s userId) limit marker

/-- `key_pair_get_all_by_user`. -/
def keyPairGetAllByUser (d : Dialect) (ctxt : Context) (userId : String) (limit : Option Int)
    (marker : Option String) (s : Databases) : Except NovaError (List MainKeyPairRow) := do
  requireContext ctxt
  let shown ← modelQuery ctxt (some "no")
  pageByName d (fun r => r.name)
    (s.main.filter (fun r => shown r.deleted && r.userId == userId)) limit marker

/-- An object of the API database. -/
def apiObject (r : KeyPairRow) : KeyPair := r.fromDbObject false none

/-- An object of the main database. -/
def mainObject (r : MainKeyPairRow) : KeyPair :=
  r.toKeyPairRow.fromDbObject (r.deleted != 0) r.deletedAt

/-- `except exception.MarkerNotFound:` nothing is listed, and the marker is kept. -/
def passMarker (marker : Option String) :
    Except NovaError (List KeyPairRow) → Except NovaError (List KeyPairRow × Option String)
  | .ok rows => .ok (rows, none)
  | .error (.markerNotFound _) => .ok ([], marker)
  | .error e => .error e

/-- `KeyPairList.get_by_user`. -/
def getByUser (d : Dialect) (ctxt : Context) (userId : String) (limit : Option Int)
    (marker : Option String) (s : Databases) : Except NovaError (List KeyPair) := do
  let (apiDbKeypairs, marker) ← passMarker marker (getAllFromDb d userId limit marker s)
  let limitMore := limit.map (fun n : Int => n - apiDbKeypairs.length)
  let mainDbKeypairs ←
    if limitMore.all (fun n => 0 < n) then keyPairGetAllByUser d ctxt userId limitMore marker s
    else .ok []
  .ok (apiDbKeypairs.map apiObject ++ mainDbKeypairs.map mainObject)

/-! ## One database -/

variable {d : Dialect} {name : ρ → String} {rows : List ρ}

/-- `asc` has no part after a dash. -/
theorem partitionDash_asc : partitionDash "asc" = ("asc", "") := by
  have hsplit : "asc".splitOn "-" = ["asc"] := by
    unfold String.splitOn
    rw [if_neg (by decide)]
    -- one round for each character, none of which is a dash
    iterate 3 rw [String.splitOnAux, if_neg (by decide), if_neg (by decide)]
    rw [String.splitOnAux, if_pos (by decide)]
    decide
  unfold partitionDash
  rw [hsplit]
  rfl

theorem sortTerm_name :
    sortTerm (nameModel name) "name" "asc" = .ok ⟨fun r => .str (name r), false, none⟩ := by
  unfold sortTerm
  rw [partitionDash_asc]
  rfl

/-- The order of a query by name is that of the names. -/
theorem orderBy_name (r s : ρ) :
    orderBy d [⟨fun r => .str (name r), false, none⟩] r s = d.collate (name r) (name s) := by
  show ((Ordering.eq.then (d.collate (name r) (name s))).then .eq) = _
  cases d.collate (name r) (name s) <;> rfl

theorem limitTo_upTo (limit : Option Nat) :
    limitTo d (limit.map Int.ofNat) rows = .ok (upTo limit rows) := by
  cases limit with
  | none => rfl
  | some n =>
    have hn : 0 ≤ Int.ofNat n := Int.natCast_nonneg n
    show limitTo d (some (Int.ofNat n)) rows = _
    unfold limitTo
    exact if_pos hn

/-- The terms of `ORDER BY name`. -/
theorem terms_name : ["name"].mapM (fun key => sortTerm (nameModel name) key "asc") =
    .ok [⟨fun r => .str (name r), false, none⟩] := by
  rw [List.mapM_cons, sortTerm_name]
  rfl

theorem paginate_first (limit : Option Nat) :
    paginateQuery d (nameModel name) rows (limit.map Int.ofNat) ["name"] none none =
      .ok (upTo limit (sortBy d.collate name rows)) := by
  refine (bind_of_ok terms_name _).trans ?_
  show limitTo d (limit.map Int.ofNat) (rows.mergeSort (fun r s =>
    orderBy d [⟨fun r => .str (name r), false, none⟩] r s != .gt)) = _
  rw [limitTo_upTo]
  simp only [orderBy_name]
  rfl

/-- After a marker: the rows whose name is above that of its row. -/
theorem paginate_after (limit : Option Nat) (m : ρ) :
    paginateQuery d (nameModel name) rows (limit.map Int.ofNat) ["name"] (some m) none =
      .ok (upTo limit (sortBy d.collate name
        (rows.filter (fun a => d.collate (name a) (name m) == .gt)))) := by
  have hcriteria : criteria d "asc" m [⟨fun r => .str (name r), false, none⟩] (fun _ => true) =
      .ok [fun r => true && (d.compare (.str (name r)) (.str (name m)) == some .gt)] := by
    unfold criteria follows
    rfl
  refine (bind_of_ok terms_name _).trans ((bind_of_ok hcriteria _).trans ?_)
  show limitTo d (limit.map Int.ofNat) (List.mergeSort (rows.filter (fun r =>
    false || ((true && (some (d.collate (name r) (name m)) == some .gt)) || false)))
    (fun r s => orderBy d [⟨fun r => .str (name r), false, none⟩] r s != .gt)) = _
  rw [limitTo_upTo]
  simp only [orderBy_name, Bool.false_or, Bool.true_and, Bool.or_false, Option.some_beq_some]
  rfl

/-- **One database is paged** in the order of the names, which are distinct. -/
theorem reads_pageByName [Std.TransCmp d.collate] [Std.LawfulEqCmp d.collate]
    (hnames : (rows.map name).Nodup) :
    Reads name NovaError.markerNotFound
      (fun limit marker => pageByName d name rows (limit.map Int.ofNat) marker)
      (sortBy d.collate name rows) where
  first := fun limit _ => paginate_first limit
  after := by
    intro limit _ done r rest hrows
    have hperm : (sortBy d.collate name rows).Perm rows := sortBy_perm rows
    have hr : r ∈ rows := by
      rw [← hperm.mem_iff, hrows]
      exact List.mem_append_right _ (List.mem_cons_self ..)
    unfold pageByName
    dsimp only
    rw [find_of_nodup hnames hr]
    refine (paginate_after limit r).trans ?_
    rw [sortBy_above hnames hrows]
  missing := by
    intro limit _ marker hmarker
    have hnone : rows.find? (fun r => name r == marker) = none := by
      refine List.find?_eq_none.mpr (fun r hr heq => hmarker ?_)
      rw [← beq_iff_eq.mp heq]
      exact List.mem_map_of_mem ((sortBy_perm rows).mem_iff.mpr hr)
    unfold pageByName
    dsimp only
    rw [hnone]
    rfl

/-! ## Both databases -/

variable {ctxt : Context} {userId : String}

/-- Only `MarkerNotFound` sends a listing to the main database. -/
def isMarkerNotFound : NovaError → Bool
  | .markerNotFound _ => true
  | _ => false

/-- What a limit leaves. -/
theorem limitMore_of_room {limit more : Option Nat} {rows : List ρ}
    (h : room limit rows = some more) :
    (limit.map Int.ofNat).map (fun n : Int => n - rows.length) = more.map Int.ofNat ∧
      (more.map Int.ofNat).all (fun n => 0 < n) = true := by
  cases limit with
  | none =>
    cases h
    exact ⟨rfl, rfl⟩
  | some n =>
    unfold room at h
    dsimp only at h
    split at h
    next hroom =>
      cases h
      have hsub : (n : Int) - rows.length = ((n - rows.length : Nat) : Int) := by omega
      have hpos : (0 : Int) < ((n - rows.length : Nat) : Int) := by omega
      exact ⟨congrArg some hsub, decide_eq_true hpos⟩
    next => cases h

theorem limitMore_of_full {limit : Option Nat} {rows : List ρ} (h : room limit rows = none) :
    ((limit.map Int.ofNat).map (fun n : Int => n - rows.length)).all (fun n => 0 < n) = false := by
  cases limit with
  | none => cases h
  | some n =>
    unfold room at h
    dsimp only at h
    split at h
    next => cases h
    next hfull =>
      have hneg : ¬ (0 : Int) < (n : Int) - rows.length := by omega
      exact decide_eq_false hneg

/-- A limit that is not zero leaves room where nothing was listed. -/
theorem room_of_ne_zero {limit : Option Nat} (hlimit : limit ≠ some 0) :
    (limit.map Int.ofNat).all (fun n => 0 < n) = true := by
  cases limit with
  | none => rfl
  | some n =>
    have hn : n ≠ 0 := fun h => hlimit (congrArg some h)
    exact decide_eq_true (Int.natCast_pos.mpr (Nat.pos_of_ne_zero hn))

/-- What is listed from the main database is put behind. -/
theorem bind_main {rows : List KeyPair} (x : Except NovaError (List MainKeyPairRow)) :
    (x >>= fun main => Except.ok (rows ++ main.map mainObject)) =
      (x.map (List.map mainObject)).map (rows ++ ·) := by
  cases x <;> rfl

/-- What is listed after a marker that the API database has, or after none. -/
theorem getByUser_of_ok {limit : Option Int} {marker : Option String} {s : Databases}
    {rows : List KeyPairRow} (hapi : getAllFromDb d userId limit marker s = .ok rows) :
    getByUser d ctxt userId limit marker s =
      (if (limit.map (fun n : Int => n - rows.length)).all (fun n => 0 < n) then
        keyPairGetAllByUser d ctxt userId (limit.map (fun n : Int => n - rows.length)) none s
      else .ok []) >>= fun main => .ok (rows.map apiObject ++ main.map mainObject) := by
  unfold getByUser
  rw [hapi]
  dsimp only [passMarker]
  show (if _ then _ else _) = _
  split <;> rfl

/-- A marker that the API database does not have is looked up in the main one. -/
theorem getByUser_of_missing {limit : Option Int} {marker : Option String} {s : Databases}
    {name : String} (hapi : getAllFromDb d userId limit marker s = .error (.markerNotFound name))
    (hroom : limit.all (fun n => 0 < n) = true) :
    getByUser d ctxt userId limit marker s =
      (keyPairGetAllByUser d ctxt userId limit marker s).map (List.map mainObject) := by
  have hmore : limit.map (fun n : Int => n - ([] : List KeyPairRow).length) = limit := by
    cases limit with
    | none => rfl
    | some n => exact congrArg some (Int.sub_zero n)
  unfold getByUser
  rw [hapi]
  dsimp only [passMarker]
  show (if (limit.map (fun n : Int => n - ([] : List KeyPairRow).length)).all _ = true
    then _ else _) = _
  rw [hmore, if_pos hroom]
  cases keyPairGetAllByUser d ctxt userId limit marker s <;> rfl

/-- Any other error ends the listing. -/
theorem getByUser_of_error {limit : Option Int} {marker : Option String} {s : Databases}
    {e : NovaError} (hapi : getAllFromDb d userId limit marker s = .error e)
    (hother : isMarkerNotFound e = false) : getByUser d ctxt userId limit marker s = .error e := by
  unfold getByUser
  rw [hapi]
  cases e with
  | markerNotFound => cases hother
  | _ => rfl

/-- The listing is the two readers, one after the other. -/
theorem getByUser_eq_chain (d : Dialect) (ctxt : Context) (userId : String) (s : Databases)
    {limit : Option Nat} (hlimit : limit ≠ some 0) (marker : Option String) :
    getByUser d ctxt userId (limit.map Int.ofNat) marker s =
      chain isMarkerNotFound
        (fun limit marker =>
          (getAllFromDb d userId (limit.map Int.ofNat) marker s).map (List.map apiObject))
        (fun limit marker =>
          (keyPairGetAllByUser d ctxt userId (limit.map Int.ofNat) marker s).map
            (List.map mainObject)) limit marker := by
  unfold chain
  dsimp only
  cases hapi : getAllFromDb d userId (limit.map Int.ofNat) marker s with
  | ok rows =>
    rw [getByUser_of_ok hapi]
    dsimp only [Except.map]
    rw [room_map]
    cases hroom : room limit rows with
    | none =>
      rw [if_neg (by rw [limitMore_of_full hroom]; decide)]
      show Except.ok _ = Except.ok _
      rw [List.map_nil, List.append_nil]
    | some more =>
      obtain ⟨hmore, hpos⟩ := limitMore_of_room hroom
      rw [hmore, if_pos hpos]
      exact bind_main _
  | error e =>
    dsimp only [Except.map]
    by_cases he : isMarkerNotFound e = true
    · obtain ⟨name, rfl⟩ : ∃ name, e = .markerNotFound name := by
        cases e with
        | markerNotFound name => exact ⟨name, rfl⟩
        | _ => cases he
      rw [if_pos he]
      exact getByUser_of_missing hapi (room_of_ne_zero hlimit)
    · rw [if_neg he]
      exact getByUser_of_error hapi (eq_false_of_ne_true he)

/-! ## The pages -/

/-- The unique constraint, for the names of one user. -/
theorem apiRows_nodup (s : Databases) (userId : String) :
    ((apiRows s userId).map (fun r => r.name)).Nodup := by
  have hkeys : ((apiRows s userId).map KeyPairRow.key).Nodup :=
    s.api.uniq.sublist (List.filter_sublist.map KeyPairRow.key)
  refine List.Nodup.of_map (fun name => (userId, name)) ?_
  rw [List.map_map]
  refine (List.map_congr_left (fun r hr => ?_)) ▸ hkeys
  have huser : r.userId = userId := beq_iff_eq.mp (List.mem_filter.mp hr).2
  rw [← huser]
  rfl

/-- The user's keys of the API database, in the order of their names. -/
def apiKeyPairs (d : Dialect) (s : Databases) (userId : String) : List KeyPair :=
  (sortBy d.collate (fun r => r.name) (apiRows s userId)).map apiObject

/-- The user's live keys of the main database, in the order of their names. -/
def mainKeyPairs (d : Dialect) (s : Databases) (userId : String) : List KeyPair :=
  (sortBy d.collate (fun r => r.name) (mainRows s userId)).map mainObject

theorem apiKeyPairs_perm (d : Dialect) (s : Databases) (userId : String) :
    (apiKeyPairs d s userId).Perm ((apiRows s userId).map apiObject) :=
  (sortBy_perm _).map apiObject

theorem mainKeyPairs_perm (d : Dialect) (s : Databases) (userId : String) :
    (mainKeyPairs d s userId).Perm ((mainRows s userId).map mainObject) :=
  (sortBy_perm _).map mainObject

theorem apiKeyPairs_names (d : Dialect) (s : Databases) (userId : String) :
    ((apiKeyPairs d s userId).map (fun kp => kp.name)).Perm
      ((apiRows s userId).map (fun r => r.name)) := by
  have hperm := (apiKeyPairs_perm d s userId).map (fun kp => kp.name)
  rw [List.map_map] at hperm
  exact hperm

theorem mainKeyPairs_names (d : Dialect) (s : Databases) (userId : String) :
    ((mainKeyPairs d s userId).map (fun kp => kp.name)).Perm
      ((mainRows s userId).map (fun r => r.name)) := by
  have hperm := (mainKeyPairs_perm d s userId).map (fun kp => kp.name)
  rw [List.map_map] at hperm
  exact hperm

section

variable [Std.TransCmp d.collate] [Std.LawfulEqCmp d.collate] {s : Databases}

theorem apiKeyPairs_ascending :
    Ascending d.collate (fun kp => kp.name) (apiKeyPairs d s userId) :=
  List.pairwise_map.mpr (sortBy_ascending (apiRows_nodup s userId))

theorem mainKeyPairs_ascending (hmain : ((mainRows s userId).map (fun r => r.name)).Nodup) :
    Ascending d.collate (fun kp => kp.name) (mainKeyPairs d s userId) :=
  List.pairwise_map.mpr (sortBy_ascending hmain)

/-- The API database is read in the order of the names. -/
theorem reads_api :
    Reads (fun kp => kp.name) NovaError.markerNotFound
      (fun limit marker =>
        (getAllFromDb d userId (limit.map Int.ofNat) marker s).map (List.map apiObject))
      (apiKeyPairs d s userId) :=
  (reads_pageByName (apiRows_nodup s userId)).map (fun _ => rfl)

/-- So is the main one, by the contexts that may. -/
theorem reads_main (hctxt : requireContext ctxt = .ok ())
    (hmain : ((mainRows s userId).map (fun r => r.name)).Nodup) :
    Reads (fun kp => kp.name) NovaError.markerNotFound
      (fun limit marker =>
        (keyPairGetAllByUser d ctxt userId (limit.map Int.ofNat) marker s).map
          (List.map mainObject))
      (mainKeyPairs d s userId) := by
  have hlive : modelQuery ctxt (some "no") = .ok (fun deleted => deleted == 0) := rfl
  refine ((reads_pageByName hmain).congr (fun limit _ marker => ?_)).map (fun _ => rfl)
  exact (bind_of_ok hctxt _).trans (bind_of_ok hlive _)

/-- **Both databases are read as one list.** -/
theorem reads_getByUser (hctxt : requireContext ctxt = .ok ())
    (hmain : ((mainRows s userId).map (fun r => r.name)).Nodup)
    (hcommon : ∀ r ∈ apiRows s userId, ∀ r' ∈ mainRows s userId, r.name ≠ r'.name) :
    Reads (fun kp => kp.name) NovaError.markerNotFound
      (fun limit marker => getByUser d ctxt userId (limit.map Int.ofNat) marker s)
      (apiKeyPairs d s userId ++ mainKeyPairs d s userId) := by
  have hmissing : ∀ marker, isMarkerNotFound (.markerNotFound marker) = true := fun _ => rfl
  refine (Reads.chain reads_api (reads_main hctxt hmain) hmissing ?_).congr
    (fun limit hlimit marker => getByUser_eq_chain d ctxt userId s hlimit marker)
  intro name hname hname'
  obtain ⟨r, hr, rfl⟩ := List.mem_map.mp ((apiKeyPairs_names d s userId).mem_iff.mp hname)
  obtain ⟨r', hr', heq⟩ := List.mem_map.mp ((mainKeyPairs_names d s userId).mem_iff.mp hname')
  exact hcommon r hr r' hr' heq.symm

end

/-- The pages of a size, where the last name of one is the marker of the next. -/
def keyPairPages (d : Dialect) (ctxt : Context) (userId : String) (limit : Nat) (s : Databases)
    (fuel : Nat) : Option (Except NovaError (List (List KeyPair))) :=
  collectPages (fun kp => kp.name)
    (fun marker => getByUser d ctxt userId (some (limit : Int)) marker s) fuel none

/-- **Paging over two databases loses nothing.** If the user's names in the API database and those
of the live keys in the main one are distinct, the pages of a size of at least 1 cut one list into
full pages but for the last: all keys of the API database, then all of the main one, both in the
order of their names. One call without a limit returns that list, and a marker that neither
database has is refused. -/
theorem keyPairPages_exact (d : Dialect) [Std.TransCmp d.collate] [Std.LawfulEqCmp d.collate]
    (ctxt : Context) (hctxt : requireContext ctxt = .ok ()) (s : Databases) (userId : String)
    (hmain : ((mainRows s userId).map (fun r => r.name)).Nodup)
    (hcommon : ∀ r ∈ apiRows s userId, ∀ r' ∈ mainRows s userId, r.name ≠ r'.name) :
    ∃ api main : List KeyPair,
      api.Perm ((apiRows s userId).map apiObject) ∧
      Ascending d.collate (fun kp => kp.name) api ∧
      main.Perm ((mainRows s userId).map mainObject) ∧
      Ascending d.collate (fun kp => kp.name) main ∧
      (∀ limit, 1 ≤ limit → ∀ fuel, api.length + main.length < fuel →
        ∃ pages, keyPairPages d ctxt userId limit s fuel = some (.ok pages) ∧
          Cut limit pages (api ++ main)) ∧
      getByUser d ctxt userId none none s = .ok (api ++ main) ∧
      ∀ (limit : Option Nat) marker, limit ≠ some 0 →
        marker ∉ (apiRows s userId).map (fun r => r.name) →
        marker ∉ (mainRows s userId).map (fun r => r.name) →
        getByUser d ctxt userId (limit.map Int.ofNat) (some marker) s =
          .error (.markerNotFound marker) := by
  have hreads := reads_getByUser (d := d) hctxt hmain hcommon
  refine ⟨apiKeyPairs d s userId, mainKeyPairs d s userId, apiKeyPairs_perm d s userId,
    apiKeyPairs_ascending, mainKeyPairs_perm d s userId, mainKeyPairs_ascending hmain, ?_, ?_, ?_⟩
  · intro limit hlimit fuel hfuel
    refine collectPages_cut (hreads.pages hlimit) hlimit ?_
    rw [List.length_append]
    exact hfuel
  · exact hreads.first none (fun h => nomatch h)
  · intro limit marker hlimit hapi hmainless
    refine hreads.missing limit hlimit marker ?_
    rw [List.map_append, List.mem_append, (apiKeyPairs_names d s userId).mem_iff,
      (mainKeyPairs_names d s userId).mem_iff]
    exact not_or.mpr ⟨hapi, hmainless⟩

/-- One key in the API database, and two in the main one besides one that is deleted. -/
def pagedDatabases : Databases where
  api := ⟨⟨[⟨1, "alice", "desk", none, none, "ssh", some 10, none⟩], 2, by decide, by decide⟩,
    by decide⟩
  main := [⟨⟨4, "alice", "desk", none, none, "ssh", some 10, none⟩, 4, some 20, by decide⟩,
    ⟨⟨5, "alice", "cellar", none, none, "ssh", some 12, none⟩, 0, none, by decide⟩,
    ⟨⟨6, "alice", "attic", none, none, "ssh", some 13, none⟩, 0, none, by decide⟩]
  unmigratedInstances := 0

/-- The first page of two takes a key from each database. -/
theorem keyPairPages_of_two :
    (∃ pages, keyPairPages ⟨compare, true, true⟩ adminContext "alice" 2 pagedDatabases 4 =
        some (.ok pages) ∧ pages.flatten.length = 3 ∧
        ∀ page ∈ pages.dropLast, page.length = 2) ∧
      getByUser ⟨compare, true, true⟩ adminContext "alice" (some 2) (some "loft")
        pagedDatabases = .error (.markerNotFound "loft") := by
  obtain ⟨api, main, hapi, -, hmain, -, hpages, -, hmissing⟩ :=
    keyPairPages_exact ⟨compare, true, true⟩ adminContext rfl pagedDatabases "alice"
      (by decide) (by decide)
  have hlength : api.length + main.length = 3 := by
    rw [hapi.length_eq, hmain.length_eq]
    rfl
  obtain ⟨pages, hfetch, hcut⟩ := hpages 2 (by decide) 4 (by omega)
  refine ⟨⟨pages, hfetch, ?_, hcut.full⟩,
    hmissing (some 2) "loft" (by decide) (by decide) (by decide)⟩
  rw [hcut.flatten, List.length_append]
  exact hlength

/-! ## Counting -/

/-- `_get_count_from_db`. -/
def getCountFromDb (userId : String) (s : Databases) : Nat := (apiRows s userId).length

/-- `key_pair_count_by_user`. -/
def keyPairCountByUser (ctxt : Context) (userId : String) (s : Databases) :
    Except NovaError Nat := do
  requireContext ctxt
  let shown ← modelQuery ctxt (some "no")
  .ok (s.main.filter (fun r => shown r.deleted && r.userId == userId)).length

/-- `KeyPairList.get_count_by_user`. -/
def getCountByUser (ctxt : Context) (userId : String) (s : Databases) : Except NovaError Nat := do
  let main ← keyPairCountByUser ctxt userId s
  .ok (getCountFromDb userId s + main)

/-- A listing without limit and marker gives both databases, whatever they have in common. -/
theorem getByUser_all (d : Dialect) (hctxt : requireContext ctxt = .ok ()) (s : Databases) :
    getByUser d ctxt userId none none s =
      .ok (apiKeyPairs d s userId ++ mainKeyPairs d s userId) := by
  have hlive : modelQuery ctxt (some "no") = .ok (fun deleted => deleted == 0) := rfl
  have hapi : getAllFromDb d userId none none s =
      .ok (sortBy d.collate (fun r => r.name) (apiRows s userId)) := paginate_first none
  have hmain : keyPairGetAllByUser d ctxt userId none none s =
      .ok (sortBy d.collate (fun r => r.name) (mainRows s userId)) :=
    (bind_of_ok hctxt _).trans ((bind_of_ok hlive _).trans (paginate_first none))
  rw [getByUser_of_ok hapi]
  show (keyPairGetAllByUser d ctxt userId none none s >>= _) = _
  rw [hmain]
  rfl

/-- The names of both databases are those of the visible keys. -/
theorem mem_names_iff (s : Databases) (userId name : String) :
    (name ∈ (apiRows s userId).map (fun r => r.name) ∨
      name ∈ (mainRows s userId).map (fun r => r.name)) ↔ (s.visible userId name).isSome := by
  have hapi : name ∈ (apiRows s userId).map (fun r => r.name) ↔
      (s.api.find userId name).isSome := by
    unfold ApiKeyPairs.find apiRows
    rw [List.find?_isSome, List.mem_map]
    constructor
    · rintro ⟨r, hr, rfl⟩
      obtain ⟨hmem, huser⟩ := List.mem_filter.mp hr
      exact ⟨r, hmem, beq_iff_eq.mpr (Prod.ext (beq_iff_eq.mp huser) rfl)⟩
    · rintro ⟨r, hr, hkey⟩
      obtain ⟨huser, hname⟩ := Prod.mk.inj (beq_iff_eq.mp hkey)
      exact ⟨r, List.mem_filter.mpr ⟨hr, beq_iff_eq.mpr huser⟩, hname⟩
  have hmain : name ∈ (mainRows s userId).map (fun r => r.name) ↔
      (s.liveRows.find? (fun r => r.key == (userId, name))).isSome := by
    unfold mainRows Databases.liveRows
    rw [List.find?_isSome, List.mem_map]
    constructor
    · rintro ⟨r, hr, rfl⟩
      obtain ⟨hmem, hboth⟩ := List.mem_filter.mp hr
      obtain ⟨hlive, huser⟩ := Bool.and_eq_true_iff.mp hboth
      exact ⟨r, List.mem_filter.mpr ⟨hmem, hlive⟩,
        beq_iff_eq.mpr (Prod.ext (beq_iff_eq.mp huser) rfl)⟩
    · rintro ⟨r, hr, hkey⟩
      obtain ⟨hmem, hlive⟩ := List.mem_filter.mp hr
      obtain ⟨huser, hname⟩ := Prod.mk.inj (beq_iff_eq.mp hkey)
      exact ⟨r, List.mem_filter.mpr ⟨hmem,
        Bool.and_eq_true_iff.mpr ⟨hlive, beq_iff_eq.mpr huser⟩⟩, hname⟩
  unfold Databases.visible
  rw [hapi, hmain, Option.isSome_or, Option.isSome_map, Option.isSome_map, Bool.or_eq_true]

/-- A name is found exactly if a key under it is visible. -/
theorem visible_iff {reader : Context} (hreader : requireContext reader = .ok ())
    (hhide : reader.readDeleted = "no") {now : Nat} {s : Databases} {userId name : String} :
    (s.visible userId name).isSome ↔
      ∃ kp, ((getByName reader userId name false).eval now s).1 = .ok kp := by
  rw [← found_content hreader hhide now s, Option.isSome_map]
  unfold found
  cases ((getByName reader userId name false).eval now s).1 with
  | ok kp => exact iff_of_true rfl ⟨kp, rfl⟩
  | error e => exact iff_of_false Bool.false_ne_true (fun ⟨_, h⟩ => by cases h)

/-- **The count is that of the listing.** For every user whose live names in the main database are
distinct, the keys that a listing without limit gives have the names that `get_by_name` finds for
whoever may ask and is not shown what is deleted, and are as many as `get_count_by_user` says. No
name is listed and counted twice exactly if no key of the user is in both databases. -/
theorem count_listed (d : Dialect) (hctxt : requireContext ctxt = .ok ()) (s : Databases)
    (userId : String) (hmain : ((mainRows s userId).map (fun r => r.name)).Nodup) :
    ∃ kps, getByUser d ctxt userId none none s = .ok kps ∧
      getCountByUser ctxt userId s = .ok kps.length ∧
      (∀ reader, requireContext reader = .ok () → reader.readDeleted = "no" → ∀ now name,
        name ∈ kps.map (fun kp => kp.name) ↔
          ∃ kp, ((getByName reader userId name false).eval now s).1 = .ok kp) ∧
      ((kps.map (fun kp => kp.name)).Nodup ↔
        ∀ r ∈ apiRows s userId, ∀ r' ∈ mainRows s userId, r.name ≠ r'.name) := by
  have hapiNames := apiKeyPairs_names d s userId
  have hmainNames := mainKeyPairs_names d s userId
  refine ⟨_, getByUser_all d hctxt s, ?_, fun reader hreader hhide now name => ?_, ?_⟩
  · unfold getCountByUser keyPairCountByUser getCountFromDb
    rw [hctxt, List.length_append, (apiKeyPairs_perm d s userId).length_eq,
      (mainKeyPairs_perm d s userId).length_eq, List.length_map, List.length_map]
    rfl
  · rw [List.map_append, List.mem_append, hapiNames.mem_iff, hmainNames.mem_iff,
      mem_names_iff, visible_iff hreader hhide]
  · rw [List.map_append, List.nodup_append, hapiNames.nodup_iff, hmainNames.nodup_iff]
    refine ⟨fun h r hr r' hr' => ?_, fun h => ⟨apiRows_nodup s userId, hmain, ?_⟩⟩
    · exact h.2.2 _ (hapiNames.mem_iff.mpr (List.mem_map_of_mem hr)) _
        (hmainNames.mem_iff.mpr (List.mem_map_of_mem hr'))
    · intro a ha b hb
      obtain ⟨r, hr, rfl⟩ := List.mem_map.mp (hapiNames.mem_iff.mp ha)
      obtain ⟨r', hr', rfl⟩ := List.mem_map.mp (hmainNames.mem_iff.mp hb)
      exact h r hr r' hr'

/-- Three keys, one of them in the API database and one found by its name in the main one. -/
theorem count_listed_of_three : ∃ kps,
    getByUser ⟨compare, true, true⟩ adminContext "alice" none none pagedDatabases = .ok kps ∧
      getCountByUser adminContext "alice" pagedDatabases = .ok 3 ∧
      "attic" ∈ kps.map (fun kp => kp.name) ∧ (kps.map (fun kp => kp.name)).Nodup := by
  have hctxt : requireContext adminContext = .ok () := rfl
  obtain ⟨kps, hlist, hcount, hnames, hnodup⟩ :=
    count_listed ⟨compare, true, true⟩ hctxt pagedDatabases "alice" (by decide)
  exact ⟨kps, hlist, by decide, (hnames adminContext rfl rfl 30 "attic").mpr ⟨_, rfl⟩,
    hnodup.mpr (by decide)⟩

end PolarBear.KeyPairs
