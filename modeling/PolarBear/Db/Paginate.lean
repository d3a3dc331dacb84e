import Mathlib.Data.List.Sort
import Mathlib.Algebra.Order.Ring.Unbundled.Rat
import PolarBear.Db.Query

/-!
# `paginate_query`

Sorting and paging of a query. A page is what follows a marker row in the order
of the sort keys: the criteria compare the columns of a row with those of the
marker, lexicographically, and skip a column where the marker has a null.

What a database leaves open is a parameter, `Dialect`: how it orders strings,
where it sorts nulls, and whether a negative limit is an error or no limit. The
errors are raised while the query is built, in the order of the sort keys; a key
that names a relationship of the model and no column is not rejected by the
lookup, but cannot be compared with null.
-/

namespace PolarBear.Db

/-- A value of a column; times are seconds. -/
inductive SqlValue where
  | null
  | int (n : Int)
  | float (q : Rat)
  | str (s : String)
  | bool (b : Bool)
  | time (t : Nat)
  deriving DecidableEq, Repr

def SqlValue.ofInt? (n : Option Int) : SqlValue := (n.map SqlValue.int).getD .null

def SqlValue.ofFloat? (q : Option Rat) : SqlValue := (q.map SqlValue.float).getD .null

def SqlValue.ofBool? (b : Option Bool) : SqlValue := (b.map SqlValue.bool).getD .null

def SqlValue.ofTime? (t : Option Nat) : SqlValue := (t.map SqlValue.time).getD .null

/-- What differs from one database to another. -/
structure Dialect where
  collate : String → String → Ordering
  nullsLow : Bool
  negativeLimitIsNone : Bool

/-- `<`, `=` or `>`; nothing where a null is compared. -/
def Dialect.compare (d : Dialect) : SqlValue → SqlValue → Option Ordering
  | .int m, .int n => some (Ord.compare m n)
  | .float p, .float q => some (compareOfLessAndEq p q)
  | .str s, .str t => some (d.collate s t)
  | .bool b, .bool c => some (Ord.compare b c)
  | .time t, .time u => some (Ord.compare t u)
  | _, _ => none

/-- The order of `ORDER BY`, ascending. -/
def Dialect.order (d : Dialect) (v w : SqlValue) : Ordering :=
  match v, w with
  | .null, .null => .eq
  | .null, _ => if d.nullsLow then .lt else .gt
  | _, .null => if d.nullsLow then .gt else .lt
  | v, w => (d.compare v w).getD .eq

/-- What the query needs to know about a model. -/
structure Model (ρ : Type) where
  column : String → Option (ρ → SqlValue)
  relationships : List String

/-! ## Directions -/

/-- `_VALID_SORT_DIR`. -/
def validSortDir : List String :=
  ["asc-nullsfirst", "asc-nullslast", "desc-nullsfirst", "desc-nullslast"]

def unknownSortDirection : NovaError :=
  .valueError ("Unknown sort direction, must be one of: " ++ String.intercalate ", " validSortDir)

/-- `partition("-")`, without the separator. -/
def partitionDash (s : String) : String × String :=
  match s.splitOn "-" with
  | [] => (s, "")
  | main :: rest => (main, String.intercalate "-" rest)

/-- A term of `ORDER BY`, with the nulls put first or last if it says so. -/
structure SortTerm (ρ : Type) where
  column : ρ → SqlValue
  descending : Bool
  nullsFirst : Option Bool

/-- One round of the loop over the sort keys. -/
def sortTerm {ρ : Type} (model : Model ρ) (key dir : String) : Except NovaError (SortTerm ρ) := do
  let attr ← match model.column key with
    | some col => .ok (some col)
    | none =>
      if model.relationships.contains key then .ok none else .error (.invalidSortKey key)
  let (mainSortDir, nullSortDir) := partitionDash dir
  let descending ←
    if mainSortDir = "asc" then .ok false
    else if mainSortDir = "desc" then .ok true
    else .error unknownSortDirection
  match attr with
  | none =>
    -- `is_(None)` is not defined for a relationship
    .error .notImplementedError
  | some column =>
    if nullSortDir = "" then .ok ⟨column, descending, none⟩
    else if nullSortDir = "nullsfirst" then .ok ⟨column, descending, some true⟩
    else if nullSortDir = "nullslast" then .ok ⟨column, descending, some false⟩
    else .error unknownSortDirection

/-! ## Order and criteria -/

variable {ρ : Type}

/-- How a term orders two rows. -/
def SortTerm.order (d : Dialect) (term : SortTerm ρ) (r s : ρ) : Ordering :=
  let v := term.column r
  let w := term.column s
  let byNull : Ordering := match term.nullsFirst with
    | none => .eq
    | some true => Ord.compare (v != .null) (w != .null)
    | some false => Ord.compare (v == .null) (w == .null)
  let byValue := if term.descending then (d.order v w).swap else d.order v w
  byNull.then byValue

def orderBy (d : Dialect) (terms : List (SortTerm ρ)) (r s : ρ) : Ordering :=
  terms.foldr (fun term rest => (term.order d r s).then rest) .eq

/-- `model_attr == v`. -/
def equals (d : Dialect) (column : ρ → SqlValue) (v : SqlValue) (r : ρ) : Bool :=
  match v with
  | .null => column r == .null
  | v => d.compare (column r) v == some .eq

/-- `model_attr < v` or `model_attr > v`; the comparison with a truth value is
refused while the query is built. -/
def follows (d : Dialect) (dir : String) (column : ρ → SqlValue) (v : SqlValue) :
    Except NovaError (ρ → Bool) :=
  match v with
  | .bool _ => .error .argumentError
  | v =>
    let wanted : Ordering := if dir.startsWith "desc" then .lt else .gt
    .ok (fun r => d.compare (column r) v == some wanted)

/-- The criteria of a marker, one for each of its columns that is not null; the columns
before have the marker's values. -/
def criteria (d : Dialect) (dir : String) (marker : ρ) :
    List (SortTerm ρ) → (ρ → Bool) → Except NovaError (List (ρ → Bool))
  | [], _ => .ok []
  | term :: terms, before => do
    let v := term.column marker
    let here ←
      if v = .null then .ok []
      else do
        let follow ← follows d dir term.column v
        .ok [fun r => before r && follow r]
    let rest ← criteria d dir marker terms (fun r => before r && equals d term.column v r)
    .ok (here ++ rest)

/-- `LIMIT`. -/
def limitTo (d : Dialect) (limit : Option Int) (rows : List ρ) : Except NovaError (List ρ) :=
  match limit with
  | none => .ok rows
  | some n =>
    if 0 ≤ n then .ok (rows.take n.toNat)
    else if d.negativeLimitIsNone then .ok rows
    else .error .dbError

/-- `paginate_query` with one direction for all keys, and the rows of the query. -/
def paginateQuery (d : Dialect) (model : Model ρ) (rows : List ρ) (limit : Option Int)
    (sortKeys : List String) (marker : Option ρ) (sortDir : Option String) :
    Except NovaError (List ρ) := do
  let dir := sortDir.getD "asc"
  let terms ← sortKeys.mapM (fun key => sortTerm model key dir)
  let page ← match marker with
    | none => .ok rows
    | some m => do
      let criteriaList ← criteria d dir m terms (fun _ => true)
      .ok (rows.filter (fun r => criteriaList.isEmpty || criteriaList.any (fun c => c r)))
  limitTo d limit (page.mergeSort (fun r s => orderBy d terms r s != .gt))

end PolarBear.Db
