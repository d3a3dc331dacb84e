import Mathlib.Order.Lattice
import PolarBear.Lib.Fallible
import PolarBear.Py.Builtins

/-!
# Pagination of a collection

Three helpers read the page size of a listing request, each on its own: `limited`
cuts a list, `get_limit_and_marker` feeds a query, and `_get_collection_links`
decides whether the page has a next one. The docstrings promise that a limit that
is absent, 0 or above the maximum stands for the maximum; only `limited` looks at
the 0.

`effectiveLimit` is that promise. The helpers keep it exactly when the limit is
not 0 and a form of the request says nothing else (`samePageSize_iff`).

What `webob` gives is a `ListRequest`: the variables of the query and of the form, in
which the last entry of a name counts, and `params`, which reads the query first.
`urlencode` and the prefixing of links are parameters.
-/

namespace PolarBear.Api

open PolarBear.Py
open PolarBear.Fallible

/-- The parts of a `wsgi.Request` that are read. -/
structure ListRequest where
  GET : List (String × String)
  POST : List (String × String)
  url : String
  applicationUrl : String
  projectId : String

/-- `d.get(name)` of a `MultiDict`: the last entry of the name. -/
def getParameter (name : String) (d : List (String × String)) : Option String :=
  d.reverse.lookup name

/-- `request.params.get(name)`. -/
def ListRequest.param (request : ListRequest) (name : String) : Option String :=
  match getParameter name request.GET with
  | some text => some text
  | none => getParameter name request.POST

/-! ## Reading the request -/

/-- `int(str(value))`. A byte string may not stand between the separators that a
unicode text may. -/
def intOfStr (value : String) : Option Int :=
  if isAscii value && value.toList.all (fun c => c.toNat < 0x1C || 0x1F < c.toNat) then
    pyInt value
  else none

/-- `InvalidInput`, which `_get_int_param` translates. -/
def invalidInput (reason : String) : PyError :=
  .of .httpBadRequest ("Invalid input received: " ++ reason)

/-- `_get_int_param`: `validate_integer` with `min_value=0`. -/
def getIntParam (param value : String) : Except PyError Nat :=
  match intOfStr value with
  | none => .error (invalidInput (param ++ " must be an integer"))
  | some n =>
    if n < 0 then .error (invalidInput (param ++ " must be >= 0"))
    else .ok n.toNat

/-- `if param in request.GET: params[param] = _get_int_param(request, param)`. -/
def optionalIntParam (request : ListRequest) (param : String) : Except PyError (Option Nat) :=
  match getParameter param request.GET with
  | some value => (getIntParam param value).map some
  | none => .ok none

/-- What `get_pagination_params` collects. -/
structure PaginationParams where
  limit : Option Nat
  pageSize : Option Nat
  marker : Option String
  offset : Option Nat
  deriving DecidableEq, Repr

/-- `get_pagination_params`. -/
def getPaginationParams (request : ListRequest) : Except PyError PaginationParams := do
  let limit ← optionalIntParam request "limit"
  let pageSize ← optionalIntParam request "page_size"
  let marker := getParameter "marker" request.GET
  let offset ← optionalIntParam request "offset"
  .ok { limit, pageSize, marker, offset }

/-! ## The three helpers -/

section

variable {α : Type} (maxLimit : Nat)

/-- `items[offset:(offset + limit)]`. -/
def slice (offset limit : Nat) (items : List α) : List α := (items.drop offset).take limit

/-- `params.get('limit') or limit`. -/
def limitOr (limit : Option Nat) : Nat :=
  match limit with
  | some n => if n = 0 then maxLimit else n
  | none => maxLimit

/-- `limited`. -/
def limited (items : List α) (request : ListRequest) : Except PyError (List α) := do
  let params ← getPaginationParams request
  let offset := params.offset.getD 0
  let limit := min maxLimit (limitOr maxLimit params.limit)
  .ok (slice offset limit items)

/-- `get_limit_and_marker`. -/
def getLimitAndMarker (request : ListRequest) : Except PyError (Nat × Option String) := do
  let params ← getPaginationParams request
  .ok (min maxLimit (params.limit.getD maxLimit), params.marker)

/-- `max_items` of `_get_collection_links`. -/
def maxItems (request : ListRequest) : Except PyError Int :=
  match request.param "limit" with
  | some text =>
    match pyInt text with
    | some n => .ok (min n maxLimit)
    | none => .error (.of .valueError ("invalid literal for int() with base 10: " ++ text))
  | none => .ok (min (maxLimit : Int) maxLimit)

end

/-- The keys under which the identifier of an item is looked for. -/
def identifierKeys (idKey : String) : List String := [idKey, "id", "flavorid"]

/-- An item of a view: a dictionary that has an identifier. -/
structure Item (idKey : String) where
  fields : List (String × String)
  identified : ((identifierKeys idKey).filterMap (fun k => fields.lookup k)) ≠ []

/-- `last_item_id`: the first of the keys that the item has. -/
def Item.identifier {idKey : String} (item : Item idKey) : String :=
  ((identifierKeys idKey).filterMap (fun k => item.fields.lookup k)).head item.identified

structure Link where
  rel : String
  href : String
  deriving DecidableEq, Repr

/-- What builds the text of a link. -/
structure LinkTexts where
  updateComputeLinkPrefix : String → String
  urlencode : List (String × String) → String

/-- `part.strip("/")`. -/
def stripSlashes (part : String) : String :=
  String.ofList ((part.toList.dropWhile (· == '/')).reverse.dropWhile (· == '/')).reverse

/-- `url_join`; an empty last part gives a trailing slash. -/
def urlJoin (parts : List String) : String :=
  let cleanParts := (parts.filter (fun part => part != "")).map stripSlashes
  let trailing := if parts.getLast?.getD "" == "" then [""] else []
  "/".intercalate (cleanParts ++ trailing)

/-- `_get_project_id`. -/
def getProjectId (request : ListRequest) : String :=
  if isInText request.projectId request.url then request.projectId else ""

/-- `_get_next_link`: the parameters of the request, with the marker replaced. -/
def getNextLink (texts : LinkTexts) (request : ListRequest) (identifier collectionName : String) :
    String :=
  let params := (request.GET ++ request.POST).filter (fun kv => kv.1 != "marker")
  let url := urlJoin [texts.updateComputeLinkPrefix request.applicationUrl, getProjectId request,
    collectionName]
  url ++ "?" ++ texts.urlencode (params ++ [("marker", identifier)])

/-- `_get_collection_links`. -/
def getCollectionLinks {idKey : String} (texts : LinkTexts) (maxLimit : Nat) (request : ListRequest)
    (items : List (Item idKey)) (collectionName : String) : Except PyError (List Link) := do
  let maxItems ← maxItems maxLimit request
  if maxItems ≠ 0 ∧ maxItems = items.length then
    match items.getLast? with
    | some lastItem =>
      .ok [⟨"next", getNextLink texts request lastItem.identifier collectionName⟩]
    | none => .error (.of .indexError "list index out of range")
  else .ok []

/-! ## The page size that is promised -/

/-- "If 'limit' is not specified, 0, or > max_limit, we default to max_limit." -/
def effectiveLimit (maxLimit : Nat) (limit : Option Nat) : Nat :=
  match limit with
  | none => maxLimit
  | some 0 => maxLimit
  | some (n + 1) => min (n + 1) maxLimit

/-- The helpers use the promised page size on the list `items`, and a page has a
next link exactly when it is full. -/
structure SamePageSize {α : Type} {idKey : String} (texts : LinkTexts) (maxLimit : Nat)
    (request : ListRequest) (params : PaginationParams) (items : List α) (page : List (Item idKey))
    (collectionName : String) : Prop where
  limited : limited maxLimit items request =
    .ok (slice (params.offset.getD 0) (effectiveLimit maxLimit params.limit) items)
  getLimitAndMarker : getLimitAndMarker maxLimit request =
    .ok (effectiveLimit maxLimit params.limit, params.marker)
  maxItems : maxItems maxLimit request = .ok (effectiveLimit maxLimit params.limit : Int)
  next : ∃ links, getCollectionLinks texts maxLimit request page collectionName = .ok links ∧
    (links ≠ [] ↔ page.length = effectiveLimit maxLimit params.limit)

/-- A form that has a limit where the query has none asks for the maximum. -/
def FormAgrees (maxLimit : Nat) (request : ListRequest) : Prop :=
  getParameter "limit" request.GET = none → ∀ text, getParameter "limit" request.POST = some text →
    ∃ n, pyInt text = some n ∧ (maxLimit : Int) ≤ n

section

variable {maxLimit : Nat} {request : ListRequest} {params : PaginationParams}

theorem effectiveLimit_pos (hmax : 1 ≤ maxLimit) (limit : Option Nat) :
    1 ≤ effectiveLimit maxLimit limit := by
  unfold effectiveLimit
  split <;> omega

/-- `or` is what makes `limited` keep the promise. -/
theorem min_limitOr (limit : Option Nat) :
    min maxLimit (limitOr maxLimit limit) = effectiveLimit maxLimit limit := by
  cases limit with
  | none => simp [limitOr, effectiveLimit]
  | some n =>
    cases n with
    | zero => simp [limitOr, effectiveLimit]
    | succ n => simp [limitOr, effectiveLimit, Nat.min_comm]

/-- Without the `or` a 0 stays one. -/
theorem min_getD_iff (hmax : 1 ≤ maxLimit) (limit : Option Nat) :
    min maxLimit (limit.getD maxLimit) = effectiveLimit maxLimit limit ↔ limit ≠ some 0 := by
  cases limit with
  | none => simp [effectiveLimit]
  | some n =>
    cases n with
    | zero => simp [effectiveLimit]; omega
    | succ n => simp [effectiveLimit, Nat.min_comm]

/-! ## What the request is read as -/

theorem getPaginationParams_ok (h : getPaginationParams request = .ok params) :
    optionalIntParam request "limit" = .ok params.limit ∧
      params.marker = getParameter "marker" request.GET := by
  obtain ⟨limit, hlimit, h⟩ := bind_ok_iff.mp h
  obtain ⟨pageSize, -, h⟩ := bind_ok_iff.mp h
  obtain ⟨offset, -, h⟩ := bind_ok_iff.mp h
  cases h
  exact ⟨hlimit, rfl⟩

theorem getIntParam_ok {param value : String} {n : Nat} (h : getIntParam param value = .ok n) :
    pyInt value = some (n : Int) := by
  unfold getIntParam intOfStr at h
  split at h
  · cases h
  · next m hm =>
    split at h
    · cases h
    · next hneg =>
      cases h
      split at hm
      · rw [hm, Int.toNat_of_nonneg (by omega)]
      · cases hm

/-- A limit that is accepted is the one `_get_collection_links` reads. -/
theorem optionalIntParam_ok {limit : Option Nat}
    (h : optionalIntParam request "limit" = .ok limit) :
    (getParameter "limit" request.GET = none ∧ limit = none) ∨
      ∃ text n, getParameter "limit" request.GET = some text ∧ limit = some n ∧
        pyInt text = some (n : Int) := by
  unfold optionalIntParam at h
  cases htext : getParameter "limit" request.GET with
  | none =>
    rw [htext] at h
    cases h
    exact .inl ⟨rfl, rfl⟩
  | some text =>
    rw [htext] at h
    cases hn : getIntParam "limit" text with
    | error e => simp [hn, Except.map] at h
    | ok n =>
      simp only [hn, Except.map, Except.ok.injEq] at h
      exact .inr ⟨text, n, rfl, h.symm, getIntParam_ok hn⟩

/-! ## The helpers against the promise -/

theorem limited_eq {α : Type} (h : getPaginationParams request = .ok params) (items : List α) :
    limited maxLimit items request =
      .ok (slice (params.offset.getD 0) (effectiveLimit maxLimit params.limit) items) := by
  unfold limited
  rw [h, ← min_limitOr]
  rfl

theorem getLimitAndMarker_eq (h : getPaginationParams request = .ok params) :
    getLimitAndMarker maxLimit request =
      .ok (min maxLimit (params.limit.getD maxLimit), params.marker) := by
  unfold getLimitAndMarker
  rw [h]
  rfl

/-- The text of the form's limit, where it is the one that is read. -/
theorem formAgrees_iff {text : String} (hGET : getParameter "limit" request.GET = none)
    (hPOST : getParameter "limit" request.POST = some text) :
    FormAgrees maxLimit request ↔ ∃ n, pyInt text = some n ∧ (maxLimit : Int) ≤ n := by
  constructor
  · intro h
    exact h hGET text hPOST
  · intro h hnone other hother
    rw [hPOST, Option.some.injEq] at hother
    rw [← hother]
    exact h

theorem maxItems_iff (hmax : 1 ≤ maxLimit) (h : getPaginationParams request = .ok params) :
    maxItems maxLimit request = .ok (effectiveLimit maxLimit params.limit : Int) ↔
      params.limit ≠ some 0 ∧ FormAgrees maxLimit request := by
  obtain ⟨hGET, hlimit⟩ | ⟨text, n, hGET, hlimit, hint⟩ :=
    optionalIntParam_ok (getPaginationParams_ok h).1
  · unfold maxItems ListRequest.param
    rw [hGET, hlimit]
    cases hPOST : getParameter "limit" request.POST with
    | none =>
      have hagrees : FormAgrees maxLimit request := by
        intro _ text htext
        rw [hPOST] at htext
        cases htext
      simp [effectiveLimit, hagrees]
    | some text =>
      rw [formAgrees_iff hGET hPOST]
      cases hint : pyInt text with
      | none => simp [hint]
      | some n => simp [hint, effectiveLimit]
  · have hagrees : FormAgrees maxLimit request := by
      intro hnone
      rw [hGET] at hnone
      cases hnone
    unfold maxItems ListRequest.param
    simp only [hGET, hlimit, hint, hagrees, and_true, Except.ok.injEq, ne_eq, Option.some.injEq]
    cases n with
    | zero =>
      have hzero : effectiveLimit maxLimit (some 0) = maxLimit := rfl
      rw [hzero]
      omega
    | succ n =>
      have hsucc : effectiveLimit maxLimit (some (n + 1)) = min (n + 1) maxLimit := rfl
      rw [hsucc]
      omega

/-- Where the page size is right, full pages are the ones with a next link. -/
theorem getCollectionLinks_next {idKey : String} (texts : LinkTexts) {limit : Nat}
    (hlimit : 1 ≤ limit) (h : maxItems maxLimit request = .ok (limit : Int))
    (page : List (Item idKey)) (collectionName : String) :
    ∃ links, getCollectionLinks texts maxLimit request page collectionName = .ok links ∧
      (links ≠ [] ↔ page.length = limit) := by
  unfold getCollectionLinks
  rw [h]
  simp only [bind, Except.bind]
  by_cases hfull : page.length = limit
  · rw [if_pos (by omega)]
    cases hlast : page.getLast? with
    | none =>
      rw [List.getLast?_eq_none_iff] at hlast
      subst hlast
      rw [List.length_nil] at hfull
      omega
    | some last => exact ⟨_, rfl, by simp [hfull]⟩
  · rw [if_neg (by omega)]
    exact ⟨[], rfl, by simp [hfull]⟩

/-- **The helpers use one page size** exactly for a limit that is not 0, where a
form of the request does not say something else. -/
theorem samePageSize_iff {α : Type} {idKey : String} (texts : LinkTexts) (hmax : 1 ≤ maxLimit)
    (h : getPaginationParams request = .ok params) (items : List α) (page : List (Item idKey))
    (collectionName : String) :
    SamePageSize texts maxLimit request params items page collectionName ↔
      params.limit ≠ some 0 ∧ FormAgrees maxLimit request := by
  constructor
  · intro hsame
    exact (maxItems_iff hmax h).mp hsame.maxItems
  · intro hcond
    have hitems := (maxItems_iff hmax h).mpr hcond
    refine ⟨limited_eq h items, ?_, hitems,
      getCollectionLinks_next texts (effectiveLimit_pos hmax _) hitems page collectionName⟩
    rw [getLimitAndMarker_eq h, (min_getD_iff hmax params.limit).mpr hcond.1]

end

/-! ## A limit of 0 -/

def plainTexts : LinkTexts := ⟨id, fun params => "&".intercalate (params.map fun kv =>
  kv.1 ++ "=" ++ kv.2)⟩

/-- `GET /flavors?limit=<text>`. -/
def flavorsRequest (text : String) : ListRequest :=
  ⟨[("limit", text)], [], "http://host/v2.1/p/flavors?limit=" ++ text, "http://host/v2.1", "p"⟩

theorem flavorItem_identified (flavorid : String) :
    (identifierKeys "flavorid").filterMap (fun k => [("flavorid", flavorid)].lookup k) ≠ [] :=
  List.cons_ne_nil flavorid [flavorid]

def flavorItem (flavorid : String) : Item "flavorid" :=
  ⟨[("flavorid", flavorid)], flavorItem_identified flavorid⟩

theorem samePageSize_flavors :
    SamePageSize plainTexts 2 (flavorsRequest "1") ⟨some 1, none, none, none⟩ [1, 2, 3]
      [flavorItem "1"] "flavors" :=
  (samePageSize_iff plainTexts (by decide) (by rfl) [1, 2, 3] [flavorItem "1"] "flavors").mpr
    ⟨by decide, by intro h; cases h⟩

/-- With a limit of 0 a full page of two has no next link. -/
theorem samePageSize_zero :
    getPaginationParams (flavorsRequest "0") = .ok ⟨some 0, none, none, none⟩ ∧
      limited 2 ["1", "2", "3"] (flavorsRequest "0") = .ok ["1", "2"] ∧
      getLimitAndMarker 2 (flavorsRequest "0") = .ok (0, none) ∧
      getCollectionLinks plainTexts 2 (flavorsRequest "0") [flavorItem "1", flavorItem "2"]
        "flavors" = .ok [] ∧
      ¬SamePageSize plainTexts 2 (flavorsRequest "0") ⟨some 0, none, none, none⟩ ["1", "2", "3"]
        [flavorItem "1", flavorItem "2"] "flavors" := by
  refine ⟨by rfl, by rfl, by rfl, by rfl, ?_⟩
  intro hsame
  have h := hsame.getLimitAndMarker
  cases h

end PolarBear.Api
