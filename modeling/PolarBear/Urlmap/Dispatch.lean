import PolarBear.Py.Builtins
import PolarBear.Urlmap.Options

/-!
# The front door

`URLMap` finds the application for a request: by the prefix of the path, else by
the option `version` of `CONTENT_TYPE`, else by that of the best match in the
`Accept` header, else by the path alone. What is found nowhere goes to the
application for "not found".

Three things in these headers raise on the way there: a value without a name, an
option `q` without a value in `Accept`, and an option `version` without a value
where it is used. `never_crashes_iff` says that nothing else does.
-/

namespace PolarBear.Urlmap

open PolarBear.Best

/-- `get_supported_content_types` -/
def supportedContentTypes : List String :=
  ["application/json", "application/vnd.openstack.compute+json"]

/-! ## The applications -/

/-- An entry of `applications`. -/
structure Application (α : Type) where
  domain : Option String
  appUrl : String
  app : α

structure URLMap (α : Type) where
  applications : List (Application α)

/-- What the code reads of `environ`. -/
structure Environ where
  httpHost : Option String
  serverName : String
  urlScheme : String
  pathInfo : String
  contentType : Option String
  httpAccept : Option String

/-- A wrapped application: what is put behind `SCRIPT_NAME`, and the new `PATH_INFO`. -/
structure Wrapped (α : Type) where
  app : α
  appUrl : String
  pathInfo : Option String

/-- What is called in the end. -/
inductive Called (α : Type) where
  | application (wrapped : Wrapped α) (bestContentType : String)
  | notFound

section

variable {α : Type}

/-- The condition in the loop of `_match`. -/
def Application.serves (host port path : String) (a : Application α) : Bool :=
  let domain := a.domain.getD ""
  if domain != "" && domain != host && domain != host ++ ":" ++ port then false
  else path == a.appUrl || Py.startsWith (a.appUrl ++ "/") path

/-- `_match` -/
def URLMap.find (um : URLMap α) (host port path : String) : Option (α × String) :=
  (um.applications.find? (Application.serves host port path)).map (fun a => (a.app, a.appUrl))

/-- `_set_script_name` -/
def setScriptName (found : α × String) : Wrapped α := ⟨found.1, found.2, none⟩

/-- `_munge_path` -/
def mungePath (path : String) (found : α × String) : Wrapped α :=
  ⟨found.1, found.2, some (String.ofList (path.toList.drop found.2.toList.length))⟩

/-! ## The strategies -/

/-- `_path_strategy`, the type -/
def pathMimeType (path : String) : Option String :=
  if path.toList.contains '.' then
    let possibleType := "application/" ++ (Py.rsplit '.' path).2
    if supportedContentTypes.contains possibleType then some possibleType else none
  else none

/-- `_path_strategy`, the application -/
def URLMap.pathApp (um : URLMap α) (host port path : String) : Option (Wrapped α) :=
  if path.toList.contains '/' then
    ((um.find host port path).filter (fun found => found.2 != "")).map (mungePath path)
  else none

/-- `'version' in params` and what follows. -/
def URLMap.versionApp (um : URLMap α) (host port : String) (params : Params) :
    Except Crash (Option (Wrapped α)) :=
  match params.lookup "version" with
  | none => .ok none
  | some none => .error .typeError
  | some (some version) => .ok ((um.find host port ("/v" ++ version)).map setScriptName)

/-- `_content_type_strategy` -/
def URLMap.contentTypeStrategy (um : URLMap α) (host port : String) (environ : Environ) :
    Except Crash (Option (Wrapped α)) := do
  let parsed ← parseOptionsHeader (environ.contentType.getD "")
  um.versionApp host port parsed.2

/-- The application by the path, else by `CONTENT_TYPE`. -/
def URLMap.firstApp (um : URLMap α) (host port : String) (environ : Environ)
    (pathApp : Option (Wrapped α)) : Except Crash (Option (Wrapped α)) :=
  match pathApp with
  | some wrapped => .ok (some wrapped)
  | none => um.contentTypeStrategy host port environ

/-- An item of `parse_list_header`. -/
def unquoteItem (item : String) : String :=
  if item.toList.head? = some '"' ∧ item.toList.getLast? = some '"' then
    String.ofList (unquoteHeaderValue (item.toList.drop 1).dropLast)
  else item

variable (parseHttpList : String → List String)

/-- `parse_list_header` -/
def parseListHeader (value : String) : List String := (parseHttpList value).map unquoteItem

/-- `Accept.__init__` -/
def acceptInit (value : String) : Except Crash (List Range) :=
  (parseListHeader parseHttpList value).mapM parseOptionsHeader

variable {K : Type} [LinearOrder K] [One K] [Neg K] (float : String → Option (Quality K))

/-- `_accept_strategy` -/
def URLMap.acceptStrategy (um : URLMap α) (host port : String) (environ : Environ)
    (supported : List String) : Except Crash (Option String × Option (Wrapped α)) := do
  let ranges ← acceptInit parseHttpList (environ.httpAccept.getD "")
  let best ← bestMatch float ranges supported
  let app ← um.versionApp host port best.2
  return (best.1, app)

/-- The host and the port of a request. -/
def hostPort (environ : Environ) : String × String :=
  let host := (environ.httpHost.getD environ.serverName).toLower
  if host.toList.contains ':' then
    (String.ofList (host.toList.takeWhile (· != ':')), Py.afterFirst ':' host)
  else (host, if environ.urlScheme == "http" then "80" else "443")

/-- The types that can be asked for; the index of a version, or of all, has one more. -/
def supportedFor (pathApp : Option (Wrapped α)) (path : String) : List String :=
  if pathApp.any (fun wrapped => wrapped.appUrl ++ "/" == path) || path == "/" then
    supportedContentTypes ++ ["application/atom+xml"]
  else supportedContentTypes

/-- The end of `__call__`: the default type and the default application. -/
def URLMap.finish (um : URLMap α) (host port path : String) (mimeType : Option String)
    (app : Option (Wrapped α)) : Called α :=
  match app.or ((um.find host port path).map (mungePath path)) with
  | some wrapped => .application wrapped (mimeType.getD "application/json")
  | none => .notFound

/-- `__call__`; `normalize` is `normalize_url` without trimming. -/
def URLMap.call (normalize : String → String) (um : URLMap α) (environ : Environ) :
    Except Crash (Called α) := do
  let host := (hostPort environ).1
  let port := (hostPort environ).2
  let path := normalize environ.pathInfo
  let mimeType := pathMimeType path
  let pathApp := um.pathApp host port path
  let app ← um.firstApp host port environ pathApp
  if mimeType.isNone || app.isNone then
    let possible ← um.acceptStrategy parseHttpList float host port environ
      (supportedFor pathApp path)
    return um.finish host port path (mimeType.or possible.1) (app.or possible.2)
  else return um.finish host port path mimeType app

/-! ## What raises -/

/-- The pair that the best match is taken from. -/
def Picked (ranges : List Range) (supported : List String) (p : Pair) : Prop :=
  ∃ front back, IsBest (accepts float) (rank float) (none :: (supported ×ˢ ranges).map some)
    (some p) front back

variable {parseHttpList float}

theorem versionApp_ok_iff (um : URLMap α) (host port : String) {params : Params} :
    (∃ app, um.versionApp host port params = .ok app) ↔ params.lookup "version" ≠ some none := by
  unfold URLMap.versionApp
  rcases params.lookup "version" with _ | _ | version
  · exact iff_of_true ⟨_, rfl⟩ (Option.some_ne_none none).symm
  · refine iff_of_false ?_ (fun h => h rfl)
    rintro ⟨app, happ⟩
    cases happ
  · refine iff_of_true ⟨_, rfl⟩ ?_
    intro h
    cases h

theorem contentTypeStrategy_ok_iff {um : URLMap α} {host port : String} {environ : Environ}
    {contentType : String} (h : environ.contentType = some contentType) :
    (∃ app, um.contentTypeStrategy host port environ = .ok app) ↔
      Named contentType ∧ (parsed contentType).2.lookup "version" ≠ some none := by
  unfold URLMap.contentTypeStrategy
  simp only [h, Option.getD_some, Fallible.bind_ok_iff, parseOptionsHeader_ok_iff]
  rw [← versionApp_ok_iff um host port]
  constructor
  · rintro ⟨app, r, ⟨hnamed, rfl⟩, happ⟩
    exact ⟨hnamed, app, happ⟩
  · rintro ⟨hnamed, app, happ⟩
    exact ⟨app, _, ⟨hnamed, rfl⟩, happ⟩

theorem acceptInit_ok_iff {accept : String} {ranges : List Range} :
    acceptInit parseHttpList accept = .ok ranges ↔
      (∀ item ∈ parseListHeader parseHttpList accept, Named item) ∧
        ranges = (parseListHeader parseHttpList accept).map parsed := by
  unfold acceptInit
  constructor
  · intro h
    have hnamed : ∀ item ∈ parseListHeader parseHttpList accept, Named item := by
      intro item hitem
      obtain ⟨r, hr⟩ := Fallible.mapM_mem_ok h item hitem
      exact (parseOptionsHeader_ok_iff.mp hr).1
    rw [Fallible.mapM_ok (fun item hitem => parseOptionsHeader_of_named (hnamed item hitem))] at h
    exact ⟨hnamed, (Except.ok.inj h).symm⟩
  · rintro ⟨hnamed, rfl⟩
    exact Fallible.mapM_ok (fun item hitem => parseOptionsHeader_of_named (hnamed item hitem))

/-- What is taken from the best match, in terms of the pair it is. -/
theorem picked_version_iff {ranges : List Range} {supported : List String} :
    (keptOf float (best (accepts float) (rank float) none
        ((supported ×ˢ ranges).map some))).bestParams.lookup "version" ≠ some none ↔
      ∀ p, Picked float ranges supported p → p.2.2.lookup "version" ≠ some none := by
  have hstart : accepts float none = true := rfl
  obtain ⟨front, back, hbest⟩ := best_isBest (accepts float) (rank float) hstart
    ((supported ×ˢ ranges).map some)
  cases hpick : best (accepts float) (rank float) none ((supported ×ˢ ranges).map some) with
  | none =>
    rw [hpick] at hbest
    refine iff_of_true (Option.some_ne_none none).symm ?_
    rintro p ⟨front', back', hp⟩
    cases hbest.unique hp
  | some p =>
    rw [hpick] at hbest
    constructor
    · rintro h p' ⟨front', back', hp'⟩
      cases hbest.unique hp'
      exact h
    · exact fun h => h p ⟨front, back, hbest⟩

theorem acceptStrategy_ok_iff {um : URLMap α} {host port accept : String} {environ : Environ}
    {supported : List String} (hne : supported ≠ []) (h : environ.httpAccept = some accept) :
    (∃ r, um.acceptStrategy parseHttpList float host port environ supported = .ok r) ↔
      (∀ item ∈ parseListHeader parseHttpList accept, Named item) ∧
      (∀ item ∈ parseListHeader parseHttpList accept,
        (parsed item).2.lookup "q" ≠ some none) ∧
      ∀ p, Picked float ((parseListHeader parseHttpList accept).map parsed) supported p →
        p.2.2.lookup "version" ≠ some none := by
  have hmatch : ∀ ranges r, bestMatch float ranges supported = .ok r ↔ _ :=
    fun ranges r => bestMatch_ok_iff hne
  unfold URLMap.acceptStrategy
  simp only [h, Option.getD_some, Fallible.bind_ok_iff, acceptInit_ok_iff, hmatch]
  constructor
  · rintro ⟨r, ranges, ⟨hnamed, rfl⟩, r', ⟨hq, rfl⟩, app, happ, -⟩
    refine ⟨hnamed, fun item hitem => hq _ (List.mem_map.mpr ⟨item, hitem, rfl⟩), ?_⟩
    exact picked_version_iff.mp ((versionApp_ok_iff um host port).mp ⟨app, happ⟩)
  · rintro ⟨hnamed, hq, hpicked⟩
    obtain ⟨app, happ⟩ := (versionApp_ok_iff um host port).mpr
      (picked_version_iff.mpr hpicked)
    refine ⟨_, _, ⟨hnamed, rfl⟩, _, ⟨?_, rfl⟩, app, happ, rfl⟩
    intro range hrange
    obtain ⟨item, hitem, rfl⟩ := List.mem_map.mp hrange
    exact hq item hitem

/-! ## The front door -/

section

variable (α) (parseHttpList) (float) (normalize : String → String)

/-- Both headers are read, and every request with them reaches an application, or the one for
"not found". -/
structure NeverCrashes (accept contentType : String) : Prop where
  options : ∃ r, parseOptionsHeader contentType = .ok r
  ranges : ∃ ranges, acceptInit parseHttpList accept = .ok ranges
  dispatch : ∀ (um : URLMap α) (environ : Environ), environ.httpAccept = some accept →
    environ.contentType = some contentType →
    ∃ called, um.call parseHttpList float normalize environ = .ok called

/-- What the headers must not have. -/
structure Harmless (accept contentType : String) : Prop where
  named : Named contentType
  version : (parsed contentType).2.lookup "version" ≠ some none
  items : ∀ item ∈ parseListHeader parseHttpList accept, Named item
  qualities : ∀ item ∈ parseListHeader parseHttpList accept,
    (parsed item).2.lookup "q" ≠ some none
  picked : ∀ supported, supported = supportedContentTypes ∨
      supported = supportedContentTypes ++ ["application/atom+xml"] →
    ∀ p, Picked float ((parseListHeader parseHttpList accept).map parsed) supported p →
      p.2.2.lookup "version" ≠ some none

end

variable {normalize : String → String}

theorem supportedFor_eq (pathApp : Option (Wrapped α)) (path : String) :
    supportedFor pathApp path = supportedContentTypes ∨
      supportedFor pathApp path = supportedContentTypes ++ ["application/atom+xml"] := by
  unfold supportedFor
  split
  next => exact Or.inr rfl
  next => exact Or.inl rfl

theorem supportedFor_ne_nil (pathApp : Option (Wrapped α)) (path : String) :
    supportedFor pathApp path ≠ [] := by
  rcases supportedFor_eq pathApp path with h | h
  · rw [h]
    exact List.cons_ne_nil _ _
  · rw [h]
    exact List.cons_ne_nil _ _

/-- Harmless headers reach an application. -/
theorem Harmless.call {accept contentType : String}
    (h : Harmless parseHttpList float accept contentType) (um : URLMap α) {environ : Environ}
    (haccept : environ.httpAccept = some accept)
    (hcontent : environ.contentType = some contentType) :
    ∃ called, um.call parseHttpList float normalize environ = .ok called := by
  obtain ⟨app, happ⟩ : ∃ app, um.firstApp (hostPort environ).1 (hostPort environ).2 environ
      (um.pathApp (hostPort environ).1 (hostPort environ).2 (normalize environ.pathInfo)) =
        .ok app := by
    cases um.pathApp (hostPort environ).1 (hostPort environ).2 (normalize environ.pathInfo) with
    | none => exact (contentTypeStrategy_ok_iff hcontent).mpr ⟨h.named, h.version⟩
    | some wrapped => exact ⟨_, rfl⟩
  have haccepts : ∀ (pathApp : Option (Wrapped α)) (path : String), ∃ r,
      um.acceptStrategy parseHttpList float (hostPort environ).1 (hostPort environ).2 environ
        (supportedFor pathApp path) = .ok r := fun pathApp path =>
    (acceptStrategy_ok_iff (supportedFor_ne_nil pathApp path) haccept).mpr
      ⟨h.items, h.qualities, h.picked _ (supportedFor_eq pathApp path)⟩
  unfold URLMap.call
  dsimp only
  rw [happ]
  by_cases hmore : ((pathMimeType (normalize environ.pathInfo)).isNone || app.isNone) = true
  · obtain ⟨r, hr⟩ := haccepts (um.pathApp (hostPort environ).1 (hostPort environ).2
      (normalize environ.pathInfo)) (normalize environ.pathInfo)
    refine ⟨um.finish (hostPort environ).1 (hostPort environ).2 (normalize environ.pathInfo)
      ((pathMimeType (normalize environ.pathInfo)).or r.1) (app.or r.2), (if_pos hmore).trans ?_⟩
    rw [hr]
    rfl
  · exact ⟨_, if_neg hmore⟩

/-- Without applications every request looks at both headers. -/
theorem call_empty {environ : Environ} {called : Called α}
    (h : URLMap.call parseHttpList float normalize ⟨[]⟩ environ = .ok called) :
    (∃ app, URLMap.contentTypeStrategy (⟨[]⟩ : URLMap α) (hostPort environ).1
      (hostPort environ).2 environ = .ok app) ∧
    ∃ r, URLMap.acceptStrategy parseHttpList float (⟨[]⟩ : URLMap α) (hostPort environ).1
      (hostPort environ).2 environ (supportedFor (none : Option (Wrapped α))
        (normalize environ.pathInfo)) = .ok r := by
  have hfind : ∀ host port path : String, URLMap.find (⟨[]⟩ : URLMap α) host port path = none :=
    fun _ _ _ => rfl
  have hpath : ∀ host port path : String,
      URLMap.pathApp (⟨[]⟩ : URLMap α) host port path = none := by
    intro host port path
    unfold URLMap.pathApp
    rw [hfind]
    split <;> rfl
  unfold URLMap.call at h
  dsimp only at h
  rw [hpath] at h
  obtain ⟨app, hfirst, hrest⟩ := Fallible.bind_ok_iff.mp h
  have happ : URLMap.contentTypeStrategy (⟨[]⟩ : URLMap α) (hostPort environ).1
    (hostPort environ).2 environ = .ok app := hfirst
  have hnone : app = none := by
    unfold URLMap.contentTypeStrategy at happ
    obtain ⟨r, -, hversion⟩ := Fallible.bind_ok_iff.mp happ
    unfold URLMap.versionApp at hversion
    generalize r.2.lookup "version" = found at hversion
    rcases found with _ | _ | version
    · exact (Except.ok.inj hversion).symm
    · cases hversion
    · exact (Except.ok.inj hversion).symm
  rw [hnone, if_pos (by simp)] at hrest
  obtain ⟨r, hr, -⟩ := Fallible.bind_ok_iff.mp hrest
  exact ⟨⟨app, happ⟩, r, hr⟩

/-- **The front door never crashes** on the harmless headers, and only on these. -/
theorem never_crashes_iff (hempty : normalize "" = "") (hroot : normalize "/" = "/")
    (accept contentType : String) :
    NeverCrashes α parseHttpList float normalize accept contentType ↔
      Harmless parseHttpList float accept contentType := by
  constructor
  · intro h
    have hrequest : ∀ path, _ := fun path => h.dispatch ⟨[]⟩
      ⟨none, "", "http", path, some contentType, some accept⟩ rfl rfl
    obtain ⟨called, hcalled⟩ := hrequest ""
    obtain ⟨hcontent, haccept⟩ := call_empty hcalled
    obtain ⟨called', hcalled'⟩ := hrequest "/"
    obtain ⟨-, haccept'⟩ := call_empty hcalled'
    obtain ⟨hnamed, hversion⟩ := (contentTypeStrategy_ok_iff rfl).mp hcontent
    obtain ⟨hitems, hq, hpicked⟩ := (acceptStrategy_ok_iff (supportedFor_ne_nil _ _) rfl).mp haccept
    obtain ⟨-, -, hpicked'⟩ := (acceptStrategy_ok_iff (supportedFor_ne_nil _ _) rfl).mp haccept'
    refine ⟨hnamed, hversion, hitems, hq, ?_⟩
    rintro supported (rfl | rfl)
    · have hsupported : supportedFor (none : Option (Wrapped α)) (normalize "") =
          supportedContentTypes := by
        rw [hempty]
        rfl
      exact hsupported ▸ hpicked
    · have hsupported : supportedFor (none : Option (Wrapped α)) (normalize "/") =
          supportedContentTypes ++ ["application/atom+xml"] := by
        rw [hroot]
        rfl
      exact hsupported ▸ hpicked'
  · intro h
    refine ⟨⟨_, parseOptionsHeader_of_named h.named⟩, ⟨_, acceptInit_ok_iff.mpr ⟨h.items, rfl⟩⟩, ?_⟩
    exact fun um environ haccept hcontent => h.call um haccept hcontent

end

theorem never_crashes_json :
    NeverCrashes ℕ (Py.split ',') halfQuality id "application/json" "" := by
  refine (never_crashes_iff rfl rfl "application/json" "").mpr ?_
  have hitems : parseListHeader (Py.split ',') "application/json" = ["application/json"] := by
    decide
  have hparsed : parsed "application/json" = ("application/json", []) := by decide
  have hnamed : Named "application/json" :=
    (parseOptionsHeader_ok_iff (r := ("application/json", []))).mp (by decide) |>.1
  refine ⟨Or.inl rfl, by decide, ?_, ?_, ?_⟩
  · rw [hitems]
    intro item hitem
    rw [List.mem_singleton.mp hitem]
    exact hnamed
  · rw [hitems]
    intro item hitem
    rw [List.mem_singleton.mp hitem, hparsed]
    exact (Option.some_ne_none none).symm
  · rintro supported - p ⟨front, back, hbest⟩
    rw [hitems] at hbest
    have hmem : some p ∈ none :: (supported ×ˢ ["application/json"].map parsed).map some := by
      rw [hbest.place]
      exact List.mem_append_right _ (List.mem_cons_self ..)
    have hpair : p ∈ supported ×ˢ ["application/json"].map parsed := by simpa using hmem
    have hrange : p.2 = ("application/json", []) :=
      (List.mem_singleton.mp (List.mem_product.mp hpair).2).trans hparsed
    rw [hrange]
    exact (Option.some_ne_none none).symm

/-- The content type `=` has no name. -/
theorem nameless_crashes :
    ¬ NeverCrashes ℕ (Py.split ',') halfQuality id "application/json" "=" := by
  intro h
  obtain ⟨r, hr⟩ := h.options
  have hraised : parseOptionsHeader "=" = .error .stopIteration := by decide
  rw [hraised] at hr
  cases hr

end PolarBear.Urlmap
