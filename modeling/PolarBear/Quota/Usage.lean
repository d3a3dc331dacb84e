import PolarBear.Lib.Dict
import PolarBear.Lib.Table
import PolarBear.Lib.Fallible

/-!
# `quota_usages`: the usage rows of a request and their refresh

A usage row counts what a user of a project uses and has reserved of a resource.
Resources in `PER_PROJECT_QUOTAS` have one row for the whole project, without a
user. A request reads the live rows of its project once: from them it adds up the
totals of the project, and picks for every resource the last row that is the
user's or nobody's. A resource without a row gets one, and a row that is new,
negative, used up or too old is refreshed by the sync function of its resource,
which may report on other resources too.

The totals of the project are added up before the refresh and are not changed by
it. The rows a request picked are changed in place, and a row it adds is the last
one, so its picks are those a new request would make (`Refreshed.picks`).
`refresh_spec` says what a refresh does.
-/

namespace PolarBear.Quota

/-- `PER_PROJECT_QUOTAS`. -/
def perProjectQuotas : List String := ["fixed_ips", "floating_ips", "networks"]

/-- A row of `quota_usages`; times are seconds. -/
structure QuotaUsage where
  id : Nat
  projectId : Option String
  userId : Option String
  resource : String
  inUse : Int
  reserved : Int
  untilRefresh : Option Int
  updatedAt : Int
  deleted : Bool
  deriving DecidableEq, Repr

def QuotaUsage.total (r : QuotaUsage) : Int := r.inUse + r.reserved

abbrev UsageTable := Table QuotaUsage QuotaUsage.id

/-- The exceptions of a quota call. -/
inductive QuotaError where
  | keyError (key : String)
  | overQuota (overs : List String) (quotas : List (String × Int))
      (usages : List (String × Int × Int))
  deriving DecidableEq, Repr

/-! ## Reading the rows of a project -/

/-- The totals of a resource over the project. -/
structure ProjectUsage where
  inUse : Int
  reserved : Int
  total : Int
  deriving DecidableEq, Repr

/-- A live row of the project. -/
def ofProject (project : Option String) (row : QuotaUsage) : Bool :=
  !row.deleted && row.projectId == project

/-- The row is nobody's or the user's. -/
def ofUser (user : Option String) (row : QuotaUsage) : Bool :=
  row.userId == none || row.userId == user

def addToProject (acc : List (String × ProjectUsage)) (row : QuotaUsage) :
    List (String × ProjectUsage) :=
  let old := (acc.lookup row.resource).getD ⟨0, 0, 0⟩
  Dict.set row.resource ⟨old.inUse + row.inUse, old.reserved + row.reserved,
    old.total + (row.inUse + row.reserved)⟩ acc

def addToUser (user : Option String) (acc : List (String × Nat)) (row : QuotaUsage) :
    List (String × Nat) :=
  if ofUser user row then Dict.set row.resource row.id acc else acc

/-- `_get_project_user_quota_usages`: the totals of the project, and the id of
the row picked for each resource. -/
def getProjectUserQuotaUsages (t : UsageTable) (project user : Option String) :
    List (String × ProjectUsage) × List (String × Nat) :=
  let rows := t.rows.filter (ofProject project)
  (rows.foldl addToProject [], rows.foldl (addToUser user) [])

/-! ## Refreshing -/

/-- What a refresh depends on: the arguments of the request, the time, the order
in which `work.pop()` takes the resources, and for each resource what its sync
function reports (`none`: it has no sync function). -/
structure RefreshEnv where
  project : Option String
  user : Option String
  untilRefresh : Option Int
  maxAge : Int
  now : Int
  order : List String
  sync : String → Option (List (String × Int))

/-- The usage rows, those the request picked, and the counts that sync functions
have written, the latest first. -/
structure Refresh where
  usages : UsageTable
  userUsages : List (String × Nat)
  synced : List (Nat × Int)

/-- `n or None`. -/
def orNone : Option Int → Option Int
  | some 0 => none
  | n => n

/-- A changed row is stamped when it is written. -/
def QuotaUsage.write (now : Int) (f : QuotaUsage → QuotaUsage) (r : QuotaUsage) : QuotaUsage :=
  if f r = r then r else { f r with updatedAt := now }

theorem write_id (now : Int) {f : QuotaUsage → QuotaUsage} (hid : ∀ r, (f r).id = r.id)
    (r : QuotaUsage) : (QuotaUsage.write now f r).id = r.id := by
  unfold QuotaUsage.write
  split
  · rfl
  · exact hid r

/-- The row with an id is written. -/
def writeRow (now : Int) (t : UsageTable) (id : Nat) (f : QuotaUsage → QuotaUsage)
    (hid : ∀ r, (f r).id = r.id) : UsageTable :=
  t.modify (fun r => r.id == id) (QuotaUsage.write now f) (write_id now hid)

variable (env : RefreshEnv)

/-- The user of a new row. -/
def RefreshEnv.rowUser (resource : String) : Option String :=
  if resource ∈ perProjectQuotas then none else env.user

/-- `_quota_usage_create`, as the refresh calls it. -/
def quotaUsageCreate (resource : String) (id : Nat) : QuotaUsage where
  id := id
  projectId := env.project
  userId := env.rowUser resource
  resource := resource
  inUse := 0
  reserved := 0
  untilRefresh := orNone env.untilRefresh
  updatedAt := env.now
  deleted := false

theorem quotaUsageCreate_id (resource : String) (id : Nat) :
    (quotaUsageCreate env resource id).id = id := rfl

/-- `_create_quota_usage_if_missing`. -/
def createQuotaUsageIfMissing (resource : String) (s : Refresh) : Refresh × Bool :=
  match s.userUsages.lookup resource with
  | some _ => (s, false)
  | none =>
    ({ s with
        usages := s.usages.insert (quotaUsageCreate env resource) (quotaUsageCreate_id env resource)
        -- a new row is the picked one
        userUsages := Dict.set resource s.usages.next s.userUsages }, true)

/-- `_is_quota_refresh_needed`: the answer, and the `until_refresh` it leaves. -/
def isQuotaRefreshNeeded (row : QuotaUsage) : Bool × Option Int :=
  if row.inUse < 0 then (true, row.untilRefresh)
  else
    match row.untilRefresh with
    | some n => (decide (n - 1 ≤ 0), some (n - 1))
    | none =>
      -- `timedelta.seconds` leaves whole days out
      (decide (env.maxAge ≠ 0 ∧ env.maxAge ≤ (env.now - row.updatedAt) % 86400), none)

/-- The picked row of a resource. -/
def Refresh.picked (s : Refresh) (resource : String) : Option QuotaUsage :=
  (s.userUsages.lookup resource).bind s.usages.byId

/-- The check of a resource that has a row. -/
def checkRefresh (resource : String) (s : Refresh) : Except QuotaError (Refresh × Bool) :=
  match s.picked resource with
  | none => .error (.keyError resource)
  | some row =>
    let (refresh, left) := isQuotaRefreshNeeded env row
    let usages := writeRow env.now s.usages row.id (fun r => { r with untilRefresh := left })
      (fun _ => rfl)
    .ok ({ s with usages := usages }, refresh)

/-- `_refresh_quota_usages`. -/
def refreshQuotaUsages (resource : String) (inUse : Int) (s : Refresh) : Refresh :=
  match s.userUsages.lookup resource with
  | none => s
  | some id =>
    let usages := writeRow env.now s.usages id
      (fun r => { r with inUse := inUse, untilRefresh := orNone env.untilRefresh }) (fun _ => rfl)
    { s with usages := usages, synced := (id, inUse) :: s.synced }

/-- One item of what a sync function reports. -/
def applyUpdate (st : Refresh × List String) (update : String × Int) : Refresh × List String :=
  let s := (createQuotaUsageIfMissing env update.1 st.1).1
  (refreshQuotaUsages env update.1 update.2 s, st.2.filter (fun res => res != update.1))

/-- Is the refresh of a resource due? -/
def refreshDue (forceRefresh : Bool) (resource : String) (s : Refresh × Bool) :
    Except QuotaError (Refresh × Bool) :=
  if forceRefresh || s.2 then .ok (s.1, true) else checkRefresh env resource s.1

/-- The call of the sync function of a resource. -/
def syncResource (resource : String) (st : Refresh × List String) :
    Except QuotaError (Refresh × List String) :=
  match env.sync resource with
  | none => .error (.keyError resource)
  | some updates => .ok (updates.foldl (applyUpdate env) st)

/-- One round of the `while` loop, for the resource that is popped. A resource
that a sync function has reported on is no longer in the work set. -/
def refreshResource (forceRefresh : Bool) (st : Refresh × List String) (resource : String) :
    Except QuotaError (Refresh × List String) :=
  if resource ∉ st.2 then .ok st
  else do
    let work := st.2.filter (fun res => res != resource)
    let due ← refreshDue env forceRefresh resource (createQuotaUsageIfMissing env resource st.1)
    if due.2 then syncResource env resource (due.1, work) else .ok (due.1, work)

/-- `_refresh_quota_usages_if_needed`; `env.order` lists the keys in the order in
which they would be popped. -/
def refreshQuotaUsagesIfNeeded (forceRefresh : Bool) (keys : List String) (s : Refresh) :
    Except QuotaError Refresh := do
  let st ← env.order.foldlM (refreshResource env forceRefresh) (s, keys)
  .ok st.1

/-! ## Picks -/

/-- A row that a request of the user may pick for the resource. -/
def visible (project user : Option String) (res : String) (row : QuotaUsage) : Bool :=
  ofProject project row && ofUser user row && row.resource == res

/-- The row that is picked. -/
def pick (t : UsageTable) (project user : Option String) (res : String) : Option QuotaUsage :=
  (t.rows.filter (visible project user res)).getLast?

theorem pick_some {t : UsageTable} {project user : Option String} {res : String} {r : QuotaUsage}
    (h : pick t project user res = some r) : r ∈ t.rows ∧ visible project user res r = true :=
  List.mem_filter.mp (List.mem_of_getLast? h)

theorem pick_eq_none {t : UsageTable} {project user : Option String} {res : String} :
    pick t project user res = none ↔ ∀ r ∈ t.rows, visible project user res r = false := by
  unfold pick
  rw [List.getLast?_eq_none_iff, List.filter_eq_nil_iff]
  simp only [Bool.not_eq_true]

/-- **The rows of a request** are the picked ones. -/
theorem lookup_userUsages (t : UsageTable) (project user : Option String) (res : String) :
    (getProjectUserQuotaUsages t project user).2.lookup res =
      (pick t project user res).map QuotaUsage.id := by
  have hfold : ∀ (rows : List QuotaUsage) (acc : List (String × Nat)),
      ((rows.filter (ofProject project)).foldl (addToUser user) acc).lookup res =
        ((rows.filter (visible project user res)).getLast?.map QuotaUsage.id).or
          (acc.lookup res) := by
    intro rows
    induction rows with
    | nil => intro acc; rfl
    | cons row rows ih =>
      intro acc
      by_cases hproject : ofProject project row = true
      · rw [List.filter_cons_of_pos hproject, List.foldl_cons, ih]
        by_cases hvisible : visible project user res row = true
        · -- the row takes the place of earlier ones
          obtain ⟨⟨-, huser⟩, hres⟩ :
              (ofProject project row = true ∧ ofUser user row = true) ∧ row.resource = res := by
            simpa [visible] using hvisible
          rw [List.filter_cons_of_pos hvisible, addToUser, if_pos huser, hres,
            Dict.lookup_set_self, List.getLast?_cons]
          cases (rows.filter (visible project user res)).getLast? <;> rfl
        · have hkeep : (addToUser user acc row).lookup res = acc.lookup res := by
            unfold addToUser
            split
            · next huser =>
              apply Dict.lookup_set_ne
              rintro rfl
              exact hvisible (by simp [visible, hproject, huser])
            · rfl
          rw [List.filter_cons_of_neg hvisible, hkeep]
      · have hvisible : ¬ visible project user res row = true := by
          intro h
          simp only [visible, Bool.and_eq_true] at h
          exact hproject h.1.1
        rw [List.filter_cons_of_neg hproject, List.filter_cons_of_neg hvisible, ih]
  have h := hfold t.rows []
  rw [List.lookup_nil, Option.or_none] at h
  exact h

/-- The same row: the columns that picks look at. -/
structure SameKey (r r' : QuotaUsage) : Prop where
  id : r'.id = r.id
  projectId : r'.projectId = r.projectId
  userId : r'.userId = r.userId
  resource : r'.resource = r.resource
  deleted : r'.deleted = r.deleted

theorem SameKey.refl (r : QuotaUsage) : SameKey r r := ⟨rfl, rfl, rfl, rfl, rfl⟩

theorem SameKey.trans {r r' r'' : QuotaUsage} (h : SameKey r r') (h' : SameKey r' r'') :
    SameKey r r'' where
  id := h'.id.trans h.id
  projectId := h'.projectId.trans h.projectId
  userId := h'.userId.trans h.userId
  resource := h'.resource.trans h.resource
  deleted := h'.deleted.trans h.deleted

theorem SameKey.visible {r r' : QuotaUsage} (h : SameKey r r') (project user : Option String)
    (res : String) : visible project user res r' = visible project user res r := by
  unfold Quota.visible ofProject ofUser
  rw [h.deleted, h.projectId, h.userId, h.resource]

/-- A write does what it is asked to, and may stamp the row. -/
theorem write_eq (now : Int) (f : QuotaUsage → QuotaUsage) (r : QuotaUsage) :
    ∃ stamp, QuotaUsage.write now f r = { f r with updatedAt := stamp } := by
  unfold QuotaUsage.write
  split
  · next h =>
    refine ⟨r.updatedAt, ?_⟩
    rw [h]
  · exact ⟨now, rfl⟩

section

variable {now : Int} {t : UsageTable} {id : Nat} {f : QuotaUsage → QuotaUsage}

/-- What becomes of a row when the row with an id is written. -/
def written (now : Int) (id : Nat) (f : QuotaUsage → QuotaUsage) (r : QuotaUsage) : QuotaUsage :=
  if r.id == id then QuotaUsage.write now f r else r

theorem mem_writeRow (hid : ∀ r, (f r).id = r.id) {r : QuotaUsage} :
    r ∈ (writeRow now t id f hid).rows ↔ ∃ r₁ ∈ t.rows, r = written now id f r₁ :=
  Table.mem_modify _

theorem written_ne {r : QuotaUsage} (h : r.id ≠ id) : written now id f r = r :=
  if_neg (fun hb => h (beq_iff_eq.mp hb))

theorem written_eq (now : Int) (f : QuotaUsage → QuotaUsage) {r : QuotaUsage} (h : r.id = id) :
    ∃ stamp, written now id f r = { f r with updatedAt := stamp } := by
  obtain ⟨stamp, hwrite⟩ := write_eq now f r
  exact ⟨stamp, (if_pos (beq_iff_eq.mpr h)).trans hwrite⟩

theorem sameKey_written (now : Int) (id : Nat) (hsame : ∀ r, SameKey r (f r)) (r : QuotaUsage) :
    SameKey r (written now id f r) := by
  by_cases hr : r.id = id
  · obtain ⟨stamp, hwritten⟩ := written_eq now f hr
    rw [hwritten]
    have hf := hsame r
    exact ⟨hf.id, hf.projectId, hf.userId, hf.resource, hf.deleted⟩
  · rw [written_ne hr]
    exact SameKey.refl r

/-- Writing a row leaves it where it is. -/
theorem pick_writeRow (hid : ∀ r, (f r).id = r.id) (hsame : ∀ r, SameKey r (f r))
    (project user : Option String) (res : String) :
    pick (writeRow now t id f hid) project user res =
      (pick t project user res).map (written now id f) := by
  unfold pick
  rw [← List.getLast?_map]
  show ((t.rows.map (written now id f)).filter _).getLast? = _
  rw [List.filter_map]
  congr 2
  apply List.filter_congr
  intro r _
  exact (sameKey_written now id hsame r).visible project user res

theorem pick_writeRow_id (now : Int) (t : UsageTable) (id : Nat) (hid : ∀ r, (f r).id = r.id)
    (hsame : ∀ r, SameKey r (f r)) (project user : Option String) (res : String) :
    (pick (writeRow now t id f hid) project user res).map QuotaUsage.id =
      (pick t project user res).map QuotaUsage.id := by
  rw [pick_writeRow hid hsame, Option.map_map]
  congr 1
  funext r
  exact (sameKey_written now id hsame r).id

end

/-- A new row is picked, if it may be. -/
theorem pick_insert (t : UsageTable) (row : Nat → QuotaUsage) (hid : ∀ id, (row id).id = id)
    (project user : Option String) (res : String) :
    pick (t.insert row hid) project user res =
      if visible project user res (row t.next) then some (row t.next)
      else pick t project user res := by
  unfold pick
  show ((t.rows ++ [row t.next]).filter _).getLast? = _
  rw [List.filter_append]
  split
  · next h => rw [List.filter_cons_of_pos h, List.filter_nil, List.getLast?_concat]
  · next h => rw [List.filter_cons_of_neg h, List.filter_nil, List.append_nil]

/-! ## What a refresh does -/

/-- Rows of the resources in `PER_PROJECT_QUOTAS` have no user. -/
def PerProject (t : UsageTable) : Prop :=
  ∀ r ∈ t.rows, r.deleted = false → r.resource ∈ perProjectQuotas → r.userId = none

theorem PerProject.writeRow {t : UsageTable} (h : PerProject t) {now : Int} {id : Nat}
    {f : QuotaUsage → QuotaUsage} (hid : ∀ r, (f r).id = r.id) (hsame : ∀ r, SameKey r (f r)) :
    PerProject (writeRow now t id f hid) := by
  intro r' hr' hlive hres
  obtain ⟨r, hr, rfl⟩ := (mem_writeRow hid).mp hr'
  have hkey := sameKey_written now id hsame r
  rw [hkey.deleted] at hlive
  rw [hkey.resource] at hres
  rw [hkey.userId]
  exact h r hr hlive hres

/-- **What a refresh of the rows of `t` has done so far.** The picks are valid;
the old rows are there, with the last count that was written for them, if any;
new rows are empty but for such a count; counts are written to picked rows only;
and a row that some user's request would have picked still is, if the request has
a user. -/
structure Refreshed (t : UsageTable) (s : Refresh) : Prop where
  picks : ∀ res, s.userUsages.lookup res =
    (pick s.usages env.project env.user res).map QuotaUsage.id
  old : ∀ r ∈ t.rows, ∃ r' ∈ s.usages.rows, SameKey r r' ∧ r'.reserved = r.reserved ∧
    r'.inUse = (s.synced.lookup r.id).getD r.inUse
  known : ∀ r' ∈ s.usages.rows, r'.id < t.next → ∃ r ∈ t.rows, r.id = r'.id
  created : ∀ r' ∈ s.usages.rows, t.next ≤ r'.id → r'.projectId = env.project ∧
    r'.userId = env.rowUser r'.resource ∧ r'.reserved = 0 ∧ r'.deleted = false ∧
    r'.inUse = (s.synced.lookup r'.id).getD 0
  next : t.next ≤ s.usages.next
  synced : ∀ id v, s.synced.lookup id = some v →
    ∃ res r, pick s.usages env.project env.user res = some r ∧ r.id = id
  perProject : PerProject t → PerProject s.usages
  stable : PerProject t → env.user ≠ none → ∀ p u res id,
    (pick t p u res).map QuotaUsage.id = some id →
      (pick s.usages p u res).map QuotaUsage.id = some id

/-- Before the refresh. -/
theorem refreshed_start (t : UsageTable) :
    Refreshed env t ⟨t, (getProjectUserQuotaUsages t env.project env.user).2, []⟩ where
  picks := lookup_userUsages t env.project env.user
  old := fun r hr => ⟨r, hr, SameKey.refl r, rfl, rfl⟩
  known := fun r' hr' _ => ⟨r', hr', rfl⟩
  created := fun r' hr' hle => absurd (t.below r' hr') (by omega)
  next := Nat.le_refl _
  synced := fun id v h => by cases h
  perProject := fun h => h
  stable := fun _ _ _ _ _ _ h => h

section

variable {env} {t : UsageTable} {s : Refresh}

/-- Writing a picked row, with the count that is recorded for it. -/
theorem Refreshed.write (h : Refreshed env t s) {id : Nat} {res : String}
    (hpicked : s.userUsages.lookup res = some id) {f : QuotaUsage → QuotaUsage}
    (hid : ∀ r, (f r).id = r.id) (hsame : ∀ r, SameKey r (f r))
    (hreserved : ∀ r, (f r).reserved = r.reserved) {synced : List (Nat × Int)}
    (hother : ∀ n ≠ id, synced.lookup n = s.synced.lookup n)
    (hcount : ∀ r d, r.inUse = (s.synced.lookup id).getD d →
      (f r).inUse = (synced.lookup id).getD d) :
    Refreshed env t ⟨writeRow env.now s.usages id f hid, s.userUsages, synced⟩ := by
  -- what becomes of a row
  have hrow : ∀ r d, r.inUse = (s.synced.lookup r.id).getD d →
      (written env.now id f r).reserved = r.reserved ∧
      (written env.now id f r).inUse = (synced.lookup r.id).getD d := by
    intro r d hd
    by_cases hr : r.id = id
    · obtain ⟨stamp, hwritten⟩ := written_eq env.now f hr
      rw [hr] at hd ⊢
      rw [hwritten]
      exact ⟨hreserved r, hcount r d hd⟩
    · rw [written_ne hr, hother _ hr]
      exact ⟨rfl, hd⟩
  have hkey := sameKey_written env.now id hsame
  have hpick := pick_writeRow_id env.now s.usages id hid hsame
  constructor
  case picks =>
    intro res'
    rw [hpick, h.picks]
  case old =>
    intro r hr
    obtain ⟨r₁, hr₁, hrr₁, hres, hcnt⟩ := h.old r hr
    rw [← hrr₁.id] at hcnt
    obtain ⟨hres₂, hcnt₂⟩ := hrow r₁ r.inUse hcnt
    refine ⟨_, (mem_writeRow hid).mpr ⟨r₁, hr₁, rfl⟩, hrr₁.trans (hkey r₁), hres₂.trans hres, ?_⟩
    rw [hcnt₂, hrr₁.id]
  case known =>
    intro r' hr' hlt
    obtain ⟨r₁, hr₁, rfl⟩ := (mem_writeRow hid).mp hr'
    rw [(hkey r₁).id] at hlt ⊢
    exact h.known r₁ hr₁ hlt
  case created =>
    intro r' hr' hle
    obtain ⟨r₁, hr₁, rfl⟩ := (mem_writeRow hid).mp hr'
    have hs := hkey r₁
    rw [hs.id] at hle ⊢
    obtain ⟨hp, hu, hres, hd, hcnt⟩ := h.created r₁ hr₁ hle
    obtain ⟨hres₂, hcnt₂⟩ := hrow r₁ 0 hcnt
    refine ⟨hs.projectId.trans hp, ?_, hres₂.trans hres, hs.deleted.trans hd, hcnt₂⟩
    rw [hs.userId, hs.resource, hu]
  case next =>
    exact h.next
  case synced =>
    intro n v hn
    have hexists : ∃ res r, pick s.usages env.project env.user res = some r ∧ r.id = n := by
      by_cases hnid : n = id
      · have hp := h.picks res
        rw [hpicked] at hp
        obtain ⟨r, hr, hrid⟩ := Option.map_eq_some_iff.mp hp.symm
        exact ⟨res, r, hr, hrid.trans hnid.symm⟩
      · rw [hother n hnid] at hn
        exact h.synced n v hn
    obtain ⟨res', r, hr, hrid⟩ := hexists
    refine ⟨res', _, (pick_writeRow hid hsame _ _ _).trans (congrArg _ hr), ?_⟩
    exact (hkey r).id.trans hrid
  case perProject =>
    intro hper
    exact (h.perProject hper).writeRow hid hsame
  case stable =>
    intro hper huser p u res' n hn
    rw [hpick]
    exact h.stable hper huser p u res' n hn

/-- The row that is added is picked for its resource, and for no other. -/
theorem pick_create (env : RefreshEnv) (t : UsageTable) (res q : String) :
    pick (t.insert (quotaUsageCreate env res) (quotaUsageCreate_id env res)) env.project env.user q
      = if q = res then some (quotaUsageCreate env res t.next)
        else pick t env.project env.user q := by
  rw [pick_insert]
  by_cases hq : q = res
  · have hrowUser : env.rowUser res = none ∨ env.rowUser res = env.user := by
      unfold RefreshEnv.rowUser
      split
      · exact Or.inl rfl
      · exact Or.inr rfl
    rw [if_pos hq, if_pos]
    simpa [visible, ofProject, ofUser, quotaUsageCreate, hq] using hrowUser
  · rw [if_neg hq, if_neg]
    intro hv
    simp only [visible, Bool.and_eq_true, beq_iff_eq] at hv
    exact hq hv.2.symm

/-- A request that would pick the row to be added picks none before. -/
theorem Refreshed.new_not_visible (h : Refreshed env t s) {res : String}
    (hnone : pick s.usages env.project env.user res = none) (hper : PerProject t)
    (huser : env.user ≠ none) {p : Option String} {u : Option String} {res' : String} {n : Nat}
    (hold : (pick s.usages p u res').map QuotaUsage.id = some n) :
    ¬ visible p u res' (quotaUsageCreate env res s.usages.next) = true := by
  intro hv
  obtain ⟨r, hr, -⟩ := Option.map_eq_some_iff.mp hold
  obtain ⟨hmem, hvis⟩ := pick_some hr
  obtain ⟨⟨hp, hu⟩, hres⟩ : (env.project = p ∧ (env.rowUser res = none ∨
      env.rowUser res = u)) ∧ res = res' := by
    simpa [visible, ofProject, ofUser, quotaUsageCreate] using hv
  obtain ⟨⟨⟨hlive, hrp⟩, hru⟩, hrres⟩ : (((r.deleted = false ∧ r.projectId = p) ∧
      (r.userId = none ∨ r.userId = u)) ∧ r.resource = res') := by
    simpa [visible, ofProject, ofUser] using hvis
  have hown : r.userId = none ∨ r.userId = env.user := by
    unfold RefreshEnv.rowUser at hu
    split at hu
    · next hmemRes =>
      exact Or.inl (h.perProject hper r hmem hlive (by rwa [hrres, ← hres]))
    · rcases hu with hu | hu
      · exact absurd hu huser
      · rwa [hu]
  have hvisible : visible env.project env.user res r = true := by
    simpa [visible, ofProject, ofUser, hlive, hrp, hp, hrres, hres] using hown
  rw [pick_eq_none.mp hnone r hmem] at hvisible
  cases hvisible

/-- Adding a row for a resource without one. -/
theorem Refreshed.create (h : Refreshed env t s) {res : String}
    (hnone : s.userUsages.lookup res = none) :
    Refreshed env t ⟨s.usages.insert (quotaUsageCreate env res) (quotaUsageCreate_id env res),
      Dict.set res s.usages.next s.userUsages, s.synced⟩ := by
  have hid := quotaUsageCreate_id env res
  have hpicknone : pick s.usages env.project env.user res = none := by
    have hp := h.picks res
    rw [hnone] at hp
    exact Option.map_eq_none_iff.mp hp.symm
  have hpicks : ∀ res', res' ≠ res →
      pick (s.usages.insert (quotaUsageCreate env res) hid) env.project env.user res' =
        pick s.usages env.project env.user res' := by
    intro res' hne
    rw [pick_create, if_neg hne]
  constructor
  case picks =>
    intro res'
    by_cases hres : res' = res
    · rw [hres, Dict.lookup_set_self, pick_create, if_pos rfl]
      rfl
    · rw [Dict.lookup_set_ne hres, hpicks res' hres, h.picks]
  case old =>
    intro r hr
    obtain ⟨r', hr', hsame⟩ := h.old r hr
    exact ⟨r', (Table.mem_insert hid).mpr (Or.inl hr'), hsame⟩
  case known =>
    intro r' hr' hlt
    rcases (Table.mem_insert hid).mp hr' with hr' | rfl
    · exact h.known r' hr' hlt
    · have hle := h.next
      have hnext := hid s.usages.next
      omega
  case created =>
    intro r' hr' hle
    rcases (Table.mem_insert hid).mp hr' with hr' | rfl
    · exact h.created r' hr' hle
    · -- no count was written for an id that was not given out
      have hsync : s.synced.lookup s.usages.next = none := by
        cases hl : s.synced.lookup s.usages.next with
        | none => rfl
        | some v =>
          obtain ⟨res', r, hr, hrid⟩ := h.synced _ v hl
          exact absurd hrid (s.usages.key_ne_next (pick_some hr).1)
      refine ⟨rfl, rfl, rfl, rfl, ?_⟩
      show (0 : Int) = (s.synced.lookup s.usages.next).getD 0
      rw [hsync]
      rfl
  case next =>
    have hle := h.next
    show t.next ≤ s.usages.next + 1
    omega
  case synced =>
    intro n v hn
    obtain ⟨res', r, hr, hrid⟩ := h.synced n v hn
    have hne : res' ≠ res := by
      rintro rfl
      rw [hpicknone] at hr
      cases hr
    exact ⟨res', r, (hpicks res' hne).trans hr, hrid⟩
  case perProject =>
    intro hper r hr hlive hres
    rcases (Table.mem_insert hid).mp hr with hr | rfl
    · exact h.perProject hper r hr hlive hres
    · exact if_pos hres
  case stable =>
    intro hper huser p u res' n hn
    have hold := h.stable hper huser p u res' n hn
    rw [pick_insert, if_neg]
    · exact hold
    · exact h.new_not_visible hpicknone hper huser hold

theorem Refreshed.createIfMissing (h : Refreshed env t s) (res : String) :
    Refreshed env t (createQuotaUsageIfMissing env res s).1 := by
  unfold createQuotaUsageIfMissing
  split
  · exact h
  · next hnone => exact h.create hnone

theorem Refreshed.refreshQuotaUsages (h : Refreshed env t s) (res : String) (inUse : Int) :
    Refreshed env t (refreshQuotaUsages env res inUse s) := by
  unfold Quota.refreshQuotaUsages
  split
  · exact h
  · next id hpicked =>
    refine h.write hpicked (f := fun r =>
      { r with inUse := inUse, untilRefresh := orNone env.untilRefresh }) (fun _ => rfl)
      (fun _ => ⟨rfl, rfl, rfl, rfl, rfl⟩) (fun _ => rfl) ?_ ?_
    · intro n hn
      exact Dict.lookup_cons_ne hn.symm inUse s.synced
    · intro r d _
      rw [List.lookup_cons_self]
      rfl

theorem Refreshed.applyUpdates (updates : List (String × Int)) :
    ∀ {s : Refresh} {work : List String}, Refreshed env t s →
      Refreshed env t (updates.foldl (applyUpdate env) (s, work)).1 := by
  induction updates with
  | nil =>
    intro s work h
    exact h
  | cons update updates ih =>
    intro s work h
    exact ih ((h.createIfMissing update.1).refreshQuotaUsages update.1 update.2)

/-- The picked row is the one a new request would pick. -/
theorem Refreshed.picked_eq (h : Refreshed env t s) (res : String) :
    s.picked res = pick s.usages env.project env.user res := by
  unfold Refresh.picked
  rw [h.picks]
  cases hp : pick s.usages env.project env.user res with
  | none => rfl
  | some r => exact s.usages.byId_iff.mpr ⟨(pick_some hp).1, rfl⟩

theorem lookup_of_picked {res : String} {r : QuotaUsage} (hr : s.picked res = some r) :
    s.userUsages.lookup res = some r.id := by
  obtain ⟨id, hid, hbyId⟩ := Option.bind_eq_some_iff.mp hr
  rw [hid, (s.usages.byId_iff.mp hbyId).2]

theorem Refreshed.check (h : Refreshed env t s) {res : String} {out : Refresh × Bool}
    (hcheck : checkRefresh env res s = .ok out) : Refreshed env t out.1 := by
  unfold checkRefresh at hcheck
  split at hcheck
  · cases hcheck
  · next row hrow =>
    cases hcheck
    exact h.write (lookup_of_picked hrow)
      (f := fun r => { r with untilRefresh := (isQuotaRefreshNeeded env row).2 }) (fun _ => rfl)
      (fun _ => ⟨rfl, rfl, rfl, rfl, rfl⟩) (fun _ => rfl) (fun _ _ => rfl) (fun _ _ hd => hd)

theorem Refreshed.due (h : Refreshed env t s) {force created : Bool} {res : String}
    {out : Refresh × Bool} (hout : refreshDue env force res (s, created) = .ok out) :
    Refreshed env t out.1 := by
  unfold refreshDue at hout
  split at hout
  · cases hout
    exact h
  · exact h.check hout

theorem Refreshed.sync (h : Refreshed env t s) {work : List String} {res : String}
    {out : Refresh × List String} (hout : syncResource env res (s, work) = .ok out) :
    Refreshed env t out.1 := by
  unfold syncResource at hout
  split at hout
  · cases hout
  · cases hout
    exact h.applyUpdates _

theorem Refreshed.resource (h : Refreshed env t s) {force : Bool} {work : List String}
    {res : String} {out : Refresh × List String}
    (hout : refreshResource env force (s, work) res = .ok out) : Refreshed env t out.1 := by
  unfold refreshResource at hout
  split at hout
  · cases hout
    exact h
  · obtain ⟨due, hdue, hout⟩ := Fallible.bind_ok_iff.mp hout
    have hrefreshed : Refreshed env t due.1 := (h.createIfMissing res).due hdue
    split at hout
    · exact hrefreshed.sync hout
    · cases hout
      exact hrefreshed

/-- **A refresh**, whatever it is asked for. -/
theorem refresh_spec {force : Bool} {keys : List String}
    (h : refreshQuotaUsagesIfNeeded env force keys
      ⟨t, (getProjectUserQuotaUsages t env.project env.user).2, []⟩ = .ok s) :
    Refreshed env t s := by
  obtain ⟨st, hst, hs⟩ := Fallible.bind_ok_iff.mp h
  cases hs
  let I : List String → Refresh × List String → Prop := fun _ st => Refreshed env t st.1
  have hround : ∀ {res order st st'}, I (res :: order) st →
      refreshResource env force st res = .ok st' → I order st' :=
    fun hst hone => Refreshed.resource hst hone
  exact Fallible.foldlM_ok hround (show I env.order _ from refreshed_start env t) hst

end

end PolarBear.Quota
