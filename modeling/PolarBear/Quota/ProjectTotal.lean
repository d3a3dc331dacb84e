import PolarBear.Quota.Reserve

/-!
# The total of a project through a refresh

`reported` is the last count that the sync functions report on a resource, from
the tables a request starts with; `Tracks` says that the refresh writes this
count and changes nothing else in the total of the project.
-/

namespace PolarBear.Quota

/-- A row that counts for a resource of a project. -/
def counted (project : Option String) (res : String) (r : QuotaUsage) : Bool :=
  ofProject project r && r.resource == res

/-- The total of a resource over all live rows of a project. -/
def projectSum (t : UsageTable) (project : Option String) (res : String) : Int :=
  sumWhere (counted project res) QuotaUsage.total t.rows

/-- A number of the row that a request picks, 0 if there is none. -/
def own (w : QuotaUsage → Int) (t : UsageTable) (project user : Option String) (res : String) :
    Int :=
  ((pick t project user res).map w).getD 0

theorem own_some {w : QuotaUsage → Int} {t : UsageTable} {project user : Option String}
    {res : String} {r : QuotaUsage} (h : pick t project user res = some r) :
    own w t project user res = w r := by
  unfold own
  rw [h]
  rfl

theorem own_none {w : QuotaUsage → Int} {t : UsageTable} {project user : Option String}
    {res : String} (h : pick t project user res = none) : own w t project user res = 0 := by
  unfold own
  rw [h]
  rfl

/-! ## What is reported -/

variable (env : RefreshEnv)

/-- A resource that is due for a refresh, if its turn comes. -/
def due (t : UsageTable) (res : String) : Bool :=
  match pick t env.project env.user res with
  | none => true
  | some row => (isQuotaRefreshNeeded env row).1

/-- A report on a resource takes the place of earlier ones. -/
def report (res : String) (v : Option Int) (update : String × Int) : Option Int :=
  if update.1 = res then some update.2 else v

/-- A turn: the last report on `res`, and the resources whose turn is to come. -/
def reportStep (t : UsageTable) (res : String) (st : Option Int × List String) (q : String) :
    Option Int × List String :=
  if q ∉ st.2 then st
  else
    let work := st.2.filter (fun w => w != q)
    if due env t q then
      let updates := (env.sync q).getD []
      (updates.foldl (report res) st.1,
        updates.foldl (fun work update => work.filter (fun w => w != update.1)) work)
    else (st.1, work)

/-- **The count** that the sync functions of a request leave for a resource, if
one reports on it. -/
def reported (t : UsageTable) (keys : List String) (res : String) : Option Int :=
  (env.order.foldl (reportStep env t res) (none, keys)).1

/-- What the reports add to the row of the user. -/
def growth (t : UsageTable) (keys : List String) (res : String) : Int :=
  let used := own QuotaUsage.inUse t env.project env.user res
  (reported env t keys res).getD used - used

/-! ## The total through a refresh -/

theorem projectSum_writeRow {t : UsageTable} {r : QuotaUsage} (hr : r ∈ t.rows)
    {f : QuotaUsage → QuotaUsage} (hid : ∀ r, (f r).id = r.id) (hsame : ∀ r, SameKey r (f r))
    (now : Int) (project : Option String) (res : String) :
    projectSum (writeRow now t r.id f hid) project res =
      projectSum t project res +
        if counted project res r then (f r).total - r.total else 0 := by
  have hcounted : ∀ s, counted project res (QuotaUsage.write now f s) = counted project res s := by
    intro s
    obtain ⟨stamp, hwrite⟩ := write_eq now f s
    have hs := hsame s
    unfold counted ofProject
    rw [hwrite]
    show (!(f s).deleted && (f s).projectId == project && (f s).resource == res) = _
    rw [hs.deleted, hs.projectId, hs.resource]
  have htotal : (QuotaUsage.write now f r).total = (f r).total := by
    obtain ⟨stamp, hwrite⟩ := write_eq now f r
    rw [hwrite]
    rfl
  rw [← htotal]
  exact sumWhere_modify hr (write_id now hid) hcounted QuotaUsage.total

theorem projectSum_insert (t : UsageTable) {row : Nat → QuotaUsage}
    (hid : ∀ id, (row id).id = id) (project : Option String) (res : String) :
    projectSum (t.insert row hid) project res =
      projectSum t project res +
        if counted project res (row t.next) then (row t.next).total else 0 := by
  show sumWhere _ _ (t.rows ++ [row t.next]) = _
  rw [sumWhere_append, sumWhere_cons, sumWhere_nil, Int.add_zero]
  rfl

section

variable {env}

/-- A picked row counts for its resource only. -/
theorem counted_of_pick {t : UsageTable} {project user : Option String} {q : String}
    {r : QuotaUsage} (h : pick t project user q = some r) (res : String) :
    counted project res r = decide (q = res) := by
  obtain ⟨⟨hproject, -⟩, hres⟩ :
      (ofProject project r = true ∧ ofUser user r = true) ∧ r.resource = q := by
    simpa [visible] using (pick_some h).2
  unfold counted
  rw [hproject, hres, Bool.true_and]
  exact (Bool.beq_eq_decide_eq q res)

/-- Writing the picked row of a resource leaves the other picks. -/
theorem pick_writeRow_ne {t : UsageTable} {project user : Option String} {q : String}
    {r : QuotaUsage} (hpick : pick t project user q = some r) {f : QuotaUsage → QuotaUsage}
    (hid : ∀ r, (f r).id = r.id) (hsame : ∀ r, SameKey r (f r)) (now : Int) {q' : String}
    (hne : q' ≠ q) :
    pick (writeRow now t r.id f hid) project user q' = pick t project user q' := by
  rw [pick_writeRow hid hsame]
  cases hpick' : pick t project user q' with
  | none => rfl
  | some r' =>
    have hrid : r'.id ≠ r.id := by
      intro h
      obtain ⟨hr', hvisible'⟩ := pick_some hpick'
      obtain ⟨hr, hvisible⟩ := pick_some hpick
      obtain rfl : r' = r := t.eq_of_key hr' hr h
      simp only [visible, Bool.and_eq_true, beq_iff_eq] at hvisible hvisible'
      exact hne (hvisible'.2.symm.trans hvisible.2)
    exact congrArg some (written_ne hrid)

/-- **What a refresh has done to the total so far**, `v` being the last report and
`work` the resources whose turn is to come: these are as they were, the picked row
of `res` has the reported count, and the rest of the total is unchanged. -/
structure Tracks (env : RefreshEnv) (t : UsageTable) (res : String) (s : UsageTable)
    (v : Option Int) (work : List String) : Prop where
  undone : ∀ q ∈ work, pick s env.project env.user q = pick t env.project env.user q
  missing : pick s env.project env.user res = none →
    pick t env.project env.user res = none ∧ v = none
  count : ∀ r, pick s env.project env.user res = some r →
    r.inUse = v.getD (own QuotaUsage.inUse t env.project env.user res) ∧
    r.reserved = own QuotaUsage.reserved t env.project env.user res
  rest : projectSum s env.project res - own QuotaUsage.total s env.project env.user res =
    projectSum t env.project res - own QuotaUsage.total t env.project env.user res

variable {t s : UsageTable} {res : String} {v v' : Option Int} {work work' : List String}

theorem tracks_start (env : RefreshEnv) (t : UsageTable) (res : String) (work : List String) :
    Tracks env t res t none work where
  undone := fun _ _ => rfl
  missing := fun h => ⟨h, rfl⟩
  count := by
    intro r hr
    exact ⟨(own_some hr).symm, (own_some hr).symm⟩
  rest := rfl

/-- Writing the picked row of a resource whose turn is over. -/
theorem Tracks.write (h : Tracks env t res s v work) {q : String} {r : QuotaUsage}
    (hpick : pick s env.project env.user q = some r) {f : QuotaUsage → QuotaUsage}
    (hid : ∀ r, (f r).id = r.id) (hsame : ∀ r, SameKey r (f r))
    (hreserved : ∀ r, (f r).reserved = r.reserved)
    (hcount : q = res →
      (f r).inUse = v'.getD (own QuotaUsage.inUse t env.project env.user res))
    (hother : q ≠ res → v' = v) (hwork : ∀ w ∈ work', w ∈ work ∧ w ≠ q) :
    Tracks env t res (writeRow env.now s r.id f hid) v' work' := by
  obtain ⟨hmem, -⟩ := pick_some hpick
  have hself : pick (writeRow env.now s r.id f hid) env.project env.user q =
      some (written env.now r.id f r) := by
    rw [pick_writeRow hid hsame, hpick]
    rfl
  obtain ⟨stamp, hwritten⟩ := written_eq env.now f (rfl : r.id = r.id)
  have hsum := projectSum_writeRow hmem hid hsame env.now env.project res
  rw [counted_of_pick hpick res] at hsum
  have hundone : ∀ w ∈ work', pick (writeRow env.now s r.id f hid) env.project env.user w =
      pick t env.project env.user w := by
    intro w hw
    obtain ⟨hold, hne⟩ := hwork w hw
    rw [pick_writeRow_ne hpick hid hsame env.now hne]
    exact h.undone w hold
  by_cases hq : q = res
  · subst hq
    refine ⟨hundone, ?_, ?_, ?_⟩
    · intro hnone
      rw [hself] at hnone
      cases hnone
    · intro r' hr'
      rw [hself] at hr'
      cases hr'
      rw [hwritten]
      exact ⟨hcount rfl, (hreserved r).trans (h.count r hpick).2⟩
    · have hrest := h.rest
      have hown : own QuotaUsage.total (writeRow env.now s r.id f hid) env.project env.user q =
          (f r).total := by
        rw [own_some hself, hwritten]
        rfl
      have hown' : own QuotaUsage.total s env.project env.user q = r.total := own_some hpick
      rw [if_pos (decide_eq_true rfl)] at hsum
      rw [hown, hsum]
      rw [hown'] at hrest
      omega
  · have hres := pick_writeRow_ne hpick hid hsame env.now (fun h => hq h.symm : res ≠ q)
    rw [hother hq]
    refine ⟨hundone, ?_, ?_, ?_⟩
    · rw [hres]
      exact h.missing
    · rw [hres]
      exact h.count
    · rw [if_neg (by simpa using hq), Int.add_zero] at hsum
      unfold own
      rw [hres, hsum]
      exact h.rest

/-- Adding the row of a resource without one, whose turn is over. -/
theorem Tracks.create (h : Tracks env t res s v work) {q : String}
    (hnone : pick s env.project env.user q = none) (hwork : ∀ w ∈ work', w ∈ work ∧ w ≠ q) :
    Tracks env t res (s.insert (quotaUsageCreate env q) (quotaUsageCreate_id env q)) v work' := by
  have hpick := pick_create env s q
  have hself : pick (s.insert (quotaUsageCreate env q) (quotaUsageCreate_id env q)) env.project
      env.user q = some (quotaUsageCreate env q s.next) := (hpick q).trans (if_pos rfl)
  have hsum := projectSum_insert s (quotaUsageCreate_id env q) env.project res
  rw [counted_of_pick ((hpick q).trans (if_pos rfl)) res] at hsum
  -- a new row counts nothing
  have hzero : (quotaUsageCreate env q s.next).total = 0 := rfl
  rw [hzero, ite_self, Int.add_zero] at hsum
  have hundone : ∀ w ∈ work', pick (s.insert (quotaUsageCreate env q) (quotaUsageCreate_id env q))
      env.project env.user w = pick t env.project env.user w := by
    intro w hw
    obtain ⟨hold, hne⟩ := hwork w hw
    rw [hpick, if_neg hne]
    exact h.undone w hold
  by_cases hq : q = res
  · subst hq
    obtain ⟨ht, rfl⟩ := h.missing hnone
    refine ⟨hundone, ?_, ?_, ?_⟩
    · intro hnone'
      rw [hself] at hnone'
      cases hnone'
    · intro r hr
      rw [hself] at hr
      cases hr
      exact ⟨(own_none ht).symm, (own_none ht).symm⟩
    · have hrest := h.rest
      rw [own_none hnone] at hrest
      rw [own_some hself, hzero, hsum]
      exact hrest
  · have hne : res ≠ q := fun h => hq h.symm
    refine ⟨hundone, ?_, ?_, ?_⟩
    · rw [hpick, if_neg hne]
      exact h.missing
    · rw [hpick, if_neg hne]
      exact h.count
    · unfold own
      rw [hpick, if_neg hne, hsum]
      exact h.rest

theorem Tracks.mono (h : Tracks env t res s v work) (hwork : ∀ w ∈ work', w ∈ work) :
    Tracks env t res s v work' :=
  ⟨fun w hw => h.undone w (hwork w hw), h.missing, h.count, h.rest⟩

theorem mem_others {q w : String} (h : w ∈ work.filter (fun w => w != q)) : w ∈ work ∧ w ≠ q := by
  obtain ⟨hmem, hne⟩ := List.mem_filter.mp h
  exact ⟨hmem, bne_iff_ne.mp hne⟩

theorem Tracks.createIfMissing {s : Refresh} (h : Tracks env t res s.usages v work)
    (hs : Refreshed env t s) (q : String) :
    Tracks env t res (createQuotaUsageIfMissing env q s).1.usages v
      (work.filter (fun w => w != q)) := by
  unfold createQuotaUsageIfMissing
  split
  · exact h.mono (fun w hw => (mem_others hw).1)
  · next hnone =>
    rw [hs.picks] at hnone
    exact h.create (Option.map_eq_none_iff.mp hnone) (fun w hw => mem_others hw)

/-- One item of a report. -/
theorem Tracks.applyUpdate {s : Refresh} (h : Tracks env t res s.usages v work)
    (hs : Refreshed env t s) (update : String × Int) :
    Tracks env t res (applyUpdate env (s, work) update).1.usages (report res v update)
      (work.filter (fun w => w != update.1)) := by
  have h₁ := h.createIfMissing hs update.1
  have hs₁ := hs.createIfMissing update.1
  show Tracks env t res (refreshQuotaUsages env update.1 update.2
    (createQuotaUsageIfMissing env update.1 s).1).usages _ _
  unfold refreshQuotaUsages
  split
  · next hnone =>
    -- the row was made sure of
    exfalso
    revert hnone
    unfold createQuotaUsageIfMissing
    split
    · next hsome =>
      rw [hsome]
      exact Option.some_ne_none _
    · show ¬ List.lookup update.1 (Dict.set update.1 _ _) = none
      rw [Dict.lookup_set_self]
      exact Option.some_ne_none _
  · next id hlookup =>
    rw [hs₁.picks] at hlookup
    obtain ⟨r, hr, rfl⟩ := Option.map_eq_some_iff.mp hlookup
    refine h₁.write hr (f := fun r =>
      { r with inUse := update.2, untilRefresh := orNone env.untilRefresh }) (fun _ => rfl)
      (fun _ => ⟨rfl, rfl, rfl, rfl, rfl⟩) (fun _ => rfl) ?_ ?_ ?_
    · intro hq
      unfold report
      rw [if_pos hq]
      rfl
    · intro hq
      exact if_neg hq
    · intro w hw
      exact ⟨hw, (mem_others hw).2⟩

theorem Tracks.applyUpdates (updates : List (String × Int)) :
    ∀ {s : Refresh} {v : Option Int} {work : List String}, Tracks env t res s.usages v work →
      Refreshed env t s →
      (updates.foldl (Quota.applyUpdate env) (s, work)).2 =
        updates.foldl (fun work update => work.filter (fun w => w != update.1)) work ∧
      Tracks env t res (updates.foldl (Quota.applyUpdate env) (s, work)).1.usages
        (updates.foldl (report res) v)
        (updates.foldl (fun work update => work.filter (fun w => w != update.1)) work) := by
  induction updates with
  | nil =>
    intro s v work h _
    exact ⟨rfl, h⟩
  | cons update updates ih =>
    intro s v work h hs
    exact ih (h.applyUpdate hs update)
      ((hs.createIfMissing update.1).refreshQuotaUsages update.1 update.2)

/-- Whether a resource is refreshed is decided by the row a request starts with. -/
theorem Tracks.due {s : Refresh} (h : Tracks env t res s.usages v work) (hs : Refreshed env t s)
    {q : String} (hq : q ∈ work) {out : Refresh × Bool}
    (hout : refreshDue env false q (createQuotaUsageIfMissing env q s) = .ok out) :
    out.2 = due env t q ∧
      Tracks env t res out.1.usages v (work.filter (fun w => w != q)) := by
  have hundone := h.undone q hq
  have h₁ := h.createIfMissing hs q
  have hs₁ := hs.createIfMissing q
  have hpicked := hs.picks q
  unfold refreshDue Quota.due at *
  rw [← hundone]
  cases hpick : pick s.usages env.project env.user q with
  | none =>
    -- a new row is always refreshed
    rw [hpick] at hpicked
    have hcreated : (createQuotaUsageIfMissing env q s).2 = true := by
      unfold createQuotaUsageIfMissing
      rw [hpicked]
      rfl
    rw [hcreated] at hout
    cases hout
    exact ⟨rfl, h₁⟩
  | some row =>
    rw [hpick] at hpicked
    have hsame : createQuotaUsageIfMissing env q s = (s, false) := by
      unfold createQuotaUsageIfMissing
      rw [hpicked]
      rfl
    rw [hsame] at hout h₁
    have hout' : checkRefresh env q s = .ok out := hout
    unfold checkRefresh at hout'
    rw [hs.picked_eq, hpick] at hout'
    cases hout'
    refine ⟨rfl, h₁.write hpick
      (f := fun r => { r with untilRefresh := (isQuotaRefreshNeeded env row).2 }) (fun _ => rfl)
      (fun _ => ⟨rfl, rfl, rfl, rfl, rfl⟩) (fun _ => rfl) ?_ (fun _ => rfl) ?_⟩
    · intro hq
      rw [hq] at hpick
      exact (h.count row hpick).1
    · intro w hw
      exact ⟨hw, (mem_others hw).2⟩

/-- A turn. -/
theorem Tracks.resource {s : Refresh} (h : Tracks env t res s.usages v work)
    (hs : Refreshed env t s) {q : String} {out : Refresh × List String}
    (hout : refreshResource env false (s, work) q = .ok out) :
    out.2 = (reportStep env t res (v, work) q).2 ∧
      Tracks env t res out.1.usages (reportStep env t res (v, work) q).1 out.2 := by
  unfold refreshResource at hout
  unfold reportStep
  split at hout
  · next hq =>
    cases hout
    rw [if_pos hq]
    exact ⟨rfl, h⟩
  · next hq =>
    obtain ⟨d, hd, hout⟩ := Fallible.bind_ok_iff.mp hout
    obtain ⟨hdue, htracks⟩ := h.due hs (not_not.mp hq) hd
    rw [if_neg hq]
    rw [hdue] at hout
    split at hout
    · next hyes =>
      unfold syncResource at hout
      split at hout
      · cases hout
      · next updates hsync =>
        cases hout
        obtain ⟨hwork, hend⟩ := htracks.applyUpdates updates ((hs.createIfMissing q).due hd)
        rw [if_pos hyes, hsync, Option.getD_some, hwork]
        exact ⟨rfl, hend⟩
    · next hno =>
      cases hout
      rw [if_neg hno]
      exact ⟨rfl, htracks⟩

/-- **The total after a refresh.** -/
theorem refresh_tracks (res : String) {keys : List String} {s : Refresh}
    (h : refreshQuotaUsagesIfNeeded env false keys
      ⟨t, (getProjectUserQuotaUsages t env.project env.user).2, []⟩ = .ok s) :
    ∃ work, Tracks env t res s.usages (reported env t keys res) work := by
  obtain ⟨out, hout, hs⟩ := Fallible.bind_ok_iff.mp h
  cases hs
  -- what the resources left to do will report is the rest of what is reported in all
  let I : List String → Refresh × List String → Prop := fun order st =>
    Refreshed env t st.1 ∧ ∃ v, Tracks env t res st.1.usages v st.2 ∧
      (order.foldl (reportStep env t res) (v, st.2)).1 = reported env t keys res
  have hround : ∀ {q order st st'}, I (q :: order) st →
      refreshResource env false st q = .ok st' → I order st' := by
    rintro q order ⟨s, work⟩ ⟨s₁, work₁⟩ ⟨hs, v, htracks, hreported⟩ hone
    obtain ⟨hwork, htracks₁⟩ := htracks.resource hs hone
    refine ⟨hs.resource hone, _, htracks₁, ?_⟩
    have hpair : reportStep env t res (v, work) q =
        ((reportStep env t res (v, work) q).1, work₁) := Prod.ext rfl hwork.symm
    rw [List.foldl_cons, hpair] at hreported
    exact hreported
  obtain ⟨-, v, htracks, hreported⟩ := Fallible.foldlM_ok hround
    (show I env.order _ from ⟨refreshed_start env t, _, tracks_start env t res keys, rfl⟩) hout
  exact ⟨out.2, hreported ▸ htracks⟩

theorem own_total (t : UsageTable) (project user : Option String) (res : String) :
    own QuotaUsage.total t project user res =
      own QuotaUsage.inUse t project user res + own QuotaUsage.reserved t project user res := by
  unfold own
  cases pick t project user res <;> rfl

/-- The refresh adds the growth of the user's row. -/
theorem projectSum_refresh {keys : List String} {s : Refresh}
    (h : refreshQuotaUsagesIfNeeded env false keys
      ⟨t, (getProjectUserQuotaUsages t env.project env.user).2, []⟩ = .ok s) (res : String) :
    projectSum s.usages env.project res =
      projectSum t env.project res + growth env t keys res := by
  obtain ⟨work, htracks⟩ := refresh_tracks res h
  have hrest := htracks.rest
  rw [own_total t] at hrest
  unfold growth
  cases hpick : pick s.usages env.project env.user res with
  | none =>
    obtain ⟨ht, hv⟩ := htracks.missing hpick
    unfold own at hrest ⊢
    rw [hpick, ht] at hrest
    rw [hv, ht]
    simp only [Option.map_none, Option.getD_none] at hrest ⊢
    omega
  | some r =>
    obtain ⟨huse, hres⟩ := htracks.count r hpick
    have hown : own QuotaUsage.total s.usages env.project env.user res = r.inUse + r.reserved :=
      own_some hpick
    rw [hown, huse, hres] at hrest
    show _ = projectSum t env.project res + ((reported env t keys res).getD _ - _)
    omega

end

end PolarBear.Quota
