import PolarBear.Quota.ProjectTotal

/-!
# The project limit

`quota_reserve` adds up the totals of the project before it refreshes, and
compares them with the limits afterwards. What the refresh adds to the row it
picked is missing from the comparison with the project's limit, unless the
project had no row of the resource: then the refreshed row is its total.

So the limit is kept where no sync function that is due reports more than the row of
the user has in use, and `admission_kept` has the limit that is missed where all of
them report more.
-/

namespace PolarBear.Quota

variable (env : RefreshEnv)

section

variable {env} {t : UsageTable} {res : String}

/-! ## The total that is checked -/

/-- The total of a resource in the usages of a project. -/
theorem total_projectUsages (t : UsageTable) (project user : Option String) (res : String) :
    ((getProjectUserQuotaUsages t project user).1.lookup res).map ProjectUsage.total =
      if t.rows.any (counted project res) then some (projectSum t project res) else none := by
  have hfold : ∀ (rows : List QuotaUsage) (acc : List (String × ProjectUsage)),
      (((rows.filter (ofProject project)).foldl addToProject acc).lookup res).map
          ProjectUsage.total =
        if rows.any (counted project res) then
          some (((acc.lookup res).map ProjectUsage.total).getD 0 +
            sumWhere (counted project res) QuotaUsage.total rows)
        else (acc.lookup res).map ProjectUsage.total := by
    intro rows
    induction rows with
    | nil =>
      intro acc
      rfl
    | cons row rows ih =>
      intro acc
      rw [List.any_cons, sumWhere_cons]
      by_cases hproject : ofProject project row = true
      · rw [List.filter_cons_of_pos hproject, List.foldl_cons, ih]
        by_cases hres : row.resource = res
        · have hcounted : counted project res row = true := by
            simp [counted, hproject, hres]
          have hadd : ((addToProject acc row).lookup res).map ProjectUsage.total =
              some (((acc.lookup res).map ProjectUsage.total).getD 0 + row.total) := by
            unfold addToProject
            rw [hres, Dict.lookup_set_self]
            cases acc.lookup res <;> rfl
          rw [hadd, hcounted, Bool.true_or, if_pos rfl, if_pos rfl, Option.getD_some]
          split
          · rw [Int.add_assoc]
          · next hnone =>
            rw [sumWhere_eq_zero, Int.add_zero]
            intro r hr hcount
            exact absurd (List.any_eq_true.mpr ⟨r, hr, hcount⟩) hnone
        · have hcounted : counted project res row = false := by
            simp [counted, hres]
          have hadd : (addToProject acc row).lookup res = acc.lookup res :=
            Dict.lookup_set_ne (fun h => hres h.symm) _ _
          rw [hadd, hcounted, Bool.false_or, if_neg Bool.false_ne_true, Int.zero_add]
      · have hcounted : counted project res row = false := by
          simp [counted, hproject]
        rw [List.filter_cons_of_neg hproject, ih, hcounted, Bool.false_or,
          if_neg Bool.false_ne_true, Int.zero_add]
  have h := hfold t.rows []
  rw [List.lookup_nil, Option.map_none, Option.getD_none, Int.zero_add] at h
  exact h

/-- What passes the check. -/
theorem calculateOverquota_ok {projectQuotas userQuotas : List (String × Int)}
    {projectTotal userTotal : String → Option Int} {res : String} {delta limit : Int}
    (hlimit : projectQuotas.lookup res = some limit) (hle : 0 ≤ limit) (hdelta : 0 ≤ delta)
    {deltas : List (String × Int)} (hmem : (res, delta) ∈ deltas)
    (h : calculateOverquota projectQuotas userQuotas projectTotal userTotal deltas = .ok []) :
    ∃ total, projectTotal res = some total ∧ delta + total ≤ limit := by
  have hone : ∀ exceeds,
      isOver projectQuotas userQuotas (projectTotal res) (userTotal res) res delta = .ok exceeds →
      exceeds = false →
      ∃ total, projectTotal res = some total ∧ delta + total ≤ limit := by
    intro exceeds hexceeds hno
    unfold isOver at hexceeds
    rw [if_pos hdelta] at hexceeds
    obtain ⟨project, hproject, hexceeds⟩ := Fallible.bind_ok_iff.mp hexceeds
    split at hexceeds
    · cases hexceeds
      cases hno
    · next hfalse =>
      unfold overLimit at hproject
      rw [hlimit] at hproject
      cases htotal : projectTotal res with
      | none =>
        rw [htotal] at hproject
        have herror : (if 0 ≤ limit then Except.error (QuotaError.keyError res)
          else Except.ok false) = Except.ok project := hproject
        rw [if_pos hle] at herror
        cases herror
      | some total =>
        rw [htotal] at hproject
        cases hproject
        have hnot : ¬ (0 ≤ limit ∧ limit < delta + total) := fun hand =>
          hfalse (decide_eq_true hand)
        exact ⟨total, rfl, by omega⟩
  induction deltas with
  | nil => cases hmem
  | cons d deltas ih =>
    obtain ⟨exceeds, hexceeds, h⟩ := Fallible.bind_ok_iff.mp h
    obtain ⟨overs, hovers, h⟩ := Fallible.bind_ok_iff.mp h
    split at h
    · cases h
    · next hno =>
      cases h
      rcases List.mem_cons.mp hmem with rfl | hmem
      · exact hone exceeds hexceeds (Bool.eq_false_iff.mpr hno)
      · exact ih hmem hovers

/-- What one reservation adds to the total. -/
theorem projectSum_reserveOne {expire : Int} (res : String) {k k' : Booking} {d : String × Int}
    (hpicks : k.Picks env) (h : reserveOne env expire k d = .ok k') :
    projectSum k'.refresh.usages env.project res =
      projectSum k.refresh.usages env.project res + if d.1 == res then max d.2 0 else 0 := by
  obtain ⟨usageId, hlookup, rfl⟩ := reserveOne_ok h
  obtain ⟨r, hpick, rfl⟩ := hpicks.found hlookup
  show projectSum (addReserved env.now k.refresh.usages r.id d.2) env.project res = _
  unfold addReserved
  by_cases hd : 0 < d.2
  · have hsum := projectSum_writeRow (pick_some hpick).1 (f := reserveUsage d.2) (fun _ => rfl)
      (fun _ => ⟨rfl, rfl, rfl, rfl, rfl⟩) env.now env.project res
    have htotal : (reserveUsage d.2 r).total - r.total = max d.2 0 := by
      show r.inUse + (r.reserved + d.2) - (r.inUse + r.reserved) = max d.2 0
      omega
    rw [counted_of_pick hpick, htotal] at hsum
    rw [if_pos hd, hsum, Bool.beq_eq_decide_eq]
  · rw [if_neg hd]
    split <;> omega

/-- What the reservations add to the total. -/
theorem projectSum_reserve {expire : Int} (res : String) {deltas : List (String × Int)}
    {k k' : Booking} (hpicks : k.Picks env)
    (h : deltas.foldlM (reserveOne env expire) k = .ok k') :
    projectSum k'.refresh.usages env.project res = projectSum k.refresh.usages env.project res +
      sumWhere (fun d => d.1 == res) (fun d => max d.2 0) deltas := by
  -- what is reserved and what is left to reserve add up to the same
  let I : List (String × Int) → Booking → Prop := fun left k₁ => k₁.Picks env ∧
    projectSum k₁.refresh.usages env.project res +
        sumWhere (fun d => d.1 == res) (fun d => max d.2 0) left =
      projectSum k.refresh.usages env.project res +
        sumWhere (fun d => d.1 == res) (fun d => max d.2 0) deltas
  have hround : ∀ {d left k₁ k₂}, I (d :: left) k₁ →
      reserveOne env expire k₁ d = .ok k₂ → I left k₂ := by
    rintro d left k₁ k₂ ⟨hpicks₁, hsum⟩ hone
    refine ⟨hpicks₁.reserveOne hone, ?_⟩
    rw [sumWhere_cons] at hsum
    rw [projectSum_reserveOne res hpicks₁ hone, Int.add_assoc]
    exact hsum
  have hend := (Fallible.foldlM_ok hround (show I deltas k from ⟨hpicks, rfl⟩) h).2
  rw [← hend]
  exact (Int.add_zero _).symm

/-- The reservation of one delta. -/
theorem sum_of_delta {res : String} {delta : Int} (hdelta : 0 ≤ delta) :
    ∀ {deltas : List (String × Int)}, (Dict.keys deltas).Nodup → (res, delta) ∈ deltas →
      sumWhere (fun d => d.1 == res) (fun d => max d.2 0) deltas = delta := by
  intro deltas
  induction deltas with
  | nil =>
    intro _ hmem
    cases hmem
  | cons d deltas ih =>
    intro hnodup hmem
    rw [Dict.keys_cons, List.nodup_cons] at hnodup
    rw [sumWhere_cons]
    rcases List.mem_cons.mp hmem with rfl | hmem
    · rw [if_pos (beq_iff_eq.mpr rfl), sumWhere_eq_zero, Int.add_zero]
      · show max delta 0 = delta
        omega
      · intro d hd heq
        have hkey : d.1 ∈ Dict.keys deltas := List.mem_map_of_mem hd
        rw [beq_iff_eq.mp heq] at hkey
        exact absurd hkey hnodup.1
    · have hkey : res ∈ Dict.keys deltas := List.mem_map_of_mem (f := Prod.fst) hmem
      have hne : d.1 ≠ res := fun h => hnodup.1 (h ▸ hkey)
      rw [if_neg (fun h => hne (beq_iff_eq.mp h)), Int.zero_add]
      exact ih hnodup.2 hmem

end

/-! ## A project without a row -/

section

variable {project user : Option String}

theorem projectSum_of_none (hnone : ∀ r ∈ t.rows, counted project res r = false) :
    projectSum t project res = 0 := by
  apply sumWhere_eq_zero
  intro r hr hcounted
  rw [hnone r hr] at hcounted
  cases hcounted

theorem own_of_none (hnone : ∀ r ∈ t.rows, counted project res r = false) :
    own QuotaUsage.total t project user res = 0 := by
  have hpick : pick t project user res = none := by
    rw [pick_eq_none]
    intro r hr
    have hcounted := hnone r hr
    unfold counted at hcounted
    unfold visible
    rw [Bool.and_right_comm, hcounted]
    rfl
  exact own_none hpick

/-- The usages of the project do not have the resource. -/
theorem projectUsages_of_none (hnone : ∀ r ∈ t.rows, counted project res r = false) :
    (getProjectUserQuotaUsages t project user).1.lookup res = none := by
  have hany : ¬ t.rows.any (counted project res) = true := by
    rw [List.any_eq_true]
    rintro ⟨r, hr, hcounted⟩
    rw [hnone r hr] at hcounted
    cases hcounted
  have hlookup := total_projectUsages t project user res
  rw [if_neg hany, Option.map_eq_none_iff] at hlookup
  exact hlookup

end

/-! ## What the sync functions report -/

/-- No sync function that is due for a request reports more on the resource than the row of the
user has in use. -/
def ReportsNoMore (t : UsageTable) (keys : List String) (res : String) : Prop :=
  ∀ q ∈ keys, due env t q = true → ∀ updates, env.sync q = some updates →
    ∀ v, (res, v) ∈ updates → v ≤ own QuotaUsage.inUse t env.project env.user res

/-- Every sync function that is due for a request, and at least one is, reports the count on the
resource; the order of the turns has every resource of the request. -/
structure AllReport (t : UsageTable) (keys : List String) (res : String) (count : Int) : Prop where
  turns : ∀ q ∈ keys, q ∈ env.order
  some_due : ∃ q ∈ keys, due env t q = true
  count : ∀ q ∈ keys, due env t q = true → ∃ updates, env.sync q = some updates ∧
    (res, count) ∈ updates ∧ ∀ v, (res, v) ∈ updates → v = count

section

variable {env} {keys : List String}

theorem report_le {b : Int} {updates : List (String × Int)} (h : ∀ v, (res, v) ∈ updates → v ≤ b) :
    ∀ {v : Option Int}, (∀ n, v = some n → n ≤ b) →
      ∀ n, updates.foldl (report res) v = some n → n ≤ b := by
  induction updates with
  | nil => exact fun hv => hv
  | cons update updates ih =>
    intro v hv
    refine ih (fun n hn => h n (List.mem_cons_of_mem _ hn)) (fun n hn => ?_)
    unfold report at hn
    split at hn
    · next hres =>
      cases hn
      exact h _ (hres ▸ List.mem_cons_self ..)
    · exact hv n hn

/-- The resources whose turn is to come are some of those there were. -/
theorem mem_work_of_reportStep {st : Option Int × List String} {q w : String}
    (h : w ∈ (reportStep env t res st q).2) : w ∈ st.2 := by
  have hfold : ∀ {updates : List (String × Int)} {work : List String},
      w ∈ updates.foldl (fun work update => work.filter (fun w => w != update.1)) work →
        w ∈ work := by
    intro updates
    induction updates with
    | nil => exact fun h => h
    | cons update updates ih => exact fun h => (mem_others (ih h)).1
  unfold reportStep at h
  split at h
  · exact h
  · split at h
    · exact (mem_others (hfold h)).1
    · exact (mem_others h).1

/-- What is reported in the end is no more than the row has in use. -/
theorem reported_le (h : ReportsNoMore env t keys res) :
    ∀ n, reported env t keys res = some n →
      n ≤ own QuotaUsage.inUse t env.project env.user res := by
  have hfold : ∀ (order : List String) (st : Option Int × List String), (∀ w ∈ st.2, w ∈ keys) →
      (∀ n, st.1 = some n → n ≤ own QuotaUsage.inUse t env.project env.user res) →
      ∀ n, (order.foldl (reportStep env t res) st).1 = some n →
        n ≤ own QuotaUsage.inUse t env.project env.user res := by
    intro order
    induction order with
    | nil => exact fun st _ hst => hst
    | cons q order ih =>
      intro st hwork hst
      refine ih _ (fun w hw => hwork w (mem_work_of_reportStep hw)) (fun n hn => ?_)
      unfold reportStep at hn
      split at hn
      · exact hst n hn
      · next hq =>
        split at hn
        · next hdue =>
          refine report_le (fun v hv => ?_) hst n hn
          cases hsync : env.sync q with
          | none =>
            rw [hsync] at hv
            cases hv
          | some updates =>
            rw [hsync] at hv
            exact h q (hwork q (not_not.mp hq)) hdue updates hsync v hv
        · exact hst n hn
  exact hfold env.order _ (fun w hw => hw) (fun n hn => by cases hn)

/-- The last report counts, whatever was reported before. -/
theorem report_all {count : Int} {updates : List (String × Int)}
    (h : ∀ v, (res, v) ∈ updates → v = count) {v : Option Int}
    (hsome : v = some count ∨ (res, count) ∈ updates) :
    updates.foldl (report res) v = some count := by
  induction updates generalizing v with
  | nil => exact hsome.resolve_right List.not_mem_nil
  | cons update updates ih =>
    refine ih (fun n hn => h n (List.mem_cons_of_mem _ hn)) ?_
    unfold report
    by_cases hres : update.1 = res
    · rw [if_pos hres, h update.2 (hres ▸ List.mem_cons_self ..)]
      exact .inl rfl
    · rw [if_neg hres]
      refine hsome.imp_right (fun hmem => ?_)
      rcases List.mem_cons.mp hmem with rfl | hmem
      · exact absurd rfl hres
      · exact hmem

/-- One turn, where all that is reported is one count: it stays, or it is reported, or nothing
that is due is dropped from the work. -/
theorem reportStep_all {count : Int} (h : AllReport env t keys res count)
    {st : Option Int × List String} (hwork : ∀ w ∈ st.2, w ∈ keys) (q : String) :
    (st.1 = some count → (reportStep env t res st q).1 = some count) ∧
    ((∀ w ∈ keys, due env t w = true → w ∈ st.2) → (reportStep env t res st q).1 = some count ∨
      ((q ∈ keys → due env t q = false) ∧
        ∀ w ∈ keys, due env t w = true → w ∈ (reportStep env t res st q).2)) := by
  unfold reportStep
  split
  · next hq =>
    refine ⟨fun hst => hst, fun hleft => .inr ⟨fun hmem => ?_, hleft⟩⟩
    exact Bool.eq_false_iff.mpr (fun hdue => hq (hleft q hmem hdue))
  · next hq =>
    split
    · next hdue =>
      obtain ⟨updates, hsync, hmem, hcount⟩ := h.count q (hwork q (not_not.mp hq)) hdue
      rw [hsync]
      have hreport : ∀ v, updates.foldl (report res) v = some count :=
        fun v => report_all hcount (.inr hmem)
      exact ⟨fun _ => hreport _, fun _ => .inl (hreport _)⟩
    · next hdue =>
      refine ⟨fun hst => hst, fun hleft => .inr ⟨fun _ => Bool.eq_false_iff.mpr hdue, ?_⟩⟩
      intro w hw hdue'
      refine List.mem_filter.mpr ⟨hleft w hw hdue', bne_iff_ne.mpr (fun heq => ?_)⟩
      exact hdue (heq ▸ hdue')

/-- **One count**: the first sync function that gets its turn reports it, and none reports
another. -/
theorem reported_eq {count : Int} (h : AllReport env t keys res count) :
    reported env t keys res = some count := by
  have hstays : ∀ (order : List String) (st : Option Int × List String),
      (∀ w ∈ st.2, w ∈ keys) → st.1 = some count →
      (order.foldl (reportStep env t res) st).1 = some count := by
    intro order
    induction order with
    | nil => exact fun st _ hst => hst
    | cons q order ih =>
      intro st hwork hst
      exact ih _ (fun w hw => hwork w (mem_work_of_reportStep hw))
        ((reportStep_all h hwork q).1 hst)
  have hfold : ∀ (order : List String) (st : Option Int × List String),
      (∀ w ∈ st.2, w ∈ keys) → (∀ w ∈ keys, due env t w = true → w ∈ st.2) →
      (order.foldl (reportStep env t res) st).1 = some count ∨
        ∀ q ∈ order, q ∈ keys → due env t q = false := by
    intro order
    induction order with
    | nil => exact fun st _ _ => .inr (fun q hq => absurd hq List.not_mem_nil)
    | cons q order ih =>
      intro st hwork hleft
      have hwork' : ∀ w ∈ (reportStep env t res st q).2, w ∈ keys :=
        fun w hw => hwork w (mem_work_of_reportStep hw)
      rcases (reportStep_all h hwork q).2 hleft with hcount | ⟨hq, hleft'⟩
      · exact .inl (hstays order _ hwork' hcount)
      · refine (ih _ hwork' hleft').imp_right (fun hnone q' hq' => ?_)
        rcases List.mem_cons.mp hq' with rfl | hq'
        · exact hq
        · exact hnone q' hq'
  obtain ⟨q, hq, hdue⟩ := h.some_due
  rcases hfold env.order (none, keys) (fun w hw => hw) (fun q hq _ => hq) with hdone | hnone
  · exact hdone
  · rw [hnone q (h.turns q hq) hq] at hdue
    cases hdue

end

/-! ## Admission -/

/-- Where the limit of the resource has room for the total that is checked, its value does not
matter. -/
theorem calculateOverquota_set {projectQuotas userQuotas : List (String × Int)}
    {projectTotal userTotal : String → Option Int} {res : String} {delta total limit : Int}
    (htotal : projectTotal res = some total) (hroom : delta + total ≤ limit)
    {deltas : List (String × Int)} (hdelta : ∀ d, (res, d) ∈ deltas → d = delta)
    (h : calculateOverquota projectQuotas userQuotas projectTotal userTotal deltas = .ok [])
    (hchecked : ∀ d, (res, d) ∈ deltas →
      overLimit projectQuotas (projectTotal res) res d = .ok false) :
    calculateOverquota (Dict.set res limit projectQuotas) userQuotas projectTotal userTotal deltas =
      .ok [] := by
  induction deltas with
  | nil => rfl
  | cons d deltas ih =>
    obtain ⟨exceeds, hexceeds, h⟩ := Fallible.bind_ok_iff.mp h
    obtain ⟨overs, hovers, h⟩ := Fallible.bind_ok_iff.mp h
    split at h
    · cases h
    · next hno =>
      cases h
      obtain rfl := Bool.eq_false_iff.mpr hno
      have hrest := ih (fun d' hd' => hdelta d' (List.mem_cons_of_mem _ hd')) hovers
        (fun d' hd' => hchecked d' (List.mem_cons_of_mem _ hd'))
      have hone : isOver (Dict.set res limit projectQuotas) userQuotas (projectTotal d.1)
          (userTotal d.1) d.1 d.2 = .ok false := by
        rw [← hexceeds]
        unfold isOver
        by_cases hres : d.1 = res
        · have hmem : (res, d.2) ∈ d :: deltas := hres ▸ List.mem_cons_self ..
          have hset : overLimit (Dict.set res limit projectQuotas) (projectTotal res) res d.2 =
              .ok false := by
            unfold overLimit
            rw [Dict.lookup_set_self, htotal]
            have hnot : ¬ (0 ≤ limit ∧ limit < d.2 + total) := by
              have := hdelta d.2 hmem
              omega
            exact congrArg Except.ok (decide_eq_false hnot)
          rw [hres, hset, hchecked d.2 hmem]
        · have hsame : overLimit (Dict.set res limit projectQuotas) (projectTotal d.1) d.1 d.2 =
              overLimit projectQuotas (projectTotal d.1) d.1 d.2 := by
            unfold overLimit
            rw [Dict.lookup_set_ne hres]
          rw [hsame]
      show (isOver _ _ (projectTotal d.1) (userTotal d.1) d.1 d.2 >>= fun exceeds => _) = _
      rw [hone]
      show (calculateOverquota _ _ _ _ deltas >>= fun overs => _) = _
      rw [hrest]
      rfl

/-- The total after a request. -/
theorem projectSum_quotaReserve {projectQuotas userQuotas deltas : List (String × Int)}
    {expire : Int} {t t' : QuotaTables} {uuids : List Nat} {synced : List (Nat × Int)}
    {res : String} {delta : Int} (hkeys : (Dict.keys deltas).Nodup) (hmem : (res, delta) ∈ deltas)
    (hdelta : 0 < delta)
    (h : quotaReserve env projectQuotas userQuotas deltas expire t = .ok (uuids, t', synced)) :
    projectSum t'.usages env.project res = projectSum t.usages env.project res +
      growth env t.usages (Dict.keys deltas) res + delta := by
  obtain ⟨s, k, hs, -, hk, rfl, -⟩ := quotaReserve_ok h
  have hpicks : Booking.Picks env ⟨s, t.reservations, []⟩ := (refresh_spec hs).picks
  have hreserve := projectSum_reserve res hpicks hk
  rw [sum_of_delta (Int.le_of_lt hdelta) hkeys hmem, projectSum_refresh hs] at hreserve
  exact hreserve

/-- Without a row of the project the picked row is the total that is checked. -/
theorem projectSum_le_of_none {projectQuotas userQuotas deltas : List (String × Int)}
    {expire : Int} {t t' : QuotaTables} {uuids : List Nat} {synced : List (Nat × Int)}
    {res : String} {delta limit : Int} (hkeys : (Dict.keys deltas).Nodup)
    (hmem : (res, delta) ∈ deltas) (hdelta : 0 < delta)
    (hlimit : projectQuotas.lookup res = some limit) (hle : 0 ≤ limit)
    (h : quotaReserve env projectQuotas userQuotas deltas expire t = .ok (uuids, t', synced))
    (hnone : ∀ r ∈ t.usages.rows, counted env.project res r = false) :
    projectSum t'.usages env.project res ≤ limit := by
  have hsum := projectSum_quotaReserve env hkeys hmem hdelta h
  obtain ⟨s, k, hs, hovers, -⟩ := quotaReserve_ok h
  have hrefreshed := refresh_spec hs
  obtain ⟨total, htotal, hcheck⟩ := calculateOverquota_ok hlimit hle (Int.le_of_lt hdelta) hmem
    hovers
  have hpicked : (pick s.usages env.project env.user res).map QuotaUsage.total = some total := by
    unfold projectTotal at htotal
    rw [projectUsages_of_none hnone] at htotal
    rw [← hrefreshed.picked_eq]
    exact htotal
  have hzero : projectSum t.usages env.project res = 0 := projectSum_of_none hnone
  obtain ⟨work, htracks⟩ := refresh_tracks res hs
  have hrest := htracks.rest
  rw [projectSum_refresh hs, hzero] at hrest
  have hown : own QuotaUsage.total s.usages env.project env.user res = total := by
    unfold own
    rw [hpicked]
    rfl
  rw [hown, own_of_none hnone] at hrest
  omega

/-- With a row, the total that is checked is the one before the refresh. -/
theorem checked_of_some {projectQuotas userQuotas deltas : List (String × Int)}
    {t : UsageTable} {s : Refresh} {res : String} {delta limit : Int}
    (hmem : (res, delta) ∈ deltas) (hdelta : 0 < delta)
    (hlimit : projectQuotas.lookup res = some limit) (hle : 0 ≤ limit)
    (hovers : calculateOverquota projectQuotas userQuotas
      (projectTotal (getProjectUserQuotaUsages t env.project env.user).1 s) (userTotal s) deltas =
        .ok []) (hsome : ∃ r ∈ t.rows, counted env.project res r = true) :
    projectTotal (getProjectUserQuotaUsages t env.project env.user).1 s res =
      some (projectSum t env.project res) ∧ delta + projectSum t env.project res ≤ limit := by
  obtain ⟨total, htotal, hcheck⟩ := calculateOverquota_ok hlimit hle (Int.le_of_lt hdelta) hmem
    hovers
  have hlookup := total_projectUsages t env.project env.user res
  rw [if_pos (List.any_eq_true.mpr hsome)] at hlookup
  obtain ⟨usage, husage, hsum⟩ := Option.map_eq_some_iff.mp hlookup
  have hstale : projectTotal (getProjectUserQuotaUsages t env.project env.user).1 s res =
      some (projectSum t env.project res) := by
    unfold projectTotal
    rw [husage]
    exact congrArg some hsum
  rw [hstale] at htotal
  cases htotal
  exact ⟨hstale, hcheck⟩

/-- The same request passes with the least limit that the total before the refresh allows. -/
theorem quotaReserve_set {projectQuotas userQuotas deltas : List (String × Int)} {expire : Int}
    {t : QuotaTables} {out : List Nat × QuotaTables × List (Nat × Int)} {res : String}
    {delta limit : Int} (hkeys : (Dict.keys deltas).Nodup) (hmem : (res, delta) ∈ deltas)
    (hdelta : 0 < delta) (hlimit : projectQuotas.lookup res = some limit) (hle : 0 ≤ limit)
    (h : quotaReserve env projectQuotas userQuotas deltas expire t = .ok out)
    (hsome : ∃ r ∈ t.usages.rows, counted env.project res r = true) :
    quotaReserve env (Dict.set res (projectSum t.usages env.project res + delta) projectQuotas)
      userQuotas deltas expire t = .ok out := by
  obtain ⟨s, hs, hrest⟩ := Fallible.bind_ok_iff.mp h
  obtain ⟨overs, hovers, hrest⟩ := Fallible.bind_ok_iff.mp hrest
  split at hrest
  · cases hrest
  · next hnone =>
    rw [not_not.mp hnone] at hovers
    obtain ⟨hstale, hcheck⟩ := checked_of_some env hmem hdelta hlimit hle hovers hsome
    have hone : ∀ d, (res, d) ∈ deltas → d = delta := fun d hd => by
      have hlookup := Dict.lookup_of_mem hkeys hd
      rw [Dict.lookup_of_mem hkeys hmem] at hlookup
      exact (Option.some.inj hlookup).symm
    have hpassed : ∀ d, (res, d) ∈ deltas → overLimit projectQuotas
        (projectTotal (getProjectUserQuotaUsages t.usages env.project env.user).1 s res) res d =
          .ok false := by
      intro d hd
      unfold overLimit
      rw [hlimit, hstale, hone d hd]
      exact congrArg Except.ok (decide_eq_false (by omega))
    have hroom : delta + projectSum t.usages env.project res ≤
        projectSum t.usages env.project res + delta := Int.le_of_eq (Int.add_comm _ _)
    exact Fallible.bind_ok_iff.mpr ⟨s, hs, Fallible.bind_ok_iff.mpr
      ⟨[], calculateOverquota_set hstale hroom hone hovers hpassed,
        (if_neg (fun h => h rfl)).trans hrest⟩⟩

/-- **The project limit.** A request that succeeds keeps a resource within the limit of the
project if the project had no row of it, or no sync function that is due reports more than the
row of the user has in use. Where it had a row and all that are due report one larger count, there
is a limit that the same request passes and does not keep. -/
theorem admission_kept {projectQuotas userQuotas deltas : List (String × Int)} {expire : Int}
    {t t' : QuotaTables} {uuids : List Nat} {synced : List (Nat × Int)} {res : String}
    {delta limit : Int} (hkeys : (Dict.keys deltas).Nodup) (hmem : (res, delta) ∈ deltas)
    (hdelta : 0 < delta) (hlimit : projectQuotas.lookup res = some limit) (hle : 0 ≤ limit)
    (h : quotaReserve env projectQuotas userQuotas deltas expire t = .ok (uuids, t', synced)) :
    ((∀ r ∈ t.usages.rows, counted env.project res r = false) ∨
        ReportsNoMore env t.usages (Dict.keys deltas) res →
      projectSum t'.usages env.project res ≤ limit) ∧
    ∀ count, (∃ r ∈ t.usages.rows, counted env.project res r = true) →
      AllReport env t.usages (Dict.keys deltas) res count →
      own QuotaUsage.inUse t.usages env.project env.user res < count →
      quotaReserve env (Dict.set res (projectSum t.usages env.project res + delta) projectQuotas)
          userQuotas deltas expire t = .ok (uuids, t', synced) ∧
        projectSum t.usages env.project res + delta < projectSum t'.usages env.project res := by
  have hsum := projectSum_quotaReserve env hkeys hmem hdelta h
  have hgrowth : ∀ v, reported env t.usages (Dict.keys deltas) res = some v →
      growth env t.usages (Dict.keys deltas) res =
        v - own QuotaUsage.inUse t.usages env.project env.user res := by
    intro v hv
    unfold growth
    rw [hv]
    rfl
  refine ⟨fun hcond => ?_, fun count hsome hall hmore => ?_⟩
  · by_cases hsome : ∃ r ∈ t.usages.rows, counted env.project res r = true
    · have hreports : ReportsNoMore env t.usages (Dict.keys deltas) res := by
        refine hcond.resolve_left (fun hnone => ?_)
        obtain ⟨r, hr, hcounted⟩ := hsome
        rw [hnone r hr] at hcounted
        cases hcounted
      obtain ⟨s, k, -, hovers, -⟩ := quotaReserve_ok h
      obtain ⟨-, hcheck⟩ := checked_of_some env hmem hdelta hlimit hle hovers hsome
      -- the refresh does not add to the total
      have hshrinks : growth env t.usages (Dict.keys deltas) res ≤ 0 := by
        cases hreported : reported env t.usages (Dict.keys deltas) res with
        | none =>
          unfold growth
          rw [hreported]
          exact (Int.sub_self _).le
        | some v =>
          have hv := reported_le hreports v hreported
          rw [hgrowth v hreported]
          omega
      omega
    · refine projectSum_le_of_none env hkeys hmem hdelta hlimit hle h (fun r hr => ?_)
      exact Bool.eq_false_iff.mpr (fun hcounted => hsome ⟨r, hr, hcounted⟩)
  · rw [hgrowth count (reported_eq hall)] at hsum
    exact ⟨quotaReserve_set env hkeys hmem hdelta hlimit hle h hsome, by omega⟩

/-- The user `v` of the project has used 4. -/
def otherUserTables : QuotaTables where
  usages :=
    { rows := [⟨0, some "p", some "v", "instances", 4, 0, none, 0, false⟩]
      next := 1
      sorted := List.pairwise_singleton _ _
      below := by simp }
  reservations :=
    { rows := []
      next := 0
      sorted := List.Pairwise.nil
      below := by simp }

/-- The first request of the user `u`, who has used 3. -/
def firstRequest : RefreshEnv where
  project := some "p"
  user := some "u"
  untilRefresh := none
  maxAge := 0
  now := 1
  order := ["instances"]
  sync := fun _ => some [("instances", 3)]

/-- A request for one instance. -/
def requestInstance (limit : Int) : Except QuotaError (List Nat × QuotaTables × List (Nat × Int)) :=
  quotaReserve firstRequest [("instances", limit)] [("instances", limit)] [("instances", 1)] 60
    otherUserTables

/-- The same request, where the sync function finds nothing of the user `u`. -/
def emptyRequest : RefreshEnv := { firstRequest with sync := fun _ => some [("instances", 0)] }

/-- Nothing is found: 4 of 5 are in use, and one is reserved. -/
theorem admission_sample :
    ∃ uuids t' synced, quotaReserve emptyRequest [("instances", 5)] [("instances", 5)]
        [("instances", 1)] 60 otherUserTables = .ok (uuids, t', synced) ∧
      projectSum t'.usages (some "p") "instances" ≤ 5 := by
  obtain ⟨⟨uuids, t', synced⟩, hok⟩ : ∃ out, quotaReserve emptyRequest [("instances", 5)]
      [("instances", 5)] [("instances", 1)] 60 otherUserTables = .ok out := ⟨_, rfl⟩
  have hmem : ("instances", (1 : Int)) ∈ [("instances", (1 : Int))] := List.mem_singleton.mpr rfl
  have hlimit : [("instances", (5 : Int))].lookup "instances" = some 5 := rfl
  refine ⟨uuids, t', synced, hok, (admission_kept emptyRequest (by decide) hmem (by decide)
    hlimit (by decide) hok).1 (.inr ?_)⟩
  intro q _ _ updates hupdates v hv
  cases hupdates
  cases List.mem_singleton.mp hv
  decide

/-- **Over the limit.** The project has used 4 of 5, and the user's 3 are found by
the refresh: the request passes, with 8 used and reserved. -/
theorem admission_over_limit :
    projectSum otherUserTables.usages (some "p") "instances" = 4 ∧
    ∃ uuids t' synced, requestInstance 5 = .ok (uuids, t', synced) ∧
      projectSum t'.usages (some "p") "instances" = 8 :=
  ⟨by decide, _, _, _, rfl, by decide⟩
end PolarBear.Quota
