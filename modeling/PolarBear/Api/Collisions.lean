import PolarBear.Api.CaseSubmit
import PolarBear.Wsgi.Respond

/-!
# Submissions in a row

The tables of plans and cases have a unique constraint: on the name, for cases
also the host, and on `beginning` and `ending`, which the insert fills in from the
clock and the column keeps in whole seconds. So a submission is refused when a
row of that name was inserted in the same second. `expected_errors` expects a
conflict, but nothing makes one of what the database raises: the answer is a 500.

`Served` is what a sequence of submissions looks like from outside: it knows the
keys that are taken, with their ids, and nothing of the tables. `submissions_served`
shows that every sequence of valid submissions of both kinds looks like that, and
`no_collision_iff` which sequences are accepted as a whole.
-/

namespace PolarBear.Api

open PolarBear.Py
open PolarBear.Fallible
open PolarBear.Report (TestPlan)
open PolarBear.Wsgi (Attributes Raised)

/-- The two tables. -/
inductive Kind where
  | plan
  | case
  deriving DecidableEq, Repr

/-- What a unique constraint compares. -/
inductive RowKey where
  | plan (testplanName : String) (beginning ending : Nat)
  | case (caseName host : String) (beginning ending : Nat)
  deriving DecidableEq, Repr

def RowKey.kind : RowKey → Kind
  | .plan _ _ _ => .plan
  | .case _ _ _ _ => .case

def planKey (r : TestPlan) : RowKey := .plan r.testplanName r.beginning r.ending

def caseKey (r : TestCase) : RowKey := .case r.caseName r.host r.beginning r.ending

/-- Both tables, and what was cast. -/
structure Submissions where
  plans : Store
  cases : CaseStore

/-- The keys and ids of a table. -/
def Submissions.entries (s : Submissions) : Kind → List (RowKey × Nat)
  | .plan => s.plans.rows.map (fun r => (planKey r, r.id))
  | .case => s.cases.rows.map (fun r => (caseKey r, r.id))

/-- The next id of a table from which no row is deleted. -/
def freshId (ids : List Nat) : Nat := ids.foldr max 0 + 1

/-- `DBDuplicateEntry`. -/
def duplicateEntry : PyError := .of .external "Duplicate entry"

/-- The database's answer to an insert. -/
def insertAnswer (key : RowKey) (entries : List (RowKey × Nat)) : Except PyError Nat :=
  if key ∈ entries.map Prod.fst then .error duplicateEntry
  else .ok (freshId (entries.map Prod.snd))

/-- What comes to a request on the server: the clock, in microseconds, at the default of each
column, a uuid, and the outcome of the cast. -/
structure Stamp where
  beginning : Nat
  ending : Nat
  uuid : String
  cast : Except PyError Unit

/-- The whole seconds that a `DateTime` column keeps. -/
def wholeSeconds (micros : Nat) : Nat := micros / 1000000

inductive Request where
  | plan (body : List (String × Json)) (stamp : Stamp)
  | case (body : List (String × Json)) (stamp : Stamp)

/-- The table of a request. -/
def Request.kind : Request → Kind
  | .plan _ _ => .plan
  | .case _ _ => .case

variable (describe : PyError → Attributes) (coerce : Json → Except PyError String)

/-- The key of the row a request asks for, if its body is valid. -/
def Request.key : Request → Except PyError RowKey
  | .plan body stamp => do
    let s ← validate coerce body
    .ok (.plan s.text (wholeSeconds stamp.beginning) (wholeSeconds stamp.ending))
  | .case body stamp => do
    let c ← caseData coerce body
    .ok (.case c.caseName c.host (wholeSeconds stamp.beginning) (wholeSeconds stamp.ending))

/-- What the world answers to a request, on these entries of its table. -/
def outcomes (stamp : Stamp) (key : Except PyError RowKey) (entries : List (RowKey × Nat)) :
    Outcomes where
  insert := key.bind (fun key => insertAnswer key entries)
  cast := stamp.cast
  beginning := wholeSeconds stamp.beginning
  ending := wholeSeconds stamp.ending
  uuid := stamp.uuid

/-- `@extensions.expected_errors((400, 403, 409))`, which both methods have. -/
def decorated (result : Except PyError Json) : Except Raised Json :=
  Wsgi.expectedErrors [400, 403, 409] (result.mapError (Raised.ofPy describe))

/-- One request. -/
def respond (r : Request) (s : Submissions) : Except Raised Json × Submissions :=
  match r with
  | .plan body stamp =>
    match (create coerce (outcomes stamp (r.key coerce) (s.entries .plan)) body).run s.plans with
    | .ok res plans => (decorated describe (.ok res), { s with plans := plans })
    | .error e plans => (decorated describe (.error e), { s with plans := plans })
  | .case body stamp =>
    match (createCase coerce (outcomes stamp (r.key coerce) (s.entries .case)) body).run
        s.cases with
    | .ok res cases => (decorated describe (.ok res), { s with cases := cases })
    | .error e cases => (decorated describe (.error e), { s with cases := cases })

/-- Requests in a row, with their answers. -/
def serve : List Request → Submissions → List (Request × Except Raised Json)
  | [], _ => []
  | r :: requests, s =>
    let (answer, s') := respond describe coerce r s
    (r, answer) :: serve requests s'

/-- A request with a valid body, whose cast does not raise. -/
def Request.Valid : Request → Prop
  | .plan body stamp => (∃ s fields, validate coerce body = .ok s ∧ s.environment = .obj fields) ∧
      stamp.cast = .ok ()
  | .case body stamp => (∃ c, caseData coerce body = .ok c) ∧ stamp.cast = .ok ()

/-! ## From outside -/

/-- The answer that carries an id. -/
def Kind.answer (id : Nat) : Kind → Json
  | .plan => .obj [("TestPlan", .int id)]
  | .case => .obj [("CaseId", .int id)]

/-- `HTTPInternalServerError`, which a refused insert becomes. -/
def refusal : Raised := Wsgi.unexpected (.ofPy describe duplicateEntry)

/-- Answers to requests where these keys are taken: a taken key is refused, any other gets an
id that no row of its table has, and is taken from then on. -/
def Served (taken : List (RowKey × Nat)) : List (Request × Except Raised Json) → Prop
  | [] => True
  | (r, answer) :: rest => ∃ key, r.key coerce = .ok key ∧
      ((key ∈ taken.map Prod.fst ∧ answer = .error (refusal describe) ∧ Served taken rest) ∨
        (key ∉ taken.map Prod.fst ∧ ∃ id, answer = .ok (key.kind.answer id) ∧
          (∀ entry ∈ taken, entry.1.kind = key.kind → entry.2 ≠ id) ∧
          Served ((key, id) :: taken) rest))

/-- Every request is accepted, and no two answers of a table carry one id. -/
structure NoCollision (answers : List (Request × Except Raised Json)) : Prop where
  accepted : ∀ x ∈ answers, ∃ id, x.2 = .ok (x.1.kind.answer id)
  distinct : (answers.map Prod.snd).Nodup

/-- No two requests ask for the same name in the same seconds, and none asks for what is taken. -/
structure Apart (taken : List (RowKey × Nat)) (requests : List Request) : Prop where
  pairwise : (requests.map (Request.key coerce)).Nodup
  free : ∀ r ∈ requests, ∀ key ∈ taken.map Prod.fst, r.key coerce ≠ .ok key

/-! ## One request -/

theorem lt_freshId {id : Nat} : ∀ {ids : List Nat}, id ∈ ids → id < freshId ids := by
  intro ids
  induction ids with
  | nil =>
    intro h
    cases h
  | cons n ids ih =>
    intro h
    unfold freshId at ih ⊢
    rw [List.foldr_cons]
    rcases List.mem_cons.mp h with rfl | hin
    · omega
    · have := ih hin
      omega

theorem kind_of_entry {s : Submissions} {kind : Kind} {entry : RowKey × Nat}
    (h : entry ∈ s.entries kind) : entry.1.kind = kind := by
  cases kind with
  | plan =>
    obtain ⟨r, -, rfl⟩ := List.mem_map.mp h
    rfl
  | case =>
    obtain ⟨r, -, rfl⟩ := List.mem_map.mp h
    rfl

variable {describe coerce}

/-- What a valid request does to the tables: its key is taken and nothing changes, or it adds a
row with this key and an id that no row of its table has. -/
structure Answered (describe : PyError → Attributes) (coerce : Json → Except PyError String)
    (r : Request) (s : Submissions) (key : RowKey) : Prop where
  key_eq : r.key coerce = .ok key
  refused : key ∈ (s.entries key.kind).map Prod.fst →
    respond describe coerce r s = (.error (refusal describe), s)
  accepted : key ∉ (s.entries key.kind).map Prod.fst → ∃ s',
    respond describe coerce r s =
      (.ok (key.kind.answer (freshId ((s.entries key.kind).map Prod.snd))), s') ∧
    s'.entries key.kind =
      s.entries key.kind ++ [(key, freshId ((s.entries key.kind).map Prod.snd))] ∧
    ∀ kind, kind ≠ key.kind → s'.entries kind = s.entries kind

/-- A request that is accepted, by what it answers and what it adds. -/
theorem accepted_of_respond {r : Request} {s s' : Submissions} {key : RowKey} {id : Nat}
    (hid : freshId ((s.entries key.kind).map Prod.snd) = id)
    (hanswer : respond describe coerce r s = (.ok (key.kind.answer id), s'))
    (hentries : s'.entries key.kind = s.entries key.kind ++ [(key, id)])
    (hothers : ∀ kind, kind ≠ key.kind → s'.entries kind = s.entries kind) :
    ∃ s', respond describe coerce r s =
        (.ok (key.kind.answer (freshId ((s.entries key.kind).map Prod.snd))), s') ∧
      s'.entries key.kind =
        s.entries key.kind ++ [(key, freshId ((s.entries key.kind).map Prod.snd))] ∧
      ∀ kind, kind ≠ key.kind → s'.entries kind = s.entries kind := by
  subst hid
  exact ⟨s', hanswer, hentries, hothers⟩

theorem answered_plan {body : List (String × Json)} {stamp : Stamp}
    (h : (Request.plan body stamp).Valid coerce) (s : Submissions) :
    ∃ key, Answered describe coerce (.plan body stamp) s key := by
  obtain ⟨⟨v, fields, hv, henv⟩, hcast⟩ := h
  have hkey : (Request.plan body stamp).key coerce = .ok (.plan v.text
      (wholeSeconds stamp.beginning) (wholeSeconds stamp.ending)) := by
    show (validate coerce body).bind _ = _
    rw [hv]
    rfl
  generalize ho : outcomes stamp ((Request.plan body stamp).key coerce) (s.entries .plan) = o
  have hinsert : o.insert = insertAnswer (.plan v.text (wholeSeconds stamp.beginning)
      (wholeSeconds stamp.ending)) (s.entries .plan) := by
    rw [← ho, hkey]
    rfl
  refine ⟨_, hkey, fun htaken => ?_, fun hfree => ?_⟩
  · have hrun : (submit coerce o body).run s.plans = .error duplicateEntry s.plans :=
      run_submit_refused coerce hv (hinsert.trans (if_pos htaken))
    unfold respond create
    dsimp only
    rw [ho, run_tryCatch, hrun]
    rfl
  · have hcast' : o.cast = .ok () := by
      rw [← ho]
      exact hcast
    have hrun : (submit coerce o body).run s.plans = _ :=
      run_submit_dict coerce hv (hinsert.trans (if_neg hfree)) henv
    generalize hid : freshId ((s.entries .plan).map Prod.snd) = id at hrun
    rw [hcast'] at hrun
    let plans : Store := ⟨s.plans.rows ++ [newRow o id v.text],
      s.plans.casts ++ [⟨v.name, .obj (Dict.set "id" (.int id) fields), v.testplan⟩]⟩
    have hanswer : respond describe coerce (.plan body stamp) s =
        (.ok (Kind.plan.answer id), { s with plans := plans }) := by
      unfold respond create
      dsimp only
      rw [ho, run_tryCatch, hrun]
      rfl
    have hentries : Submissions.entries { s with plans := plans } .plan =
        s.entries .plan ++ [(.plan v.text (wholeSeconds stamp.beginning)
          (wholeSeconds stamp.ending), id)] := by
      show (s.plans.rows ++ [newRow o id v.text]).map _ = _
      rw [List.map_append, ← ho]
      rfl
    refine accepted_of_respond hid hanswer hentries (fun kind hkind => ?_)
    cases kind with
    | plan => exact absurd rfl hkind
    | case => rfl

theorem answered_case {body : List (String × Json)} {stamp : Stamp}
    (h : (Request.case body stamp).Valid coerce) (s : Submissions) :
    ∃ key, Answered describe coerce (.case body stamp) s key := by
  obtain ⟨⟨c, hc⟩, hcast⟩ := h
  have hkey : (Request.case body stamp).key coerce = .ok (.case c.caseName c.host
      (wholeSeconds stamp.beginning) (wholeSeconds stamp.ending)) := by
    show (caseData coerce body).bind _ = _
    rw [hc]
    rfl
  generalize ho : outcomes stamp ((Request.case body stamp).key coerce) (s.entries .case) = o
  have hinsert : o.insert = insertAnswer (.case c.caseName c.host (wholeSeconds stamp.beginning)
      (wholeSeconds stamp.ending)) (s.entries .case) := by
    rw [← ho, hkey]
    rfl
  refine ⟨_, hkey, fun htaken => ?_, fun hfree => ?_⟩
  · have hrun : (submitCase coerce o body).run s.cases = .error duplicateEntry s.cases :=
      run_submitCase_refused coerce hc (hinsert.trans (if_pos htaken))
    unfold respond createCase
    dsimp only
    rw [ho, run_tryCatch, hrun]
    rfl
  · have hcast' : o.cast = .ok () := by
      rw [← ho]
      exact hcast
    have hrun : (submitCase coerce o body).run s.cases = _ :=
      run_submitCase_ok coerce hc (hinsert.trans (if_neg hfree)) hcast'
    generalize hid : freshId ((s.entries .case).map Prod.snd) = id at hrun
    let cases : CaseStore := ⟨s.cases.rows ++ [newCase o id c],
      s.cases.casts ++ [.obj (Dict.set "id" (.int id) body)]⟩
    have hanswer : respond describe coerce (.case body stamp) s =
        (.ok (Kind.case.answer id), { s with cases := cases }) := by
      unfold respond createCase
      dsimp only
      rw [ho, run_tryCatch, hrun]
      rfl
    have hentries : Submissions.entries { s with cases := cases } .case =
        s.entries .case ++ [(.case c.caseName c.host (wholeSeconds stamp.beginning)
          (wholeSeconds stamp.ending), id)] := by
      show (s.cases.rows ++ [newCase o id c]).map _ = _
      rw [List.map_append, ← ho]
      rfl
    refine accepted_of_respond hid hanswer hentries (fun kind hkind => ?_)
    cases kind with
    | plan => rfl
    | case => exact absurd rfl hkind

/-- **One valid request.** -/
theorem Request.Valid.answered {r : Request} (h : r.Valid coerce) (s : Submissions) :
    ∃ key, Answered describe coerce r s key := by
  cases r with
  | plan body stamp => exact answered_plan h s
  | case body stamp => exact answered_case h s

/-! ## Requests in a row -/

/-- The taken keys are those of the two tables. -/
def Takes (taken : List (RowKey × Nat)) (s : Submissions) : Prop :=
  ∀ entry, entry ∈ taken ↔ entry ∈ s.entries entry.1.kind

theorem mem_keys_of_takes {taken : List (RowKey × Nat)} {s : Submissions} (h : Takes taken s)
    (key : RowKey) : key ∈ taken.map Prod.fst ↔ key ∈ (s.entries key.kind).map Prod.fst := by
  rw [List.mem_map, List.mem_map]
  constructor
  · rintro ⟨entry, hentry, rfl⟩
    exact ⟨entry, (h entry).mp hentry, rfl⟩
  · rintro ⟨entry, hentry, rfl⟩
    exact ⟨entry, (h entry).mpr hentry, rfl⟩

/-- A new row in both. -/
theorem Takes.add {taken : List (RowKey × Nat)} {s s' : Submissions} (h : Takes taken s)
    {key : RowKey} {id : Nat} (hsame : s'.entries key.kind = s.entries key.kind ++ [(key, id)])
    (hother : ∀ kind, kind ≠ key.kind → s'.entries kind = s.entries kind) :
    Takes ((key, id) :: taken) s' := by
  intro entry
  rw [List.mem_cons, h entry]
  by_cases hkind : entry.1.kind = key.kind
  · rw [hkind, hsame, List.mem_append, List.mem_singleton]
    exact or_comm
  · rw [hother _ hkind]
    refine ⟨fun hin => ?_, Or.inr⟩
    rcases hin with rfl | hin
    · exact absurd rfl hkind
    · exact hin

/-- **Submissions in a row**: each valid request is accepted, with an id that no row of its
table has, exactly when no row of its name was inserted in the same seconds. -/
theorem served_of_takes {requests : List Request} :
    ∀ {taken : List (RowKey × Nat)} {s : Submissions}, Takes taken s →
      (∀ r ∈ requests, r.Valid coerce) →
        Served describe coerce taken (serve describe coerce requests s) := by
  induction requests with
  | nil => exact fun _ _ => trivial
  | cons r requests ih =>
    intro taken s htakes hvalid
    have hrest : ∀ r ∈ requests, r.Valid coerce :=
      fun r' hr' => hvalid r' (List.mem_cons_of_mem r hr')
    obtain ⟨key, hkey, hrefused, haccepted⟩ := (hvalid r (List.mem_cons_self ..)).answered s
    have hserve : serve describe coerce (r :: requests) s =
        (r, (respond describe coerce r s).1) ::
          serve describe coerce requests (respond describe coerce r s).2 := rfl
    rw [hserve]
    by_cases htaken : key ∈ (s.entries key.kind).map Prod.fst
    · rw [hrefused htaken]
      exact ⟨key, hkey, Or.inl ⟨(mem_keys_of_takes htakes key).mpr htaken, rfl, ih htakes hrest⟩⟩
    · obtain ⟨s', hanswer, hsame, hother⟩ := haccepted htaken
      rw [hanswer]
      refine ⟨key, hkey, Or.inr ⟨fun h => htaken ((mem_keys_of_takes htakes key).mp h), _, rfl,
        fun entry hentry hkind => ?_, ih (htakes.add hsame hother) hrest⟩⟩
      -- the new id is above those of the table
      have hin := (htakes entry).mp hentry
      rw [hkind] at hin
      exact Nat.ne_of_lt (lt_freshId (List.mem_map.mpr ⟨entry, hin, rfl⟩))

/-- Every sequence of valid submissions, from any two tables. -/
theorem submissions_served (requests : List Request) (s : Submissions)
    (hvalid : ∀ r ∈ requests, r.Valid coerce) :
    Served describe coerce (s.entries .plan ++ s.entries .case)
      (serve describe coerce requests s) := by
  refine served_of_takes (fun entry => ?_) hvalid
  rw [List.mem_append]
  constructor
  · intro h
    rcases h with h | h
    · rw [kind_of_entry h]
      exact h
    · rw [kind_of_entry h]
      exact h
  · intro h
    cases hkind : entry.1.kind with
    | plan =>
      rw [hkind] at h
      exact Or.inl h
    | case =>
      rw [hkind] at h
      exact Or.inr h

/-! ## Which sequences are accepted -/

@[simp] theorem serve_requests (requests : List Request) (s : Submissions) :
    (serve describe coerce requests s).map Prod.fst = requests := by
  induction requests generalizing s with
  | nil => rfl
  | cons r requests ih => exact congrArg (List.cons r) (ih _)

/-- A request asks for a row of its table. -/
theorem kind_of_key {r : Request} {key : RowKey} (h : r.key coerce = .ok key) :
    key.kind = r.kind := by
  cases r with
  | plan body stamp =>
    obtain ⟨v, -, hkey⟩ := bind_ok_iff.mp h
    cases hkey
    rfl
  | case body stamp =>
    obtain ⟨c, -, hkey⟩ := bind_ok_iff.mp h
    cases hkey
    rfl

theorem Kind.answer_inj {kind kind' : Kind} {id id' : Nat}
    (h : kind.answer id = kind'.answer id') : kind = kind' ∧ id = id' := by
  cases kind <;> cases kind' <;> simp_all [Kind.answer]

/-- What is asked for first is taken for the others. -/
theorem apart_cons {taken : List (RowKey × Nat)} {r : Request} {requests : List Request}
    {key : RowKey} (hkey : r.key coerce = .ok key) (id : Nat) :
    Apart coerce taken (r :: requests) ↔
      key ∉ taken.map Prod.fst ∧ Apart coerce ((key, id) :: taken) requests := by
  have hpairwise : ((r :: requests).map (Request.key coerce)).Nodup ↔
      (∀ r' ∈ requests, r'.key coerce ≠ .ok key) ∧
        (requests.map (Request.key coerce)).Nodup := by
    rw [List.map_cons, List.nodup_cons, hkey, List.mem_map]
    exact and_congr_left' ⟨fun h r' hr' heq => h ⟨r', hr', heq⟩,
      fun h ⟨r', hr', heq⟩ => h r' hr' heq⟩
  constructor
  · intro h
    obtain ⟨hfirst, hrest⟩ := hpairwise.mp h.pairwise
    refine ⟨fun htaken => h.free r (List.mem_cons_self ..) key htaken hkey, hrest, ?_⟩
    intro r' hr' key' hkey'
    rcases List.mem_cons.mp hkey' with rfl | hkey'
    · exact hfirst r' hr'
    · exact h.free r' (List.mem_cons_of_mem r hr') key' hkey'
  · rintro ⟨hfree, hapart⟩
    refine ⟨hpairwise.mpr ⟨fun r' hr' => ?_, hapart.pairwise⟩, fun r' hr' key' hkey' heq => ?_⟩
    · exact hapart.free r' hr' key (List.mem_cons_self ..)
    · rcases List.mem_cons.mp hr' with rfl | hr'
      · obtain rfl := Except.ok.inj (hkey.symm.trans heq)
        exact hfree hkey'
      · exact hapart.free r' hr' key' (List.mem_cons_of_mem _ hkey') heq

/-- All are accepted exactly if they are apart. -/
theorem accepted_iff_of_served {answers : List (Request × Except Raised Json)} :
    ∀ {taken : List (RowKey × Nat)}, Served describe coerce taken answers →
      ((∀ x ∈ answers, ∃ id, x.2 = .ok (x.1.kind.answer id)) ↔
        Apart coerce taken (answers.map Prod.fst)) := by
  induction answers with
  | nil =>
    intro taken _
    refine iff_of_true (fun x hx => ?_) ⟨List.nodup_nil, fun r hr => ?_⟩
    · cases hx
    · cases hr
  | cons x answers ih =>
    intro taken h
    obtain ⟨key, hkey, ⟨htaken, hanswer, -⟩ | ⟨hfree, id, hanswer, -, hrest⟩⟩ := h
    · refine iff_of_false (fun hall => ?_) (fun hapart => ?_)
      · obtain ⟨id, hok⟩ := hall _ (List.mem_cons_self ..)
        rw [hanswer] at hok
        cases hok
      · exact hapart.free x.1 (List.mem_cons_self ..) key htaken hkey
    · rw [List.map_cons, apart_cons hkey id, ← ih hrest, List.forall_mem_cons]
      refine and_congr_left' (iff_of_true ⟨id, ?_⟩ hfree)
      rw [hanswer, kind_of_key hkey]

/-- Those that are accepted get ids of their own. -/
theorem distinct_of_served {answers : List (Request × Except Raised Json)} :
    ∀ {taken : List (RowKey × Nat)}, Served describe coerce taken answers →
      (∀ x ∈ answers, ∃ id, x.2 = .ok (x.1.kind.answer id)) →
      (∀ x ∈ answers, ∀ entry ∈ taken, x.2 ≠ .ok (entry.1.kind.answer entry.2)) ∧
        (answers.map Prod.snd).Nodup := by
  induction answers with
  | nil =>
    intro taken _ _
    exact ⟨fun x hx => absurd hx List.not_mem_nil, List.nodup_nil⟩
  | cons x answers ih =>
    intro taken h hall
    obtain ⟨key, hkey, ⟨-, hanswer, -⟩ | ⟨-, id, hanswer, hnew, hrest⟩⟩ := h
    · obtain ⟨id, hok⟩ := hall _ (List.mem_cons_self ..)
      rw [hanswer] at hok
      cases hok
    · obtain ⟨hothers, hnodup⟩ := ih hrest (fun y hy => hall y (List.mem_cons_of_mem x hy))
      refine ⟨fun y hy entry hentry heq => ?_, List.nodup_cons.mpr ⟨fun hmem => ?_, hnodup⟩⟩
      · rcases List.mem_cons.mp hy with rfl | hy
        · rw [hanswer] at heq
          obtain ⟨hkind, hid⟩ := Kind.answer_inj (Except.ok.inj heq)
          exact hnew entry hentry hkind.symm hid.symm
        · exact hothers y hy entry (List.mem_cons_of_mem _ hentry) heq
      · -- the id of the first is taken for the others
        obtain ⟨y, hy, heq⟩ := List.mem_map.mp hmem
        exact hothers y hy (key, id) (List.mem_cons_self ..) (heq.trans hanswer)

/-- **Submissions do not collide** exactly if they are apart: no name is asked for twice in the
same seconds, and none in those of a row of its name. -/
theorem no_collision_iff (describe : PyError → Attributes) (coerce : Json → Except PyError String)
    (requests : List Request) (s : Submissions) (hvalid : ∀ r ∈ requests, r.Valid coerce) :
    NoCollision (serve describe coerce requests s) ↔
      Apart coerce (s.entries .plan ++ s.entries .case) requests := by
  have hserved : Served describe coerce _ _ := submissions_served requests s hvalid
  have haccepted := accepted_iff_of_served hserved
  rw [serve_requests] at haccepted
  constructor
  · exact fun h => haccepted.mp h.accepted
  · intro h
    have hall := haccepted.mpr h
    exact ⟨hall, (distinct_of_served hserved hall).2⟩

/-! ## Two plans of one name -/

/-- A plan that arrives at this time. -/
def nightly (micros : Nat) : Request :=
  .plan [("name", .str "nightly"), ("testplan", .obj []), ("environment", .obj [])]
    ⟨micros, micros + 40, "u", .ok ()⟩

/-- A case that arrives at this time. -/
def login (micros : Nat) : Request :=
  .case [("host", .str "lab"), ("method", .str "login")] ⟨micros, micros + 40, "u", .ok ()⟩

theorem valid_nightly (micros : Nat) : (nightly micros).Valid coerceString :=
  ⟨⟨⟨.str "nightly", "nightly", .obj [], .obj []⟩, [], rfl, rfl⟩, rfl⟩

theorem valid_login (micros : Nat) : (login micros).Valid coerceString :=
  ⟨⟨⟨"lab", "login"⟩, rfl⟩, rfl⟩

def noSubmissions : Submissions := ⟨⟨[], []⟩, ⟨[], []⟩⟩

/-- What the handlers read of a refused insert. -/
def duplicateAttributes (_ : PyError) : Attributes :=
  ⟨"DBDuplicateEntry", "<class 'oslo_db.exception.DBDuplicateEntry'>", "Duplicate entry", false,
    none, []⟩

/-- A second apart, two plans of one name and a case are all accepted. -/
theorem no_collision_apart : NoCollision (serve duplicateAttributes coerceString
    [nightly 100, login 200, nightly 1000100] noSubmissions) := by
  refine (no_collision_iff duplicateAttributes coerceString _ noSubmissions (fun r hr => ?_)).mpr
    ⟨?_, fun r _ key hkey => absurd hkey List.not_mem_nil⟩
  · simp only [List.mem_cons, List.not_mem_nil, or_false] at hr
    rcases hr with rfl | rfl | rfl
    · exact valid_nightly _
    · exact valid_login _
    · exact valid_nightly _
  · have hkeys : [nightly 100, login 200, nightly 1000100].map (Request.key coerceString) =
        [.ok (.plan "nightly" 0 0), .ok (.case "login" "lab" 0 0), .ok (.plan "nightly" 1 1)] :=
      rfl
    rw [hkeys]
    simp

/-- Two valid plans of one name, half a second apart: the second is answered with a 500. -/
theorem submissions_collide :
    (∀ r ∈ [nightly 100, nightly 500100], r.Valid coerceString) ∧
      (serve duplicateAttributes coerceString [nightly 100, nightly 500100]
        noSubmissions).map Prod.snd =
          [.ok (Kind.plan.answer 1), .error (refusal duplicateAttributes)] ∧
      ¬ NoCollision (serve duplicateAttributes coerceString [nightly 100, nightly 500100]
        noSubmissions) := by
  refine ⟨fun r hr => ?_, rfl, fun h => ?_⟩
  · rcases List.mem_pair.mp hr with rfl | rfl
    · exact valid_nightly _
    · exact valid_nightly _
  · have hlast : (nightly 500100, .error (refusal duplicateAttributes)) ∈
        serve duplicateAttributes coerceString [nightly 100, nightly 500100] noSubmissions :=
      List.mem_cons_of_mem _ (List.mem_singleton.mpr rfl)
    obtain ⟨id, hok⟩ := h.accepted _ hlast
    cases hok

end PolarBear.Api
