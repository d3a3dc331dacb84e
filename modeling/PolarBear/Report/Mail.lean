import PolarBear.Lib.Fallible
import PolarBear.Report.Summary
import Mathlib.Data.List.Sort

/-!
# `format_json_to_html`: the mailed report

`send_mail` renders the result map as one HTML table. The text is built by
appending pieces, and the model keeps the pieces: `formatPieces` is the loop,
`Piece.html` the literal each piece contributes, and `formatJsonToHtml` their
concatenation. A case is rendered with overall result `FAIL` or `PASS` when
the table holds a result cell with that text for it.

Two evaluators thus judge the same map. `summary` asks whether some status
*equals* `FAIL`, the mail whether some status *differs from* `PASS`; `summary`
skips a key `int` rejects and tolerates any spelling, the mail looks every
case up again under `str(int(key))`; and the result cell is written with the
first step, so a case without steps has none. `mail_agrees` states what the mail
shows of a map that it can be made of, and `mail_agrees_iff` where the two agree.

Python 2 compares `rowspan > 1`, a text and a number, by type name, and `'str'`
comes after `'int'`: the test is always true.
-/

namespace PolarBear.Report

open PolarBear.Py

/-- `v != "PASS"` fails. -/
def isPass : Json → Bool
  | .str s => s == "PASS"
  | _ => false

/-- What one `html += ...` appends. -/
inductive Piece where
  | tableOpen
  | header
  | caseCell (rowspan : Nat) (value : Int)
  | stepCell (key : String) (value : Json)
  | resultCell (rowspan : Nat) (resultflag : String)
  | tableClose

/-- The appended text; `strOther` is `str(v)` of a status that is not a text. -/
def Piece.html (strOther : Json → String) : Piece → String
  | .tableOpen => "<table border=\"1\" cellspacing=\"0\" width=\"50%\" height=\"150\">"
  | .header => "<tr><th>TC ID</t> <th>Steps Status</th><th>Result</th> </tr>"
  | .caseCell rowspan value =>
    "<tr><td rowspan=\"" ++ toString rowspan ++ "\">" ++ toString value ++ "</td>"
  | .stepCell key (.str s) => "<td>" ++ key ++ " : " ++ s ++ "</td>"
  | .stepCell key value => "<td>" ++ key ++ " : " ++ strOther value ++ "</td>"
  | .resultCell rowspan resultflag =>
    "<td rowspan=\"" ++ toString rowspan ++ "\">" ++ resultflag ++ "</td></tr>"
  | .tableClose => "</table>"

/-- The first inner loop: `FAIL` as soon as a status differs from `PASS`. -/
def resultflag (steps : List (String × Json)) : String :=
  if steps.any (fun kv => !isPass kv.2) then "FAIL" else "PASS"

/-- The cell of one step; `str` is taken of its name and of its status. -/
def stepPiece (kv : String × Json) : Except PyError Piece := do
  (Json.str kv.1).checkStr
  kv.2.checkStr
  .ok (.stepCell kv.1 kv.2)

/-- The second inner loop: the result cell follows the first step. -/
def stepCells (steps : List (String × Json)) (cells : List Piece) : List Piece :=
  match cells with
  | [] => []
  | c :: cs => c :: .resultCell steps.length (resultflag steps) :: cs

/-- One round of the outer loop, for the case `value`. -/
def casePieces (mes : Json) (value : Int) : Except PyError (List Piece) := do
  match ← mes.getItem (toString value) with
  | .obj steps =>
    let cells ← steps.mapM stepPiece
    .ok (.caseCell steps.length value :: stepCells steps cells)
  | .arr _ | .str _ => .error (.of .attributeError "object has no attribute 'items'")
  | _ => .error (.of .typeError "object has no len()")

/-- `int(key)` of the list comprehension. -/
def intKey (kv : String × Json) : Except PyError Int :=
  match pyInt kv.1 with
  | some n => .ok n
  | none => .error (.of .valueError "invalid literal for int() with base 10")

/-- `seq.sort(key=lambda x: abs(x))`. -/
def sortByAbs (seq : List Int) : List Int :=
  seq.insertionSort (fun a b => a.natAbs ≤ b.natAbs)

def formatPieces : Json → Except PyError (List Piece)
  | .obj fields => do
    let seq ← fields.mapM intKey
    let rows ← (sortByAbs seq).mapM (casePieces (.obj fields))
    .ok (.tableOpen :: .header :: (rows.flatten ++ [.tableClose]))
  | _ => .error (.of .attributeError "object has no attribute 'keys'")

def formatJsonToHtml (strOther : Json → String) (message : Json) : Except PyError String := do
  let pieces ← formatPieces message
  .ok (String.join (pieces.map (Piece.html strOther)))

/-- Is this the result cell of a case with overall result `flag`? -/
def Piece.shows (flag : String) : Piece → Bool
  | .resultCell _ f => f == flag
  | _ => false

/-- The number of cases rendered with overall result `flag`. -/
def rendered (flag : String) (pieces : List Piece) : Nat := pieces.countP (Piece.shows flag)

/-- Some status of the case differs from `PASS`. -/
def someNotPass : Json → Bool
  | .obj steps => steps.any (fun kv => !isPass kv.2)
  | _ => false

/-- The case has steps, and all of them passed. -/
def allPass : Json → Bool
  | .obj steps => !steps.isEmpty && steps.all (fun kv => isPass kv.2)
  | _ => false

/-- The case has no steps. -/
def noSteps : Json → Bool
  | .obj steps => steps.isEmpty
  | _ => false

/-- The mail and `summary` judge the case alike: it has a step, and a `FAIL`
wherever some status is not `PASS`. -/
def JudgedAlike (v : Json) : Prop :=
  noSteps v = false ∧ (someNotPass v = true → caseFails v = true)

instance (v : Json) : Decidable (JudgedAlike v) := inferInstanceAs (Decidable (_ ∧ (_ → _)))

/-- The mail is made, and shows what `summary` counts. -/
def MailAgrees (fields : List (String × Json)) : Prop :=
  ∃ pieces, formatPieces (.obj fields) = .ok pieces ∧
    rendered "FAIL" pieces = (summary fields).failure ∧
    rendered "PASS" pieces = (summary fields).sucessfully

/-! ## One case -/

/-- Step names and statuses `str` accepts. -/
def TextSteps (steps : List (String × Json)) : Prop :=
  ∀ kv ∈ steps, isAscii kv.1 = true ∧ ∃ s, kv.2 = .str s ∧ isAscii s = true

theorem checkStr_inv {text : String} {u : Unit} (h : (Json.str text).checkStr = .ok u) :
    isAscii text = true := by
  by_contra hnot
  rw [Json.checkStr, if_neg hnot] at h
  cases h

theorem stepPiece_ok {kv : String × Json} (hk : isAscii kv.1 = true)
    (hs : ∃ s, kv.2 = .str s ∧ isAscii s = true) :
    stepPiece kv = .ok (.stepCell kv.1 kv.2) := by
  obtain ⟨s, hv, ha⟩ := hs
  unfold stepPiece
  simp [hv, Json.checkStr, hk, ha, bind, Except.bind]

/-- The pieces of a case with text steps. -/
def caseRow (value : Int) (steps : List (String × Json)) : List Piece :=
  .caseCell steps.length value ::
    stepCells steps (steps.map (fun kv => .stepCell kv.1 kv.2))

theorem casePieces_ok {fields steps : List (String × Json)} {value : Int}
    (hlook : fields.lookup (toString value) = some (.obj steps)) (htext : TextSteps steps) :
    casePieces (.obj fields) value = .ok (caseRow value steps) := by
  unfold casePieces Json.getItem
  simp only [hlook, bind, Except.bind]
  rw [Fallible.mapM_ok (g := fun kv => Piece.stepCell kv.1 kv.2)
    (fun kv hkv => stepPiece_ok (htext kv hkv).1 (htext kv hkv).2)]
  rfl

/-- The case `v` gets a result cell with `flag`: the cell follows the first
step. -/
def shownAs (flag : String) : Json → Bool
  | .obj steps => !steps.isEmpty && resultflag steps == flag
  | _ => false

theorem shownAs_fail (v : Json) : shownAs "FAIL" v = someNotPass v := by
  cases v with
  | obj steps =>
    cases steps with
    | nil => rfl
    | cons kv rest =>
      show ((if (kv :: rest).any (fun kv => !isPass kv.2) then "FAIL" else "PASS") == "FAIL")
        = (kv :: rest).any (fun kv => !isPass kv.2)
      cases (kv :: rest).any (fun kv => !isPass kv.2) <;> rfl
  | _ => rfl

theorem shownAs_pass (v : Json) : shownAs "PASS" v = allPass v := by
  cases v with
  | obj steps =>
    cases steps with
    | nil => rfl
    | cons kv rest =>
      have hall : (kv :: rest).all (fun kv => isPass kv.2)
          = !(kv :: rest).any (fun kv => !isPass kv.2) := by
        rw [List.not_any_eq_all_not]
        simp
      show ((if (kv :: rest).any (fun kv => !isPass kv.2) then "FAIL" else "PASS") == "PASS")
        = (kv :: rest).all (fun kv => isPass kv.2)
      rw [hall]
      cases (kv :: rest).any (fun kv => !isPass kv.2) <;> rfl
  | _ => rfl

/-- A case with steps has one result cell, with its result flag; a case without
has none. -/
theorem rendered_caseRow (flag : String) (value : Int) (steps : List (String × Json)) :
    rendered flag (caseRow value steps) = if shownAs flag (.obj steps) then 1 else 0 := by
  have hcells : ∀ l : List (String × Json),
      (l.map (fun kv => Piece.stepCell kv.1 kv.2)).countP (Piece.shows flag) = 0 := by
    intro l
    rw [List.countP_eq_zero]
    intro p hp
    obtain ⟨kv, -, rfl⟩ := List.mem_map.mp hp
    simp [Piece.shows]
  cases steps with
  | nil => rfl
  | cons kv rest =>
    unfold rendered caseRow stepCells
    rw [List.map_cons, List.countP_cons, List.countP_cons, List.countP_cons, hcells]
    simp [Piece.shows, shownAs]

/-! ## `int(str(n))` -/

theorem not_space_of_isDigit {c : Char} (h : c.isDigit = true) : isPySpace c = false := by
  have hrange : 48 ≤ c.toNat ∧ c.toNat ≤ 57 := by
    simpa [Char.isDigit, UInt32.le_iff_toNat_le] using h
  unfold isPySpace
  simp only [Bool.or_eq_false_iff, Bool.and_eq_false_iff, decide_eq_false_iff_not,
    beq_eq_false_iff_ne]
  omega

theorem decimalValue_of_isDigit {c : Char} (h : c.isDigit = true) :
    decimalValue c = some (c.toNat - '0'.toNat) := by
  have hrange : 48 ≤ c.toNat ∧ c.toNat ≤ 57 := by
    simpa [Char.isDigit, UInt32.le_iff_toNat_le] using h
  have hfirst : (decide (0x30 ≤ c.toNat) && decide (c.toNat < 0x30 + 10)) = true := by
    simp only [Bool.and_eq_true, decide_eq_true_eq]
    omega
  have hzeros : decimalZeros = 0x30 :: decimalZeros.tail := rfl
  unfold decimalValue
  rw [hzeros, List.find?_cons, hfirst]
  rfl

theorem digitsFrom_eq : ∀ {cs : List Char} (acc : Nat), (∀ c ∈ cs, c.isDigit = true) →
    digitsFrom acc cs = some (Nat.ofDigitChars 10 cs acc)
  | [], acc, _ => by rw [Nat.ofDigitChars_nil]; rfl
  | c :: cs, acc, h => by
    unfold digitsFrom
    rw [decimalValue_of_isDigit (h c (List.mem_cons_self ..)), Nat.ofDigitChars_cons]
    exact digitsFrom_eq _ (fun d hd => h d (List.mem_cons_of_mem c hd))

theorem isDigit_toDigits {m : Nat} {c : Char} (hc : c ∈ Nat.toDigits 10 m) : c.isDigit = true :=
  Nat.isDigit_of_mem_toDigits (by decide) (by decide) hc

theorem unsigned_toDigits (m : Nat) : unsigned (Nat.toDigits 10 m) = some m := by
  have hdigits : digitsFrom 0 (Nat.toDigits 10 m) = some m := by
    rw [digitsFrom_eq 0 (fun c hc => isDigit_toDigits hc), Nat.ofDigitChars_ten_toDigits]
  unfold unsigned
  split
  · next hnil => exact absurd hnil Nat.toDigits_ne_nil
  · exact hdigits

/-- Where there is no white space, there is none to strip. -/
theorem strip_eq {cs : List Char} (h : ∀ c ∈ cs, isPySpace c = false) :
    ((cs.dropWhile isPySpace).reverse.dropWhile isPySpace).reverse = cs := by
  have hdrop : ∀ l : List Char, (∀ c ∈ l, isPySpace c = false) → l.dropWhile isPySpace = l := by
    intro l hl
    cases l with
    | nil => rfl
    | cons c l => exact List.dropWhile_cons_of_neg (by rw [hl c (List.mem_cons_self ..)]; decide)
  rw [hdrop cs h, hdrop cs.reverse (fun c hc => h c (List.mem_reverse.mp hc)), List.reverse_reverse]

theorem pyInt_toString (n : Int) : pyInt (toString n) = some n := by
  unfold pyInt
  cases n with
  | ofNat m =>
    have htext : (toString (Int.ofNat m)).toList = Nat.toDigits 10 m := Nat.toList_repr
    rw [htext, strip_eq (fun c hc => not_space_of_isDigit (isDigit_toDigits hc))]
    have hsign : ∀ {c : Char} {cs : List Char}, Nat.toDigits 10 m = c :: cs → c.isDigit = true :=
      fun h => isDigit_toDigits (h ▸ List.mem_cons_self ..)
    split
    · next h => exact absurd (hsign h) (by decide)
    · next h => exact absurd (hsign h) (by decide)
    · rw [unsigned_toDigits]
      rfl
  | negSucc m =>
    have htext : (toString (Int.negSucc m)).toList = '-' :: Nat.toDigits 10 (m + 1) := by
      show ("-" ++ Nat.repr (m + 1)).toList = _
      rw [String.toList_append, Nat.toList_repr]
      rfl
    have hspace : ∀ c ∈ '-' :: Nat.toDigits 10 (m + 1), isPySpace c = false := by
      intro c hc
      rcases List.mem_cons.mp hc with rfl | hc
      · decide
      · exact not_space_of_isDigit (isDigit_toDigits hc)
    rw [htext, strip_eq hspace]
    show Option.map (fun k : Int => -k) (do
      let a ← unsigned (Nat.toDigits 10 (m + 1))
      pure (a : Int)) = _
    rw [unsigned_toDigits]
    rfl

/-! ## The whole table -/

/-- A key in the spelling that `str(int(key))` gives back. -/
def Canonical (key : String) : Prop := ∃ n, pyInt key = some n ∧ toString n = key

/-- A result map the mail can be made of: canonical keys, and step names and
statuses in ASCII. -/
structure Mailable (fields : List (String × Json)) : Prop where
  nodup : (Dict.keys fields).Nodup
  canonical : ∀ kv ∈ fields, Canonical kv.1
  steps : ∀ kv ∈ fields, ∃ steps, kv.2 = .obj steps ∧ TextSteps steps

/-- `int(key)` where it does not raise. -/
def keyValue (kv : String × Json) : Int := (pyInt kv.1).getD 0

/-- A result map: keys that `int` accepts, in any spelling, and under each an object of step
names to status texts. -/
structure ResultMap (fields : List (String × Json)) : Prop where
  nodup : (Dict.keys fields).Nodup
  keys : ∀ kv ∈ fields, ∃ n, pyInt kv.1 = some n
  steps : ∀ kv ∈ fields, ∃ steps, kv.2 = .obj steps ∧ ∀ s ∈ steps, ∃ text, s.2 = .str text

/-- The keys are numbers as `str` writes them, and no `long`; the texts are ASCII; and each case
is judged alike. -/
structure Agreeable (fields : List (String × Json)) : Prop where
  canonical : ∀ kv ∈ fields, Canonical kv.1
  short : ∀ kv ∈ fields, isCase kv.1 = true
  ascii : ∀ kv ∈ fields, ∀ steps, kv.2 = .obj steps → TextSteps steps
  alike : ∀ kv ∈ fields, JudgedAlike kv.2

/-- The row of the case that `str(value)` names. -/
def rowOf (fields : List (String × Json)) (value : Int) : List Piece :=
  match fields.lookup (toString value) with
  | some (.obj steps) => caseRow value steps
  | _ => []

/-- How often a flag shows in rows that each hold at most one result cell. -/
theorem rendered_flatten {flag : String} {row : Int → List Piece} {q : Int → Bool} :
    ∀ l : List Int, (∀ n ∈ l, rendered flag (row n) = if q n then 1 else 0) →
      rendered flag (l.map row).flatten = l.countP q := by
  intro l
  induction l with
  | nil => intro _; rfl
  | cons n l ih =>
    intro h
    have hn := h n (List.mem_cons_self ..)
    have hl := ih (fun m hm => h m (List.mem_cons_of_mem _ hm))
    unfold rendered at hn hl ⊢
    rw [List.map_cons, List.flatten_cons, List.countP_append, hn, hl, List.countP_cons]
    omega

/-- A canonical key is found again under its number. -/
theorem lookup_keyValue {fields : List (String × Json)} (hm : Mailable fields)
    {kv : String × Json} (hkv : kv ∈ fields) :
    fields.lookup (toString (keyValue kv)) = some kv.2 := by
  obtain ⟨n, hn, hstr⟩ := hm.canonical kv hkv
  unfold keyValue
  rw [hn, Option.getD_some, hstr]
  exact Dict.lookup_of_mem hm.nodup hkv

/-- Formatting does not raise: every number of the sorted list names a case of
the map, and its row is written. -/
theorem formatPieces_ok {fields : List (String × Json)} (hm : Mailable fields) :
    formatPieces (.obj fields) = .ok (.tableOpen :: .header ::
      (((sortByAbs (fields.map keyValue)).map (rowOf fields)).flatten ++ [.tableClose])) := by
  have hseq : fields.mapM intKey = .ok (fields.map keyValue) := by
    refine Fallible.mapM_ok (fun kv hkv => ?_)
    obtain ⟨n, hn, -⟩ := hm.canonical kv hkv
    simp [intKey, keyValue, hn]
  have hrows : (sortByAbs (fields.map keyValue)).mapM (casePieces (.obj fields))
      = .ok ((sortByAbs (fields.map keyValue)).map (rowOf fields)) := by
    refine Fallible.mapM_ok (fun n hn => ?_)
    obtain ⟨kv, hkv, rfl⟩ := List.mem_map.mp ((List.perm_insertionSort _ _).mem_iff.mp hn)
    obtain ⟨steps, hv, htext⟩ := hm.steps kv hkv
    have hlook := lookup_keyValue hm hkv
    rw [hv] at hlook
    rw [casePieces_ok hlook htext]
    unfold rowOf
    rw [hlook]
  unfold formatPieces
  simp only [hseq, hrows, bind, Except.bind]

/-- The table shows a flag once for each case of the map that is shown so: the
sort only changes the order of the rows. -/
theorem rendered_table (flag : String) {fields : List (String × Json)} (hm : Mailable fields) :
    rendered flag (.tableOpen :: .header ::
      (((sortByAbs (fields.map keyValue)).map (rowOf fields)).flatten ++ [.tableClose]))
        = fields.countP (fun kv => shownAs flag kv.2) := by
  -- the verdict on the case that a number names
  let shown : Int → Bool := fun n => ((fields.lookup (toString n)).map (shownAs flag)).getD false
  have hshown : ∀ kv ∈ fields, shown (keyValue kv) = shownAs flag kv.2 := by
    intro kv hkv
    show ((fields.lookup (toString (keyValue kv))).map (shownAs flag)).getD false = _
    rw [lookup_keyValue hm hkv]
    rfl
  have hcell : ∀ n ∈ sortByAbs (fields.map keyValue),
      rendered flag (rowOf fields n) = if shown n then 1 else 0 := by
    intro n hn
    obtain ⟨kv, hkv, rfl⟩ := List.mem_map.mp ((List.perm_insertionSort _ _).mem_iff.mp hn)
    obtain ⟨steps, hv, -⟩ := hm.steps kv hkv
    have hlook := lookup_keyValue hm hkv
    rw [hv] at hlook
    rw [hshown kv hkv, hv]
    unfold rowOf
    rw [hlook]
    exact rendered_caseRow flag _ steps
  have hrows : rendered flag ((sortByAbs (fields.map keyValue)).map (rowOf fields)).flatten
      = fields.countP (fun kv => shownAs flag kv.2) := by
    rw [rendered_flatten _ hcell]
    unfold sortByAbs
    rw [(List.perm_insertionSort _ _).countP_eq, List.countP_map]
    exact List.countP_congr (fun kv hkv => by
      rw [Function.comp_apply, hshown kv hkv])
  rw [← hrows]
  simp [rendered, Piece.shows]

/-! ## The two counts -/

theorem isFail_not_isPass {v : Json} (h : isFail v = true) : isPass v = false := by
  cases v with
  | str s =>
    have hs : s = "FAIL" := by simpa [isFail] using h
    subst hs
    decide
  | _ => rfl

/-- A case that `summary` counts as failed the mail shows as failed. -/
theorem someNotPass_of_caseFails {v : Json} (h : caseFails v = true) : someNotPass v = true := by
  cases v with
  | obj steps =>
    obtain ⟨s, hs, hfail⟩ := List.any_eq_true.mp h
    exact List.any_eq_true.mpr ⟨s, hs, by rw [isFail_not_isPass hfail]; rfl⟩
  | _ => cases h

/-- Where one test implies another, they count alike exactly if they agree on
every entry. -/
theorem countP_eq_iff {α : Type} {p q : α → Bool} :
    ∀ {l : List α}, (∀ x ∈ l, q x = true → p x = true) →
      (l.countP p = l.countP q ↔ ∀ x ∈ l, p x = true → q x = true) := by
  intro l
  induction l with
  | nil => intro _; simp
  | cons x l ih =>
    intro h
    have hl := fun y hy => h y (List.mem_cons_of_mem x hy)
    have hle : l.countP q ≤ l.countP p := List.countP_mono_left hl
    have hx := h x (List.mem_cons_self ..)
    rw [List.countP_cons, List.countP_cons, List.forall_mem_cons, ← ih hl]
    cases hp : p x with
    | false =>
      have hq : q x = false := by
        cases hq : q x with
        | false => rfl
        | true => exact absurd (hx hq) (by simp [hp])
      simp [hq]
    | true =>
      cases q x with
      | false =>
        simp only [Bool.false_eq_true, if_true, if_false, imp_false, not_true_eq_false, false_and,
          iff_false]
        omega
      | true => simp

/-- Every case has failed, passed or has no steps, in the eyes of the mail. -/
theorem length_eq_verdicts {fields : List (String × Json)}
    (hobj : ∀ kv ∈ fields, ∃ steps, kv.2 = .obj steps) :
    fields.length = fields.countP (fun kv => someNotPass kv.2)
      + fields.countP (fun kv => allPass kv.2) + fields.countP (fun kv => noSteps kv.2) := by
  induction fields with
  | nil => rfl
  | cons kv rest ih =>
    have hrest := ih (fun kv hkv => hobj kv (List.mem_cons_of_mem _ hkv))
    obtain ⟨steps, hv⟩ := hobj kv (List.mem_cons_self ..)
    have hone : (if someNotPass kv.2 then 1 else 0) + (if allPass kv.2 then 1 else 0)
        + (if noSteps kv.2 then 1 else 0) = 1 := by
      rw [hv, ← shownAs_pass, ← shownAs_fail]
      cases steps with
      | nil => rfl
      | cons s rest =>
        show (if (if (s :: rest).any (fun kv => !isPass kv.2) then "FAIL" else "PASS") == "FAIL"
            then 1 else 0)
          + (if (if (s :: rest).any (fun kv => !isPass kv.2) then "FAIL" else "PASS") == "PASS"
            then 1 else 0) + 0 = 1
        cases (s :: rest).any (fun kv => !isPass kv.2) <;> rfl
    rw [List.length_cons, List.countP_cons, List.countP_cons, List.countP_cons, hrest]
    omega

/-- **The mail against the summary.** Of every mailable map the mail shows as
`FAIL` the cases with some status other than `PASS`, and as `PASS` those that
have steps, all of them passed; where `summary` counts every case, these are its
two counts exactly if each case is judged alike. -/
theorem mail_agrees (strOther : Json → String) {fields : List (String × Json)}
    (hm : Mailable fields) :
    ∃ pieces, formatPieces (.obj fields) = .ok pieces ∧
      formatJsonToHtml strOther (.obj fields)
        = .ok (String.join (pieces.map (Piece.html strOther))) ∧
      rendered "FAIL" pieces = fields.countP (fun kv => someNotPass kv.2) ∧
      rendered "PASS" pieces = fields.countP (fun kv => allPass kv.2) ∧
      ((∀ kv ∈ fields, isCase kv.1 = true) →
        ((rendered "FAIL" pieces = (summary fields).failure ∧
          rendered "PASS" pieces = (summary fields).sucessfully) ↔
            ∀ kv ∈ fields, JudgedAlike kv.2)) := by
  have hpieces := formatPieces_ok hm
  have hfail := rendered_table "FAIL" hm
  have hpass := rendered_table "PASS" hm
  simp only [shownAs_fail] at hfail
  simp only [shownAs_pass] at hpass
  refine ⟨_, hpieces, by unfold formatJsonToHtml; rw [hpieces]; rfl, hfail, hpass, ?_⟩
  intro hcase
  have hcount : caseCount fields = fields.length := List.countP_eq_length.mpr hcase
  have hfails : failCount fields = fields.countP (fun kv => caseFails kv.2) :=
    List.countP_congr (fun kv hkv => by rw [hcase kv hkv, Bool.true_and])
  have hsame := countP_eq_iff (p := fun kv : String × Json => someNotPass kv.2)
    (q := fun kv => caseFails kv.2) (l := fields) (fun _ _ h => someNotPass_of_caseFails h)
  have hlen := length_eq_verdicts (fun kv hkv => (hm.steps kv hkv).imp fun _ h => h.1)
  have hsum : summary fields = ⟨fields.length, fields.countP (fun kv => caseFails kv.2),
      fields.length - fields.countP (fun kv => caseFails kv.2)⟩ := by
    rw [summary_eq, hcount, hfails]
  have hnone : fields.countP (fun kv => noSteps kv.2) = 0 ↔
      ∀ kv ∈ fields, noSteps kv.2 = false := by
    rw [List.countP_eq_zero]
    exact forall₂_congr fun _ _ => Bool.not_eq_true _ |>.to_iff
  rw [hfail, hpass, hsum]
  dsimp only
  constructor
  · intro h
    obtain ⟨hf, hp⟩ := h
    -- what is shown neither as failed nor as passed has no steps
    have hempty : fields.countP (fun kv => noSteps kv.2) = 0 := by omega
    exact fun kv hkv => ⟨hnone.mp hempty kv hkv, hsame.mp hf kv hkv⟩
  · intro h
    have hf := hsame.mpr (fun kv hkv => (h kv hkv).2)
    have hempty := hnone.mpr (fun kv hkv => (h kv hkv).1)
    exact ⟨hf, by omega⟩

/-! ## Which maps agree -/

theorem stepPiece_inv {kv : String × Json} {text : String} (hv : kv.2 = .str text) {p : Piece}
    (h : stepPiece kv = .ok p) : isAscii kv.1 = true ∧ isAscii text = true := by
  obtain ⟨u, hkey, h⟩ := Fallible.bind_ok_iff.mp h
  obtain ⟨u', hvalue, -⟩ := Fallible.bind_ok_iff.mp h
  rw [hv] at hvalue
  exact ⟨checkStr_inv hkey, checkStr_inv hvalue⟩

/-- The mail is made only if `str(int(key))` is a key for every key, and `str` takes what stands
under it. -/
theorem lookup_of_formatPieces {fields : List (String × Json)} (hmap : ResultMap fields)
    {pieces : List Piece} (h : formatPieces (.obj fields) = .ok pieces) {kv : String × Json}
    (hkv : kv ∈ fields) : ∃ steps, fields.lookup (toString (keyValue kv)) = some (.obj steps) ∧
      ∀ s ∈ steps, ∃ p, stepPiece s = .ok p := by
  have hseq : fields.mapM intKey = .ok (fields.map keyValue) := by
    refine Fallible.mapM_ok (fun kv hkv => ?_)
    obtain ⟨n, hn⟩ := hmap.keys kv hkv
    simp [intKey, keyValue, hn]
  obtain ⟨seq, hseq', h⟩ := Fallible.bind_ok_iff.mp h
  obtain rfl := Except.ok.inj (hseq.symm.trans hseq')
  obtain ⟨rows, hrows, -⟩ := Fallible.bind_ok_iff.mp h
  have hmem : keyValue kv ∈ sortByAbs (fields.map keyValue) :=
    (List.perm_insertionSort _ _).mem_iff.mpr (List.mem_map_of_mem hkv)
  obtain ⟨row, hrow⟩ := Fallible.mapM_mem_ok hrows _ hmem
  obtain ⟨v, hget, hrow⟩ := Fallible.bind_ok_iff.mp hrow
  obtain ⟨fields', hfields, hlookup⟩ := Json.getItem_ok hget
  obtain rfl := Json.obj.inj hfields
  cases v with
  | obj steps =>
    obtain ⟨cells, hcells, -⟩ := Fallible.bind_ok_iff.mp hrow
    exact ⟨steps, hlookup, Fallible.mapM_mem_ok hcells⟩
  | _ => cases hrow

/-- Where no two keys are one number, a mail that is made is made of canonical keys and ASCII
texts. -/
theorem mailable_of_formatPieces {fields : List (String × Json)} (hmap : ResultMap fields)
    (hdistinct : (fields.map keyValue).Nodup) {pieces : List Piece}
    (h : formatPieces (.obj fields) = .ok pieces) : Mailable fields := by
  -- the entry under `str(int(key))` is the entry itself
  have hentry : ∀ kv ∈ fields, ∃ steps, kv = (toString (keyValue kv), .obj steps) ∧
      ∀ s ∈ steps, ∃ p, stepPiece s = .ok p := by
    intro kv hkv
    obtain ⟨steps, hlookup, hsteps⟩ := lookup_of_formatPieces hmap h hkv
    have hmem : (toString (keyValue kv), Json.obj steps) ∈ fields := Dict.mem_of_lookup hlookup
    have hvalue : keyValue (toString (keyValue kv), Json.obj steps) = keyValue kv := by
      show (pyInt (toString (keyValue kv))).getD 0 = keyValue kv
      rw [pyInt_toString]
      rfl
    exact ⟨steps, (List.inj_on_of_nodup_map hdistinct hmem hkv hvalue).symm, hsteps⟩
  refine ⟨hmap.nodup, fun kv hkv => ?_, fun kv hkv => ?_⟩
  · obtain ⟨steps, heq, -⟩ := hentry kv hkv
    obtain ⟨n, hn⟩ := hmap.keys kv hkv
    refine ⟨n, hn, ?_⟩
    have hvalue : keyValue kv = n := by
      unfold keyValue
      rw [hn]
      rfl
    rw [← hvalue]
    exact (congrArg Prod.fst heq).symm
  · obtain ⟨steps, heq, hsteps⟩ := hentry kv hkv
    have hv : kv.2 = .obj steps := congrArg Prod.snd heq
    refine ⟨steps, hv, fun s hs => ?_⟩
    obtain ⟨steps', hv', htexts⟩ := hmap.steps kv hkv
    obtain rfl := Json.obj.inj (hv.symm.trans hv')
    obtain ⟨text, htext⟩ := htexts s hs
    obtain ⟨p, hp⟩ := hsteps s hs
    obtain ⟨hname, hstatus⟩ := stepPiece_inv htext hp
    exact ⟨hname, text, htext, hstatus⟩

/-- **Where mail and summary agree.** They do if the keys are canonical and no `long`, the texts
ASCII, and each case has a step, and a `FAIL` wherever some status is not `PASS`. Where no two
keys are one number, and no key is a `long` or no case is without steps, they do only then. -/
theorem mail_agrees_iff {fields : List (String × Json)} (hmap : ResultMap fields) :
    (Agreeable fields → MailAgrees fields) ∧
    ((fields.map keyValue).Nodup →
      ((∀ kv ∈ fields, isCase kv.1 = true) ∨ ∀ kv ∈ fields, noSteps kv.2 = false) →
      (MailAgrees fields ↔ Agreeable fields)) := by
  have henough : Agreeable fields → MailAgrees fields := by
    intro h
    have hm : Mailable fields := ⟨hmap.nodup, h.canonical, fun kv hkv => by
      obtain ⟨steps, hv, -⟩ := hmap.steps kv hkv
      exact ⟨steps, hv, h.ascii kv hkv steps hv⟩⟩
    obtain ⟨pieces, hpieces, -, -, -, hiff⟩ := mail_agrees (fun _ => "None") hm
    exact ⟨pieces, hpieces, (hiff h.short).mpr h.alike⟩
  refine ⟨henough, fun hdistinct hcounted => ⟨fun h => ?_, henough⟩⟩
  obtain ⟨pieces, hpieces, hfail, hpass⟩ := h
  have hm := mailable_of_formatPieces hmap hdistinct hpieces
  obtain ⟨pieces', hpieces', -, hshownFail, hshownPass, hiff⟩ := mail_agrees (fun _ => "None") hm
  obtain rfl := Except.ok.inj (hpieces.symm.trans hpieces')
  have hcase : ∀ kv ∈ fields, isCase kv.1 = true := by
    rcases hcounted with hcase | hsteps
    · exact hcase
    · -- the mail shows every case, so `summary` counts every case
      have hlen := length_eq_verdicts (fun kv hkv => (hm.steps kv hkv).imp fun _ h => h.1)
      have hnone : fields.countP (fun kv => noSteps kv.2) = 0 :=
        List.countP_eq_zero.mpr (fun kv hkv => by rw [hsteps kv hkv]; decide)
      have hle : failCount fields ≤ caseCount fields :=
        List.countP_mono_left (fun kv _ h => (Bool.and_eq_true_iff.mp h).1)
      rw [summary_eq] at hfail hpass
      dsimp only at hfail hpass
      exact List.countP_eq_length.mp (show caseCount fields = fields.length by omega)
  refine ⟨hm.canonical, hcase, fun kv hkv steps hv => ?_, (hiff hcase).mp ⟨hfail, hpass⟩⟩
  obtain ⟨steps', hv', htext⟩ := hm.steps kv hkv
  obtain rfl := Json.obj.inj (hv.symm.trans hv')
  exact htext

/-! ## Inputs on either side -/

/-- Two cases, one of them failed, with keys the sort puts in another order. -/
def plainMap : List (String × Json) :=
  [("12", .obj [("login", .str "PASS"), ("ping", .str "FAIL")]),
    ("7", .obj [("login", .str "PASS")])]

theorem mailable_plainMap : Mailable plainMap where
  nodup := by decide
  canonical := by
    intro kv hkv
    rcases List.mem_pair.mp hkv with rfl | rfl
    · exact ⟨12, by decide, by decide⟩
    · exact ⟨7, by decide, by decide⟩
  steps := by
    intro kv hkv
    rcases List.mem_pair.mp hkv with rfl | rfl
    · refine ⟨_, rfl, ?_⟩
      intro s hs
      rcases List.mem_pair.mp hs with rfl | rfl
      · exact ⟨by decide, _, rfl, by decide⟩
      · exact ⟨by decide, _, rfl, by decide⟩
    · refine ⟨_, rfl, ?_⟩
      intro s hs
      rw [List.mem_singleton.mp hs]
      exact ⟨by decide, _, rfl, by decide⟩

/-- The mail of `plainMap` shows one failed case and one passed one, as `summary`
counts them. -/
theorem mail_agrees_plainMap : MailAgrees plainMap := by
  have hm := mailable_plainMap
  have hmap : ResultMap plainMap := ⟨hm.nodup, fun kv hkv => (hm.canonical kv hkv).imp
    fun _ h => h.1, fun kv hkv => by
      obtain ⟨steps, hv, htext⟩ := hm.steps kv hkv
      exact ⟨steps, hv, fun s hs => (htext s hs).2.imp fun _ h => h.1⟩⟩
  refine (mail_agrees_iff hmap).1 ⟨hm.canonical, by decide, fun kv hkv steps hv => ?_, by decide⟩
  obtain ⟨steps', hv', htext⟩ := hm.steps kv hkv
  obtain rfl := Json.obj.inj (hv.symm.trans hv')
  exact htext

/-- `MailAgrees`, evaluated. -/
def mailAgrees (fields : List (String × Json)) : Bool :=
  match formatPieces (.obj fields) with
  | .ok pieces => rendered "FAIL" pieces == (summary fields).failure &&
      rendered "PASS" pieces == (summary fields).sucessfully
  | .error _ => false

theorem MailAgrees.eval {fields : List (String × Json)} (h : MailAgrees fields) :
    mailAgrees fields = true := by
  obtain ⟨pieces, hpieces, hfail, hpass⟩ := h
  unfold mailAgrees
  rw [hpieces]
  simp [hfail, hpass]

/-- The two evaluators part on a status that is neither `PASS` nor `FAIL`, on a
spelling of a key that `str` does not give back, on a case without steps, on a
number that is a `long`, and on a status `str` cannot encode. -/
theorem mail_differs :
    ¬ MailAgrees [("1", .obj [("login", .str "ERROR")])] ∧
    ¬ MailAgrees [("01", .obj [("login", .str "PASS")])] ∧
    ¬ MailAgrees [("1", .obj [])] ∧
    ¬ MailAgrees [("9223372036854775808", .obj [("login", .str "PASS")])] ∧
    ¬ MailAgrees [("1", .obj [("login", .str "é"), ("ping", .str "FAIL")])] :=
  ⟨fun h => absurd h.eval (by decide), fun h => absurd h.eval (by decide),
    fun h => absurd h.eval (by decide), fun h => absurd h.eval (by decide),
    fun h => absurd h.eval (by decide)⟩

end PolarBear.Report
