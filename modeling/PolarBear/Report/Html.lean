import PolarBear.Lib.Markup
import PolarBear.Report.Mail

/-!
# The mailed table as markup

The first header cell of the table is opened as `th` and closed as `t`. So no
mail has a table whose elements are nested and closed (`report_malformed`),
whatever the result map; `report_but_header` is what one-step cases of plain texts
would give under a header that reads.
-/

namespace PolarBear.Report

open PolarBear.Py
open PolarBear.Markup

variable (strOther : Json → String)

/-! ## The table a result map asks for -/

/-- The text of a step. -/
def stepText (kv : String × Json) : String :=
  match kv.2 with
  | .str s => kv.1 ++ " : " ++ s
  | v => kv.1 ++ " : " ++ strOther v

/-- The rows of a case, by the texts of their cells: one row for each step, the first with the
id and the result; one row where there is no step. -/
def caseTexts (value : Int) : List (String × Json) → List (List String)
  | [] => [[toString value, resultflag []]]
  | kv :: rest => [toString value, stepText strOther kv, resultflag (kv :: rest)] ::
      rest.map (fun kv => [stepText strOther kv])

def IsCell (text : String) : Node → Prop
  | .char _ => False
  | .element tag children => tagName tag = "td".toList ∧
      ∃ cs : List Char, children = cs.map .char ∧ decode cs = text.toList

def IsRow (texts : List String) : Node → Prop
  | .char _ => False
  | .element tag cells => tagName tag = "tr".toList ∧ List.Forall₂ IsCell texts cells

/-- A row without `td`. -/
def IsHeader : Node → Prop
  | .char _ => False
  | .element tag cells => tagName tag = "tr".toList ∧
      ∀ tag' children, .element tag' children ∈ cells → tagName tag' ≠ "td".toList

/-- One table: a header and the rows of the cases, in ascending order of their ids. -/
def IsReport (fields : List (String × Json)) (html : String) : Prop :=
  ∃ (tag : List Char) (header : Node) (rows : List Node)
    (cases : List (Int × List (String × Json))),
    read html.toList = some [.element tag (header :: rows)] ∧
    tagName tag = "table".toList ∧ IsHeader header ∧
    (cases.map Prod.fst).Pairwise (· ≤ ·) ∧
    (cases.map (fun c => (c.1, Json.obj c.2))).Perm (fields.map (fun kv => (keyValue kv, kv.2))) ∧
    List.Forall₂ IsRow (cases.flatMap (fun c => caseTexts strOther c.1 c.2)) rows

/-- The mail is made, and it is such a table. -/
def MailedReport (fields : List (String × Json)) : Prop :=
  ∃ html, formatJsonToHtml strOther (.obj fields) = .ok html ∧ IsReport strOther fields html

/-! ## The header -/

/-- Every mail starts alike. -/
theorem formatPieces_starts {message : Json} {pieces : List Piece}
    (h : formatPieces message = .ok pieces) :
    ∃ rest, pieces = .tableOpen :: .header :: rest := by
  cases message with
  | obj fields =>
    cases hseq : fields.mapM intKey with
    | error e =>
      simp only [formatPieces, bind, Except.bind, hseq] at h
      cases h
    | ok seq =>
      cases hrows : (sortByAbs seq).mapM (casePieces (.obj fields)) with
      | error e =>
        simp only [formatPieces, bind, Except.bind, hseq, hrows] at h
        cases h
      | ok rows =>
        simp only [formatPieces, bind, Except.bind, hseq, hrows] at h
        cases h
        exact ⟨_, rfl⟩
  | _ => cases h

/-- The `</t>` of the header closes no open element. -/
theorem header_refused :
    run ⟨none, [], []⟩ ((Piece.html strOther .tableOpen).toList ++
      (Piece.html strOther .header).toList) = none := by
  show run _ ("<table border=\"1\" cellspacing=\"0\" width=\"50%\" height=\"150\">".toList ++
    "<tr><th>TC ID</t> <th>Steps Status</th><th>Result</th> </tr>".toList) = none
  decide

/-- No mail has a reading. -/
theorem read_mail {message : Json} {html : String}
    (h : formatJsonToHtml strOther message = .ok html) : read html.toList = none := by
  unfold formatJsonToHtml at h
  cases hpieces : formatPieces message with
  | error e =>
    rw [hpieces] at h
    cases h
  | ok pieces =>
    rw [hpieces] at h
    obtain rfl : String.join (pieces.map (Piece.html strOther)) = html := Except.ok.inj h
    obtain ⟨rest, rfl⟩ := formatPieces_starts hpieces
    rw [List.map_cons, List.map_cons, String.join_cons, String.join_cons, String.toList_append,
      String.toList_append, ← List.append_assoc]
    exact read_append_none (header_refused strOther) _

/-- **No mail is a well-formed table.** -/
theorem report_malformed (fields : List (String × Json)) : ¬ MailedReport strOther fields := by
  rintro ⟨html, hhtml, tag, header, rows, cases, hread, -⟩
  rw [read_mail strOther hhtml] at hread
  cases hread

/-- A passed case of one step, in a malformed table. -/
theorem report_malformed_one :
    ¬ MailedReport (fun _ => "None") [("7", .obj [("login", .str "PASS")])] := by
  rintro ⟨html, hhtml, tag, header, rows, cases, hread, -⟩
  rw [read_mail _ hhtml] at hread
  cases hread

/-! ## But for the header -/

/-- A text that stands for itself in a cell. -/
def Plain (s : String) : Prop := '<' ∉ s.toList ∧ '&' ∉ s.toList

/-- The number of a case, in decimal digits. -/
theorem plain_toString {n : Int} (h : 0 ≤ n) : Plain (toString n) := by
  obtain ⟨m, rfl⟩ := Int.eq_ofNat_of_zero_le h
  have hdigit : ∀ c ∈ (toString (m : Int)).toList, c.isDigit = true := by
    intro c hc
    have htext : (toString (m : Int)).toList = Nat.toDigits 10 m := Nat.toList_repr
    rw [htext] at hc
    exact Nat.isDigit_of_mem_toDigits (by omega) (by omega) hc
  constructor
  · intro h
    exact absurd (hdigit _ h) (by decide)
  · intro h
    exact absurd (hdigit _ h) (by decide)

theorem plain_resultflag (steps : List (String × Json)) : Plain (resultflag steps) := by
  unfold resultflag
  split
  · exact ⟨by decide, by decide⟩
  · exact ⟨by decide, by decide⟩

theorem Plain.append {s t : String} (hs : Plain s) (ht : Plain t) : Plain (s ++ t) := by
  unfold Plain
  rw [String.toList_append, List.mem_append, List.mem_append]
  exact ⟨fun h => h.elim hs.1 ht.1, fun h => h.elim hs.2 ht.2⟩

/-- A cell under some start tag. -/
def cell (tag text : String) : Node := .element tag.toList (text.toList.map .char)

theorem isCell_cell {tag text : String} (htag : tagName tag.toList = "td".toList)
    (htext : Plain text) : IsCell text (cell tag text) :=
  ⟨htag, text.toList, rfl, decode_plain htext.2⟩

/-- The text of a cell. -/
theorem reads_cell (tag : String) {text : String} (htag : tagName tag.toList = "td".toList)
    (hend : '>' ∉ tag.toList) (hstart : tag.toList.head? ≠ some '/') (htext : Plain text) :
    Reads ("<" ++ tag ++ ">" ++ text ++ "</td>").toList [cell tag text] := by
  have := Reads.element (Reads.chars htext.1) _ hend hstart
  rw [htag] at this
  unfold cell
  simpa [String.toList_append] using this

/-- The row of a case with one step. -/
def oneStepRow (value : Int) (kv : String × Json) : Node :=
  .element "tr".toList [cell "td rowspan=\"1\"" (toString value),
    cell "td" (stepText strOther kv), cell "td rowspan=\"1\"" (resultflag [kv])]

/-- Cases of one step, whose name and status stand for themselves. -/
def OneStep (v : Json) : Prop :=
  ∃ name status, v = .obj [(name, .str status)] ∧ Plain name ∧ Plain status

theorem reads_oneStepRow {value : Int} (hvalue : 0 ≤ value) {name status : String}
    (hname : Plain name) (hstatus : Plain status) :
    Reads (String.join ((caseRow value [(name, .str status)]).map (Piece.html strOther))).toList
      [oneStepRow strOther value (name, .str status)] := by
  -- the three cells, and the row around them
  have hid := reads_cell "td rowspan=\"1\"" (by decide) (by decide) (by decide)
    (plain_toString hvalue)
  have htext : Plain (name ++ " : " ++ status) :=
    (hname.append ⟨by decide, by decide⟩).append hstatus
  have hstep := reads_cell "td" (by decide) (by decide) (by decide) htext
  have hresult := reads_cell "td rowspan=\"1\"" (by decide) (by decide) (by decide)
    (plain_resultflag [(name, .str status)])
  have hrow : Reads ("<tr>".toList ++ _ ++ "</tr>".toList) _ :=
    Reads.element ((hid.append hstep).append hresult) "tr".toList (by decide) (by decide)
  rw [← String.toList_append, ← String.toList_append, ← String.toList_append,
    ← String.toList_append] at hrow
  have hone : toString (1 : Nat) = "1" := by decide
  have hfirst : "<" ++ "td rowspan=\"1\"" ++ ">" = "<td rowspan=\"" ++ "1" ++ "\">" := by decide
  -- the same row from its pieces
  have hpieces : (caseRow value [(name, .str status)]).map (Piece.html strOther) =
      [(Piece.caseCell 1 value).html strOther, (Piece.stepCell name (.str status)).html strOther,
        (Piece.resultCell 1 (resultflag [(name, .str status)])).html strOther] := rfl
  have hhtml : String.join ((caseRow value [(name, .str status)]).map (Piece.html strOther)) =
      "<tr>" ++ ("<" ++ "td rowspan=\"1\"" ++ ">" ++ toString value ++ "</td>" ++
        ("<" ++ "td" ++ ">" ++ (name ++ " : " ++ status) ++ "</td>") ++
        ("<" ++ "td rowspan=\"1\"" ++ ">" ++ resultflag [(name, .str status)] ++ "</td>")) ++
        "</tr>" := by
    have hopen : "<tr><td rowspan=\"" = "<tr>" ++ "<td rowspan=\"" := by decide
    have hclose : "</td></tr>" = "</td>" ++ "</tr>" := by decide
    have hplain : "<" ++ "td" ++ ">" = "<td>" := by decide
    rw [hpieces, String.join_cons, String.join_cons, String.join_cons, String.join_nil, hfirst,
      hplain]
    unfold Piece.html
    dsimp only
    rw [hone, hopen, hclose]
    simp only [String.append_assoc, String.append_empty]
  rw [hhtml]
  exact hrow

theorem tableOpen_html : '<' ::
    "table border=\"1\" cellspacing=\"0\" width=\"50%\" height=\"150\"".toList ++ ['>'] =
      (Piece.html strOther .tableOpen).toList := by
  show _ = "<table border=\"1\" cellspacing=\"0\" width=\"50%\" height=\"150\">".toList
  decide

theorem tableClose_html : '<' :: '/' ::
    tagName "table border=\"1\" cellspacing=\"0\" width=\"50%\" height=\"150\"".toList ++
      ['>'] = (Piece.html strOther .tableClose).toList := by
  show _ = "</table>".toList
  decide

/-- The rows of one-step cases. -/
theorem reads_rows {fields : List (String × Json)} :
    ∀ {seq : List Int}, (∀ n ∈ seq, 0 ≤ n ∧ ∃ v, fields.lookup (toString n) = some v ∧ OneStep v) →
      ∃ (rows : List Node) (cases : List (Int × List (String × Json))),
        cases.map Prod.fst = seq ∧
        cases.map (fun c => (c.1, Json.obj c.2)) =
          seq.map (fun n => (n, (fields.lookup (toString n)).getD .null)) ∧
        Reads (String.join ((seq.map (rowOf fields)).flatten.map (Piece.html strOther))).toList
          rows ∧
        List.Forall₂ IsRow (cases.flatMap (fun c => caseTexts strOther c.1 c.2)) rows
  | [], _ => ⟨[], [], rfl, rfl, Reads.nil, List.Forall₂.nil⟩
  | n :: seq, h => by
    obtain ⟨rows, cases, hids, hcases, hreads, hrows⟩ :=
      reads_rows (fun m hm => h m (List.mem_cons_of_mem n hm))
    obtain ⟨hn, v, hlook, name, status, rfl, hname, hstatus⟩ := h n (List.mem_cons_self ..)
    have hrow : rowOf fields n = caseRow n [(name, .str status)] := by
      unfold rowOf
      rw [hlook]
    refine ⟨oneStepRow strOther n (name, .str status) :: rows, (n, [(name, .str status)]) :: cases,
      ?_, ?_, ?_, ?_⟩
    · rw [List.map_cons, hids]
    · rw [List.map_cons, List.map_cons, hcases, hlook, Option.getD_some]
    · rw [List.map_cons, List.flatten_cons, List.map_append, String.join_append,
        String.toList_append, hrow]
      exact (reads_oneStepRow strOther hn hname hstatus).append hreads
    · have htext : Plain (stepText strOther (name, .str status)) :=
        (hname.append ⟨by decide, by decide⟩ : Plain (name ++ " : ")).append hstatus
      refine List.Forall₂.cons ⟨by decide, ?_⟩ hrows
      refine .cons (isCell_cell (by decide) (plain_toString hn)) (.cons ?_ (.cons ?_ .nil))
      · exact isCell_cell (by decide) htext
      · exact isCell_cell (by decide) (plain_resultflag _)

/-- **But for its header, the mail of one-step cases is the table asked for**, if their numbers
are not negative and their texts stand for themselves. -/
theorem report_but_header {fields : List (String × Json)} (hm : Mailable fields)
    (hone : ∀ kv ∈ fields, 0 ≤ keyValue kv ∧ OneStep kv.2) {header : String} {node : Node}
    (hheader : Reads header.toList [node]) (hnode : IsHeader node) :
    ∃ rest, formatPieces (.obj fields) = .ok (.tableOpen :: .header :: rest) ∧
      IsReport strOther fields (Piece.html strOther .tableOpen ++
        (header ++ String.join (rest.map (Piece.html strOther)))) := by
  have hperm : (sortByAbs (fields.map keyValue)).Perm (fields.map keyValue) :=
    List.perm_insertionSort _ _
  have hseq : ∀ n ∈ sortByAbs (fields.map keyValue),
      0 ≤ n ∧ ∃ v, fields.lookup (toString n) = some v ∧ OneStep v := by
    intro n hn
    obtain ⟨kv, hkv, rfl⟩ := List.mem_map.mp (hperm.mem_iff.mp hn)
    exact ⟨(hone kv hkv).1, kv.2, lookup_keyValue hm hkv, (hone kv hkv).2⟩
  obtain ⟨rows, cases, hids, hcases, hreads, hrows⟩ := reads_rows strOther hseq
  refine ⟨_, formatPieces_ok hm,
    "table border=\"1\" cellspacing=\"0\" width=\"50%\" height=\"150\"".toList,
    node, rows, cases, ?_, by decide, hnode, ?_, ?_, hrows⟩
  · -- the header and the rows, with the table around them
    have htable := Reads.element (hheader.append hreads)
      "table border=\"1\" cellspacing=\"0\" width=\"50%\" height=\"150\"".toList
      (by decide) (by decide)
    rw [tableOpen_html strOther, tableClose_html strOther] at htable
    rw [List.map_append, String.join_append, List.map_singleton, String.join_cons,
      String.join_nil, String.append_empty, String.toList_append, String.toList_append,
      String.toList_append, ← List.append_assoc, ← List.append_assoc]
    rw [← List.append_assoc] at htable
    exact htable.read
  · -- the sort is by absolute value, and no number is negative
    rw [hids]
    have : Std.Total (fun a b : Int => a.natAbs ≤ b.natAbs) := ⟨fun a b => Nat.le_total _ _⟩
    have : IsTrans Int (fun a b : Int => a.natAbs ≤ b.natAbs) := ⟨fun a b c => Nat.le_trans⟩
    refine (List.pairwise_insertionSort _ _).imp_of_mem ?_
    intro a b ha hb hle
    have ha := (hseq a ha).1
    have hb := (hseq b hb).1
    omega
  · have hfields : (fields.map keyValue).map
        (fun n => (n, (fields.lookup (toString n)).getD .null)) =
          fields.map (fun kv => (keyValue kv, kv.2)) := by
      rw [List.map_map]
      refine List.map_congr_left (fun kv hkv => ?_)
      rw [Function.comp_apply, lookup_keyValue hm hkv, Option.getD_some]
    rw [hcases, ← hfields]
    exact hperm.map _

end PolarBear.Report
