import Mathlib.Data.List.TakeWhile
import PolarBear.Lib.Dict
import PolarBear.Lib.Regex
import PolarBear.Urlmap.Accept

/-!
# Header values with options

`parse_options_header` puts a semicolon before a header value and looks for the
pieces `;key=value` with a regular expression. The first piece is the name, the
others are the options. The generator of the pieces is advanced by hand for the
name, so a value in which there is no piece raises `StopIteration`.

What the expression finds is said without it (`pieces`): between two semicolons is
a segment, and its piece is the run of characters after its leading blanks, if
there is one, with what stands after a `=` behind it. A quoted string of the
expression never has a part in this: the other branch is tried first and takes the
quote as well. `tokenize_eq_pieces` is the connection.
-/

namespace PolarBear.Urlmap

open PolarBear.Regex

/-! ## The regular expression -/

/-- `\s`, without the flag `UNICODE`. -/
def isSpace (c : Char) : Bool := c == ' ' || decide (9 ≤ c.toNat ∧ c.toNat ≤ 13)

/-- `[^\s;=]` -/
def isKeyChar (c : Char) : Bool := !(isSpace c || c == ';' || c == '=')

/-- `[^;]` -/
def isValueChar (c : Char) : Bool := c != ';'

/-- `[^"\\]` -/
def isPlainChar (c : Char) : Bool := !(c == '"' || c == '\\')

def spaces : Pattern := .star (.one isSpace)

/-- `"[^"\\]*(?:\\.[^"\\]*)*"` -/
def quotedString : Pattern :=
  .seq (.char '"') (.seq (.star (.one isPlainChar))
    (.seq (.star (.seq (.char '\\') (.seq (.one (· != '\n')) (.star (.one isPlainChar)))))
      (.char '"')))

/-- A group of characters or a quoted string. -/
def grouped (k : Nat) (p : Char → Bool) : Pattern :=
  .group k (.alt (.plus (.one p)) quotedString)

/-- `([^\s;=]+|%s)` -/
def keyPattern : Pattern := grouped 1 isKeyChar

/-- `([^;]+|%s)` -/
def valuePattern : Pattern := grouped 2 isValueChar

/-- `=\s*([^;]+|%s)` -/
def assignPattern : Pattern := .seq (.char '=') (.seq spaces valuePattern)

/-- `\s*(?:=\s*([^;]+|%s))?\s*` -/
def afterKey : Pattern := .seq spaces (.seq (.opt assignPattern) spaces)

/-- `_option_header_piece_re` -/
def optionHeaderPiece : Pattern :=
  .seq (.char ';') (.seq spaces (.seq keyPattern afterKey))

/-! ## Parsing -/

/-- `unquote_header_value` -/
def unquoteHeaderValue (value : List Char) : List Char :=
  if value.head? = some '"' ∧ value.getLast? = some '"' then (value.drop 1).dropLast else value

/-- The groups of a match, unquoted. -/
def unquoted (piece : List Char × Option (List Char)) : String × Option String :=
  (String.ofList (unquoteHeaderValue piece.1),
    piece.2.map (fun value => String.ofList (unquoteHeaderValue value)))

/-- `match.groups()` -/
def State.piece (m : State) : List Char × Option (List Char) :=
  ((m.groupText 1).getD [], m.groupText 2)

/-- `_tokenize` -/
def tokenize (text : List Char) : List (String × Option String) :=
  (optionHeaderPiece.findAll (text.length + 1) (.start text)).map
    (fun m => unquoted (State.piece m))

/-- `next(parts)[0], dict(parts)` -/
def nameAndOptions : List (String × Option String) → Except Crash (String × Params)
  | [] => .error .stopIteration
  | (name, _) :: parts => .ok (name, Dict.update [] parts)

/-- `parse_options_header` -/
def parseOptionsHeader (value : String) : Except Crash (String × Params) :=
  if value = "" then .ok ("", []) else nameAndOptions (tokenize (';' :: value.toList))

/-! ## Pieces -/

/-- What stands after a `=`: up to the next semicolon, without leading blanks; a blank, if there
are only blanks. -/
def assigned (text : List Char) : Option (List Char) :=
  if (text.dropWhile isSpace).takeWhile isValueChar = [] then
    (text.takeWhile isSpace).getLast?.map (fun c => [c])
  else some ((text.dropWhile isSpace).takeWhile isValueChar)

def valueText : List Char → Option (List Char)
  | [] => none
  | c :: text => if c = '=' then assigned text else none

/-- The piece at the front of a text. -/
def firstPiece (text : List Char) : Option (List Char × Option (List Char)) :=
  if (text.dropWhile isSpace).takeWhile isKeyChar = [] then none
  else some ((text.dropWhile isSpace).takeWhile isKeyChar,
    valueText (((text.dropWhile isSpace).dropWhile isKeyChar).dropWhile isSpace))

/-- The pieces of the segments between the semicolons. -/
def pieces (text : List Char) : List (List Char × Option (List Char)) :=
  (text.splitOn ';').filterMap firstPiece

example : pieces "a/b; q = 1;; x; y= \"z\" ".toList =
    [("a/b".toList, none), ("q".toList, some "1".toList), ("x".toList, none),
      ("y".toList, some "\"z\" ".toList)] := by decide

/-- What is behind the end of the segment at the front. -/
def nextSegment (text : List Char) : List Char := text.dropWhile isValueChar

/-! ## What the expression takes -/

theorem quotedString_of_ne {n : Nat} {c : Char} {cs : List Char} {g : List (Nat × List Char)}
    (hc : c ≠ '"') : quotedString.run ⟨n, c :: cs, g⟩ = [] := by
  unfold quotedString
  rw [run_seq]
  show (next _ ⟨n, c :: cs, g⟩).flatMap _ = []
  rw [next_cons, if_neg (fun h => hc (beq_iff_eq.mp h)), List.flatMap_nil]

section

variable {p : Char → Bool} {k n : Nat} {g : List (Nat × List Char)}

theorem grouped_nil : (grouped k p).run ⟨n, [], g⟩ = [] := rfl

theorem grouped_cons_neg (hquote : p '"' = true) {c : Char} {cs : List Char} (hc : p c = false) :
    (grouped k p).run ⟨n, c :: cs, g⟩ = [] := by
  have hne : c ≠ '"' := by
    rintro rfl
    rw [hquote] at hc
    cases hc
  show (((next p ⟨n, c :: cs, g⟩).flatMap (runs p)) ++ quotedString.run ⟨n, c :: cs, g⟩).map _ = []
  rw [next_cons, if_neg (by rw [hc]; exact Bool.false_ne_true), quotedString_of_ne hne]
  rfl

/-- The group takes the whole run first, if what follows can go on from there. -/
theorem head?_grouped_flatMap {c : Char} (cs : List Char) (hc : p c = true)
    (f : State → List State)
    (hf : f ⟨n + ((c :: cs).takeWhile p).length, (c :: cs).dropWhile p,
      (k, (c :: cs).takeWhile p) :: g⟩ ≠ []) :
    (((grouped k p).run ⟨n, c :: cs, g⟩).flatMap f).head? =
      (f ⟨n + ((c :: cs).takeWhile p).length, (c :: cs).dropWhile p,
        (k, (c :: cs).takeWhile p) :: g⟩).head? := by
  have hskip : State.skip p ⟨n + 1, cs, g⟩ =
      ⟨n + ((c :: cs).takeWhile p).length, (c :: cs).dropWhile p, g⟩ := by
    rw [← skip_cons_pos hc]
    rfl
  have htake : (c :: cs).take ((c :: cs).takeWhile p).length = (c :: cs).takeWhile p :=
    (List.prefix_iff_eq_take.mp (List.takeWhile_prefix p)).symm
  have hplus : (Pattern.plus (.one p)).run ⟨n, c :: cs, g⟩ = runs p ⟨n + 1, cs, g⟩ := by
    show (next p ⟨n, c :: cs, g⟩).flatMap (runs p) = _
    rw [next_cons, if_pos hc, List.flatMap_cons, List.flatMap_nil, List.append_nil]
  have hrun : (grouped k p).run ⟨n, c :: cs, g⟩ =
      ((Pattern.plus (.one p)).run ⟨n, c :: cs, g⟩ ++ quotedString.run ⟨n, c :: cs, g⟩).map
        (fun t => ⟨t.before, t.rest, (k, (c :: cs).take (t.before - n)) :: t.groups⟩) := rfl
  have hhead := head?_flatMap_run (p := p) (f := fun t =>
    f ⟨t.before, t.rest, (k, (c :: cs).take (t.before - n)) :: t.groups⟩) cs (n + 1) g
  rw [hskip] at hhead
  simp only [Nat.add_sub_cancel_left, htake] at hhead
  rw [hrun, hplus, List.map_append, List.flatMap_append, List.head?_append, List.flatMap_map,
    hhead hf]
  cases hfirst : f ⟨n + ((c :: cs).takeWhile p).length, (c :: cs).dropWhile p,
      (k, (c :: cs).takeWhile p) :: g⟩ with
  | nil => exact absurd hfirst hf
  | cons t rest => rfl

theorem head?_grouped {c : Char} (cs : List Char) (hc : p c = true) :
    ((grouped k p).run ⟨n, c :: cs, g⟩).head? =
      some ⟨n + ((c :: cs).takeWhile p).length, (c :: cs).dropWhile p,
        (k, (c :: cs).takeWhile p) :: g⟩ := by
  have hhead := head?_grouped_flatMap (k := k) (n := n) (g := g) cs hc (fun t => [t])
    (List.cons_ne_nil _ _)
  rwa [List.flatMap_singleton'] at hhead

end

/-- `rest` is what is left of a text after characters of its first segment. -/
structure Within (text rest : List Char) : Prop where
  next : nextSegment rest = nextSegment text
  length : rest.length ≤ text.length

theorem Within.trans {a b c : List Char} (hab : Within a b) (hbc : Within b c) : Within a c :=
  ⟨hbc.next.trans hab.next, hbc.length.trans hab.length⟩

theorem within_dropWhile {p : Char → Bool} (hp : ∀ c, p c = true → isValueChar c = true)
    (text : List Char) : Within text (text.dropWhile p) := by
  refine ⟨?_, (List.dropWhile_sublist p).length_le⟩
  unfold nextSegment
  induction text with
  | nil => rfl
  | cons c text ih =>
    by_cases hc : p c = true
    · rw [List.dropWhile_cons_of_pos hc, List.dropWhile_cons_of_pos (hp c hc), ih]
    · rw [List.dropWhile_cons_of_neg hc]

theorem within_cons {c : Char} (hc : isValueChar c = true) (text : List Char) :
    Within (c :: text) text := by
  refine ⟨?_, by simp⟩
  unfold nextSegment
  rw [List.dropWhile_cons_of_pos hc]

theorem isValueChar_of_isSpace (c : Char) (hc : isSpace c = true) : isValueChar c = true := by
  refine bne_iff_ne.mpr ?_
  rintro rfl
  exact absurd hc (by decide)

theorem isValueChar_of_isKeyChar (c : Char) (hc : isKeyChar c = true) : isValueChar c = true := by
  refine bne_iff_ne.mpr ?_
  rintro rfl
  exact absurd hc (by decide)

/-- Where a run of characters is empty, the first character is not one. -/
theorem head_of_takeWhile_nil {p : Char → Bool} {c : Char} {cs : List Char}
    (h : (c :: cs).takeWhile p = []) : p c = false := by
  by_contra hc
  rw [Bool.not_eq_false] at hc
  rw [List.takeWhile_cons_of_pos hc] at h
  cases h

theorem cons_of_takeWhile_ne_nil {p : Char → Bool} {text : List Char}
    (h : text.takeWhile p ≠ []) : ∃ c rest, text = c :: rest ∧ p c = true := by
  cases text with
  | nil => exact absurd rfl h
  | cons c rest =>
    refine ⟨c, rest, rfl, ?_⟩
    by_contra hc
    exact h (List.takeWhile_cons_of_neg hc)

theorem takeWhile_dropWhile_self (p : Char → Bool) (text : List Char) :
    (text.dropWhile p).takeWhile p = [] := by
  induction text with
  | nil => rfl
  | cons c text ih =>
    by_cases hc : p c = true
    · rw [List.dropWhile_cons_of_pos hc, ih]
    · rw [List.dropWhile_cons_of_neg hc, List.takeWhile_cons_of_neg hc]

/-- A group takes nothing where there is none of its characters. -/
theorem grouped_of_takeWhile_nil {k n : Nat} {p : Char → Bool} {g : List (Nat × List Char)}
    (hquote : p '"' = true) {cs : List Char} (h : cs.takeWhile p = []) :
    (grouped k p).run ⟨n, cs, g⟩ = [] := by
  cases cs with
  | nil => exact grouped_nil
  | cons c cs => exact grouped_cons_neg hquote (head_of_takeWhile_nil h)

/-- The ways to take a text after the key, in terms of the value: no way if there is none. -/
structure TakesValue (value : Option (List Char)) (m : Nat) (text : List Char)
    (g : List (Nat × List Char)) (ways : List State) : Prop where
  none : value = none → ways = []
  some : ∀ w, value = some w → ∃ m' rest, m ≤ m' ∧ Within text rest ∧
    ways.head? = some ⟨m', rest, (2, w) :: g⟩

/-- What is taken after a `=`. -/
theorem takes_assigned (m : Nat) (text : List Char) (g : List (Nat × List Char)) :
    TakesValue (assigned text) m text g
      ((runs isSpace ⟨m, text, g⟩).flatMap valuePattern.run) := by
  have hsplit := List.takeWhile_append_dropWhile (p := isSpace) (l := text)
  have hdrop := within_dropWhile isValueChar_of_isSpace text
  have hend : ∀ rest, Within rest (rest.dropWhile isValueChar) :=
    fun rest => within_dropWhile (fun _ h => h) rest
  unfold assigned
  by_cases hvalue : (text.dropWhile isSpace).takeWhile isValueChar = []
  · have hnone : ∀ m', valuePattern.run ⟨m', text.dropWhile isSpace, g⟩ = [] :=
      fun m' => grouped_of_takeWhile_nil rfl hvalue
    rw [if_pos hvalue]
    rcases List.eq_nil_or_concat (text.takeWhile isSpace) with hblank | ⟨w, c, hblank⟩
    · -- nothing before the end of the segment
      rw [hblank, List.nil_append] at hsplit
      have hways := hnone m
      rw [hsplit] at hways
      rw [hblank, runs_of_takeWhile_nil hblank, List.flatMap_cons, List.flatMap_nil,
        List.append_nil, hways]
      exact ⟨fun _ => rfl, fun v hv => by cases hv⟩
    · -- only blanks: the search goes back by one of them
      rw [List.concat_eq_append] at hblank
      rw [hblank, List.append_assoc, List.singleton_append] at hsplit
      have hspaces : ∀ d ∈ w ++ [c], isSpace d = true :=
        fun d hd => List.mem_takeWhile_imp (hblank ▸ hd)
      have hc : isSpace c = true :=
        hspaces c (List.mem_append_right _ (List.mem_singleton.mpr rfl))
      have hcvalue := isValueChar_of_isSpace c hc
      have hhead := head?_grouped (k := 2) (n := m + w.length) (g := g)
        (text.dropWhile isSpace) hcvalue
      rw [List.takeWhile_cons_of_pos hcvalue, List.dropWhile_cons_of_pos hcvalue, hvalue] at hhead
      have hback := head?_flatMap_run_back (f := valuePattern.run) hc
        (takeWhile_dropWhile_self isSpace text) w m g
        (fun d hd => hspaces d (List.mem_append_left _ hd)) (hnone _)
        (ne_nil_of_head? hhead)
      rw [hsplit] at hback
      rw [hblank, List.getLast?_concat]
      refine ⟨fun h => absurd h (Option.some_ne_none _), fun v hv => ?_⟩
      cases hv
      exact ⟨_, _, by omega, hdrop.trans (hend _), hback.trans hhead⟩
  · rw [if_neg hvalue]
    refine ⟨fun h => absurd h (Option.some_ne_none _), fun v hv => ?_⟩
    cases hv
    obtain ⟨c, rest, hrest, hc⟩ := cons_of_takeWhile_ne_nil hvalue
    have hhead := head?_grouped (k := 2) (n := m + (text.takeWhile isSpace).length) (g := g)
      rest hc
    rw [← hrest] at hhead
    have hfirst := head?_flatMap_run (p := isSpace) (f := valuePattern.run) text m g
      (ne_nil_of_head? hhead)
    exact ⟨_, _, by omega, hdrop.trans (hend _), hfirst.trans hhead⟩

/-- **The value of an option.** -/
theorem takes_valueText (m : Nat) (text : List Char) (g : List (Nat × List Char)) :
    TakesValue (valueText text) m text g (assignPattern.run ⟨m, text, g⟩) := by
  cases text with
  | nil => exact ⟨fun _ => rfl, fun w hw => by cases hw⟩
  | cons c text =>
    have hrun : assignPattern.run ⟨m, c :: text, g⟩ =
        (next (· == '=') ⟨m, c :: text, g⟩).flatMap
          (fun s => (runs isSpace s).flatMap valuePattern.run) := rfl
    have hvalue : valueText (c :: text) = if c = '=' then assigned text else none := rfl
    rw [hrun, next_cons, hvalue]
    by_cases hc : c = '='
    · rw [if_pos hc, if_pos (beq_iff_eq.mpr hc), List.flatMap_cons, List.flatMap_nil,
        List.append_nil]
      obtain ⟨hnone, hsome⟩ := takes_assigned (m + 1) text g
      refine ⟨hnone, fun w hw => ?_⟩
      obtain ⟨m', rest, hm, hwithin, hhead⟩ := hsome w hw
      have hcvalue : isValueChar c = true := hc ▸ rfl
      exact ⟨m', rest, by omega, (within_cons hcvalue text).trans hwithin, hhead⟩
    · rw [if_neg hc, if_neg (fun h => hc (beq_iff_eq.mp h)), List.flatMap_nil]
      exact ⟨fun _ => rfl, fun w hw => by cases hw⟩

/-- The first way to take what is behind a key. -/
theorem head?_afterKey (m : Nat) (text : List Char) (g : List (Nat × List Char)) :
    ∃ m' rest, m ≤ m' ∧ Within text rest ∧ (afterKey.run ⟨m, text, g⟩).head? =
      some ⟨m', rest, (valueText (text.dropWhile isSpace)).toList.map (fun w => (2, w)) ++ g⟩ := by
  have hskip := within_dropWhile isValueChar_of_isSpace text
  have hfollow : ∀ s : State, ((assignPattern.run s ++ [s]).flatMap (runs isSpace)).head? =
      (assignPattern.run s ++ [s]).head?.map (State.skip isSpace) :=
    fun s => head?_flatMap_runs _
  have hfirst := head?_flatMap_run (p := isSpace)
    (f := fun s => (assignPattern.run s ++ [s]).flatMap (runs isSpace)) text m g
    (fun hnil => by
      have hnone := (hfollow _).symm.trans (List.head?_eq_none_iff.mpr hnil)
      simp at hnone)
  have hrun : (afterKey.run ⟨m, text, g⟩).head? = _ := hfirst.trans (hfollow _)
  have hplace : State.skip isSpace ⟨m, text, g⟩ =
      ⟨m + (text.takeWhile isSpace).length, text.dropWhile isSpace, g⟩ := rfl
  rw [hrun, hplace]
  obtain ⟨hnone, hsome⟩ := takes_valueText (m + (text.takeWhile isSpace).length)
    (text.dropWhile isSpace) g
  cases hvalue : valueText (text.dropWhile isSpace) with
  | none =>
    rw [hnone hvalue]
    have hbefore := before_le_skip isSpace ⟨m + (text.takeWhile isSpace).length,
      text.dropWhile isSpace, g⟩
    exact ⟨_, _, (Nat.le_add_right _ _).trans hbefore,
      hskip.trans (within_dropWhile isValueChar_of_isSpace _), rfl⟩
  | some w =>
    obtain ⟨m', rest, hm, hwithin, hhead⟩ := hsome w hvalue
    rw [List.head?_append, hhead]
    exact ⟨_, _, ((Nat.le_add_right _ _).trans hm).trans (before_le_skip isSpace ⟨m', _, _⟩),
      (hskip.trans hwithin).trans (within_dropWhile isValueChar_of_isSpace _), rfl⟩

theorem optionHeaderPiece_of_ne {n : Nat} {c : Char} {cs : List Char}
    {g : List (Nat × List Char)} (hc : c ≠ ';') : optionHeaderPiece.run ⟨n, c :: cs, g⟩ = [] := by
  show (next (· == ';') ⟨n, c :: cs, g⟩).flatMap _ = []
  rw [next_cons, if_neg (fun h => hc (beq_iff_eq.mp h)), List.flatMap_nil]

/-- All blanks behind a semicolon are skipped. -/
theorem optionHeaderPiece_cons (n : Nat) (text : List Char) (g : List (Nat × List Char)) :
    optionHeaderPiece.run ⟨n, ';' :: text, g⟩ =
      (keyPattern.run ⟨n + 1 + (text.takeWhile isSpace).length, text.dropWhile isSpace, g⟩).flatMap
        afterKey.run := by
  have hnext : optionHeaderPiece.run ⟨n, ';' :: text, g⟩ =
      (next (· == ';') ⟨n, ';' :: text, g⟩).flatMap (fun s =>
        (runs isSpace s).flatMap (fun t => (keyPattern.run t).flatMap afterKey.run)) := rfl
  rw [hnext, next_cons, if_pos (beq_self_eq_true _), List.flatMap_cons, List.flatMap_nil,
    List.append_nil]
  refine flatMap_run_only (fun m c cs g hc => ?_) text (n + 1) g
  have hkey : isKeyChar c = false := by
    unfold isKeyChar
    rw [hc]
    rfl
  rw [keyPattern, grouped_cons_neg rfl hkey, List.flatMap_nil]

/-- **The piece at a semicolon**: what the expression takes there first. -/
theorem head?_optionHeaderPiece (n : Nat) (text : List Char) :
    (firstPiece text = none → (optionHeaderPiece.run ⟨n, ';' :: text, []⟩).head? = none) ∧
      ∀ piece, firstPiece text = some piece → ∃ m, n < m.before ∧ Within text m.rest ∧
        (optionHeaderPiece.run ⟨n, ';' :: text, []⟩).head? = some m ∧ State.piece m = piece := by
  have hskip := within_dropWhile isValueChar_of_isSpace text
  rw [optionHeaderPiece_cons]
  unfold firstPiece
  by_cases hkey : (text.dropWhile isSpace).takeWhile isKeyChar = []
  · rw [if_pos hkey, keyPattern, grouped_of_takeWhile_nil rfl hkey]
    exact ⟨fun _ => rfl, fun piece h => absurd h.symm (Option.some_ne_none _)⟩
  · rw [if_neg hkey]
    refine ⟨fun h => absurd h (Option.some_ne_none _), fun piece hpiece => ?_⟩
    obtain ⟨c, rest, hrest, hc⟩ := cons_of_takeWhile_ne_nil hkey
    have hwithin := hskip.trans (within_dropWhile isValueChar_of_isKeyChar _)
    rw [hrest] at hpiece hwithin ⊢
    obtain ⟨m, left, hm, hleft, hhead⟩ := head?_afterKey
      (n + 1 + (text.takeWhile isSpace).length + ((c :: rest).takeWhile isKeyChar).length)
      ((c :: rest).dropWhile isKeyChar) ((1, (c :: rest).takeWhile isKeyChar) :: [])
    refine ⟨⟨m, left, _⟩, ?_, hwithin.trans hleft,
      (head?_grouped_flatMap rest hc afterKey.run (ne_nil_of_head? hhead)).trans hhead, ?_⟩
    · show n < m
      omega
    · cases hpiece
      unfold State.piece State.groupText
      cases valueText (((c :: rest).dropWhile isKeyChar).dropWhile isSpace) <;> rfl

/-! ## The pieces of a value -/

section

variable {p : Char → Bool} (hp : ∀ c, p c = true → isValueChar c = true)

include hp

/-- A run inside of a segment ends before the next one. -/
theorem takeWhile_segment (text : List Char) :
    (text.takeWhile isValueChar).takeWhile p = text.takeWhile p := by
  induction text with
  | nil => rfl
  | cons c text ih =>
    by_cases hc : p c = true
    · rw [List.takeWhile_cons_of_pos (hp c hc), List.takeWhile_cons_of_pos hc,
        List.takeWhile_cons_of_pos hc, ih]
    · rw [List.takeWhile_cons_of_neg hc]
      by_cases hvalue : isValueChar c = true
      · rw [List.takeWhile_cons_of_pos hvalue, List.takeWhile_cons_of_neg hc]
      · rw [List.takeWhile_cons_of_neg hvalue]
        rfl

theorem dropWhile_segment (text : List Char) :
    (text.takeWhile isValueChar).dropWhile p = (text.dropWhile p).takeWhile isValueChar := by
  induction text with
  | nil => rfl
  | cons c text ih =>
    by_cases hc : p c = true
    · rw [List.takeWhile_cons_of_pos (hp c hc), List.dropWhile_cons_of_pos hc,
        List.dropWhile_cons_of_pos hc, ih]
    · rw [List.dropWhile_cons_of_neg hc]
      by_cases hvalue : isValueChar c = true
      · rw [List.takeWhile_cons_of_pos hvalue, List.dropWhile_cons_of_neg hc]
      · rw [List.takeWhile_cons_of_neg hvalue]
        rfl

end

theorem assigned_segment (text : List Char) :
    assigned (text.takeWhile isValueChar) = assigned text := by
  unfold assigned
  rw [dropWhile_segment isValueChar_of_isSpace, takeWhile_segment isValueChar_of_isSpace,
    takeWhile_segment (fun _ h => h)]

theorem valueText_segment (text : List Char) :
    valueText (text.takeWhile isValueChar) = valueText text := by
  cases text with
  | nil => rfl
  | cons c text =>
    have hvalue : valueText (c :: text) = if c = '=' then assigned text else none := rfl
    by_cases hc : isValueChar c = true
    · rw [List.takeWhile_cons_of_pos hc, hvalue, ← assigned_segment text]
      rfl
    · rw [List.takeWhile_cons_of_neg hc, hvalue, if_neg]
      · rfl
      · rintro rfl
        exact hc rfl

/-- The piece at the front of a text is that of its first segment. -/
theorem firstPiece_segment (text : List Char) :
    firstPiece (text.takeWhile isValueChar) = firstPiece text := by
  unfold firstPiece
  rw [dropWhile_segment isValueChar_of_isSpace, takeWhile_segment isValueChar_of_isKeyChar,
    dropWhile_segment isValueChar_of_isKeyChar, dropWhile_segment isValueChar_of_isSpace,
    valueText_segment]

/-- The pieces of the first segment and of those behind it. -/
theorem pieces_eq (text : List Char) :
    pieces text = (firstPiece text).toList ++ pieces (nextSegment text).tail := by
  have hsegment : ';' ∉ text.takeWhile isValueChar :=
    fun h => absurd (List.mem_takeWhile_imp h) (by decide)
  have hfilter : ∀ segs : List (List Char),
      (text.takeWhile isValueChar :: segs).filterMap firstPiece =
        (firstPiece text).toList ++ segs.filterMap firstPiece := by
    intro segs
    rw [List.filterMap_cons, firstPiece_segment]
    cases firstPiece text <;> rfl
  have hsplit : text.takeWhile isValueChar ++ nextSegment text = text :=
    List.takeWhile_append_dropWhile
  unfold pieces
  cases hnext : nextSegment text with
  | nil =>
    rw [hnext, List.append_nil] at hsplit
    have hwhole : text.splitOn ';' = [text] :=
      List.splitOn_eq_singleton (fun h => hsegment (hsplit.symm ▸ h))
    have hone := hfilter []
    rw [hsplit] at hone
    rw [hwhole, hone]
    rfl
  | cons c rest =>
    have hc : c = ';' := by
      have hhead := takeWhile_dropWhile_self isValueChar text
      rw [show text.dropWhile isValueChar = c :: rest from hnext] at hhead
      have hvalue := head_of_takeWhile_nil hhead
      exact bne_eq_false_iff_eq.mp hvalue
    rw [hnext, hc] at hsplit
    have hcut : text.splitOn ';' = text.takeWhile isValueChar :: rest.splitOn ';' := by
      conv_lhs => rw [← hsplit]
      exact List.splitOn_append_cons_self_of_not_mem hsegment rest
    rw [hcut, hfilter]
    rfl

/-- **The matches are the pieces** behind the next semicolon. -/
theorem findAll_pieces : ∀ (fuel : Nat) (s : State), s.rest.length < fuel →
    (optionHeaderPiece.findAll fuel s).map State.piece = pieces (nextSegment s.rest).tail := by
  intro fuel
  induction fuel with
  | zero => intro s hs; exact absurd hs (Nat.not_lt_zero _)
  | succ fuel ih =>
    intro s hs
    obtain ⟨n, text, g⟩ := s
    have hs' : text.length < fuel + 1 := hs
    cases text with
    | nil => rfl
    | cons c text =>
      rw [List.length_cons] at hs'
      have hstep := ih ⟨n + 1, text, g⟩ (Nat.lt_of_succ_lt_succ hs')
      by_cases hc : c = ';'
      · subst hc
        have hnext : (nextSegment (';' :: text)).tail = text := rfl
        obtain ⟨hnone, hsome⟩ := head?_optionHeaderPiece n text
        rw [hnext, pieces_eq]
        cases hpiece : firstPiece text with
        | none => rw [findAll_of_none (hnone hpiece), hstep]; rfl
        | some piece =>
          obtain ⟨m, hm, hwithin, hhead, hgroups⟩ := hsome piece hpiece
          have hrest : m.rest.length < fuel :=
            Nat.lt_of_le_of_lt hwithin.length (Nat.lt_of_succ_lt_succ hs')
          rw [findAll_of_some hhead hm, List.map_cons, hgroups, ih m hrest, hwithin.next]
          rfl
      · have hvalue : isValueChar c = true := bne_iff_ne.mpr hc
        rw [findAll_of_none (by rw [optionHeaderPiece_of_ne hc]; rfl), hstep,
          (within_cons hvalue text).next]

/-- **`_tokenize` finds the pieces.** -/
theorem tokenize_eq_pieces (text : List Char) :
    tokenize (';' :: text) = (pieces text).map unquoted := by
  have hall := findAll_pieces ((';' :: text).length + 1) (.start (';' :: text))
    (Nat.lt_succ_self _)
  have hnext : (nextSegment (';' :: text)).tail = text := rfl
  rw [show (State.start (';' :: text)).rest = ';' :: text from rfl, hnext] at hall
  unfold tokenize
  rw [← hall, List.map_map]
  rfl

/-! ## What a value is parsed to -/

/-- A name and its options: the first piece and the others. -/
def parsed (value : String) : Range :=
  (((pieces value.toList).head?.map (fun piece => (unquoted piece).1)).getD "",
    Dict.update [] ((pieces value.toList).tail.map unquoted))

/-- The value is empty, or after blanks some segment of it has a character, other than `=`. -/
def Named (value : String) : Prop :=
  value = "" ∨ ∃ segment ∈ value.toList.splitOn ';', ∃ c rest,
    segment.dropWhile isSpace = c :: rest ∧ c ≠ '='

theorem not_mem_of_mem_splitOn {c : Char} :
    ∀ {text segment : List Char}, segment ∈ text.splitOn c → c ∉ segment := by
  intro text
  induction text with
  | nil =>
    intro segment h
    rw [List.mem_singleton.mp h]
    exact List.not_mem_nil
  | cons d text ih =>
    intro segment h
    rw [List.splitOn_cons_eq_if_modifyHead] at h
    by_cases hd : (d == c) = true
    · rw [if_pos hd] at h
      rcases List.mem_cons.mp h with rfl | h
      · exact List.not_mem_nil
      · exact ih h
    · rw [if_neg hd] at h
      cases hsegments : text.splitOn c with
      | nil =>
        rw [hsegments] at h
        cases h
      | cons first others =>
        rw [hsegments] at h ih
        rcases List.mem_cons.mp h with rfl | h
        · rw [List.mem_cons, not_or]
          exact ⟨fun hc => hd (beq_iff_eq.mpr hc.symm), ih (List.mem_cons_self ..)⟩
        · exact ih (List.mem_cons_of_mem _ h)

/-- A segment has a piece exactly if, after blanks, there is a character other than `=`. -/
theorem firstPiece_isSome_iff {segment : List Char} (h : ';' ∉ segment) :
    (firstPiece segment).isSome = true ↔
      ∃ c rest, segment.dropWhile isSpace = c :: rest ∧ c ≠ '=' := by
  unfold firstPiece
  cases hdrop : segment.dropWhile isSpace with
  | nil => simp
  | cons c rest =>
    have hmem : c ∈ segment := by
      refine (List.dropWhile_sublist isSpace).subset ?_
      rw [hdrop]
      exact List.mem_cons_self ..
    have hspace : isSpace c = false := by
      have hempty := takeWhile_dropWhile_self isSpace segment
      rw [hdrop] at hempty
      exact head_of_takeWhile_nil hempty
    have hsemicolon : c ≠ ';' := fun hc => h (hc ▸ hmem)
    have hkey : isKeyChar c = true ↔ c ≠ '=' := by
      unfold isKeyChar
      simp [hspace, hsemicolon]
    by_cases hc : c = '='
    · rw [List.takeWhile_cons_of_neg (fun hk => hkey.mp hk hc), if_pos rfl]
      refine iff_of_false Bool.false_ne_true ?_
      rintro ⟨d, rest', hcons, hd⟩
      cases hcons
      exact hd hc
    · rw [List.takeWhile_cons_of_pos (hkey.mpr hc), if_neg (List.cons_ne_nil _ _)]
      exact iff_of_true rfl ⟨c, rest, rfl, hc⟩

theorem pieces_ne_nil_iff (text : List Char) :
    pieces text ≠ [] ↔ ∃ segment ∈ text.splitOn ';', ∃ c rest,
      segment.dropWhile isSpace = c :: rest ∧ c ≠ '=' := by
  unfold pieces
  rw [Ne, List.filterMap_eq_nil_iff]
  simp only [not_forall, exists_prop]
  refine exists_congr (fun segment => and_congr_right (fun hmem => ?_))
  rw [← firstPiece_isSome_iff (not_mem_of_mem_splitOn hmem), Option.isSome_iff_ne_none]

/-- **A value that has a name is parsed.** -/
theorem parseOptionsHeader_of_named {value : String} (h : Named value) :
    parseOptionsHeader value = .ok (parsed value) := by
  unfold parseOptionsHeader parsed
  rw [tokenize_eq_pieces]
  by_cases hempty : value = ""
  · subst hempty
    rfl
  · rw [if_neg hempty]
    have hpieces := (pieces_ne_nil_iff value.toList).mpr (h.resolve_left hempty)
    obtain ⟨piece, others, hcons⟩ := List.exists_cons_of_ne_nil hpieces
    rw [hcons]
    rfl

/-- Any other value raises `StopIteration`. -/
theorem parseOptionsHeader_of_not_named {value : String} (h : ¬ Named value) :
    parseOptionsHeader value = .error .stopIteration := by
  unfold parseOptionsHeader
  rw [tokenize_eq_pieces, if_neg (fun hempty => h (Or.inl hempty))]
  have hpieces : pieces value.toList = [] := by
    by_contra hne
    exact h (Or.inr ((pieces_ne_nil_iff value.toList).mp hne))
  rw [hpieces]
  rfl

theorem parseOptionsHeader_ok_iff {value : String} {r : String × Params} :
    parseOptionsHeader value = .ok r ↔ Named value ∧ r = parsed value := by
  by_cases h : Named value
  · rw [parseOptionsHeader_of_named h, Except.ok.injEq]
    exact ⟨fun heq => ⟨h, heq.symm⟩, fun hr => hr.2.symm⟩
  · rw [parseOptionsHeader_of_not_named h]
    refine iff_of_false ?_ (fun hr => h hr.1)
    intro herror
    cases herror

end PolarBear.Urlmap
