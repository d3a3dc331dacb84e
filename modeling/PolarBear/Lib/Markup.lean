import Mathlib.Data.List.Basic

/-!
# Reading markup

`read` builds the elements of a text with one stack of open elements: a start
tag opens an element, an end tag must name the innermost open one, everything
else is content. A text whose elements are not nested and closed has no reading,
and once a prefix is refused the rest does not help (`run_append_none`).

`Reads cs nodes` says that a part of a text adds `nodes` to the element it stands
in, wherever that is; such parts compose. There are no void elements and no
comments, and a tag ends at the first `>`.
-/

namespace PolarBear.Markup

/-- A character of content, or an element: the text of its start tag and what it holds. -/
inductive Node where
  | char (c : Char)
  | element (tag : List Char) (children : List Node)

/-- The name in a start tag, which attributes may follow. -/
def tagName (tag : List Char) : List Char := tag.takeWhile (· != ' ')

/-- The tag being read, what the innermost open element holds so far, and the elements around
it: the tag of each, and what stands before it. -/
structure Reading where
  tag : Option (List Char)
  inner : List Node
  outer : List (List Char × List Node)

/-- The `>` of a tag. -/
def endTag (tag : List Char) (r : Reading) : Option Reading :=
  match tag with
  | '/' :: name =>
    match r.outer with
    | (open_, before) :: outer =>
      if tagName open_ = name then some ⟨none, before ++ [.element open_ r.inner], outer⟩
      else none
    | [] => none
  | _ => some ⟨none, [], (tag, r.inner) :: r.outer⟩

/-- One character. -/
def step (r : Reading) (c : Char) : Option Reading :=
  match r.tag with
  | none =>
    if c = '<' then some { r with tag := some [] }
    else some { r with inner := r.inner ++ [.char c] }
  | some tag => if c = '>' then endTag tag r else some { r with tag := some (tag ++ [c]) }

/-- A part of a text, from a reading of what stands before it. -/
def run (r : Reading) (cs : List Char) : Option Reading := cs.foldlM step r

/-- What a text holds, if its elements are nested and closed. -/
def read (cs : List Char) : Option (List Node) :=
  match run ⟨none, [], []⟩ cs with
  | some ⟨none, nodes, []⟩ => some nodes
  | _ => none

/-- Content as it is shown: the entities for the characters of the syntax. -/
def decode : List Char → List Char
  | '&' :: 'l' :: 't' :: ';' :: cs => '<' :: decode cs
  | '&' :: 'g' :: 't' :: ';' :: cs => '>' :: decode cs
  | '&' :: 'a' :: 'm' :: 'p' :: ';' :: cs => '&' :: decode cs
  | c :: cs => c :: decode cs
  | [] => []

/-! ## Prefixes -/

theorem run_append (r : Reading) (cs ds : List Char) :
    run r (cs ++ ds) = (run r cs).bind (fun r' => run r' ds) := List.foldlM_append

/-- A refused prefix. -/
theorem run_append_none {r : Reading} {cs : List Char} (h : run r cs = none) (ds : List Char) :
    run r (cs ++ ds) = none := by
  rw [run_append, h]
  rfl

theorem read_append_none {cs : List Char} (h : run ⟨none, [], []⟩ cs = none) (ds : List Char) :
    read (cs ++ ds) = none := by
  unfold read
  rw [run_append_none h]

/-! ## Parts -/

/-- A part of a text that holds these nodes, in whatever element it stands. -/
def Reads (cs : List Char) (nodes : List Node) : Prop :=
  ∀ inner outer, run ⟨none, inner, outer⟩ cs = some ⟨none, inner ++ nodes, outer⟩

theorem Reads.read {cs : List Char} {nodes : List Node} (h : Reads cs nodes) :
    read cs = some nodes := by
  unfold Markup.read
  rw [h, List.nil_append]

theorem Reads.nil : Reads [] [] := by
  intro inner outer
  rw [List.append_nil]
  rfl

theorem Reads.append {cs ds : List Char} {nodes more : List Node} (hc : Reads cs nodes)
    (hd : Reads ds more) : Reads (cs ++ ds) (nodes ++ more) := by
  intro inner outer
  rw [run_append, hc, Option.bind_some, hd, List.append_assoc]

theorem Reads.flatMap {α : Type} {text : α → List Char} {nodes : α → List Node} :
    ∀ {l : List α}, (∀ x ∈ l, Reads (text x) (nodes x)) → Reads (l.flatMap text) (l.flatMap nodes)
  | [], _ => Reads.nil
  | x :: l, h => by
    rw [List.flatMap_cons, List.flatMap_cons]
    exact (h x (List.mem_cons_self ..)).append
      (Reads.flatMap (fun y hy => h y (List.mem_cons_of_mem x hy)))

/-- Content without a tag. -/
theorem Reads.chars : ∀ {cs : List Char}, '<' ∉ cs → Reads cs (cs.map .char)
  | [], _ => Reads.nil
  | c :: cs, h => by
    have hc : c ≠ '<' := fun heq => h (heq ▸ List.mem_cons_self ..)
    have hrest := Reads.chars (fun hin => h (List.mem_cons_of_mem c hin))
    have hone : Reads [c] [.char c] := by
      intro inner outer
      show (if c = '<' then _ else _ : Option Reading).bind _ = _
      rw [if_neg hc]
      rfl
    exact hone.append hrest

/-- The characters of a tag. -/
theorem run_tag (inner : List Node) (outer : List (List Char × List Node)) :
    ∀ {cs : List Char} (before : List Char), '>' ∉ cs →
      run ⟨some before, inner, outer⟩ cs = some ⟨some (before ++ cs), inner, outer⟩
  | [], before, _ => by
    rw [List.append_nil]
    rfl
  | c :: cs, before, h => by
    have hc : c ≠ '>' := fun heq => h (heq ▸ List.mem_cons_self ..)
    have hrest := run_tag inner outer (before ++ [c])
      (fun hin => h (List.mem_cons_of_mem c hin))
    rw [List.append_assoc, List.singleton_append] at hrest
    rw [← hrest]
    show (if c = '>' then _ else _ : Option Reading).bind _ = _
    rw [if_neg hc]
    rfl

/-- A whole tag. -/
theorem run_wholeTag {tag : List Char} (h : '>' ∉ tag) (inner : List Node)
    (outer : List (List Char × List Node)) :
    run ⟨none, inner, outer⟩ ('<' :: tag ++ ['>']) = endTag tag ⟨some tag, inner, outer⟩ := by
  have htag := run_tag inner outer [] h
  rw [List.nil_append] at htag
  show run ⟨some [], inner, outer⟩ (tag ++ ['>']) = _
  rw [run_append, htag, Option.bind_some]
  show (endTag tag ⟨some tag, inner, outer⟩).bind some = _
  exact Option.bind_fun_some _

/-- An element. -/
theorem Reads.element {body : List Char} {children : List Node} (hbody : Reads body children)
    (tag : List Char) (htag : '>' ∉ tag) (hstart : tag.head? ≠ some '/') :
    Reads ('<' :: tag ++ ['>'] ++ body ++ ('<' :: '/' :: tagName tag ++ ['>']))
      [.element tag children] := by
  intro inner outer
  have hopen : endTag tag ⟨some tag, inner, outer⟩ = some ⟨none, [], (tag, inner) :: outer⟩ := by
    unfold endTag
    split
    · exact absurd rfl hstart
    · rfl
  have hname : '>' ∉ '/' :: tagName tag := by
    intro hin
    rcases List.mem_cons.mp hin with h | h
    · exact absurd h (by decide)
    · exact htag ((List.takeWhile_sublist _).mem h)
  rw [run_append, run_append, run_wholeTag htag, hopen, Option.bind_some, hbody, List.nil_append,
    Option.bind_some]
  show run _ ('<' :: ('/' :: tagName tag) ++ ['>']) = _
  rw [run_wholeTag hname]
  show (if tagName tag = tagName tag then _ else _) = _
  rw [if_pos rfl]

/-! ## Shown content -/

/-- Content without an entity is shown as it stands. -/
theorem decode_plain : ∀ {cs : List Char}, '&' ∉ cs → decode cs = cs
  | [], _ => rfl
  | c :: cs, h => by
    have hc : c ≠ '&' := fun heq => h (heq ▸ List.mem_cons_self ..)
    have hrest := decode_plain (fun hin => h (List.mem_cons_of_mem c hin))
    unfold decode
    split
    · rename_i heq
      exact absurd (List.cons.inj heq).1 hc
    · rename_i heq
      exact absurd (List.cons.inj heq).1 hc
    · rename_i heq
      exact absurd (List.cons.inj heq).1 hc
    · rename_i heq
      obtain ⟨rfl, rfl⟩ := List.cons.inj heq
      rw [hrest]
    · rename_i heq
      cases heq

end PolarBear.Markup
