import PolarBear.Docker.Daemon

/-!
# `parse_image`: image references

A reference names a registry, a path of components and a tag. A colon stands
before a port or before a tag; `parse_image` tells them apart by looking for one
after the first slash only. That is enough: a port belongs to a registry, a
registry is followed by a slash, and no component of the path has a colon
(`image_contains_colon`).
-/

namespace PolarBear.Docker

open PolarBear.Py
open PolarBear.Fallible

/-! ## Cutting texts -/

theorem afterFirst_append {c : Char} {a : List Char} (h : c ∉ a) (b : List Char) :
    afterFirst c (String.ofList (a ++ c :: b)) = String.ofList b := by
  unfold afterFirst
  rw [String.toList_ofList]
  have hdrop : (a ++ c :: b).dropWhile (fun d => d != c) = c :: b := by
    have hfree : ∀ d ∈ a, (d != c) = true := by
      intro d hd
      exact bne_iff_ne.mpr (fun he => h (he ▸ hd))
    have hstop : ¬ (c != c) = true := by simp
    rw [List.dropWhile_append_of_pos hfree,
      List.dropWhile_cons_of_neg (p := fun d => d != c) hstop]
  rw [hdrop]
  rfl

theorem rsplit_append {c : Char} (a : List Char) {b : List Char} (h : c ∉ b) :
    rsplit c (String.ofList (a ++ c :: b)) = (String.ofList a, String.ofList b) := by
  have hrev : (a ++ c :: b).reverse = b.reverse ++ c :: a.reverse := by simp
  have hfree : ∀ d ∈ b.reverse, (d != c) = true :=
    fun d hd => bne_iff_ne.mpr (fun he => h (he ▸ List.mem_reverse.mp hd))
  have hstop : ¬ (c != c) = true := by simp
  unfold rsplit
  rw [String.toList_ofList]
  dsimp only
  rw [hrev, List.dropWhile_append_of_pos hfree, List.takeWhile_append_of_pos hfree,
    List.dropWhile_cons_of_neg (p := fun d => d != c) hstop,
    List.takeWhile_cons_of_neg (p := fun d => d != c) hstop, List.drop_one, List.tail_cons,
    List.append_nil, List.reverse_reverse, List.reverse_reverse]

/-! ## References -/

/-- A host, a port, a component of the path or a tag. -/
abbrev Part : Type := { s : String // s ≠ "" ∧ '/' ∉ s.toList ∧ ':' ∉ s.toList }

/-- The parts of an image reference. -/
structure Reference where
  registry : Option (Part × Option Part)
  path : List Part
  tag : Option Part
  path_ne : path ≠ []

namespace Reference

/-- `host` or `host:port`. -/
def registryText (registry : Part × Option Part) : String :=
  match registry.2 with
  | none => registry.1.val
  | some port => registry.1.val ++ ":" ++ port.val

/-- The components, with slashes between them. -/
def pathText (path : List Part) : String := "/".intercalate (path.map Subtype.val)

/-- The part before the tag separator. -/
def repository (ref : Reference) : String :=
  match ref.registry with
  | none => pathText ref.path
  | some registry => registryText registry ++ "/" ++ pathText ref.path

/-- The tag, or `latest`. -/
def tagOrLatest (ref : Reference) : String := (ref.tag.map Subtype.val).getD "latest"

/-- The reference as it is written. -/
def text (ref : Reference) : String :=
  match ref.tag with
  | none => ref.repository
  | some tag => ref.repository ++ ":" ++ tag.val

/-- The reference with its tag made explicit. -/
def explicit (ref : Reference) : String := ref.repository ++ ":" ++ ref.tagOrLatest

/-- What follows the path. -/
def tagChars (ref : Reference) : List Char :=
  match ref.tag with
  | none => []
  | some tag => ':' :: tag.val.toList

theorem contains_tagChars (ref : Reference) : ref.tagChars.contains ':' = ref.tag.isSome := by
  unfold tagChars
  cases ref.tag with
  | none => rfl
  | some tag => exact List.contains_iff_mem.mpr (List.mem_cons_self ..)

theorem toList_text (ref : Reference) :
    ref.text.toList = ref.repository.toList ++ ref.tagChars := by
  unfold text tagChars
  cases ref.tag with
  | none => exact (List.append_nil _).symm
  | some tag => simp [String.toList_append]

theorem toList_pathText_cons (p q : Part) (path : List Part) :
    (pathText (p :: q :: path)).toList = p.val.toList ++ '/' :: (pathText (q :: path)).toList := by
  unfold pathText
  rw [String.toList_intercalate, String.toList_intercalate]
  simp [List.intercalate]

/-- No colon in a path. -/
theorem colon_notMem_path (path : List Part) : ':' ∉ (pathText path).toList := by
  induction path with
  | nil => exact List.not_mem_nil
  | cons p path ih =>
    cases path with
    | nil =>
      have hone : pathText [p] = p.val := String.intercalate_singleton
      rw [hone]
      exact p.property.2.2
    | cons q path =>
      rw [toList_pathText_cons, List.mem_append, List.mem_cons]
      rintro (hp | hslash | hrest)
      · exact p.property.2.2 hp
      · exact absurd hslash (by decide)
      · exact ih hrest

theorem slash_notMem_registry (registry : Part × Option Part) :
    '/' ∉ (registryText registry).toList := by
  obtain ⟨host, port⟩ := registry
  cases port with
  | none => exact host.property.2.1
  | some port =>
    show '/' ∉ (host.val ++ ":" ++ port.val).toList
    rw [String.toList_append, String.toList_append, List.mem_append, List.mem_append]
    rintro ((hhost | hcolon) | hport)
    · exact host.property.2.1 hhost
    · exact absurd hcolon (by decide)
    · exact port.property.2.1 hport

/-- The text after its first slash, if it has one. -/
def image (ref : Reference) : String :=
  if ref.text.toList.contains '/' then afterFirst '/' ref.text else ref.text

theorem image_of_slash {ref : Reference} {a b : List Char} (h : '/' ∉ a)
    (htext : ref.text.toList = a ++ '/' :: b) : ref.image.toList = b := by
  have hslash : ref.text.toList.contains '/' = true := by
    rw [htext]
    exact List.contains_iff_mem.mpr (List.mem_append_right _ (List.mem_cons_self ..))
  have hback : ref.text = String.ofList (a ++ '/' :: b) := by
    rw [← htext, String.ofList_toList]
  unfold image
  rw [if_pos hslash, hback, afterFirst_append h, String.toList_ofList]

theorem contains_path_tag (path : List Part) (ref : Reference) :
    ((pathText path).toList ++ ref.tagChars).contains ':' = ref.tag.isSome := by
  have hpath : (pathText path).toList.contains ':' = false := by
    rw [List.contains_eq_mem]
    exact decide_eq_false (colon_notMem_path path)
  rw [List.contains_append, hpath, Bool.false_or, contains_tagChars]

/-- **A colon after the first slash is that of the tag.** -/
theorem image_contains_colon (ref : Reference) :
    ref.image.toList.contains ':' = ref.tag.isSome := by
  have htext := ref.toList_text
  unfold repository at htext
  cases hregistry : ref.registry with
  | some registry =>
    rw [hregistry] at htext
    have hsplit : ref.text.toList =
        (registryText registry).toList ++ '/' :: ((pathText ref.path).toList ++ ref.tagChars) := by
      rw [htext]
      simp [String.toList_append]
    rw [image_of_slash (slash_notMem_registry registry) hsplit]
    exact contains_path_tag ref.path ref
  | none =>
    rw [hregistry] at htext
    obtain ⟨p, path, hpath⟩ := List.exists_cons_of_ne_nil ref.path_ne
    rw [hpath] at htext
    cases path with
    | cons q path =>
      have hsplit : ref.text.toList =
          p.val.toList ++ '/' :: ((pathText (q :: path)).toList ++ ref.tagChars) := by
        rw [htext]
        dsimp only
        rw [toList_pathText_cons, List.append_assoc, List.cons_append]
      rw [image_of_slash p.property.2.1 hsplit]
      exact contains_path_tag (q :: path) ref
    | nil =>
      -- no slash at all
      have hone : pathText [p] = p.val := String.intercalate_singleton
      have hnone : ref.text.toList.contains '/' = false := by
        rw [htext, List.contains_eq_mem]
        apply decide_eq_false
        rw [hone, List.mem_append]
        rintro (hp | htag)
        · exact p.property.2.1 hp
        · unfold tagChars at htag
          cases hsome : ref.tag with
          | none =>
            rw [hsome] at htag
            cases htag
          | some tag =>
            rw [hsome] at htag
            rcases List.mem_cons.mp htag with hcolon | htag
            · exact absurd hcolon (by decide)
            · exact tag.property.2.1 htag
      unfold image
      rw [hnone, if_neg Bool.false_ne_true, htext]
      exact contains_path_tag [p] ref

/-- **What is parsed**: the part before the tag separator, and the tag or `latest`. -/
theorem parse_text (ref : Reference) :
    parseReference ref.text = (ref.repository, ref.tagOrLatest) := by
  unfold parseReference
  show (if ref.image.toList.contains ':' = true then _ else _) = _
  rw [image_contains_colon]
  cases htag : ref.tag with
  | none =>
    rw [Option.isSome_none, if_neg Bool.false_ne_true]
    unfold text tagOrLatest
    rw [htag]
    rfl
  | some tag =>
    rw [Option.isSome_some, if_pos rfl]
    have hback : ref.text = String.ofList (ref.repository.toList ++ ':' :: tag.val.toList) := by
      rw [← String.ofList_toList (s := ref.text), toList_text]
      unfold tagChars
      rw [htag]
    rw [hback, rsplit_append _ tag.property.2.2, String.ofList_toList, String.ofList_toList]
    unfold tagOrLatest
    rw [htag]
    rfl

end Reference

/-- `parse_image` of a reference. -/
theorem parseImage_text (ref : Reference) :
    parseImage (.str ref.text) = .ok (ref.repository, ref.tagOrLatest) := by
  unfold parseImage
  show (if ref.text.toList.contains '/' = true then Except.ok (parseReference ref.text)
    else .ok (parseReference ref.text)) = _
  rw [ref.parse_text]
  split <;> rfl

/-- The image found is one that lists the reference. -/
theorem findImage_isSome {find : String} {images : List Image} :
    (findImage find images).isSome = true ↔
      ∃ image ∈ images, ∃ tags, image.repoTags = some tags ∧ find ∈ tags := by
  unfold findImage
  rw [List.find?_isSome]
  constructor
  · rintro ⟨image, himage, hfound⟩
    cases htags : image.repoTags with
    | none =>
      rw [htags] at hfound
      cases hfound
    | some tags =>
      rw [htags] at hfound
      obtain ⟨name, hname, heq⟩ := List.any_eq_true.mp hfound
      obtain rfl := beq_iff_eq.mp heq
      exact ⟨image, himage, tags, htags, hname⟩
  · rintro ⟨image, himage, tags, htags, hname⟩
    refine ⟨image, himage, ?_⟩
    rw [htags]
    exact List.any_eq_true.mpr ⟨find, hname, beq_iff_eq.mpr rfl⟩

/-- **Main result.** A reference parses into the part before the tag separator and the tag,
or `latest`; joined, they are the reference with its tag made explicit, which is the
reference itself if it has a tag; and `check_image` finds an image exactly if one of those
the daemon lists has it among its tags. -/
theorem reference_parses_back (ref : Reference) {κ : Type} (client : DockerClient κ)
    {w : DockerWorker κ} {images : List Image} {dc : κ}
    (himage : getParam w.params "image" = .str ref.text)
    (hlisted : client.images.run w.dc = .ok images dc) :
    parseImage (.str ref.text) = .ok (ref.repository, ref.tagOrLatest) ∧
      ref.repository ++ ":" ++ ref.tagOrLatest = ref.explicit ∧
      (ref.tag ≠ none → ref.explicit = ref.text) ∧
      ∃ found, (checkImage client).run w = .ok found { w with dc := dc } ∧
        (found.isSome = true ↔
          ∃ image ∈ images, ∃ tags, image.repoTags = some tags ∧ ref.explicit ∈ tags) := by
  refine ⟨parseImage_text ref, rfl, ?_, findImage ref.explicit images, ?_, findImage_isSome⟩
  · intro htag
    obtain ⟨tag, htag⟩ := Option.ne_none_iff_exists'.mp htag
    unfold Reference.explicit Reference.text Reference.tagOrLatest
    rw [htag]
    rfl
  · have hclient : (onClient client.images).run w = .ok images { w with dc := dc } := by
      unfold onClient
      rw [run_onPart, hlisted]
    unfold checkImage
    rw [EStateM.run_bind, run_param]
    dsimp only
    rw [himage, parseImage_text, run_bind_ok (run_ofExcept_ok rfl w), run_bind_ok hclient]
    rfl

/-- A registry with a port, and no tag. -/
def sampleReference : Reference :=
  ⟨some (⟨"hub.local", by decide⟩, some ⟨"5000", by decide⟩), [⟨"team", by decide⟩,
    ⟨"web", by decide⟩], none, List.cons_ne_nil _ _⟩

theorem reference_parses_back_sample :
    parseImage (.str "hub.local:5000/team/web") = .ok ("hub.local:5000/team/web", "latest") :=
  have htext : sampleReference.text = "hub.local:5000/team/web" := by decide
  htext ▸ (reference_parses_back sampleReference daemonClient
    (w := ⟨[("image", .str sampleReference.text)], false, idleDaemon⟩) rfl rfl).1

end PolarBear.Docker
