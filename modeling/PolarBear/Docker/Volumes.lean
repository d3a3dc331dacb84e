import PolarBear.Docker.DockerWorker

/-!
# `generate_volumes`: what becomes of a list of volume specs

A spec is a path, `host:container` or `host:container:mode`. The loop takes the
parts by position and appends the mode `rw` only to some of the specs that have
none: one with a slash in the host part and none in the container part is left
with two parts, and reading the third raises. The mounts are kept in a dictionary
by host, so the later one of two specs with one host replaces the earlier one.

`volumes_translated_iff` says that nothing else goes wrong.
-/

namespace PolarBear.Docker

open PolarBear.Py
open PolarBear.Fallible

/-- A text that can stand between colons. -/
abbrev Component : Type := { s : String // s ≠ "" ∧ ':' ∉ s.toList }

/-- A volume spec of one of the documented forms. -/
inductive VolumeSpec where
  | path (path : Component)
  | mount (host container : Component)
  | mountMode (host container mode : Component)
  deriving DecidableEq

namespace VolumeSpec

/-- The parts between the colons. -/
def parts : VolumeSpec → List String
  | .path p => [p.val]
  | .mount h c => [h.val, c.val]
  | .mountMode h c m => [h.val, c.val, m.val]

/-- The spec as it is written. -/
def text (spec : VolumeSpec) : String := ":".intercalate spec.parts

/-- What stands in the volume list for the spec. -/
def listed : VolumeSpec → String
  | .path p => p.val
  | .mount _ c => c.val
  | .mountMode _ c _ => c.val

/-- The host part, and the container path and the mode it is mounted with. -/
def bind : VolumeSpec → Option (String × String × String)
  | .path _ => none
  | .mount h c => some (h.val, c.val, "rw")
  | .mountMode h c m => some (h.val, c.val, m.val)

/-- The spec has a mode, needs none, or is given one. -/
def hasMode : VolumeSpec → Bool
  | .path _ => true
  | .mount h c => !h.val.toList.contains '/' || c.val.toList.contains '/'
  | .mountMode _ _ _ => true

theorem split_text (spec : VolumeSpec) : split ':' spec.text = spec.parts := by
  have hfree : ∀ l ∈ spec.parts.map String.toList, ':' ∉ l := by
    intro l hl
    obtain ⟨p, hp, rfl⟩ := List.mem_map.mp hl
    cases spec with
    | path a =>
      obtain rfl := List.mem_singleton.mp hp
      exact a.property.2
    | mount h c =>
      rcases List.mem_cons.mp hp with rfl | hp
      · exact h.property.2
      · obtain rfl := List.mem_singleton.mp hp
        exact c.property.2
    | mountMode h c m =>
      rcases List.mem_cons.mp hp with rfl | hp
      · exact h.property.2
      · rcases List.mem_cons.mp hp with rfl | hp
        · exact c.property.2
        · obtain rfl := List.mem_singleton.mp hp
          exact m.property.2
  have hne : spec.parts.map String.toList ≠ [] := by
    cases spec <;> exact List.cons_ne_nil _ _
  unfold split text
  rw [String.toList_intercalate]
  show ([':'].intercalate _ |>.splitOn ':').map String.ofList = _
  rw [List.splitOn_intercalate ':' hfree hne, List.map_map]
  exact (List.map_congr_left (fun s _ => String.ofList_toList)).trans (List.map_id _)

end VolumeSpec

/-- A mount as `generate_volumes` writes it. -/
def mountEntry (container mode : String) : Json :=
  .obj [("bind", .str container), ("mode", .str mode)]

/-- What a spec adds. -/
def Volumes.add (acc : Volumes) (spec : VolumeSpec) : Volumes where
  volList := acc.volList ++ [.str spec.listed]
  volDict := match spec.bind with
    | some (host, container, mode) => Dict.set host (mountEntry container mode) acc.volDict
    | none => acc.volDict

/-- The characters of a spec. -/
theorem VolumeSpec.toList_text (spec : VolumeSpec) :
    spec.text.toList = match spec with
      | .path p => p.val.toList
      | .mount h c => h.val.toList ++ ':' :: c.val.toList
      | .mountMode h c m => h.val.toList ++ ':' :: (c.val.toList ++ ':' :: m.val.toList) := by
  unfold VolumeSpec.text
  rw [String.toList_intercalate]
  cases spec <;> simp [VolumeSpec.parts, List.intercalate]

theorem VolumeSpec.text_ne_empty (spec : VolumeSpec) : spec.text.length ≠ 0 := by
  have hne : ∀ {s : String}, s ≠ "" → s.toList ≠ [] :=
    fun hs h => hs (String.toList_eq_nil_iff.mp h)
  rw [← String.length_toList, toList_text, Ne, List.length_eq_zero_iff]
  cases spec with
  | path p => exact hne p.property.1
  | mount h c => exact fun hnil => hne h.property.1 (List.append_eq_nil_iff.mp hnil).1
  | mountMode h c m => exact fun hnil => hne h.property.1 (List.append_eq_nil_iff.mp hnil).1

/-- A spec has a colon unless it is a path. -/
theorem VolumeSpec.contains_text (spec : VolumeSpec) :
    spec.text.toList.contains ':' = spec.bind.isSome := by
  rw [toList_text, List.contains_eq_mem]
  cases spec with
  | path p => exact decide_eq_false p.property.2
  | mount h c => exact decide_eq_true (List.mem_append_right _ (List.mem_cons_self ..))
  | mountMode h c m => exact decide_eq_true (List.mem_append_right _ (List.mem_cons_self ..))

/-- **One round**: the spec is added, unless its mode is missing. -/
theorem addVolume_spec (acc : Volumes) (spec : VolumeSpec) :
    addVolume acc (.str spec.text) =
      if spec.hasMode then .ok (acc.add spec)
      else .error (.of .indexError "list index out of range") := by
  unfold addVolume
  dsimp only [Json.len, Json.contains, Json.asText, bind, Except.bind]
  -- a path is listed as it is, and the others are split at their colons
  rw [if_neg spec.text_ne_empty, spec.contains_text]
  cases spec with
  | path p =>
    have htext : (VolumeSpec.path p).text = p.val := String.intercalate_singleton
    rw [htext]
    rfl
  | mount h c =>
    rw [VolumeSpec.split_text]
    rfl
  | mountMode h c m =>
    rw [VolumeSpec.split_text]
    rfl

/-- The loop over the specs. -/
theorem addVolumes_spec (specs : List VolumeSpec) (acc : Volumes) :
    (specs.map (fun spec => Json.str spec.text)).foldlM addVolume acc =
      if specs.all VolumeSpec.hasMode then .ok (specs.foldl Volumes.add acc)
      else .error (.of .indexError "list index out of range") := by
  induction specs generalizing acc with
  | nil => rfl
  | cons spec specs ih =>
    rw [List.map_cons, List.foldlM_cons, addVolume_spec, List.all_cons, List.foldl_cons]
    by_cases hmode : spec.hasMode = true
    · rw [if_pos hmode, hmode, Bool.true_and]
      exact ih (acc.add spec)
    · rw [if_neg hmode, eq_false_of_ne_true hmode]
      rfl

/-! ## What is lost -/

/-- The list and the mapping have the spec. -/
structure Volumes.Holds (v : Volumes) (spec : VolumeSpec) : Prop where
  listed : Json.str spec.listed ∈ v.volList
  mounted : ∀ host container mode, spec.bind = some (host, container, mode) →
    v.volDict.lookup host = some (mountEntry container mode)

/-- Two specs do not mount one host in two ways. -/
def VolumeSpec.Agrees (s t : VolumeSpec) : Prop :=
  ∀ host x y, s.bind = some (host, x) → t.bind = some (host, y) → x = y

theorem mountEntry_inj {x y : String × String}
    (h : mountEntry x.1 x.2 = mountEntry y.1 y.2) : x = y := by
  unfold mountEntry at h
  injection h with h
  injection h with hbind hrest
  injection hrest with hmode
  injection (Prod.mk.inj hbind).2 with hbind
  injection (Prod.mk.inj hmode).2 with hmode
  exact Prod.ext hbind hmode

theorem Volumes.holds_add (v : Volumes) (spec : VolumeSpec) : (v.add spec).Holds spec where
  listed := List.mem_append_right _ (List.mem_singleton.mpr rfl)
  mounted := by
    intro host container mode hbind
    unfold Volumes.add
    rw [hbind]
    exact Dict.lookup_set_self ..

/-- A spec stays unless another one mounts its host differently. -/
theorem Volumes.Holds.add {v : Volumes} {s t : VolumeSpec} (h : v.Holds s) (hst : s.Agrees t) :
    (v.add t).Holds s where
  listed := List.mem_append_left _ h.listed
  mounted := by
    intro host container mode hbind
    unfold Volumes.add
    cases hother : t.bind with
    | none => exact h.mounted host container mode hbind
    | some mount =>
      obtain ⟨host', container', mode'⟩ := mount
      -- the later entry replaces that of the same host
      by_cases hhost : host = host'
      · subst hhost
        obtain ⟨rfl, rfl⟩ := Prod.mk.inj (hst host _ _ hbind hother)
        exact Dict.lookup_set_self ..
      · have hkeep := h.mounted host container mode hbind
        rw [← hkeep]
        exact Dict.lookup_set_ne hhost ..

theorem Volumes.Holds.addAll {s : VolumeSpec} {specs : List VolumeSpec}
    (hst : ∀ t ∈ specs, s.Agrees t) :
    ∀ {v : Volumes}, v.Holds s → (specs.foldl Volumes.add v).Holds s := by
  induction specs with
  | nil => exact fun h => h
  | cons t specs ih =>
    intro v h
    rw [List.foldl_cons]
    apply ih (fun u hu => hst u (List.mem_cons_of_mem _ hu))
    exact h.add (hst t (List.mem_cons_self ..))

/-- Every spec is there at the end, where none mounts the host of another differently. -/
theorem holds_addAll {specs : List VolumeSpec} (hagree : ∀ s ∈ specs, ∀ t ∈ specs, s.Agrees t) :
    ∀ {sub : List VolumeSpec} (v : Volumes), sub ⊆ specs →
      ∀ s ∈ sub, (sub.foldl Volumes.add v).Holds s := by
  intro sub
  induction sub with
  | nil =>
    intro v _ s hs
    cases hs
  | cons t sub ih =>
    intro v hsub s hs
    have hrest : sub ⊆ specs := fun u hu => hsub (List.mem_cons_of_mem _ hu)
    rw [List.foldl_cons]
    rcases List.mem_cons.mp hs with rfl | hs
    · apply Volumes.Holds.addAll (fun u hu => ?_) (v.holds_add s)
      exact hagree s (hsub (List.mem_cons_self ..)) u (hrest hu)
    · exact ih (v.add t) hrest s hs

/-- The specs as `params['volumes']`. -/
def volumesParam (specs : List VolumeSpec) : Json :=
  .arr (specs.map (fun spec => .str spec.text))

/-- `generate_volumes` returns, and has every spec. -/
def Translated (specs : List VolumeSpec) : Prop :=
  ∃ out, generateVolumes (volumesParam specs) = .ok out ∧
    ∀ spec ∈ specs, ∃ v, out = some v ∧ v.Holds spec

theorem generateVolumes_eq {specs : List VolumeSpec} (hne : specs ≠ []) :
    generateVolumes (volumesParam specs) =
      if specs.all VolumeSpec.hasMode then .ok (some (specs.foldl Volumes.add ⟨[], []⟩))
      else .error (.of .indexError "list index out of range") := by
  obtain ⟨spec, specs, rfl⟩ := List.exists_cons_of_ne_nil hne
  have hloop := addVolumes_spec (spec :: specs) ⟨[], []⟩
  unfold generateVolumes volumesParam
  show (do let acc ← (List.map _ (spec :: specs)).foldlM addVolume ⟨[], []⟩; .ok (some acc)) = _
  rw [hloop]
  split <;> rfl

/-- **Which lists are translated completely**: those in which every spec without a mode has
no slash in its host part or one in its container part, and specs with the same host part
have the same container path and mode. -/
theorem volumes_translated_iff (specs : List VolumeSpec) :
    Translated specs ↔
      (∀ s ∈ specs, s.hasMode = true) ∧ ∀ s ∈ specs, ∀ t ∈ specs, s.Agrees t := by
  by_cases hne : specs = []
  · subst hne
    refine ⟨fun _ => ⟨fun s hs => ?_, fun s hs => ?_⟩, fun _ => ⟨none, rfl, fun s hs => ?_⟩⟩
    · cases hs
    · cases hs
    · cases hs
  unfold Translated
  rw [generateVolumes_eq hne]
  constructor
  · rintro ⟨out, hout, hholds⟩
    by_cases hmode : specs.all VolumeSpec.hasMode = true
    · rw [if_pos hmode] at hout
      cases hout
      refine ⟨List.all_eq_true.mp hmode, fun s hs t ht host x y hx hy => ?_⟩
      -- both are found under the host
      obtain ⟨v, hv, hs⟩ := hholds s hs
      obtain ⟨w, hw, ht⟩ := hholds t ht
      cases hv
      cases hw
      have hmount := (hs.mounted host x.1 x.2 hx).symm.trans (ht.mounted host y.1 y.2 hy)
      exact mountEntry_inj (Option.some.inj hmount)
    · rw [if_neg hmode] at hout
      cases hout
  · rintro ⟨hmode, hagree⟩
    refine ⟨_, if_pos (List.all_eq_true.mpr hmode), fun s hs => ⟨_, rfl, ?_⟩⟩
    exact holds_addAll hagree _ (List.Subset.refl _) s hs

/-- A host directory on a relative container path raises; of two mounts of one host only the
second one is left. -/
theorem volumes_lost :
    ¬ Translated [.mount ⟨"/data", by decide⟩ ⟨"data", by decide⟩] ∧
      ¬ Translated [.mount ⟨"/srv", by decide⟩ ⟨"/a", by decide⟩,
        .mountMode ⟨"/srv", by decide⟩ ⟨"/b", by decide⟩ ⟨"ro", by decide⟩] := by
  constructor
  · rintro ⟨out, hout, -⟩
    cases hout
  · rintro ⟨out, hout, hholds⟩
    have hread : out = some ⟨[.str "/a", .str "/b"], [("/srv", mountEntry "/b" "ro")]⟩ :=
      (Except.ok.inj hout).symm
    obtain ⟨v, hv, hlost⟩ := hholds _ (List.mem_cons_self ..)
    rw [hread] at hv
    cases hv
    have hmount : some (mountEntry "/b" "ro") = some (mountEntry "/a" "rw") :=
      hlost.mounted "/srv" "/a" "rw" rfl
    have hsame : ("/b", "ro") = ("/a", "rw") := mountEntry_inj (Option.some.inj hmount)
    exact absurd hsame (by decide)

end PolarBear.Docker
