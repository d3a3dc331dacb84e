import PolarBear.Lib.Dict
import PolarBear.Py.Builtins

/-!
# Image metadata in the system metadata of an instance

`get_system_metadata_from_image` writes the properties of an image and four of its
top-level keys under one prefix into one dictionary, and
`get_image_from_system_metadata` takes them apart again, by the names alone. A
property with the name of one of the four keys does not come back as a property, and
where the image does not have the key, it comes back as the key: `metadata_survives_iff`.
-/

namespace PolarBear.Utils

open PolarBear.Py PolarBear.Dict

/-! ## Values -/

inductive MetaValue where
  | none
  | text (s : String)
  | int (n : Int)
  deriving DecidableEq, Repr

/-- `six.text_type(value)`. -/
def MetaValue.textType : MetaValue → String
  | .none => "None"
  | .text s => s
  | .int n => toString n

/-- `value or 0`. -/
def MetaValue.orZero : MetaValue → MetaValue
  | .none => .int 0
  | .text s => if s = "" then .int 0 else .text s
  | .int n => .int n

/-- `<` of Python 2: `None` is less than a number, and a number less than a text. -/
def MetaValue.lt : MetaValue → MetaValue → Bool
  | .int m, .int n => decide (m < n)
  | .text s, .text t => decide (s < t)
  | .none, .int _ => true
  | .none, .text _ => true
  | .int _, .text _ => true
  | _, _ => false

/-- `max(v, w)`. -/
def MetaValue.max (v w : MetaValue) : MetaValue := if v.lt w then w else v

/-! ## `safe_truncate` -/

section

-- decoding by the encoding of the standard input, or else Python's default encoding;
-- `none` stands for its `UnicodeDecodeError`
variable (incoming : ByteArray → Option String)

/-- `encodeutils.safe_decode`. -/
def safeDecode (b : ByteArray) : Option String :=
  match incoming b with
  | some s => some s
  | none => String.fromUTF8? b

/-- The loop over `b_value`, `b_value[:-1]` and so on; the empty prefix is decoded. -/
def decodePrefix (b : ByteArray) : Nat → String
  | 0 => (safeDecode incoming (b.extract 0 0)).getD ""
  | n + 1 =>
    match safeDecode incoming (b.extract 0 (n + 1)) with
    | some s => s
    | none => decodePrefix b n

def safeTruncate (value : String) (length : Nat) : String :=
  decodePrefix incoming value.toUTF8 (min value.toUTF8.size length)

end

/-! ## The two functions -/

def smImagePropPrefix : String := "image_"

def smInheritableKeys : List String := ["min_ram", "min_disk", "disk_format", "container_format"]

def smSkipKeys : List String :=
  ["mappings", "block_device_mapping", "img_mappings", "img_block_device_mapping"]

/-- The dictionary of an image: `properties` (none, where the key is missing) and the
other keys. -/
structure ImageMeta where
  properties : List (String × MetaValue)
  others : List (String × MetaValue)
  distinct : (keys properties).Nodup

/-- `prefix_format % key`. -/
def prefixed (key : String) : String := smImagePropPrefix ++ key

/-- `key` without the prefix, if it starts with it. -/
def unprefixed (key : String) : String :=
  if startsWith smImagePropPrefix key then
    String.ofList (key.toList.drop smImagePropPrefix.length)
  else key

def storeProperty (incoming : ByteArray → Option String) (systemMeta : List (String × MetaValue))
    (entry : String × MetaValue) : List (String × MetaValue) :=
  if entry.1 ∈ smSkipKeys then systemMeta
  else set (prefixed entry.1) (.text (safeTruncate incoming entry.2.textType 255)) systemMeta

/-- The value of an inheritable key; `flavor` is its `root_gb`. -/
def inheritedValue (image : ImageMeta) (flavor : Option Int) (key : String) : MetaValue :=
  let value := (image.others.lookup key).getD .none
  match flavor with
  | some rootGb =>
    if key = "min_disk" then
      if image.others.lookup "disk_format" = some (.text "vhd") then .int rootGb
      else value.orZero.max (.int rootGb)
    else value
  | none => value

def storeInherited (image : ImageMeta) (flavor : Option Int)
    (systemMeta : List (String × MetaValue)) (key : String) : List (String × MetaValue) :=
  if inheritedValue image flavor key = .none then systemMeta
  else set (prefixed key) (inheritedValue image flavor key) systemMeta

def getSystemMetadataFromImage (incoming : ByteArray → Option String) (image : ImageMeta)
    (flavor : Option Int) : List (String × MetaValue) :=
  smInheritableKeys.foldl (storeInherited image flavor)
    (image.properties.foldl (storeProperty incoming) [])

def readEntry (image : ImageMeta) (entry : String × MetaValue) : ImageMeta :=
  if entry.2 = .none then image
  else if unprefixed entry.1 ∈ smSkipKeys then image
  else if unprefixed entry.1 ∈ smInheritableKeys then
    { image with others := set (unprefixed entry.1) entry.2 image.others }
  else
    { image with
      properties := set (unprefixed entry.1) entry.2 image.properties
      distinct := nodup_keys_set _ _ image.distinct }

/-- `get_image_from_system_metadata` of a dictionary. -/
def getImageFromSystemMetadata (systemMeta : List (String × MetaValue)) : ImageMeta :=
  systemMeta.foldl readEntry ⟨[], [], List.nodup_nil⟩

/-! ## Names -/

theorem unprefixed_prefixed (key : String) : unprefixed (prefixed key) = key := by
  have htext : (prefixed key).toList = smImagePropPrefix.toList ++ key.toList :=
    String.toList_append
  have hstarts : startsWith smImagePropPrefix (prefixed key) = true := by
    unfold startsWith
    rw [htext, List.isPrefixOf_iff_prefix]
    exact List.prefix_append _ _
  unfold unprefixed
  rw [if_pos hstarts, htext, ← String.length_toList, List.drop_left, String.ofList_toList]

theorem prefixed_injective : Function.Injective prefixed := by
  intro k l h
  rw [← unprefixed_prefixed k, h, unprefixed_prefixed]

theorem not_skip_of_inheritable {key : String} (h : key ∈ smInheritableKeys) :
    key ∉ smSkipKeys := by
  revert key
  decide

/-! ## Truncation -/

theorem fromUTF8_toUTF8 (s : String) : String.fromUTF8? s.toUTF8 = some s :=
  dif_pos s.isValidUTF8

theorem safeDecode_toUTF8 (incoming : ByteArray → Option String) (s : String) :
    safeDecode incoming s.toUTF8 = some ((incoming s.toUTF8).getD s) := by
  unfold safeDecode
  cases incoming s.toUTF8 with
  | some text => rfl
  | none => exact fromUTF8_toUTF8 s

/-- A short text is only encoded and decoded. -/
theorem safeTruncate_of_le (incoming : ByteArray → Option String) {s : String} {length : Nat}
    (h : s.utf8ByteSize ≤ length) :
    safeTruncate incoming s length = (incoming s.toUTF8).getD s := by
  have hmin : min s.toUTF8.size length = s.toUTF8.size := Nat.min_eq_left h
  have hall : s.toUTF8.extract 0 s.toUTF8.size = s.toUTF8 := ByteArray.extract_zero_size
  have hdecode := safeDecode_toUTF8 incoming s
  unfold safeTruncate
  rw [hmin]
  cases hsize : s.toUTF8.size with
  | zero =>
    rw [hsize] at hall
    rw [decodePrefix, hall, hdecode]
    rfl
  | succ n =>
    rw [hsize] at hall
    rw [decodePrefix, hall, hdecode]

/-! ## What is stored -/

section

variable (incoming : ByteArray → Option String)

def propertyEntry (entry : String × MetaValue) : Option (String × MetaValue) :=
  if entry.1 ∈ smSkipKeys then none
  else some (prefixed entry.1, .text (safeTruncate incoming entry.2.textType 255))

def inheritedEntry (image : ImageMeta) (flavor : Option Int) (key : String) :
    Option (String × MetaValue) :=
  if inheritedValue image flavor key = .none then none
  else some (prefixed key, inheritedValue image flavor key)

/-- The properties as they are stored. -/
def storedProperties (image : ImageMeta) : List (String × MetaValue) :=
  image.properties.filterMap (propertyEntry incoming)

/-- The inheritable keys as they are stored. -/
def storedInherited (image : ImageMeta) (flavor : Option Int) : List (String × MetaValue) :=
  smInheritableKeys.filterMap (inheritedEntry image flavor)

theorem storeProperty_eq (d : List (String × MetaValue)) (entry : String × MetaValue) :
    storeProperty incoming d entry =
      (propertyEntry incoming entry).elim d (fun e => set e.1 e.2 d) := by
  unfold storeProperty propertyEntry
  split <;> rfl

theorem storeInherited_eq (image : ImageMeta) (flavor : Option Int)
    (d : List (String × MetaValue)) (key : String) :
    storeInherited image flavor d key =
      (inheritedEntry image flavor key).elim d (fun e => set e.1 e.2 d) := by
  unfold storeInherited inheritedEntry
  split <;> rfl

theorem propertyEntry_eq_some {entry stored : String × MetaValue} :
    propertyEntry incoming entry = some stored ↔ entry.1 ∉ smSkipKeys ∧
      stored = (prefixed entry.1, .text (safeTruncate incoming entry.2.textType 255)) := by
  unfold propertyEntry
  by_cases hskip : entry.1 ∈ smSkipKeys
  · rw [if_pos hskip]
    exact iff_of_false (fun h => nomatch h) (fun h => h.1 hskip)
  · rw [if_neg hskip, Option.some.injEq, eq_comm, and_iff_right hskip]

theorem inheritedEntry_eq_some {image : ImageMeta} {flavor : Option Int} {key : String}
    {stored : String × MetaValue} :
    inheritedEntry image flavor key = some stored ↔ inheritedValue image flavor key ≠ .none ∧
      stored = (prefixed key, inheritedValue image flavor key) := by
  unfold inheritedEntry
  by_cases hnone : inheritedValue image flavor key = .none
  · rw [if_pos hnone]
    exact iff_of_false (fun h => nomatch h) (fun h => h.1 hnone)
  · rw [if_neg hnone, Option.some.injEq, eq_comm, and_iff_right hnone]

theorem nodup_storedProperties (image : ImageMeta) :
    (keys (storedProperties incoming image)).Nodup := by
  have hnames : (image.properties.map (fun entry => prefixed entry.1)).Nodup := by
    have h := image.distinct.map prefixed_injective
    rwa [keys, List.map_map] at h
  refine (keys_filterMap_sublist ?_ image.properties).nodup hnames
  intro entry stored h
  rw [((propertyEntry_eq_some incoming).mp h).2]

theorem nodup_storedInherited (image : ImageMeta) (flavor : Option Int) :
    (keys (storedInherited image flavor)).Nodup := by
  have hkeys : smInheritableKeys.Nodup := by decide
  refine (keys_filterMap_sublist ?_ smInheritableKeys).nodup (hkeys.map prefixed_injective)
  intro key stored h
  rw [(inheritedEntry_eq_some.mp h).2]

/-- The properties are stored first, and overwritten by the inheritable keys. -/
theorem getSystemMetadata_eq (image : ImageMeta) (flavor : Option Int) :
    getSystemMetadataFromImage incoming image flavor =
      update (storedProperties incoming image) (storedInherited image flavor) := by
  unfold getSystemMetadataFromImage
  rw [foldl_eq_update (storeInherited_eq image flavor),
    foldl_eq_update (storeProperty_eq incoming)]
  show update (update [] (storedProperties incoming image)) _ = _
  rw [update_nil (nodup_storedProperties incoming image)]
  rfl

theorem mem_storedProperties {image : ImageMeta} {key : String} {v : MetaValue} :
    (prefixed key, v) ∈ storedProperties incoming image ↔ key ∉ smSkipKeys ∧
      ∃ w, (key, w) ∈ image.properties ∧ v = .text (safeTruncate incoming w.textType 255) := by
  unfold storedProperties
  rw [List.mem_filterMap]
  constructor
  · rintro ⟨⟨k, w⟩, hmem, h⟩
    obtain ⟨hskip, hstored⟩ := (propertyEntry_eq_some incoming).mp h
    rw [Prod.mk.injEq] at hstored
    obtain rfl := prefixed_injective hstored.1
    exact ⟨hskip, w, hmem, hstored.2⟩
  · rintro ⟨hskip, w, hmem, rfl⟩
    exact ⟨(key, w), hmem, (propertyEntry_eq_some incoming).mpr ⟨hskip, rfl⟩⟩

theorem mem_storedInherited {image : ImageMeta} {flavor : Option Int} {key : String}
    {v : MetaValue} :
    (prefixed key, v) ∈ storedInherited image flavor ↔ key ∈ smInheritableKeys ∧
      inheritedValue image flavor key ≠ .none ∧ v = inheritedValue image flavor key := by
  unfold storedInherited
  rw [List.mem_filterMap]
  constructor
  · rintro ⟨k, hmem, h⟩
    obtain ⟨hnone, hstored⟩ := inheritedEntry_eq_some.mp h
    rw [Prod.mk.injEq] at hstored
    obtain rfl := prefixed_injective hstored.1
    exact ⟨hmem, hnone, hstored.2⟩
  · rintro ⟨hmem, hnone, rfl⟩
    exact ⟨key, hmem, inheritedEntry_eq_some.mpr ⟨hnone, rfl⟩⟩

/-- A name that is not of an inheritable key is stored for the property. -/
theorem lookup_of_property {image : ImageMeta} {flavor : Option Int} {key : String}
    (h : key ∉ smInheritableKeys) :
    (getSystemMetadataFromImage incoming image flavor).lookup (prefixed key) =
      (storedProperties incoming image).lookup (prefixed key) := by
  rw [getSystemMetadata_eq]
  apply lookup_update_of_notMem
  intro hmem
  obtain ⟨v, hv⟩ := (mem_keys_iff _ _).mp hmem
  exact h (mem_storedInherited.mp (mem_of_lookup hv)).1

/-- The value of an inheritable key overwrites the property. -/
theorem lookup_of_inherited {image : ImageMeta} {flavor : Option Int} {key : String}
    (h : key ∈ smInheritableKeys) (hsome : inheritedValue image flavor key ≠ .none) :
    (getSystemMetadataFromImage incoming image flavor).lookup (prefixed key) =
      some (inheritedValue image flavor key) := by
  rw [getSystemMetadata_eq]
  exact lookup_update_of_lookup (nodup_storedInherited image flavor)
    (lookup_of_mem (nodup_storedInherited image flavor) (mem_storedInherited.mpr ⟨h, hsome, rfl⟩))

/-- Where the image does not have the key, the property stays. -/
theorem lookup_of_missing {image : ImageMeta} {flavor : Option Int} {key : String}
    (hnone : inheritedValue image flavor key = .none) :
    (getSystemMetadataFromImage incoming image flavor).lookup (prefixed key) =
      (storedProperties incoming image).lookup (prefixed key) := by
  rw [getSystemMetadata_eq]
  apply lookup_update_of_notMem
  intro hmem
  obtain ⟨v, hv⟩ := (mem_keys_iff _ _).mp hmem
  exact (mem_storedInherited.mp (mem_of_lookup hv)).2.1 hnone

theorem nodup_systemMetadata (image : ImageMeta) (flavor : Option Int) :
    (keys (getSystemMetadataFromImage incoming image flavor)).Nodup := by
  rw [getSystemMetadata_eq]
  exact nodup_keys_update (nodup_storedProperties incoming image)

end

/-! ## What is read -/

/-- The entry is read, as one of the inheritable keys or as a property. -/
def readAs (inheritable : Bool) (entry : String × MetaValue) : Option (String × MetaValue) :=
  if entry.2 ≠ .none ∧ unprefixed entry.1 ∉ smSkipKeys ∧
      decide (unprefixed entry.1 ∈ smInheritableKeys) = inheritable then
    some (unprefixed entry.1, entry.2)
  else none

theorem readEntry_properties (image : ImageMeta) (entry : String × MetaValue) :
    (readEntry image entry).properties =
      (readAs false entry).elim image.properties (fun e => set e.1 e.2 image.properties) := by
  unfold readEntry readAs
  by_cases hnone : entry.2 = .none
  · simp [hnone]
  · by_cases hskip : unprefixed entry.1 ∈ smSkipKeys
    · simp [hnone, hskip]
    · by_cases hkey : unprefixed entry.1 ∈ smInheritableKeys
      · simp [hnone, hskip, hkey]
      · simp [hnone, hskip, hkey]

theorem readEntry_others (image : ImageMeta) (entry : String × MetaValue) :
    (readEntry image entry).others =
      (readAs true entry).elim image.others (fun e => set e.1 e.2 image.others) := by
  unfold readEntry readAs
  by_cases hnone : entry.2 = .none
  · simp [hnone]
  · by_cases hskip : unprefixed entry.1 ∈ smSkipKeys
    · simp [hnone, hskip]
    · by_cases hkey : unprefixed entry.1 ∈ smInheritableKeys
      · simp [hnone, hskip, hkey]
      · simp [hnone, hskip, hkey]

/-- The two parts of an image are read each by a loop of its own. -/
theorem read_properties :
    ∀ (sys : List (String × MetaValue)) (image : ImageMeta),
      (sys.foldl readEntry image).properties =
        update image.properties (sys.filterMap (readAs false))
  | [], _ => rfl
  | entry :: sys, image => by
    rw [List.foldl_cons, read_properties sys, readEntry_properties, List.filterMap_cons]
    cases readAs false entry <;> rfl

theorem read_others :
    ∀ (sys : List (String × MetaValue)) (image : ImageMeta),
      (sys.foldl readEntry image).others = update image.others (sys.filterMap (readAs true))
  | [], _ => rfl
  | entry :: sys, image => by
    rw [List.foldl_cons, read_others sys, readEntry_others, List.filterMap_cons]
    cases readAs true entry <;> rfl

theorem readAs_eq_some {inheritable : Bool} {entry e : String × MetaValue} :
    readAs inheritable entry = some e ↔
      (entry.2 ≠ .none ∧ unprefixed entry.1 ∉ smSkipKeys ∧
        decide (unprefixed entry.1 ∈ smInheritableKeys) = inheritable) ∧
      e = (unprefixed entry.1, entry.2) := by
  unfold readAs
  split
  · next h => rw [Option.some.injEq, eq_comm, and_iff_right h]
  · next h => exact iff_of_false (fun h => nomatch h) (fun h' => h h'.1)

section

variable {sys : List (String × MetaValue)} (hkeys : (keys sys).Nodup)
  (hprefixed : ∀ entry ∈ sys, ∃ key, entry.1 = prefixed key)

include hkeys hprefixed

/-- The names that are read are distinct. -/
theorem nodup_readAs (inheritable : Bool) :
    (keys (sys.filterMap (readAs inheritable))).Nodup := by
  have hnames : (sys.map (fun entry => unprefixed entry.1)).Nodup := by
    have hmap : sys.map (fun entry => unprefixed entry.1) = (keys sys).map unprefixed := by
      rw [keys, List.map_map]
      rfl
    rw [hmap]
    refine hkeys.map_on ?_
    intro x hx y hy h
    obtain ⟨entry, hentry, rfl⟩ := List.mem_map.mp hx
    obtain ⟨entry', hentry', rfl⟩ := List.mem_map.mp hy
    obtain ⟨k, hk⟩ := hprefixed entry hentry
    obtain ⟨k', hk'⟩ := hprefixed entry' hentry'
    rw [hk, hk', unprefixed_prefixed, unprefixed_prefixed] at h
    rw [hk, hk', h]
  refine (keys_filterMap_sublist ?_ sys).nodup hnames
  intro entry e h
  rw [(readAs_eq_some.mp h).2]

theorem lookup_readAs (inheritable : Bool) (key : String) (v : MetaValue) :
    (update [] (sys.filterMap (readAs inheritable))).lookup key = some v ↔
      (prefixed key, v) ∈ sys ∧ v ≠ .none ∧ key ∉ smSkipKeys ∧
        decide (key ∈ smInheritableKeys) = inheritable := by
  have hnodup := nodup_readAs hkeys hprefixed inheritable
  rw [update_nil hnodup, lookup_iff_mem hnodup, List.mem_filterMap]
  constructor
  · rintro ⟨entry, hentry, h⟩
    obtain ⟨hread, he⟩ := readAs_eq_some.mp h
    obtain ⟨k, hk⟩ := hprefixed entry hentry
    rw [hk, unprefixed_prefixed] at hread he
    cases he
    refine ⟨?_, hread⟩
    rw [← hk]
    exact hentry
  · rintro ⟨hmem, hread⟩
    refine ⟨(prefixed key, v), hmem, readAs_eq_some.mpr ?_⟩
    rw [unprefixed_prefixed]
    exact ⟨hread, rfl⟩

end

/-! ## The round trip -/

/-- A property as it comes back. -/
def returned (incoming : ByteArray → Option String) (v : MetaValue) : MetaValue :=
  .text (safeTruncate incoming v.textType 255)

section

variable (incoming : ByteArray → Option String) (image : ImageMeta) (flavor : Option Int)
  {sys : List (String × MetaValue)}
  (horder : sys.Perm (getSystemMetadataFromImage incoming image flavor))

include horder

theorem nodup_walked : (keys sys).Nodup := by
  have hperm := horder.map Prod.fst
  rw [keys, hperm.nodup_iff]
  exact nodup_systemMetadata incoming image flavor

/-- An entry is stored under the prefix, and with a value. -/
theorem walked_entry {entry : String × MetaValue} (h : entry ∈ sys) :
    (∃ key, entry.1 = prefixed key) ∧ entry.2 ≠ .none := by
  rw [horder.mem_iff, getSystemMetadata_eq] at h
  rcases mem_update h with hproperty | hinherited
  · obtain ⟨e, -, he⟩ := List.mem_filterMap.mp hproperty
    rw [((propertyEntry_eq_some incoming).mp he).2]
    exact ⟨⟨e.1, rfl⟩, nofun⟩
  · obtain ⟨key, -, he⟩ := List.mem_filterMap.mp hinherited
    obtain ⟨hsome, rfl⟩ := inheritedEntry_eq_some.mp he
    exact ⟨⟨key, rfl⟩, hsome⟩

/-- Reading gives what is stored, whatever the order. -/
theorem lookup_walked (inheritable : Bool) (key : String) :
    (update [] (sys.filterMap (readAs inheritable))).lookup key =
      if key ∉ smSkipKeys ∧ decide (key ∈ smInheritableKeys) = inheritable then
        (getSystemMetadataFromImage incoming image flavor).lookup (prefixed key)
      else none := by
  apply Option.ext
  intro v
  rw [lookup_readAs (nodup_walked incoming image flavor horder)
    (fun _ h => (walked_entry incoming image flavor horder h).1) inheritable key v]
  have hstored : (prefixed key, v) ∈ sys ↔
      (getSystemMetadataFromImage incoming image flavor).lookup (prefixed key) = some v := by
    rw [horder.mem_iff, lookup_iff_mem (nodup_systemMetadata incoming image flavor)]
  have hsome : (prefixed key, v) ∈ sys → v ≠ .none :=
    fun h => (walked_entry incoming image flavor horder h).2
  by_cases hread : key ∉ smSkipKeys ∧ decide (key ∈ smInheritableKeys) = inheritable
  · rw [if_pos hread, ← hstored]
    exact ⟨fun h => h.1, fun h => ⟨h, hsome h, hread⟩⟩
  · rw [if_neg hread]
    exact iff_of_false (fun h => hread h.2.2) (fun h => nomatch h)

omit horder in
theorem lookup_storedProperties {key : String} (hskip : key ∉ smSkipKeys) :
    (storedProperties incoming image).lookup (prefixed key) =
      (image.properties.lookup key).map (returned incoming) := by
  apply Option.ext
  intro v
  rw [lookup_iff_mem (nodup_storedProperties incoming image), mem_storedProperties,
    and_iff_right hskip, Option.map_eq_some_iff]
  constructor
  · rintro ⟨w, hw, rfl⟩
    exact ⟨w, lookup_of_mem image.distinct hw, rfl⟩
  · rintro ⟨w, hw, rfl⟩
    exact ⟨w, mem_of_lookup hw, rfl⟩

/-- The properties come back, but for the skipped ones and those that are named like an
inheritable key. -/
theorem lookup_properties (key : String) :
    (getImageFromSystemMetadata sys).properties.lookup key =
      if key ∈ smSkipKeys ∨ key ∈ smInheritableKeys then none
      else (image.properties.lookup key).map (returned incoming) := by
  unfold getImageFromSystemMetadata
  rw [read_properties, lookup_walked incoming image flavor horder]
  by_cases hnot : key ∈ smSkipKeys ∨ key ∈ smInheritableKeys
  · rw [if_pos hnot, if_neg]
    rintro ⟨hskip, hkey⟩
    exact hnot.elim hskip (of_decide_eq_false hkey)
  · rw [not_or] at hnot
    rw [if_neg (not_or.mpr hnot), if_pos ⟨hnot.1, decide_eq_false hnot.2⟩,
      lookup_of_property incoming hnot.2, lookup_storedProperties incoming image hnot.1]

/-- An inheritable key comes back or, where the image does not have it, the property of
its name. -/
theorem lookup_others {key : String} (h : key ∈ smInheritableKeys) :
    (getImageFromSystemMetadata sys).others.lookup key =
      if inheritedValue image flavor key = .none then
        (image.properties.lookup key).map (returned incoming)
      else some (inheritedValue image flavor key) := by
  unfold getImageFromSystemMetadata
  rw [read_others, lookup_walked incoming image flavor horder,
    if_pos ⟨not_skip_of_inheritable h, decide_eq_true h⟩]
  split
  · next hnone =>
    rw [lookup_of_missing incoming hnone,
      lookup_storedProperties incoming image (not_skip_of_inheritable h)]
  · next hsome => exact lookup_of_inherited incoming h hsome

end

/-- The properties, but for the skipped ones, and the inheritable keys are what they
were. -/
structure Survives (image result : ImageMeta) : Prop where
  properties : ∀ key, result.properties.lookup key =
    if key ∈ smSkipKeys then none else image.properties.lookup key
  inheritable : ∀ key ∈ smInheritableKeys, result.others.lookup key = image.others.lookup key

/-- A short text comes back as it was, or as the encoding of the standard input reads
it. -/
theorem returned_text {incoming : ByteArray → Option String} {s : String}
    (h : s.utf8ByteSize ≤ 255) :
    returned incoming (.text s) = .text ((incoming s.toUTF8).getD s) :=
  congrArg MetaValue.text (safeTruncate_of_le incoming h)

/-- The properties of the image are short texts. -/
def ShortTexts (image : ImageMeta) : Prop :=
  ∀ entry ∈ image.properties, ∃ s, entry.2 = .text s ∧ s.utf8ByteSize ≤ 255

section

variable {incoming : ByteArray → Option String} {image : ImageMeta}
  {sys : List (String × MetaValue)}
  (horder : sys.Perm (getSystemMetadataFromImage incoming image none))

include horder

/-- A property that is named like an inheritable key is lost. -/
theorem names_of_survives (h : Survives image (getImageFromSystemMetadata sys)) :
    ∀ key ∈ smInheritableKeys, key ∉ keys image.properties := by
  intro key hkey hmem
  obtain ⟨v, hv⟩ := (mem_keys_iff _ _).mp hmem
  have hlost := lookup_properties incoming image none horder key
  rw [if_pos (Or.inr hkey), h.properties key, if_neg (not_skip_of_inheritable hkey), hv] at hlost
  exact Option.some_ne_none _ hlost

/-- A property that survives is decoded as it was encoded. -/
theorem decoded_of_survives (hvalues : ShortTexts image)
    (h : Survives image (getImageFromSystemMetadata sys)) :
    ∀ key s, (key, .text s) ∈ image.properties → key ∉ smSkipKeys →
      (incoming s.toUTF8).getD s = s := by
  intro key s hmem hskip
  obtain ⟨t, ht, hshort⟩ := hvalues _ hmem
  obtain rfl := MetaValue.text.inj ht
  have hkey : key ∉ smInheritableKeys :=
    fun hkey => names_of_survives horder h key hkey (List.mem_map.mpr ⟨_, hmem, rfl⟩)
  have hback := lookup_properties incoming image none horder key
  rw [if_neg (not_or.mpr ⟨hskip, hkey⟩), h.properties key, if_neg hskip,
    lookup_of_mem image.distinct hmem, Option.map_some, returned_text hshort] at hback
  exact (MetaValue.text.inj (Option.some.inj hback)).symm

theorem properties_survive (hvalues : ShortTexts image)
    (hnames : ∀ key ∈ smInheritableKeys, key ∉ keys image.properties)
    (hdecoded : ∀ key s, (key, .text s) ∈ image.properties → key ∉ smSkipKeys →
      (incoming s.toUTF8).getD s = s) (key : String) :
    (getImageFromSystemMetadata sys).properties.lookup key =
      if key ∈ smSkipKeys then none else image.properties.lookup key := by
  rw [lookup_properties incoming image none horder key]
  by_cases hskip : key ∈ smSkipKeys
  · rw [if_pos (Or.inl hskip), if_pos hskip]
  · rw [if_neg hskip]
    cases hlookup : image.properties.lookup key with
    | none => split <;> rfl
    | some v =>
      have hmem := mem_of_lookup hlookup
      have hkey : key ∉ smInheritableKeys :=
        fun hkey => hnames key hkey (List.mem_map.mpr ⟨_, hmem, rfl⟩)
      obtain ⟨s, hs, hshort⟩ := hvalues _ hmem
      cases hs
      rw [if_neg (not_or.mpr ⟨hskip, hkey⟩), Option.map_some, returned_text hshort,
        hdecoded key s hmem hskip]

/-- Without a property of its name, an inheritable key is what it was. -/
theorem inheritable_survives (hsome : ∀ key ∈ smInheritableKeys,
    image.others.lookup key ≠ some .none) {key : String} (hkey : key ∈ smInheritableKeys)
    (hname : key ∉ keys image.properties) :
    (getImageFromSystemMetadata sys).others.lookup key = image.others.lookup key := by
  have hmissing : image.properties.lookup key = none := by
    by_contra hne
    obtain ⟨v, hv⟩ := Option.ne_none_iff_exists'.mp hne
    exact hname ((mem_keys_iff _ _).mpr ⟨v, hv⟩)
  have hvalue : inheritedValue image none key = (image.others.lookup key).getD .none := rfl
  rw [lookup_others incoming image none horder hkey, hvalue, hmissing]
  cases hlookup : image.others.lookup key with
  | none => rfl
  | some v =>
    have hv : v ≠ .none := fun h => hsome key hkey (h ▸ hlookup)
    exact if_neg hv

end

/-- **When image metadata survives**: short texts as properties and inheritable keys with
values come back exactly if no property is named like an inheritable key, and the encoding
of the standard input reads no property otherwise than UTF-8. -/
theorem metadata_survives_iff (incoming : ByteArray → Option String) (image : ImageMeta)
    (hvalues : ShortTexts image)
    (hsome : ∀ key ∈ smInheritableKeys, image.others.lookup key ≠ some .none)
    {sys : List (String × MetaValue)}
    (horder : sys.Perm (getSystemMetadataFromImage incoming image none)) :
    Survives image (getImageFromSystemMetadata sys) ↔
      (∀ key ∈ smInheritableKeys, key ∉ keys image.properties) ∧
        ∀ key s, (key, .text s) ∈ image.properties → key ∉ smSkipKeys →
          (incoming s.toUTF8).getD s = s := by
  constructor
  · intro h
    exact ⟨names_of_survives horder h, decoded_of_survives horder hvalues h⟩
  · intro ⟨hnames, hdecoded⟩
    exact ⟨properties_survive horder hvalues hnames hdecoded,
      fun key hkey => inheritable_survives horder hsome hkey (hnames key hkey)⟩

/-- `b.decode('ascii')`, the default encoding. -/
def asciiDecode (b : ByteArray) : Option String :=
  if b.data.toList.all (fun c => c < 128) then String.fromUTF8? b else none

theorem asciiDecode_toUTF8 (s : String) : (asciiDecode s.toUTF8).getD s = s := by
  unfold asciiDecode
  split
  · rw [fromUTF8_toUTF8]
    rfl
  · rfl

def linuxImage : ImageMeta where
  properties := [("os_type", .text "linux"), ("mappings", .text "ami")]
  others := [("min_ram", .text "64"), ("name", .text "image")]
  distinct := by decide

theorem survives_linuxImage :
    Survives linuxImage
      (getImageFromSystemMetadata (getSystemMetadataFromImage asciiDecode linuxImage none)) := by
  refine (metadata_survives_iff asciiDecode linuxImage ?_ (by decide) (List.Perm.refl _)).mpr
    ⟨by decide, fun _ s _ _ => asciiDecode_toUTF8 s⟩
  intro entry hentry
  rcases List.mem_pair.mp hentry with rfl | rfl
  · exact ⟨"linux", rfl, by decide⟩
  · exact ⟨"ami", rfl, by decide⟩

def namesakeImage : ImageMeta where
  properties := [("min_ram", .text "512")]
  others := [("min_ram", .text "64")]
  distinct := by decide

/-- The property `min_ram` is lost. -/
theorem not_survives_namesakeImage :
    ¬ Survives namesakeImage
      (getImageFromSystemMetadata (getSystemMetadataFromImage asciiDecode namesakeImage none)) := by
  intro h
  have hlost := lookup_properties asciiDecode namesakeImage none (List.Perm.refl _) "min_ram"
  rw [h.properties "min_ram", if_neg (by decide), if_pos (by decide)] at hlost
  exact absurd hlost (by decide)

end PolarBear.Utils
