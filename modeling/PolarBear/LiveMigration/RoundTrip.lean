import PolarBear.Db.Query
import PolarBear.LiveMigration.LegacyDict

/-!
# What comes back from a legacy dictionary

The dictionary is written and read key by key, so both directions are followed by what a key
reads (`lookup_toLegacyDict`, `fromLegacyDict_ok`). Every field comes back. A mapping comes
back as `decoded`: without its `format` and its `boot_index`, which the reader does not look
for where they are.
-/

namespace PolarBear.LiveMigration

open PolarBear.Py
open PolarBear.Fallible

variable {α μ : Type} {ext : Externals α μ} {floatRepr : String → String}
  {order : List String → List String} {o o' : LiveMigrateData α μ}

/-! ## The round trip -/

/-- The attributes hold values of their fields, and the mappings have serials of their own. -/
structure WellFormed (o : LiveMigrateData α μ) : Prop where
  typed : ∀ k v, o.attrs.lookup k = some v →
    k ≠ "bdms" ∧ ∃ f, fields.lookup k = some f ∧ f.holds v = true
  serials : ((o.bdms.getD []).map BDMInfo.serial).Nodup

/-- A mapping with a serial. -/
def LiveMigrateData.mapping (o : LiveMigrateData α μ) (serial : String) : Option BDMInfo :=
  (o.bdms.getD []).find? (fun b => b.serial == serial)

/-- The mapping says the same of the device: its connection as a JSON value, a format that is
not empty and a boot index that is not null. -/
structure SameMapping (floatRepr : String → String) (b b' : BDMInfo) : Prop where
  bus : b'.bus = b.bus
  dev : b'.dev = b.dev
  type : b'.type = b.type
  info : ∃ j, b.connectionInfo floatRepr = .ok j ∧ b'.connectionInfo floatRepr = .ok j
  format : ∀ format, format ≠ "" → b.format = some (some format) →
    b'.format = some (some format)
  bootIndex : ∀ n, b.bootIndex = some (some n) → b'.bootIndex = some (some n)

/-- What was set has the same value, and what was not is not or is null. -/
structure Agrees (floatRepr : String → String) (o o' : LiveMigrateData α μ) : Prop where
  set : ∀ k v, o.attrs.lookup k = some v → o'.attrs.lookup k = some v
  unset : ∀ k, o.attrs.lookup k = none →
    o'.attrs.lookup k = none ∨ o'.attrs.lookup k = some .none
  bdms : ∃ bdms, o'.bdms = some bdms
  mappings : ∀ serial, Option.Rel (SameMapping floatRepr) (o.mapping serial) (o'.mapping serial)

/-- The object goes through its legacy dictionary. -/
def RoundTrips (ext : Externals α μ) (floatRepr : String → String)
    (order : List String → List String) (o : LiveMigrateData α μ) : Prop :=
  ∃ legacy o', o.toLegacyDict ext floatRepr true = .ok legacy ∧
    LiveMigrateData.fresh.fromLegacyDict ext order legacy = .ok o' ∧ Agrees floatRepr o o'

/-- The connection is JSON, the format is empty or missing, and the boot index is missing. -/
structure Carried (floatRepr : String → String) (b : BDMInfo) : Prop where
  info : ∃ j, loads floatRepr b.connectionInfoJson = some j
  format : ∀ format, b.format = some (some format) → format = ""
  bootIndex : ∀ n, b.bootIndex ≠ some (some n)

/-! ## Fields -/

theorem coerce_of_holds {f : Field} {v : Value α μ} (attr : String) (h : f.holds v = true) :
    f.coerce ext attr v = .ok v := by
  unfold Field.coerce
  split
  · unfold Field.holds at h
    rw [if_pos h]
  · rw [if_pos h]

/-- The entries of the keys that read something. -/
def gather (look : String → Option (Value α μ)) (names : List String) :
    List (String × Value α μ) := names.filterMap (fun k => (look k).map (fun v => (k, v)))

theorem gather_cons (look : String → Option (Value α μ)) (k : String) (names : List String) :
    gather look (k :: names) = ((look k).map (fun v => (k, v))).toList ++ gather look names := by
  unfold gather
  rw [List.filterMap_cons]
  cases look k <;> rfl

theorem keys_gather_sublist (look : String → Option (Value α μ)) (names : List String) :
    (Dict.keys (gather look names)).Sublist names := by
  have hsub := Dict.keys_filterMap_sublist (f := fun k => (look k).map (fun v => (k, v)))
    (g := fun k => k) ?_ names
  · rwa [List.map_id'] at hsub
  · intro k e he
    obtain ⟨v, -, rfl⟩ := Option.map_eq_some_iff.mp he
    rfl

theorem lookup_gather (look : String → Option (Value α μ)) (k : String) :
    ∀ names : List String, (gather look names).lookup k = if k ∈ names then look k else none
  | [] => rfl
  | name :: names => by
    have ih := lookup_gather look k names
    rw [gather_cons]
    by_cases hk : name = k
    · subst hk
      rw [if_pos List.mem_cons_self]
      cases hlook : look name with
      | some v => exact List.lookup_cons_self
      | none =>
        refine ih.trans ?_
        rw [hlook]
        split <;> rfl
    · have hmem : (k ∈ name :: names) = (k ∈ names) :=
        propext (List.mem_cons.trans (or_iff_right (fun h => hk h.symm)))
      simp only [hmem, ← ih]
      cases look name with
      | some v => exact Dict.lookup_cons_ne hk v _
      | none => rfl

/-- The fields but `bdms`, those of the base class first. -/
theorem lookup_gather_both (look : String → Option (Value α μ)) (k : String) :
    (Dict.update (gather look (Dict.keys baseFields)) (gather look libvirtKeys)).lookup k =
      if k ∈ Dict.keys baseFields ∨ k ∈ libvirtKeys then look k else none := by
  have hnodup : (Dict.keys (gather look libvirtKeys)).Nodup :=
    (keys_gather_sublist look libvirtKeys).nodup (by decide)
  have hboth : ∀ name ∈ libvirtKeys, name ∉ Dict.keys baseFields := by decide
  have hread := lookup_gather look k libvirtKeys
  by_cases hin : k ∈ libvirtKeys
  · rw [if_pos (.inr hin)]
    rw [if_pos hin] at hread
    cases hlook : look k with
    | some v =>
      rw [hlook] at hread
      exact Dict.lookup_update_of_lookup hnodup hread
    | none =>
      rw [hlook] at hread
      have hnot : k ∉ Dict.keys (gather look libvirtKeys) := by
        intro hmem
        obtain ⟨v, hv⟩ := (Dict.mem_keys_iff k _).mp hmem
        rw [hread] at hv
        cases hv
      rw [Dict.lookup_update_of_notMem hnot, lookup_gather, if_neg (hboth k hin)]
  · have hnot : k ∉ Dict.keys (gather look libvirtKeys) :=
      fun hmem => hin ((keys_gather_sublist look libvirtKeys).mem hmem)
    rw [Dict.lookup_update_of_notMem hnot, lookup_gather]
    exact if_congr (or_iff_left hin).symm rfl rfl

theorem WellFormed.mem (h : WellFormed o) {k : String} {v : Value α μ}
    (hk : o.attrs.lookup k = some v) : k ∈ Dict.keys baseFields ∨ k ∈ libvirtKeys := by
  obtain ⟨hne, f, hf, -⟩ := h.typed k v hk
  have hfield : k ∈ Dict.keys fields := (Dict.mem_keys_iff k _).mpr ⟨f, hf⟩
  have hall : ∀ name ∈ Dict.keys fields, name ≠ "bdms" →
    name ∈ Dict.keys baseFields ∨ name ∈ libvirtKeys := by decide
  exact hall k hfield hne

theorem lookup_pop (k k' : String) (d : List (String × Value α μ)) :
    (pop k d).2.lookup k' = if k' = k then none else d.lookup k' := by
  unfold pop
  dsimp only
  split
  · next heq =>
    refine List.lookup_eq_none_iff.mpr (fun kv hkv => ?_)
    rw [heq, bne_comm]
    exact (List.mem_filter.mp hkv).2
  · next hne =>
    exact Dict.lookup_filter_key (p := fun name => name != k) (bne_iff_ne.mpr hne) d

/-! ## Writing -/

/-- The fields that go into the result of the pre-migration. -/
def movedKeys : List String :=
  ["graphics_listen_addr_vnc", "graphics_listen_addr_spice", "target_connect_addr",
    "serial_listen_addr"]

/-- A field, or `None`. -/
def LiveMigrateData.getOrNone (o : LiveMigrateData α μ) (k : String) : Value α μ :=
  (o.attrs.lookup k).getD .none

def liveResult (ext : Externals α μ) (o : LiveMigrateData α μ) : List (String × Value α μ) := [
  ("graphics_listen_addrs", .dict [
    ("vnc", andStr ext (o.getOrNone "graphics_listen_addr_vnc")),
    ("spice", andStr ext (o.getOrNone "graphics_listen_addr_spice"))]),
  ("serial_listen_addr", o.getOrNone "serial_listen_addr"),
  ("target_connect_addr", o.getOrNone "target_connect_addr")]

variable (ext floatRepr) in
/-- **What is written**: the fields that are not moved under their names, and the moved ones
with the mappings in the result. -/
theorem toLegacyDict_eq (h : WellFormed o) :
    ∃ kept : List (String × Value α μ),
      (∀ k, kept.lookup k = if k ∈ movedKeys then none else o.attrs.lookup k) ∧
      o.toLegacyDict ext floatRepr true = (do
        let result ← o.bdmsToLegacy floatRepr (liveResult ext o)
        .ok (Dict.set "pre_live_migration_result" (.dict result) kept)) := by
  have hall : ∀ k, (Dict.update (o.baseToLegacyDict false)
      (libvirtKeys.filterMap (fun k => (o.attrs.lookup k).map (fun v => (k, v))))).lookup k =
        o.attrs.lookup k := by
    intro k
    refine (lookup_gather_both (fun k => o.attrs.lookup k) k).trans ?_
    split
    · rfl
    · next hnot =>
      cases hk : o.attrs.lookup k with
      | none => rfl
      | some v => exact absurd (h.mem hk) hnot
  unfold LiveMigrateData.toLegacyDict
  generalize Dict.update (o.baseToLegacyDict false) _ = legacy at hall
  dsimp only
  rw [if_pos rfl]
  have hlater : ∀ k k' (d : List (String × Value α μ)), k' ≠ k →
      (pop k' (pop k d).2).1 = (pop k' d).1 := by
    intro k k' d hne
    show ((pop k d).2.lookup k').getD .none = _
    rw [lookup_pop, if_neg hne]
    rfl
  have hone : ∀ k, (pop k legacy).1 = o.getOrNone k :=
    fun k => congrArg (fun v => Option.getD v Value.none) (hall k)
  refine ⟨(pop "serial_listen_addr" (pop "target_connect_addr" (pop "graphics_listen_addr_spice"
    (pop "graphics_listen_addr_vnc" legacy).2).2).2).2, fun k => ?_, ?_⟩
  · simp only [lookup_pop, hall, movedKeys, List.mem_cons, List.not_mem_nil, or_false]
    split_ifs <;> tauto
  · rw [hlater _ _ _ (by decide), hlater _ _ _ (by decide), hlater _ _ _ (by decide),
      hlater _ _ _ (by decide), hlater _ _ _ (by decide), hlater _ _ _ (by decide),
      hone, hone, hone, hone]
    rfl

/-- An entry of the dictionary of mappings. -/
def volumeEntry (b : BDMInfo) (info : Json) : Value α μ :=
  .dict [("disk_info", .dict b.asDiskInfo), ("connection_info", .json info)]

/-- The mappings are written in their order, if each connection is JSON. -/
theorem bdmsToLegacy_ok {bdms : List BDMInfo} (hbdms : o.bdms = some bdms)
    (hserials : (bdms.map BDMInfo.serial).Nodup) {info : BDMInfo → Json}
    (hinfo : ∀ b ∈ bdms, b.connectionInfo floatRepr = .ok (info b))
    (legacy : List (String × Value α μ)) :
    o.bdmsToLegacy floatRepr legacy = .ok (Dict.set "volume"
      (.dict (bdms.map (fun b => (b.serial, volumeEntry b (info b))))) legacy) := by
  have hloop : ∀ (todo done : List BDMInfo), bdms = done ++ todo →
      todo.foldlM (fun volume (b : BDMInfo) => do
        let info ← b.connectionInfo floatRepr
        .ok (Dict.set b.serial (.dict [("disk_info", .dict b.asDiskInfo),
          ("connection_info", .json info)]) volume))
        (done.map (fun b => (b.serial, (volumeEntry b (info b) : Value α μ)))) =
      (.ok (bdms.map (fun b => (b.serial, volumeEntry b (info b)))) : Except PyError _) := by
    intro todo
    induction todo with
    | nil =>
      intro done hsplit
      rw [List.append_nil] at hsplit
      rw [hsplit]
      rfl
    | cons b todo ih =>
      intro done hsplit
      have hb := hinfo b (hsplit ▸ List.mem_append_right _ List.mem_cons_self)
      -- the serial is new
      have hnew : b.serial ∉
          Dict.keys (done.map (fun b => (b.serial, (volumeEntry b (info b) : Value α μ)))) := by
        unfold Dict.keys
        rw [List.map_map]
        rw [hsplit, List.map_append, List.nodup_append] at hserials
        exact fun hmem => hserials.2.2 _ hmem _ (List.mem_map_of_mem List.mem_cons_self) rfl
      have hnext := ih (done ++ [b]) (by rw [hsplit, List.append_assoc]; rfl)
      rw [List.map_append] at hnext
      rw [List.foldlM_cons, hb]
      show (List.foldlM _ (Dict.set b.serial (volumeEntry b (info b)) _) todo) = _
      rw [Dict.set_of_not_mem _ hnew]
      exact hnext
  unfold LiveMigrateData.bdmsToLegacy
  rw [hbdms]
  dsimp only
  have hall := hloop bdms [] rfl
  rw [List.map_nil] at hall
  rw [hall]
  rfl

/-- A connection that is not JSON ends the call. -/
theorem info_of_bdmsToLegacy {bdms : List BDMInfo} (hbdms : o.bdms = some bdms)
    {legacy result : List (String × Value α μ)}
    (h : o.bdmsToLegacy floatRepr legacy = .ok result) :
    ∀ b ∈ bdms, ∃ j, b.connectionInfo floatRepr = .ok j := by
  unfold LiveMigrateData.bdmsToLegacy at h
  rw [hbdms] at h
  obtain ⟨volume, hvolume, -⟩ := bind_ok_iff.mp h
  intro b hb
  obtain ⟨before, after, hround⟩ := foldlM_mem_ok hvolume b hb
  obtain ⟨j, hj, -⟩ := bind_ok_iff.mp hround
  exact ⟨j, hj⟩

/-! ## Reading -/

/-- The mapping as it comes back. -/
def decoded (b : BDMInfo) (info : Json) : BDMInfo :=
  ⟨b.serial, b.bus, b.dev, b.type, none, none, dumps info⟩

/-- An entry is read without its format and its boot index. -/
theorem bdmFromLegacy_entry {volume : List (String × Value α μ)} {b : BDMInfo} {info : Json}
    (h : volume.lookup b.serial = some (volumeEntry b info)) :
    bdmFromLegacy ext volume b.serial = .ok (decoded b info) := by
  have hentry : getItem volume b.serial = .ok (volumeEntry b info) := by
    unfold getItem
    rw [h]
  unfold bdmFromLegacy
  rw [hentry]
  rfl

theorem setattr_of_coerce {k : String} {f : Field} (hf : fields.lookup k = some f)
    {v w : Value α μ} (hcoerce : f.coerce ext k w = .ok v) (o : LiveMigrateData α μ) :
    o.setattr ext k w = .ok { o with attrs := Dict.set k v o.attrs } := by
  unfold LiveMigrateData.setattr
  rw [hf]
  dsimp only
  rw [hcoerce]
  rfl

/-- Setting what is there to what is read. -/
theorem foldlM_setFrom {legacy : List (String × Value α μ)} :
    ∀ {names : List String} {o : LiveMigrateData α μ},
      (∀ k ∈ names, ∀ v, legacy.lookup k = some v →
        ∃ f, fields.lookup k = some f ∧ f.holds v = true) →
      names.foldlM (LiveMigrateData.setFrom ext legacy) o =
        .ok { o with attrs := Dict.update o.attrs (gather (fun k => legacy.lookup k) names) }
  | [], o, _ => rfl
  | k :: names, o, h => by
    have hrest := fun name hname => h name (List.mem_cons_of_mem _ hname)
    rw [List.foldlM_cons, gather_cons]
    cases hk : legacy.lookup k with
    | none =>
      have hstep : o.setFrom ext legacy k = .ok o := by
        unfold LiveMigrateData.setFrom
        rw [hk]
      rw [hstep]
      exact foldlM_setFrom hrest
    | some v =>
      obtain ⟨f, hf, hholds⟩ := h k List.mem_cons_self v hk
      have hstep : o.setFrom ext legacy k = .ok { o with attrs := Dict.set k v o.attrs } := by
        unfold LiveMigrateData.setFrom
        rw [hk]
        exact setattr_of_coerce hf (coerce_of_holds k hholds) o
      rw [hstep]
      exact foldlM_setFrom hrest

/-- A field that may be null, set or not. -/
theorem WellFormed.holds_getOrNone (h : WellFormed o) {k : String} {f : Field}
    (hf : fields.lookup k = some f) (hnull : f.nullable = true) :
    f.holds (o.getOrNone k) = true := by
  unfold LiveMigrateData.getOrNone
  cases hk : o.attrs.lookup k with
  | none =>
    unfold Field.holds
    exact hnull
  | some v =>
    obtain ⟨-, f', hf', hholds⟩ := h.typed k v hk
    rw [hf] at hf'
    cases hf'
    exact hholds

/-- An address comes back from its text. -/
theorem coerce_andStr (hstr : ∀ a, ext.ipAddress (ext.str a) = some a) (k : String)
    {v : Value α μ} (h : (⟨.ipAddress, true⟩ : Field).holds v = true) :
    (⟨.ipAddress, true⟩ : Field).coerce ext k (andStr ext v) = .ok v := by
  cases v with
  | none => rfl
  | address a =>
    unfold andStr
    dsimp only
    split
    · unfold Field.coerce
      dsimp only
      rw [hstr]
      rfl
    · rfl
  | bool _ => cases h
  | int _ => cases h
  | text _ => cases h
  | ints _ => cases h
  | texts _ => cases h
  | migration _ => cases h
  | json _ => cases h
  | dict _ => cases h

/-- The attributes as they come back. -/
def readAttrs (o : LiveMigrateData α μ) (kept : List (String × Value α μ)) :
    List (String × Value α μ) :=
  Dict.update kept (movedKeys.map (fun k => (k, o.getOrNone k)))

theorem lookup_readAttrs {kept : List (String × Value α μ)}
    (hkept : ∀ k, kept.lookup k = if k ∈ movedKeys then none else o.attrs.lookup k) (k : String) :
    (readAttrs o kept).lookup k =
      if k ∈ movedKeys then some (o.getOrNone k) else o.attrs.lookup k := by
  have hkeys : Dict.keys (movedKeys.map (fun k => (k, o.getOrNone k))) = movedKeys :=
    (List.map_map).trans (List.map_id'' (fun _ => rfl) _)
  unfold readAttrs
  split
  · next hmem =>
    refine Dict.lookup_update_of_lookup (by rw [hkeys]; decide) ?_
    exact Dict.lookup_of_mem (by rw [hkeys]; decide)
      (List.mem_map_of_mem (f := fun k => (k, o.getOrNone k)) hmem)
  · next hnot =>
    rw [Dict.lookup_update_of_notMem (by rw [hkeys]; exact hnot), hkept, if_neg hnot]

/-- **What is read** from the result of the pre-migration. -/
theorem fromPreResult_ok (h : WellFormed o) (hstr : ∀ a, ext.ipAddress (ext.str a) = some a)
    {result : List (String × Value α μ)}
    (hresult : ∀ k, k ≠ "volume" → result.lookup k = (liveResult ext o).lookup k)
    (kept : List (String × Value α μ)) :
    (⟨kept, none⟩ : LiveMigrateData α μ).fromPreResult ext order result =
      (⟨readAttrs o kept, none⟩ : LiveMigrateData α μ).bdmsFromLegacy ext order result := by
  have haddrs : getItem result "graphics_listen_addrs" = .ok (.dict [
      ("vnc", andStr ext (o.getOrNone "graphics_listen_addr_vnc")),
      ("spice", andStr ext (o.getOrNone "graphics_listen_addr_spice"))]) := by
    unfold getItem
    rw [hresult _ (by decide)]
    rfl
  have htarget : (result.lookup "target_connect_addr").getD .none =
      o.getOrNone "target_connect_addr" := by
    rw [hresult _ (by decide)]
    rfl
  have hserial : result.lookup "serial_listen_addr" = some (o.getOrNone "serial_listen_addr") := by
    rw [hresult _ (by decide)]
    rfl
  have hset : ∀ (k : String) (type : FieldType), fields.lookup k = some ⟨type, true⟩ →
      ∀ o' : LiveMigrateData α μ, o'.setattr ext k (o.getOrNone k) =
        .ok { o' with attrs := Dict.set k (o.getOrNone k) o'.attrs } := fun k type hf =>
    setattr_of_coerce hf (coerce_of_holds k (h.holds_getOrNone hf rfl))
  have haddress : ∀ k, fields.lookup k = some ⟨.ipAddress, true⟩ →
      ∀ o' : LiveMigrateData α μ, o'.setattr ext k (andStr ext (o.getOrNone k)) =
        .ok { o' with attrs := Dict.set k (o.getOrNone k) o'.attrs } := fun k hf =>
    setattr_of_coerce hf (coerce_andStr hstr k (h.holds_getOrNone hf rfl))
  have hfrom : ∀ o' : LiveMigrateData α μ, o'.setFrom ext result "serial_listen_addr" =
      .ok { o' with
        attrs := Dict.set "serial_listen_addr" (o.getOrNone "serial_listen_addr") o'.attrs } := by
    intro o'
    unfold LiveMigrateData.setFrom
    rw [hserial]
    exact hset _ _ rfl o'
  unfold LiveMigrateData.fromPreResult
  rw [bind_of_ok haddrs]
  show (do
    let o' ← LiveMigrateData.setattr ext _ "graphics_listen_addr_vnc"
      (andStr ext (o.getOrNone "graphics_listen_addr_vnc"))
    let o' ← o'.setattr ext "graphics_listen_addr_spice"
      (andStr ext (o.getOrNone "graphics_listen_addr_spice"))
    let o' ← o'.setattr ext "target_connect_addr"
      ((result.lookup "target_connect_addr").getD .none)
    let o' ← o'.setFrom ext result "serial_listen_addr"
    o'.bdmsFromLegacy ext order result) = _
  rw [bind_of_ok (haddress _ rfl _), bind_of_ok (haddress _ rfl _), htarget,
    bind_of_ok (hset _ _ rfl _), bind_of_ok (hfrom _)]
  rfl

/-! ## Mappings -/

theorem mapping_of_mem {bdms : List BDMInfo} (hserials : (bdms.map BDMInfo.serial).Nodup)
    {b : BDMInfo} (hb : b ∈ bdms) : bdms.find? (fun b' => b'.serial == b.serial) = some b :=
  Db.find_of_nodup hserials hb

variable (ext) in
/-- The mappings are read back as `decoded`, in whatever order. -/
theorem bdmsFromLegacy_ok {bdms : List BDMInfo} (hserials : (bdms.map BDMInfo.serial).Nodup)
    (info : BDMInfo → Json) (horder : ∀ keys, (order keys).Perm keys)
    {result : List (String × Value α μ)}
    (hvolume : (result.lookup "volume").getD (.dict []) =
      .dict (bdms.map (fun b => (b.serial, volumeEntry b (info b))))) (o : LiveMigrateData α μ) :
    ∃ bdms', o.bdmsFromLegacy ext order result = .ok { o with bdms := some bdms' } ∧
      (bdms'.map BDMInfo.serial).Nodup ∧
      ∀ b', b' ∈ bdms' ↔ ∃ b ∈ bdms, b' = decoded b (info b) := by
  have hkeys : Dict.keys (bdms.map (fun b => (b.serial, (volumeEntry b (info b) : Value α μ)))) =
      bdms.map BDMInfo.serial := List.map_map
  have hlookup : ∀ b ∈ bdms,
      (bdms.map (fun b => (b.serial, (volumeEntry b (info b) : Value α μ)))).lookup b.serial =
        some (volumeEntry b (info b)) := fun b hb =>
    Dict.lookup_of_mem (hkeys ▸ hserials)
      (List.mem_map_of_mem (f := fun b => (b.serial, (volumeEntry b (info b) : Value α μ))) hb)
  -- the mapping of a serial that is there
  let back : String → BDMInfo := fun serial =>
    match bdms.find? (fun b => b.serial == serial) with
    | some b => decoded b (info b)
    | none => ⟨serial, "", "", "", none, none, ""⟩
  have hback : ∀ b ∈ bdms, back b.serial = decoded b (info b) := by
    intro b hb
    show (match bdms.find? (fun b' => b'.serial == b.serial) with
      | some b => decoded b (info b)
      | none => _) = _
    rw [mapping_of_mem hserials hb]
  have hround : ∀ serial ∈ order (bdms.map BDMInfo.serial),
      bdmFromLegacy ext
        (bdms.map (fun b => (b.serial, (volumeEntry b (info b) : Value α μ)))) serial =
          .ok (back serial) := by
    intro serial hserial
    obtain ⟨b, hb, rfl⟩ := List.mem_map.mp ((horder _).mem_iff.mp hserial)
    rw [hback b hb]
    exact bdmFromLegacy_entry (hlookup b hb)
  refine ⟨(order (bdms.map BDMInfo.serial)).map back, ?_, ?_, fun b' => ?_⟩
  · unfold LiveMigrateData.bdmsFromLegacy
    rw [hvolume]
    show ((order (Dict.keys _)).mapM (bdmFromLegacy ext _) >>= fun bdms =>
      (.ok { o with bdms := some bdms } : Except PyError (LiveMigrateData α μ))) = _
    rw [hkeys, mapM_ok hround]
    rfl
  · -- each mapping keeps its serial, and the order permutes them
    have hsame : ((order (bdms.map BDMInfo.serial)).map back).map BDMInfo.serial =
        order (bdms.map BDMInfo.serial) := by
      rw [List.map_map]
      refine (List.map_congr_left (fun serial hserial => ?_)).trans (List.map_id _)
      obtain ⟨b, hb, rfl⟩ := List.mem_map.mp ((horder _).mem_iff.mp hserial)
      show (back b.serial).serial = b.serial
      rw [hback b hb]
      rfl
    rw [hsame]
    exact (horder _).nodup_iff.mpr hserials
  · rw [List.mem_map]
    constructor
    · rintro ⟨serial, hserial, rfl⟩
      obtain ⟨b, hb, rfl⟩ := List.mem_map.mp ((horder _).mem_iff.mp hserial)
      exact ⟨b, hb, hback b hb⟩
    · rintro ⟨b, hb, rfl⟩
      exact ⟨b.serial, (horder _).mem_iff.mpr (List.mem_map_of_mem hb), hback b hb⟩

/-- A mapping and what it is read back as. -/
theorem sameMapping_decoded (hrepr : ReprReadsBack floatRepr) {b : BDMInfo} {j : Json}
    (hj : b.connectionInfo floatRepr = .ok j) :
    SameMapping floatRepr b (decoded b j) ↔ Carried floatRepr b := by
  have hloads : loads floatRepr b.connectionInfoJson = some j := by
    unfold BDMInfo.connectionInfo at hj
    split at hj
    · next hload =>
      cases hj
      exact hload
    · cases hj
  constructor
  · intro h
    refine ⟨⟨j, hloads⟩, fun format hformat => ?_, fun n hn => ?_⟩
    · by_contra hne
      cases h.format format hne hformat
    · cases h.bootIndex n hn
  · intro h
    refine ⟨rfl, rfl, rfl, ⟨j, hj, ?_⟩, fun format hne hformat => ?_, fun n hn => ?_⟩
    · unfold BDMInfo.connectionInfo decoded
      dsimp only
      rw [loads_dumps_loads hrepr hloads]
    · exact absurd (h.format format hformat) hne
    · exact absurd hn (h.bootIndex n)

/-! ## The result -/

/-- The result of the pre-migration, with the mappings. An object that has no mappings set is
read as one that has none. -/
theorem liveResult_bdms (h : WellFormed o) {info : BDMInfo → Json}
    (hinfo : ∀ b ∈ o.bdms.getD [], b.connectionInfo floatRepr = .ok (info b)) :
    ∃ result : List (String × Value α μ),
      o.bdmsToLegacy floatRepr (liveResult ext o) = .ok result ∧
      (∀ k, k ≠ "volume" → result.lookup k = (liveResult ext o).lookup k) ∧
      (result.lookup "volume").getD (.dict []) =
        .dict ((o.bdms.getD []).map (fun b => (b.serial, volumeEntry b (info b)))) := by
  have hserials := h.serials
  cases hbdms : o.bdms with
  | none =>
    refine ⟨liveResult ext o, ?_, fun _ _ => rfl, rfl⟩
    unfold LiveMigrateData.bdmsToLegacy
    rw [hbdms]
  | some bdms =>
    rw [hbdms, Option.getD_some] at hserials hinfo
    refine ⟨_, bdmsToLegacy_ok hbdms hserials hinfo _, fun k hk => Dict.lookup_set_ne hk _ _, ?_⟩
    rw [Dict.lookup_set_self]
    rfl

variable (ext order) in
/-- The fields of the dictionary, read into a fresh object. -/
theorem fromLegacyDict_kept (h : WellFormed o) {legacy kept result : List (String × Value α μ)}
    (hkept : ∀ k, kept.lookup k = if k ∈ movedKeys then none else o.attrs.lookup k)
    (hnames : ∀ k, k ∈ Dict.keys baseFields ∨ k ∈ libvirtKeys → legacy.lookup k = kept.lookup k)
    (hresult : legacy.lookup "pre_live_migration_result" = some (.dict result)) :
    ∃ kept' : List (String × Value α μ),
      LiveMigrateData.fresh.fromLegacyDict ext order legacy =
        (⟨kept', none⟩ : LiveMigrateData α μ).fromPreResult ext order result ∧
      ∀ k, kept'.lookup k = if k ∈ movedKeys then none else o.attrs.lookup k := by
  have htyped : ∀ k, k ∈ Dict.keys baseFields ∨ k ∈ libvirtKeys → ∀ v, legacy.lookup k = some v →
      ∃ f, fields.lookup k = some f ∧ f.holds v = true := by
    intro k hk v hv
    rw [hnames k hk, hkept] at hv
    split at hv
    · cases hv
    · exact (h.typed k v hv).2
  have hnodup : (Dict.keys (gather (fun k => legacy.lookup k) (Dict.keys baseFields))).Nodup :=
    (keys_gather_sublist _ _).nodup (by decide)
  refine ⟨Dict.update (gather (fun k => legacy.lookup k) (Dict.keys baseFields))
    (gather (fun k => legacy.lookup k) libvirtKeys), ?_, fun k => ?_⟩
  · have hbase : Dict.update (LiveMigrateData.fresh : LiveMigrateData α μ).attrs
        (gather (fun k => legacy.lookup k) (Dict.keys baseFields)) =
          gather (fun k => legacy.lookup k) (Dict.keys baseFields) := Dict.update_nil hnodup
    unfold LiveMigrateData.fromLegacyDict
    rw [bind_of_ok (foldlM_setFrom (fun k hk => htyped k (.inl hk))),
      bind_of_ok (foldlM_setFrom (fun k hk => htyped k (.inr hk))), hbase, hresult]
    rfl
  · rw [lookup_gather_both]
    split
    · next hk => rw [hnames k hk, hkept]
    · next hnot =>
      cases hk : o.attrs.lookup k with
      | none => split <;> rfl
      | some v => exact absurd (h.mem hk) hnot

/-- Where every connection is JSON, the object comes back, with its mappings as `decoded`. -/
theorem fromLegacyDict_toLegacyDict (h : WellFormed o)
    (hstr : ∀ a, ext.ipAddress (ext.str a) = some a) (horder : ∀ keys, (order keys).Perm keys)
    {info : BDMInfo → Json}
    (hinfo : ∀ b ∈ o.bdms.getD [], b.connectionInfo floatRepr = .ok (info b)) :
    ∃ legacy attrs bdms', o.toLegacyDict ext floatRepr true = .ok legacy ∧
      LiveMigrateData.fresh.fromLegacyDict ext order legacy = .ok ⟨attrs, some bdms'⟩ ∧
      (∀ k, attrs.lookup k =
        if k ∈ movedKeys then some (o.getOrNone k) else o.attrs.lookup k) ∧
      (bdms'.map BDMInfo.serial).Nodup ∧
      ∀ b', b' ∈ bdms' ↔ ∃ b ∈ o.bdms.getD [], b' = decoded b (info b) := by
  obtain ⟨kept, hkept, hwritten⟩ := toLegacyDict_eq ext floatRepr h
  obtain ⟨result, hbdms, hresult, hvolume⟩ := liveResult_bdms h hinfo
  have hlegacy : o.toLegacyDict ext floatRepr true =
      .ok (Dict.set "pre_live_migration_result" (.dict result) kept) := by
    rw [hwritten, hbdms]
    rfl
  have hnames : ∀ k, k ∈ Dict.keys baseFields ∨ k ∈ libvirtKeys →
      (Dict.set "pre_live_migration_result" (.dict result) kept).lookup k = kept.lookup k := by
    have hne : ∀ k, k ∈ Dict.keys baseFields ∨ k ∈ libvirtKeys →
        k ≠ "pre_live_migration_result" := by
      rintro k hk rfl
      exact absurd hk (by decide)
    exact fun k hk => Dict.lookup_set_ne (hne k hk) _ kept
  obtain ⟨kept', hread, hkept'⟩ := fromLegacyDict_kept ext order h hkept hnames
    (Dict.lookup_set_self _ _ kept)
  obtain ⟨bdms', hmappings, hnodup, hmem⟩ := bdmsFromLegacy_ok ext h.serials info horder
    hvolume ⟨readAttrs o kept', none⟩
  exact ⟨_, readAttrs o kept', bdms', hlegacy,
    (hread.trans (fromPreResult_ok h hstr hresult kept')).trans hmappings,
    lookup_readAttrs hkept', hnodup, hmem⟩

/-- The attributes come back, and one that was not set may come back as `None`. -/
theorem fields_kept {attrs : List (String × Value α μ)}
    (hattrs : ∀ k, attrs.lookup k =
      if k ∈ movedKeys then some (o.getOrNone k) else o.attrs.lookup k) :
    (∀ k v, o.attrs.lookup k = some v → attrs.lookup k = some v) ∧
      ∀ k, o.attrs.lookup k = none → attrs.lookup k = none ∨ attrs.lookup k = some .none := by
  refine ⟨fun k v hk => ?_, fun k hk => ?_⟩
  · rw [hattrs]
    unfold LiveMigrateData.getOrNone
    rw [hk]
    split <;> rfl
  · rw [hattrs]
    unfold LiveMigrateData.getOrNone
    rw [hk]
    split
    · exact .inr rfl
    · exact .inl rfl

/-- What is written has every connection, so each of them is JSON. -/
theorem info_of_toLegacyDict (h : WellFormed o) {legacy : List (String × Value α μ)}
    (hwrite : o.toLegacyDict ext floatRepr true = .ok legacy) :
    ∀ b ∈ o.bdms.getD [], ∃ j, b.connectionInfo floatRepr = .ok j := by
  obtain ⟨kept, -, hwritten⟩ := toLegacyDict_eq ext floatRepr h
  rw [hwritten] at hwrite
  obtain ⟨result, hresult, -⟩ := bind_ok_iff.mp hwrite
  intro b hb
  cases hbdms : o.bdms with
  | none =>
    rw [hbdms] at hb
    cases hb
  | some bdms =>
    rw [hbdms] at hb
    exact info_of_bdmsToLegacy hbdms hresult b hb

/-- **Main result.** For every object, and whatever the order of the dictionaries: it comes
back from its legacy dictionary exactly if each of its mappings is `Carried`. -/
theorem roundTrips_iff (hrepr : ReprReadsBack floatRepr)
    (hstr : ∀ a, ext.ipAddress (ext.str a) = some a) (horder : ∀ keys, (order keys).Perm keys)
    (h : WellFormed o) :
    RoundTrips ext floatRepr order o ↔ ∀ b ∈ o.bdms.getD [], Carried floatRepr b := by
  by_cases hjson : ∀ b ∈ o.bdms.getD [], ∃ j, b.connectionInfo floatRepr = .ok j
  · let info : BDMInfo → Json := fun b => (b.connectionInfo floatRepr).toOption.getD .null
    have hinfo : ∀ b ∈ o.bdms.getD [], b.connectionInfo floatRepr = .ok (info b) := by
      intro b hb
      obtain ⟨j, hj⟩ := hjson b hb
      show _ = Except.ok ((b.connectionInfo floatRepr).toOption.getD .null)
      rw [hj]
      rfl
    obtain ⟨legacy, attrs, bdms', hwrite, hread, hattrs, hnodup, hmem⟩ :=
      fromLegacyDict_toLegacyDict h hstr horder hinfo
    have hfields := fields_kept hattrs
    have hmapping : ∀ b ∈ o.bdms.getD [], o.mapping b.serial = some b ∧
        (⟨attrs, some bdms'⟩ : LiveMigrateData α μ).mapping b.serial =
          some (decoded b (info b)) := fun b hb =>
      ⟨mapping_of_mem h.serials hb, mapping_of_mem hnodup ((hmem _).mpr ⟨b, hb, rfl⟩)⟩
    constructor
    · rintro ⟨legacy', o', hwrite', hread', hagrees⟩ b hb
      rw [hwrite] at hwrite'
      cases hwrite'
      rw [hread] at hread'
      cases hread'
      have hrel := hagrees.mappings b.serial
      rw [(hmapping b hb).1, (hmapping b hb).2, Option.rel_some_some] at hrel
      exact (sameMapping_decoded hrepr (hinfo b hb)).mp hrel
    · intro hcarried
      refine ⟨legacy, _, hwrite, hread, hfields.1, hfields.2, ⟨bdms', rfl⟩, fun serial => ?_⟩
      cases hfind : o.mapping serial with
      | some b =>
        have hb : b ∈ o.bdms.getD [] := List.mem_of_find?_eq_some hfind
        have hserial : b.serial = serial :=
          beq_iff_eq.mp (List.find?_some (p := fun b : BDMInfo => b.serial == serial) hfind)
        rw [← hserial, (hmapping b hb).2]
        exact .some ((sameMapping_decoded hrepr (hinfo b hb)).mpr (hcarried b hb))
      | none =>
        have hnone : (⟨attrs, some bdms'⟩ : LiveMigrateData α μ).mapping serial = none := by
          refine List.find?_eq_none.mpr (fun b' hb' heq => ?_)
          obtain ⟨b, hb, rfl⟩ := (hmem b').mp hb'
          exact List.find?_eq_none.mp hfind b hb heq
        rw [hnone]
        exact .none
  · -- some connection is no JSON: writing raises, and the mapping is not `Carried`
    refine iff_of_false ?_ (fun hcarried => hjson (fun b hb => ?_))
    · rintro ⟨legacy, o', hwrite, -⟩
      exact hjson (info_of_toLegacyDict h hwrite)
    · obtain ⟨j, hj⟩ := (hcarried b hb).info
      unfold BDMInfo.connectionInfo
      rw [hj]
      exact ⟨j, rfl⟩

/-! ## A volume with a format -/

/-- Addresses by their texts. -/
def textAddresses : Externals String Unit where
  ipAddress := some
  str := fun a => a
  truth := fun a => a != "0.0.0.0"
  coerceOther := fun _ _ => .error (.of .valueError "")
  dumpsOther := fun _ => .error (.of .typeError "")

theorem reprReadsBack_id : ReprReadsBack (fun text => text) :=
  ⟨fun _ h => .inr (.inr ⟨h, rfl⟩)⟩

def rawVolume : BDMInfo :=
  ⟨"1d0f", "virtio", "vda", "disk", some (some "raw"), none, "null"⟩

def volumeOnly (b : BDMInfo) : LiveMigrateData String Unit := ⟨[], some [b]⟩

/-- The format of the volume does not come back. -/
theorem format_lost :
    WellFormed (volumeOnly rawVolume) ∧
    ¬ RoundTrips textAddresses (fun text => text) (fun keys => keys) (volumeOnly rawVolume) := by
  refine ⟨⟨fun k v hk => (nomatch hk), List.nodup_singleton _⟩, ?_⟩
  rintro ⟨legacy, o', hwrite, hread, hagrees⟩
  cases hwrite
  cases hread
  have hrel := hagrees.mappings "1d0f"
  have hback : Option.Rel (SameMapping (fun text => text)) (some rawVolume)
    (some (decoded rawVolume .null)) := hrel
  rw [Option.rel_some_some] at hback
  cases hback.format "raw" (by decide) rfl

/-- An object with an address, and a volume without a format. -/
def sharedData : LiveMigrateData String Unit where
  attrs := [("is_shared_block_storage", .bool true), ("disk_available_mb", .none),
    ("graphics_listen_addr_vnc", .address "0.0.0.0")]
  bdms := some [⟨"1d0f", "virtio", "vda", "disk", some (some ""), none, "null"⟩]

theorem sharedData_roundTrips :
    RoundTrips textAddresses (fun text => text) (fun keys => keys) sharedData := by
  refine (roundTrips_iff reprReadsBack_id (fun _ => rfl) (fun _ => List.Perm.refl _)
    ⟨fun k v hk => ?_, ?_⟩).mpr ?_
  · have hmem := Dict.mem_of_lookup hk
    simp only [sharedData, List.mem_cons, Prod.mk.injEq, List.not_mem_nil, or_false] at hmem
    rcases hmem with ⟨rfl, rfl⟩ | ⟨rfl, rfl⟩ | ⟨rfl, rfl⟩
    · exact ⟨by decide, _, rfl, rfl⟩
    · exact ⟨by decide, _, rfl, rfl⟩
    · exact ⟨by decide, _, rfl, rfl⟩
  · exact List.nodup_singleton "1d0f"
  · intro b hb
    rw [List.mem_singleton.mp hb]
    exact ⟨⟨.null, rfl⟩, fun format h => by cases h; rfl, fun n h => by cases h⟩

end PolarBear.LiveMigration
