import PolarBear.Lib.Fallible
import PolarBear.Py.Builtins

/-!
# Which services are alive

`FpingController.index` asks the `fping` tool for the hosts of all services and gives one
entry for each service that has a binary. The entries are right (`index_ok`), but their flags
are not: the host of an entry is one text, and `set(ips)` of it is the set of its characters.
So a service counts as alive where one of these characters stands first in a line that
contains the word, and `listing_iff` says what that means for the whole listing.

The output of the tool is a parameter, and so is the order of a dictionary.
-/

namespace PolarBear.Api

open PolarBear.Py

/-- A service of the list, by the columns that are shown. -/
structure ListedService where
  id : Nat
  host : Option String
  binary : Option String
  deriving DecidableEq, Repr

/-- An entry of the answer. -/
structure FpingEntry where
  service : String
  ip : String
  alive : Bool
  deriving DecidableEq, Repr

/-! ## The answer -/

/-- `line.split(" ", 1)[0]`. -/
def firstWord (line : String) : String :=
  String.ofList (line.toList.takeWhile (fun c => c != ' '))

/-- `FpingController.fping`: the addresses it takes from the output. -/
def fping (output : String) : List String :=
  ((split '\n' output).filter (fun line => isInText "alive" line)).map firstWord

/-- `str(v)` of a nullable text. -/
def strOf : Option String → Except PyError String
  | none => .ok "None"
  | some s => if isAscii s then .ok s else .error .encode

/-- `str(str(service.id) + " : ") + str(service.binary)`. -/
def serviceBinary (id : Nat) (binary : String) : String := toString id ++ " : " ++ binary

/-- What the loop over the services gathers. -/
structure Gathered where
  instanceIps : List (String × String)
  ipList : List String

/-- One round of the loop. -/
def gather (g : Gathered) (service : ListedService) : Except PyError Gathered :=
  match service.binary with
  | none => .ok g
  | some binary => do
    let ips ← strOf service.host
    let binary ← strOf (some binary)
    .ok ⟨Dict.set (serviceBinary service.id binary) ips g.instanceIps, g.ipList ++ [ips]⟩

/-- `bool(set(ips) & alive_ips)`: a text is iterated by its characters. -/
def anyAlive (ips : String) (aliveIps : List String) : Bool :=
  ips.toList.any (fun c => aliveIps.contains (String.singleton c))

/-- `FpingController.index`, where the tool is there and `execute` is what it prints. -/
def fpingIndex (order : List (String × String) → List (String × String))
    (execute : List String → String) (services : List ListedService) :
    Except PyError (List FpingEntry) := do
  let g ← services.foldlM gather ⟨[], []⟩
  let aliveIps := fping (execute g.ipList)
  .ok ((order g.instanceIps).map (fun kv => ⟨kv.1, kv.2, anyAlive kv.2 aliveIps⟩))

/-! ## What it should be -/

def hostText (host : Option String) : String := host.getD "None"

/-- The hosts that the tool is asked for. -/
def askedHosts (services : List ListedService) : List String :=
  services.filterMap (fun s => s.binary.map (fun _ => hostText s.host))

/-- The entry of a service with a binary. -/
def entryOf (lines : List String) (s : ListedService) : Option FpingEntry :=
  s.binary.map (fun binary => ⟨serviceBinary s.id binary, hostText s.host,
    lines.contains (hostText s.host ++ " is alive")⟩)

/-- One entry for each service, alive if its line is there. -/
def ListsExactly (order : List (String × String) → List (String × String))
    (execute : List String → String) (services : List ListedService) : Prop :=
  ∃ res, fpingIndex order execute services = .ok res ∧
    res.Perm (services.filterMap (entryOf (split '\n' (execute (askedHosts services)))))

/-- The texts of a service with a binary are ASCII. -/
def Printable (s : ListedService) : Prop :=
  ∀ binary, s.binary = some binary →
    isAscii binary = true ∧ ∀ host, s.host = some host → isAscii host = true

/-- A character of the host stands alone before a line that contains the word. -/
def Heard (lines : List String) (host : String) : Prop :=
  ∃ c ∈ host.toList, ∃ line ∈ lines,
    isInText "alive" line = true ∧ firstWord line = String.singleton c

def idAndBinary (s : ListedService) : Option (Nat × String) :=
  s.binary.map (fun binary => (s.id, binary))

/-- The services print, differ in their id or binary, and a character of the host is heard
exactly for the hosts whose line is there. -/
structure HeardRight (services : List ListedService) (lines : List String) : Prop where
  printable : ∀ s ∈ services, Printable s
  distinct : (services.filterMap idAndBinary).Nodup
  flags : ∀ s ∈ services, s.binary ≠ none →
    (Heard lines (hostText s.host) ↔ hostText s.host ++ " is alive" ∈ lines)

/-! ## Keys -/

theorem not_space_of_mem_toString {id : Nat} {c : Char} (h : c ∈ (toString id).toList) :
    (c != ' ') = true := by
  rw [Nat.toString_eq_ofList_toDigits, String.toList_ofList] at h
  have hdigit := Nat.isDigit_of_mem_toDigits (by decide) (by decide) h
  refine bne_iff_ne.mpr (fun heq => ?_)
  rw [heq] at hdigit
  exact absurd hdigit (by decide)

theorem toString_injective {m n : Nat} (h : toString m = toString n) : m = n := by
  rw [Nat.toString_eq_ofList_toDigits, Nat.toString_eq_ofList_toDigits] at h
  have hdigits : Nat.toDigits 10 m = Nat.toDigits 10 n := String.ofList_injective h
  calc
    m = Nat.ofDigitChars 10 (Nat.toDigits 10 m) 0 := Nat.ofDigitChars_ten_toDigits.symm
    _ = Nat.ofDigitChars 10 (Nat.toDigits 10 n) 0 := by rw [hdigits]
    _ = n := Nat.ofDigitChars_ten_toDigits

/-- The id stands before the first blank. -/
theorem takeWhile_serviceBinary (id : Nat) (binary : String) :
    (serviceBinary id binary).toList.takeWhile (fun c => c != ' ') = (toString id).toList := by
  have hall : ∀ c ∈ (toString id).toList, (c != ' ') = true :=
    fun c hc => not_space_of_mem_toString hc
  unfold serviceBinary
  rw [String.toList_append, String.toList_append, List.append_assoc,
    List.takeWhile_append_of_pos hall]
  exact List.append_nil _

/-- The key of an entry says which id and binary it is for. -/
theorem serviceBinary_injective {id id' : Nat} {binary binary' : String}
    (h : serviceBinary id binary = serviceBinary id' binary') : id = id' ∧ binary = binary' := by
  -- a number has no blank in it, so the id ends at the first one
  have hid : toString id = toString id' := by
    have htake := congrArg (fun s : String => s.toList.takeWhile (fun c => c != ' ')) h
    rw [takeWhile_serviceBinary, takeWhile_serviceBinary] at htake
    exact String.toList_inj.mp htake
  refine ⟨toString_injective hid, ?_⟩
  unfold serviceBinary at h
  rw [hid] at h
  have hlist := congrArg String.toList h
  simp only [String.toList_append] at hlist
  exact String.toList_inj.mp (List.append_cancel_left hlist)

/-! ## The loop -/

variable {order : List (String × String) → List (String × String)}
  {execute : List String → String} {services : List ListedService} {lines : List String}

/-- What a service with a binary adds. -/
def pairOf (s : ListedService) : Option (String × String) :=
  s.binary.map (fun binary => (serviceBinary s.id binary, hostText s.host))

theorem strOf_host {s : ListedService} (h : ∀ host, s.host = some host → isAscii host = true) :
    strOf s.host = .ok (hostText s.host) := by
  cases hhost : s.host with
  | none => rfl
  | some host => exact if_pos (h host hhost)

/-- A service that prints adds its pair and its host. -/
theorem gather_ok {s : ListedService} (h : Printable s) (g : Gathered) :
    gather g s = .ok ⟨Dict.update g.instanceIps (pairOf s).toList,
      g.ipList ++ ((pairOf s).map Prod.snd).toList⟩ := by
  unfold gather pairOf
  cases hbinary : s.binary with
  | none =>
    show Except.ok g = Except.ok ⟨g.instanceIps, g.ipList ++ []⟩
    rw [List.append_nil]
  | some binary =>
    obtain ⟨hascii, hhost⟩ := h binary hbinary
    have hbin : strOf (some binary) = .ok binary := if_pos hascii
    dsimp only
    rw [strOf_host hhost, hbin]
    rfl

theorem ascii_of_strOf {s text : String} (h : strOf (some s) = .ok text) : isAscii s = true := by
  by_contra hnot
  have herror : strOf (some s) = .error .encode := if_neg hnot
  rw [herror] at h
  cases h

/-- A service that does not print stops the loop. -/
theorem printable_of_gather {s : ListedService} {g g' : Gathered} (h : gather g s = .ok g') :
    Printable s := by
  intro binary hbinary
  unfold gather at h
  rw [hbinary] at h
  obtain ⟨ips, hips, h⟩ := Fallible.bind_ok_iff.mp h
  obtain ⟨text, htext, -⟩ := Fallible.bind_ok_iff.mp h
  refine ⟨ascii_of_strOf htext, fun host hhost => ?_⟩
  rw [hhost] at hips
  exact ascii_of_strOf hips

/-- **The loop** gathers the pairs and the hosts. -/
theorem gather_all : ∀ {services : List ListedService}, (∀ s ∈ services, Printable s) →
    ∀ g : Gathered, services.foldlM gather g =
      .ok ⟨Dict.update g.instanceIps (services.filterMap pairOf),
        g.ipList ++ askedHosts services⟩
  | [], _, g => by
    show Except.ok g = Except.ok ⟨g.instanceIps, g.ipList ++ []⟩
    rw [List.append_nil]
  | s :: services, h, g => by
    rw [List.foldlM_cons, gather_ok (h s List.mem_cons_self)]
    have hpairs : (s :: services).filterMap pairOf =
        (pairOf s).toList ++ services.filterMap pairOf := by
      rw [List.filterMap_cons]
      cases pairOf s <;> rfl
    have hhosts : askedHosts (s :: services) =
        ((pairOf s).map Prod.snd).toList ++ askedHosts services := by
      unfold askedHosts pairOf
      rw [List.filterMap_cons]
      cases s.binary <;> rfl
    rw [hpairs, hhosts, ← List.append_assoc]
    refine (gather_all (fun s' hs' => h s' (List.mem_cons_of_mem _ hs')) _).trans ?_
    unfold Dict.update
    rw [List.foldl_append]

/-- The answer, where every service prints. -/
theorem fpingIndex_ok (h : ∀ s ∈ services, Printable s) :
    fpingIndex order execute services =
      .ok ((order (Dict.update [] (services.filterMap pairOf))).map (fun kv =>
        ⟨kv.1, kv.2, anyAlive kv.2 (fping (execute (askedHosts services)))⟩)) := by
  unfold fpingIndex
  rw [gather_all h]
  rfl

theorem printable_of_index {res : List FpingEntry}
    (h : fpingIndex order execute services = .ok res) :
    ∀ s ∈ services, Printable s := by
  intro s hs
  obtain ⟨g, hg, -⟩ := Fallible.bind_ok_iff.mp h
  obtain ⟨g₁, g₂, hround⟩ := Fallible.foldlM_mem_ok hg s hs
  exact printable_of_gather hround

/-! ## The flags -/

/-- **The flag of a host** is whether one of its characters is heard. -/
theorem anyAlive_iff (ips output : String) :
    anyAlive ips (fping output) = true ↔ Heard (split '\n' output) ips := by
  unfold anyAlive Heard fping
  rw [List.any_eq_true]
  refine exists_congr (fun c => and_congr_right (fun _ => ?_))
  rw [List.contains_iff_mem, List.mem_map]
  refine exists_congr (fun line => ?_)
  rw [List.mem_filter, and_assoc]

/-- A host of which no character is a word of its own is never alive. -/
theorem not_heard {ips : String}
    (h : ∀ line ∈ lines, isInText "alive" line = true → (firstWord line).length ≠ 1) :
    ¬ Heard lines ips := by
  rintro ⟨c, -, line, hline, halive, hword⟩
  refine h line hline halive ?_
  rw [hword]
  exact String.length_singleton

/-! ## The listing -/

theorem keys_pairs (services : List ListedService) :
    Dict.keys (services.filterMap pairOf) =
      (services.filterMap idAndBinary).map (fun p => serviceBinary p.1 p.2) := by
  unfold Dict.keys pairOf idAndBinary
  rw [List.map_filterMap, List.map_filterMap]
  simp only [Option.map_map]
  rfl

/-- The keys differ exactly if the services do. -/
theorem nodup_pairs_iff :
    (Dict.keys (services.filterMap pairOf)).Nodup ↔ (services.filterMap idAndBinary).Nodup := by
  have hinj : Function.Injective (fun p : Nat × String => serviceBinary p.1 p.2) := by
    intro p p' h
    obtain ⟨hid, hbinary⟩ := serviceBinary_injective h
    exact Prod.ext hid hbinary
  rw [keys_pairs]
  exact List.nodup_map_iff hinj

/-- The flag that is computed for a service is the one it should have. -/
theorem anyAlive_eq_iff (ips output : String) :
    anyAlive ips (fping output) = (split '\n' output).contains (ips ++ " is alive") ↔
      (Heard (split '\n' output) ips ↔ ips ++ " is alive" ∈ split '\n' output) := by
  rw [Bool.eq_iff_iff, anyAlive_iff, List.contains_iff_mem]

/-- **Main result.** Whatever the tool prints, and in whatever order the dictionary gives its
entries: the listing is exact exactly if the services print, no two have the same id and
binary, and a character of a host is heard exactly where the line of the host is there. -/
theorem listing_iff (horder : ∀ d, (order d).Perm d) :
    ListsExactly order execute services ↔
      HeardRight services (split '\n' (execute (askedHosts services))) := by
  let output := execute (askedHosts services)
  let entry : String × String → FpingEntry :=
    fun kv => ⟨kv.1, kv.2, anyAlive kv.2 (fping output)⟩
  constructor
  · rintro ⟨res, hres, hperm⟩
    have hprint := printable_of_index hres
    rw [fpingIndex_ok hprint] at hres
    cases hres
    refine ⟨hprint, ?_, fun s hs hbinary => ?_⟩
    · -- a dictionary has distinct keys, and they are the labels of all services
      have hkeys : (Dict.keys (order (Dict.update [] (services.filterMap pairOf)))).Nodup :=
        ((horder _).map Prod.fst).nodup_iff.mpr (Dict.nodup_keys_update List.nodup_nil)
      have hlabels := hperm.map FpingEntry.service
      rw [List.map_map, List.map_filterMap] at hlabels
      have hexpected : services.filterMap (fun s =>
          (entryOf (split '\n' output) s).map FpingEntry.service) =
          Dict.keys (services.filterMap pairOf) := by
        unfold Dict.keys entryOf pairOf
        rw [List.map_filterMap]
        simp only [Option.map_map]
        rfl
      rw [hexpected] at hlabels
      exact nodup_pairs_iff.mp (hlabels.nodup_iff.mp hkeys)
    · -- the entry with the label of the service has the flag that was computed
      obtain ⟨binary, hb⟩ := Option.ne_none_iff_exists'.mp hbinary
      have hentry : entryOf (split '\n' output) s = some ⟨serviceBinary s.id binary,
          hostText s.host, (split '\n' output).contains (hostText s.host ++ " is alive")⟩ := by
        unfold entryOf
        rw [hb]
        rfl
      have hmem := hperm.mem_iff.mpr (List.mem_filterMap.mpr ⟨s, hs, hentry⟩)
      obtain ⟨⟨key, ips⟩, -, heq⟩ := List.mem_map.mp hmem
      obtain ⟨-, rfl, hflag⟩ := FpingEntry.mk.inj heq
      exact (anyAlive_eq_iff _ _).mp hflag
  · intro h
    have hpairs : Dict.update [] (services.filterMap pairOf) = services.filterMap pairOf :=
      Dict.update_nil (nodup_pairs_iff.mpr h.distinct)
    have hflags : services.filterMap (fun s => (pairOf s).map entry) =
        services.filterMap (entryOf (split '\n' output)) := by
      refine List.filterMap_congr (fun s hs => ?_)
      unfold pairOf entryOf
      cases hbinary : s.binary with
      | none => rfl
      | some binary =>
        have hflag := (anyAlive_eq_iff _ _).mpr
          (h.flags s hs (by rw [hbinary]; exact Option.some_ne_none binary))
        exact congrArg (fun alive => some
          (⟨serviceBinary s.id binary, hostText s.host, alive⟩ : FpingEntry)) hflag
    refine ⟨_, fpingIndex_ok h.printable, ?_⟩
    rw [hpairs, ← hflags, ← List.map_filterMap]
    exact (horder _).map entry

/-! ## A host that answers -/

def nodeService : ListedService := ⟨1, some "node1", some "nova-compute"⟩

/-- One host, and what the tool prints where it answers. -/
theorem node_not_alive :
    ¬ ListsExactly (fun d => d) (fun _ => "node1 is alive\n") [nodeService] := by
  rintro ⟨res, hres, hperm⟩
  cases hres
  have hmem := hperm.mem_iff.mpr (List.mem_singleton_self _)
  exact absurd hmem (by decide)

/-- Where it does not answer, the listing is exact. -/
theorem node_unreachable :
    ListsExactly (fun d => d) (fun _ => "node1 is unreachable\n") [nodeService] := by
  refine (listing_iff (fun d => List.Perm.refl d)).mpr ⟨?_, by decide, fun s hs _ => ?_⟩
  · intro s hs binary hbinary
    rw [List.mem_singleton.mp hs] at hbinary ⊢
    cases hbinary
    exact ⟨by decide, fun host hhost => by cases hhost; decide⟩
  · rw [List.mem_singleton.mp hs]
    exact iff_of_false (not_heard (by decide)) (by decide)

end PolarBear.Api
