import PolarBear.Services.Service

/-!
# The minimum version cache

After `enable_min_version_cache` a process keeps the minimum of every binary it
has read, and asks the database again only when a list names a binary it has
not kept. A binary without a live service is never kept. While the table does
not change, the cache holds nothing but the table's own minima (`CacheSound`),
so no call can tell the difference (`cache_transparent`).

What a call returns is the least of the binaries' minima. The minimum of a binary
is SQL's: null versions count as `0` only where there is no other.
-/

namespace PolarBear.Services

open PolarBear.Py (startsWith)

/-- `enable_min_version_cache`. -/
def enableMinVersionCache (_ : VersionCache) : VersionCache := ⟨true, []⟩

/-- The calls of a process, one after the other, on a table that does not change. -/
def callAll (t : ServiceTable) :
    VersionCache → List (List String) → Except ServiceError (List Nat × VersionCache)
  | cache, [] => .ok ([], cache)
  | cache, binaries :: calls => do
    let (version, cache) ← getMinimumVersionMulti cache t binaries
    let (versions, cache) ← callAll t cache calls
    .ok (version :: versions, cache)

/-- The least minimum over the listed binaries that have a live service. -/
def ServiceTable.leastVersion (t : ServiceTable) (binaries : List String) : Nat :=
  ((binaries.filter (fun b => !(t.services b).isEmpty)).map t.minimum).min?.getD 0

/-- The least version of the live services of the listed binaries, a null as `0`. -/
def ServiceTable.leastWithNulls (t : ServiceTable) (binaries : List String) : Nat :=
  ((binaries.flatMap t.services).map (fun r => r.version.getD 0)).min?.getD 0

/-! ## What is read -/

/-- The least element depends on what is in the list only. -/
theorem min?_congr {l l' : List Nat} (h : ∀ n, n ∈ l ↔ n ∈ l') : l.min? = l'.min? := by
  cases hl' : l'.min? with
  | none =>
    rw [List.min?_eq_none_iff] at hl' ⊢
    rw [List.eq_nil_iff_forall_not_mem]
    intro n hn
    have hmem := (h n).mp hn
    rw [hl'] at hmem
    cases hmem
  | some m =>
    obtain ⟨hmem, hle⟩ := List.min?_eq_some_iff.mp hl'
    exact List.min?_eq_some_iff.mpr ⟨(h m).mpr hmem, fun n hn => hle n ((h n).mp hn)⟩

/-- The entries that the database gives, with null as `0`. -/
def readEntries (t : ServiceTable) (binaries : List String) : List (String × Nat) :=
  (serviceGetMinimumVersion t binaries).map (fun bv => (bv.1, bv.2.getD 0))

theorem mem_readEntries {t : ServiceTable} {binaries : List String} {b : String} {v : Nat} :
    (b, v) ∈ readEntries t binaries ↔ b ∈ binaries ∧ t.services b ≠ [] ∧ v = t.minimum b := by
  unfold readEntries serviceGetMinimumVersion
  rw [List.mem_map]
  constructor
  · rintro ⟨⟨b', v'⟩, hmem, heq⟩
    obtain ⟨b'', hb'', hentry⟩ := List.mem_filterMap.mp hmem
    split at hentry
    · cases hentry
    · next hne =>
      cases hentry
      cases heq
      exact ⟨List.mem_dedup.mp hb'', hne, rfl⟩
  · rintro ⟨hb, hne, rfl⟩
    exact ⟨(b, minVersion (t.services b)),
      List.mem_filterMap.mpr ⟨b, List.mem_dedup.mpr hb, if_neg hne⟩, rfl⟩

/-- What a read returns is the least minimum. -/
theorem min_readEntries (t : ServiceTable) (binaries : List String) :
    ((readEntries t binaries).map Prod.snd).min?.getD 0 = t.leastVersion binaries := by
  unfold ServiceTable.leastVersion
  congr 1
  refine min?_congr (fun n => ?_)
  simp only [List.mem_map, List.mem_filter]
  constructor
  · rintro ⟨⟨b, v⟩, hmem, rfl⟩
    obtain ⟨hb, hne, hv⟩ := mem_readEntries.mp hmem
    exact ⟨b, ⟨hb, by simpa using hne⟩, hv.symm⟩
  · rintro ⟨b, ⟨hb, hne⟩, rfl⟩
    exact ⟨(b, t.minimum b), mem_readEntries.mpr ⟨hb, by simpa using hne, rfl⟩, rfl⟩

/-! ## The cache -/

/-- An enabled cache that holds minima of the table. -/
structure CacheSound (t : ServiceTable) (cache : VersionCache) : Prop where
  caching : cache.caching = true
  entries : ∀ b v, cache.versions.lookup b = some v → t.services b ≠ [] ∧ v = t.minimum b

theorem cacheSound_enabled (t : ServiceTable) (cache : VersionCache) :
    CacheSound t (enableMinVersionCache cache) where
  caching := rfl
  entries := by
    intro b v h
    cases h

/-- What was read is kept beside what was there. -/
theorem cacheSound_read {t : ServiceTable} {cache : VersionCache} (h : CacheSound t cache)
    (binaries : List String) :
    CacheSound t { cache with versions := readEntries t binaries ++ cache.versions } where
  caching := h.caching
  entries := by
    intro b v hlookup
    have hsome : (List.lookup b (readEntries t binaries ++ cache.versions)) = some v := hlookup
    rw [List.lookup_append, Option.or_eq_some_iff] at hsome
    rcases hsome with hread | ⟨-, hkept⟩
    · obtain ⟨before, after, hsplit, -⟩ := List.lookup_eq_some_iff.mp hread
      have hmem : (b, v) ∈ readEntries t binaries := by
        rw [hsplit]
        exact List.mem_append_right _ (List.mem_cons_self ..)
      exact (mem_readEntries.mp hmem).2
    · exact h.entries b v hkept

/-- A call without caching reads the table. -/
theorem getMinimumVersionMulti_off {cache : VersionCache} (hcache : cache.caching = false)
    (t : ServiceTable) {binaries : List String}
    (hnova : ∀ b ∈ binaries, startsWith "nova-" b = true) :
    ∃ cache', getMinimumVersionMulti cache t binaries = .ok (t.leastVersion binaries, cache') := by
  obtain ⟨caching, versions⟩ := cache
  cases hcache
  have hall : binaries.all (startsWith "nova-") = true := List.all_eq_true.mpr hnova
  refine ⟨⟨false, readEntries t binaries ++ versions⟩, ?_⟩
  unfold getMinimumVersionMulti
  rw [hall, ← min_readEntries]
  rfl

/-- What the cache holds of a list it knows. -/
theorem cached_entries {t : ServiceTable} {cache : VersionCache} (h : CacheSound t cache)
    {binaries : List String} (hknown : ∀ b ∈ binaries, (cache.versions.lookup b).isSome = true) :
    binaries.filterMap (fun b => cache.versions.lookup b) =
      (binaries.filter (fun b => !(t.services b).isEmpty)).map t.minimum := by
  induction binaries with
  | nil => rfl
  | cons b binaries ih =>
    obtain ⟨v, hv⟩ := Option.isSome_iff_exists.mp (hknown b (List.mem_cons_self ..))
    obtain ⟨hne, hmin⟩ := h.entries b v hv
    rw [List.filterMap_cons_some (f := fun b => cache.versions.lookup b) hv,
      List.filter_cons_of_pos (by simpa using hne), List.map_cons,
      ih (fun b' hb' => hknown b' (List.mem_cons_of_mem _ hb')), hmin]

/-- **One call**: it returns the least minimum, and leaves a sound cache. -/
theorem getMinimumVersionMulti_cached {t : ServiceTable} {cache : VersionCache}
    (h : CacheSound t cache) {binaries : List String}
    (hnova : ∀ b ∈ binaries, startsWith "nova-" b = true) :
    ∃ cache', getMinimumVersionMulti cache t binaries = .ok (t.leastVersion binaries, cache') ∧
      CacheSound t cache' := by
  obtain ⟨caching, versions⟩ := cache
  obtain rfl : caching = true := h.caching
  have hall : binaries.all (startsWith "nova-") = true := List.all_eq_true.mpr hnova
  by_cases hmiss : binaries.any (fun b => (versions.lookup b).isNone) = true
  · refine ⟨_, ?_, cacheSound_read h binaries⟩
    unfold getMinimumVersionMulti
    rw [hall, hmiss, ← min_readEntries]
    rfl
  · refine ⟨⟨true, versions⟩, ?_, h⟩
    have hknown : ∀ b ∈ binaries, (versions.lookup b).isSome = true := by
      intro b hb
      by_contra hnone
      have hmissing := Option.not_isSome_iff_eq_none.mp hnone
      exact hmiss (List.any_eq_true.mpr ⟨b, hb, Option.isNone_iff_eq_none.mpr hmissing⟩)
    have hcached := cached_entries h hknown
    unfold getMinimumVersionMulti ServiceTable.leastVersion
    rw [hall, Bool.eq_false_iff.mpr hmiss, ← hcached]
    rfl

/-- The calls of a run, from any sound cache. -/
theorem callAll_cached {t : ServiceTable} {calls : List (List String)}
    (hnova : ∀ binaries ∈ calls, ∀ b ∈ binaries, startsWith "nova-" b = true) :
    ∀ {cache : VersionCache}, CacheSound t cache →
      ∃ cache', callAll t cache calls = .ok (calls.map t.leastVersion, cache') ∧
        CacheSound t cache' := by
  induction calls with
  | nil => exact fun {cache} h => ⟨cache, rfl, h⟩
  | cons binaries calls ih =>
    intro cache h
    obtain ⟨cache₁, hcall, hsound⟩ :=
      getMinimumVersionMulti_cached h (hnova binaries (List.mem_cons_self ..))
    obtain ⟨cache₂, hcalls, hsound'⟩ :=
      ih (fun bs hbs => hnova bs (List.mem_cons_of_mem _ hbs)) hsound
    refine ⟨cache₂, ?_, hsound'⟩
    unfold callAll
    rw [hcall]
    show (callAll t cache₁ calls >>= _) = _
    rw [hcalls]
    rfl

/-! ## Null versions -/

/-- The least element of a list of numbers, if it has any. -/
theorem min?_getD_eq {l : List Nat} {m : Nat} (hmem : m ∈ l) (hle : ∀ n ∈ l, m ≤ n) :
    l.min?.getD 0 = m := by
  rw [List.min?_eq_some_iff.mpr ⟨hmem, hle⟩, Option.getD_some]

theorem mem_versions {t : ServiceTable} {binaries : List String} {n : Nat} :
    n ∈ (binaries.flatMap t.services).map (fun r => r.version.getD 0) ↔
      ∃ b ∈ binaries, ∃ r ∈ t.services b, r.version.getD 0 = n := by
  simp only [List.mem_map, List.mem_flatMap]
  constructor
  · rintro ⟨r, ⟨b, hb, hr⟩, hn⟩
    exact ⟨b, hb, r, hr, hn⟩
  · rintro ⟨b, hb, r, hr, hn⟩
    exact ⟨r, ⟨b, hb, hr⟩, hn⟩

/-- Either no listed binary has a live service, or one of them has the least minimum. -/
theorem leastVersion_cases (t : ServiceTable) (binaries : List String) :
    (t.leastVersion binaries = 0 ∧ ∀ b ∈ binaries, t.services b = []) ∨
      ∃ b ∈ binaries, t.services b ≠ [] ∧ t.leastVersion binaries = t.minimum b ∧
        ∀ b' ∈ binaries, t.services b' ≠ [] → t.minimum b ≤ t.minimum b' := by
  unfold ServiceTable.leastVersion
  cases hmin : ((binaries.filter (fun b => !(t.services b).isEmpty)).map t.minimum).min? with
  | none =>
    rw [List.min?_eq_none_iff, List.map_eq_nil_iff, List.filter_eq_nil_iff] at hmin
    exact Or.inl ⟨rfl, fun b hb => by simpa using hmin b hb⟩
  | some m =>
    obtain ⟨hmem, hle⟩ := List.min?_eq_some_iff.mp hmin
    obtain ⟨b, hb, rfl⟩ := List.mem_map.mp hmem
    obtain ⟨hb, hne⟩ := List.mem_filter.mp hb
    refine Or.inr ⟨b, hb, by simpa using hne, rfl, fun b' hb' hne' => hle _ ?_⟩
    exact List.mem_map.mpr ⟨b', List.mem_filter.mpr ⟨hb', by simpa using hne'⟩, rfl⟩

/-- **Where a null is a `0`**: the least minimum is the least version with nulls as `0` exactly if
it is `0`, or no live service of the listed binaries has a null version. -/
theorem leastVersion_eq_iff (t : ServiceTable) (binaries : List String) :
    t.leastVersion binaries = t.leastWithNulls binaries ↔
      t.leastVersion binaries = 0 ∨
        ∀ b ∈ binaries, ∀ r ∈ t.services b, r.version ≠ none := by
  have hzero : ∀ b ∈ binaries, ∀ r ∈ t.services b, r.version.getD 0 = 0 →
      t.leastWithNulls binaries = 0 := by
    intro b hb r hr hv
    exact min?_getD_eq (mem_versions.mpr ⟨b, hb, r, hr, hv⟩) (fun n _ => Nat.zero_le n)
  constructor
  · intro heq
    by_cases hnull : ∃ b ∈ binaries, ∃ r ∈ t.services b, r.version = none
    · obtain ⟨b, hb, r, hr, hv⟩ := hnull
      left
      rw [heq]
      exact hzero b hb r hr (by rw [hv]; rfl)
    · exact Or.inr (fun b hb r hr hv => hnull ⟨b, hb, r, hr, hv⟩)
  · rcases leastVersion_cases t binaries with ⟨hnone, hempty⟩ | ⟨b, hb, hne, hleast, hle⟩
    · intro _
      have hrows : binaries.flatMap t.services = [] := List.flatMap_eq_nil_iff.mpr hempty
      unfold ServiceTable.leastWithNulls
      rw [hnone, hrows]
      rfl
    · rw [hleast]
      obtain ⟨r₀, hr₀⟩ := List.exists_mem_of_ne_nil _ hne
      have hattained := minimum_attained t b
      rintro (hmin | hnonull)
      · rw [hmin]
        rcases hattained with ⟨r, hr, hv⟩ | ⟨-, hall⟩
        · exact (hzero b hb r hr (by rw [hv, hmin]; rfl)).symm
        · exact (hzero b hb r₀ hr₀ (by rw [hall r₀ hr₀]; rfl)).symm
      · rcases hattained with ⟨r, hr, hv⟩ | ⟨-, hall⟩
        · refine (min?_getD_eq (mem_versions.mpr ⟨b, hb, r, hr, by rw [hv]; rfl⟩) ?_).symm
          intro n hn
          obtain ⟨b', hb', r', hr', hn⟩ := mem_versions.mp hn
          obtain ⟨v, hv'⟩ := Option.ne_none_iff_exists'.mp (hnonull b' hb' r' hr')
          have hle' := hle b' hb' (List.ne_nil_of_mem hr')
          have hmin := minimum_le hr' hv'
          rw [hv', Option.getD_some] at hn
          omega
        · exact absurd (hall r₀ hr₀) (hnonull b hb r₀ hr₀)

/-! ## Calls -/

/-- **The cache is transparent.** From `enable_min_version_cache` on, every call of every
sequence returns what it returns without caching: the least minimum over the listed binaries with
a live service. -/
theorem cache_transparent (t : ServiceTable) (calls : List (List String))
    (hnova : ∀ binaries ∈ calls, ∀ b ∈ binaries, startsWith "nova-" b = true)
    (before : VersionCache) :
    (∃ cache, callAll t (enableMinVersionCache before) calls =
      .ok (calls.map t.leastVersion, cache)) ∧
    (∀ binaries ∈ calls, ∀ off : VersionCache, off.caching = false →
      ∃ cache, getMinimumVersionMulti off t binaries = .ok (t.leastVersion binaries, cache)) ∧
    ∀ binaries ∈ calls, t.leastVersion binaries = t.leastWithNulls binaries ↔
      t.leastVersion binaries = 0 ∨
        ∀ b ∈ binaries, ∀ r ∈ t.services b, r.version ≠ none := by
  refine ⟨?_, fun binaries hbinaries off hoff => ?_, fun binaries _ => ?_⟩
  · obtain ⟨cache, hcalls, -⟩ := callAll_cached hnova (cacheSound_enabled t before)
    exact ⟨cache, hcalls⟩
  · exact getMinimumVersionMulti_off hoff t (hnova binaries hbinaries)
  · exact leastVersion_eq_iff t binaries

/-- Two `nova-compute` services, one without a version. -/
def mixedVersions : List ServiceRow :=
  [⟨1, some "lab1", some "nova-compute", some "compute", 0, false, none, none, false, none, 0⟩,
    ⟨2, some "lab2", some "nova-compute", some "compute", 0, false, none, none, false, some 5, 0⟩]

theorem mixedVersions_sound :
    mixedVersions.Pairwise (fun r s => compatible r s = true) := by decide

/-- A binary with services and one without, asked for twice. -/
theorem cache_transparent_twice :
    ∃ cache, callAll ⟨mixedVersions, mixedVersions_sound⟩ (enableMinVersionCache VersionCache.off)
      [["nova-compute", "nova-network"], ["nova-compute"]] = .ok ([5, 5], cache) := by
  obtain ⟨cache, h⟩ := (cache_transparent ⟨mixedVersions, mixedVersions_sound⟩
    [["nova-compute", "nova-network"], ["nova-compute"]] (by decide) VersionCache.off).1
  exact ⟨cache, h⟩

/-- The null version is not counted beside the other. -/
theorem null_not_counted :
    ¬ ∃ cache, callAll ⟨mixedVersions, mixedVersions_sound⟩
      (enableMinVersionCache VersionCache.off) [["nova-compute"]] =
        .ok ([["nova-compute"]].map
          (ServiceTable.leastWithNulls ⟨mixedVersions, mixedVersions_sound⟩), cache) := by
  rintro ⟨cache, h⟩
  cases h

end PolarBear.Services
