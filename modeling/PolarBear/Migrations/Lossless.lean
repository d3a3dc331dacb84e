import PolarBear.Flavors.Lossless
import PolarBear.Aggregates.Lossless

/-!
# Online migration of flavors and aggregates

Both migrations copy an entity to the API database and then delete the original,
in transactions of their own. They lose nothing as long as no crash falls between
the two. One that does leaves an entity in both databases for good: the collision
with its own copy is logged as an error and the original stays, blocks its place
in every later batch, and for an aggregate the copy stays without its hosts. The
migration of key pairs, in the same place, goes on to delete the original.
-/

namespace PolarBear.Migrations

open Transactions Db

/-- **Main result.** The migrations are lossless in every run whose crashes all fall outside
the copying of an entity: if at the start no live entity of the main database shares an
identifier with another one or with a row of the API database, and none has a null in a
column that the API model fills in, then, when a call completes that found nothing or
migrated nothing, every entity that was live at the start is in the API database, once and
with its attributes, and not live in the main one. -/
theorem online_migration_lossless {ctxt : Context} (hadmin : ctxt.isAdmin = true)
    (hhide : ctxt.readDeleted = "no") {f f' : Flavors.Databases} {a a' : Aggregates.Databases}
    (hflavors : Flavors.Clean f) (hstamped : ∀ r ∈ f.liveRows, r.stamped = true)
    (haggregates : Aggregates.Clean a) (hcreated : ∀ r ∈ a.liveRows, r.createdAt.isSome)
    (hrun : Finished Flavors.outsideWindow (Flavors.migration ctxt) Prod.fst f f')
    (hrun' : Finished Aggregates.outsideWindow (Aggregates.migrateAggregates ctxt) id a a') :
    (∀ r ∈ f.liveRows, Flavors.Moved f' r) ∧ (∀ r ∈ a.liveRows, Aggregates.Moved a' r) :=
  ⟨Flavors.flavors_moved hadmin hhide hflavors hstamped hrun,
    Aggregates.aggregates_moved hhide haggregates hcreated hrun'⟩

/-! ## Two runs on one flavor and one aggregate -/

def sampleFlavor : Flavors.MainFlavorRow :=
  ⟨⟨3, "m1.tiny", 512, 1, some 1, none, "1", 0, some 1, none, some false, some false, some 7, none,
    [("hw:cpu", some "1")], ["blue"]⟩, 0, none, by decide⟩

def sampleFlavors : Flavors.Databases where
  api := ⟨[], List.nodup_nil, List.nodup_nil, List.nodup_nil⟩
  main := [sampleFlavor]

def sampleAggregate : Aggregates.MainAggregateRow :=
  ⟨⟨5, none, "rack", ["node1", "node2"], [("ssd", "true")], some 7, none, by decide⟩, 0, none,
    by decide⟩

def sampleAggregates : Aggregates.Databases where
  api := ⟨[], List.nodup_nil, List.nodup_nil⟩
  main := [sampleAggregate]

theorem clean_sampleFlavors : Flavors.Clean sampleFlavors :=
  ⟨by decide, by decide, by decide, fun _ _ ⟨_, ha, _⟩ => absurd ha List.not_mem_nil⟩

theorem clean_sampleAggregates : Aggregates.Clean sampleAggregates :=
  ⟨by decide, by decide, fun _ _ ⟨_, ha, _⟩ => absurd ha List.not_mem_nil⟩

/-- A call that does not crash moves both, and a second one finds nothing. -/
theorem online_migration_lossless_sample : ∃ f' a',
    Flavors.Moved f' sampleFlavor ∧ Aggregates.Moved a' sampleAggregate := by
  have hadmin : adminContext.isAdmin = true := rfl
  have hrun : ∃ f', Finished Flavors.outsideWindow (Flavors.migration adminContext) Prod.fst
      sampleFlavors f' :=
    ⟨_, [((1, false), .returned (1, 1))], _, (1, false), 0, 0, by decide,
      .cons (.ends (.tx 9 (.tx 9 (.tx 9 (.tx 9 (.tx 9 (.tx 9 (.tx 9 (.ret _ _)))))))) ) (.nil _),
      Nat.le_refl 1, .tx 9 (.ret _ _), .inl rfl⟩
  have hrun' : ∃ a', Finished Aggregates.outsideWindow
      (Aggregates.migrateAggregates adminContext) id sampleAggregates a' :=
    ⟨_, [(1, .returned (1, 1))], _, 1, 0, 0, by decide,
      .cons (.ends (.tx ⟨9, "u"⟩ (.tx ⟨9, "u"⟩ (.tx ⟨9, "u"⟩ (.tx ⟨9, "u"⟩ (.tx ⟨9, "u"⟩
        (.tx ⟨9, "u"⟩ (.tx ⟨9, "u"⟩ (.tx ⟨9, "u"⟩ (.tx ⟨9, "u"⟩ (.tx ⟨9, "u"⟩
        (.ret _ _)))))))))))) (.nil _),
      Nat.le_refl 1, .tx ⟨9, "u"⟩ (.ret _ _), .inl rfl⟩
  obtain ⟨f', hrun⟩ := hrun
  obtain ⟨a', hrun'⟩ := hrun'
  obtain ⟨hf, ha⟩ := online_migration_lossless hadmin rfl clean_sampleFlavors (by decide)
    clean_sampleAggregates (by decide) hrun hrun'
  exact ⟨f', a', hf _ (List.mem_singleton.mpr rfl), ha _ (List.mem_singleton.mpr rfl)⟩

/-- A crash between the copy and the deletion: the next call migrates nothing, the flavor
stays live in the main database, and the aggregate's copy has no hosts. -/
theorem online_migration_stuck :
    (Flavors.Clean sampleFlavors ∧ ∃ f',
      Finished (fun _ => True) (Flavors.migration adminContext) Prod.fst sampleFlavors f' ∧
        sampleFlavor ∈ sampleFlavors.liveRows ∧ ¬ Flavors.Moved f' sampleFlavor) ∧
    Aggregates.Clean sampleAggregates ∧ ∃ a',
      Finished (fun _ => True) (Aggregates.migrateAggregates adminContext) id sampleAggregates a' ∧
        sampleAggregate ∈ sampleAggregates.liveRows ∧
        (∀ b ∈ a'.api.rows, b.hosts = []) ∧ ¬ Aggregates.Moved a' sampleAggregate := by
  refine ⟨⟨clean_sampleFlavors, ?_⟩, clean_sampleAggregates, ?_⟩
  · -- six transactions, a crash, and a call whose copy collides with the first one
    refine ⟨_, ⟨[((1, false), .crashed)], _, (1, false), 1, 0, by decide,
      .cons (.ends (.tx 9 (.tx 9 (.tx 9 (.tx 9 (.tx 9 (.tx 9 (.crash trivial _ _ _)))))))) (.nil _),
      Nat.le_refl 1, .tx 9 (.tx 9 (.tx 9 (.tx 9 (.ret _ _)))), .inr rfl⟩,
      List.mem_singleton.mpr rfl, ?_⟩
    exact fun h => h.2 sampleFlavor (List.mem_singleton.mpr rfl) rfl
  · -- the crash falls before the first host is added
    refine ⟨_, ⟨[(1, .crashed)], _, 1, 1, 0, by decide,
      .cons (.ends (.tx ⟨9, "u"⟩ (.tx ⟨9, "u"⟩ (.tx ⟨9, "u"⟩ (.tx ⟨9, "u"⟩ (.tx ⟨9, "u"⟩
        (.tx ⟨9, "u"⟩ (.tx ⟨9, "u"⟩ (.crash trivial _ _ _))))))))) (.nil _),
      Nat.le_refl 1, .tx ⟨9, "u"⟩ (.tx ⟨9, "u"⟩ (.tx ⟨9, "u"⟩ (.ret _ _))), .inr rfl⟩,
      List.mem_singleton.mpr rfl, ?_, ?_⟩
    · intro b hb
      rw [List.mem_singleton.mp hb]
      rfl
    · exact fun h => h.2 (sampleAggregate.fill "u" 9) (List.mem_singleton.mpr rfl) rfl

end PolarBear.Migrations
