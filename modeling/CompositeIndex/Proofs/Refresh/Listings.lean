import CompositeIndex.Proofs.Refresh.Mirrors
import CompositeIndex.Store.Change

/-!
# Orders and repetitions of names

Neither the order nor the repetitions in which a store lists the entries of its tags, and a
configuration the constituents of its indexes, can be seen in what is discovered, asked or
reported. The sums are no exception: the values of the constituents are added in the order of
the normalized names.
-/

namespace CompositeIndex

/-! ## Lists of the same names -/

namespace Names

/-- The lists hold the same names. -/
def Same (first second : List String) : Prop :=
  ∀ name, name ∈ first ↔ name ∈ second

theorem Same.append
    {first second : List String}
    (same : Same first second)
    (more : List String) :
    Same (first ++ more) (second ++ more) := by
  intro name
  rw [List.mem_append, List.mem_append, same name]

/-- A missing list is like an empty one. -/
theorem Same.getD
    {first second : Option (List String)}
    (same : Option.Rel Same first second) :
    Same (first.getD []) (second.getD []) := by
  cases same with
  | none => exact fun _ => Iff.rfl
  | some same => exact same

end Names

/-! ## Stores -/

namespace MemoryStore

/-- The stores differ at most in the order and the repetitions of the entries of their tags. -/
structure Relists (first second : MemoryStore) : Prop where
  tags : ∀ tag : String, Option.Rel Names.Same first.tags[tag]? second.tags[tag]?
  series : first.series = second.series
  isUnavailable : first.isUnavailable = second.isUnavailable
  failing : first.failing = second.failing

namespace Relists

variable {first second : MemoryStore}

/-- Listings are the same once they are normalized. -/
theorem listing (relists : first.Relists second) (tag : Tag) :
    first.reader.listing tag = second.reader.listing tag := by
  simp only [Reader.listing, reader, entriesByTag, relists.isUnavailable]
  split
  · rfl
  · have sameNames := relists.tags tag.text
    generalize first.tags[tag.text]? = entries at sameNames ⊢
    generalize second.tags[tag.text]? = others at sameNames ⊢
    cases sameNames with
    | none => rfl
    | some same => exact congrArg Except.ok (Names.normalize_congr same)

theorem agrees (relists : first.Relists second) : first.reader.Agrees second.reader where
  listing := relists.listing
  lastValue := by
    intro query
    simp only [reader, lastValue, relists.isUnavailable, relists.failing, relists.series]

/-- An entry is added to a tag of both stores. -/
theorem setEntries
    (relists : first.Relists second)
    (tag : String)
    {firstEntries secondEntries : List String}
    (same : Names.Same firstEntries secondEntries) :
    Relists { first with tags := first.tags.insert tag firstEntries }
      { second with tags := second.tags.insert tag secondEntries } where
  tags := by
    intro other
    simp only [Std.ExtTreeMap.getElem?_insert]
    split
    · exact .some same
    · exact relists.tags other
  series := relists.series
  isUnavailable := relists.isUnavailable
  failing := relists.failing

theorem append
    (relists : first.Relists second)
    (entry column : String)
    (points : List Point) :
    (first.append entry column points).Relists (second.append entry column points) where
  tags := relists.tags
  series := by simp only [MemoryStore.append, relists.series]
  isUnavailable := relists.isUnavailable
  failing := relists.failing

/-- No change makes the stores differ in anything else. -/
theorem apply
    (relists : first.Relists second)
    (change : Change) :
    (first.apply change).Relists (second.apply change) := by
  cases change with
  | attach tag entry =>
      exact relists.setEntries tag ((Names.Same.getD (relists.tags tag)).append [entry])
  | createTag tag => exact relists.setEntries tag (Names.Same.getD (relists.tags tag))
  | createSeries entry => exact relists.append entry valueColumn []
  | record entry column timestamp value => exact relists.append entry column _
  | setUnavailable isUnavailable =>
      exact ⟨relists.tags, relists.series, rfl, relists.failing⟩
  | failEntry entry =>
      refine ⟨relists.tags, relists.series, relists.isUnavailable, ?_⟩
      simp only [MemoryStore.apply, MemoryStore.failEntry, relists.failing]

/-- Changes of the stores cannot tell them apart. -/
theorem respects : Refresh.Rehearsal.Backend.memory.Respects Relists where
  reader := agrees
  result := fun _ _ => rfl
  store := apply
  log := fun _ _ => rfl

/-- The same catalog is discovered, or the same error is met. -/
theorem result_discover (relists : first.Relists second) :
    (Catalog.discover first.reader).result = (Catalog.discover second.reader).result := by
  cases unavailable : second.isUnavailable with
  | true =>
      have alsoUnavailable := relists.isUnavailable.trans unavailable
      simp only [Catalog.discover, reader, entriesByTag, unavailable, alsoUnavailable]
      rfl
  | false =>
      refine Catalog.discover_result_congr relists.agrees fun tag error fails => ?_
      simp only [reader, entriesByTag, unavailable, Bool.false_eq_true, if_false] at fails
      split at fails
      · cases fails
      · cases fails
        exact ⟨_, rfl⟩

end Relists

end MemoryStore

/-! ## Configurations -/

namespace IndexConfig

/-- The configurations differ at most in the order and the repetitions of the constituents of
their indexes. -/
structure Relists (first second : IndexConfig) : Prop where
  constituents : ∀ index : String,
    Option.Rel Names.Same first.constituents[index]? second.constituents[index]?
  defaultDivisor : first.defaultDivisor = second.defaultDivisor
  divisors : first.divisors = second.divisors

namespace Relists

variable {first second : IndexConfig}

theorem constituentsFor
    (relists : first.Relists second)
    (index : String)
    (catalog : Catalog) :
    first.constituentsFor index catalog = second.constituentsFor index catalog := by
  refine (first.ascending_constituentsFor index catalog).ext
    (second.ascending_constituentsFor index catalog) fun name => ?_
  rw [mem_constituentsFor, mem_constituentsFor]
  have sameNames := relists.constituents index
  generalize first.constituents[index]? = listed at sameNames ⊢
  generalize second.constituents[index]? = others at sameNames ⊢
  cases sameNames with
  | none => exact Iff.rfl
  | some same => exact same name

/-- The same loop is built, or it is refused for the same reason. -/
theorem new_eq
    (relists : first.Relists second)
    (catalog : Catalog)
    (schedule : Refresh.Schedule) :
    Refresh.Loop.new catalog first schedule = Refresh.Loop.new catalog second schedule := by
  have sameDivisors : first.validDivisors = second.validDivisors := by
    rw [validDivisors, validDivisors, relists.defaultDivisor, relists.divisors]
  have samePlans : Refresh.Loop.plansOf first catalog = Refresh.Loop.plansOf second catalog := by
    simp only [Refresh.Loop.plansOf, relists.constituentsFor]
  rw [Refresh.Loop.new, Refresh.Loop.new, sameDivisors, samePlans]

end Relists

end IndexConfig

/-! ## Runs -/

namespace Refresh
namespace Loop

open Rehearsal (Backend World)

/-- Stores and configurations that differ in the order and the repetitions of names lead to the
same catalog, the same loop, and to runs that do the same: the same queries and the same reports
in the same order, with the same values. The outside may be any other than for the stores, which
may also be changed in the same way while the run goes on. -/
theorem run_eq_of_relists
    {first second : MemoryStore}
    (stores : first.Relists second)
    {config other : IndexConfig}
    (configs : config.Relists other) :
    (Catalog.discover first.reader).result = (Catalog.discover second.reader).result ∧
    ∀ catalog schedule,
      Loop.new catalog config schedule = Loop.new catalog other schedule ∧
      ∀ loop, Loop.new catalog config schedule = .ok loop →
        (∀ (σ : Type) (host : Host σ) (standing : Standing σ),
          loop.run (host.reading first.reader) standing =
            loop.run (host.reading second.reader) standing) ∧
        ∀ (script : Rehearsal.Script MemoryStore.Change) (phase : Phase)
          (world : World MemoryStore),
          let course := fun store =>
            loop.run (Rehearsal.host Backend.memory script) ⟨phase, { world with store }⟩
          (course first).result = (course second).result ∧
            (course first).trace = (course second).trace := by
  refine ⟨stores.result_discover, fun catalog schedule => ⟨configs.new_eq catalog schedule, ?_⟩⟩
  refine fun loop _ => ⟨?outside, ?rehearsal⟩
  case outside =>
    intro σ host standing
    exact (loop.alike_run (host.mirrors_reading stores.agrees) ⟨rfl, rfl⟩).eq
  case rehearsal =>
    intro script phase world course
    have mirrors := Rehearsal.mirrors_of_respects MemoryStore.Relists.respects script
    have beside : Standing.Alike (World.Beside MemoryStore.Relists)
        ⟨phase, { world with store := first }⟩ ⟨phase, { world with store := second }⟩ :=
      ⟨rfl, .replaced second stores⟩
    have alike := loop.alike_run mirrors beside
    exact ⟨alike.result, alike.trace⟩

/-- An index over two products that are listed, and configured, in different orders and with
repetitions. -/
theorem run_eq_of_relists_sample :
    let micro : Int := 1772452799000000
    let prices : MemoryStore :=
      (MemoryStore.empty.append "A" valueColumn [⟨micro, 1.5⟩]).append "B" valueColumn
        [⟨micro, 2.5⟩]
    let first : MemoryStore := { prices with
      tags := (prices.tags.insert "@indexes" ["I"]).insert "@products" ["B", "A"] }
    let second : MemoryStore := { prices with
      tags := (prices.tags.insert "@indexes" ["I", "I"]).insert "@products" ["A", "B", "A"] }
    let config : IndexConfig := { constituents := .ofList [("I", ["B", "A"])] }
    let other : IndexConfig := { constituents := .ofList [("I", ["A", "B", "B"])] }
    let catalog := Catalog.ofGroups [(Tag.indexes, ["I"]), (Tag.products, ["A", "B"])]
    let schedule : Schedule := { maxPasses := some 1 }
    let world : World MemoryStore :=
      { store := .empty, clock := .startingAt ⟨1772452800000000000, 0, by decide⟩ }
    let course := fun (loop : Loop) store =>
      loop.run (Rehearsal.host Backend.memory {}) ⟨.idle, { world with store }⟩
    (Catalog.discover first.reader).result = (Catalog.discover second.reader).result ∧
      ∃ loop, Loop.new catalog config schedule = .ok loop ∧
        Loop.new catalog other schedule = .ok loop ∧
        (course loop first).result = .ok { passes := 1, computed := 1 } ∧
        (course loop first).trace = (course loop second).trace := by
  intro micro prices first second config other catalog schedule world course
  have itself : prices.Relists prices := by
    refine ⟨fun tag => ?_, rfl, rfl, rfl⟩
    cases prices.tags[tag]? with
    | none => exact .none
    | some entries => exact .some fun _ => Iff.rfl
  have stores : first.Relists second :=
    (itself.setEntries "@indexes" (by simp [Names.Same])).setEntries "@products"
      (by grind [Names.Same])
  have configs : config.Relists other := by
    refine ⟨fun index => ?_, rfl, rfl⟩
    by_cases isIndex : "I" = index
    · subst isIndex
      exact .some (by grind [Names.Same])
    · simp [config, other, isIndex]
  obtain ⟨sameCatalog, rest⟩ := run_eq_of_relists stores configs
  obtain ⟨sameLoop, runs⟩ := rest catalog schedule
  have built : Loop.new catalog config schedule =
      .ok ⟨Aggregator.new Divisors.default catalog, plansOf config catalog, schedule⟩ := by
    rfl
  refine ⟨sameCatalog, _, built, sameLoop.symm.trans built, ?_,
    ((runs _ built).2 {} .idle world).2⟩
  -- without local definitions the run is evaluated
  dsimp only [course, world, first, prices, micro, schedule, catalog, config]
  rfl

end Loop
end Refresh
end CompositeIndex
