import CompositeIndex.Proofs.FirstFault
import CompositeIndex.Proofs.Store.Agreement

/-!
# Which tags a catalog resolves

Discovering a catalog looks up `@tags`, `@indexes`, `@products` and then the tags that the names
registered under `@tags` name, in this order. It fails at the first of them that cannot be
listed, where a registered tag that does not exist is no failure and `@tags` need not exist. If
there is no such obstacle, the catalog has the groups of `@indexes`, `@products` and of all
registered tags that exist, except for `@tags` itself.
-/

namespace CompositeIndex

namespace Reader

/-- The names registered under `@tags`. -/
inductive Registers (reader : Reader) : List String → Prop
  | listed
      {names : List String}
      (listing : reader.entriesByTag Tag.tags = .ok names) :
      Registers reader names
  /-- Without `@tags` no name is registered. -/
  | missing
      {tag : String}
      (listing : reader.entriesByTag Tag.tags = .error (.unknownTag tag)) :
      Registers reader []

/-- The tag cannot be listed, and not because there is no such tag. -/
structure Breaks (reader : Reader) (tag : Tag) (error : StoreError) : Prop where
  fails : reader.entriesByTag tag = .error error
  isOther : ∀ name, error ≠ .unknownTag name

theorem finds_iff (reader : Reader) (tag : Tag) :
    reader.Finds tag ↔ ∀ error, ¬reader.Breaks tag error := by
  constructor
  · rintro finds error ⟨fails, isOther⟩
    obtain ⟨name, isUnknown⟩ := finds error fails
    exact isOther name isUnknown
  · intro never error fails
    cases error with
    | unknownTag name => exact ⟨name, rfl⟩
    | _ => exact absurd ⟨fails, nofun⟩ (never _)

theorem finds_of_ok
    {reader : Reader}
    {tag : Tag}
    {entries : List String}
    (listing : reader.entriesByTag tag = .ok entries) :
    reader.Finds tag := by
  intro error fails
  rw [listing] at fails
  cases fails

/-- What has to hold of a store for its catalog to be discovered. -/
structure IsDiscoverable (reader : Reader) : Prop where
  /-- `@tags` is listed, or there is no such tag. -/
  tags : ∃ names, reader.Registers names
  indexes : ∃ entries, reader.entriesByTag Tag.indexes = .ok entries
  products : ∃ entries, reader.entriesByTag Tag.products = .ok entries
  /-- Every other tag that is registered is listed, or there is no such tag. -/
  registered : ∀ names, reader.Registers names → ∀ name ∈ names, ∀ tag,
    Tag.parse name = .ok tag → tag ∉ [Tag.tags, Tag.indexes, Tag.products] →
      ∀ error, ¬reader.Breaks tag error

/-- The first error that is met when a catalog is discovered. -/
inductive Obstructs (reader : Reader) : StoreError → Prop
  | tags
      {error : StoreError}
      (breaks : reader.Breaks Tag.tags error) :
      Obstructs reader error
  | indexes
      {names : List String} {error : StoreError}
      (registers : reader.Registers names)
      (fails : reader.entriesByTag Tag.indexes = .error error) :
      Obstructs reader error
  | products
      {names indexes : List String} {error : StoreError}
      (registers : reader.Registers names)
      (indexListing : reader.entriesByTag Tag.indexes = .ok indexes)
      (fails : reader.entriesByTag Tag.products = .error error) :
      Obstructs reader error
  /-- No name in front of this one is in the way. -/
  | registered
      {before after indexes products : List String} {name : String} {tag : Tag}
      {error : StoreError}
      (registers : reader.Registers (before ++ name :: after))
      (indexListing : reader.entriesByTag Tag.indexes = .ok indexes)
      (productListing : reader.entriesByTag Tag.products = .ok products)
      (goesThrough : ∀ earlier ∈ before, ∀ tag, Tag.parse earlier = .ok tag →
        ∀ error, ¬reader.Breaks tag error)
      (parsed : Tag.parse name = .ok tag)
      (breaks : reader.Breaks tag error) :
      Obstructs reader error

/-- The name names no tag, or one that does not exist. -/
def PassesOver (reader : Reader) (name : String) : Prop :=
  ∀ tag, Tag.parse name = .ok tag →
    ∃ missing, reader.entriesByTag tag = .error (.unknownTag missing)

/-- The store with these names registered under `@tags`. -/
def registering (reader : Reader) (names : List String) : Reader :=
  { reader with
    entriesByTag := fun tag =>
      if tag = Tag.tags then .ok names else reader.entriesByTag tag }

theorem entriesByTag_registering_of_ne
    (reader : Reader)
    (names : List String)
    {tag : Tag}
    (isOther : tag ≠ Tag.tags) :
    (reader.registering names).entriesByTag tag = reader.entriesByTag tag :=
  if_neg isOther

theorem registers_registering (reader : Reader) (names : List String) :
    (reader.registering names).Registers names :=
  .listed (by simp [registering])

section

variable {reader : Reader} {names : List String}

/-- If a name is registered, then `@tags` exists. -/
theorem Registers.entriesByTag_of_mem
    (registers : reader.Registers names)
    {name : String}
    (member : name ∈ names) :
    reader.entriesByTag Tag.tags = .ok names := by
  cases registers with
  | listed listing => exact listing
  | missing listing => cases member

theorem Registers.unique
    {others : List String}
    (isFirst : reader.Registers names)
    (isSecond : reader.Registers others) :
    names = others := by
  cases isFirst with
  | listed listing =>
      cases isSecond with
      | listed other => exact Except.ok.inj (listing.symm.trans other)
      | missing other => cases listing.symm.trans other
  | missing listing =>
      cases isSecond with
      | listed other => cases listing.symm.trans other
      | missing other => rfl

theorem exists_registers_or_breaks (reader : Reader) :
    (∃ names, reader.Registers names) ∨ ∃ error, reader.Breaks Tag.tags error := by
  cases listing : reader.entriesByTag Tag.tags with
  | ok names => exact .inl ⟨names, .listed listing⟩
  | error error =>
      cases error with
      | unknownTag name => exact .inl ⟨[], .missing listing⟩
      | _ => exact .inr ⟨_, listing, nofun⟩

/-- The registered tags are found if those are found that are not looked up in any case. -/
theorem IsDiscoverable.finds
    (discoverable : reader.IsDiscoverable)
    (registers : reader.Registers names)
    {name : String}
    (member : name ∈ names)
    {tag : Tag}
    (parsed : Tag.parse name = .ok tag) :
    reader.Finds tag := by
  by_cases own : tag ∈ [Tag.tags, Tag.indexes, Tag.products]
  · obtain ⟨indexes, indexListing⟩ := discoverable.indexes
    obtain ⟨products, productListing⟩ := discoverable.products
    simp only [List.mem_cons, List.not_mem_nil, or_false] at own
    rcases own with rfl | rfl | rfl
    · exact finds_of_ok (registers.entriesByTag_of_mem member)
    · exact finds_of_ok indexListing
    · exact finds_of_ok productListing
  · exact (reader.finds_iff tag).mpr
      (discoverable.registered names registers name member tag parsed own)

end

end Reader

namespace Catalog

/-! ## The two required groups -/

/-- The catalog of the two groups that every catalog has. -/
def required (indexes products : List String) : Catalog :=
  (empty.insert Tag.indexes indexes).insert Tag.products products

/-- A catalog has to have the tag, or the names name it. -/
def IsWanted (names : List String) (tag : Tag) : Prop :=
  tag = Tag.indexes ∨ tag = Tag.products ∨
    tag ≠ Tag.tags ∧ ∃ name ∈ names, Tag.parse name = .ok tag

/-- The groups of the catalog are those of the wanted tags that the store lists, with the same
names in ascending order. -/
def Resolves (catalog : Catalog) (reader : Reader) (names : List String) : Prop :=
  ∀ tag entries, catalog.groups[tag]? = some entries ↔
    IsWanted names tag ∧ ∃ listed, reader.entriesByTag tag = .ok listed ∧
      Names.Ascending entries ∧ ∀ name, name ∈ entries ↔ name ∈ listed

section

variable {reader : Reader} {names indexes products : List String}

/-- A group is the normal form of its listing. -/
theorem toOption_listing_eq_some_iff {tag : Tag} {entries : List String} :
    (reader.listing tag).toOption = some entries ↔
      ∃ listed, reader.entriesByTag tag = .ok listed ∧ Names.Ascending entries ∧
        ∀ name, name ∈ entries ↔ name ∈ listed := by
  unfold Reader.listing
  cases reader.entriesByTag tag with
  | error error => simp [Except.map, Except.toOption]
  | ok listed =>
      change some (Names.normalize listed) = some entries ↔ _
      constructor
      · rintro ⟨⟩
        exact ⟨listed, rfl, Names.ascending_normalize listed,
          fun name => Names.mem_normalize name listed⟩
      · rintro ⟨_, ⟨⟩, ascending, sameNames⟩
        refine congrArg some ((Names.ascending_normalize listed).ext ascending fun name => ?_)
        rw [Names.mem_normalize, sameNames]

theorem found_eq_some_iff {tag : Tag} {entries : List String} :
    found reader names tag = some entries ↔
      (tag ≠ Tag.tags ∧ ∃ name ∈ names, Tag.parse name = .ok tag) ∧
        (reader.listing tag).toOption = some entries := by
  unfold found
  rw [← mem_namedTags_iff]
  split
  · rename_i named
    exact ⟨fun found => ⟨named, found⟩, fun both => both.2⟩
  · rename_i notNamed
    exact ⟨nofun, fun both => absurd both.1 notNamed⟩

theorem found_eq_none_of_breaks
    {tag : Tag}
    {error : StoreError}
    (breaks : reader.Breaks tag error) :
    found reader names tag = none := by
  rw [Option.eq_none_iff_forall_ne_some]
  intro entries isFound
  obtain ⟨listed, listing, _⟩ :=
    toOption_listing_eq_some_iff.mp (found_eq_some_iff.mp isFound).2
  rw [breaks.fails] at listing
  cases listing

theorem getElem?_groups_required (tag : Tag) :
    (required indexes products).groups[tag]? =
      if Tag.products = tag then some (Names.normalize products)
      else if Tag.indexes = tag then some (Names.normalize indexes) else none := by
  rw [required, getElem?_groups_insert, getElem?_groups_insert]
  simp [empty]

theorem toOption_listing_of_ok
    {tag : Tag}
    {entries : List String}
    (listing : reader.entriesByTag tag = .ok entries) :
    (reader.listing tag).toOption = some (Names.normalize entries) := by
  rw [Reader.listing, listing]
  rfl

/-- The required groups with the groups that are found for the registered names. -/
theorem resolves_of_groups
    (indexListing : reader.entriesByTag Tag.indexes = .ok indexes)
    (productListing : reader.entriesByTag Tag.products = .ok products)
    {catalog : Catalog}
    (groups : ∀ tag, catalog.groups[tag]? =
      (required indexes products).groups[tag]?.or (found reader names tag)) :
    catalog.Resolves reader names := by
  intro tag entries
  rw [groups, getElem?_groups_required, ← toOption_listing_eq_some_iff]
  by_cases isProducts : Tag.products = tag
  · subst isProducts
    rw [if_pos rfl, Option.some_or, toOption_listing_of_ok productListing]
    exact ⟨fun same => ⟨.inr (.inl rfl), same⟩, fun both => both.2⟩
  · rw [if_neg isProducts]
    by_cases isIndexes : Tag.indexes = tag
    · subst isIndexes
      rw [if_pos rfl, Option.some_or, toOption_listing_of_ok indexListing]
      exact ⟨fun same => ⟨.inl rfl, same⟩, fun both => both.2⟩
    · rw [if_neg isIndexes, Option.none_or, found_eq_some_iff]
      refine and_congr_left fun _ => ⟨fun named => .inr (.inr named), ?_⟩
      rintro (rfl | rfl | named)
      · exact absurd rfl isIndexes
      · exact absurd rfl isProducts
      · exact named

/-- There is only one such catalog. -/
theorem Resolves.unique
    {first second : Catalog}
    (isFirst : first.Resolves reader names)
    (isSecond : second.Resolves reader names) :
    first = second := by
  apply Catalog.ext
  apply Std.ExtTreeMap.ext_getElem?
  intro tag
  apply Option.ext
  intro entries
  exact (isFirst tag entries).trans (isSecond tag entries).symm

/-! ## Looking up the registered names -/

/-- What a name leads to does not matter to a tag that cannot be listed. -/
theorem resolve_of_breaks
    {before : List String}
    (finds : ∀ earlier ∈ before, ∀ tag, Tag.parse earlier = .ok tag → reader.Finds tag)
    {name : String}
    {tag : Tag}
    (parsed : Tag.parse name = .ok tag)
    {error : StoreError}
    (breaks : reader.Breaks tag error)
    (notTags : tag ≠ Tag.tags)
    (after : List String)
    {catalog : Catalog}
    (noGroup : catalog.groups[tag]? = none) :
    (resolve reader (before ++ name :: after) catalog).result = .error (.ofStore error) := by
  induction before generalizing catalog with
  | nil =>
      have notHas : catalog.has tag = false := by
        rw [has, ← Std.ExtTreeMap.isSome_getElem?_eq_contains, noGroup]
        rfl
      have isOther := breaks.isOther
      cases error with
      | unknownTag missing => exact absurd rfl (isOther missing)
      | _ => simp [resolve, parsed, notTags, notHas, breaks.fails, Discovery.failed]
  | cons earlier before inductionHypothesis =>
      obtain ⟨findsFirst, findsOthers⟩ := List.forall_mem_cons.mp finds
      obtain ⟨next, sameResult, groups⟩ :=
        exists_resolve_cons findsFirst (before ++ name :: after) catalog
      have stillNone := groups tag
      rw [noGroup, found_eq_none_of_breaks breaks, found_eq_none_of_breaks breaks,
        Option.or_none, Option.or_none] at stillNone
      exact sameResult.trans (inductionHypothesis findsOthers stillNone)

/-- Either all registered tags are found, or one is the first that is not. -/
theorem forall_finds_or_exists_breaks (reader : Reader) (names : List String) :
    (∀ name ∈ names, ∀ tag, Tag.parse name = .ok tag → reader.Finds tag) ∨
    ∃ before name after tag error, names = before ++ name :: after ∧
      (∀ earlier ∈ before, ∀ tag, Tag.parse earlier = .ok tag → reader.Finds tag) ∧
      Tag.parse name = .ok tag ∧ reader.Breaks tag error := by
  rcases forall_or_exists_first (fun name => ∀ tag, Tag.parse name = .ok tag → reader.Finds tag)
    names with all | ⟨before, name, after, split, finds, notFinds⟩
  · exact .inl all
  · simp only [Reader.finds_iff, Classical.not_forall, Classical.not_not] at notFinds
    obtain ⟨tag, parsed, error, breaks⟩ := notFinds
    exact .inr ⟨before, name, after, tag, error, split, finds, parsed, breaks⟩

/-- A name that is passed over changes nothing. -/
theorem resolve_of_passesOver
    {name : String}
    (passed : reader.PassesOver name)
    (before after : List String)
    (catalog : Catalog) :
    (resolve reader (before ++ name :: after) catalog).result =
      (resolve reader (before ++ after) catalog).result := by
  induction before generalizing catalog with
  | nil =>
      cases parsed : Tag.parse name with
      | error cause => simp [resolve, parsed]
      | ok tag =>
          obtain ⟨missing, fails⟩ := passed tag parsed
          simp only [List.nil_append, resolve, parsed, fails]
          split <;> rfl
  | cons earlier before inductionHypothesis =>
      simp only [List.cons_append, resolve]
      cases Tag.parse earlier with
      | error cause => exact inductionHypothesis catalog
      | ok tag =>
          dsimp only
          split
          · exact inductionHypothesis catalog
          · cases reader.entriesByTag tag with
            | ok entries => exact inductionHypothesis _
            | error error =>
                cases error with
                | unknownTag missing => exact inductionHypothesis catalog
                | _ => rfl

/-- The listing of `@tags` is not looked at again. -/
theorem resolve_registering
    (reader : Reader)
    (registered names : List String)
    (catalog : Catalog) :
    resolve (reader.registering registered) names catalog = resolve reader names catalog := by
  induction names generalizing catalog with
  | nil => rfl
  | cons name names inductionHypothesis =>
      simp only [resolve, inductionHypothesis]
      cases Tag.parse name with
      | error cause => rfl
      | ok tag =>
          dsimp only
          split
          · rfl
          · rename_i skips
            have notTags : tag ≠ Tag.tags := by
              rintro rfl
              exact skips (by simp)
            rw [reader.entriesByTag_registering_of_ne registered notTags]

theorem resolveRequired_registering (reader : Reader) (registered names : List String) :
    resolveRequired (reader.registering registered) names = resolveRequired reader names := by
  have notTags : Tag.indexes ≠ Tag.tags ∧ Tag.products ≠ Tag.tags := by decide
  simp only [resolveRequired, resolve_registering,
    reader.entriesByTag_registering_of_ne registered notTags.1,
    reader.entriesByTag_registering_of_ne registered notTags.2]

theorem resolveRequired_of_passesOver
    {name : String}
    (passed : reader.PassesOver name)
    (before after : List String) :
    (resolveRequired reader (before ++ name :: after)).result =
      (resolveRequired reader (before ++ after)).result := by
  unfold resolveRequired
  cases reader.entriesByTag Tag.indexes with
  | error error => rfl
  | ok indexes =>
      cases reader.entriesByTag Tag.products with
      | error error => rfl
      | ok products => exact resolve_of_passesOver passed before after _

/-! ## Discovery -/

theorem result_discover_of_registers (registers : reader.Registers names) :
    (discover reader).result = (resolveRequired reader names).result := by
  cases registers with
  | listed listing => rw [discover, listing]
  | missing listing => rw [discover, listing, result_after]

theorem resolveRequired_of_ok
    (indexListing : reader.entriesByTag Tag.indexes = .ok indexes)
    (productListing : reader.entriesByTag Tag.products = .ok products)
    (names : List String) :
    resolveRequired reader names = resolve reader names (required indexes products) := by
  rw [resolveRequired, indexListing, productListing]
  rfl

theorem result_discover_of_ok
    (registers : reader.Registers names)
    (indexListing : reader.entriesByTag Tag.indexes = .ok indexes)
    (productListing : reader.entriesByTag Tag.products = .ok products) :
    (discover reader).result =
      (resolve reader names (required indexes products)).result := by
  rw [result_discover_of_registers registers, resolveRequired_of_ok indexListing productListing]

theorem exists_result_discover
    (discoverable : reader.IsDiscoverable)
    (registers : reader.Registers names) :
    ∃ catalog, (discover reader).result = .ok catalog ∧ catalog.Resolves reader names := by
  obtain ⟨indexes, indexListing⟩ := discoverable.indexes
  obtain ⟨products, productListing⟩ := discoverable.products
  have finds := fun name (member : name ∈ names) tag (parsed : Tag.parse name = .ok tag) =>
    discoverable.finds registers member parsed
  obtain ⟨catalog, succeeds, groups⟩ :=
    exists_resolve_eq_ok names finds (required indexes products)
  refine ⟨catalog, ?_, resolves_of_groups indexListing productListing groups⟩
  rw [result_discover_of_ok registers indexListing productListing, succeeds]

theorem result_discover_of_obstructs
    {error : StoreError}
    (obstructs : reader.Obstructs error) :
    (discover reader).result = .error (.ofStore error) := by
  cases obstructs with
  | tags breaks =>
      have isOther := breaks.isOther
      rw [discover, breaks.fails]
      cases error with
      | unknownTag missing => exact absurd rfl (isOther missing)
      | _ => rfl
  | indexes registers fails =>
      rw [result_discover_of_registers registers, resolveRequired, fails]
      rfl
  | products registers indexListing fails =>
      rw [result_discover_of_registers registers, resolveRequired, indexListing, fails]
      rfl
  | @registered _ after _ _ _ tag _ registers indexListing productListing goesThrough parsed
      breaks =>
      rw [result_discover_of_ok registers indexListing productListing]
      have tagsListing := registers.entriesByTag_of_mem (List.mem_append_right _ List.mem_cons_self)
      have unlisted : ∀ {other entries}, reader.entriesByTag other = .ok entries → tag ≠ other := by
        rintro other entries listing rfl
        rw [breaks.fails] at listing
        cases listing
      refine resolve_of_breaks ?_ parsed breaks (unlisted tagsListing) after ?_
      · intro earlier member other parsed
        exact (reader.finds_iff other).mpr (goesThrough earlier member other parsed)
      · rw [getElem?_groups_required, if_neg (unlisted productListing).symm,
          if_neg (unlisted indexListing).symm]

/-- Nothing but an obstacle keeps a catalog from being discovered. -/
theorem isDiscoverable_or_exists_obstructs (reader : Reader) :
    reader.IsDiscoverable ∨ ∃ error, reader.Obstructs error := by
  rcases reader.exists_registers_or_breaks with ⟨names, registers⟩ | ⟨error, breaks⟩
  · cases indexListing : reader.entriesByTag Tag.indexes with
    | error error => exact .inr ⟨error, .indexes registers indexListing⟩
    | ok indexes =>
        cases productListing : reader.entriesByTag Tag.products with
        | error error => exact .inr ⟨error, .products registers indexListing productListing⟩
        | ok products =>
            rcases forall_finds_or_exists_breaks reader names with
              all | ⟨before, name, after, tag, error, rfl, finds, parsed, breaks⟩
            · refine .inl ⟨⟨names, registers⟩, ⟨indexes, indexListing⟩,
                ⟨products, productListing⟩, ?_⟩
              intro others registersOthers name member tag parsed _
              rw [registersOthers.unique registers] at member
              exact (reader.finds_iff tag).mp (all name member tag parsed)
            · refine .inr ⟨error, .registered registers indexListing productListing ?_ parsed
                breaks⟩
              intro earlier member other parsed
              exact (reader.finds_iff other).mp (finds earlier member other parsed)
  · exact .inr ⟨error, .tags breaks⟩

/-- A catalog is discovered just from the stores that can be discovered, and then it resolves
exactly the right tags; otherwise the first obstacle is answered. Registered names that are
passed over change nothing. -/
theorem discover_resolves (reader : Reader) :
    ((∃ catalog, (discover reader).result = .ok catalog) ↔ reader.IsDiscoverable) ∧
    (∀ catalog, (discover reader).result = .ok catalog ↔
      reader.IsDiscoverable ∧ ∃ names, reader.Registers names ∧
        catalog.Resolves reader names) ∧
    (∀ failure, (discover reader).result = .error failure ↔
      ∃ error, reader.Obstructs error ∧ failure = .ofStore error) ∧
    (∀ before name after, reader.PassesOver name →
      (discover (reader.registering (before ++ name :: after))).result =
        (discover (reader.registering (before ++ after))).result) := by
  have succeeds : ∀ {catalog}, (discover reader).result = .ok catalog →
      reader.IsDiscoverable := by
    intro catalog discovered
    rcases isDiscoverable_or_exists_obstructs reader with discoverable | ⟨error, obstructs⟩
    · exact discoverable
    · rw [result_discover_of_obstructs obstructs] at discovered
      cases discovered
  refine ⟨?success, ?catalog, ?failure, ?skipped⟩
  case success =>
    constructor
    · rintro ⟨catalog, discovered⟩
      exact succeeds discovered
    · intro discoverable
      obtain ⟨names, registers⟩ := discoverable.tags
      obtain ⟨catalog, discovered, _⟩ := exists_result_discover discoverable registers
      exact ⟨catalog, discovered⟩
  case catalog =>
    intro catalog
    constructor
    · intro discovered
      have discoverable := succeeds discovered
      obtain ⟨names, registers⟩ := discoverable.tags
      obtain ⟨other, alsoDiscovered, resolves⟩ := exists_result_discover discoverable registers
      cases discovered.symm.trans alsoDiscovered
      exact ⟨discoverable, names, registers, resolves⟩
    · rintro ⟨discoverable, names, registers, resolves⟩
      obtain ⟨other, discovered, alsoResolves⟩ := exists_result_discover discoverable registers
      rw [discovered, resolves.unique alsoResolves]
  case failure =>
    intro failure
    constructor
    · intro fails
      rcases isDiscoverable_or_exists_obstructs reader with discoverable | ⟨error, obstructs⟩
      · obtain ⟨names, registers⟩ := discoverable.tags
        obtain ⟨catalog, discovered, _⟩ := exists_result_discover discoverable registers
        cases discovered.symm.trans fails
      · cases (result_discover_of_obstructs obstructs).symm.trans fails
        exact ⟨error, obstructs, rfl⟩
    · rintro ⟨error, obstructs, rfl⟩
      exact result_discover_of_obstructs obstructs
  case skipped =>
    intro before name after passed
    rw [result_discover_of_registers (reader.registers_registering _),
      result_discover_of_registers (reader.registers_registering _),
      resolveRequired_registering, resolveRequired_registering]
    exact resolveRequired_of_passesOver passed before after

/-- A store that lists a name of no tag and one of a tag that is gone. -/
theorem discover_resolves_sample :
    let reader : Reader :=
      { entriesByTag := fun tag =>
          if tag = Tag.tags then .ok ["plain", "@gone"]
          else if tag = Tag.indexes then .ok ["I"]
          else if tag = Tag.products then .ok ["B", "A", "B"]
          else .error (.unknownTag tag.text)
        lastValue := fun _ => .error (.unavailable "no values") }
    reader.IsDiscoverable ∧ reader.PassesOver "plain" ∧ reader.PassesOver "@gone" ∧
      (∃ catalog, (discover reader).result = .ok catalog ∧
        catalog.Resolves reader ["plain", "@gone"]) ∧
      (discover (reader.registering ["plain", "@gone"])).result =
        (discover (reader.registering [])).result := by
  intro reader
  have registers : reader.Registers ["plain", "@gone"] := .listed rfl
  have never : ∀ tag error, ¬reader.Breaks tag error := by
    rintro tag error ⟨fails, isOther⟩
    simp only [reader] at fails
    split at fails
    · cases fails
    · split at fails
      · cases fails
      · split at fails
        · cases fails
        · cases fails
          exact isOther _ rfl
  have discoverable : reader.IsDiscoverable :=
    ⟨⟨_, registers⟩, ⟨["I"], rfl⟩, ⟨["B", "A", "B"], rfl⟩,
      fun _ _ _ _ tag _ _ error => never tag error⟩
  have plain : reader.PassesOver "plain" := by
    intro tag parsed
    cases parsed
  have gone : reader.PassesOver "@gone" := by
    intro tag parsed
    cases parsed
    exact ⟨"@gone", rfl⟩
  obtain ⟨success, groups, _, skipped⟩ := discover_resolves reader
  obtain ⟨catalog, discovered⟩ := success.mpr discoverable
  obtain ⟨_, names, alsoRegisters, resolves⟩ := (groups catalog).mp discovered
  rw [alsoRegisters.unique registers] at resolves
  exact ⟨discoverable, plain, gone, ⟨catalog, discovered, resolves⟩,
    (skipped ["plain"] "@gone" [] gone).trans (skipped [] "plain" [] plain)⟩

end

end Catalog
end CompositeIndex
