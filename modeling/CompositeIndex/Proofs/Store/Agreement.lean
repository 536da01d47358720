import CompositeIndex.Index.Computation

/-!
# Stores that agree

Two stores agree if they give the same answers, up to the order and the repetitions of
listed names. Neither matters to a catalog: the names that `@tags` lists are looked up one
after the other, but the group of a tag is the normal form of its listing whenever it is
looked up. This holds as long as the only thing that can go wrong with a listing is that its
tag does not exist. Indexes are computed from last values alone.
-/

namespace CompositeIndex

namespace Reader

/-- A listing fails only if there is no such tag. -/
def ListsExisting (reader : Reader) : Prop :=
  ∀ tag error, reader.entriesByTag tag = .error error → ∃ name, error = .unknownTag name

/-- The listing of this tag fails only if there is no such tag. -/
def Finds (reader : Reader) (tag : Tag) : Prop :=
  ∀ error, reader.entriesByTag tag = .error error → ∃ name, error = .unknownTag name

/-- The names of a listing in normal form. -/
def listing (reader : Reader) (tag : Tag) : Except StoreError (List String) :=
  (reader.entriesByTag tag).map Names.normalize

/-- Two stores give the same answers, up to the order and the repetitions of listed names. -/
structure Agrees (first second : Reader) : Prop where
  listing : ∀ tag, first.listing tag = second.listing tag
  lastValue : ∀ query, first.lastValue query = second.lastValue query

/-- Stores that agree list the same names under a tag, or fail in the same way. -/
theorem Agrees.entriesByTag
    {first second : Reader}
    (agrees : first.Agrees second)
    (tag : Tag) :
    (∃ error, first.entriesByTag tag = .error error ∧
      second.entriesByTag tag = .error error) ∨
    ∃ firstNames secondNames, first.entriesByTag tag = .ok firstNames ∧
      second.entriesByTag tag = .ok secondNames ∧
      Names.normalize firstNames = Names.normalize secondNames := by
  have same := agrees.listing tag
  unfold Reader.listing at same
  cases firstListed : first.entriesByTag tag with
  | error error =>
      cases secondListed : second.entriesByTag tag with
      | error other =>
          rw [firstListed, secondListed] at same
          cases same
          exact .inl ⟨error, rfl, rfl⟩
      | ok names =>
          rw [firstListed, secondListed] at same
          cases same
  | ok names =>
      cases secondListed : second.entriesByTag tag with
      | error error =>
          rw [firstListed, secondListed] at same
          cases same
      | ok others =>
          rw [firstListed, secondListed] at same
          exact .inr ⟨names, others, rfl, rfl, Except.ok.inj same⟩

theorem ListsExisting.of_agrees
    {first second : Reader}
    (existing : second.ListsExisting)
    (agrees : first.Agrees second) :
    first.ListsExisting := by
  intro tag error fails
  rcases agrees.entriesByTag tag with ⟨other, firstFails, secondFails⟩ | ⟨names, _, listed, _⟩
  · rw [firstFails] at fails
    cases fails
    exact existing tag error secondFails
  · rw [listed] at fails
    cases fails

end Reader

namespace Catalog

/-! ## Looking up the listed names -/

/-- The tags among the listed names. -/
def namedTags (names : List String) : List Tag :=
  names.filterMap fun name => (Tag.parse name).toOption

theorem mem_namedTags_iff (tag : Tag) (names : List String) :
    tag ∈ namedTags names ↔ ∃ name ∈ names, Tag.parse name = .ok tag := by
  unfold namedTags
  rw [List.mem_filterMap]
  refine exists_congr fun name => and_congr_right fun _ => ?_
  cases Tag.parse name <;> simp [Except.toOption]

/-- Lists of the same names name the same tags. -/
theorem mem_namedTags_congr
    {first second : List String}
    (same : Names.normalize first = Names.normalize second)
    (tag : Tag) :
    tag ∈ namedTags first ↔ tag ∈ namedTags second := by
  rw [mem_namedTags_iff, mem_namedTags_iff]
  refine exists_congr fun name => and_congr_left fun _ => ?_
  rw [← Names.mem_normalize name first, same, Names.mem_normalize]

/-- The group that looking up the listed names finds for a tag that had none. -/
def found (reader : Reader) (names : List String) (tag : Tag) : Option (List String) :=
  if tag ≠ Tag.tags ∧ tag ∈ namedTags names then (reader.listing tag).toOption else none

theorem found_cons_of_error
    {name : String}
    {cause : Invalid}
    (parsed : Tag.parse name = .error cause)
    (reader : Reader)
    (names : List String)
    (tag : Tag) :
    found reader (name :: names) tag = found reader names tag := by
  simp [found, namedTags, parsed, Except.toOption]

theorem found_cons_of_ne
    {name : String}
    {named tag : Tag}
    (parsed : Tag.parse name = .ok named)
    (different : tag ≠ named)
    (reader : Reader)
    (names : List String) :
    found reader (name :: names) tag = found reader names tag := by
  simp [found, namedTags, parsed, Except.toOption, different]

theorem found_cons_self
    {name : String}
    {named : Tag}
    (parsed : Tag.parse name = .ok named)
    (notTags : named ≠ Tag.tags)
    (reader : Reader)
    (names : List String) :
    found reader (name :: names) named = (reader.listing named).toOption := by
  simp [found, namedTags, parsed, Except.toOption, notTags]

@[simp] theorem result_after (line : LogLine) (discovery : Discovery) :
    (discovery.after line).result = discovery.result := rfl

theorem getElem?_groups_insert
    (catalog : Catalog)
    (tag other : Tag)
    (entries : List String) :
    (catalog.insert tag entries).groups[other]? =
      if tag = other then some (Names.normalize entries) else catalog.groups[other]? := by
  simp [insert, Std.ExtTreeMap.getElem?_insert]

theorem getElem?_groups_of_not_has
    {catalog : Catalog}
    {tag : Tag}
    (noGroup : ¬catalog.has tag = true) :
    catalog.groups[tag]? = none := by
  simpa [has] using noGroup

/-- Looking up one name leads to a catalog from which the remaining names lead to the same
groups. -/
theorem exists_resolve_cons
    {reader : Reader}
    {name : String}
    (finds : ∀ tag, Tag.parse name = .ok tag → reader.Finds tag)
    (names : List String)
    (catalog : Catalog) :
    ∃ next : Catalog,
      (resolve reader (name :: names) catalog).result = (resolve reader names next).result ∧
      ∀ tag, next.groups[tag]?.or (found reader names tag) =
        catalog.groups[tag]?.or (found reader (name :: names) tag) := by
  cases parsed : Tag.parse name with
  | error cause =>
      refine ⟨catalog, by simp [resolve, parsed], fun tag => ?_⟩
      rw [found_cons_of_error parsed]
  | ok named =>
      by_cases skipped : named = Tag.tags ∨ catalog.has named = true
      · refine ⟨catalog, by simp [resolve, parsed, skipped], fun tag => ?_⟩
        by_cases same : tag = named
        · subst same
          rcases skipped with isTags | hasGroup
          · simp [found, isTags]
          · obtain ⟨group, held⟩ := Option.isSome_iff_exists.mp
              (Std.ExtTreeMap.isSome_getElem?_eq_contains.trans hasGroup)
            rw [held, Option.some_or, Option.some_or]
        · rw [found_cons_of_ne parsed same]
      · obtain ⟨notTags, noGroup⟩ := not_or.mp skipped
        have missing := getElem?_groups_of_not_has noGroup
        cases listed : reader.entriesByTag named with
        | ok entries =>
            refine ⟨catalog.insert named entries,
              by simp [resolve, parsed, notTags, noGroup, listed], fun tag => ?_⟩
            rw [getElem?_groups_insert]
            by_cases same : named = tag
            · subst same
              rw [if_pos rfl, missing, found_cons_self parsed notTags, Reader.listing, listed]
              rfl
            · rw [if_neg same, found_cons_of_ne parsed (Ne.symm same)]
        | error error =>
            obtain ⟨unknown, rfl⟩ := finds named parsed error listed
            refine ⟨catalog, by simp [resolve, parsed, notTags, noGroup, listed],
              fun tag => ?_⟩
            by_cases same : tag = named
            · subst same
              have nothing : (reader.listing tag).toOption = none := by
                rw [Reader.listing, listed]
                rfl
              rw [found_cons_self parsed notTags, nothing, found, nothing, ite_self]
            · rw [found_cons_of_ne parsed same]

/-- A tag keeps its group if it has one, and otherwise gets the group of its listing if it
is among the names. -/
theorem exists_resolve_eq_ok
    {reader : Reader}
    (names : List String)
    (finds : ∀ name ∈ names, ∀ tag, Tag.parse name = .ok tag → reader.Finds tag)
    (catalog : Catalog) :
    ∃ final, (resolve reader names catalog).result = .ok final ∧
      ∀ tag, final.groups[tag]? = catalog.groups[tag]?.or (found reader names tag) := by
  induction names generalizing catalog with
  | nil => exact ⟨catalog, rfl, by simp [found, namedTags]⟩
  | cons name names inductionHypothesis =>
      obtain ⟨findsFirst, findsOthers⟩ := List.forall_mem_cons.mp finds
      obtain ⟨next, sameResult, sameGroups⟩ := exists_resolve_cons findsFirst names catalog
      obtain ⟨final, succeeds, groups⟩ := inductionHypothesis findsOthers next
      refine ⟨final, sameResult.trans succeeds, fun tag => ?_⟩
      rw [groups, sameGroups]

/-! ## Stores that agree -/

/-- Looking up the same names in stores that agree gives the same catalog. -/
theorem resolve_result_congr
    {first second : Reader}
    (agrees : first.Agrees second)
    (existing : second.ListsExisting)
    {firstNames secondNames : List String}
    (same : Names.normalize firstNames = Names.normalize secondNames)
    (catalog : Catalog) :
    (resolve first firstNames catalog).result =
      (resolve second secondNames catalog).result := by
  obtain ⟨firstFinal, firstSucceeds, firstGroups⟩ :=
    exists_resolve_eq_ok firstNames (fun _ _ tag _ => existing.of_agrees agrees tag) catalog
  obtain ⟨secondFinal, secondSucceeds, secondGroups⟩ :=
    exists_resolve_eq_ok secondNames (fun _ _ tag _ => existing tag) catalog
  have sameFinal : firstFinal = secondFinal := by
    apply Catalog.ext
    apply Std.ExtTreeMap.ext_getElem?
    intro tag
    rw [firstGroups, secondGroups, found, found, agrees.listing]
    simp only [mem_namedTags_congr same]
  rw [firstSucceeds, secondSucceeds, sameFinal]

theorem insert_congr
    {first second : List String}
    (same : Names.normalize first = Names.normalize second)
    (catalog : Catalog)
    (tag : Tag) :
    catalog.insert tag first = catalog.insert tag second := by
  simp only [insert, same]

theorem resolveRequired_result_congr
    {first second : Reader}
    (agrees : first.Agrees second)
    (existing : second.ListsExisting)
    {firstNames secondNames : List String}
    (same : Names.normalize firstNames = Names.normalize secondNames) :
    (resolveRequired first firstNames).result =
      (resolveRequired second secondNames).result := by
  unfold resolveRequired
  rcases agrees.entriesByTag Tag.indexes with
    ⟨error, firstFails, secondFails⟩ | ⟨_, _, firstIndexes, secondIndexes, sameIndexes⟩
  · rw [firstFails, secondFails]
  · rw [firstIndexes, secondIndexes]
    rcases agrees.entriesByTag Tag.products with
      ⟨error, firstFails, secondFails⟩ | ⟨_, _, firstProducts, secondProducts, sameProducts⟩
    · rw [firstFails, secondFails]
    · rw [firstProducts, secondProducts]
      simp only [insert_congr sameIndexes, insert_congr sameProducts]
      exact resolve_result_congr agrees existing same _

/-- Stores that agree have the same catalog, or fail to have one in the same way. -/
theorem discover_result_congr
    {first second : Reader}
    (agrees : first.Agrees second)
    (existing : second.ListsExisting) :
    (discover first).result = (discover second).result := by
  unfold discover
  rcases agrees.entriesByTag Tag.tags with
    ⟨error, firstFails, secondFails⟩ | ⟨_, _, firstTags, secondTags, sameTags⟩
  · obtain ⟨name, rfl⟩ := existing Tag.tags error secondFails
    rw [firstFails, secondFails]
    exact resolveRequired_result_congr agrees existing rfl
  · rw [firstTags, secondTags]
    exact resolveRequired_result_congr agrees existing sameTags

end Catalog

/-! ## Computing on stores that agree -/

/-- Two stores give the same answers about the values of these instruments. -/
def Reader.AgreesOn (first second : Reader) (instruments : List String) : Prop :=
  ∀ instrument ∈ instruments, ∀ window,
    first.lastValue ⟨instrument, valueColumn, window⟩ =
      second.lastValue ⟨instrument, valueColumn, window⟩

theorem Reader.Agrees.agreesOn
    {first second : Reader}
    (agrees : first.Agrees second)
    (instruments : List String) :
    first.AgreesOn second instruments :=
  fun _ _ _ => agrees.lastValue _

theorem takeReadings_congr
    {first second : Reader}
    {window : Window}
    {instruments : List String}
    (same : ∀ instrument ∈ instruments,
      first.lastValue ⟨instrument, valueColumn, window⟩ =
        second.lastValue ⟨instrument, valueColumn, window⟩) :
    takeReadings first window instruments = takeReadings second window instruments := by
  induction instruments with
  | nil => rfl
  | cons instrument instruments inductionHypothesis =>
      obtain ⟨sameFirst, sameOthers⟩ := List.forall_mem_cons.mp same
      have sameReading : Reading.take first window instrument =
          Reading.take second window instrument := by
        simp only [Reading.take, sameFirst]
      rw [takeReadings, takeReadings, sameReading, inductionHypothesis sameOthers]

/-- An index depends on the values of its constituents inside the window and on nothing else. -/
theorem Aggregator.compute_congr_of_lastValue
    {first second : Reader}
    {window : Window}
    {constituents : List String}
    (same : ∀ instrument ∈ constituents,
      first.lastValue ⟨instrument, valueColumn, window⟩ =
        second.lastValue ⟨instrument, valueColumn, window⟩)
    (aggregator : Aggregator)
    (index : String)
    (reportEach : Bool) :
    aggregator.compute first index constituents window reportEach =
      aggregator.compute second index constituents window reportEach := by
  simp only [compute, takeReadings_congr same]

/-- What stores answer about other instruments does not matter to an index. -/
theorem Aggregator.compute_congr_of_agreesOn
    {first second : Reader}
    {constituents : List String}
    (agrees : first.AgreesOn second constituents)
    (aggregator : Aggregator)
    (index : String)
    (window : Window)
    (reportEach : Bool) :
    aggregator.compute first index constituents window reportEach =
      aggregator.compute second index constituents window reportEach :=
  compute_congr_of_lastValue (fun instrument member => agrees instrument member window)
    aggregator index reportEach

/-- An index is computed with the same questions, answers and result. -/
theorem Aggregator.compute_congr
    {first second : Reader}
    (agrees : first.Agrees second)
    (aggregator : Aggregator)
    (index : String)
    (constituents : List String)
    (window : Window)
    (reportEach : Bool) :
    aggregator.compute first index constituents window reportEach =
      aggregator.compute second index constituents window reportEach :=
  compute_congr_of_agreesOn (agrees.agreesOn constituents) aggregator index window reportEach

end CompositeIndex
