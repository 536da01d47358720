import CompositeIndex.Proofs.FirstFault
import CompositeIndex.Proofs.Index.Specification
import CompositeIndex.Proofs.Store.Agreement
import CompositeIndex.Proofs.Text.ByteOrder

/-!
# Groups as sets

However a catalog comes about, its groups are sets: each has the entries that were given last for
its tag, in the order of their bytes and without repetitions. That is why it does not matter how a
name is looked for: walking over the products, bisecting them and asking the set that computing
an index uses all find the same names.
-/

namespace CompositeIndex

namespace Names

/-! ## Bisection -/

section

variable {names : List String}

theorem Ascending.compare_getElem
    (ascending : Ascending names)
    {first second : Nat}
    (inOrder : first < second)
    (bound : second < names.length) :
    compare names[first] names[second] = .lt :=
  List.pairwise_iff_getElem.mp ascending first second (Nat.lt_trans inOrder bound) bound inOrder

/-- The name stands at one of the positions from `low` up to `high`, which is excluded. -/
def StandsBetween (names : List String) (name : String) (low high : Nat) : Prop :=
  ∃ position, ∃ bound : position < names.length,
    low ≤ position ∧ position < high ∧ names[position] = name

/-- A name that is greater than the one in the middle stands behind it. -/
theorem standsBetween_of_lt
    (ascending : Ascending names)
    {name : String}
    {low middle high : Nat}
    (bound : middle < names.length)
    (low_le : low ≤ middle)
    (smaller : compare names[middle] name = .lt) :
    StandsBetween names name low high ↔ StandsBetween names name (middle + 1) high := by
  refine ⟨?_, fun ⟨position, inside, above, below, same⟩ =>
    ⟨position, inside, by omega, below, same⟩⟩
  rintro ⟨position, inside, above, below, rfl⟩
  refine ⟨position, inside, ?_, below, rfl⟩
  rcases Nat.lt_trichotomy position middle with before | rfl | behind
  · have greater := ascending.compare_getElem before bound
    rw [Std.OrientedOrd.eq_swap, greater] at smaller
    cases smaller
  · rw [Std.compare_self] at smaller
    cases smaller
  · exact behind

/-- A name that is smaller than the one in the middle stands before it. -/
theorem standsBetween_of_gt
    (ascending : Ascending names)
    {name : String}
    {low middle high : Nat}
    (bound : middle < names.length)
    (lt_high : middle < high)
    (greater : compare names[middle] name = .gt) :
    StandsBetween names name low high ↔ StandsBetween names name low middle := by
  refine ⟨?_, fun ⟨position, inside, above, below, same⟩ =>
    ⟨position, inside, above, by omega, same⟩⟩
  rintro ⟨position, inside, above, below, rfl⟩
  refine ⟨position, inside, above, ?_, rfl⟩
  rcases Nat.lt_trichotomy position middle with before | rfl | behind
  · exact before
  · rw [Std.compare_self] at greater
    cases greater
  · rw [ascending.compare_getElem behind inside] at greater
    cases greater

theorem searchBetween_eq_true_iff
    (ascending : Ascending names)
    (name : String)
    (low high : Nat)
    (bound : high ≤ names.toArray.size) :
    searchBetween names.toArray name low high bound = true ↔ StandsBetween names name low high := by
  fun_induction searchBetween names.toArray name low high bound with
  | case1 low high bound span middle same =>
      have inside : middle < names.length := by
        rw [List.size_toArray] at bound
        omega
      have found : names[middle] = name := by
        simpa using same
      exact iff_of_true rfl ⟨middle, inside, by omega, by omega, found⟩
  | case2 low high bound span middle smaller inductionHypothesis =>
      rw [inductionHypothesis]
      exact (standsBetween_of_lt ascending _ (by omega) (by simpa using smaller)).symm
  | case3 low high bound span middle greater inductionHypothesis =>
      rw [inductionHypothesis]
      exact (standsBetween_of_gt ascending _ (by omega) (by simpa using greater)).symm
  | case4 low high bound noSpan =>
      refine iff_of_false Bool.false_ne_true ?_
      rintro ⟨position, _, above, below, _⟩
      omega

/-- In a list in ascending order bisection finds just the names of the list. -/
theorem search_eq_true_iff (ascending : Ascending names) (name : String) :
    search names.toArray name = true ↔ name ∈ names := by
  rw [search, searchBetween_eq_true_iff ascending, List.mem_iff_getElem]
  constructor
  · rintro ⟨position, inside, _, _, same⟩
    exact ⟨position, inside, same⟩
  · rintro ⟨position, inside, same⟩
    exact ⟨position, inside, Nat.zero_le _, by simpa using inside, same⟩

end

end Names

/-! ## Byte order -/

namespace Names

theorem Ascending.bytes
    {names : List String}
    (ascending : Ascending names) :
    names.Pairwise fun first second => Text.bytes first < Text.bytes second :=
  List.Pairwise.imp Text.bytes_lt_of_compare ascending

end Names

namespace Tag

/-- A tag stands before another if its text does. -/
theorem bytes_text_lt_of_compare {first second : Tag} (smaller : compare first second = .lt) :
    Text.bytes first.text < Text.bytes second.text := by
  have labels : first.label < second.label := Text.lt_of_compare smaller
  rw [Text.bytes_lt_bytes_iff, String.lt_iff_toList_lt, text, text, String.toList_ofList,
    String.toList_ofList, List.cons_lt_cons_iff]
  exact .inr ⟨rfl, labels⟩

end Tag

namespace Catalog

/-! ## The groups that are given -/

section

variable {groups : List (Tag × List String)} {tag : Tag}

/-- The entries given last for a tag, if there are any. -/
def lastGiven? (groups : List (Tag × List String)) (tag : Tag) : Option (List String) :=
  (groups.reverse.find? fun group => group.1 = tag).map (·.2)

theorem lastGiven?_concat
    (groups : List (Tag × List String))
    (group : Tag × List String)
    (tag : Tag) :
    lastGiven? (groups ++ [group]) tag =
      if group.1 = tag then some group.2 else lastGiven? groups tag := by
  rw [lastGiven?, List.reverse_concat, List.find?_cons]
  by_cases same : group.1 = tag <;> simp [same, lastGiven?]

theorem isSome_lastGiven?_iff :
    (lastGiven? groups tag).isSome = true ↔ ∃ entries, (tag, entries) ∈ groups := by
  simp [lastGiven?]

/-- Adding a group is giving it after the others. -/
theorem ofGroups_concat (groups : List (Tag × List String)) (group : Tag × List String) :
    ofGroups (groups ++ [group]) = (ofGroups groups).insert group.1 group.2 := by
  rw [ofGroups, ofGroups, List.foldl_concat]

theorem getElem?_groups_ofGroups (groups : List (Tag × List String)) (tag : Tag) :
    (ofGroups groups).groups[tag]? = (lastGiven? groups tag).map Names.normalize := by
  induction groups using List.reverseRecOn with
  | nil => simp [ofGroups, empty, lastGiven?]
  | append_singleton groups group inductionHypothesis =>
      rw [ofGroups_concat, getElem?_groups_insert, lastGiven?_concat]
      split
      · rfl
      · exact inductionHypothesis

/-- A discovered catalog is that of the groups it started with and of listings. -/
theorem exists_ofGroups_of_resolve
    {reader : Reader}
    {names : List String}
    {catalog : Catalog}
    (given : ∀ group ∈ groups, reader.entriesByTag group.1 = .ok group.2)
    (resolved : (resolve reader names (ofGroups groups)).result = .ok catalog) :
    ∃ others, (∀ group ∈ others, reader.entriesByTag group.1 = .ok group.2) ∧
      catalog = ofGroups others := by
  induction names generalizing groups with
  | nil =>
      cases resolved
      exact ⟨groups, given, rfl⟩
  | cons name names inductionHypothesis =>
      unfold resolve at resolved
      split at resolved
      · exact inductionHypothesis given resolved
      · rename_i tag _
        split at resolved
        · exact inductionHypothesis given resolved
        · split at resolved
          · rename_i entries listed
            rw [← ofGroups_concat groups (tag, entries)] at resolved
            refine inductionHypothesis ?_ resolved
            rintro group member
            rcases List.mem_append.mp member with before | isLast
            · exact given group before
            · cases List.mem_singleton.mp isLast
              exact listed
          · exact inductionHypothesis given resolved
          · cases resolved

theorem exists_ofGroups_of_discover
    {reader : Reader}
    {catalog : Catalog}
    (discovered : (discover reader).result = .ok catalog) :
    ∃ groups, (∀ group ∈ groups, reader.entriesByTag group.1 = .ok group.2) ∧
      catalog = ofGroups groups := by
  have required : ∀ {names}, (resolveRequired reader names).result = .ok catalog →
      ∃ groups, (∀ group ∈ groups, reader.entriesByTag group.1 = .ok group.2) ∧
        catalog = ofGroups groups := by
    intro names resolved
    unfold resolveRequired at resolved
    split at resolved
    · cases resolved
    · rename_i indexes indexListing
      split at resolved
      · cases resolved
      · rename_i products productListing
        have given : ∀ group ∈ [(Tag.indexes, indexes), (Tag.products, products)],
            reader.entriesByTag group.1 = .ok group.2 := by
          simp [indexListing, productListing]
        exact exists_ofGroups_of_resolve given resolved
  unfold discover at discovered
  split at discovered
  · exact required discovered
  · exact required discovered
  · cases discovered

end

/-! ## The groups of a catalog -/

/-- The groups of the catalog are the given ones as sets. -/
structure IsSetOf (catalog : Catalog) (groups : List (Tag × List String)) : Prop where
  /-- No name stands twice, and each one stands before those that are greater. -/
  ascending : ∀ tag,
    (catalog.group tag).Pairwise fun first second => Text.bytes first < Text.bytes second
  /-- A group has the names that are given last for its tag. -/
  names : ∀ tag name, name ∈ catalog.group tag ↔
    ∃ entries, lastGiven? groups tag = some entries ∧ name ∈ entries
  /-- No tag stands twice, and each one stands before those that are greater. -/
  tagsAscending :
    catalog.tags.Pairwise fun first second => Text.bytes first.text < Text.bytes second.text
  tags : ∀ tag, tag ∈ catalog.tags ↔ ∃ entries, (tag, entries) ∈ groups
  /-- The groups are listed in the order of their tags. -/
  toList : catalog.toList = catalog.tags.map fun tag => (tag, catalog.group tag)

section

variable (catalog : Catalog)

theorem mem_tags_iff (tag : Tag) :
    tag ∈ catalog.tags ↔ (catalog.groups[tag]?).isSome = true := by
  rw [tags, Std.ExtTreeMap.mem_keys, Std.ExtTreeMap.mem_iff_isSome_getElem?]

theorem toList_eq_map_tags :
    catalog.toList = catalog.tags.map fun tag => (tag, catalog.group tag) := by
  rw [tags, ← Std.ExtTreeMap.map_fst_toList_eq_keys, List.map_map]
  refine (List.map_id catalog.toList).symm.trans (List.map_congr_left ?_)
  rintro ⟨tag, entries⟩ member
  have held : catalog.groups[tag]? = some entries :=
    Std.ExtTreeMap.mem_toList_iff_getElem?_eq_some.mp member
  simp [group, held]

/-- The entries of the first tag that is written like this. -/
def groupWritten (text : String) : List String :=
  ((catalog.toList.find? fun group => group.1.text = text).map (·.2)).getD []

/-- Going through the tags for one that is written like the tag comes to the tag. -/
theorem groupWritten_text (tag : Tag) : catalog.groupWritten tag.text = catalog.group tag := by
  unfold groupWritten
  cases found : catalog.toList.find? fun group => group.1.text = tag.text with
  | some group =>
      obtain ⟨other, entries⟩ := group
      have sameText : other.text = tag.text := by
        simpa using List.find?_some found
      have held : catalog.groups[other]? = some entries :=
        Std.ExtTreeMap.mem_toList_iff_getElem?_eq_some.mp (List.mem_of_find?_eq_some found)
      rw [Tag.text_injective sameText] at held
      simp [Catalog.group, held]
  | none =>
      cases held : catalog.groups[tag]? with
      | none => simp [Catalog.group, held]
      | some entries =>
          have listed : (tag, entries) ∈ catalog.toList :=
            Std.ExtTreeMap.mem_toList_iff_getElem?_eq_some.mpr held
          have differs := List.find?_eq_none.mp found _ listed
          simp at differs

end

theorem isSetOf_ofGroups (groups : List (Tag × List String)) :
    (ofGroups groups).IsSetOf groups where
  ascending tag := (ascending_group _ tag).bytes
  names tag name := by
    rw [group, getElem?_groups_ofGroups]
    cases lastGiven? groups tag <;> simp
  tagsAscending := List.Pairwise.imp Tag.bytes_text_lt_of_compare Std.ExtTreeMap.ordered_keys
  tags tag := by
    rw [mem_tags_iff, getElem?_groups_ofGroups, Option.isSome_map, isSome_lastGiven?_iff]
  toList := toList_eq_map_tags _

/-! ## The products -/

/-- Bisecting the products finds just the products. -/
theorem containsProduct_iff (catalog : Catalog) (name : String) :
    catalog.containsProduct name = true ↔ name ∈ catalog.products :=
  Names.search_eq_true_iff (catalog.ascending_group Tag.products) name

end Catalog

/-! ## Acceptance as a constituent -/

section

variable {divisors : Divisors} {catalog : Catalog} {reader : Reader}
variable {index : String} {window : Window} {reportEach : Bool}

/-- Asking for a value never fails because an instrument is unknown. -/
theorem ne_unknownInstrument_of_isLatestValue
    {instrument : String}
    {failure : Failure}
    (isLatest : IsLatestValue reader window instrument (.error failure))
    (name : String) :
    failure ≠ .unknownInstrument index name := by
  cases isLatest with
  | refused error answer => cases error <;> exact nofun
  | missing answer => exact nofun
  | infinite value answer notFinite => exact nofun

/-- An index is refused for the first of its constituents that is not a product. -/
theorem compute_eq_unknownInstrument_iff
    (constituents : List String)
    (name : String) :
    ((Aggregator.new divisors catalog).compute reader index constituents window
        reportEach).result = .error (.unknownInstrument index name) ↔
      ∃ before after, constituents = before ++ name :: after ∧
        (∀ other ∈ before, other ∈ catalog.products) ∧ name ∉ catalog.products := by
  constructor
  · intro refused
    have isComputation : IsComputation divisors catalog reader index window reportEach
        constituents _ := (IsComputation.compute_iff _).mp rfl
    generalize (Aggregator.new divisors catalog).compute reader index constituents window
      reportEach = computation at refused isComputation
    cases isComputation with
    | noConstituents => cases refused
    | unknownInstrument before unknown after products noProduct =>
        cases refused
        exact ⟨before, after, rfl, products, noProduct⟩
    | failed found failing after failure products values fails =>
        exact absurd (Except.error.inj refused) (ne_unknownInstrument_of_isLatestValue fails name)
    | computed => cases refused
  · rintro ⟨before, after, rfl, products, noProduct⟩
    rw [IsComputation.compute_eq (.unknownInstrument before name after products noProduct)]

/-- No index is refused for an unknown instrument just if all its constituents are products. -/
theorem compute_ne_unknownInstrument_iff (constituents : List String) :
    (∀ name, ((Aggregator.new divisors catalog).compute reader index constituents window
        reportEach).result ≠ .error (.unknownInstrument index name)) ↔
      ∀ name ∈ constituents, name ∈ catalog.products := by
  simp only [ne_eq, compute_eq_unknownInstrument_iff]
  constructor
  · intro never
    rcases forall_or_exists_first (fun name => name ∈ catalog.products) constituents with
      all | ⟨before, name, after, split, products, noProduct⟩
    · exact all
    · exact absurd ⟨before, after, split, products, noProduct⟩ (never name)
  · rintro products name ⟨before, after, rfl, _, noProduct⟩
    exact noProduct (products name (by simp))

end

namespace Catalog

/-! ## Main theorem -/

/-- A catalog of given groups has them as sets, in the order of bytes, and so has one that is
discovered, where the store gives the groups. In every catalog the indexes and the products are
the groups of their tags, also for a walk over the tags that compares their texts; and bisecting
the products, walking over them and computing an index find the same names. -/
theorem groups_spec :
    (∀ groups, (ofGroups groups).IsSetOf groups) ∧
    (∀ reader catalog, (discover reader).result = .ok catalog →
      ∃ groups, (∀ group ∈ groups, reader.entriesByTag group.1 = .ok group.2) ∧
        catalog.IsSetOf groups) ∧
    ∀ catalog : Catalog,
      (catalog.indexes = catalog.group Tag.indexes ∧
        catalog.indexes = catalog.groupWritten "@indexes") ∧
      (catalog.products = catalog.group Tag.products ∧
        catalog.products = catalog.groupWritten "@products") ∧
      (∀ name, catalog.containsProduct name = true ↔ name ∈ catalog.products) ∧
      ∀ divisors reader index constituents window reportEach,
        let result := ((Aggregator.new divisors catalog).compute reader index constituents
          window reportEach).result
        ((∀ name, result ≠ .error (.unknownInstrument index name)) ↔
          ∀ name ∈ constituents, name ∈ catalog.products) ∧
        ∀ name, result = .error (.unknownInstrument index name) ↔
          ∃ before after, constituents = before ++ name :: after ∧
            (∀ other ∈ before, other ∈ catalog.products) ∧ name ∉ catalog.products := by
  refine ⟨isSetOf_ofGroups, ?discovered, fun catalog => ⟨?indexes, ?products, ?bisected,
    ?constituents⟩⟩
  case discovered =>
    intro reader catalog discovered
    obtain ⟨groups, listed, rfl⟩ := exists_ofGroups_of_discover discovered
    exact ⟨groups, listed, isSetOf_ofGroups groups⟩
  case indexes =>
    have written : Tag.indexes.text = "@indexes" := by decide
    exact ⟨rfl, (written ▸ catalog.groupWritten_text Tag.indexes).symm⟩
  case products =>
    have written : Tag.products.text = "@products" := by decide
    exact ⟨rfl, (written ▸ catalog.groupWritten_text Tag.products).symm⟩
  case bisected => exact catalog.containsProduct_iff
  case constituents =>
    intro divisors reader index constituents window reportEach
    exact ⟨compute_ne_unknownInstrument_iff constituents,
      compute_eq_unknownInstrument_iff constituents⟩

/-- A store that lists a product twice. -/
theorem groups_spec_sample :
    let groups := [(Tag.indexes, ["I"]), (Tag.products, ["B", "A", "B"])]
    let reader : Reader :=
      { entriesByTag := fun tag =>
          if tag = Tag.indexes then .ok ["I"]
          else if tag = Tag.products then .ok ["B", "A", "B"]
          else .error (.unknownTag tag.text)
        lastValue := fun _ => .error (.unavailable "no values") }
    (discover reader).result = .ok (ofGroups groups) ∧
      ∃ given, (∀ group ∈ given, reader.entriesByTag group.1 = .ok group.2) ∧
        (ofGroups groups).IsSetOf given := by
  intro groups reader
  have discovered : (discover reader).result = .ok (ofGroups groups) := rfl
  exact ⟨discovered, groups_spec.2.1 reader _ discovered⟩

end Catalog
end CompositeIndex
