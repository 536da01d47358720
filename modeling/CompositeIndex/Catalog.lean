import CompositeIndex.Log
import CompositeIndex.Store.Reader
import CompositeIndex.Text.Names

/-!
# The catalog

A catalog says which entries carry which tags at the time it is taken. Every group is kept
in ascending order and without repetitions, so that whoever walks over indexes and
constituents meets them in the same order every time.

A catalog is discovered from a store: `@indexes` and `@products` have to exist, and every
tag that `@tags` lists is looked up as well. Names that are no tags and tags that do not
exist are passed over.
-/

namespace CompositeIndex

/-- The entries of each tag. -/
@[ext]
structure Catalog where
  /-- The groups in the order of their tags. -/
  groups : Std.ExtTreeMap Tag (List String)
  /-- Every group is in ascending order and without repetitions. -/
  ascending : ∀ (tag : Tag) (entries : List String),
    groups[tag]? = some entries → Names.Ascending entries

namespace Catalog

def empty : Catalog where
  groups := ∅
  ascending := by simp

/-- Sets the group of a tag. -/
def insert (catalog : Catalog) (tag : Tag) (entries : List String) : Catalog where
  groups := catalog.groups.insert tag (Names.normalize entries)
  ascending := by
    intro other group found
    rw [Std.ExtTreeMap.getElem?_insert] at found
    split at found
    · cases found
      exact Names.ascending_normalize entries
    · exact catalog.ascending other group found

/-- The catalog of the given groups; the last group of a tag counts. -/
def ofGroups (groups : List (Tag × List String)) : Catalog :=
  groups.foldl (fun catalog group => catalog.insert group.1 group.2) empty

/-- The catalog has a group for the tag. -/
def has (catalog : Catalog) (tag : Tag) : Bool :=
  catalog.groups.contains tag

/-- The entries of a tag; none for a tag without a group. -/
def group (catalog : Catalog) (tag : Tag) : List String :=
  catalog.groups[tag]?.getD []

def indexes (catalog : Catalog) : List String :=
  catalog.group Tag.indexes

/-- The instruments that may be constituents. -/
def products (catalog : Catalog) : List String :=
  catalog.group Tag.products

/-- The groups in the order of their tags. -/
def toList (catalog : Catalog) : List (Tag × List String) :=
  catalog.groups.toList

def tags (catalog : Catalog) : List Tag :=
  catalog.groups.keys

/-- The name is that of a product, found by bisection. -/
def containsProduct (catalog : Catalog) (name : String) : Bool :=
  Names.search catalog.products.toArray name

@[simp] theorem group_empty (tag : Tag) : empty.group tag = [] := by
  simp [group, empty]

/-- A group is in ascending order, also that of a tag without a group. -/
theorem ascending_group (catalog : Catalog) (tag : Tag) :
    Names.Ascending (catalog.group tag) := by
  unfold group
  cases found : catalog.groups[tag]? with
  | none => exact Names.ascending_nil
  | some entries => exact catalog.ascending tag entries found

/-! ## Discovery -/

/-- What discovering a catalog logs and answers. -/
structure Discovery where
  log : List LogLine
  result : Except Failure Catalog

namespace Discovery

/-- The discovery with a line logged in front. -/
def after (line : LogLine) (discovery : Discovery) : Discovery :=
  { discovery with log := line :: discovery.log }

/-- A discovery that ends with a read that the store cannot answer. -/
def failed (error : StoreError) : Discovery :=
  ⟨[], .error (.ofStore error)⟩

end Discovery

/-- What is logged about a catalog when it is complete. -/
def summary (catalog : Catalog) : LogLine :=
  .info ("catalog discovered: " ++ Text.digits catalog.indexes.length ++ " indexes, " ++
    Text.digits catalog.products.length ++ " products, " ++
    Text.digits catalog.groups.size ++ " tags")

/-- Adds the group of every listed name to a catalog. -/
def resolve (reader : Reader) : List String → Catalog → Discovery
  | [], catalog => ⟨[catalog.summary], .ok catalog⟩
  | name :: names, catalog =>
      match Tag.parse name with
      | .error cause =>
          (resolve reader names catalog).after
            (.warn ("ignoring entry " ++ Text.quoted name ++ " listed under " ++
              Tag.tags.text ++ ": " ++ cause.message))
      | .ok tag =>
          if tag = Tag.tags || catalog.has tag then resolve reader names catalog
          else
            match reader.entriesByTag tag with
            | .ok entries => resolve reader names (catalog.insert tag entries)
            | .error (.unknownTag _) =>
                (resolve reader names catalog).after
                  (.warn ("tag " ++ tag.text ++
                    " vanished during catalog discovery, skipping"))
            | .error error => .failed error

/-- Looks up the two groups that every catalog has, then those of the listed names. -/
def resolveRequired (reader : Reader) (names : List String) : Discovery :=
  match reader.entriesByTag Tag.indexes with
  | .error error => .failed error
  | .ok indexes =>
      match reader.entriesByTag Tag.products with
      | .error error => .failed error
      | .ok products =>
          resolve reader names
            ((empty.insert Tag.indexes indexes).insert Tag.products products)

/-- Discovers the catalog of a store. A store without `@tags` has the two required groups
only. -/
def discover (reader : Reader) : Discovery :=
  match reader.entriesByTag Tag.tags with
  | .ok names => resolveRequired reader names
  | .error (.unknownTag _) =>
      (resolveRequired reader []).after
        (.debug ("store has no " ++ Tag.tags.text ++ " meta-tag"))
  | .error error => .failed error

end Catalog
end CompositeIndex
