import CompositeIndex.Catalog
import CompositeIndex.Decimal.Literal
import CompositeIndex.Index.Divisors
import CompositeIndex.Json.Decoder

/-!
# Configuring the indexes

A configuration gives a common divisor, divisors of single indexes and constituent lists.
It is read from a JSON object, or from an array of its three fields in their order, and is
refined by overrides of the form `NAME=VALUE`. An index without a constituent list consists
of all products of the catalog.
-/

namespace CompositeIndex

/-- The configured divisors and constituents. The divisors need not be valid yet. -/
@[ext]
structure IndexConfig where
  /-- The divisor of the indexes without one of their own. -/
  defaultDivisor : Option Float := none
  /-- The divisors of single indexes. -/
  divisors : Std.ExtTreeMap String Float := ∅
  /-- The constituents of single indexes, as they are listed. -/
  constituents : Std.ExtTreeMap String (List String) := ∅

/-- An override of one divisor. -/
structure DivisorOverride where
  index : String
  value : Float

namespace DivisorOverride

/-- The characters before the first equals sign and those behind it. -/
def splitAtEquals : List Char → Option (List Char × List Char)
  | [] => none
  | char :: rest =>
      if char = '=' then some ([], rest)
      else (splitAtEquals rest).map fun (name, value) => (char :: name, value)

/-- Reads an override; blanks around the name and around the number do not count. -/
def parse (raw : String) : Except Invalid DivisorOverride :=
  match splitAtEquals raw.toList with
  | none => .error (.malformedDivisor raw)
  | some (before, behind) =>
      let name := Text.trimChars before
      if name.isEmpty then .error (.malformedDivisor raw)
      else
        match Decimal.Literal.ofChars? (Text.trimChars behind) with
        | none => .error (.malformedDivisor raw)
        | some literal => .ok ⟨String.ofList name, literal.toFloat⟩

end DivisorOverride

namespace IndexConfig

def empty : IndexConfig := {}

/-- Sets the divisor that an override gives. -/
def override (config : IndexConfig) (raw : String) : Except Invalid IndexConfig :=
  (DivisorOverride.parse raw).map fun override =>
    { config with divisors := config.divisors.insert override.index override.value }

/-- Applies overrides one after the other. -/
def overrideAll (config : IndexConfig) (raws : List String) : Except Invalid IndexConfig :=
  raws.foldlM override config

/-- The divisors, if all of them are positive and finite. -/
def validDivisors (config : IndexConfig) : Except Failure Divisors :=
  match config.defaultDivisor with
  | some common =>
      (Divisors.new common).bind fun divisors => divisors.withAll config.divisors.toList
  | none => Divisors.default.withAll config.divisors.toList

/-- The constituents of an index in ascending order, each once. -/
def constituentsFor
    (config : IndexConfig)
    (index : String)
    (catalog : Catalog) : List String :=
  match config.constituents[index]? with
  | some listed => Names.normalize listed
  | none => catalog.products

/-- The constituents are the listed names, or without a list the products. -/
theorem mem_constituentsFor
    (config : IndexConfig)
    (index : String)
    (catalog : Catalog)
    (name : String) :
    name ∈ config.constituentsFor index catalog ↔
      name ∈ config.constituents[index]?.getD catalog.products := by
  unfold constituentsFor
  cases config.constituents[index]? with
  | none => exact Iff.rfl
  | some listed => exact Names.mem_normalize name listed

/-- They stand in ascending order, each once. Together with their membership this settles the
whole list. -/
theorem ascending_constituentsFor
    (config : IndexConfig)
    (index : String)
    (catalog : Catalog) :
    Names.Ascending (config.constituentsFor index catalog) := by
  unfold constituentsFor
  cases config.constituents[index]? with
  | none => exact catalog.ascending_group Tag.products
  | some listed => exact Names.ascending_normalize listed

/-- The configured names that the catalog does not list as indexes, in ascending order. -/
def unknownIndexes (config : IndexConfig) (catalog : Catalog) : List String :=
  Names.normalize
    ((config.divisors.keys ++ config.constituents.keys).filter fun name =>
      !catalog.indexes.contains name)

/-! ## Writing -/

def toJson (config : IndexConfig) : Json :=
  .object
    [("default_divisor", (config.defaultDivisor.map Json.measure).getD .null),
      ("divisors",
        .object (config.divisors.toList.map fun entry => (entry.1, Json.measure entry.2))),
      ("constituents",
        .object
          (config.constituents.toList.map fun entry => (entry.1, Json.texts entry.2)))]

/-! ## Reading -/

/-- The fields of a configuration that have been read so far. -/
structure Fields where
  defaultDivisor : Option (Option Float) := none
  divisors : Option (List (String × Float)) := none
  constituents : Option (List (String × List String)) := none

/-- The configuration with the given fields, the others being left open. Of several entries
for one index the last counts. -/
def Fields.finish (fields : Fields) : IndexConfig where
  defaultDivisor := fields.defaultDivisor.getD none
  divisors := Std.ExtTreeMap.ofList (fields.divisors.getD [])
  constituents := Std.ExtTreeMap.ofList (fields.constituents.getD [])

def divisorsDecoder : Json.Decoder (List (String × Float)) :=
  Json.Decoder.dictionary Json.Decoder.float

def constituentsDecoder : Json.Decoder (List (String × List String)) :=
  Json.Decoder.dictionary (Json.Decoder.array Json.Decoder.text)

/-- A fault about the name of a field. It is placed behind the name and, if the object ends
right there, behind the object. -/
def fieldFault (reason : String) (rest : List Char) : Json.Fault :=
  match Json.Decoder.skipGap rest with
  | '}' :: rest => .before (.unfit reason) rest
  | rest => .before (.unfit reason) rest

/-- A fault about a field that stands twice. -/
def duplicateField (name : String) (rest : List Char) : Json.Fault :=
  fieldFault ("duplicate field `" ++ name ++ "`") rest

/-- A fault about a name that is no field. -/
def unknownField (name : String) (rest : List Char) : Json.Fault :=
  fieldFault
    ("unknown field `" ++ name ++
      "`, expected one of `default_divisor`, `divisors`, `constituents`") rest

/-- Reads the value of a named field. -/
def field (fields : Fields) (name : String) : Json.Decoder Fields := fun rest => do
  if name = "default_divisor" then
    if fields.defaultDivisor.isSome then throw (duplicateField name rest)
    let (value, rest) ←
      Json.Decoder.optional Json.Decoder.float (← Json.Decoder.colon rest)
    pure ({ fields with defaultDivisor := some value }, rest)
  else if name = "divisors" then
    if fields.divisors.isSome then throw (duplicateField name rest)
    let (value, rest) ← divisorsDecoder (← Json.Decoder.colon rest)
    pure ({ fields with divisors := some value }, rest)
  else if name = "constituents" then
    if fields.constituents.isSome then throw (duplicateField name rest)
    let (value, rest) ← constituentsDecoder (← Json.Decoder.colon rest)
    pure ({ fields with constituents := some value }, rest)
  else throw (unknownField name rest)

/-- Reads the fields of an object, at most as many as `bound` allows, and its end. -/
def objectFields : (bound : List Char) → (isFirst : Bool) → Fields → Json.Decoder Fields
  | [], _, _, chars => .error (.before .endsInObject chars)
  | _ :: bound, isFirst, fields, chars => do
      match ← Json.Decoder.nextMember isFirst chars with
      | none => pure (fields, ← Json.Decoder.objectEnd chars)
      | some chars =>
          let (name, rest) ← Json.Decoder.quoted chars
          let (fields, rest) ← field fields (String.ofList name) rest
          objectFields bound false fields rest

/-- Reads the fields of an array in their order, as far as they are given, and its end. -/
def arrayFields (chars : List Char) : Except Json.Fault (Fields × List Char) := do
  match ← Json.Decoder.nextItem true chars with
  | none => pure ({}, ← Json.Decoder.arrayEnd chars)
  | some chars =>
      let (common, rest) ← Json.Decoder.optional Json.Decoder.float chars
      let fields : Fields := { defaultDivisor := some common }
      match ← Json.Decoder.nextItem false rest with
      | none => pure (fields, ← Json.Decoder.arrayEnd rest)
      | some chars =>
          let (divisors, rest) ← divisorsDecoder chars
          let fields := { fields with divisors := some divisors }
          match ← Json.Decoder.nextItem false rest with
          | none => pure (fields, ← Json.Decoder.arrayEnd rest)
          | some chars =>
              let (constituents, rest) ← constituentsDecoder chars
              let fields := { fields with constituents := some constituents }
              pure (fields, ← Json.Decoder.arrayEnd rest)

def decoder : Json.Decoder IndexConfig := fun chars =>
  match Json.Decoder.skipGap chars with
  | [] => .error (.before .endsInValue [])
  | '{' :: rest =>
      (objectFields rest true {} rest).map fun (fields, rest) =>
        (fields.finish, rest)
  | '[' :: rest => (arrayFields rest).map fun (fields, rest) => (fields.finish, rest)
  | chars => Json.Decoder.mismatch "struct IndexConfig" chars

def ofJson (raw : String) : Except Json.Fault IndexConfig :=
  Json.Decoder.whole decoder raw.toList

/-- What trying to read a file gives. -/
inductive FileContent
  | text (content : String)
  | unreadable (reason : String)
  deriving DecidableEq, Repr

/-- Reads a configuration from the file of the given name. -/
def ofFile (name : String) : FileContent → Except Failure IndexConfig
  | .unreadable reason => .error (.configuration ("cannot read " ++ name ++ ": " ++ reason))
  | .text content =>
      match ofJson content with
      | .ok config => .ok config
      | .error fault =>
          .error (.configuration (name ++ ": " ++ fault.message content.toList))

end IndexConfig
end CompositeIndex
