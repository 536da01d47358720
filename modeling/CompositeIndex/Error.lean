import CompositeIndex.Decimal.Layout

/-!
# Errors

Each layer has its own causes: values that are refused (`Invalid`), reads that a store
cannot answer (`StoreError`), and everything that can end the computation of an index or a
run (`Failure`). A message is written in one place, and a failure carries a stable code and
says whether a later pass may succeed.
-/

namespace CompositeIndex

/-- Why a value or a setting is refused. -/
inductive Invalid
  | emptyTag
  /-- A tag that does not start with the mark, or consists of it alone. -/
  | unmarkedTag (value : String)
  | brokenTag (value : String)
  /-- A number that is infinite or not a number. -/
  | notFinite (field : String)
  /-- An interval below one second. -/
  | shortInterval
  /-- An interval of more seconds than a duration can hold. -/
  | longInterval (seconds : Nat)
  /-- A window that does not end after its start. -/
  | emptyWindow
  /-- A divisor override that is not a name, an equals sign and a number. -/
  | malformedDivisor (value : String)
  deriving DecidableEq, Repr

namespace Invalid

def message : Invalid → String
  | .emptyTag => "tag cannot be empty"
  | .unmarkedTag value => "tag must start with '@': " ++ Text.quoted value
  | .brokenTag value => "tag contains whitespace: " ++ Text.quoted value
  | .notFinite field => "field " ++ Text.quoted field ++ " must be finite"
  | .shortInterval => "refresh interval must be at least one second"
  | .longInterval seconds =>
      "refresh interval of " ++ Text.digits seconds ++ " seconds is out of range"
  | .emptyWindow => "window end must be after window start"
  | .malformedDivisor value =>
      "divisor override must look like NAME=VALUE: " ++ Text.quoted value

end Invalid

/-- Why a store cannot answer a read. -/
inductive StoreError
  | unavailable (reason : String)
  | unknownTag (tag : String)
  | unknownEntry (entry : String)
  | unknownColumn (entry column : String)
  deriving DecidableEq, Repr

namespace StoreError

def message : StoreError → String
  | .unavailable reason => reason
  | .unknownTag tag => "tag " ++ Text.quoted tag ++ " does not exist"
  | .unknownEntry entry => "entry " ++ Text.quoted entry ++ " does not exist"
  | .unknownColumn entry column =>
      "column " ++ Text.quoted column ++ " does not exist on entry " ++ Text.quoted entry

end StoreError

/-- Why a catalog, an index or a whole run fails. -/
inductive Failure
  /-- The store cannot be reached. -/
  | storeUnavailable (reason : String)
  | tagMissing (tag : String)
  /-- A series, or one of its columns, is missing. -/
  | entryMissing (entry : String)
  /-- A series has no point in the window, whose bounds are given as texts. -/
  | noData (entry start finish : String)
  /-- A constituent is not a product of the catalog. -/
  | unknownInstrument (index instrument : String)
  | noConstituents (index : String)
  | badDivisor (index : String) (value : Float)
  /-- A value or a setting is refused. -/
  | invalid (cause : Invalid)
  /-- The configuration cannot be read. -/
  | configuration (problem : String)
  | output (problem : String)
  deriving Repr

namespace Failure

def message : Failure → String
  | .storeUnavailable reason => "store unavailable: " ++ reason
  | .tagMissing tag => "required tag " ++ Text.quoted tag ++ " not found in store"
  | .entryMissing entry => "entry " ++ Text.quoted entry ++ " not found in store"
  | .noData entry start finish =>
      "no data for " ++ Text.quoted entry ++ " in window [" ++ start ++ ", " ++ finish ++ ")"
  | .unknownInstrument index instrument =>
      "index " ++ Text.quoted index ++ " references " ++ Text.quoted instrument ++
        " which is not a known product"
  | .noConstituents index => "index " ++ Text.quoted index ++ " has no constituents"
  | .badDivisor index value =>
      "divisor for " ++ Text.quoted index ++ " must be positive and finite, got " ++
        Decimal.plain.write value
  | .invalid cause => cause.message
  | .configuration problem => "invalid configuration: " ++ problem
  | .output problem => problem

/-- The stable code for programs that read reports. -/
def code : Failure → String
  | .storeUnavailable _ => "store.unavailable"
  | .tagMissing _ => "catalog.tag_not_found"
  | .entryMissing _ => "store.entry_not_found"
  | .noData _ _ _ => "fetch.no_data_in_window"
  | .unknownInstrument _ _ => "index.unknown_instrument"
  | .noConstituents _ => "index.no_constituents"
  | .badDivisor _ _ => "config.invalid_divisor"
  | .invalid _ => "validation"
  | .configuration _ => "config.invalid"
  | .output _ => "io"

/-- A later pass may succeed where this one failed. -/
def isTransient : Failure → Bool
  | .storeUnavailable _ => true
  | .noData _ _ _ => true
  | _ => false

/-- What a read that the store cannot answer means for the computation. -/
def ofStore : StoreError → Failure
  | .unavailable reason => .storeUnavailable reason
  | .unknownTag tag => .tagMissing tag
  | .unknownEntry entry => .entryMissing entry
  | .unknownColumn entry column => .entryMissing (entry ++ "." ++ column)

end Failure
end CompositeIndex
