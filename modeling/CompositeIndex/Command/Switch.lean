import CompositeIndex.Decimal.Literal
import CompositeIndex.Refresh.Schedule

/-!
# The options of the command line

Every option has a long name. Most take one value, which is checked when the option is
complete.
-/

namespace CompositeIndex
namespace Command

/-- Why the command line is not understood, or asks for nothing but help. -/
inductive UsageError
  | helpRequested
  | versionRequested
  | nothingGiven
  | commandMissing
  | commandUnknown
  | unexpected
  /-- An option without its value, or with one that is not among the possible ones. -/
  | badValue
  /-- A number that is none, or is out of range. -/
  | badNumber
  /-- An option that may be given once is repeated. -/
  | repeated
  | needlessValue
  deriving DecidableEq, Repr

inductive FormatName
  | text
  | ndjson
  deriving DecidableEq, Repr

def FormatName.name : FormatName → String
  | .text => "text"
  | .ndjson => "ndjson"

def FormatName.ofName? (name : String) : Option FormatName :=
  [.text, .ndjson].find? fun format => format.name == name

def policyName : Refresh.FailurePolicy → String
  | .skipIndex => "skip"
  | .abortPass => "abort"

def policyOfName? (name : String) : Option Refresh.FailurePolicy :=
  [.skipIndex, .abortPass].find? fun policy => policyName policy == name

/-- Reads a number below `2 ^ 64`, which may have a plus sign. -/
def number? (text : String) : Option Nat :=
  let digits :=
    match text.toList with
    | '+' :: rest => rest
    | chars => chars
  if digits.isEmpty || !digits.all Char.isDigit then none
  else
    let value := Decimal.Literal.digitsValue 0 digits
    if value < Nat.pow 2 64 then some value else none

/-- An option of the command line. -/
inductive Switch
  | store
  | format
  | interval
  | hideProducts
  | divisor
  | config
  | onError
  | passes
  | points
  | step
  | seed
  | help
  | version
  deriving DecidableEq, Repr

namespace Switch

def name : Switch → String
  | .store => "store"
  | .format => "format"
  | .interval => "interval"
  | .hideProducts => "hide-products"
  | .divisor => "divisor"
  | .config => "config"
  | .onError => "on-error"
  | .passes => "passes"
  | .points => "points"
  | .step => "step"
  | .seed => "seed"
  | .help => "help"
  | .version => "version"

def takesValue : Switch → Bool
  | .hideProducts => false
  | .help => false
  | .version => false
  | _ => true

def isRepeatable (switch : Switch) : Bool :=
  switch == .divisor

/-- Accepts a number from `least` on. -/
def checkNumber (least : Nat) (value : String) : Except UsageError Unit :=
  match number? value with
  | some number => if least ≤ number then .ok () else .error .badNumber
  | none => .error .badNumber

/-- Accepts a value that there is. -/
def checkKnown (meant : Option α) : Except UsageError Unit :=
  match meant with
  | some _ => .ok ()
  | none => .error .badValue

def check (switch : Switch) (value : String) : Except UsageError Unit :=
  match switch with
  | .format => checkKnown (FormatName.ofName? value)
  | .onError => checkKnown (policyOfName? value)
  | .config => if value.isEmpty then .error .badValue else .ok ()
  | .interval => checkNumber 0 value
  | .passes => checkNumber 1 value
  | .points => checkNumber 0 value
  | .step => checkNumber 0 value
  | .seed => checkNumber 0 value
  | _ => .ok ()

end Switch
end Command
end CompositeIndex
