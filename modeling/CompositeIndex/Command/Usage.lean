import CompositeIndex.Command.Arguments
import CompositeIndex.Output.Console

/-!
# What is said about the command line

Help names the commands and the options of one side. A command line that is not understood
is answered with the reason.
-/

namespace CompositeIndex
namespace Command

def programName : String := "tickdex"

def version : String := "0.1.0"

def purpose : String :=
  "Compute price-weighted composite indexes from a tagged time-series store"

def Switch.purpose : Switch → String
  | .store => "Store endpoint, duckdb://<path> or a bare file path"
  | .format => "Output format for reports: text (default) or ndjson"
  | .interval => "Number of seconds between each refresh (default 1)"
  | .hideProducts => "Hide the value of each product"
  | .divisor => "Divisor of one index as NAME=VALUE, repeatable"
  | .config => "JSON file with default divisor, per-index divisors and constituents"
  | .onError => "What to do with the rest of a failed pass: skip (default) or abort"
  | .passes => "Stop after this many passes instead of running until interrupted"
  | .points => "Points written per product (default 60)"
  | .step => "Seconds between consecutive points (default 60)"
  | .seed => "Fixed random seed for reproducible data"
  | .help => "Print help"
  | .version => "Print version"

def Arguments.TaskName.purpose : Arguments.TaskName → String
  | .run => "Recompute every index, pass after pass"
  | .catalog => "Print the groups of the store with their entries"
  | .seed => "Write the demonstration data set"

namespace Usage

/-- The width of the names in a list. -/
def nameWidth : Nat := 24

def item (name purpose : String) : String :=
  "  " ++ Text.padRight ' ' nameWidth name ++ purpose

def switchItem (switch : Switch) : String :=
  item ("--" ++ switch.name ++ (if switch.takesValue then " <VALUE>" else "")) switch.purpose

def taskItem (task : Arguments.TaskName) : String :=
  item task.name task.purpose

/-- The commands with a heading. -/
def tasks : List String :=
  ["", "Commands:"] ++ [.run, .catalog, .seed].map taskItem

/-- The options of a side with a heading. -/
def switches (side : Option Arguments.TaskName) : List String :=
  ["", "Options:"] ++ (Arguments.switchesOf side).map switchItem

/-- The help about the whole command line (`none`) or about one command. -/
def help : Option Arguments.TaskName → List String
  | none =>
      [purpose, "", "Usage: " ++ programName ++ " [OPTIONS] <COMMAND>"] ++ tasks ++
        switches none
  | some task =>
      [task.purpose, "", "Usage: " ++ programName ++ " " ++ task.name ++ " [OPTIONS]"] ++
        switches (some task)

/-- The command that words are about. -/
def taskOf (words : List String) : Option Arguments.TaskName :=
  words.findSome? Arguments.TaskName.ofName?

end Usage

namespace UsageError

/-- The command line asks for something that is shown. -/
def isRequest : UsageError → Bool
  | .helpRequested => true
  | .versionRequested => true
  | _ => false

def exitCode (error : UsageError) : Nat :=
  if error.isRequest then 0 else 2

/-- What is wrong with the command line. -/
def reason : UsageError → String
  | .helpRequested => "help is requested"
  | .versionRequested => "the version is requested"
  | .nothingGiven => "nothing is given"
  | .commandMissing => "a command is missing"
  | .commandUnknown => "the command is not known"
  | .unexpected => "an argument is not expected at its place"
  | .badValue => "an option has no value, or none of its possible values"
  | .badNumber => "a number is malformed or out of range"
  | .repeated => "an option is repeated that may be given once"
  | .needlessValue => "an option has a value that it does not take"

/-- The lines that answer the words of a command line. -/
def answer (words : List String) : UsageError → List String
  | .helpRequested => Usage.help (Usage.taskOf words)
  | .versionRequested => [programName ++ " " ++ version]
  | .nothingGiven => Usage.help none
  | error => ["error: " ++ error.reason, "", "For more information, try '--help'."]

/-- The text that answers the words of a command line. -/
def message (words : List String) (error : UsageError) : String :=
  Output.Console.lines (error.answer words)

end UsageError
end Command
end CompositeIndex
