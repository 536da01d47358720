import CompositeIndex.Command.Switch

/-!
# The command line

A command line consists of options, the name of a command, and the options of that command.
The options for the store and for the format may stand on either side of the name; behind it
they have precedence.

The words are read from left to right. The value of an option is checked when the next
option starts or when all words are read, so that an unknown word is reported before a bad
value in front of it. The words of the command are dealt with before the values that are
still open in front of its name.
-/

namespace CompositeIndex
namespace Command

/-- What the command `run` is told. -/
structure RunArguments where
  /-- The seconds between two passes. -/
  interval : Nat := 1
  /-- The values of the constituents are not shown. -/
  hideProducts : Bool := false
  /-- The overrides of divisors, as they are given. -/
  divisors : List String := []
  /-- The file with the configuration of the indexes. -/
  config : Option String := none
  /-- What an index that fails means for its pass. -/
  policy : Refresh.FailurePolicy := .skipIndex
  passes : Option Nat := none
  deriving DecidableEq, Repr

/-- What the command `seed` is told. -/
structure SeedArguments where
  points : Nat := 60
  /-- The seconds between two points. -/
  step : Nat := 60
  seed : Option Nat := none
  deriving DecidableEq, Repr

inductive Task
  | run (arguments : RunArguments)
  | catalog
  | seed (arguments : SeedArguments)
  deriving DecidableEq, Repr

/-- A command line that is understood. -/
structure Arguments where
  /-- The endpoint of the store. -/
  store : Option String := none
  format : FormatName := .text
  /-- What is to be done. -/
  task : Task
  deriving DecidableEq, Repr

namespace Arguments

inductive TaskName
  | run
  | catalog
  | seed
  deriving DecidableEq, Repr

def TaskName.name : TaskName → String
  | .run => "run"
  | .catalog => "catalog"
  | .seed => "seed"

def TaskName.ofName? (name : String) : Option TaskName :=
  [.run, .catalog, .seed].find? fun task => task.name == name

/-- The word in place of a command that asks for help. -/
def helpWord : String := "help"

/-- The word stands for a command, or asks for help. -/
def isTaskWord (word : String) : Bool :=
  word == helpWord || (TaskName.ofName? word).isSome

/-- The options that are known in front of a command (`none`) and behind it. -/
def switchesOf : Option TaskName → List Switch
  | none => [.store, .format, .help, .version]
  | some .run =>
      [.store, .format, .interval, .hideProducts, .divisor, .config, .onError, .passes, .help]
  | some .catalog => [.store, .format, .help]
  | some .seed => [.store, .format, .points, .step, .seed, .help]

/-! ## Reading options -/

/-- What has been read of the options of one side. -/
structure Gathered where
  /-- The options that are complete, in order. -/
  given : List (Switch × String) := []
  /-- An option that may still be incomplete, with the value that it has. -/
  pending : Option (Switch × Option String) := none

namespace Gathered

def has (gathered : Gathered) (switch : Switch) : Bool :=
  gathered.given.any fun entry => entry.1 == switch

def give (gathered : Gathered) (switch : Switch) (value : String) : Except UsageError Gathered :=
  if gathered.has switch && !switch.isRepeatable then .error .repeated
  else
    (switch.check value).map fun _ =>
      { gathered with given := gathered.given ++ [(switch, value)] }

/-- Completes the option that is still open. -/
def settle (gathered : Gathered) : Except UsageError Gathered :=
  let closed := { gathered with pending := none }
  match gathered.pending with
  | none => .ok closed
  | some (_, none) => .error .badValue
  | some (switch, some value) => closed.give switch value

/-- The option whose value comes next. -/
def awaiting (gathered : Gathered) : Option Switch :=
  match gathered.pending with
  | some (switch, none) => some switch
  | _ => none

def start (gathered : Gathered) (switch : Switch) : Except UsageError Gathered :=
  gathered.settle.map fun settled => { settled with pending := some (switch, none) }

def follow (gathered : Gathered) (switch : Switch) : Except UsageError Gathered := do
  let settled ← gathered.settle
  match switch with
  | .help => throw .helpRequested
  | .version => throw .versionRequested
  | switch => settled.give switch "true"

def value? (gathered : Gathered) (switch : Switch) : Option String :=
  (gathered.given.find? fun entry => entry.1 == switch).map (·.2)

def values (gathered : Gathered) (switch : Switch) : List String :=
  (gathered.given.filter fun entry => entry.1 == switch).map (·.2)

def number? (gathered : Gathered) (switch : Switch) : Option Nat :=
  (gathered.value? switch).bind Command.number?

end Gathered

/-- What a word looks like. -/
inductive Word
  /-- Two hyphens, behind which nothing is an option. -/
  | divider
  /-- A long option, with the value that is attached to it. -/
  | long (name : String) (attached : Option String)
  | short (letters : List Char)
  /-- Anything else. -/
  | plain (text : String)
  deriving DecidableEq, Repr

/-- Splits a long option at its first equals sign. -/
def splitAttached (chars : List Char) : String × Option String :=
  (String.ofList (chars.takeWhile (· != '=')),
    match chars.dropWhile (· != '=') with
    | [] => none
    | _ :: value => some (String.ofList value))

def Word.ofText (text : String) : Word :=
  match text.toList with
  | '-' :: '-' :: [] => .divider
  | '-' :: '-' :: rest => .long (splitAttached rest).1 (splitAttached rest).2
  | '-' :: letter :: rest => .short (letter :: rest)
  | _ => .plain text

def followLong
    (side : Option TaskName)
    (gathered : Gathered)
    (name : String)
    (attached : Option String) : Except UsageError Gathered :=
  match (switchesOf side).find? fun switch => switch.name == name with
  | none => .error .unexpected
  | some switch =>
      match switch.takesValue, attached with
      | true, none => gathered.start switch
      | true, some value => gathered.settle.bind fun settled => settled.give switch value
      | false, none => gathered.follow switch
      | false, some _ => .error .needlessValue

/-- Follows short options. The only ones ask for help or for the version, so that the first
letter decides. -/
def followShort
    (side : Option TaskName)
    (gathered : Gathered) : List Char → Except UsageError Gathered
  | 'h' :: _ => gathered.follow .help
  | 'V' :: _ => if side.isNone then gathered.follow .version else .error .unexpected
  | _ => .error .unexpected

/-- What is wrong with a word that nothing waits for. -/
def surplus (side : Option TaskName) (isDivided : Bool) (text : String) : UsageError :=
  match side with
  | some _ => .unexpected
  | none => if isDivided && isTaskWord text then .unexpected else .commandUnknown

/-- Where reading one side of the command line stops. -/
inductive Stop
  /-- All words are read. -/
  | atEnd (gathered : Gathered)
  /-- The name of a command, or the word for help, with the words behind it. -/
  | atTask (gathered : Gathered) (word : String) (behind : List String)

/-- Reads the words of one side. Only in front of the command a word can be its name. -/
def readWords
    (side : Option TaskName) :
    List String → (isDivided : Bool) → Gathered → Except UsageError Stop
  | [], _, gathered => .ok (.atEnd gathered)
  | text :: behind, isDivided, gathered =>
      if isDivided then .error (surplus side isDivided text)
      else if side.isNone && gathered.awaiting.isNone && isTaskWord text then
        .ok (.atTask gathered text behind)
      else
        match Word.ofText text with
        | .divider => readWords side behind true gathered
        | .long name attached =>
            (followLong side gathered name attached).bind fun gathered =>
              readWords side behind false gathered
        | .short letters =>
            (followShort side gathered letters).bind fun gathered =>
              readWords side behind false gathered
        | .plain text =>
            match gathered.awaiting with
            | some switch =>
                readWords side behind false
                  { gathered with pending := some (switch, some text) }
            | none => .error (surplus side isDivided text)

/-! ## Making sense of the options -/

/-- The command that the options behind its name describe. -/
def taskOf (name : TaskName) (gathered : Gathered) : Task :=
  match name with
  | .catalog => .catalog
  | .run =>
      .run
        { interval := (gathered.number? .interval).getD 1
          hideProducts := gathered.has .hideProducts
          divisors := gathered.values .divisor
          config := gathered.value? .config
          policy := ((gathered.value? .onError).bind policyOfName?).getD .skipIndex
          passes := gathered.number? .passes }
  | .seed =>
      .seed
        { points := (gathered.number? .points).getD 60
          step := (gathered.number? .step).getD 60
          seed := gathered.number? .seed }

/-- The value of an option that may stand on either side; behind the command it has
precedence. -/
def eitherSide (before behind : Gathered) (switch : Switch) : Option String :=
  (behind.value? switch).or (before.value? switch)

def readTask (name : TaskName) (words : List String) : Except UsageError Gathered := do
  match ← readWords (some name) words false {} with
  | .atEnd gathered => gathered.settle
  | .atTask _ _ _ => throw .unexpected

/-- What asking for help about a command leads to. -/
def helpAbout : List String → UsageError
  | [] => .helpRequested
  | [word] => if isTaskWord word then .helpRequested else .commandUnknown
  | _ => .commandUnknown

def parse (words : List String) : Except UsageError Arguments := do
  match ← readWords none words false {} with
  | .atEnd before =>
      let before ← before.settle
      throw (if before.given.isEmpty then .nothingGiven else .commandMissing)
  | .atTask before word behind =>
      match TaskName.ofName? word with
      | none => throw (helpAbout behind)
      | some name =>
          let behind ← readTask name behind
          let before ← before.settle
          pure
            { store := eitherSide before behind .store
              format :=
                ((eitherSide before behind .format).bind FormatName.ofName?).getD .text
              task := taskOf name behind }

end Arguments
end Command
end CompositeIndex
