import CompositeIndex.Command.Path
import CompositeIndex.Index.Config
import CompositeIndex.Warehouse.Session
import CompositeIndex.Warehouse.Snapshot

/-!
# The files that commands work on

Commands read a configuration and open a store. What a path leads to is a text, a file that
is no text, a store or a directory.

A path is followed from left to right, so that the first name that cannot be followed
decides what is said about it.
-/

namespace CompositeIndex
namespace Command

/-- What a path leads to. -/
inductive Node
  | text (content : String)
  | bytes
  | store (tables : Warehouse)
  | directory

/-- What a file of the given bytes is. -/
def Node.ofBytes (bytes : ByteArray) : Node :=
  match String.fromUTF8? bytes with
  | none => .bytes
  | some content =>
      match Warehouse.Snapshot.parse? content with
      | some tables => .store tables
      | none => .text content

/-- The files that a command may meet. -/
structure Workspace where
  nodes : Std.ExtTreeMap Path Node := ∅

namespace Workspace

def empty : Workspace := {}

/-- What a path leads to, if it leads to anything. -/
def node? (workspace : Workspace) (path : Path) : Option Node :=
  if path.isAbove then some .directory else workspace.nodes[path]?

/-- Puts something at a path. What is above it are directories from then on. -/
def put (workspace : Workspace) (path : Path) (node : Node) : Workspace :=
  ⟨path.ancestors.foldl (fun nodes above => nodes.insertIfNew above .directory)
    (workspace.nodes.insert path node)⟩

/-- The names in the current directory, in ascending order. -/
def topNames (workspace : Workspace) : List String :=
  Names.normalize
    ((workspace.nodes.keys.filterMap List.head?).filter fun name => !Path.isAbove [name])

/-! ## Reading -/

/-- Follows parts from a path on. In front of every part there has to be a directory. -/
def follow (workspace : Workspace) : Path → List String → Except FileFault Path
  | here, [] => .ok here
  | here, part :: parts =>
      match workspace.node? here with
      | none => .error .notFound
      | some .directory =>
          if Path.isTooLong part then .error .nameTooLong
          else workspace.follow (here.enter part) parts
      | some _ => .error .notADirectory

/-- The path that a text leads along. -/
def resolve (workspace : Workspace) (text : String) : Except FileFault Path :=
  match Path.fault? text with
  | some fault => .error fault
  | none => workspace.follow (Path.startOf text) (Path.partsOf text)

/-- The text at the end of a path. -/
def textOf : Option Node → Except FileFault String
  | none => .error .notFound
  | some .directory => .error .isADirectory
  | some .bytes => .error .notText
  | some (.store _) => .error .notText
  | some (.text content) => .ok content

def readText (workspace : Workspace) (name : String) : IndexConfig.FileContent :=
  match (workspace.resolve name).bind fun path => textOf (workspace.node? path) with
  | .ok content => .text content
  | .error fault => .unreadable fault.message

/-! ## Making directories -/

/-- Makes directories of all parts from a path on. Whatever is made before a fault remains.
As soon as one directory is made, the others follow one by one, so that something else in
the place of one is always the last part of what is asked for. -/
def makeAlong
    (workspace : Workspace)
    (isMaking : Bool) : Path → List String → Except FileFault Unit × Workspace
  | _, [] => (.ok (), workspace)
  | here, part :: parts =>
      let next := here.enter part
      if Path.isTooLong part then (.error .nameTooLong, workspace)
      else
        match workspace.node? next with
        | none => (workspace.put next .directory).makeAlong true next parts
        | some .directory => workspace.makeAlong isMaking next parts
        | some _ =>
            (.error (if isMaking || parts.isEmpty then .fileExists else .notADirectory),
              workspace)

/-- Makes the directories in which a file lies. -/
def makeDirectories (workspace : Workspace) (name : String) :
    Except FileFault Unit × Workspace :=
  let directory := Path.directoryText name
  if directory.isEmpty then (.ok (), workspace)
  else
    match Path.fault? directory with
    | some fault => (.error fault, workspace)
    | none =>
        workspace.makeAlong false (Path.startOf directory)
          ((Path.partsOf directory).filter fun part => !Path.isIdle part)

/-! ## Opening stores -/

/-- What is said about a store that cannot be opened. -/
def cannotOpen (path reason : String) : WarehouseError :=
  .database ("cannot open " ++ Text.quoted path ++ ": " ++ reason)

/-- The tables that a store has when it is opened. A store that does not exist yet has
none. -/
def tablesAt (workspace : Workspace) (location : Location) : Except WarehouseError Warehouse :=
  match workspace.resolve location.path with
  | .error fault => .error (cannotOpen location.path fault.message)
  | .ok path =>
      match workspace.node? path with
      | none => .ok Warehouse.empty
      | some (.store tables) => .ok tables
      | some .directory => .error (cannotOpen location.path FileFault.isADirectory.message)
      | some _ => .error (cannotOpen location.path "not a warehouse")

/-- Puts the tables of a store back; those of a store in memory are gone. -/
def keep (workspace : Workspace) (location : Location) (tables : Warehouse) : Workspace :=
  if location.isInMemory then workspace
  else workspace.put (Path.ofText location.path) (.store tables)

def openFile
    (workspace : Workspace)
    (location : Location) : Except WarehouseError (Attempt Unit) × Workspace :=
  match workspace.tablesAt location with
  | .error error => (.error error, workspace)
  | .ok tables =>
      let attempt := Warehouse.openAt location tables
      (.ok attempt, workspace.keep location attempt.warehouse)

/-- Opens the store at a location, creating it and the directories above it if needed. -/
def openStore
    (workspace : Workspace)
    (location : Location) : Except WarehouseError (Attempt Unit) × Workspace :=
  if location.isInMemory then (.ok (Warehouse.create location), workspace)
  else
    match workspace.makeDirectories location.path with
    | (.error fault, workspace) => (.error (.file fault.message), workspace)
    | (.ok (), workspace) => workspace.openFile location

end Workspace
end Command
end CompositeIndex
