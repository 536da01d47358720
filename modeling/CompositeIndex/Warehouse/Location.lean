import CompositeIndex.Text.Blank
import CompositeIndex.Warehouse.Error

/-!
# Where a warehouse lies

A warehouse is a file, or lies in memory only. It is named by an endpoint: a path, with or
without the scheme in front. Without an endpoint it lies in the home directory of the
program, which the environment may set.
-/

namespace CompositeIndex

/-- The settings of the environment that say where the program keeps its data. -/
structure Environment where
  /-- The home directory of the program. -/
  programHome : Option String := none
  userHome : Option String := none

/-- Joins a name to a path; a path without any text is the current directory. -/
def joinPath (path name : String) : String :=
  if path.isEmpty then name
  else if path.toList.getLast? = some '/' then path ++ name
  else path ++ "/" ++ name

/-- The directory in which the program keeps its data. -/
def Environment.dataHome (environment : Environment) : String :=
  match environment.programHome.filter fun path => !path.isEmpty with
  | some path => path
  | none =>
      match environment.userHome with
      | some path => joinPath path ".tickdex"
      | none => ".tickdex"

/-- Where a warehouse lies. -/
structure Location where
  /-- The directory in which the program keeps its data. -/
  home : String
  /-- The path of the file. -/
  path : String
  /-- The number of idle connections that are kept. -/
  idleLimit : Nat := 4
  deriving DecidableEq, Repr

namespace Location

/-- The path that stands for a warehouse in memory. -/
def memoryPath : String := ":memory:"

/-- What stands in front of the path in an endpoint. -/
def scheme : String := "duckdb://"

/-- What stands between a scheme and what it applies to. -/
def schemeEnd : String := "://"

/-- The warehouse of an environment when no endpoint is given. -/
def default (environment : Environment) : Location where
  home := environment.dataHome
  path := joinPath (joinPath environment.dataHome "cache") "warehouse.duckdb"

def inMemory (environment : Environment) : Location :=
  { default environment with path := memoryPath }

def isInMemory (location : Location) : Bool :=
  location.path == memoryPath

/-- The text without the one in front of it, or the text itself. -/
def withoutFront (front text : List Char) : List Char :=
  if front.isPrefixOf text then text.drop front.length else text

/-- One text occurs inside another one. -/
def occursIn (part : List Char) : List Char → Bool
  | [] => part.isEmpty
  | char :: rest => part.isPrefixOf (char :: rest) || occursIn part rest

/-- The path that an endpoint names, if it names one. Blanks around the endpoint do not
count; another scheme is refused. -/
def endpointPath? (endpoint : String) : Option String :=
  let path := withoutFront scheme.toList (Text.trimChars endpoint.toList)
  if path.isEmpty || occursIn schemeEnd.toList path then none
  else some (String.ofList path)

/-- The warehouse that an endpoint names. -/
def ofEndpoint
    (environment : Environment)
    (endpoint : String) : Except WarehouseError Location :=
  match endpointPath? endpoint with
  | some path => .ok { default environment with path }
  | none => .error (.badEndpoint endpoint)

/-- The endpoint of the warehouse that an environment has by default. -/
def defaultEndpoint (environment : Environment) : String :=
  scheme ++ (default environment).path

end Location
end CompositeIndex
