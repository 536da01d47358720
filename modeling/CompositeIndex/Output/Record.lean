import CompositeIndex.Output.Console
import CompositeIndex.Output.RunId

/-!
# Records for programs

Every event is one JSON object on a line of its own; a catalog has a line for each of its
groups. The reports of a run carry its identifier.
-/

namespace CompositeIndex
namespace Output
namespace Record

/-- The record of a report. -/
def report (id : RunId) : Refresh.Report → Json
  | .computed pass value =>
      .object
        ([("event", .text "index"), ("run_id", .text id.text), ("pass", .count pass)] ++
          value.members)
  | .failed pass index failure =>
      .object
        [("event", .text "index_error"), ("run_id", .text id.text), ("pass", .count pass),
          ("index", .text index), ("code", .text failure.code),
          ("message", .text failure.message)]
  | .finished given =>
      .object
        [("event", .text "pass"), ("run_id", .text id.text), ("pass", .count given.pass),
          ("computed", .count given.computed), ("failed", .count given.failed),
          ("aborted", .boolean given.aborted)]

/-- The record of a group. -/
def group (group : Tag × List String) : Json :=
  .object
    [("event", .text "tag"), ("tag", .text group.1.text), ("entries", .texts group.2)]

/-- The records of an event. -/
def event (id : RunId) : Event → List Json
  | .report given => [report id given]
  | .catalog catalog => catalog.toList.map group
  | .seeded store given =>
      [.object
        [("event", .text "seed"), ("store", .text store), ("index", .text given.index),
          ("products", .count given.products), ("points", .count given.points)]]

def render (id : RunId) (given : Event) : String :=
  Console.lines ((event id given).map Json.render)

end Record

/-- How events are written. -/
inductive Format
  | console
  | records (id : RunId)
  deriving DecidableEq, Repr

def Format.render : Format → Event → String
  | .console, event => Console.render event
  | .records id, event => Record.render id event

end Output
end CompositeIndex
