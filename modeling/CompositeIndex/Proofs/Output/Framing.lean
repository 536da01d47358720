import CompositeIndex.Output.Sink
import CompositeIndex.Proofs.Json.Fields
import CompositeIndex.Proofs.Text.ByteOrder

/-!
# The framing of records

The records of events make up a stream of bytes. Splitting it at the line ends gives the records
one by one, whatever names and messages stand in them, and each line is read back as what was
written: its kind and exactly its fields. Streams of different content are therefore different.
-/

namespace CompositeIndex
namespace Output

open Json (ReadsBack Readable)

/-! ## Entries -/

/-- What one record says. -/
inductive Entry
  | computed
      (runId : String) (pass : Nat) (index : String) (value sum divisor : Float)
      (start finish : String) (constituents : Option (List (String × Float)))
  | failed (runId : String) (pass : Nat) (index code message : String)
  | finished (runId : String) (pass computed failed : Nat) (aborted : Bool)
  | group (tag : String) (entries : List String)
  | seeded (store index : String) (products points : Nat)

namespace Entry

/-- The constituents are told if there are any. -/
def constituentsOf (value : IndexValue) : Option (List (String × Float)) :=
  if value.constituents.isEmpty then none
  else some (value.constituents.map fun constituent => (constituent.instrument, constituent.value))

def ofReport (id : RunId) : Refresh.Report → Entry
  | .computed pass value =>
      .computed id.text pass value.index value.value value.sum value.divisor
        value.window.startText value.window.finishText (constituentsOf value)
  | .failed pass index failure => .failed id.text pass index failure.code failure.message
  | .finished given => .finished id.text given.pass given.computed given.failed given.aborted

/-- What an event says. A catalog says something about each of its groups. -/
def ofEvent (id : RunId) : Event → List Entry
  | .report given => [ofReport id given]
  | .catalog catalog => catalog.toList.map fun listed => .group listed.1.text listed.2
  | .seeded store given => [.seeded store given.index given.products given.points]

/-! ## Reading entries -/

/-- The names of the fields, in their order. -/
def fields : Entry → List String
  | .computed _ _ _ _ _ _ _ _ constituents =>
      ["event", "run_id", "pass", "index", "value", "sum", "divisor", "window"] ++
        if constituents.isSome then ["constituents"] else []
  | .failed .. => ["event", "run_id", "pass", "index", "code", "message"]
  | .finished .. => ["event", "run_id", "pass", "computed", "failed", "aborted"]
  | .group .. => ["event", "tag", "entries"]
  | .seeded .. => ["event", "store", "index", "products", "points"]

def constituent? : Json → Option (String × Float)
  | .object [("instrument", .text instrument), ("value", value)] =>
      value.measure?.map fun value => (instrument, value)
  | _ => none

/-- The bounds of a window. -/
def window? : Json → Option (String × String)
  | .object [("start", .text start), ("end", .text finish)] => some (start, finish)
  | _ => none

section

variable (members : List (String × Json))

def text? (name : String) : Option String :=
  (Json.field? members name).bind Json.text?

def count? (name : String) : Option Nat :=
  (Json.field? members name).bind Json.count?

def measure? (name : String) : Option Float :=
  (Json.field? members name).bind Json.measure?

def computed? : Option Entry := do
  let (start, finish) ← (Json.field? members "window").bind window?
  let constituents ←
    match Json.field? members "constituents" with
    | none => pure none
    | some json => (json.items? constituent?).map some
  pure (.computed (← text? members "run_id") (← count? members "pass") (← text? members "index")
    (← measure? members "value") (← measure? members "sum") (← measure? members "divisor")
    start finish constituents)

def failed? : Option Entry := do
  pure (.failed (← text? members "run_id") (← count? members "pass") (← text? members "index")
    (← text? members "code") (← text? members "message"))

def finished? : Option Entry := do
  pure (.finished (← text? members "run_id") (← count? members "pass")
    (← count? members "computed") (← count? members "failed")
    (← (Json.field? members "aborted").bind Json.boolean?))

def group? : Option Entry := do
  pure (.group (← text? members "tag")
    (← (Json.field? members "entries").bind fun entries => entries.items? Json.text?))

def seeded? : Option Entry := do
  pure (.seeded (← text? members "store") (← text? members "index") (← count? members "products")
    (← count? members "points"))

/-- Reads an entry of the kind that the field `event` names. -/
def ofMembers? : Option Entry :=
  match text? members "event" with
  | some "index" => computed? members
  | some "index_error" => failed? members
  | some "pass" => finished? members
  | some "tag" => group? members
  | some "seed" => seeded? members
  | _ => none

end

/-- Reads an object that has the fields of an entry, and no others. -/
def ofJson? : Json → Option Entry
  | .object members =>
      (ofMembers? members).filter fun entry => members.map Prod.fst == entry.fields
  | _ => none

/-- Reads a line. -/
def read? (line : String) : Option Entry :=
  (Json.read line).toOption.bind ofJson?

end Entry

/-! ## What is written is read -/

/-- The doubles that an event shows. -/
def Event.measures : Event → List Float
  | .report (.computed _ value) =>
      [value.value, value.sum, value.divisor] ++
        value.constituents.map fun constituent => constituent.value
  | _ => []

/-- All doubles that the event shows are finite, and the texts that they are written as lead back
to them. -/
def Event.IsLegible (event : Event) : Prop :=
  ∀ value ∈ event.measures, value.isFinite = true ∧ ReadsBack value

namespace Entry

theorem constituent?_toJson
    {constituent : ConstituentValue}
    (finite : constituent.value.isFinite = true)
    (readsBack : ReadsBack constituent.value) :
    constituent? constituent.toJson = some (constituent.instrument, constituent.value) := by
  simp [constituent?, ConstituentValue.toJson, Json.measure?_measure finite readsBack]

theorem ofJson?_computed
    {pass : Nat} {value : IndexValue}
    (legible : Event.IsLegible (.report (.computed pass value)))
    (id : RunId) :
    ofJson? (Record.report id (.computed pass value)) =
      some (ofReport id (.computed pass value)) := by
  obtain ⟨common, own⟩ := List.forall_mem_append.mp legible
  simp only [List.forall_mem_cons, List.forall_mem_map] at common own
  obtain ⟨isValue, isSum, isDivisor, _⟩ := common
  have constituents : (Json.array (value.constituents.map ConstituentValue.toJson)).items?
      constituent? = some (value.constituents.map fun constituent =>
        (constituent.instrument, constituent.value)) :=
    Json.items?_map fun constituent member =>
      constituent?_toJson (own constituent member).1 (own constituent member).2
  cases empty : value.constituents.isEmpty <;>
    simp [Record.report, ofReport, ofJson?, ofMembers?, computed?, IndexValue.members, empty,
      constituentsOf, constituents, text?, count?, measure?, window?, Window.toJson, Json.field?,
      Json.text?, Json.count?_count, Json.measure?_measure isValue.1 isValue.2,
      Json.measure?_measure isSum.1 isSum.2, Json.measure?_measure isDivisor.1 isDivisor.2,
      List.lookup_cons, List.lookup_nil, fields]

theorem ofJson?_failed (id : RunId) (pass : Nat) (index : String) (failure : Failure) :
    ofJson? (Record.report id (.failed pass index failure)) =
      some (ofReport id (.failed pass index failure)) := by
  simp [Record.report, ofReport, ofJson?, ofMembers?, failed?, text?, count?, Json.field?,
    Json.text?, Json.count?_count, List.lookup_cons, fields]

theorem ofJson?_finished (id : RunId) (given : Refresh.PassReport) :
    ofJson? (Record.report id (.finished given)) = some (ofReport id (.finished given)) := by
  simp [Record.report, ofReport, ofJson?, ofMembers?, finished?, text?, count?, Json.field?,
    Json.text?, Json.boolean?, Json.count?_count, List.lookup_cons, fields]

theorem ofJson?_group (listed : Tag × List String) :
    ofJson? (Record.group listed) = some (.group listed.1.text listed.2) := by
  simp [Record.group, ofJson?, ofMembers?, group?, text?, Json.field?, Json.text?,
    Json.items?_texts, List.lookup_cons, fields]

theorem ofJson?_event
    {event : Event}
    (legible : event.IsLegible)
    (id : RunId) :
    (Record.event id event).map ofJson? = (ofEvent id event).map some := by
  cases event with
  | report given =>
      cases given with
      | computed pass value => exact congrArg (fun entry => [entry]) (ofJson?_computed legible id)
      | failed pass index failure =>
          exact congrArg (fun entry => [entry]) (ofJson?_failed id pass index failure)
      | finished given => exact congrArg (fun entry => [entry]) (ofJson?_finished id given)
  | catalog catalog =>
      simp only [Record.event, ofEvent, List.map_map]
      exact List.map_congr_left fun listed _ => ofJson?_group listed
  | seeded store given =>
      simp [Record.event, ofEvent, ofJson?, ofMembers?, seeded?, text?, count?, Json.field?,
        Json.text?, Json.count?_count, List.lookup_cons, fields]

end Entry

/-! ## Lines -/

theorem readable_constituent
    {constituent : ConstituentValue}
    (finite : constituent.value.isFinite = true)
    (readsBack : ReadsBack constituent.value)
    (depth : Nat) :
    Readable (depth + 1) constituent.toJson := by
  refine .object ?_
  simp only [List.forall_mem_cons]
  exact ⟨.text, Json.readable_measure _ finite readsBack, nofun⟩

theorem readable_window (window : Window) (depth : Nat) : Readable (depth + 1) window.toJson := by
  refine .object ?_
  simp only [List.forall_mem_cons]
  exact ⟨.text, .text, nofun⟩

theorem readable_computed
    {pass : Nat} {value : IndexValue}
    (legible : Event.IsLegible (.report (.computed pass value)))
    (id : RunId) :
    Readable Json.depthLimit (Record.report id (.computed pass value)) := by
  obtain ⟨common, own⟩ := List.forall_mem_append.mp legible
  simp only [List.forall_mem_cons, List.forall_mem_map] at common own
  obtain ⟨isValue, isSum, isDivisor, _⟩ := common
  refine .object (List.forall_mem_append.mpr ⟨?_, List.forall_mem_append.mpr ⟨?_, ?_⟩⟩)
  · simp only [List.forall_mem_cons]
    exact ⟨.text, .text, Json.readable_count _ _, nofun⟩
  · simp only [List.forall_mem_cons]
    exact ⟨.text, Json.readable_measure _ isValue.1 isValue.2,
      Json.readable_measure _ isSum.1 isSum.2, Json.readable_measure _ isDivisor.1 isDivisor.2,
      readable_window _ _, nofun⟩
  · split
    · exact nofun
    · simp only [List.forall_mem_cons]
      refine ⟨.array fun json member => ?_, nofun⟩
      obtain ⟨constituent, isConstituent, rfl⟩ := List.mem_map.mp member
      obtain ⟨finite, readsBack⟩ := own constituent isConstituent
      exact readable_constituent finite readsBack _

theorem readable_event
    {event : Event}
    (legible : event.IsLegible)
    (id : RunId) :
    ∀ json ∈ Record.event id event, Readable Json.depthLimit json := by
  intro json member
  cases event with
  | report given =>
      cases List.mem_singleton.mp member
      cases given with
      | computed pass value => exact readable_computed legible id
      | failed pass index failure =>
          refine .object ?_
          simp only [List.forall_mem_cons]
          exact ⟨.text, .text, Json.readable_count _ _, .text, .text, .text, nofun⟩
      | finished given =>
          refine .object ?_
          simp only [List.forall_mem_cons]
          exact ⟨.text, .text, Json.readable_count _ _, Json.readable_count _ _,
            Json.readable_count _ _, .boolean, nofun⟩
  | catalog catalog =>
      obtain ⟨listed, _, rfl⟩ := List.mem_map.mp member
      refine .object ?_
      simp only [List.forall_mem_cons]
      exact ⟨.text, .text, Json.readable_texts _ _, nofun⟩
  | seeded store given =>
      cases List.mem_singleton.mp member
      refine .object ?_
      simp only [List.forall_mem_cons]
      exact ⟨.text, .text, .text, Json.readable_count _ _, Json.readable_count _ _, nofun⟩

/-! ## The stream -/

/-- The byte between lines. -/
def lineEnd : UInt8 := 10

theorem lineEnd_not_mem_utf8EncodeChar
    {char : Char}
    (notControl : 32 ≤ char.toNat) :
    lineEnd ∉ String.utf8EncodeChar char := by
  have bound : char.val.toNat < 0x110000 := by
    rcases char.valid with small | ⟨_, small⟩
    · exact Nat.lt_trans small (by decide)
    · exact small
  change 32 ≤ char.val.toNat at notControl
  simp only [String.utf8EncodeChar, lineEnd]
  generalize char.val.toNat = code at notControl bound
  -- a single byte is the code itself, and the bytes of a wider encoding are at least 128
  repeat' split
  all_goals
    simp (disch := omega) only [List.mem_cons, List.not_mem_nil, or_false, ← UInt8.toNat_inj,
      UInt8.toNat_ofNat', Nat.mod_eq_of_lt, UInt8.toNat_ofNat]
    omega

theorem lineEnd_not_mem_bytes
    {text : String}
    (free : Json.IsControlFree text.toList) :
    lineEnd ∉ Text.bytes text := by
  rw [Text.bytes_eq_encode, Text.encode, List.mem_flatMap]
  rintro ⟨char, member, isLineEnd⟩
  exact lineEnd_not_mem_utf8EncodeChar (free char member) isLineEnd

theorem bytes_lines_cons (text : String) (texts : List String) :
    Text.bytes (Console.lines (text :: texts)) =
      Text.bytes text ++ lineEnd :: Text.bytes (Console.lines texts) := by
  have newline : Text.bytes "\n" = [lineEnd] := rfl
  simp [Console.lines, Console.line, String.join_cons, Text.bytes_append, newline]

/-- Every line ends with a byte that stands in none of them. -/
theorem splitOn_lines
    {texts : List String}
    (free : ∀ text ∈ texts, Json.IsControlFree text.toList) :
    (Text.bytes (Console.lines texts)).splitOn lineEnd = texts.map Text.bytes ++ [[]] := by
  induction texts with
  | nil => rfl
  | cons text texts inductionHypothesis =>
      obtain ⟨isFree, othersFree⟩ := List.forall_mem_cons.mp free
      rw [bytes_lines_cons,
        List.splitOn_append_cons_self_of_not_mem (lineEnd_not_mem_bytes isFree),
        inductionHypothesis othersFree]
      rfl

/-- An open sink without a limit takes every text. -/
theorem writeEvents_of_unlimited
    (format : Format)
    (events : List Event)
    {sink : Sink}
    (noLimit : sink.room = none)
    (isOpen : sink.isClosed = false) :
    Sink.writeEvents format events sink = events.map fun event => some (format.render event) := by
  induction events generalizing sink with
  | nil => rfl
  | cons event events inductionHypothesis =>
      have taken : ∃ next : Sink, sink.write? (format.render event) = some next ∧
          next.room = none ∧ next.isClosed = false := by
        unfold Sink.write?
        split
        · exact ⟨sink, rfl, noLimit, isOpen⟩
        · simp [isOpen, noLimit, Sink.hasRoom]
      obtain ⟨next, written, nextNoLimit, nextIsOpen⟩ := taken
      simp only [Sink.writeEvents, written, List.map_cons,
        inductionHypothesis nextNoLimit nextIsOpen]

/-- What has been taken by a sink without a limit when the records of events are written. -/
def stream (id : RunId) (events : List Event) : String :=
  String.join ((Sink.writeEvents (.records id) events .unlimited).filterMap fun text => text)

theorem stream_eq_lines (id : RunId) (events : List Event) :
    stream id events = Console.lines ((events.flatMap (Record.event id)).map Json.render) := by
  rw [stream, writeEvents_of_unlimited _ events rfl rfl]
  induction events with
  | nil => rfl
  | cons event events inductionHypothesis =>
      simp only [List.map_cons, List.filterMap_cons, String.join_cons, inductionHypothesis]
      simp [Format.render, Record.render, Console.lines]

/-- The stream is made up of these lines and says these things. -/
structure Frames (lines : List String) (stream : String) (entries : List Entry) : Prop where
  split : (Text.bytes stream).splitOn lineEnd = lines.map Text.bytes ++ [[]]
  objects : ∀ line ∈ lines, ∃ members, Json.read line = .ok (.object members)
  read : lines.map Entry.read? = entries.map some

theorem Entry.read?_render
    {json : Json}
    (readable : Readable Json.depthLimit json) :
    read? json.render = ofJson? json := by
  rw [read?, Json.read_render readable]
  rfl

/-- Only objects are read as entries. -/
theorem Entry.exists_object
    {line : String} {entry : Entry}
    (isRead : read? line = some entry) :
    ∃ members, Json.read line = .ok (.object members) := by
  unfold read? at isRead
  obtain ⟨json, found, isEntry⟩ := Option.bind_eq_some_iff.mp isRead
  have isJson : Json.read line = .ok json := by
    cases result : Json.read line with
    | error fault =>
        rw [result] at found
        cases found
    | ok other =>
        rw [result] at found
        cases found
        rfl
  cases json with
  | object members => exact ⟨members, isJson⟩
  | _ => cases isEntry

section

variable {events : List Event}

theorem readable_events
    (legible : ∀ event ∈ events, event.IsLegible)
    (id : RunId) :
    ∀ json ∈ events.flatMap (Record.event id), Readable Json.depthLimit json := by
  intro json member
  obtain ⟨event, isEvent, isRecord⟩ := List.mem_flatMap.mp member
  exact readable_event (legible event isEvent) id json isRecord

theorem Entry.ofJson?_events
    (legible : ∀ event ∈ events, event.IsLegible)
    (id : RunId) :
    (events.flatMap (Record.event id)).map ofJson? = (events.flatMap (ofEvent id)).map some := by
  induction events with
  | nil => rfl
  | cons event events inductionHypothesis =>
      obtain ⟨isLegible, othersLegible⟩ := List.forall_mem_cons.mp legible
      simp only [List.flatMap_cons, List.map_append, ofJson?_event isLegible,
        inductionHypothesis othersLegible]

theorem exists_frames
    (legible : ∀ event ∈ events, event.IsLegible)
    (id : RunId) :
    ∃ lines, Frames lines (stream id events) (events.flatMap (Entry.ofEvent id)) := by
  have readable := readable_events legible id
  have read : ((events.flatMap (Record.event id)).map Json.render).map Entry.read? =
      (events.flatMap (Entry.ofEvent id)).map some := by
    rw [← Entry.ofJson?_events legible id, List.map_map]
    exact List.map_congr_left fun json isRecord => Entry.read?_render (readable json isRecord)
  refine ⟨(events.flatMap (Record.event id)).map Json.render, ?_, ?_, read⟩
  · rw [stream_eq_lines]
    refine splitOn_lines fun text member => ?_
    obtain ⟨json, isRecord, rfl⟩ := List.mem_map.mp member
    rw [Json.render, String.toList_ofList]
    exact Json.isControlFree_renderChars (readable json isRecord)
  · intro line member
    have isRead := List.mem_map_of_mem (f := Entry.read?) member
    rw [read] at isRead
    obtain ⟨entry, _, isEntry⟩ := List.mem_map.mp isRead
    exact Entry.exists_object isEntry.symm

end

/-- A stream says one thing only. -/
theorem Frames.unique
    {lines other : List String} {stream : String} {entries others : List Entry}
    (frames : Frames lines stream entries)
    (alsoFrames : Frames other stream others) :
    entries = others := by
  have sameBytes := List.append_cancel_right (frames.split.symm.trans alsoFrames.split)
  have sameLines : lines = other :=
    List.map_injective_iff.mpr (fun _ _ => Text.eq_of_bytes_eq) sameBytes
  subst sameLines
  have same := frames.read.symm.trans alsoFrames.read
  exact List.map_injective_iff.mpr (fun _ _ => Option.some.inj) same

/-- The stream of a sequence of events falls into the lines of its records, and reading them
gives back what the events say. Sequences that say different things have different streams. -/
theorem stream_faithful :
    (∀ (id : RunId) (events : List Event), (∀ event ∈ events, event.IsLegible) →
      ∃ lines, Frames lines (stream id events) (events.flatMap (Entry.ofEvent id))) ∧
    ∀ (id other : RunId) (events others : List Event),
      (∀ event ∈ events, event.IsLegible) → (∀ event ∈ others, event.IsLegible) →
      stream id events = stream other others →
        events.flatMap (Entry.ofEvent id) = others.flatMap (Entry.ofEvent other) := by
  refine ⟨fun id events legible => exists_frames legible id, ?_⟩
  intro id other events others legible alsoLegible same
  obtain ⟨lines, frames⟩ := exists_frames legible id
  obtain ⟨otherLines, otherFrames⟩ := exists_frames alsoLegible other
  rw [← same] at otherFrames
  exact frames.unique otherFrames

/-- Names with line ends, quotes and controls, and measured values of both layouts. -/
theorem stream_faithful_sample :
    let value : IndexValue :=
      { index := "A\n\"\\", value := 0.1, sum := 1e300, divisor := 2
        window := ⟨1772366400000000, 1772452800000000⟩
        constituents := [⟨"B\u0001\n", -0.5⟩] }
    let events : List Event :=
      [.report (.computed 1 value), .report (.failed 1 "\n" (.output "\r\n")),
        .seeded "\t😀" ⟨"I", 30, 1800⟩]
    let id : RunId := .ofRandom 0
    ∃ lines : List String,
      (Text.bytes (stream id events)).splitOn lineEnd = lines.map Text.bytes ++ [[]] ∧
      lines.map Entry.read? =
        [some (.computed id.text 1 "A\n\"\\" 0.1 1e300 2 "2026-03-01T12:00:00Z"
            "2026-03-02T12:00:00Z" (some [("B\u0001\n", -0.5)])),
          some (.failed id.text 1 "\n" "io" "\r\n"), some (.seeded "\t😀" "I" 30 1800)] := by
  intro value events id
  have measured : ∀ measure ∈ [0.1, 1e300, 2, -0.5],
      measure.isFinite = true ∧ ReadsBack measure := by
    unfold ReadsBack
    decide +kernel
  have legible : ∀ event ∈ events, event.IsLegible := by
    simp only [events, List.forall_mem_cons]
    exact ⟨measured, nofun, nofun, nofun⟩
  have start : value.window.startText = "2026-03-01T12:00:00Z" := by decide +kernel
  have finish : value.window.finishText = "2026-03-02T12:00:00Z" := by decide +kernel
  obtain ⟨lines, frames⟩ := stream_faithful.1 id events legible
  have read := frames.read
  simp only [events, Entry.ofEvent, Entry.ofReport, List.flatMap_cons, start, finish] at read
  exact ⟨lines, frames.split, read⟩

end Output
end CompositeIndex
