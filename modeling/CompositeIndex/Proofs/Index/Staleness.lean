import CompositeIndex.Proofs.FirstFault
import CompositeIndex.Proofs.Index.Specification
import CompositeIndex.Proofs.Time.Intervals

/-!
# When values go stale

An index is computed over a trailing window and then again over a later one, while nothing new
is recorded for its constituents. The later window starts later, so that the latest point of a
constituent is still in it, or no point is. As long as the latest points of all constituents are,
the index stays the same to the bit; the first constituent that has lost its latest point is the
one that is reported. What lies behind the end of a window has no part in either answer.
-/

namespace CompositeIndex

/-! ## The newest point of a log -/

/-- The newest point of a log within the bounds is of this microsecond. -/
structure IsNewest (points : List Point) (start finish micro : Int) : Prop where
  held : ∃ point ∈ points, point.IsWithin start finish ∧ point.micro = micro
  newest : ∀ point ∈ points, point.IsWithin start finish → point.micro ≤ micro

theorem IsNewest.unique
    {points : List Point}
    {start finish micro other : Int}
    (newest : IsNewest points start finish micro)
    (alsoNewest : IsNewest points start finish other) :
    micro = other := by
  obtain ⟨point, member, within, rfl⟩ := newest.held
  obtain ⟨otherPoint, otherMember, otherWithin, rfl⟩ := alsoNewest.held
  exact Int.le_antisymm (alsoNewest.newest point member within)
    (newest.newest otherPoint otherMember otherWithin)

/-- The point of a latest value is a newest one. -/
theorem isNewest_of_split
    {before behind : List Point}
    {point : Point}
    {start finish : Int}
    (within : point.IsWithin start finish)
    (notAbove : ∀ other ∈ before, other.IsWithin start finish → other.micro ≤ point.micro)
    (below : ∀ other ∈ behind, other.IsWithin start finish → other.micro < point.micro) :
    IsNewest (before ++ point :: behind) start finish point.micro where
  held := ⟨point, by simp, within, rfl⟩
  newest := by
    intro other member otherWithin
    rcases List.mem_append.mp member with member | member
    · exact notAbove other member otherWithin
    · rcases List.mem_cons.mp member with rfl | member
      · exact Int.le_refl _
      · exact Int.le_of_lt (below other member otherWithin)

theorem IsLatest.exists_isNewest
    {points : List Point}
    {start finish : Int}
    {value : Float}
    (latest : IsLatest start finish points value) :
    ∃ micro, IsNewest points start finish micro := by
  obtain ⟨before, point, behind, rfl, _, within, notAbove, below⟩ := latest
  exact ⟨point.micro, isNewest_of_split within notAbove below⟩

/-- The bounds of a window that moves forward over a log which has no point between the old end
and the new one. -/
structure MovesOver (points : List Point) (first second : Window) : Prop where
  starts : first.start ≤ second.start
  ends : first.finish ≤ second.finish
  quiet : ∀ point ∈ points, ¬point.IsWithin first.finish second.finish

namespace MovesOver

variable {points : List Point} {first second : Window} {micro : Int}

/-- What is in the new window was in the old one. -/
theorem isWithin
    (moves : MovesOver points first second)
    {point : Point}
    (member : point ∈ points)
    (within : point.IsWithin second.start second.finish) :
    point.IsWithin first.start first.finish := by
  refine ⟨Int.le_trans moves.starts within.1, Int.not_le.mp fun behind => ?_⟩
  exact moves.quiet point member ⟨behind, within.2⟩

/-- A newest point that the new window still has keeps its place. -/
theorem isLatest
    (moves : MovesOver points first second)
    (newest : IsNewest points first.start first.finish micro)
    (fresh : second.start ≤ micro)
    {value : Float}
    (latest : IsLatest first.start first.finish points value) :
    IsLatest second.start second.finish points value := by
  obtain ⟨before, point, behind, rfl, ofValue, within, notAbove, below⟩ := latest
  have same := newest.unique (isNewest_of_split within notAbove below)
  refine ⟨before, point, behind, rfl, ofValue, ?_, ?_, ?_⟩
  · exact ⟨same ▸ fresh, Int.lt_of_lt_of_le within.2 moves.ends⟩
  · intro other member otherWithin
    exact notAbove other member (moves.isWithin (by simp [member]) otherWithin)
  · intro other member otherWithin
    exact below other member (moves.isWithin (by simp [member]) otherWithin)

/-- A window that has lost the newest point has none. -/
theorem not_isWithin
    (moves : MovesOver points first second)
    (newest : IsNewest points first.start first.finish micro)
    (stale : micro < second.start) :
    ∀ point ∈ points, ¬point.IsWithin second.start second.finish := by
  intro point member within
  have notAbove := newest.newest point member (moves.isWithin member within)
  exact absurd within.1 (Int.not_le.mpr (Int.lt_of_le_of_lt notAbove stale))

end MovesOver

/-! ## The constituents of an index -/

namespace MemoryStore

variable (store : MemoryStore) (instrument : String)

/-- The newest point of the instrument inside the window is of this microsecond. -/
def IsNewestOf (window : Window) (micro : Int) : Prop :=
  ∃ points, store.log? instrument valueColumn = some points ∧
    IsNewest points window.start window.finish micro

/-- The newest point inside the window is not older than the start of another one. -/
def IsFresh (window later : Window) : Prop :=
  ∃ micro, store.IsNewestOf instrument window micro ∧ later.start ≤ micro

/-- The newest point inside the window is older than the start of another one. -/
def IsStale (window later : Window) : Prop :=
  ∃ micro, store.IsNewestOf instrument window micro ∧ micro < later.start

/-- The instrument has no point in the microseconds from `start` up to `finish`. -/
def IsQuiet (start finish : Int) : Prop :=
  ∀ points, store.log? instrument valueColumn = some points →
    ∀ point ∈ points, ¬point.IsWithin start finish

variable {store instrument} {first second : Window} {value : Float}

/-- An instrument with a value has a log whose latest value it is. -/
theorem exists_log_of_isLatestValue
    (found : IsLatestValue store.reader first instrument (.ok value)) :
    store.Serves instrument ∧ value.isFinite = true ∧
      ∃ points, store.log? instrument valueColumn = some points ∧
        IsLatest first.start first.finish points value := by
  cases found with
  | found _ answer finite =>
      cases (lastValue_iff _).mp answer with
      | found serves points log _ latest => exact ⟨serves, finite, points, log, latest⟩

theorem IsStale.not_isFresh
    {later : Window}
    (stale : store.IsStale instrument first later) :
    ¬store.IsFresh instrument first later := by
  rintro ⟨micro, ⟨points, log, newest⟩, notOlder⟩
  obtain ⟨other, ⟨_, sameLog, alsoNewest⟩, older⟩ := stale
  cases log.symm.trans sameLog
  rw [newest.unique alsoNewest] at notOlder
  exact absurd older (Int.not_lt.mpr notOlder)

theorem isFresh_or_isStale
    (found : IsLatestValue store.reader first instrument (.ok value))
    (later : Window) :
    store.IsFresh instrument first later ∨ store.IsStale instrument first later := by
  obtain ⟨_, _, points, log, latest⟩ := exists_log_of_isLatestValue found
  obtain ⟨micro, newest⟩ := latest.exists_isNewest
  rcases Int.lt_or_le micro later.start with stale | fresh
  · exact .inr ⟨micro, ⟨points, log, newest⟩, stale⟩
  · exact .inl ⟨micro, ⟨points, log, newest⟩, fresh⟩

section

variable
  (starts : first.start ≤ second.start)
  (ends : first.finish ≤ second.finish)
  (quiet : store.IsQuiet instrument first.finish second.finish)
  (found : IsLatestValue store.reader first instrument (.ok value))

include starts ends quiet found

theorem isLatestValue_of_isFresh (fresh : store.IsFresh instrument first second) :
    IsLatestValue store.reader second instrument (.ok value) := by
  obtain ⟨serves, finite, points, log, latest⟩ := exists_log_of_isLatestValue found
  obtain ⟨micro, ⟨_, sameLog, newest⟩, notOlder⟩ := fresh
  cases log.symm.trans sameLog
  have moves : MovesOver points first second := ⟨starts, ends, quiet points log⟩
  refine .found value ((lastValue_iff _).mpr ?_) finite
  exact .found serves points log value (moves.isLatest newest notOlder latest)

theorem isLatestValue_of_isStale (stale : store.IsStale instrument first second) :
    IsLatestValue store.reader second instrument
      (.error (.noData instrument second.startText second.finishText)) := by
  obtain ⟨serves, _, points, log, _⟩ := exists_log_of_isLatestValue found
  obtain ⟨micro, ⟨_, sameLog, newest⟩, older⟩ := stale
  cases log.symm.trans sameLog
  have moves : MovesOver points first second := ⟨starts, ends, quiet points log⟩
  refine .missing ((lastValue_iff _).mpr ?_)
  exact .missing serves points log (moves.not_isWithin newest older)

end

/-! ## Points behind the end of a window -/

/-- The points of a log before a microsecond. -/
def pointsBefore (finish : Int) (points : List Point) : List Point :=
  points.filter fun point => point.micro < finish

/-- The search of a window skips what lies behind its end. -/
theorem latestPoint_pointsBefore (window : Window) (points : List Point) :
    latestPoint window (pointsBefore window.finish points) = latestPoint window points := by
  unfold latestPoint pointsBefore
  rw [List.foldl_filter]
  congr 1
  funext latest point
  by_cases before : point.micro < window.finish
  · rw [if_pos (decide_eq_true before)]
  · have outside : window.containsMicro point.micro = false := by
      simp [Window.containsMicro, before]
    rw [if_neg (mt of_decide_eq_true before), if_neg (Bool.eq_false_iff.mp outside)]

/-- Two stores have the same columns, refuse the same queries and hold the same points before a
microsecond. -/
structure AgreesBefore (finish : Int) (store other : MemoryStore) : Prop where
  serves : ∀ entry, store.Serves entry ↔ other.Serves entry
  series : ∀ entry, entry ∈ store.series ↔ entry ∈ other.series
  points : ∀ entry column,
    (store.log? entry column).map (pointsBefore finish) =
      (other.log? entry column).map (pointsBefore finish)

theorem AgreesBefore.lastValue_eq
    {other : MemoryStore}
    {query : Query}
    (agrees : AgreesBefore query.window.finish store other) :
    store.lastValue query = other.lastValue query := by
  by_cases serves : store.Serves query.entry
  · have samePoints := agrees.points query.entry query.column
    rw [lastValue_of_serves serves, lastValue_of_serves ((agrees.serves _).mp serves)]
    simp only [agrees.series]
    cases log : store.log? query.entry query.column with
    | none =>
        rw [log, Option.map_none, eq_comm, Option.map_eq_none_iff] at samePoints
        rw [samePoints]
    | some points =>
        rw [log, Option.map_some, eq_comm, Option.map_eq_some_iff] at samePoints
        obtain ⟨others, otherLog, same⟩ := samePoints
        rw [otherLog]
        dsimp only
        rw [← latestPoint_pointsBefore query.window points, ← same, latestPoint_pointsBefore]
  · rw [lastValue_of_not_serves serves,
      lastValue_of_not_serves (mt (agrees.serves _).mpr serves)]

/-- A value that is recorded behind a microsecond, in a column that exists, leaves everything
before it. -/
theorem agreesBefore_record
    {entry column : String}
    {finish : Int}
    {timestamp : Timestamp}
    (exists_column : (store.log? entry column).isSome = true)
    (behind : finish ≤ timestamp.micros)
    (value : Float) :
    AgreesBefore finish (store.record entry column timestamp value) store where
  serves := fun _ => Iff.rfl
  series := by
    intro name
    obtain ⟨points, log⟩ := Option.isSome_iff_exists.mp exists_column
    rw [record, append, Std.ExtTreeMap.mem_insert, Std.compare_eq_iff_eq]
    refine or_iff_right_of_imp ?_
    rintro rfl
    exact mem_series_of_log? log
  points := by
    intro name other
    rw [record, log?_append]
    split
    next same =>
      obtain ⟨rfl, rfl⟩ := same
      obtain ⟨points, log⟩ := Option.isSome_iff_exists.mp exists_column
      simp [log, pointsBefore, Int.not_lt.mpr behind]
    next => rfl

end MemoryStore

/-! ## Main theorem -/

theorem Window.endingAt_mono
    {earlier later : Timestamp}
    (inOrder : earlier.nanos ≤ later.nanos)
    (span : Duration) :
    (endingAt earlier span).start ≤ (endingAt later span).start ∧
      (endingAt earlier span).finish ≤ (endingAt later span).finish := by
  have micros := Timestamp.micros_le_micros inOrder
  refine ⟨Int.ediv_le_ediv (by decide) ?_, micros⟩
  exact Int.sub_le_sub_right (Int.mul_le_mul_of_nonneg_right micros (by decide)) _

namespace IsComputation

variable {divisors : Divisors} {catalog : Catalog} {store : MemoryStore} {index : String}
variable {reportEach : Bool} {constituents : List String} {first second : Window}
variable {computation : Computation} {value : IndexValue}

section

variable
  (isComputation :
    IsComputation divisors catalog store.reader index first reportEach constituents computation)
  (ok : computation.result = .ok value)
  (starts : first.start ≤ second.start)
  (ends : first.finish ≤ second.finish)
  (quiet : ∀ instrument ∈ constituents,
    store.IsQuiet instrument first.finish second.finish)

include isComputation ok starts ends quiet

/-- An index whose constituents all have their latest points left stays the same. -/
theorem result_of_forall_isFresh
    (fresh : ∀ instrument ∈ constituents, store.IsFresh instrument first second) :
    ((Aggregator.new divisors catalog).compute store.reader index constituents second
      reportEach).result = .ok { value with window := second } := by
  cases isComputation with
  | noConstituents => cases ok
  | unknownInstrument => cases ok
  | failed => cases ok
  | computed found nonempty products values sum isSum =>
      cases ok
      have still : AreLatest store.reader second found := by
        intro constituent member
        have listed := List.mem_map_of_mem (f := ConstituentValue.instrument) member
        exact MemoryStore.isLatestValue_of_isFresh starts ends (quiet _ listed)
          (values constituent member) (fresh _ listed)
      rw [compute_eq (.computed found nonempty products still sum isSum)]

/-- The first constituent that has lost its latest point is the one that is reported. -/
theorem result_of_not_forall_isFresh
    (notFresh : ¬∀ instrument ∈ constituents, store.IsFresh instrument first second) :
    ∃ before stale behind, constituents = before ++ stale :: behind ∧
      (∀ instrument ∈ before, store.IsFresh instrument first second) ∧
      store.IsStale stale first second ∧
      ((Aggregator.new divisors catalog).compute store.reader index constituents second
        reportEach).result = .error (.noData stale second.startText second.finishText) := by
  rcases forall_or_exists_first (fun instrument => store.IsFresh instrument first second)
    constituents with allFresh | ⟨before, stale, behind, split, freshBefore, isNotFresh⟩
  · exact absurd allFresh notFresh
  · refine ⟨before, stale, behind, split, freshBefore, ?_⟩
    cases isComputation with
    | noConstituents => cases ok
    | unknownInstrument => cases ok
    | failed => cases ok
    | computed found nonempty products values sum isSum =>
        obtain ⟨still, rest, rfl, rfl, mapped⟩ := List.map_eq_append_iff.mp split
        obtain ⟨failing, others, rfl, rfl, rfl⟩ := List.map_eq_cons_iff.mp mapped
        have had := values failing (by simp)
        have isStale := (MemoryStore.isFresh_or_isStale had second).resolve_left isNotFresh
        have stillLatest : AreLatest store.reader second still := by
          intro constituent member
          exact MemoryStore.isLatestValue_of_isFresh starts ends
            (quiet _ (List.mem_map_of_mem (List.mem_append_left _ member)))
            (values constituent (List.mem_append_left _ member))
            (freshBefore _ (List.mem_map_of_mem member))
        have fails := MemoryStore.isLatestValue_of_isStale starts ends
          (quiet _ (List.mem_map_of_mem (by simp))) had isStale
        rw [split] at products ⊢
        exact ⟨isStale, by rw [compute_eq (.failed still _ _ _ products stillLatest fails)]⟩

end

end IsComputation

/-- An index that has been computed over a trailing window is computed again at a later time,
over a window of the same span, and nothing has been recorded for its constituents from the end
of the one window to that of the other. It has the same value, sum and breakdown if the latest
points of all constituents are in the later window, and otherwise there is no data for the first
constituent whose latest point is older than that. Neither computation sees what is recorded at
or behind the end of its window. -/
theorem Aggregator.compute_staleness
    (divisors : Divisors)
    (catalog : Catalog)
    (index : String)
    (constituents : List String)
    (reportEach : Bool)
    (store : MemoryStore) :
    let compute := fun (store : MemoryStore) window =>
      (Aggregator.new divisors catalog).compute store.reader index constituents window reportEach
    (∀ (earlier later : Timestamp) (span : Duration) (first second : Window)
        (value : IndexValue),
      earlier.nanos ≤ later.nanos →
      Window.trailing? earlier span = some first →
      Window.trailing? later span = some second →
      (compute store first).result = .ok value →
      (∀ instrument ∈ constituents, store.IsQuiet instrument first.finish second.finish) →
        ((∀ instrument ∈ constituents, store.IsFresh instrument first second) →
          (compute store second).result = .ok { value with window := second }) ∧
        ((¬∀ instrument ∈ constituents, store.IsFresh instrument first second) →
          ∃ before stale behind, constituents = before ++ stale :: behind ∧
            (∀ instrument ∈ before, store.IsFresh instrument first second) ∧
            store.IsStale stale first second ∧
            (compute store second).result =
              .error (.noData stale second.startText second.finishText))) ∧
    (∀ (window : Window) (other : MemoryStore),
      MemoryStore.AgreesBefore window.finish other store →
        compute other window = compute store window) ∧
    ∀ (window : Window) (entry column : String) (timestamp : Timestamp) (value : Float),
      (store.log? entry column).isSome = true →
      window.finishNanos ≤ timestamp.nanos →
        compute (store.record entry column timestamp value) window = compute store window := by
  intro compute
  have unseen : ∀ (window : Window) (other : MemoryStore),
      MemoryStore.AgreesBefore window.finish other store →
        compute other window = compute store window :=
    fun window other agrees => Aggregator.compute_congr_of_lastValue
      (fun instrument _ => agrees.lastValue_eq) _ index reportEach
  refine ⟨?later, unseen, ?recorded⟩
  case later =>
    intro earlier later span first second value inOrder isFirst isSecond ok quiet
    obtain ⟨_, rfl⟩ := Window.trailing?_eq_some_iff.mp isFirst
    obtain ⟨_, rfl⟩ := Window.trailing?_eq_some_iff.mp isSecond
    obtain ⟨starts, ends⟩ := Window.endingAt_mono inOrder span
    have isComputation := (IsComputation.compute_iff _).mp
      (Eq.refl (compute store (Window.endingAt earlier span)))
    exact ⟨isComputation.result_of_forall_isFresh ok starts ends quiet,
      isComputation.result_of_not_forall_isFresh ok starts ends quiet⟩
  case recorded =>
    intro window entry column timestamp value hasColumn behind
    exact unseen window _
      (MemoryStore.agreesBefore_record hasColumn (Timestamp.le_micros_iff.mpr behind) value)

/-- B is recorded a minute before A. The two minutes that end half a minute after A have both
values, and so have the two minutes that end a quarter of a minute later; another three quarters
later the value of B is too old. A value of A at the end of a window is not seen. -/
theorem Aggregator.compute_staleness_sample :
    let catalog := Catalog.ofGroups [(Tag.products, ["A", "B"])]
    let store := (MemoryStore.empty.record "A" valueColumn
      ⟨1772452800000000000, 0, by decide⟩ 100).record "B" valueColumn
        ⟨1772452740000000900, 3600, by decide⟩ 50
    let compute := fun (store : MemoryStore) window =>
      (Aggregator.new Divisors.default catalog).compute store.reader "I" ["A", "B"] window true
    let first : Window := ⟨1772452710000000, 1772452830000000⟩
    let soon : Window := ⟨1772452725000000, 1772452845000000⟩
    let late : Window := ⟨1772452770000000, 1772452890000000⟩
    ∃ value, (compute store first).result = .ok value ∧
      (compute store soon).result = .ok { value with window := soon } ∧
      (compute store late).result = .error (.noData "B" late.startText late.finishText) ∧
      compute (store.record "A" valueColumn ⟨1772452830000000000, 0, by decide⟩ 7) first =
        compute store first := by
  intro catalog store compute first soon late
  have succeeds : (compute store first).result.isOk = true := by decide +kernel
  have logA : store.log? "A" valueColumn = some [⟨1772452800000000, 100⟩] := by
    simp [store, MemoryStore.record]
    rfl
  have logB : store.log? "B" valueColumn = some [⟨1772452740000000, 50⟩] := by
    simp [store, MemoryStore.record]
    rfl
  have newest : ∀ instrument point, store.log? instrument valueColumn = some [point] →
      point.IsWithin first.start first.finish →
        store.IsNewestOf instrument first point.micro := by
    intro instrument point log within
    refine ⟨_, log, ⟨point, List.mem_singleton_self _, within, rfl⟩, ?_⟩
    exact List.forall_mem_singleton.mpr fun _ => Int.le_refl _
  have newestA := newest "A" _ logA ⟨by decide, by decide⟩
  have newestB := newest "B" _ logB ⟨by decide, by decide⟩
  have quiet : ∀ later : Window, ∀ instrument ∈ ["A", "B"],
      store.IsQuiet instrument first.finish later.finish := by
    intro later
    refine List.forall_mem_cons.mpr ⟨?_, List.forall_mem_singleton.mpr ?_⟩
    · intro points log
      cases logA.symm.trans log
      exact List.forall_mem_singleton.mpr fun within => absurd within.1 (by decide)
    · intro points log
      cases logB.symm.trans log
      exact List.forall_mem_singleton.mpr fun within => absurd within.1 (by decide)
  have law := compute_staleness Divisors.default catalog "I" ["A", "B"] true store
  cases ok : (compute store first).result with
  | error failure =>
      rw [ok] at succeeds
      cases succeeds
  | ok value =>
      have afterwards := fun later second inOrder isSecond =>
        law.1 ⟨1772452830000000000, 0, by decide⟩ later ⟨120 * nanosPerSecond⟩ first second value
          inOrder (by rfl) isSecond ok (quiet second)
      obtain ⟨whenFresh, _⟩ := afterwards ⟨1772452845000000000, 0, by decide⟩ soon (by decide)
        (by rfl)
      obtain ⟨_, whenStale⟩ := afterwards ⟨1772452890000000000, 0, by decide⟩ late (by decide)
        (by rfl)
      have freshA : store.IsFresh "A" first late := ⟨_, newestA, by decide⟩
      have staleB : store.IsStale "B" first late := ⟨_, newestB, by decide⟩
      obtain ⟨before, stale, behind, split, _, isStale, fails⟩ :=
        whenStale fun fresh => staleB.not_isFresh (fresh "B" (by simp))
      have isB : stale = "B" := by
        have member : stale ∈ ["A", "B"] := by
          rw [split]
          simp
        rcases List.mem_cons.mp member with rfl | member
        · exact absurd freshA isStale.not_isFresh
        · exact List.mem_singleton.mp member
      refine ⟨value, rfl, whenFresh ?_, isB ▸ fails, ?_⟩
      · exact List.forall_mem_cons.mpr ⟨⟨_, newestA, by decide⟩,
          List.forall_mem_singleton.mpr ⟨_, newestB, by decide⟩⟩
      · exact law.2.2 first "A" valueColumn _ 7 (by rw [logA]; rfl) (by decide)

end CompositeIndex
