import CompositeIndex.Store.Memory
import Mathlib.Data.List.Induction

/-!
# The latest value inside bounds

A column is described in two ways: by the log of its points, and by the value that it holds
at each microsecond, which is the one recorded last. `IsLatest` says of a log, and `LastIn`
of the values, which value is the latest one between two microseconds. The two notions agree,
and the search of a store in memory finds this value.
-/

namespace CompositeIndex

/-! ## The value of a microsecond -/

/-- The value recorded last for a microsecond. -/
def recordedAt (points : List Point) (micro : Int) : Option Float :=
  (points.reverse.find? fun point => point.micro == micro).map (·.value)

@[simp] theorem recordedAt_nil (micro : Int) : recordedAt [] micro = none := rfl

theorem recordedAt_append (points more : List Point) (micro : Int) :
    recordedAt (points ++ more) micro =
      (recordedAt more micro).or (recordedAt points micro) := by
  unfold recordedAt
  rw [List.reverse_append, List.find?_append, Option.map_or]

theorem recordedAt_singleton (point : Point) (micro : Int) :
    recordedAt [point] micro = if point.micro = micro then some point.value else none := by
  unfold recordedAt
  by_cases same : point.micro = micro <;> simp [same]

theorem recordedAt_cons (point : Point) (points : List Point) (micro : Int) :
    recordedAt (point :: points) micro =
      (recordedAt points micro).or
        (if point.micro = micro then some point.value else none) := by
  rw [← List.singleton_append, recordedAt_append, recordedAt_singleton]

theorem recordedAt_eq_none_iff (points : List Point) (micro : Int) :
    recordedAt points micro = none ↔ ∀ point ∈ points, point.micro ≠ micro := by
  simp [recordedAt]

/-- The value of a microsecond is that of its last point. -/
theorem recordedAt_eq_some_iff (points : List Point) (micro : Int) (value : Float) :
    recordedAt points micro = some value ↔
      ∃ earlier point later, points = earlier ++ point :: later ∧ point.micro = micro ∧
        point.value = value ∧ ∀ other ∈ later, other.micro ≠ micro := by
  constructor
  · intro recorded
    obtain ⟨point, found, sameValue⟩ := Option.map_eq_some_iff.mp recorded
    obtain ⟨sameMicro, after, before, split, others⟩ :=
      List.find?_eq_some_iff_append.mp found
    refine ⟨before.reverse, point, after.reverse, ?_, by simpa using sameMicro, sameValue, ?_⟩
    · rw [← List.reverse_reverse points, split]
      simp
    · intro other member
      simpa using others other (List.mem_reverse.mp member)
  · rintro ⟨earlier, point, later, rfl, rfl, rfl, others⟩
    rw [recordedAt_append, recordedAt_cons, (recordedAt_eq_none_iff later _).mpr others]
    simp

/-! ## The latest value -/

/-- The point lies in the microseconds from `start` up to `finish`. -/
def Point.IsWithin (start finish : Int) (point : Point) : Prop :=
  start ≤ point.micro ∧ point.micro < finish

/-- A log holds a point of this value within the bounds, no point of a greater microsecond
within the bounds, and no later record for the same microsecond. -/
def IsLatest (start finish : Int) (points : List Point) (value : Float) : Prop :=
  ∃ earlier point later, points = earlier ++ point :: later ∧ point.value = value ∧
    point.IsWithin start finish ∧
    (∀ other ∈ earlier, other.IsWithin start finish → other.micro ≤ point.micro) ∧
    (∀ other ∈ later, other.IsWithin start finish → other.micro < point.micro)

/-- The answer of a column with the given values to the question for its last value from
`start` up to `finish`. -/
inductive LastIn (values : Int → Option Float) (start finish : Int) : Option Float → Prop
  /-- There is a value, and none at a greater microsecond. -/
  | found
      (micro : Int)
      (value : Float)
      (lower : start ≤ micro)
      (upper : micro < finish)
      (held : values micro = some value)
      (newest : ∀ later, micro < later → later < finish → values later = none) :
      LastIn values start finish (some value)
  /-- There is no value. -/
  | missing
      (empty : ∀ micro, start ≤ micro → micro < finish → values micro = none) :
      LastIn values start finish none

/-- There is only one last value. -/
theorem LastIn.unique
    {values : Int → Option Float}
    {start finish : Int}
    {first second : Option Float}
    (isFirst : LastIn values start finish first)
    (isSecond : LastIn values start finish second) :
    first = second := by
  cases isFirst with
  | missing empty =>
      cases isSecond with
      | missing _ => rfl
      | found micro value lower upper held newest =>
          rw [empty micro lower upper] at held
          cases held
  | found micro value lower upper held newest =>
      cases isSecond with
      | missing empty =>
          rw [empty micro lower upper] at held
          cases held
      | found other otherValue otherLower otherUpper otherHeld otherNewest =>
          rcases Int.lt_trichotomy micro other with before | same | after
          · rw [newest other before otherUpper] at otherHeld
            cases otherHeld
          · rw [← held, ← otherHeld, same]
          · rw [otherNewest micro after upper] at held
            cases held

/-- The latest value of a log is the last of the values that it holds. -/
theorem lastIn_some_iff_isLatest
    (points : List Point)
    (start finish : Int)
    (value : Float) :
    LastIn (recordedAt points) start finish (some value) ↔
      IsLatest start finish points value := by
  constructor
  · intro last
    cases last with
    | found micro _ lower upper held newest =>
        obtain ⟨earlier, point, later, split, sameMicro, sameValue, others⟩ :=
          (recordedAt_eq_some_iff ..).mp held
        have bounded : ∀ other ∈ points, other.micro < finish → other.micro ≤ micro := by
          intro other member below
          by_cases above : micro < other.micro
          · exact absurd rfl
              ((recordedAt_eq_none_iff ..).mp (newest _ above below) other member)
          · omega
        refine ⟨earlier, point, later, split, sameValue,
          ⟨by omega, by omega⟩, ?_, ?_⟩
        · intro other member within
          have notAbove := bounded other (by simp [split, member]) within.2
          omega
        · intro other member within
          have notAbove := bounded other (by simp [split, member]) within.2
          have different := others other member
          omega
  · rintro ⟨earlier, point, later, split, rfl, ⟨lower, upper⟩, before, after⟩
    refine .found point.micro _ lower upper ?_ ?_
    · refine (recordedAt_eq_some_iff ..).mpr ⟨earlier, point, later, split, rfl, rfl, ?_⟩
      intro other member same
      have less := after other member ⟨by omega, by omega⟩
      omega
    · intro micro above below
      refine (recordedAt_eq_none_iff ..).mpr ?_
      rintro other member rfl
      rw [split, List.mem_append, List.mem_cons] at member
      rcases member with member | rfl | member
      · have notAbove := before other member ⟨by omega, below⟩
        omega
      · omega
      · have less := after other member ⟨by omega, below⟩
        omega

/-- There is no last value exactly if no point of the log lies within the bounds. -/
theorem lastIn_none_iff
    (points : List Point)
    (start finish : Int) :
    LastIn (recordedAt points) start finish none ↔
      ∀ point ∈ points, ¬point.IsWithin start finish := by
  constructor
  · rintro ⟨⟩ point member ⟨lower, upper⟩
    rename_i empty
    exact (recordedAt_eq_none_iff ..).mp (empty _ lower upper) point member rfl
  · intro outside
    refine .missing fun micro lower upper => (recordedAt_eq_none_iff ..).mpr ?_
    rintro point member rfl
    exact outside point member ⟨lower, upper⟩

/-! ## The search of a store in memory -/

theorem Window.containsMicro_iff (window : Window) (point : Point) :
    window.containsMicro point.micro = true ↔
      point.IsWithin window.start window.finish := by
  simp [Window.containsMicro, Point.IsWithin]

namespace MemoryStore

/-- What the search of a log has found once the log has been read. -/
def IsFound (window : Window) (points : List Point) : Option Point → Prop
  | none => ∀ point ∈ points, ¬point.IsWithin window.start window.finish
  | some point =>
      point.IsWithin window.start window.finish ∧
        recordedAt points point.micro = some point.value ∧
        ∀ other ∈ points, other.IsWithin window.start window.finish →
          other.micro ≤ point.micro

theorem latestPoint_concat (window : Window) (points : List Point) (point : Point) :
    latestPoint window (points ++ [point]) =
      if window.containsMicro point.micro then
        match latestPoint window points with
        | none => some point
        | some earlier =>
            if earlier.micro ≤ point.micro then some point else latestPoint window points
      else latestPoint window points := by
  unfold latestPoint
  rw [List.foldl_append]
  rfl

/-- A new point outside the window changes nothing. -/
theorem IsFound.skip
    {window : Window}
    {points : List Point}
    {found : Option Point}
    (isFound : IsFound window points found)
    {point : Point}
    (outside : ¬point.IsWithin window.start window.finish) :
    IsFound window (points ++ [point]) found := by
  cases found with
  | none =>
      intro other member
      rcases List.mem_append.mp member with member | member
      · exact isFound other member
      · rwa [List.mem_singleton.mp member]
  | some latest =>
      obtain ⟨within, recorded, newest⟩ := isFound
      have different : point.micro ≠ latest.micro := by
        intro same
        exact outside (by unfold Point.IsWithin; rw [same]; exact within)
      refine ⟨within, ?_, ?_⟩
      · rw [recordedAt_append, recordedAt_singleton, if_neg different, recorded]
        rfl
      · intro other member otherWithin
        rcases List.mem_append.mp member with member | member
        · exact newest other member otherWithin
        · rw [List.mem_singleton.mp member] at otherWithin
          exact absurd otherWithin outside

/-- A new point that is at least as late as those before it is found. -/
theorem isFound_concat
    {window : Window}
    {points : List Point}
    {point : Point}
    (within : point.IsWithin window.start window.finish)
    (newest : ∀ other ∈ points, other.IsWithin window.start window.finish →
      other.micro ≤ point.micro) :
    IsFound window (points ++ [point]) (some point) := by
  refine ⟨within, ?_, ?_⟩
  · rw [recordedAt_append, recordedAt_singleton, if_pos rfl]
    rfl
  · intro other member otherWithin
    rcases List.mem_append.mp member with member | member
    · exact newest other member otherWithin
    · exact Int.le_of_eq (congrArg Point.micro (List.mem_singleton.mp member))

/-- A new point that is earlier than the one found changes nothing. -/
theorem IsFound.keep
    {window : Window}
    {points : List Point}
    {latest point : Point}
    (isFound : IsFound window points (some latest))
    (earlier : point.micro < latest.micro) :
    IsFound window (points ++ [point]) (some latest) := by
  obtain ⟨within, recorded, newest⟩ := isFound
  refine ⟨within, ?_, ?_⟩
  · rw [recordedAt_append, recordedAt_singleton, if_neg (by omega), recorded]
    rfl
  · intro other member otherWithin
    rcases List.mem_append.mp member with member | member
    · exact newest other member otherWithin
    · rw [List.mem_singleton.mp member]
      omega

theorem isFound_latestPoint (window : Window) (points : List Point) :
    IsFound window points (latestPoint window points) := by
  induction points using List.reverseRecOn with
  | nil =>
      intro point member
      cases member
  | append_singleton points point inductionHypothesis =>
      rw [latestPoint_concat]
      by_cases within : point.IsWithin window.start window.finish
      · rw [if_pos ((window.containsMicro_iff point).mpr within)]
        cases found : latestPoint window points with
        | none =>
            rw [found] at inductionHypothesis
            exact isFound_concat within fun other member otherWithin =>
              absurd otherWithin (inductionHypothesis other member)
        | some latest =>
            rw [found] at inductionHypothesis
            by_cases notEarlier : latest.micro ≤ point.micro
            · simp only [notEarlier, if_true]
              exact isFound_concat within fun other member otherWithin =>
                Int.le_trans (inductionHypothesis.2.2 other member otherWithin) notEarlier
            · simp only [notEarlier, if_false]
              exact inductionHypothesis.keep (by omega)
      · rw [if_neg (fun contained => within ((window.containsMicro_iff point).mp contained))]
        exact inductionHypothesis.skip within

/-- The search finds the last value of the log. -/
theorem lastIn_latestPoint (window : Window) (points : List Point) :
    LastIn (recordedAt points) window.start window.finish
      ((latestPoint window points).map (·.value)) := by
  have isFound := isFound_latestPoint window points
  cases found : latestPoint window points with
  | none =>
      rw [found] at isFound
      exact (lastIn_none_iff ..).mpr isFound
  | some latest =>
      rw [found] at isFound
      obtain ⟨⟨lower, upper⟩, recorded, newest⟩ := isFound
      refine .found latest.micro latest.value lower upper recorded ?_
      intro micro above below
      refine (recordedAt_eq_none_iff ..).mpr ?_
      rintro other member rfl
      have notAbove := newest other member ⟨by omega, below⟩
      omega

end MemoryStore
end CompositeIndex
