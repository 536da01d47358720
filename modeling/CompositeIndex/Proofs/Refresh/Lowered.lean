import CompositeIndex.Proofs.Refresh.Shadows
import CompositeIndex.Refresh.Rehearsal

/-!
# Rehearsals with nobody at the flag

From a script everything can be taken away that raises the flag or lets go of it. Nothing else
in the world of a rehearsal depends on this: the world of the lowered script is at any time the
lowered world of the script.
-/

namespace CompositeIndex
namespace Refresh

/-! ## What an outside keeps -/

/-- Whatever the loop asks of the outside, the world goes on to have a property. -/
structure Host.Keeps (host : Host σ) (property : σ → Prop) : Prop where
  ask : ∀ {world}, property world → ∀ query, property (host.ask query world)
  report : ∀ {world}, property world → ∀ report, property (host.report report world).world
  fallAsleep : ∀ {world}, property world → ∀ duration,
    property (host.fallAsleep duration world)
  wake : ∀ {world}, property world → ∀ duration woken,
    host.wake duration world = some woken → property woken

/-- What an outside keeps may be used when it is compared. -/
theorem Host.Follows.and
    {host : Host σ}
    {calm : Host τ}
    {same : List Report → σ → τ → Prop}
    {property : σ → Prop}
    (follows : host.Follows calm same)
    (keeps : host.Keeps property) :
    host.Follows calm fun made world other => same made world other ∧ property world where
  now := fun both => follows.now both.1
  reader := fun both => follows.reader both.1
  lowered := fun both => follows.lowered both.1
  ask := fun both query => ⟨follows.ask both.1 query, keeps.ask both.2 query⟩
  fallAsleep := fun both duration =>
    ⟨follows.fallAsleep both.1 duration, keeps.fallAsleep both.2 duration⟩
  wake := by
    intro made world other both duration
    have woken := follows.wake both.1 duration
    have kept := keeps.wake both.2 duration
    generalize host.wake duration world = next at woken kept ⊢
    generalize calm.wake duration other = otherNext at woken ⊢
    cases woken with
    | none => exact .none
    | some sameWorld => exact .some ⟨sameWorld, kept _ rfl⟩
  report := by
    intro made world other both report alike
    obtain ⟨sameLog, sameWorld⟩ := follows.report both.1 report alike
    exact ⟨sameLog, sameWorld, keeps.report both.2 report⟩
  refuse := fun both => follows.refuse both.1

namespace Rehearsal

/-! ## Taking the flag away -/

/-- The hook without what it does to the flag. -/
def Hook.lowered (hook : Hook C) : Hook C :=
  { hook with raises := false, releases := false }

/-- The script without what it does to the flag. Sleeps end, as only the flag could end a sleep
that is held. -/
def Script.lowered (script : Script C) : Script C :=
  { script with hooks := script.hooks.map Hook.lowered, trip := none, holds := false }

/-- The world with a flag that nobody has touched. -/
def World.lowered (world : World S) : World S :=
  { world with isRaised := false, isConnected := true, isHung := false }

/-- The reaction in a world whose flag nobody has touched. -/
def loweredReaction (reaction : Reaction (World S)) : Reaction (World S) :=
  { reaction with world := reaction.world.lowered }

section

variable {backend : Backend S C} {script : Script C} {world : World S}

theorem lowered_ask (trip : Option Trip) : (world.ask trip).lowered = world.lowered.ask none := by
  cases trip with
  | none => rfl
  | some trip =>
      simp only [World.ask]
      split
      · rfl
      · rfl

theorem afterChanges_lowered (hook : Hook C) (log : List LogLine) :
    afterChanges hook.lowered log world.lowered =
      loweredReaction (afterChanges hook log world) := by
  obtain ⟨position, changes, advance, raises, releases, refuses⟩ := hook
  have sameClock : advance.elim (some world.lowered.clock) world.lowered.clock.advance? =
      advance.elim (some world.clock) world.clock.advance? := rfl
  simp only [afterChanges, Hook.lowered, sameClock]
  cases advance.elim (some world.clock) world.clock.advance? with
  | none => rfl
  | some clock => cases raises <;> cases releases <;> cases refuses <;> rfl

theorem runHook_lowered (hook : Hook C) :
    runHook backend hook.lowered world.lowered =
      loweredReaction (runHook backend hook world) := by
  have sameChanges : backend.tryAll hook.lowered.changes world.lowered.store =
      backend.tryAll hook.changes world.store := rfl
  unfold runHook
  rw [sameChanges]
  dsimp only
  cases (backend.tryAll hook.changes world.store).result with
  | error problem => rfl
  | ok _ =>
      dsimp only
      rw [← afterChanges_lowered]
      rfl

theorem runHooks_lowered (hooks : List (Hook C)) :
    runHooks backend (hooks.map Hook.lowered) world.lowered =
      loweredReaction (runHooks backend hooks world) := by
  induction hooks generalizing world with
  | nil => rfl
  | cons hook hooks inductionHypothesis =>
      rw [List.map_cons, runHooks, runHooks, runHook_lowered]
      obtain ⟨result, between, log⟩ := runHook backend hook world
      cases result with
      | error problem => rfl
      | ok _ =>
          dsimp only [loweredReaction]
          rw [inductionHypothesis]
          rfl

/-- The lowered script takes a report just as the script does. -/
theorem takeReport_lowered (report : Report) :
    takeReport backend script.lowered report world.lowered =
      loweredReaction (takeReport backend script report world) := by
  unfold takeReport
  dsimp only [Script.lowered, World.lowered]
  cases world.output.write?
      ((script.format.map fun format => format.render (.report report)).getD "") with
  | none => rfl
  | some output =>
      dsimp only
      rw [List.filter_map, ← runHooks_lowered]
      rfl

theorem report_lowered (report : Report) :
    (host backend script.lowered).report report world.lowered =
      loweredReaction ((host backend script).report report world) :=
  takeReport_lowered report

/-- A rehearsal beside the rehearsal of the lowered script. -/
theorem follows_lowered (backend : Backend S C) (script : Script C) :
    (host backend script).Follows (host backend script.lowered)
      fun _ world other => other = world.lowered where
  now := by
    rintro _ world _ rfl
    rfl
  reader := by
    rintro _ world _ rfl
    rfl
  lowered := by
    rintro _ world _ rfl moment
    cases moment <;> rfl
  ask := by
    rintro _ world _ rfl query
    exact (lowered_ask script.trip).symm
  fallAsleep := by
    rintro _ world _ rfl duration
    rfl
  wake := by
    rintro _ world _ rfl duration
    change Option.Rel _ ((world.clock.advance? duration).map _)
      ((world.clock.advance? duration).map _)
    cases world.clock.advance? duration with
    | none => exact .none
    | some clock => exact .some rfl
  report := by
    rintro _ world _ rfl report _
    rw [report_lowered]
    exact ⟨rfl, rfl⟩
  refuse := by
    rintro _ world _ rfl report differs
    refine absurd ?_ differs
    rw [report_lowered]
    rfl

/-- The script refuses no report that the lowered script takes. -/
theorem not_refuses_lowered
    {same : List Report → World S → World S → Prop}
    (lowers : ∀ {made world other}, same made world other → other = world.lowered)
    (made : List Report)
    (report : Report)
    (halt : Halt) :
    ¬(host backend script).Refuses (host backend script.lowered) same made report halt := by
  rintro ⟨world, other, sameWorld, refused, differs⟩
  rw [lowers sameWorld, report_lowered] at differs
  exact differs refused

/-! ## What a script leaves true of the flag -/

/-- What a hook does to the flag keeps a property of it. -/
structure Hook.Preserves (hook : Hook C) (property : Flag → Prop) : Prop where
  raise : hook.raises = true → ∀ flag, property flag → property (flag.receive .raised)
  release : hook.releases = true → ∀ flag, property flag → property (flag.receive .released)

/-- Nothing in the script takes a property of the flag away. -/
structure Script.Preserves (script : Script C) (property : Flag → Prop) : Prop where
  hooks : ∀ hook ∈ script.hooks, hook.Preserves property
  trip : script.trip.isSome = true → ∀ flag, property flag → property (flag.receive .raised)

section

variable {property : Flag → Prop}

theorem holds_receive
    {signal : Flag.Signal}
    {sends : Bool}
    (preserves : sends = true → ∀ flag, property flag → property (flag.receive signal))
    (holds : property world.flag) :
    property (if sends then world.receive signal else world).flag := by
  cases sends with
  | true => exact preserves rfl world.flag holds
  | false => exact holds

theorem Hook.Preserves.afterChanges
    {hook : Hook C}
    (preserves : hook.Preserves property)
    (log : List LogLine)
    (holds : property world.flag) :
    property (afterChanges hook log world).world.flag := by
  unfold Rehearsal.afterChanges
  cases hook.advance.elim (some world.clock) world.clock.advance? with
  | none => exact holds
  | some clock =>
      have advanced : property { world with clock }.flag := holds
      have raised := holds_receive preserves.raise advanced
      have touched := holds_receive preserves.release raised
      cases hook.refuses <;> exact touched

theorem Hook.Preserves.runHook
    {hook : Hook C}
    (preserves : hook.Preserves property)
    (holds : property world.flag) :
    property (runHook backend hook world).world.flag := by
  unfold Rehearsal.runHook
  dsimp only
  cases (backend.tryAll hook.changes world.store).result with
  | error problem => exact holds
  | ok _ => exact preserves.afterChanges _ holds

theorem holds_runHooks
    {hooks : List (Hook C)}
    (preserve : ∀ hook ∈ hooks, hook.Preserves property)
    (holds : property world.flag) :
    property (runHooks backend hooks world).world.flag := by
  induction hooks generalizing world with
  | nil => exact holds
  | cons hook hooks inductionHypothesis =>
      obtain ⟨preserves, laterPreserve⟩ := List.forall_mem_cons.mp preserve
      have first : property (runHook backend hook world).world.flag := preserves.runHook holds
      rw [runHooks]
      dsimp only
      cases (runHook backend hook world).result with
      | error problem => exact first
      | ok _ => exact inductionHypothesis laterPreserve first

theorem Script.Preserves.takeReport
    (preserves : script.Preserves property)
    (report : Report)
    (holds : property world.flag) :
    property (takeReport backend script report world).world.flag := by
  unfold Rehearsal.takeReport
  dsimp only
  cases world.output.write?
      ((script.format.map fun format => format.render (.report report)).getD "") with
  | none => exact holds
  | some output =>
      exact holds_runHooks (fun hook member => preserves.hooks hook (List.mem_filter.mp member).1)
        holds

theorem Script.Preserves.ask
    (preserves : script.Preserves property)
    (holds : property world.flag) :
    property (world.ask script.trip).flag := by
  unfold World.ask
  cases isTrip : script.trip with
  | none => exact holds
  | some trip =>
      dsimp only
      split
      · exact preserves.trip (by rw [isTrip]; rfl) _ holds
      · exact holds

/-- The flag keeps the property while the loop asks anything of the outside. -/
theorem Script.Preserves.keeps
    (preserves : script.Preserves property)
    (backend : Backend S C) :
    (host backend script).Keeps fun world => property world.flag where
  ask := fun holds _ => preserves.ask holds
  report := fun holds report => preserves.takeReport report holds
  fallAsleep := fun holds _ => holds
  wake := by
    intro world holds duration woken wakes
    obtain ⟨clock, _, rfl⟩ := Option.map_eq_some_iff.mp wakes
    exact holds

end

/-! ## Scripts that leave the flag down -/

/-- Nothing in the script raises the flag; it may still let go of it. -/
structure Script.NeverRaises (script : Script C) : Prop where
  hooks : ∀ hook ∈ script.hooks, hook.raises = false
  trip : script.trip = none
  holds : script.holds = false

/-- A flag that no script raises stays down. -/
theorem Script.NeverRaises.preserves (never : script.NeverRaises) :
    script.Preserves fun flag => flag.isRaised = false where
  hooks := fun hook member =>
    { raise := fun raises => by simp [never.hooks hook member] at raises
      release := fun _ _ lowered => lowered }
  trip := fun isSome => by simp [never.trip] at isSome

/-- A flag that is down and that nobody holds stays so, whatever the script does. -/
theorem Script.preserves_released (script : Script C) :
    script.Preserves fun flag => flag.isRaised = false ∧ flag.isConnected = false where
  hooks := fun hook _ =>
    { raise := fun _ flag released => by rwa [Flag.receive_of_released released.2]
      release := fun _ flag released => by rwa [Flag.receive_of_released released.2] }
  trip := fun _ flag released => by rwa [Flag.receive_of_released released.2]

/-- A flag that is down is not found raised, unless a sleep is held. -/
theorem isRaised_eq_false
    (lowered : world.isRaised = false)
    (never : script.holds = false)
    (moment : Moment) :
    (host backend script).isRaised moment world = false := by
  cases moment <;> simp [host, isRaised, lowered, never]

end

end Rehearsal
end Refresh
end CompositeIndex
