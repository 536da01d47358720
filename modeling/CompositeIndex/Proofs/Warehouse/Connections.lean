import Mathlib.Data.List.Nodup
import Mathlib.Data.List.Perm.Basic
import Mathlib.Order.Bounds.Basic
import CompositeIndex.Warehouse.Pool

/-!
# How many connections a pool keeps

A pool is used step by step: a connection is borrowed, or one of the loans is given back, in any
order. `Balanced` is what every step keeps. The connections that are lent out or idle are never
more than the most loans there have been at one time, and never fewer than the pool would keep
idle of them. So when all loans are back, the number of idle connections is known.
-/

namespace CompositeIndex
namespace Pool

/-! ## Using a pool -/

/-- A step in the use of a pool. -/
inductive Step
  /-- Borrows a connection. Where a new one is needed, it may turn out that none can be opened. -/
  | borrow (opens : Bool)
  /-- Gives back the loan at a position, the oldest one being at zero. -/
  | giveBack (position : Nat)
  deriving DecidableEq, Repr

/-- The pool after a step. Nobody gets a connection if none is idle and none can be opened. -/
def apply (pool : Pool) : Step → Pool
  | .borrow opens => if opens || !pool.idle.isEmpty then pool.acquire else pool
  | .giveBack position => pool.release position

theorem apply_borrow (pool : Pool) (opens : Bool) :
    pool.apply (.borrow opens) =
      if opens || !pool.idle.isEmpty then pool.acquire else pool := rfl

@[simp] theorem apply_giveBack (pool : Pool) (position : Nat) :
    pool.apply (.giveBack position) = pool.release position := rfl

/-- The pool after several steps. -/
def after (pool : Pool) (steps : List Step) : Pool :=
  steps.foldl apply pool

@[simp] theorem after_cons (pool : Pool) (step : Step) (steps : List Step) :
    pool.after (step :: steps) = (pool.apply step).after steps := rfl

/-- The most loans at one time while the steps are taken. -/
def peak (pool : Pool) : List Step → Nat
  | [] => pool.held.length
  | step :: steps => max pool.held.length ((pool.apply step).peak steps)

theorem length_held_le_peak (pool : Pool) (steps : List Step) :
    pool.held.length ≤ pool.peak steps := by
  cases steps with
  | nil => exact Nat.le_refl _
  | cons step steps => exact Nat.le_max_left _ _

/-- The peak is the greatest number of loans after any part of the steps. -/
theorem isGreatest_peak (pool : Pool) (steps : List Step) :
    IsGreatest {count | ∃ before, before <+: steps ∧ (pool.after before).held.length = count}
      (pool.peak steps) := by
  induction steps generalizing pool with
  | nil =>
      refine ⟨⟨[], List.prefix_refl _, rfl⟩, ?_⟩
      rintro _ ⟨before, isPrefix, rfl⟩
      rw [List.prefix_nil.mp isPrefix]
      exact Nat.le_refl _
  | cons step steps inductionHypothesis =>
      obtain ⟨⟨most, isPrefix, reached⟩, above⟩ := inductionHypothesis (pool.apply step)
      constructor
      · -- the peak is reached before the first step or after it
        rcases Nat.le_total ((pool.apply step).peak steps) pool.held.length with lower | higher
        · exact ⟨[], List.nil_prefix, (Nat.max_eq_left lower).symm⟩
        · refine ⟨step :: most, List.cons_prefix_cons.mpr ⟨rfl, isPrefix⟩, ?_⟩
          rw [after_cons, reached, peak, Nat.max_eq_right higher]
      · rintro _ ⟨before, isPrefix, rfl⟩
        rcases List.prefix_cons_iff.mp isPrefix with rfl | ⟨rest, rfl, inRest⟩
        · exact Nat.le_max_left _ _
        · exact Nat.le_trans (above ⟨rest, inRest, rfl⟩) (Nat.le_max_right _ _)

/-! ## What every step keeps -/

/-- How the connections of a pool are distributed, `most` being the most loans at one time so
far. -/
structure Balanced (most : Nat) (pool : Pool) : Prop where
  idle_le : pool.idle.length ≤ pool.idleLimit
  /-- No connection is lent out twice, or lent out while it is idle. -/
  distinct : (pool.held ++ pool.idle).Nodup
  /-- Only connections that have been opened are in use. -/
  lt_opened : ∀ connection ∈ pool.held ++ pool.idle, connection < pool.opened
  /-- No connection is opened but for a new peak. -/
  inUse_le : pool.held.length + pool.idle.length ≤ most
  /-- No connection is given up while there is room for it. -/
  le_inUse : min pool.idleLimit most ≤ pool.held.length + pool.idle.length

theorem balanced_new (path : String) (limit : Nat) : Balanced 0 (new path limit) where
  idle_le := Nat.zero_le _
  distinct := List.nodup_nil
  lt_opened := nofun
  inUse_le := Nat.le_refl _
  le_inUse := Nat.min_le_right _ _

section

variable {pool : Pool} {most : Nat}

@[simp] theorem idleLimit_acquire (pool : Pool) : pool.acquire.idleLimit = pool.idleLimit := by
  unfold acquire
  split <;> rfl

@[simp] theorem length_held_acquire (pool : Pool) :
    pool.acquire.held.length = pool.held.length + 1 := by
  unfold acquire
  split <;> simp

theorem held_acquire (pool : Pool) :
    pool.acquire.held = pool.held ++ [pool.idle.headD pool.opened] := by
  unfold acquire
  cases pool.idle <;> rfl

theorem idle_acquire (pool : Pool) : pool.acquire.idle = pool.idle.tail := by
  unfold acquire
  cases pool.idle with
  | nil => rfl
  | cons connection others => rfl

theorem opened_acquire (pool : Pool) :
    pool.acquire.opened = if pool.idle = [] then pool.opened + 1 else pool.opened := by
  unfold acquire
  cases pool.idle <;> rfl

@[simp] theorem held_park (pool : Pool) (connection : Nat) :
    (pool.park connection).held = pool.held := by
  unfold park
  split <;> rfl

@[simp] theorem opened_park (pool : Pool) (connection : Nat) :
    (pool.park connection).opened = pool.opened := by
  unfold park
  split <;> rfl

@[simp] theorem idleLimit_park (pool : Pool) (connection : Nat) :
    (pool.park connection).idleLimit = pool.idleLimit := by
  unfold park
  split <;> rfl

theorem release_of_lt
    {position : Nat}
    (isLoan : position < pool.held.length) :
    pool.release position =
      { pool with held := pool.held.eraseIdx position }.park pool.held[position] := by
  rw [release, List.getElem?_eq_getElem isLoan]

theorem release_of_le
    {position : Nat}
    (noLoan : pool.held.length ≤ position) :
    pool.release position = pool := by
  rw [release, List.getElem?_eq_none noLoan]

@[simp] theorem opened_release (pool : Pool) (position : Nat) :
    (pool.release position).opened = pool.opened := by
  unfold release
  split <;> simp

@[simp] theorem idleLimit_release (pool : Pool) (position : Nat) :
    (pool.release position).idleLimit = pool.idleLimit := by
  unfold release
  split <;> simp

@[simp] theorem idleLimit_apply (pool : Pool) (step : Step) :
    (pool.apply step).idleLimit = pool.idleLimit := by
  cases step with
  | borrow opens =>
      rw [apply_borrow]
      split
      · exact pool.idleLimit_acquire
      · rfl
  | giveBack position => exact pool.idleLimit_release position

@[simp] theorem idleLimit_after (pool : Pool) (steps : List Step) :
    (pool.after steps).idleLimit = pool.idleLimit := by
  induction steps generalizing pool with
  | nil => rfl
  | cons step steps inductionHypothesis =>
      rw [after_cons, inductionHypothesis, idleLimit_apply]

namespace Balanced

theorem held_le (balanced : Balanced most pool) : pool.held.length ≤ most :=
  Nat.le_trans (Nat.le_add_right _ _) balanced.inUse_le

/-- An idle connection is lent out again, and a new one is opened where there is none. -/
theorem acquire (balanced : Balanced most pool) :
    Balanced (max most (pool.held.length + 1)) pool.acquire := by
  obtain ⟨idle_le, distinct, lt_opened, inUse_le, le_inUse⟩ := balanced
  unfold Pool.acquire
  cases idle : pool.idle with
  | cons connection others =>
      rw [idle, List.length_cons] at idle_le inUse_le le_inUse
      rw [idle] at distinct lt_opened
      have sameMost : max most (pool.held.length + 1) = most := by omega
      rw [sameMost]
      have regrouped : pool.held ++ [connection] ++ others =
          pool.held ++ connection :: others := by simp
      refine ⟨by dsimp only; omega, regrouped ▸ distinct, regrouped ▸ lt_opened, ?_, ?_⟩
      all_goals
        simp only [List.length_append, List.length_singleton]
        omega
  | nil =>
      rw [idle, List.length_nil] at inUse_le le_inUse
      rw [idle, List.append_nil] at distinct lt_opened
      have fresh : pool.opened ∉ pool.held := fun member =>
        Nat.lt_irrefl _ (lt_opened _ member)
      refine ⟨Nat.zero_le _, ?_, ?_, ?_, ?_⟩
      · rw [List.append_nil, ← List.concat_eq_append]
        exact List.Nodup.concat fresh distinct
      · intro connection member
        simp only [List.append_nil, List.mem_append, List.mem_singleton] at member
        rcases member with isOld | rfl
        · exact Nat.lt_succ_of_lt (lt_opened _ isOld)
        · exact Nat.lt_succ_self _
      all_goals
        simp only [List.length_append, List.length_singleton, List.length_nil]
        omega

/-- A loan that comes back is kept or given up. -/
theorem release (balanced : Balanced most pool) (position : Nat) :
    Balanced most (pool.release position) := by
  rcases Nat.lt_or_ge position pool.held.length with isLoan | noLoan
  · obtain ⟨idle_le, distinct, lt_opened, inUse_le, le_inUse⟩ := balanced
    -- the loans are the one that comes back and the others
    have permuted : (pool.held[position] :: pool.held.eraseIdx position).Perm pool.held :=
      List.getElem_cons_eraseIdx_perm isLoan
    have length : (pool.held.eraseIdx position).length + 1 = pool.held.length :=
      permuted.length_eq
    have inUse : (pool.held.eraseIdx position ++ pool.held[position] :: pool.idle).Perm
        (pool.held ++ pool.idle) :=
      List.perm_middle.trans (permuted.append_right pool.idle)
    rw [release_of_lt isLoan]
    unfold park
    split
    · rename_i hasRoom
      dsimp only at hasRoom
      refine ⟨hasRoom, inUse.nodup_iff.mpr distinct, ?_, ?_, ?_⟩
      · exact fun connection member => lt_opened _ (inUse.mem_iff.mp member)
      all_goals
        simp only [List.length_cons]
        omega
    · rename_i isFull
      dsimp only at isFull
      have kept : (pool.held.eraseIdx position ++ pool.idle).Sublist (pool.held ++ pool.idle) :=
        (List.eraseIdx_sublist _ _).append_right _
      refine ⟨idle_le, distinct.sublist kept, ?_, ?_, ?_⟩
      · exact fun connection member => lt_opened _ (kept.subset member)
      all_goals
        dsimp only
        omega
  · rw [release_of_le noLoan]
    exact balanced

/-- A step leaves a pool balanced, with the loans after it counted in. -/
theorem apply (balanced : Balanced most pool) (step : Step) :
    Balanced (max most (pool.apply step).held.length) (pool.apply step) := by
  cases step with
  | borrow opens =>
      rw [apply_borrow]
      split
      · rw [length_held_acquire]
        exact balanced.acquire
      · rwa [Nat.max_eq_left balanced.held_le]
  | giveBack position =>
      have released := balanced.release position
      rwa [apply_giveBack, Nat.max_eq_left released.held_le]

theorem after (balanced : Balanced most pool) (steps : List Step) :
    Balanced (max most (pool.peak steps)) (pool.after steps) := by
  induction steps generalizing pool most with
  | nil => rwa [peak, Nat.max_eq_left balanced.held_le]
  | cons step steps inductionHypothesis =>
      have rest := inductionHypothesis (balanced.apply step)
      rw [Nat.max_assoc, Nat.max_eq_right (length_held_le_peak _ steps)] at rest
      rwa [peak, ← Nat.max_assoc, Nat.max_eq_left balanced.held_le]

end Balanced

/-- When all loans are back, the pool has kept as many connections as it may. -/
theorem Balanced.length_idle
    (balanced : Balanced most pool)
    (allBack : pool.held = []) :
    pool.idle.length = min pool.idleLimit most := by
  obtain ⟨idle_le, _, _, inUse_le, le_inUse⟩ := balanced
  rw [allBack, List.length_nil, Nat.zero_add] at inUse_le le_inUse
  omega

/-- A connection is opened by a loan only, while none is idle. -/
theorem opened_apply (pool : Pool) (step : Step) :
    (pool.apply step).opened =
      if step = .borrow true ∧ pool.idle = [] then pool.opened + 1 else pool.opened := by
  cases step with
  | borrow opens =>
      rw [apply_borrow]
      cases idle : pool.idle <;> cases opens <;> simp [opened_acquire, idle]
  | giveBack position => simp

end

/-! ## Giving back every loan -/

/-- The positions give back every one of so many loans, each of them naming one that is left. -/
def GiveBackAll : List Nat → Nat → Prop
  | [], loans => loans = 0
  | position :: positions, loans =>
      position < loans ∧ GiveBackAll positions (loans - 1)

instance decidableGiveBackAll :
    (positions : List Nat) → (loans : Nat) → Decidable (GiveBackAll positions loans)
  | [], loans => inferInstanceAs (Decidable (loans = 0))
  | position :: positions, loans =>
      have := decidableGiveBackAll positions (loans - 1)
      inferInstanceAs (Decidable (position < loans ∧ GiveBackAll positions (loans - 1)))

/-- Giving back the oldest loan time and again gives back every loan. -/
theorem giveBackAll_replicate (loans : Nat) : GiveBackAll (List.replicate loans 0) loans := by
  induction loans with
  | zero => rfl
  | succ loans inductionHypothesis => exact ⟨Nat.succ_pos _, inductionHypothesis⟩

/-- A loan that is given back is a loan no longer. -/
theorem held_release_of_lt
    {pool : Pool}
    {position : Nat}
    (isLoan : position < pool.held.length) :
    (pool.release position).held = pool.held.eraseIdx position := by
  rw [release_of_lt isLoan, held_park]

/-- It is kept for reuse if there is room for it. -/
theorem idle_release_of_lt
    {pool : Pool}
    {position : Nat}
    (isLoan : position < pool.held.length) :
    (pool.release position).idle =
      if pool.idle.length < pool.idleLimit then pool.held[position] :: pool.idle
      else pool.idle := by
  rw [release_of_lt isLoan, park]
  split <;> rfl

/-- When the loans have been given back one by one, there are none left. -/
theorem held_after_giveBackAll
    {positions : List Nat}
    {pool : Pool}
    (giveBackAll : GiveBackAll positions pool.held.length) :
    (pool.after (positions.map .giveBack)).held = [] := by
  induction positions generalizing pool with
  | nil => exact List.length_eq_zero_iff.mp giveBackAll
  | cons position positions inductionHypothesis =>
      obtain ⟨isLoan, others⟩ := giveBackAll
      rw [List.map_cons, after_cons, apply_giveBack]
      apply inductionHypothesis
      rwa [held_release_of_lt isLoan, List.length_eraseIdx_of_lt isLoan]

/-- Giving back loans makes no new peak. -/
theorem Balanced.after_giveBack
    {most : Nat}
    {pool : Pool}
    (balanced : Balanced most pool)
    (positions : List Nat) :
    Balanced most (pool.after (positions.map .giveBack)) := by
  induction positions generalizing pool with
  | nil => exact balanced
  | cons position positions inductionHypothesis =>
      exact inductionHypothesis (balanced.release position)

/-- Taking back all loans is a sequence of steps. -/
theorem releaseAll_eq_after (pool : Pool) :
    pool.releaseAll =
      pool.after ((List.replicate pool.held.length 0).map .giveBack) := by
  unfold releaseAll
  generalize pool.held = loans
  induction loans generalizing pool with
  | nil => rfl
  | cons connection loans inductionHypothesis => exact inductionHypothesis (pool.release 0)

/-! ## Main theorem -/

/-- However a pool is used: it keeps at most as many idle connections as it may, no connection is
in two places, and one is opened only for a loan while none is idle. A borrowed connection is lent
out, idle or new, and one that is given back is lent out no longer and kept if there is room. Once
every loan has been given back, in whatever order, the pool has as many idle connections as there
have been loans at one time, up to its limit. -/
theorem connections_spec (path : String) (limit : Nat) (steps : List Step) :
    let pool := (new path limit).after steps
    pool.idle.length ≤ max 1 limit ∧
    (pool.held ++ pool.idle).Nodup ∧
    (∀ step, (pool.apply step).opened =
      if step = .borrow true ∧ pool.idle = [] then pool.opened + 1 else pool.opened) ∧
    (∀ opens, opens = true ∨ pool.idle ≠ [] →
      (pool.apply (.borrow opens)).held = pool.held ++ [pool.idle.headD pool.opened] ∧
      (pool.apply (.borrow opens)).idle = pool.idle.tail) ∧
    (∀ position connection, pool.held[position]? = some connection →
      (pool.apply (.giveBack position)).held = pool.held.eraseIdx position ∧
      (pool.apply (.giveBack position)).idle =
        if pool.idle.length < max 1 limit then connection :: pool.idle else pool.idle) ∧
    ∃ most,
      IsGreatest {count | ∃ before, before <+: steps ∧
        ((new path limit).after before).held.length = count} most ∧
      (pool.held = [] → pool.idle.length = min (max 1 limit) most) ∧
      (∀ positions, GiveBackAll positions pool.held.length →
        (pool.after (positions.map .giveBack)).held = [] ∧
        (pool.after (positions.map .giveBack)).idle.length = min (max 1 limit) most) ∧
      pool.releaseAll.held = [] ∧ pool.releaseAll.idle.length = min (max 1 limit) most := by
  intro pool
  have balanced : Balanced ((new path limit).peak steps) pool := by
    have counted := (balanced_new path limit).after steps
    rwa [Nat.zero_max] at counted
  have idleLimit : pool.idleLimit = max 1 limit := idleLimit_after _ steps
  have allBack : ∀ positions, GiveBackAll positions pool.held.length →
      (pool.after (positions.map .giveBack)).held = [] ∧
      (pool.after (positions.map .giveBack)).idle.length =
        min (max 1 limit) ((new path limit).peak steps) := by
    intro positions giveBackAll
    have noLoans := held_after_giveBackAll giveBackAll
    refine ⟨noLoans, ?_⟩
    rw [(balanced.after_giveBack positions).length_idle noLoans, idleLimit_after, idleLimit]
  refine ⟨idleLimit ▸ balanced.idle_le, balanced.distinct, pool.opened_apply, ?borrowed,
    ?givenBack, _, isGreatest_peak _ steps, ?atRest, allBack, ?atOnce⟩
  case borrowed =>
    intro opens succeeds
    have lends : (opens || !pool.idle.isEmpty) = true := by simpa using succeeds
    rw [apply_borrow, if_pos lends]
    exact ⟨pool.held_acquire, pool.idle_acquire⟩
  case givenBack =>
    intro position connection lent
    obtain ⟨isLoan, rfl⟩ := List.getElem?_eq_some_iff.mp lent
    exact ⟨held_release_of_lt isLoan, by rw [apply_giveBack, idle_release_of_lt isLoan, idleLimit]⟩
  case atRest =>
    intro noLoans
    rw [balanced.length_idle noLoans, idleLimit]
  case atOnce =>
    rw [releaseAll_eq_after]
    exact allBack _ (giveBackAll_replicate _)

/-- Three loans of a pool that keeps two connections, the middle one given back in between and
borrowed anew. When all are back, two are kept. -/
theorem connections_spec_sample :
    let steps : List Step := [.borrow true, .borrow true, .borrow true, .giveBack 1, .borrow false]
    let pool := (new "store" 2).after steps
    let back := pool.after [.giveBack 2, .giveBack 0, .giveBack 0]
    pool.held = [0, 2, 1] ∧ pool.idle = [] ∧ GiveBackAll [2, 0, 0] pool.held.length ∧
      back.held = [] ∧ back.idle = [0, 1] ∧ back.idle.length = min (max 1 2) 3 := by
  intro steps pool back
  have giveBackAll : GiveBackAll [2, 0, 0] pool.held.length := by decide
  obtain ⟨_, _, _, _, _, most, greatest, _, allBack, _⟩ := connections_spec "store" 2 steps
  obtain ⟨noLoans, kept⟩ := allBack [2, 0, 0] giveBackAll
  have threeLoans : most = 3 := greatest.unique (isGreatest_peak (new "store" 2) steps)
  rw [threeLoans] at kept
  exact ⟨by decide, by decide, giveBackAll, noLoans, by decide, kept⟩

end Pool
end CompositeIndex
