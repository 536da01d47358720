/-!
# The flag

Somebody outside holds a flag that interrupts a run when it is raised. A raised flag stays up.
Whoever holds the flag may also let go of it; from then on it stays as it is, so that the wait
for a flag that is still down has no end.
-/

namespace CompositeIndex
namespace Refresh

/-- The flag of a run. -/
structure Flag where
  isRaised : Bool := false
  /-- Somebody can still raise it. -/
  isConnected : Bool := true
  deriving DecidableEq, Repr

namespace Flag

/-- What can happen to a flag. -/
inductive Signal
  | raised
  /-- Whoever holds the flag lets go of it. -/
  | released
  deriving DecidableEq, Repr

/-- Raises the flag if that is still possible. -/
def raise (flag : Flag) : Flag :=
  { flag with isRaised := flag.isRaised || flag.isConnected }

def release (flag : Flag) : Flag :=
  { flag with isConnected := false }

def receive (flag : Flag) : Signal → Flag
  | .raised => flag.raise
  | .released => flag.release

/-- Waits for the flag while signals arrive; answers whether the wait is over by then. The wait
looks at the flag, and if it is down it looks again after the next signal. Where nobody holds
the flag any more, no signal is waited for and the wait has no end. -/
def cancelled (flag : Flag) : List Signal → Bool
  | [] => flag.isRaised
  | signal :: signals =>
      if flag.isRaised then true
      else if flag.isConnected then (flag.receive signal).cancelled signals
      else false

/-- A single look at the flag. -/
@[simp] theorem cancelled_nil (flag : Flag) : flag.cancelled [] = flag.isRaised := rfl

/-- Nothing lowers a flag. -/
theorem isRaised_receive
    {flag : Flag}
    (raised : flag.isRaised = true)
    (signal : Signal) :
    (flag.receive signal).isRaised = true := by
  cases signal with
  | raised => simp [receive, raise, raised]
  | released => exact raised

/-- A flag that nobody holds is not touched any more. -/
theorem receive_of_released
    {flag : Flag}
    (released : flag.isConnected = false)
    (signal : Signal) :
    flag.receive signal = flag := by
  obtain ⟨isRaised, isConnected⟩ := flag
  cases released
  cases signal <;> simp [receive, raise, release]

/-- The wait for a flag that is up is over at once. -/
theorem cancelled_of_isRaised
    {flag : Flag}
    (raised : flag.isRaised = true)
    (signals : List Signal) :
    flag.cancelled signals = true := by
  cases signals with
  | nil => exact raised
  | cons signal signals => simp [cancelled, raised]

/-- The wait for a flag that is down and that nobody holds is never over. -/
theorem cancelled_of_released
    {flag : Flag}
    (lowered : flag.isRaised = false)
    (released : flag.isConnected = false)
    (signals : List Signal) :
    flag.cancelled signals = false := by
  cases signals with
  | nil => exact lowered
  | cons signal signals => simp [cancelled, lowered, released]

/-- The wait goes on behind a signal as it would for the flag that the signal leaves. -/
theorem cancelled_cons (flag : Flag) (signal : Signal) (signals : List Signal) :
    flag.cancelled (signal :: signals) = (flag.receive signal).cancelled signals := by
  cases raised : flag.isRaised with
  | true =>
      rw [cancelled_of_isRaised raised, cancelled_of_isRaised (isRaised_receive raised signal)]
  | false =>
      cases connected : flag.isConnected with
      | true => simp [cancelled, raised, connected]
      | false =>
          rw [receive_of_released connected, cancelled_of_released raised connected,
            cancelled_of_released raised connected]

/-- The wait is over exactly if the flag is up when the signals have arrived. -/
theorem cancelled_eq_isRaised (flag : Flag) (signals : List Signal) :
    flag.cancelled signals = (signals.foldl receive flag).isRaised := by
  induction signals generalizing flag with
  | nil => rfl
  | cons signal signals inductionHypothesis =>
      rw [cancelled_cons, inductionHypothesis, List.foldl_cons]

end Flag
end Refresh
end CompositeIndex
