import CompositeIndex.Refresh.Host

/-!
# The course of a run

A part of a run ends with an answer or breaks off. In either case it leaves the loop in a
phase and the world in a state, and tells what it did. Parts are put together by `andThen`;
when a part breaks off, nothing follows it.
-/

namespace CompositeIndex
namespace Refresh

/-- Where the loop and the world around it stand. -/
structure Standing (σ : Type) where
  phase : Phase
  world : σ

/-- How a part of a run went. -/
structure Course (σ α : Type) where
  result : Except Halt α
  standing : Standing σ
  trace : Trace

namespace Course

/-- Answers without doing anything. -/
def pure (answer : α) (standing : Standing σ) : Course σ α :=
  ⟨.ok answer, standing, []⟩

/-- Breaks off. -/
def halt (reason : Halt) (standing : Standing σ) : Course σ α :=
  ⟨.error reason, standing, []⟩

/-- Does one thing that changes nothing outside. -/
def note (activity : Activity) (standing : Standing σ) : Course σ Unit :=
  ⟨.ok (), standing, [activity]⟩

/-- Goes on with what the answer leads to. -/
def andThen
    (course : Course σ α)
    (next : α → Standing σ → Course σ β) : Course σ β :=
  match course.result with
  | .error reason => ⟨.error reason, course.standing, course.trace⟩
  | .ok answer =>
      let rest := next answer course.standing
      ⟨rest.result, rest.standing, course.trace ++ rest.trace⟩

/-- Moves to another phase. -/
def enter (next : Phase) (standing : Standing σ) : Course σ Unit :=
  ⟨.ok (), { standing with phase := next }, [.entered standing.phase next]⟩

/-- Hands a report over. -/
def report (host : Host σ) (report : Report) (standing : Standing σ) : Course σ Unit :=
  let reaction := host.report report standing.world
  ⟨reaction.result, { standing with world := reaction.world },
    [.reported report reaction.log]⟩

@[simp] theorem andThen_halt
    (reason : Halt)
    (standing : Standing σ)
    (next : α → Standing σ → Course σ β) :
    (halt reason standing).andThen next = halt reason standing := rfl

@[simp] theorem andThen_pure
    (answer : α)
    (standing : Standing σ)
    (next : α → Standing σ → Course σ β) :
    (pure answer standing).andThen next = next answer standing := rfl

/-- It does not matter how parts are grouped. -/
theorem andThen_assoc
    (course : Course σ α)
    (next : α → Standing σ → Course σ β)
    (last : β → Standing σ → Course σ γ) :
    (course.andThen next).andThen last =
      course.andThen fun answer standing => (next answer standing).andThen last := by
  obtain ⟨result, standing, trace⟩ := course
  cases result with
  | error reason => rfl
  | ok answer =>
      simp only [andThen]
      cases (next answer standing).result with
      | error reason => rfl
      | ok second => simp [List.append_assoc]

end Course
end Refresh
end CompositeIndex
