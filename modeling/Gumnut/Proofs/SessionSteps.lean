import Gumnut.Debugger.Session
import Gumnut.Proofs.Frame

/-!
# Steps of a session

A step of a session that is not halted is a step of its machine, with the record of accesses
cleared before it. Of the session itself it changes the state, the exception, the count and the
previous counter; the image, the breakpoints and the policy stay.
-/
set_option autoImplicit false

namespace Gumnut.Session

def ready (session : Session) : Machine :=
  { session.machine with accesses := session.machine.accesses.clear }

def outcome (session : Session) : Machine.Outcome :=
  session.ready.step

/-- The instruction that the next step executes. A halted session executes none. -/
def upcoming? (session : Session) : Option Instruction :=
  if session.state = .halted then none else session.machine.upcoming?

def stateAfter (session : Session) (outcome : Machine.Outcome) : RunState :=
  if outcome.isFatal then .halted
  else if outcome.2.isSome || { session with machine := outcome.1 }.atBreakpoint then .breakpoint
  else .idle

variable {session : Session}

theorem settle_eq (session : Session) (outcome : Machine.Outcome) :
    session.settle outcome =
      { session with
        machine := outcome.1
        state := session.stateAfter outcome
        exception := (outcome.2.map Exception.machine).or session.exception
        steps := if outcome.isFatal then session.steps else session.steps + 1 } := by
  obtain ⟨machine, met⟩ := outcome
  cases met with
  | none => rfl
  | some fault =>
    by_cases fatal : fault.isFatal = true
    · simp [settle, stateAfter, Machine.Outcome.isFatal, fatal]
    · simp [settle, stateAfter, Machine.Outcome.isFatal, fatal]

theorem step_of_halted (halted : session.state = .halted) : session.step = session :=
  if_pos halted

theorem step_eq (running : session.state ≠ .halted) :
    session.step =
      { session with
        machine := session.outcome.1
        previousCounter := session.machine.counter
        state := session.stateAfter session.outcome
        exception := (session.outcome.2.map Exception.machine).or session.exception
        steps := if session.outcome.isFatal then session.steps else session.steps + 1 } := by
  rw [step, if_neg running]
  exact settle_eq _ _

theorem machine_step (running : session.state ≠ .halted) :
    session.step.machine = session.outcome.1 := by
  rw [step_eq running]

theorem previousCounter_step (running : session.state ≠ .halted) :
    session.step.previousCounter = session.machine.counter := by
  rw [step_eq running]

theorem image_step (session : Session) : session.step.image = session.image := by
  by_cases halted : session.state = .halted
  · rw [step_of_halted halted]
  · rw [step_eq halted]

theorem running_of_upcoming {instruction : Instruction}
    (comes : session.upcoming? = some instruction) :
    session.state ≠ .halted ∧ session.ready.upcoming? = some instruction := by
  by_cases halted : session.state = .halted
  · rw [upcoming?, if_pos halted] at comes
    cases comes
  · rw [upcoming?, if_neg halted] at comes
    exact ⟨halted, comes⟩

/-- A step halts a session just if a fatal fault ends it. -/
theorem state_step_eq_halted_iff (running : session.state ≠ .halted) :
    session.step.state = .halted ↔ session.outcome.isFatal = true := by
  rw [step_eq running]
  show session.stateAfter session.outcome = .halted ↔ _
  unfold stateAfter
  split
  · rename_i fatal
    simp [fatal]
  · rename_i harmless
    split
    · simp [harmless]
    · simp [harmless]

theorem outcome_of_idle (running : session.state ≠ .halted) (idle : session.step.state = .idle) :
    session.outcome.2 = none := by
  rw [step_eq running] at idle
  cases met : session.outcome.2 with
  | none => rfl
  | some fault =>
    simp only [stateAfter, met, Option.isSome_some, Bool.true_or, if_true] at idle
    split at idle
    · cases idle
    · cases idle

theorem completed_outcome (session : Session) :
    session.outcome.1.completed =
      if session.outcome.isFatal then session.machine.completed
      else session.machine.completed + 1 :=
  Machine.completed_step session.ready

end Gumnut.Session
