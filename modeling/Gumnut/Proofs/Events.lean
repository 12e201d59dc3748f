import Gumnut.Proofs.Requests

/-!
# What happens to a session

The events of a session, as far as its program and its exceptions go, in the order in which they
happen: it starts over, an exception is raised by a program that cannot be assembled or by a step
of the machine, and the recorded exception is taken. The latest event tells which exception is
recorded.
-/
set_option autoImplicit false

namespace Gumnut

inductive Event where
  /-- The session starts over, with an image or with nothing. -/
  | started (program : Option Image)
  | raised (exception : Exception)
  | taken

namespace Event

def exception? : Event → Option Exception
  | raised exception => some exception
  | started _ | taken => none

/-- The exception that is recorded after some events: the latest of them tells, and without events
the one stays that was recorded before. -/
def recorded (before : Option Exception) (events : List Event) : Option Exception :=
  match events.getLast? with
  | some event => event.exception?
  | none => before

theorem recorded_append (before : Option Exception) (first second : List Event) :
    recorded before (first ++ second) = recorded (recorded before first) second := by
  unfold recorded
  rw [List.getLast?_append]
  cases second.getLast? with
  | some event => rfl
  | none => rfl

end Event

namespace Session

def events (session : Session) : Action → List Event
  | .setup source =>
    match Image.ofSource source with
    | .ok image => [.started (some image)]
    | .error error => [.started none, .raised (.assembly error)]
  | .load image => [.started (some image)]
  | .reset => [.started none]
  | .step =>
    if session.state = .halted then []
    else session.outcome.2.toList.map fun fault => .raised (.machine fault)
  | .takeException | .status => [.taken]
  | .toggleBreakpoint _ | .raiseInterrupt | .setIo _ _ | .setPolicy _ => []

def history (session : Session) : List Action → List Event
  | [] => []
  | action :: rest => session.events action ++ (session.act action).history rest

variable {session : Session}

theorem events_step_of_halted (halted : session.state = .halted) : session.events .step = [] :=
  if_pos halted

theorem events_step (running : session.state ≠ .halted) :
    session.events .step = session.outcome.2.toList.map fun fault => .raised (.machine fault) :=
  if_neg running

theorem exception_step (session : Session) :
    session.step.exception = Event.recorded session.exception (session.events .step) := by
  by_cases halted : session.state = .halted
  · rw [step_of_halted halted, events_step_of_halted halted]
    rfl
  · rw [step_eq halted, events_step halted]
    cases session.outcome.2 with
    | none => rfl
    | some fault => rfl

theorem exception_act (session : Session) (action : Action) :
    (session.act action).exception =
      Event.recorded session.exception (session.events action) := by
  cases action with
  | setup source =>
    rw [act, events, setup]
    cases Image.ofSource source with
    | ok image => rfl
    | error error => rfl
  | step => exact exception_step session
  | load | reset | takeException | status => rfl
  | toggleBreakpoint | raiseInterrupt | setIo | setPolicy => rfl

theorem exception_actAll (session : Session) (actions : List Action) :
    (session.actAll actions).exception =
      Event.recorded session.exception (session.history actions) := by
  induction actions generalizing session with
  | nil => rfl
  | cons action rest ih =>
    show ((session.act action).actAll rest).exception = _
    rw [ih, exception_act, history, Event.recorded_append]

end Session

end Gumnut
