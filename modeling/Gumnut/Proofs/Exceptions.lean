import Gumnut.Proofs.Events

/-!
# Exceptions are told once

A caller who takes the recorded exception after every request is told every exception that is
raised, in order and once, since no request raises more than one: a run ends with the step that
meets a fault. A caller who takes it at other times is told the one that was raised last, unless it
has been taken before or the session has started over since.
-/
set_option autoImplicit false

namespace Gumnut

namespace Session

inductive Taking where
  | alone
  | withStatus

inductive Notice where
  | exception (exception : Exception)
  | report (report : ExceptionReport)
  deriving DecidableEq

def Taking.notice : Taking → Exception → Notice
  | alone, exception => .exception exception
  | withStatus, exception => .report exception.report

def take (session : Session) : Taking → Session × Option Notice
  | .alone =>
    let (taken, exception) := session.takeException
    (taken, exception.map .exception)
  | .withStatus =>
    let (taken, status) := session.status
    (taken, status.exception.map .report)

def raised (session : Session) (request : Request) : List Exception :=
  (session.history (request.actions session)).filterMap Event.exception?

/-- What a caller is told who takes the recorded exception after every request. -/
def notices (session : Session) : List (Request × Taking) → List Notice
  | [] => []
  | (request, taking) :: rest =>
    let (taken, notice) := (session.serve request).take taking
    notice.toList ++ taken.notices rest

/-- What there is to tell: for every request the exceptions that it raises. -/
def occasions (session : Session) : List (Request × Taking) → List Notice
  | [] => []
  | (request, taking) :: rest =>
    (session.raised request).map taking.notice ++
      ((session.serve request).take taking).1.occasions rest

variable {session : Session}

theorem take_eq (session : Session) (taking : Taking) :
    session.take taking =
      ({ session with exception := none }, session.exception.map taking.notice) := by
  cases taking with
  | alone => rfl
  | withStatus =>
    show (_, (session.exception.map Exception.report).map Notice.report) = _
    rw [Option.map_map]
    rfl

theorem events_step_of_idle (idle : session.step.state = .idle) : session.events .step = [] := by
  by_cases halted : session.state = .halted
  · exact events_step_of_halted halted
  · rw [events_step halted, outcome_of_idle halted idle]
    rfl

/-- None of the steps of a run but the last raises anything. -/
theorem events_quiet {n k : Nat}
    (idle : ∀ k, k + 1 < n → (Session.step^[k + 1] session).state = .idle) (early : k + 1 < n) :
    (Session.step^[k] session).events .step = [] := by
  have next := idle k early
  rw [Function.iterate_succ_apply'] at next
  exact events_step_of_idle next

theorem history_of_quiet {n : Nat}
    (quiet : ∀ k, k < n → (Session.step^[k] session).events .step = []) :
    session.history (List.replicate (n + 1) .step) =
      (Session.step^[n] session).events .step := by
  induction n generalizing session with
  | zero => exact List.append_nil _
  | succ n ih =>
    have first : session.events .step = [] := quiet 0 (Nat.succ_pos n)
    rw [List.replicate_succ, history, first, List.nil_append, Function.iterate_succ_apply]
    apply ih
    intro k early
    exact quiet (k + 1) (Nat.succ_lt_succ early)

/-- Of the exceptions of an action, the one that is recorded behind it is all. -/
theorem filterMap_events (session : Session) (action : Action) :
    (session.events action).filterMap Event.exception? =
      (Event.recorded none (session.events action)).toList := by
  cases action with
  | setup source =>
    rw [events]
    cases Image.ofSource source with
    | ok image => rfl
    | error error => rfl
  | step =>
    by_cases halted : session.state = .halted
    · rw [events_step_of_halted halted]
      rfl
    · rw [events_step halted]
      cases session.outcome.2 with
      | none => rfl
      | some fault => rfl
  | load | reset | takeException | status => rfl
  | toggleBreakpoint | raiseInterrupt | setIo | setPolicy => rfl

/-- A request that only looks raises one exception at most, and records it. -/
theorem raised_eq {request : Request} (looks : request.OnlyLooks) (session : Session) :
    session.raised request =
      (Event.recorded none (session.history (request.actions session))).toList := by
  have single : ∀ (session : Session) (action : Action), (session.history [action]).filterMap
      Event.exception? = (Event.recorded none (session.history [action])).toList := by
    intro session action
    rw [history, history, List.append_nil]
    exact filterMap_events session action
  by_cases runs : request.IsRun
  · obtain ⟨n, steps, -, idle⟩ := steps_of_onlyLooks runs looks session
    rw [raised, steps]
    cases n with
    | zero => rfl
    | succ n =>
      rw [history_of_quiet fun k early => events_quiet idle (Nat.succ_lt_succ early)]
      exact filterMap_events _ .step
  · cases request with
    | act action => exact single session action
    | run | runFor | runWhile => exact absurd trivial runs

theorem notices_eq_occasions {calls : List (Request × Taking)} (clear : session.exception = none)
    (looks : ∀ call ∈ calls, call.1.OnlyLooks) : session.notices calls = session.occasions calls := by
  induction calls generalizing session with
  | nil => rfl
  | cons call rest ih =>
    obtain ⟨request, taking⟩ := call
    have own : request.OnlyLooks := looks (request, taking) List.mem_cons_self
    have served : (session.serve request).exception =
        Event.recorded none (session.history (request.actions session)) := by
      rw [serve_eq_actAll, exception_actAll, clear]
    rw [notices, occasions, take_eq, raised_eq own, served]
    dsimp only
    rw [Option.toList_map, ih rfl]
    intro later member
    exact looks later (List.mem_cons_of_mem _ member)

/-- A caller who takes the exception after every request is told all that is raised, in order and
once; at other times it is the latest one that is told, if it is still recorded. -/
theorem exceptions_told_once :
    (∀ (session : Session) (calls : List (Request × Taking)), session.exception = none →
      (∀ call ∈ calls, call.1.OnlyLooks) → session.notices calls = session.occasions calls) ∧
    (∀ (session : Session) (request : Request), request.IsRun → request.OnlyLooks →
      ∃ n, request.actions session = List.replicate n .step ∧
        session.serve request = Session.step^[n] session ∧
        ∀ k, k + 1 < n → (Session.step^[k] session).events .step = []) ∧
    (∀ (session : Session) (requests : List Request) (taking : Taking),
      ((session.serveAll requests).take taking).2 =
        (Event.recorded session.exception
          (session.history (Request.allActions session requests))).map taking.notice) ∧
    (∀ session : Session, session.outcome.2 = none → session.step.exception = session.exception) := by
  refine ⟨?_, ?_, ?_, ?_⟩
  · intro session calls clear looks
    exact notices_eq_occasions clear looks
  · intro session request runs looks
    obtain ⟨n, steps, served, idle⟩ := steps_of_onlyLooks runs looks session
    refine ⟨n, steps, served, ?_⟩
    intro k early
    exact events_quiet idle early
  · intro session requests taking
    rw [take_eq, serveAll_eq_actAll, exception_actAll]
  · intro session harmless
    by_cases halted : session.state = .halted
    · rw [step_of_halted halted]
    · rw [step_eq halted, harmless]
      rfl

def faulty : List (Request × Taking) :=
  [(.act (.setup "foo r1\n"), .alone), (.act (.setup "loop: jsb loop\n"), .alone), (.run, .alone),
    (.act .step, .withStatus)]

theorem exceptions_told_once_faulty :
    notices {} faulty =
      [.exception (.assembly ⟨.unknownMnemonic "foo", 0⟩),
        .exception (.machine (.returnStackOverflow 0)),
        .report ⟨"return_stack_overflow", "return address stack overflow", some 0⟩] := by
  have looks : ∀ call ∈ faulty, call.1.OnlyLooks := by
    simp [faulty, Request.OnlyLooks]
  rw [exceptions_told_once.1 {} faulty rfl looks]
  decide +kernel

end Session

end Gumnut
