import Gumnut.Proofs.Events
import Mathlib.Data.List.Induction

/-!
# When a session is halted

The state of a session that has been used in any way since it was new. Its count of steps is that
of its machine, a session that is not halted has a program to run, and behind a fatal exception it
is halted. It is halted just if it has been started without an instruction, or if a step has met a
fatal fault since it was started; and then no step, run or tripwire does anything until a program
is loaded.
-/
set_option autoImplicit false

namespace Gumnut

namespace Event

/-- Whether a session is halted behind an event, by whether it was before. -/
def halts (halted : Bool) : Event → Bool
  | started none => true
  | started (some image) => image.instructionCount == 0
  | raised (.machine fault) => halted || fault.isFatal
  | raised (.assembly _) | taken => halted

def isFatalFault : Event → Bool
  | raised (.machine fault) => fault.isFatal
  | raised (.assembly _) | started _ | taken => false

theorem foldl_halts_of_not_started {events : List Event}
    (running : ∀ program, started program ∉ events) (halted : Bool) :
    events.foldl halts halted = (halted || events.any isFatalFault) := by
  induction events generalizing halted with
  | nil => exact (Bool.or_false halted).symm
  | cons event rest ih =>
    have later : ∀ program, started program ∉ rest := by
      intro program member
      exact running program (List.mem_cons_of_mem event member)
    rw [List.foldl_cons, ih later, List.any_cons, ← Bool.or_assoc]
    cases event with
    | started program => exact absurd List.mem_cons_self (running program)
    | taken => rw [halts, isFatalFault, Bool.or_false]
    | raised exception =>
      cases exception with
      | assembly error => rw [halts, isFatalFault, Bool.or_false]
      | machine fault => rfl

theorem foldl_halts_of_not_filled {events : List Event}
    (empty : ∀ image, started (some image) ∈ events → image.instructionCount = 0) :
    events.foldl halts true = true := by
  induction events with
  | nil => rfl
  | cons event rest ih =>
    have kept : halts true event = true := by
      cases event with
      | taken => rfl
      | raised exception => cases exception <;> rfl
      | started program =>
        cases program with
        | none => rfl
        | some image => exact beq_iff_eq.mpr (empty image List.mem_cons_self)
    rw [List.foldl_cons, kept]
    apply ih
    intro image member
    exact empty image (List.mem_cons_of_mem event member)

/-- Behind a first start there is a last one. -/
theorem exists_last_started (events : List Event) :
    ∃ before program since, started none :: events = before ++ started program :: since ∧
      ∀ other, started other ∉ since := by
  induction events using List.reverseRecOn with
  | nil => exact ⟨[], none, [], rfl, fun _ => List.not_mem_nil⟩
  | append_singleton events event ih =>
    obtain ⟨before, program, since, split, running⟩ := ih
    by_cases starts : ∃ next, event = started next
    · obtain ⟨next, rfl⟩ := starts
      exact ⟨started none :: events, next, [], rfl, fun _ => List.not_mem_nil⟩
    · refine ⟨before, program, since ++ [event], ?_, ?_⟩
      · rw [← List.cons_append, split, List.append_assoc]
        rfl
      · intro other member
        rcases List.mem_append.mp member with early | last
        · exact running other early
        · exact starts ⟨other, (List.mem_singleton.mp last).symm⟩

end Event

namespace Session

variable {session : Session}

def isHalted (session : Session) : Bool :=
  session.state == .halted

theorem isHalted_eq_true_iff : session.isHalted = true ↔ session.state = .halted :=
  beq_iff_eq

theorem isHalted_step (session : Session) :
    session.step.isHalted = (session.events .step).foldl Event.halts session.isHalted := by
  by_cases halted : session.state = .halted
  · rw [step_of_halted halted, events_step_of_halted halted]
    rfl
  · have before : session.isHalted = false := beq_eq_false_iff_ne.mpr halted
    have behind : session.step.isHalted = session.outcome.isFatal := by
      rw [Bool.eq_iff_iff, isHalted_eq_true_iff]
      exact state_step_eq_halted_iff halted
    rw [behind, events_step halted, before, Machine.Outcome.isFatal]
    cases session.outcome.2 with
    | none => rfl
    | some fault => rfl

theorem isHalted_act (session : Session) (action : Action) :
    (session.act action).isHalted =
      (session.events action).foldl Event.halts session.isHalted := by
  have loaded : ∀ image, (session.load image).isHalted = (image.instructionCount == 0) := by
    intro image
    show ((if image.instructionCount = 0 then RunState.halted else .idle) == .halted) = _
    by_cases empty : image.instructionCount = 0
    · rw [if_pos empty, empty]
      rfl
    · rw [if_neg empty, beq_eq_false_iff_ne.mpr empty]
      rfl
  cases action with
  | setup source =>
    rw [act, events, setup]
    cases Image.ofSource source with
    | ok image => exact loaded image
    | error error => rfl
  | load image => exact loaded image
  | step => exact isHalted_step session
  | reset | takeException | status => rfl
  | toggleBreakpoint | raiseInterrupt | setIo | setPolicy => rfl

theorem isHalted_actAll (session : Session) (actions : List Action) :
    (session.actAll actions).isHalted =
      (session.history actions).foldl Event.halts session.isHalted := by
  induction actions generalizing session with
  | nil => rfl
  | cons action rest ih =>
    show ((session.act action).actAll rest).isHalted = _
    rw [ih, isHalted_act, history, List.foldl_append]

/-- A new session is halted behind some actions just if it has been started last without an
instruction, or a step has met a fatal fault since. -/
theorem halted_iff (policy : PausePolicy) (actions : List Action) :
    ∃ before program since,
      .started none :: history { policy } actions = before ++ .started program :: since ∧
      (∀ other, .started other ∉ since) ∧
      ((actAll { policy } actions).state = .halted ↔
        (∀ image, program = some image → image.instructionCount = 0) ∨
        ∃ fault, .raised (.machine fault) ∈ since ∧ fault.isFatal = true) := by
  obtain ⟨before, program, since, split, running⟩ :=
    Event.exists_last_started (history { policy } actions)
  refine ⟨before, program, since, split, running, ?_⟩
  have whole : (actAll { policy } actions).isHalted =
      (.started none :: history { policy } actions).foldl Event.halts true := by
    rw [isHalted_actAll]
    rfl
  rw [← isHalted_eq_true_iff, whole, split, List.foldl_append, List.foldl_cons,
    Event.foldl_halts_of_not_started running, Bool.or_eq_true, List.any_eq_true]
  apply or_congr
  · cases program with
    | none => simp [Event.halts]
    | some image => simp [Event.halts]
  · constructor
    · rintro ⟨event, member, fatal⟩
      cases event with
      | started | taken => cases fatal
      | raised exception =>
        cases exception with
        | assembly error => cases fatal
        | machine fault => exact ⟨fault, member, fatal⟩
    · rintro ⟨fault, member, fatal⟩
      exact ⟨_, member, fatal⟩

/-! ## What holds of every session -/

/-- The parts of a session agree with each other. -/
structure Sound (session : Session) : Prop where
  steps_eq : session.steps = session.machine.completed
  filled_of_running : session.state ≠ .halted → 0 < session.image.instructionCount
  halted_of_fatal : ∀ exception, session.exception = some exception →
    exception.isFatal = true → session.state = .halted

namespace Sound

theorem reset (session : Session) : session.reset.Sound := by
  refine ⟨rfl, fun running => absurd rfl running, ?_⟩
  intro exception recorded
  cases recorded

theorem load (session : Session) (image : Image) : (session.load image).Sound := by
  refine ⟨rfl, ?_, ?_⟩
  · intro running
    apply Nat.pos_of_ne_zero
    intro empty
    exact running (if_pos empty)
  · intro exception recorded
    cases recorded

theorem setup (session : Session) (source : String) : (session.setup source).Sound := by
  rw [Session.setup]
  cases Image.ofSource source with
  | ok image => exact load session image
  | error error => exact ⟨rfl, fun running => absurd rfl running, fun _ _ _ => rfl⟩

theorem step (sound : session.Sound) : session.step.Sound := by
  by_cases halted : session.state = .halted
  · rw [step_of_halted halted]
    exact sound
  · refine ⟨?_, ?_, ?_⟩
    · rw [machine_step halted, completed_outcome, ← sound.steps_eq, step_eq halted]
    · intro _
      rw [image_step]
      exact sound.filled_of_running halted
    · intro exception recorded fatal
      rw [state_step_eq_halted_iff halted, Machine.Outcome.isFatal]
      rw [step_eq halted] at recorded
      cases met : session.outcome.2 with
      | none =>
        simp only [met, Option.map_none, Option.none_or] at recorded
        exact absurd (sound.halted_of_fatal exception recorded fatal) halted
      | some fault =>
        simp only [met, Option.map_some, Option.some_or, Option.some.injEq] at recorded
        subst recorded
        exact fatal

theorem act (sound : session.Sound) (action : Action) : (session.act action).Sound := by
  cases action with
  | setup source => exact setup session source
  | load image => exact load session image
  | reset => exact reset session
  | step => exact sound.step
  | toggleBreakpoint | raiseInterrupt | setIo | setPolicy =>
    exact ⟨sound.steps_eq, sound.filled_of_running, sound.halted_of_fatal⟩
  | takeException | status =>
    refine ⟨sound.steps_eq, sound.filled_of_running, ?_⟩
    intro exception recorded
    cases recorded

theorem actAll (sound : session.Sound) (actions : List Action) :
    (session.actAll actions).Sound := by
  induction actions generalizing session with
  | nil => exact sound
  | cons action rest ih => exact ih (sound.act action)

end Sound

/-! ## Halted sessions -/

theorem runUnder_of_halted {σ : Type} (tripwire : Tripwire σ) (budget : Nat) (watch : σ)
    (halted : session.state = .halted) :
    runUnder tripwire budget watch session = (watch, session) := by
  cases budget with
  | zero => rfl
  | succ budget => rw [runUnder, if_pos halted]

theorem halted_actAll {actions : List Action} (halted : session.state = .halted)
    (empty : ∀ image, .started (some image) ∈ session.history actions →
      image.instructionCount = 0) :
    (session.actAll actions).state = .halted := by
  rw [← isHalted_eq_true_iff] at halted ⊢
  rw [isHalted_actAll, halted]
  exact Event.foldl_halts_of_not_filled empty

/-- The laws of a session that has been asked anything since it was new. -/
theorem session_laws (policy : PausePolicy) (requests : List Request) :
    let session := serveAll { policy } requests
    session.steps = session.machine.completed ∧
    (session.state ≠ .halted → 0 < session.image.instructionCount) ∧
    (∀ exception, session.exception = some exception → exception.isFatal = true →
      session.state = .halted) ∧
    (∃ before program since,
      .started none :: history { policy } (Request.allActions { policy } requests) =
        before ++ .started program :: since ∧
      (∀ other, .started other ∉ since) ∧
      (session.state = .halted ↔
        (∀ image, program = some image → image.instructionCount = 0) ∨
        ∃ fault, .raised (.machine fault) ∈ since ∧ fault.isFatal = true)) ∧
    (session.state = .halted → ∀ more : List Request,
      (∀ image, .started (some image) ∈ session.history (Request.allActions session more) →
        image.instructionCount = 0) →
      let later := session.serveAll more
      later.state = .halted ∧ later.step = later ∧ later.run = later ∧
        (∀ limit, later.runFor limit = later) ∧
        ∀ (σ : Type) (tripwire : Tripwire σ) (budget : Nat) (watch : σ),
          runUnder tripwire budget watch later = (watch, later)) := by
  intro session
  have new : Sound { policy } := Sound.reset { policy }
  have used : session = actAll { policy } (Request.allActions { policy } requests) :=
    serveAll_eq_actAll _ _
  have sound : session.Sound := by
    rw [used]
    exact new.actAll _
  refine ⟨sound.steps_eq, sound.filled_of_running, sound.halted_of_fatal, ?_, ?_⟩
  · rw [used]
    exact halted_iff policy _
  · intro halted more empty later
    have still : later.state = .halted := by
      show (session.serveAll more).state = .halted
      rw [serveAll_eq_actAll]
      exact halted_actAll halted empty
    refine ⟨still, step_of_halted still, ?_, ?_, ?_⟩
    · exact congrArg Prod.snd (runUnder_of_halted untripped unlimited () still)
    · intro limit
      exact congrArg Prod.snd (runUnder_of_halted untripped limit () still)
    · intro σ tripwire budget watch
      exact runUnder_of_halted tripwire budget watch still

def unpaired : List Request :=
  [.act (.setup "ret\n"), .run]

theorem session_laws_unpaired :
    (serveAll {} unpaired).state = .halted ∧
      (serveAll {} unpaired).exception = some (.machine .emptyReturnStack) ∧
      (serveAll {} unpaired).steps = (serveAll {} unpaired).machine.completed ∧
      ((serveAll {} unpaired).serveAll [.act (.toggleBreakpoint 0)]).run =
        (serveAll {} unpaired).serveAll [.act (.toggleBreakpoint 0)] := by
  have recorded : (serveAll {} unpaired).exception = some (.machine .emptyReturnStack) := by
    decide +kernel
  obtain ⟨steps, -, fatal, -, absorbs⟩ := session_laws {} unpaired
  have halted := fatal _ recorded rfl
  have quiet : (serveAll {} unpaired).history
      (Request.allActions (serveAll {} unpaired) [.act (.toggleBreakpoint 0)]) = [] := rfl
  obtain ⟨-, -, unchanged, -⟩ := absorbs halted [.act (.toggleBreakpoint 0)] (by
    intro image member
    rw [quiet] at member
    cases member)
  exact ⟨halted, recorded, steps, unchanged⟩

end Session

end Gumnut
