import Gumnut.Proofs.Requests

/-!
# Debugging changes no program

However a loaded program is stepped, run, paused and looked at, its machine goes through the same
states one after the other: that of the image, and from each the one behind the next step. So two
sessions with the same image that have made as many steps, and are both halted or both not, have
the same machine but for a pending interrupt.
-/
set_option autoImplicit false

namespace Gumnut

namespace Machine

def lap (machine : Machine) : Machine :=
  { machine with accesses := machine.accesses.clear }.step.1

theorem lap_withPending (machine : Machine) (pending : Bool) :
    (machine.withPending pending).lap = machine.lap.withPending pending :=
  congrArg Prod.fst
    (step_withPending { machine with accesses := machine.accesses.clear } pending)

end Machine

namespace Session

/-- What a debugger does: neither the program is replaced nor its memories are written to. -/
def Action.IsDebugging : Action → Prop
  | step | toggleBreakpoint _ | raiseInterrupt | setPolicy _ | takeException | status => True
  | setup _ | load _ | reset | setIo _ _ => False

def Request.IsDebugging : Request → Prop
  | act action => action.IsDebugging
  | run | runFor _ => True
  | runWhile guard _ _ => ∀ watch session, ∀ action ∈ (guard watch session).2.2,
      action.IsDebugging

variable {image : Image} {session other : Session}

/-- The steps that the machine of a session has made, with the one that a fatal fault has ended. A
halted session with an empty program has made none. -/
def laps (session : Session) : Nat :=
  if session.state = .halted ∧ session.image.instructionCount ≠ 0 then session.steps + 1
  else session.steps

theorem laps_of_running (running : session.state ≠ .halted) : session.laps = session.steps :=
  if_neg fun halted => running halted.1

/-- The machine of a session with an image is where the image leads it, if nothing interferes. -/
structure Follows (image : Image) (session : Session) : Prop where
  image_eq : session.image = image
  halted_of_empty : image.instructionCount = 0 → session.state = .halted
  machine_eq : session.machine.withPending false =
    Machine.lap^[session.laps] (Machine.load {} image)

namespace Follows

theorem load (session : Session) (image : Image) : (session.load image).Follows image := by
  by_cases empty : image.instructionCount = 0
  · have halted : (session.load image).state = .halted := if_pos empty
    refine ⟨rfl, fun _ => halted, ?_⟩
    have none : (session.load image).laps = 0 := if_neg fun filled => filled.2 empty
    rw [none]
    rfl
  · have idle : (session.load image).state = .idle := if_neg empty
    have running : (session.load image).state ≠ .halted := by
      rw [idle]
      decide
    refine ⟨rfl, fun none => absurd none empty, ?_⟩
    rw [laps_of_running running]
    rfl

theorem of_eq (follows : session.Follows image) (image_eq : other.image = session.image)
    (state : other.state = session.state) (steps : other.steps = session.steps)
    (machine : other.machine.withPending false = session.machine.withPending false) :
    other.Follows image := by
  have laps_eq : other.laps = session.laps := by
    unfold laps
    rw [image_eq, state, steps]
  refine ⟨image_eq.trans follows.image_eq, ?_, ?_⟩
  · rw [state]
    exact follows.halted_of_empty
  · rw [machine, laps_eq]
    exact follows.machine_eq

theorem laps_step (follows : session.Follows image) (running : session.state ≠ .halted) :
    session.step.laps = session.laps + 1 := by
  have filled : session.step.image.instructionCount ≠ 0 := by
    rw [image_step, follows.image_eq]
    exact fun empty => running (follows.halted_of_empty empty)
  have steps : session.step.steps =
      if session.outcome.isFatal then session.steps else session.steps + 1 := by
    rw [step_eq running]
  have halts := state_step_eq_halted_iff running
  rw [laps_of_running running]
  by_cases fatal : session.outcome.isFatal = true
  · rw [laps, if_pos ⟨halts.mpr fatal, filled⟩, steps, if_pos fatal]
  · rw [laps_of_running fun halted => fatal (halts.mp halted), steps, if_neg fatal]

theorem step (follows : session.Follows image) : session.step.Follows image := by
  by_cases halted : session.state = .halted
  · rw [step_of_halted halted]
    exact follows
  · refine ⟨(image_step session).trans follows.image_eq, ?_, ?_⟩
    · intro empty
      exact absurd (follows.halted_of_empty empty) halted
    · have lap : session.step.machine = session.machine.lap := machine_step halted
      rw [lap, follows.laps_step halted, Function.iterate_succ_apply', ← follows.machine_eq,
        Machine.lap_withPending]

theorem act {action : Action} (follows : session.Follows image) (debugs : action.IsDebugging) :
    (session.act action).Follows image := by
  cases action with
  | setup | load | reset | setIo => cases debugs
  | step => exact follows.step
  | toggleBreakpoint | setPolicy | takeException | status | raiseInterrupt =>
    exact follows.of_eq rfl rfl rfl rfl

theorem actAll {actions : List Action} (follows : session.Follows image)
    (debugs : ∀ action ∈ actions, action.IsDebugging) : (session.actAll actions).Follows image := by
  induction actions generalizing session with
  | nil => exact follows
  | cons action rest ih =>
    have first : action.IsDebugging := debugs action List.mem_cons_self
    apply ih (follows.act first)
    intro later member
    exact debugs later (List.mem_cons_of_mem action member)

/-- The image and the steps made tell the machine, up to a pending interrupt. -/
theorem machine_unique (follows : session.Follows image) (follows' : other.Follows image)
    (steps : session.steps = other.steps)
    (halts : session.state = .halted ↔ other.state = .halted) :
    session.machine =
      { other.machine with interruptPending := session.machine.interruptPending } := by
  have laps_eq : session.laps = other.laps := by
    simp only [laps, follows.image_eq, follows'.image_eq, steps, halts]
  have same : session.machine.withPending false = other.machine.withPending false := by
    rw [follows.machine_eq, follows'.machine_eq, laps_eq]
  exact congrArg (·.withPending session.machine.interruptPending) same

end Follows

theorem isDebugging_of_mem_actions {σ : Type} {guard : Guard σ} {budget : Nat} {watch : σ}
    (debugs : ∀ watch session, ∀ action ∈ (guard watch session).2.2, action.IsDebugging)
    {session : Session} {action : Action} (member : action ∈ guard.actions budget watch session) :
    action.IsDebugging := by
  induction budget generalizing watch session with
  | zero => cases member
  | succ budget ih =>
    have own := debugs watch session
    rw [Guard.actions] at member
    generalize guard watch session = answer at own member
    obtain ⟨goesOn, next, actions⟩ := answer
    split at member
    · cases member
    · cases goesOn with
      | false => exact own action member
      | true =>
        rcases List.mem_append.mp member with given | stepped
        · exact own action given
        · rcases List.mem_cons.mp stepped with rfl | later
          · trivial
          · split at later
            · cases later
            · exact ih later

theorem Request.IsDebugging.actions {request : Request} (debugs : request.IsDebugging)
    (session : Session) : ∀ action ∈ request.actions session, action.IsDebugging := by
  have free : ∀ watch session, ∀ action ∈ (Guard.free watch session).2.2, action.IsDebugging := by
    intro watch session action member
    cases member
  intro action member
  cases request with
  | act own =>
    obtain rfl := List.mem_singleton.mp member
    exact debugs
  | run => exact isDebugging_of_mem_actions free member
  | runFor limit => exact isDebugging_of_mem_actions free member
  | runWhile guard watch budget => exact isDebugging_of_mem_actions debugs member

theorem Follows.serveAll {requests : List Request} (follows : session.Follows image)
    (debugs : ∀ request ∈ requests, request.IsDebugging) :
    (session.serveAll requests).Follows image := by
  induction requests generalizing session with
  | nil => exact follows
  | cons request rest ih =>
    have first : request.IsDebugging := debugs request List.mem_cons_self
    have served : (session.serve request).Follows image := by
      rw [serve_eq_actAll]
      exact follows.actAll (first.actions session)
    apply ih served
    intro later member
    exact debugs later (List.mem_cons_of_mem request member)

/-- Two debugging sessions with one image that have made as many steps, and are both halted or both
not, have equal machines but for a pending interrupt. -/
theorem machine_eq_of_steps_eq {first second : Session} {requests requests' : List Request}
    (debugs : ∀ request ∈ requests, request.IsDebugging)
    (debugs' : ∀ request ∈ requests', request.IsDebugging)
    (steps : ((first.load image).serveAll requests).steps =
      ((second.load image).serveAll requests').steps)
    (halts : ((first.load image).serveAll requests).state = .halted ↔
      ((second.load image).serveAll requests').state = .halted) :
    ((first.load image).serveAll requests).machine =
      { ((second.load image).serveAll requests').machine with
        interruptPending := ((first.load image).serveAll requests).machine.interruptPending } := by
  have follows := (Follows.load first image).serveAll debugs
  have follows' := (Follows.load second image).serveAll debugs'
  exact follows.machine_unique follows' steps halts

def recursive : Image :=
  (Image.ofSource "loop: jsb loop\n").toOption.getD .empty

def freely : List Request :=
  [.runFor 20, .act .raiseInterrupt]

def watchfully : List Request :=
  .act (.toggleBreakpoint 0) :: List.replicate 9 (.act .step)

theorem machine_eq_of_steps_eq_recursive :
    ((load {} recursive).serveAll freely).steps = 9 ∧
      ((load {} recursive).serveAll watchfully).state = .breakpoint ∧
      ((load {} recursive).serveAll freely).machine =
        { ((load {} recursive).serveAll watchfully).machine with interruptPending := true } := by
  have debugs : ∀ request ∈ freely, request.IsDebugging := by
    simp [freely, Request.IsDebugging, Action.IsDebugging]
  have debugs' : ∀ request ∈ watchfully, request.IsDebugging := by
    simp [watchfully, Request.IsDebugging, Action.IsDebugging]
  have reached : ((load {} recursive).serveAll freely).steps = 9 ∧
      ((load {} recursive).serveAll freely).state = .breakpoint ∧
      ((load {} recursive).serveAll freely).machine.interruptPending = true ∧
      ((load {} recursive).serveAll watchfully).steps = 9 ∧
      ((load {} recursive).serveAll watchfully).state = .breakpoint := by
    decide +kernel
  obtain ⟨steps, paused, pending, steps', paused'⟩ := reached
  have same := machine_eq_of_steps_eq debugs debugs' (steps.trans steps'.symm)
    (by rw [paused, paused'])
  rw [pending] at same
  exact ⟨steps, paused', same⟩

end Session

end Gumnut
