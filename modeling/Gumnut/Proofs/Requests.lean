import Gumnut.Debugger.Run
import Gumnut.Proofs.SessionSteps
import Mathlib.Logic.Function.Iterate

/-!
# What is asked of a session

A user acts on a session or lets it run. A tripwire takes part in a run: before each step it looks
at the session, acts on it as a user can, and says whether the run goes on. Whatever is asked, it
comes to a list of actions, each of which makes one step at most; a run under a tripwire that only
looks comes to a number of steps.
-/
set_option autoImplicit false

namespace Gumnut.Session

inductive Action where
  | setup (source : String)
  | load (image : Image)
  | reset
  | step
  | toggleBreakpoint (line : Nat)
  | raiseInterrupt
  | setIo (address value : UInt8)
  | setPolicy (policy : PausePolicy)
  | takeException
  | status

def act (session : Session) : Action → Session
  | .setup source => session.setup source
  | .load image => session.load image
  | .reset => session.reset
  | .step => session.step
  | .toggleBreakpoint line => (session.toggleBreakpoint line).1
  | .raiseInterrupt => session.raiseInterrupt
  | .setIo address value => session.setIo address value
  | .setPolicy policy => { session with policy }
  | .takeException => session.takeException.1
  | .status => session.status.1

def actAll (session : Session) (actions : List Action) : Session :=
  actions.foldl act session

/-- A tripwire by its actions: whether the run goes on, its own state, and what it does to the
session before it answers. -/
abbrev Guard (σ : Type) := σ → Session → Bool × σ × List Action

namespace Guard

variable {σ : Type}

def tripwire (guard : Guard σ) : Tripwire σ := fun watch session =>
  match guard watch session with
  | (goesOn, watch, actions) => (goesOn, watch, session.actAll actions)

def free : Guard Unit := fun watch _ => (true, watch, [])

/-- Whether a guard never acts on the session that it looks at. -/
def OnlyLooks (guard : Guard σ) : Prop :=
  ∀ watch session, (guard watch session).2.2 = []

/-- The actions that a run under a guard comes to, those of the guard and the steps. -/
def actions (guard : Guard σ) : Nat → σ → Session → List Action
  | 0, _, _ => []
  | budget + 1, watch, session =>
    if session.state = .halted then []
    else
      match guard watch session with
      | (false, _, own) => own
      | (true, watch, own) =>
        let stepped := (session.actAll own).step
        own ++ .step :: if stepped.pauses then [] else guard.actions budget watch stepped

end Guard

inductive Request where
  | act (action : Action)
  | run
  | runFor (limit : Nat)
  | runWhile {σ : Type} (guard : Guard σ) (watch : σ) (budget : Nat)

def serve (session : Session) : Request → Session
  | .act action => session.act action
  | .run => session.run
  | .runFor limit => session.runFor limit
  | .runWhile guard watch budget => runWhile guard.tripwire budget watch session

def serveAll (session : Session) (requests : List Request) : Session :=
  requests.foldl serve session

namespace Request

def actions (session : Session) : Request → List Action
  | act action => [action]
  | run => Guard.free.actions unlimited () session
  | runFor limit => Guard.free.actions limit () session
  | runWhile guard watch budget => guard.actions budget watch session

def allActions (session : Session) : List Request → List Action
  | [] => []
  | request :: rest => request.actions session ++ allActions (session.serve request) rest

def IsRun : Request → Prop
  | act _ => False
  | run | runFor _ | runWhile _ _ _ => True

def OnlyLooks : Request → Prop
  | act _ | run | runFor _ => True
  | runWhile guard _ _ => guard.OnlyLooks

end Request

variable {session : Session}

theorem actAll_append (session : Session) (first second : List Action) :
    session.actAll (first ++ second) = (session.actAll first).actAll second :=
  List.foldl_append

theorem actAll_replicate_step (session : Session) (n : Nat) :
    session.actAll (List.replicate n .step) = Session.step^[n] session := by
  induction n generalizing session with
  | zero => rfl
  | succ n ih => exact ih session.step

/-- A run does what its actions do. -/
theorem runWhile_eq_actAll {σ : Type} (guard : Guard σ) (budget : Nat) (watch : σ)
    (session : Session) :
    runWhile guard.tripwire budget watch session =
      session.actAll (guard.actions budget watch session) := by
  induction budget generalizing watch session with
  | zero => rfl
  | succ budget ih =>
    rw [runWhile, runUnder, Guard.actions, Guard.tripwire]
    by_cases halted : session.state = .halted
    · rw [if_pos halted, if_pos halted]
      rfl
    · rw [if_neg halted, if_neg halted]
      obtain ⟨goesOn, next, own⟩ := guard watch session
      cases goesOn with
      | false => rfl
      | true =>
        dsimp only
        rw [actAll_append]
        show _ = (session.actAll own).step.actAll _
        split
        · rfl
        · exact ih next (session.actAll own).step

theorem serve_eq_actAll (session : Session) (request : Request) :
    session.serve request = session.actAll (request.actions session) := by
  cases request with
  | act action => rfl
  | run => exact runWhile_eq_actAll Guard.free unlimited () session
  | runFor limit => exact runWhile_eq_actAll Guard.free limit () session
  | runWhile guard watch budget => exact runWhile_eq_actAll guard budget watch session

theorem serveAll_eq_actAll (session : Session) (requests : List Request) :
    session.serveAll requests = session.actAll (Request.allActions session requests) := by
  induction requests generalizing session with
  | nil => rfl
  | cons request rest ih =>
    show (session.serve request).serveAll rest = _
    rw [ih, Request.allActions, actAll_append, ← serve_eq_actAll]

/-! ## Runs that only look -/

theorem onlyLooks_free : Guard.free.OnlyLooks := by
  intro watch session
  rfl

theorem idle_of_not_pauses (goesOn : session.pauses = false) : session.state = .idle := by
  simp only [pauses, Bool.or_eq_false_iff] at goesOn
  simpa using goesOn.1.1

/-- A run under a guard that only looks comes to steps, and goes on as long as none of them pauses
it. -/
theorem actions_of_onlyLooks {σ : Type} {guard : Guard σ} (looks : guard.OnlyLooks) (budget : Nat)
    (watch : σ) (session : Session) :
    ∃ n, guard.actions budget watch session = List.replicate n .step ∧
      ∀ k, k + 1 < n → (Session.step^[k + 1] session).pauses = false := by
  induction budget generalizing watch session with
  | zero => exact ⟨0, rfl, fun _ early => absurd early (Nat.not_lt_zero _)⟩
  | succ budget ih =>
    have looked : (guard watch session).2.2 = [] := looks watch session
    rw [Guard.actions]
    generalize guard watch session = answer at looked
    obtain ⟨goesOn, next, own⟩ := answer
    obtain rfl : own = [] := looked
    split
    · exact ⟨0, rfl, fun _ early => absurd early (Nat.not_lt_zero _)⟩
    · cases goesOn with
      | false => exact ⟨0, rfl, fun _ early => absurd early (Nat.not_lt_zero _)⟩
      | true =>
        have stepped : (session.actAll []).step = session.step := rfl
        simp only [stepped, List.nil_append]
        split
        · exact ⟨1, rfl, fun _ early => absurd early (by omega)⟩
        · rename_i goes
          obtain ⟨n, steps, unpaused⟩ := ih next session.step
          refine ⟨n + 1, ?_, ?_⟩
          · rw [steps, List.replicate_succ]
          · intro k early
            cases k with
            | zero => exact Bool.eq_false_iff.mpr goes
            | succ k => exact unpaused k (by omega)

theorem steps_of_onlyLooks {request : Request} (runs : request.IsRun) (looks : request.OnlyLooks)
    (session : Session) :
    ∃ n, request.actions session = List.replicate n .step ∧
      session.serve request = Session.step^[n] session ∧
      ∀ k, k + 1 < n → (Session.step^[k + 1] session).state = .idle := by
  obtain ⟨n, steps, unpaused⟩ : ∃ n, request.actions session = List.replicate n .step ∧
      ∀ k, k + 1 < n → (Session.step^[k + 1] session).pauses = false := by
    cases request with
    | act action => cases runs
    | run => exact actions_of_onlyLooks onlyLooks_free unlimited () session
    | runFor limit => exact actions_of_onlyLooks onlyLooks_free limit () session
    | runWhile guard watch budget => exact actions_of_onlyLooks looks budget watch session
  refine ⟨n, steps, ?_, ?_⟩
  · rw [serve_eq_actAll, steps, actAll_replicate_step]
  · intro k early
    exact idle_of_not_pauses (unpaused k early)

end Gumnut.Session
