import Gumnut.Debugger.Session

/-!
# Runs

Running a session: steps one after the other until something pauses it. A run makes at least one
step before a breakpoint, a fault or a latch can pause it, so that it goes on from where an earlier
one was paused. A tripwire is asked before each step and can end the run there.
-/
set_option autoImplicit false

namespace Gumnut

namespace Session

def pauses (session : Session) : Bool :=
  session.state != .idle
    || (session.policy.stopOnWait && session.machine.flags.wait)
    || (session.policy.stopOnStby && session.machine.flags.stby)

/-- What is asked before each step of a run: whether the run goes on. Whatever it answers, it may
change the session and the state that it keeps for itself. -/
abbrev Tripwire (σ : Type) := σ → Session → Bool × σ × Session

/-- Runs under a tripwire for a number of steps at most. A halted session asks it nothing. The
state that the tripwire is left with comes along. -/
def runUnder {σ : Type} (tripwire : Tripwire σ) : Nat → σ → Session → σ × Session
  | 0, watch, session => (watch, session)
  | budget + 1, watch, session =>
    if session.state = .halted then (watch, session)
    else
      match tripwire watch session with
      | (false, watch, session) => (watch, session)
      | (true, watch, session) =>
        let stepped := session.step
        if stepped.pauses then (watch, stepped) else runUnder tripwire budget watch stepped

def runWhile {σ : Type} (tripwire : Tripwire σ) (budget : Nat) (watch : σ) (session : Session) :
    Session :=
  (runUnder tripwire budget watch session).2

def untripped : Tripwire Unit := fun watch session => (true, watch, session)

def runFor (session : Session) (limit : Nat) : Session :=
  runWhile untripped limit () session

/-- The budget of a run without a limit: more steps than a 64-bit counter can count. -/
def unlimited : Nat := UInt64.size

def run (session : Session) : Session :=
  session.runFor unlimited

def tripUnless (test : Session → Bool) : Tripwire Unit :=
  fun watch session => (test session, watch, session)

/-- The tripwire of a device that puts its next value into an I/O register before each step, and
ends the run when it has none left. -/
def feed (address : UInt8) : Tripwire (List UInt8) :=
  fun values session =>
    match values with
    | [] => (false, [], session)
    | value :: rest => (true, rest, session.setIo address value)

end Session

end Gumnut
