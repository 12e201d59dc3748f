import Gumnut.Debugger.Breakpoints
import Gumnut.Debugger.Exception
import Gumnut.Machine.Execute
import Gumnut.Program.Assemble

/-!
# Debugging sessions

A debugging session: a machine with the image that was loaded into it, breakpoints, and the state
of the run. A session is halted when nothing is loaded or a fatal fault has ended the program; then
a step changes nothing. It stops at a breakpoint line, and also at a fault that is not fatal; from
there steps go on as usual. The latest exception is kept until it is taken.
-/
set_option autoImplicit false

namespace Gumnut

inductive RunState where
  | halted
  | idle
  | breakpoint
  deriving DecidableEq, Repr

namespace RunState

def text : RunState → String
  | halted => "halt"
  | idle => "idle"
  | breakpoint => "breakpoint"

end RunState

structure PausePolicy where
  stopOnWait : Bool := true
  stopOnStby : Bool := true
  deriving DecidableEq, Repr

structure Session where
  machine : Machine := {}
  breakpoints : Breakpoints := .empty
  policy : PausePolicy := {}
  image : Image := .empty
  state : RunState := .halted
  exception : Option Exception := none
  /-- The steps that did not end in a fatal fault: a 64-bit counter, kept here without its bound. -/
  steps : Nat := 0
  /-- The program counter before the latest step. -/
  previousCounter : UInt16 := 0
  deriving DecidableEq

namespace Session

/-- The session with nothing loaded; only the policy is kept. -/
def reset (session : Session) : Session :=
  { policy := session.policy }

def load (session : Session) (image : Image) : Session :=
  { session.reset with
    machine := Machine.load {} image
    image
    state := if image.instructionCount = 0 then .halted else .idle }

/-- Starts over with a program. One that cannot be assembled leaves its error. -/
def setup (session : Session) (source : String) : Session :=
  match Image.ofSource source with
  | .ok image => session.load image
  | .error error => { session.reset with exception := some (.assembly error) }

def currentLine? (session : Session) : Option Nat :=
  session.image.listing.lineAt? session.machine.counter

/-- The source line that a call returns to, if the latest instruction was one. -/
def returnLine? (session : Session) : Option Nat :=
  match session.machine.lastInstruction with
  | some (.jump .jsb _) => session.image.listing.lineAt? (session.previousCounter + 1)
  | _ => none

def atBreakpoint (session : Session) : Bool :=
  session.currentLine?.any session.breakpoints.contains

def settle (session : Session) : Machine.Outcome → Session
  | (machine, none) =>
    let stepped := { session with machine, steps := session.steps + 1 }
    { stepped with state := if stepped.atBreakpoint then .breakpoint else .idle }
  | (machine, some fault) =>
    if fault.isFatal then
      { session with machine, exception := some (.machine fault), state := .halted }
    else
      { session with
        machine
        steps := session.steps + 1
        exception := some (.machine fault)
        state := .breakpoint }

/-- One step, of which alone the record of accesses tells afterwards. -/
def step (session : Session) : Session :=
  if session.state = .halted then session
  else
    let before := { session.machine with accesses := session.machine.accesses.clear }
    settle { session with previousCounter := session.machine.counter } before.step

def toggleBreakpoint (session : Session) (line : Nat) : Session × Bool :=
  let breakpoints := session.breakpoints.toggle line
  ({ session with breakpoints }, breakpoints.contains line)

def raiseInterrupt (session : Session) : Session :=
  { session with machine := session.machine.raiseInterrupt }

/-- Sets an I/O register as a device would, which is no access of the program. -/
def setIo (session : Session) (address value : UInt8) : Session :=
  { session with
    machine := { session.machine with io := session.machine.io.write address value } }

def takeException (session : Session) : Session × Option Exception :=
  ({ session with exception := none }, session.exception)

end Session

structure Status where
  state : RunState
  lineCount : Nat
  instructionCount : Nat
  currentLine : Option Nat
  returnLine : Option Nat
  breakpoints : List Nat
  lastDataAccess : Option UInt8
  steps : Nat
  exception : Option ExceptionReport
  deriving DecidableEq, Repr

namespace Session

def status (session : Session) : Session × Status :=
  let (taken, exception) := session.takeException
  (taken,
    { state := session.state
      lineCount := session.image.lineCount
      instructionCount := session.image.instructionCount
      currentLine := session.currentLine?
      returnLine := session.returnLine?
      breakpoints := session.breakpoints.lines
      lastDataAccess := session.machine.accesses.lastData
      steps := session.steps
      exception := exception.map Exception.report })

end Session

end Gumnut
