import Gumnut.Instruction
import Gumnut.Machine.Access
import Gumnut.Machine.ReturnStack
import Gumnut.Program.Image

/-!
# The machine

The machine: registers, program counter, return stack, flags, and its three memories. It also
counts the instructions that it has completed, remembers the one it decoded last, and keeps the
record of its memory accesses.

Of the flags, CARRY and ZERO tell about the latest arithmetic; WAIT and STBY stay set once their
instructions have been executed; IREN says whether interrupts are enabled.
-/
set_option autoImplicit false

namespace Gumnut

structure Flags where
  carry : Bool := false
  zero : Bool := false
  wait : Bool := false
  stby : Bool := false
  iren : Bool := false
  deriving DecidableEq, Repr

namespace Flags

/-- The byte that packs the flags, CARRY in its lowest bit and IREN in its fifth. -/
def bits (flags : Flags) : Nat :=
  flags.carry.toNat + 2 * flags.zero.toNat + 4 * flags.wait.toNat + 8 * flags.stby.toNat
    + 16 * flags.iren.toNat

def text (flags : Flags) : String :=
  "Flags \x7b carry: " ++ boolText flags.carry ++ ", zero: " ++ boolText flags.zero ++
    ", wait: " ++ boolText flags.wait ++ ", stby: " ++ boolText flags.stby ++
    ", iren: " ++ boolText flags.iren ++ " \x7d"

end Flags

structure Machine where
  registers : Vector UInt8 8 := Vector.replicate 8 0
  counter : UInt16 := 0
  returns : ReturnStack := .empty
  flags : Flags := {}
  interruptPending : Bool := false
  code : CodeMemory := .zero
  data : ByteMemory := .zero
  io : ByteMemory := .zero
  /-- The completed instructions: a 64-bit counter, kept here without its bound. -/
  completed : Nat := 0
  lastInstruction : Option Instruction := none
  accesses : AccessLog := .empty
  deriving DecidableEq

namespace Machine

/-- A machine after some work, with the fault that ended it or was met. -/
abbrev Outcome := Machine × Option Fault

def register (machine : Machine) (r : Reg) : UInt8 :=
  machine.registers[r]

def setRegister (machine : Machine) (r : Reg) (value : UInt8) : Machine :=
  { machine with registers := machine.registers.set r value }

theorem register_setRegister (machine : Machine) (r other : Reg) (value : UInt8) :
    (machine.setRegister r value).register other =
      if r = other then value else machine.register other := by
  simp [register, setRegister, Vector.getElem_set, Fin.ext_iff]

def memory (machine : Machine) : Space → ByteMemory
  | .data => machine.data
  | .io => machine.io

def setMemory (machine : Machine) (space : Space) (memory : ByteMemory) : Machine :=
  match space with
  | .data => { machine with data := memory }
  | .io => { machine with io := memory }

def uploadCode (machine : Machine) (words : List UInt32) : Outcome :=
  match Memory.load? words with
  | some code => ({ machine with code }, none)
  | none => (machine, some (.codeTooLarge words.length))

def uploadBytes (machine : Machine) (space : Space) (bytes : List UInt8) : Outcome :=
  match Memory.load? bytes with
  | some memory => (machine.setMemory space memory, none)
  | none => (machine, some (.dataTooLarge bytes.length))

/-- The machine with the memories of an image; nothing else changes. -/
def load (machine : Machine) (image : Image) : Machine :=
  { machine with code := image.code, data := image.data }

/-- Marks an interrupt as pending. Interrupts are not served. -/
def raiseInterrupt (machine : Machine) : Machine :=
  { machine with interruptPending := true }

end Machine

end Gumnut
