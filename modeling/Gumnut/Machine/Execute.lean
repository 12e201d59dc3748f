import Gumnut.Instruction.Codec
import Gumnut.Machine
import Gumnut.Machine.Arithmetic

/-!
# Execution

Executing instructions. A step fetches the word at the program counter, decodes it, executes it,
and moves the counter on by one. A jump or a taken branch sets the counter to one before its
target, so that moving on reaches the target; for the target zero that is 65535.

An instruction ends with a machine and, if something went wrong, a fault. A fatal fault leaves the
rest of the step undone. The return stack overflow does not: the step is completed, and then the
fault is told.
-/
set_option autoImplicit false

namespace Gumnut

namespace Machine

def fetch (machine : Machine) : Except Fault UInt32 :=
  match machine.code.get? machine.counter.toNat with
  | some word => .ok word
  | none => .error (.badCounter machine.counter.toNat)

def advance (machine : Machine) : Outcome :=
  let next := machine.counter + 1
  if codeSize ≤ next.toNat then (machine, some (.badCounter next.toNat))
  else ({ machine with counter := next }, none)

/-- The machine that will advance to a target, which has to be within the instruction memory. -/
def aim (machine : Machine) (target : Int) : Outcome :=
  if 0 ≤ target ∧ target.toNat < codeSize then
    ({ machine with counter := UInt16.ofNat target.toNat - 1 }, none)
  else (machine, some (.badCounter target))

def byteAddress (address : Int) : Except Fault UInt8 :=
  if 0 ≤ address ∧ address < dataSize then .ok (UInt8.ofNat address.toNat)
  else .error (.accessViolation address)

/-- The address of a memory operand. A direct address is unsigned, the offset of a base signed. -/
def operandAddress (machine : Machine) (base : Option Reg) (offset : UInt8) :
    Except Fault UInt8 :=
  match base with
  | none => byteAddress offset.toNat
  | some r => byteAddress ((machine.register r).toNat + signedByte offset)

def sourceValue (machine : Machine) : AluSource → UInt8
  | .immediate value => value
  | .register r => machine.register r

def setResult (machine : Machine) (rd : Reg) (result : ByteResult) : Machine :=
  let written := machine.setRegister rd result.value
  { written with flags := { machine.flags with carry := result.carry, zero := result.zero } }

def loadByte (machine : Machine) (rd : Reg) (place : Place) : Machine :=
  let loaded := machine.setRegister rd ((machine.memory place.space).read place.address)
  { loaded with accesses := machine.accesses.add place { read := true } }

def storeByte (machine : Machine) (rd : Reg) (place : Place) : Machine :=
  let memory := machine.memory place.space
  let value := machine.register rd
  let stored := machine.setMemory place.space (memory.write place.address value)
  { stored with
    accesses := machine.accesses.add place
      { written := true, modified := memory.read place.address != value } }

def transfer (machine : Machine) (op : MemoryOp) (rd : Reg) (address : UInt8) : Machine :=
  match op with
  | .ldm => machine.loadByte rd ⟨.data, address⟩
  | .stm => machine.storeByte rd ⟨.data, address⟩
  | .inp => machine.loadByte rd ⟨.io, address⟩
  | .out => machine.storeByte rd ⟨.io, address⟩

def holds (flags : Flags) : Condition → Bool
  | .z => flags.zero
  | .nz => !flags.zero
  | .c => flags.carry
  | .nc => !flags.carry

def branchTarget (machine : Machine) (displacement : UInt8) : Int :=
  machine.counter.toNat + 1 + signedByte displacement

/-- Jumps to the low twelve bits of a target. -/
def jump (machine : Machine) (target : UInt16) : Outcome :=
  machine.aim (target % 4096).toNat

/-- Calls: jumps first, then keeps the place of the call. -/
def call (machine : Machine) (target : UInt16) : Outcome :=
  match machine.jump target with
  | (refused, some fault) => (refused, some fault)
  | (jumped, none) =>
    match jumped.returns.push machine.counter with
    | .error fault => (jumped, some fault)
    | .ok returns => ({ jumped with returns }, none)

def goBack (machine : Machine) : Outcome :=
  match machine.returns.pop with
  | .error fault => (machine, some fault)
  | .ok (counter, returns) => ({ machine with counter, returns }, none)

def control (machine : Machine) : ControlOp → Outcome
  | .ret => machine.goBack
  | .reti =>
    match machine.goBack with
    | (refused, some fault) => (refused, some fault)
    | (returned, none) => ({ returned with flags := { returned.flags with iren := true } }, none)
  | .enai => ({ machine with flags := { machine.flags with iren := true } }, none)
  | .disi => ({ machine with flags := { machine.flags with iren := false } }, none)
  | .wait => ({ machine with flags := { machine.flags with wait := true } }, none)
  | .stby => ({ machine with flags := { machine.flags with stby := true } }, none)

/-- The effect of an instruction, without moving on. -/
def execute (machine : Machine) : Instruction → Outcome
  | .alu op rd rs source =>
    let result := op.apply (machine.register rs) (machine.sourceValue source) machine.flags.carry
    (machine.setResult rd result, none)
  | .shift op rd rs count => (machine.setResult rd (op.apply (machine.register rs) count), none)
  | .memory op rd base offset =>
    match machine.operandAddress base offset with
    | .error fault => (machine, some fault)
    | .ok address => (machine.transfer op rd address, none)
  | .branch cond displacement =>
    if holds machine.flags cond then machine.aim (machine.branchTarget displacement)
    else (machine, none)
  | .jump .jmp target => machine.jump target
  | .jump .jsb target => machine.call target
  | .control op => machine.control op
  | .undefined word => (machine, some (.undefinedInstruction word))

/-- The end of a step after its instruction: moving on, and counting the instruction. -/
def complete (machine : Machine) (met : Option Fault) : Outcome :=
  match machine.advance with
  | (stuck, some fault) => (stuck, some fault)
  | (next, none) => ({ next with completed := next.completed + 1 }, met)

def step (machine : Machine) : Outcome :=
  match machine.fetch with
  | .error fault => (machine, some fault)
  | .ok word =>
    let instruction := Instruction.decode word
    let decoded := { machine with lastInstruction := some instruction }
    match decoded.execute instruction with
    | (executed, none) => executed.complete none
    | (executed, some fault) =>
      if fault.isFatal then (executed, some fault) else executed.complete (some fault)

end Machine

end Gumnut
