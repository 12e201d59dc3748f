import Gumnut.Proofs.Steering

/-!
# What an instruction leaves alone

The parts of a machine that no instruction looks at or changes: the words of the program, the
pending interrupt, the count of completed instructions and the latest instruction. A step reads the
words, notes its instruction, and counts it unless a fatal fault ends it.
-/
set_option autoImplicit false

namespace Gumnut.Machine

/-- A machine with the parts of another that instructions have nothing to do with. -/
def beside (machine other : Machine) : Machine :=
  { machine with
    code := other.code
    interruptPending := other.interruptPending
    completed := other.completed
    lastInstruction := other.lastInstruction }

def withPending (machine : Machine) (pending : Bool) : Machine :=
  { machine with interruptPending := pending }

def Outcome.isFatal (outcome : Outcome) : Bool :=
  outcome.2.any Fault.isFatal

theorem operandAddress_beside (machine other : Machine) (base : Option Reg) (offset : UInt8) :
    (machine.beside other).operandAddress base offset = machine.operandAddress base offset := by
  cases base with
  | none => rfl
  | some r => rfl

theorem transfer_beside (machine other : Machine) (op : MemoryOp) (rd : Reg) (address : UInt8) :
    (machine.beside other).transfer op rd address =
      (machine.transfer op rd address).beside other := by
  cases op with
  | ldm | stm | inp | out => rfl

theorem aim_beside (machine other : Machine) (target : Int) :
    (machine.beside other).aim target = Prod.map (·.beside other) id (machine.aim target) := by
  unfold aim
  split
  · rfl
  · rfl

theorem call_beside (machine other : Machine) (target : UInt16) :
    (machine.beside other).call target = Prod.map (·.beside other) id (machine.call target) := by
  rw [call_eq, call_eq]
  have pushes : (machine.beside other).returns.push (machine.beside other).counter =
      machine.returns.push machine.counter := rfl
  rw [pushes]
  cases machine.returns.push machine.counter with
  | ok returns => rfl
  | error fault => rfl

theorem control_beside (machine other : Machine) (op : ControlOp) :
    (machine.beside other).control op = Prod.map (·.beside other) id (machine.control op) := by
  have pops : (machine.beside other).returns.pop = machine.returns.pop := rfl
  cases op with
  | enai | disi | wait | stby => rfl
  | ret | reti =>
    rw [control, control, goBack, goBack, pops]
    cases machine.returns.pop with
    | error fault => rfl
    | ok top => rfl

/-- Executing goes on beside the parts of another machine as it does beside its own. -/
theorem execute_beside (machine other : Machine) (instruction : Instruction) :
    (machine.beside other).execute instruction =
      Prod.map (·.beside other) id (machine.execute instruction) := by
  cases instruction with
  | alu op rd rs source =>
    cases source with
    | immediate value => rfl
    | register r => rfl
  | shift op rd rs count => rfl
  | memory op rd base offset =>
    rw [execute, execute, operandAddress_beside]
    cases machine.operandAddress base offset with
    | error fault => rfl
    | ok address => exact congrArg (·, none) (transfer_beside machine other op rd address)
  | branch cond displacement =>
    have flags : (machine.beside other).flags = machine.flags := rfl
    have target : (machine.beside other).branchTarget displacement =
        machine.branchTarget displacement := rfl
    rw [execute, execute, flags, target, aim_beside]
    split
    · rfl
    · rfl
  | jump op target =>
    cases op with
    | jmp => exact aim_beside machine other _
    | jsb => exact call_beside machine other target
  | control op => exact control_beside machine other op
  | undefined word => rfl

theorem beside_execute (machine : Machine) (instruction : Instruction) :
    (machine.execute instruction).1.beside machine = (machine.execute instruction).1 :=
  (congrArg Prod.fst (execute_beside machine machine instruction)).symm

theorem completed_execute (machine : Machine) (instruction : Instruction) :
    (machine.execute instruction).1.completed = machine.completed := by
  rw [← beside_execute]
  rfl

theorem execute_withPending (machine : Machine) (pending : Bool) (instruction : Instruction) :
    (machine.withPending pending).execute instruction =
      Prod.map (·.withPending pending) id (machine.execute instruction) := by
  have whole : machine.withPending pending = machine.beside (machine.withPending pending) := rfl
  rw [whole, execute_beside]
  apply Prod.ext
  · show (machine.execute instruction).1.beside _ = (machine.execute instruction).1.withPending _
    rw [← beside_execute]
    rfl
  · rfl

/-! ## Whole steps -/

theorem complete_withPending (machine : Machine) (pending : Bool) (met : Option Fault) :
    (machine.withPending pending).complete met =
      Prod.map (·.withPending pending) id (machine.complete met) := by
  have counter : (machine.withPending pending).counter = machine.counter := rfl
  rw [complete_eq, complete_eq, counter]
  split
  · rfl
  · rfl

theorem finish_withPending (outcome : Outcome) (pending : Bool) :
    finish (Prod.map (·.withPending pending) id outcome) =
      Prod.map (·.withPending pending) id (finish outcome) := by
  obtain ⟨executed, met⟩ := outcome
  rw [Prod.map_apply, finish_eq, id, finish_eq]
  split
  · rfl
  · exact complete_withPending executed pending met

/-- A pending interrupt makes no difference to a step, and stays as it is. -/
theorem step_withPending (machine : Machine) (pending : Bool) :
    (machine.withPending pending).step = Prod.map (·.withPending pending) id machine.step := by
  have same : (machine.withPending pending).upcoming? = machine.upcoming? := rfl
  cases comes : machine.upcoming? with
  | none =>
    rw [step_of_upcoming_eq_none comes, step_of_upcoming_eq_none (same.trans comes)]
    rfl
  | some instruction =>
    rw [step_of_upcoming comes, step_of_upcoming (same.trans comes), ← finish_withPending,
      ← execute_withPending]
    rfl

theorem completed_complete (machine : Machine) {met : Option Fault}
    (harmless : met.any Fault.isFatal = false) :
    (machine.complete met).1.completed =
      if (machine.complete met).isFatal then machine.completed else machine.completed + 1 := by
  rw [complete_eq]
  split
  · rfl
  · simp only [Outcome.isFatal, harmless]
    rfl

/-- A step counts its instruction unless a fatal fault ends it. -/
theorem completed_step (machine : Machine) :
    machine.step.1.completed =
      if machine.step.isFatal then machine.completed else machine.completed + 1 := by
  cases comes : machine.upcoming? with
  | none =>
    rw [step_of_upcoming_eq_none comes]
    rfl
  | some instruction =>
    have kept := completed_execute (machine.decoded instruction) instruction
    have start : (machine.decoded instruction).completed = machine.completed := rfl
    rw [step_of_upcoming comes, ← start, ← kept]
    generalize (machine.decoded instruction).execute instruction = outcome
    obtain ⟨executed, met⟩ := outcome
    rw [finish_eq]
    by_cases fatal : met.any Fault.isFatal = true
    · rw [if_pos fatal]
      exact (if_pos fatal).symm
    · rw [if_neg fatal]
      exact completed_complete executed (Bool.eq_false_iff.mpr fatal)

end Gumnut.Machine
