import Gumnut.Proofs.Steps
import Mathlib.Logic.Basic

/-!
# Transfers of a byte

What a step of a memory instruction comes to. It moves the byte at its address, into its register
or out of it, records the access, and goes on behind itself; nothing else changes. If the register
that it is based on leads outside the memory, the step tells that address and changes nothing.
-/
set_option autoImplicit false

namespace Gumnut

namespace MemoryOp

def space : MemoryOp → Space
  | ldm | stm => .data
  | inp | out => .io

def loads : MemoryOp → Bool
  | ldm | inp => true
  | stm | out => false

def access (op : MemoryOp) (byte register : UInt8) : AccessSet where
  read := op.loads
  written := !op.loads
  modified := !op.loads && byte != register

end MemoryOp

namespace Machine

structure Transfers (before after : Machine) (op : MemoryOp) (rd : Reg) (address : UInt8) :
    Prop where
  counter : after.counter.toNat = before.counter.toNat + 1
  register (r : Reg) : after.register r =
    if op.loads = true ∧ r = rd then (before.memory op.space).read address else before.register r
  memory (space : Space) (other : UInt8) : (after.memory space).read other =
    if op.loads = false ∧ space = op.space ∧ other = address then before.register rd
    else (before.memory space).read other
  accessed (place : Place) : after.accesses.get place =
    if place = ⟨op.space, address⟩ then
      (before.accesses.get place).union
        (op.access ((before.memory op.space).read address) (before.register rd))
    else before.accesses.get place
  code : after.code = before.code
  returns : after.returns = before.returns
  flags : after.flags = before.flags
  interruptPending : after.interruptPending = before.interruptPending
  completed : after.completed = before.completed + 1

/-- Whether a step transfers the byte at an address, or tells that it is none. -/
def TransfersAt (machine : Machine) (op : MemoryOp) (rd : Reg) (address : Int) : Prop :=
  (0 ≤ address ∧ address ≤ 255 → ∃ byte : UInt8, (byte.toNat : Int) = address ∧
    machine.step.2 = none ∧ machine.Transfers machine.step.1 op rd byte) ∧
  (¬ (0 ≤ address ∧ address ≤ 255) → machine.step.2 = some (.accessViolation address) ∧
    machine.step.1 = { machine with lastInstruction := machine.step.1.lastInstruction })

def TransfersModulo (machine : Machine) (op : MemoryOp) (rd : Reg) (address : Int) : Prop :=
  ∃ byte : UInt8, (byte.toNat : Int) = address % 256 ∧
    machine.step.2 = none ∧ machine.Transfers machine.step.1 op rd byte

variable {machine : Machine} {op : MemoryOp} {rd : Reg}

theorem register_transfer (machine : Machine) (op : MemoryOp) (rd : Reg) (address : UInt8)
    (r : Reg) : (machine.transfer op rd address).register r =
      if op.loads = true ∧ r = rd then (machine.memory op.space).read address
      else machine.register r := by
  have loaded := machine.register_setRegister rd r ((machine.memory op.space).read address)
  cases op with
  | ldm | inp => exact loaded.trans (if_congr ⟨fun same => ⟨rfl, same.symm⟩, (·.2.symm)⟩ rfl rfl)
  | stm | out => rfl

theorem memory_transfer (machine : Machine) (op : MemoryOp) (rd : Reg) (address : UInt8)
    (space : Space) (other : UInt8) : ((machine.transfer op rd address).memory space).read other =
      if op.loads = false ∧ space = op.space ∧ other = address then machine.register rd
      else (machine.memory space).read other := by
  have stored := ByteMemory.read_write (machine.memory op.space) address other
    (machine.register rd)
  cases op with
  | ldm | inp => cases space <;> rfl
  | stm =>
    cases space with
    | data =>
      exact stored.trans (if_congr ⟨fun same => ⟨rfl, rfl, same.symm⟩, (·.2.2.symm)⟩ rfl rfl)
    | io => rfl
  | out =>
    cases space with
    | data => rfl
    | io => exact stored.trans (if_congr ⟨fun same => ⟨rfl, rfl, same.symm⟩, (·.2.2.symm)⟩ rfl rfl)

theorem accesses_transfer (machine : Machine) (op : MemoryOp) (rd : Reg) (address : UInt8) :
    (machine.transfer op rd address).accesses = machine.accesses.add ⟨op.space, address⟩
      (op.access ((machine.memory op.space).read address) (machine.register rd)) := by
  cases op with
  | ldm | inp | stm | out => rfl

theorem transfers_transfer (machine : Machine) (instruction : Instruction) (op : MemoryOp)
    (rd : Reg) (address : UInt8) (inside : machine.counter.toNat + 1 < codeSize) :
    machine.Transfers
      (((machine.decoded instruction).transfer op rd address).goneTo (machine.counter.toNat + 1))
      op rd address where
  counter := counter_goneTo _ inside
  register r := register_transfer (machine.decoded instruction) op rd address r
  memory space other := memory_transfer (machine.decoded instruction) op rd address space other
  accessed place := by
    have entered := AccessLog.get_add machine.accesses ⟨op.space, address⟩ place
      (op.access ((machine.memory op.space).read address) (machine.register rd))
    have logged := accesses_transfer (machine.decoded instruction) op rd address
    rw [goneTo, logged]
    refine entered.trans ?_
    split
    · rename_i same
      rw [same]
    · rfl
  code := by cases op <;> rfl
  returns := by cases op <;> rfl
  flags := by cases op <;> rfl
  interruptPending := by cases op <;> rfl
  completed := by cases op <;> rfl

/-- A step of a memory instruction transfers the byte at its address, if it has one. -/
theorem step_memory {base : Option Reg} {offset : UInt8}
    (read : machine.code.get? machine.counter.toNat =
      some (Instruction.memory op rd base offset).encode)
    (encodable : (Instruction.memory op rd base offset).Encodable)
    (inside : machine.counter.toNat + 1 < codeSize) :
    machine.step =
      match (machine.decoded (.memory op rd base offset)).operandAddress base offset with
      | .ok address =>
        (((machine.decoded (.memory op rd base offset)).transfer op rd address).goneTo
          (machine.counter.toNat + 1), none)
      | .error fault => finish (machine.decoded (.memory op rd base offset), some fault) := by
  rw [step_of_encode read encodable, execute]
  cases (machine.decoded (.memory op rd base offset)).operandAddress base offset with
  | error fault => rfl
  | ok address =>
    have kept : ((machine.decoded (.memory op rd base offset)).transfer op rd address).counter =
        machine.counter := by
      cases op <;> rfl
    refine (complete_kept none (by rwa [kept])).trans ?_
    rw [kept]

theorem transfersAt_of_indexed {base : Reg} {offset : UInt8}
    (read : machine.code.get? machine.counter.toNat =
      some (Instruction.memory op rd (some base) offset).encode)
    (index : base ≠ .r0) (inside : machine.counter.toNat + 1 < codeSize) :
    machine.TransfersAt op rd ((machine.register base).toNat + signedByte offset) := by
  have encodable : (Instruction.memory op rd (some base) offset).Encodable :=
    fun same => index (Option.some.inj same)
  have steps := step_memory read encodable inside
  have based : (machine.decoded (.memory op rd (some base) offset)).operandAddress (some base)
      offset = byteAddress ((machine.register base).toNat + signedByte offset) := rfl
  rw [based] at steps
  generalize ((machine.register base).toNat : Int) + signedByte offset = address at steps ⊢
  constructor
  · intro within
    have small : 0 ≤ address ∧ address < dataSize := by
      have size : (dataSize : Int) = 256 := rfl
      omega
    rw [byteAddress, if_pos small] at steps
    refine ⟨UInt8.ofNat address.toNat, ?_, ?_⟩
    · rw [UInt8.toNat_ofNat_of_lt' (by simp only [UInt8.size]; omega)]
      omega
    · rw [steps]
      exact ⟨rfl, transfers_transfer machine _ op rd _ inside⟩
  · intro without
    have large : ¬ (0 ≤ address ∧ address < dataSize) := by
      have size : (dataSize : Int) = 256 := rfl
      omega
    rw [byteAddress, if_neg large] at steps
    rw [steps]
    exact ⟨rfl, rfl⟩

theorem transfers_of_direct {address : UInt8}
    (read : machine.code.get? machine.counter.toNat =
      some (Instruction.memory op rd none address).encode)
    (inside : machine.counter.toNat + 1 < codeSize) :
    machine.step.2 = none ∧ machine.Transfers machine.step.1 op rd address := by
  have encodable : (Instruction.memory op rd none address).Encodable :=
    (Option.some_ne_none _).symm
  have steps := step_memory read encodable inside
  have direct : (machine.decoded (.memory op rd none address)).operandAddress none address =
      .ok address := by
    have small : 0 ≤ (address.toNat : Int) ∧ (address.toNat : Int) < dataSize :=
      ⟨Int.natCast_nonneg _, by exact_mod_cast address.toNat_lt⟩
    rw [operandAddress, byteAddress, if_pos small, Int.toNat_natCast, UInt8.ofNat_toNat]
  rw [direct] at steps
  rw [steps]
  exact ⟨rfl, transfers_transfer machine _ op rd _ inside⟩

end Machine

end Gumnut
