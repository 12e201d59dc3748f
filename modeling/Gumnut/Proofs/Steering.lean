import Gumnut.Proofs.Steps

/-!
# Where execution can lead

The rules of execution as far as the program counter, the return stack and the faults go: an
instruction keeps the counter, aims it at an address, calls, returns, or is refused and then leaves
the machine as it is. What a step can do follows from the rule of its instruction.
-/
set_option autoImplicit false

namespace Gumnut

namespace ReturnStack

theorem slots_pop {stack popped : ReturnStack} {address : UInt16}
    (pops : stack.pop = .ok (address, popped)) :
    popped.slots = stack.slots ∧ address ∈ stack.slots := by
  unfold pop at pops
  split at pops
  · rename_i used
    have bound := stack.depth_le
    simp only [Except.ok.injEq, Prod.mk.injEq] at pops
    obtain ⟨rfl, rfl⟩ := pops
    exact ⟨rfl, Vector.getElem_mem (by omega)⟩
  · cases pops

theorem mem_slots_push {stack pushed : ReturnStack} {address slot : UInt16}
    (pushes : stack.push address = .ok pushed) (member : slot ∈ pushed.slots) :
    slot = address ∨ slot ∈ stack.slots := by
  unfold push at pushes
  split at pushes
  · rename_i free
    cases pushes
    exact (@Vector.mem_or_eq_of_mem_set _ _ _ _ _ _ free member).symm
  · cases pushes

end ReturnStack

namespace Instruction

def IsReturn (instruction : Instruction) : Prop :=
  instruction = .control .ret ∨ instruction = .control .reti

end Instruction

namespace Machine

open Instruction (decode)

def effectiveAddress (machine : Machine) (base : Option Reg) (offset : UInt8) : Int :=
  match base with
  | none => offset.toNat
  | some r => (machine.register r).toNat + signedByte offset

/-- The fatal faults of an instruction, each with what causes it. -/
inductive Refuses (machine : Machine) : Instruction → Fault → Prop where
  | branch {cond : Condition} {displacement : UInt8}
      (taken : holds machine.flags cond = true)
      (outside : machine.branchTarget displacement < 0 ∨
        codeSize ≤ machine.branchTarget displacement) :
      machine.Refuses (.branch cond displacement)
        (.badCounter (machine.branchTarget displacement))
  | access {op : MemoryOp} {rd : Reg} {base : Option Reg} {offset : UInt8}
      (outside : machine.effectiveAddress base offset < 0 ∨
        dataSize ≤ machine.effectiveAddress base offset) :
      machine.Refuses (.memory op rd base offset)
        (.accessViolation (machine.effectiveAddress base offset))
  | undefined {word : UInt32} :
      machine.Refuses (.undefined word) (.undefinedInstruction word)
  | unpaired {instruction : Instruction} (returns : instruction.IsReturn)
      (empty : machine.returns.depth = 0) :
      machine.Refuses instruction .emptyReturnStack

/-- The ways to execute an instruction, by what becomes of the counter and the return stack. -/
inductive Steers (machine : Machine) : Instruction → Outcome → Prop where
  | keeps {instruction : Instruction} {kept : Machine}
      (counter : kept.counter = machine.counter) (returns : kept.returns = machine.returns) :
      machine.Steers instruction (kept, none)
  | aims {instruction : Instruction} {target : Nat} (inside : target < codeSize) :
      machine.Steers instruction ({ machine with counter := UInt16.ofNat target - 1 }, none)
  | calls {target : UInt16} {address : Nat} {returns : ReturnStack} (inside : address < codeSize)
      (pushes : machine.returns.push machine.counter = .ok returns) :
      machine.Steers (.jump .jsb target)
        ({ machine with counter := UInt16.ofNat address - 1, returns }, none)
  | overflows {target : UInt16} {address : Nat} (inside : address < codeSize)
      (full : machine.returns.depth = 8) :
      machine.Steers (.jump .jsb target)
        ({ machine with counter := UInt16.ofNat address - 1 },
          some (.returnStackOverflow machine.counter))
  | returns {instruction : Instruction} {returned : Machine} (back : instruction.IsReturn)
      (pops : machine.returns.pop = .ok (returned.counter, returned.returns)) :
      machine.Steers instruction (returned, none)
  | refuses {instruction : Instruction} {fault : Fault}
      (refused : machine.Refuses instruction fault) :
      machine.Steers instruction (machine, some fault)

namespace Refuses

variable {machine : Machine} {instruction : Instruction} {fault : Fault}

theorem isFatal (refused : machine.Refuses instruction fault) : fault.isFatal = true := by
  cases refused <;> rfl

theorem of_decoded {latest : Instruction}
    (refused : (machine.decoded latest).Refuses instruction fault) :
    machine.Refuses instruction fault := by
  cases refused with
  | branch taken outside => exact .branch taken outside
  | access outside => exact .access outside
  | undefined => exact .undefined
  | unpaired returns empty => exact .unpaired returns empty

end Refuses

variable (machine : Machine)

theorem operandAddress_eq (base : Option Reg) (offset : UInt8) :
    machine.operandAddress base offset = byteAddress (machine.effectiveAddress base offset) := by
  cases base with
  | none => rfl
  | some r => rfl

theorem steers_memory (op : MemoryOp) (rd : Reg) (base : Option Reg) (offset : UInt8) :
    machine.Steers (.memory op rd base offset)
      (machine.execute (.memory op rd base offset)) := by
  rw [execute, operandAddress_eq]
  by_cases inside : 0 ≤ machine.effectiveAddress base offset ∧
      machine.effectiveAddress base offset < dataSize
  · rw [byteAddress, if_pos inside]
    cases op with
    | ldm | stm | inp | out => exact .keeps rfl rfl
  · rw [byteAddress, if_neg inside]
    exact .refuses (.access (by omega))

theorem steers_branch (cond : Condition) (displacement : UInt8) :
    machine.Steers (.branch cond displacement)
      (machine.execute (.branch cond displacement)) := by
  rw [execute]
  split
  · rename_i taken
    rw [aim]
    split
    · rename_i inside
      exact .aims inside.2
    · exact .refuses (.branch taken (by omega))
  · exact .keeps rfl rfl

theorem steers_call (target : UInt16) :
    machine.Steers (.jump .jsb target) (machine.call target) := by
  have inside : target.toNat % 4096 < codeSize := Nat.mod_lt _ (by decide)
  rw [call_eq]
  cases pushed : machine.returns.push machine.counter with
  | ok returns => exact .calls inside pushed
  | error fault =>
    obtain ⟨full, rfl⟩ := (ReturnStack.push_eq_error_iff _ _ _).mp pushed
    exact .overflows inside full

theorem steers_control (op : ControlOp) :
    machine.Steers (.control op) (machine.control op) := by
  cases popped : machine.returns.pop with
  | ok top =>
    obtain ⟨address, rest⟩ := top
    have back : machine.goBack =
        ({ machine with counter := address, returns := rest }, none) := by
      rw [goBack, popped]
    cases op with
    | ret => rw [control, back]; exact .returns (.inl rfl) popped
    | reti => rw [control, back]; exact .returns (.inr rfl) popped
    | enai | disi | wait | stby => exact .keeps rfl rfl
  | error fault =>
    obtain ⟨empty, rfl⟩ := (ReturnStack.pop_eq_error_iff _ _).mp popped
    have back : machine.goBack = (machine, some .emptyReturnStack) := by
      rw [goBack, popped]
    cases op with
    | ret => rw [control, back]; exact .refuses (.unpaired (.inl rfl) empty)
    | reti => rw [control, back]; exact .refuses (.unpaired (.inr rfl) empty)
    | enai | disi | wait | stby => exact .keeps rfl rfl

theorem steers_execute (instruction : Instruction) :
    machine.Steers instruction (machine.execute instruction) := by
  cases instruction with
  | alu | shift => exact .keeps rfl rfl
  | memory op rd base offset => exact machine.steers_memory op rd base offset
  | branch cond displacement => exact machine.steers_branch cond displacement
  | jump op target =>
    cases op with
    | jmp =>
      rw [execute, jump_eq_mod]
      exact .aims (Nat.mod_lt _ (by decide))
    | jsb => exact machine.steers_call target
  | control op => exact machine.steers_control op
  | undefined word => exact .refuses .undefined

/-! ## The end of a step -/

variable {machine}

theorem complete_eq (machine : Machine) (met : Option Fault) :
    machine.complete met =
      if codeSize ≤ (machine.counter + 1).toNat then
        (machine, some (.badCounter (machine.counter + 1).toNat))
      else (machine.goneTo (machine.counter + 1).toNat, met) := by
  by_cases beyond : codeSize ≤ (machine.counter + 1).toNat
  · rw [complete, advance, if_pos beyond, if_pos beyond]
  · rw [if_neg beyond]
    exact complete_of_next met (Nat.not_le.mp beyond) UInt16.ofNat_toNat.symm

theorem finish_aimed (machine : Machine) {address : Nat} (inside : address < codeSize) :
    finish ({ machine with counter := UInt16.ofNat address - 1 }, none) =
      (machine.goneTo address, none) :=
  complete_aimed machine none inside

theorem finish_overflowed (machine : Machine) {address : Nat} (lost : UInt16)
    (inside : address < codeSize) :
    finish ({ machine with counter := UInt16.ofNat address - 1 },
        some (.returnStackOverflow lost)) =
      (machine.goneTo address, some (.returnStackOverflow lost)) :=
  complete_aimed machine _ inside

theorem finish_refused {machine : Machine} {instruction : Instruction} {fault : Fault}
    (refused : machine.Refuses instruction fault) :
    finish (machine, some fault) = (machine, some fault) :=
  if_pos refused.isFatal

end Machine

end Gumnut
