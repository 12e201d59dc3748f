import Gumnut.Machine.Execute
import Gumnut.Proofs.Codec

/-!
# Steps of the machine

What a step comes to, from the word at the program counter on: for each instruction that sets the
counter, the machine behind the step and the fault that it tells. A jump aims at one before its
target, and moving on makes up for it, also for the target zero.
-/
set_option autoImplicit false

namespace Gumnut.Machine

open Instruction (decode)

def decoded (machine : Machine) (instruction : Instruction) : Machine :=
  { machine with lastInstruction := some instruction }

/-- The machine that has completed an instruction and goes on at an address. -/
def goneTo (machine : Machine) (address : Nat) : Machine :=
  { machine with counter := UInt16.ofNat address, completed := machine.completed + 1 }

theorem counter_goneTo (machine : Machine) {address : Nat} (inside : address < codeSize) :
    (machine.goneTo address).counter.toNat = address :=
  UInt16.toNat_ofNat_of_lt' (Nat.lt_trans inside (by decide))

def finish : Outcome → Outcome
  | (executed, none) => executed.complete none
  | (executed, some fault) =>
    if fault.isFatal then (executed, some fault) else executed.complete (some fault)

theorem finish_eq (executed : Machine) (met : Option Fault) :
    finish (executed, met) =
      if met.any Fault.isFatal then (executed, met) else executed.complete met := by
  cases met with
  | none => rfl
  | some fault => rfl

def upcoming? (machine : Machine) : Option Instruction :=
  (machine.code.get? machine.counter.toNat).map decode

theorem step_of_upcoming {machine : Machine} {instruction : Instruction}
    (comes : machine.upcoming? = some instruction) :
    machine.step = finish ((machine.decoded instruction).execute instruction) := by
  obtain ⟨word, read, rfl⟩ := Option.map_eq_some_iff.mp comes
  have fetched : machine.fetch = .ok word := by rw [fetch, read]
  rw [step, fetched]
  rfl

theorem step_of_upcoming_eq_none {machine : Machine} (absent : machine.upcoming? = none) :
    machine.step = (machine, some (.badCounter machine.counter.toNat)) := by
  have unread : machine.code.get? machine.counter.toNat = none := Option.map_eq_none_iff.mp absent
  rw [step, fetch, unread]

theorem toNat_next {counter : UInt16} (small : counter.toNat < codeSize) :
    (counter + 1).toNat = counter.toNat + 1 := by
  rw [UInt16.toNat_add]
  exact Nat.mod_eq_of_lt (Nat.lt_of_le_of_lt small (by decide))

theorem complete_of_next {machine : Machine} {address : Nat} (met : Option Fault)
    (inside : address < codeSize) (next : machine.counter + 1 = UInt16.ofNat address) :
    machine.complete met = (machine.goneTo address, met) := by
  have small : (UInt16.ofNat address).toNat = address := machine.counter_goneTo inside
  have moved : machine.advance = ({ machine with counter := UInt16.ofNat address }, none) := by
    simp only [advance, next, small, if_neg (Nat.not_le.mpr inside)]
  rw [complete, moved]
  rfl

theorem complete_aimed (machine : Machine) {address : Nat} (met : Option Fault)
    (inside : address < codeSize) :
    { machine with counter := UInt16.ofNat address - 1 }.complete met =
      (machine.goneTo address, met) :=
  complete_of_next met inside (UInt16.sub_add_cancel _ _)

theorem complete_kept {machine : Machine} (met : Option Fault)
    (inside : machine.counter.toNat + 1 < codeSize) :
    machine.complete met = (machine.goneTo (machine.counter.toNat + 1), met) := by
  refine complete_of_next met inside ?_
  rw [UInt16.ofNat_add, UInt16.ofNat_toNat]
  rfl

theorem finish_aim (machine : Machine) (target : Int) :
    finish (machine.aim target) =
      if 0 ≤ target ∧ target.toNat < codeSize then (machine.goneTo target.toNat, none)
      else (machine, some (.badCounter target)) := by
  unfold aim
  split
  · rename_i inside
    exact machine.complete_aimed none inside.2
  · rfl

/-! ## Instructions that set the counter -/

theorem upcoming?_of_encode {machine : Machine} {instruction : Instruction}
    (read : machine.code.get? machine.counter.toNat = some instruction.encode)
    (encodable : instruction.Encodable) : machine.upcoming? = some instruction := by
  rw [upcoming?, read, Option.map_some, Instruction.decode_encode encodable]

theorem step_of_encode {machine : Machine} {instruction : Instruction}
    (read : machine.code.get? machine.counter.toNat = some instruction.encode)
    (encodable : instruction.Encodable) :
    machine.step = finish ((machine.decoded instruction).execute instruction) :=
  step_of_upcoming (upcoming?_of_encode read encodable)

theorem step_taken {machine : Machine} {cond : Condition} {displacement : UInt8}
    (read : machine.code.get? machine.counter.toNat =
      some (Instruction.branch cond displacement).encode)
    (taken : holds machine.flags cond = true) :
    machine.step =
      let target := machine.branchTarget displacement
      let decoded := machine.decoded (.branch cond displacement)
      if 0 ≤ target ∧ target.toNat < codeSize then (decoded.goneTo target.toNat, none)
      else (decoded, some (.badCounter target)) := by
  rw [step_of_encode read trivial, execute]
  have taken' : holds (machine.decoded (.branch cond displacement)).flags cond = true := taken
  rw [if_pos taken', finish_aim]
  rfl

theorem step_not_taken {machine : Machine} {cond : Condition} {displacement : UInt8}
    (read : machine.code.get? machine.counter.toNat =
      some (Instruction.branch cond displacement).encode)
    (passed : holds machine.flags cond = false)
    (inside : machine.counter.toNat + 1 < codeSize) :
    machine.step =
      ((machine.decoded (.branch cond displacement)).goneTo (machine.counter.toNat + 1), none) := by
  rw [step_of_encode read trivial, execute]
  have passed' : ¬ holds (machine.decoded (.branch cond displacement)).flags cond = true :=
    Bool.eq_false_iff.mp passed
  rw [if_neg passed']
  exact complete_kept none inside

theorem jump_eq_mod (machine : Machine) (target : UInt16) :
    machine.jump target =
      ({ machine with counter := UInt16.ofNat (target.toNat % 4096) - 1 }, none) := by
  have inside : target.toNat % 4096 < codeSize := Nat.mod_lt _ (by decide)
  rw [jump, UInt16.toNat_mod]
  exact if_pos ⟨Int.natCast_nonneg _, inside⟩

theorem jump_eq (machine : Machine) {target : UInt16} (small : target.toNat < 4096) :
    machine.jump target = ({ machine with counter := UInt16.ofNat target.toNat - 1 }, none) := by
  rw [jump_eq_mod, Nat.mod_eq_of_lt small]

theorem step_jmp {machine : Machine} {target : UInt16} (small : target.toNat < 4096)
    (read : machine.code.get? machine.counter.toNat =
      some (Instruction.jump .jmp target).encode) :
    machine.step = ((machine.decoded (.jump .jmp target)).goneTo target.toNat, none) := by
  rw [step_of_encode read small, execute, jump_eq _ small]
  exact complete_aimed _ none small

/-- A call jumps, whether the return stack has room or not. -/
theorem call_eq (machine : Machine) (target : UInt16) :
    machine.call target =
      let jumped := { machine with counter := UInt16.ofNat (target.toNat % 4096) - 1 }
      match machine.returns.push machine.counter with
      | .ok returns => ({ jumped with returns }, none)
      | .error fault => (jumped, some fault) := by
  rw [call, jump_eq_mod]
  dsimp only
  cases machine.returns.push machine.counter with
  | ok returns => rfl
  | error fault => rfl

theorem step_call {machine : Machine} {target : UInt16}
    (calls : machine.upcoming? = some (.jump .jsb target)) :
    machine.step =
      let decoded := machine.decoded (.jump .jsb target)
      match machine.returns.push machine.counter with
      | .ok returns => ({ decoded with returns }.goneTo (target.toNat % 4096), none)
      | .error fault => (decoded.goneTo (target.toNat % 4096), some fault) := by
  have inside : target.toNat % 4096 < codeSize := Nat.mod_lt _ (by decide)
  have kept : (machine.decoded (.jump .jsb target)).returns.push
      (machine.decoded (.jump .jsb target)).counter = machine.returns.push machine.counter := rfl
  rw [step_of_upcoming calls, execute, call_eq, kept]
  cases pushed : machine.returns.push machine.counter with
  | ok returns =>
    exact complete_aimed { machine.decoded (.jump .jsb target) with returns } none inside
  | error fault =>
    obtain ⟨-, rfl⟩ := (ReturnStack.push_eq_error_iff _ _ _).mp pushed
    exact complete_aimed (machine.decoded (.jump .jsb target)) _ inside

theorem step_jsb {machine : Machine} {target : UInt16} (small : target.toNat < 4096)
    (read : machine.code.get? machine.counter.toNat =
      some (Instruction.jump .jsb target).encode) :
    machine.step =
      let decoded := machine.decoded (.jump .jsb target)
      match machine.returns.push machine.counter with
      | .ok returns => ({ decoded with returns }.goneTo target.toNat, none)
      | .error fault => (decoded.goneTo target.toNat, some fault) := by
  rw [step_call (upcoming?_of_encode read small), Nat.mod_eq_of_lt small]

end Gumnut.Machine
