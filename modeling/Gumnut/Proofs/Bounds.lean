import Gumnut.Proofs.Steering

/-!
# Machines within bounds

What holds of a machine whatever has been done to it from the start: its counter and every slot of
its return stack, in use or not, are addresses of the instruction memory. A slot that is popped
becomes the counter, so neither half is kept without the other. It follows that a step always finds
a word, and which faults it can end with.
-/
set_option autoImplicit false

namespace Gumnut

namespace Flags

theorem bits_lt (flags : Flags) : flags.bits < 32 := by
  obtain ⟨carry, zero, wait, stby, iren⟩ := flags
  decide +revert

end Flags

namespace Machine

open Instruction (decode)

inductive Action where
  | load (image : Image)
  | uploadCode (words : List UInt32)
  | uploadBytes (space : Space) (bytes : List UInt8)
  | setRegister (r : Reg) (value : UInt8)
  | setByte (space : Space) (address value : UInt8)
  | setFlags (flags : Flags)
  | raiseInterrupt
  | step

def act (machine : Machine) : Action → Outcome
  | .load image => (machine.load image, none)
  | .uploadCode words => machine.uploadCode words
  | .uploadBytes space bytes => machine.uploadBytes space bytes
  | .setRegister r value => (machine.setRegister r value, none)
  | .setByte space address value =>
    (machine.setMemory space ((machine.memory space).write address value), none)
  | .setFlags flags => ({ machine with flags }, none)
  | .raiseInterrupt => (machine.raiseInterrupt, none)
  | .step => machine.step

/-- A machine that a new one becomes by some actions, whether they meet faults or not. -/
inductive Reached : Machine → Prop where
  | new : Reached {}
  | act {machine : Machine} (reached : Reached machine) (action : Action) :
      Reached (machine.act action).1

structure InBounds (machine : Machine) : Prop where
  counter_lt : machine.counter.toNat < codeSize
  slots_lt : ∀ slot ∈ machine.returns.slots, slot.toNat < codeSize

/-- The faults that a step can end with, each with what causes it. -/
inductive Raises (machine : Machine) (instruction : Instruction) : Fault → Prop where
  | refused {fault : Fault} (refuses : machine.Refuses instruction fault) :
      machine.Raises instruction fault
  | overflowed {target : UInt16} (calls : instruction = .jump .jsb target)
      (full : machine.returns.depth = 8) :
      machine.Raises instruction (.returnStackOverflow machine.counter)
  | ended {executed : Machine}
      (executes : (machine.decoded instruction).execute instruction = (executed, none))
      (last : executed.counter.toNat + 1 = codeSize) :
      machine.Raises instruction (.badCounter codeSize)

namespace InBounds

variable {machine : Machine}

theorem new : InBounds {} := by
  refine ⟨by decide, ?_⟩
  intro slot member
  rw [Vector.eq_of_mem_replicate member]
  decide

theorem of_eq {other : Machine} (bounds : machine.InBounds)
    (counter : other.counter = machine.counter) (returns : other.returns = machine.returns) :
    other.InBounds := by
  refine ⟨?_, ?_⟩
  · rw [counter]
    exact bounds.counter_lt
  · rw [returns]
    exact bounds.slots_lt

theorem goneTo {address : Nat} (slots : ∀ slot ∈ machine.returns.slots, slot.toNat < codeSize)
    (inside : address < codeSize) : (machine.goneTo address).InBounds := by
  refine ⟨?_, slots⟩
  rw [machine.counter_goneTo inside]
  exact inside

theorem complete (bounds : machine.InBounds) (met : Option Fault) :
    (machine.complete met).1.InBounds := by
  rw [complete_eq]
  split
  · exact bounds
  · rename_i inside
    exact goneTo bounds.slots_lt (Nat.not_le.mp inside)

theorem push {returns : ReturnStack} (bounds : machine.InBounds)
    (pushes : machine.returns.push machine.counter = .ok returns) :
    ∀ slot ∈ returns.slots, slot.toNat < codeSize := by
  intro slot member
  rcases ReturnStack.mem_slots_push pushes member with rfl | old
  · exact bounds.counter_lt
  · exact bounds.slots_lt slot old

theorem pop {returned : Machine} (bounds : machine.InBounds)
    (pops : machine.returns.pop = .ok (returned.counter, returned.returns)) :
    returned.InBounds := by
  obtain ⟨slots, member⟩ := ReturnStack.slots_pop pops
  refine ⟨bounds.slots_lt _ member, ?_⟩
  rw [slots]
  exact bounds.slots_lt

theorem of_steers {instruction : Instruction} {outcome : Outcome} (bounds : machine.InBounds)
    (steers : machine.Steers instruction outcome) : (finish outcome).1.InBounds := by
  cases steers with
  | keeps counter returns => exact (bounds.of_eq counter returns).complete none
  | aims inside =>
    rw [finish_aimed machine inside]
    exact goneTo bounds.slots_lt inside
  | @calls _ _ returns inside pushes =>
    rw [finish_aimed { machine with returns } inside]
    exact goneTo (bounds.push pushes) inside
  | overflows inside full =>
    rw [finish_overflowed machine _ inside]
    exact goneTo bounds.slots_lt inside
  | returns back pops => exact (bounds.pop pops).complete none
  | refuses refused =>
    rw [finish_refused refused]
    exact bounds

theorem isSome_upcoming? (bounds : machine.InBounds) :
    ∃ word, machine.fetch = .ok word ∧ machine.upcoming? = some (decode word) := by
  obtain ⟨word, read⟩ : ∃ word, machine.code.get? machine.counter.toNat = some word :=
    ⟨_, Vector.getElem?_eq_getElem bounds.counter_lt⟩
  refine ⟨word, ?_, ?_⟩
  · rw [fetch, read]
  · rw [upcoming?, read, Option.map_some]

theorem step (bounds : machine.InBounds) : machine.step.1.InBounds := by
  obtain ⟨word, -, comes⟩ := bounds.isSome_upcoming?
  rw [step_of_upcoming comes]
  have decoded : (machine.decoded (decode word)).InBounds := bounds.of_eq rfl rfl
  exact decoded.of_steers (steers_execute _ _)

theorem act (bounds : machine.InBounds) (action : Action) : (machine.act action).1.InBounds := by
  cases action with
  | load | setRegister | setFlags | raiseInterrupt => exact bounds.of_eq rfl rfl
  | setByte space => cases space <;> exact bounds.of_eq rfl rfl
  | uploadCode words =>
    rw [Machine.act, uploadCode]
    split <;> exact bounds.of_eq rfl rfl
  | uploadBytes space bytes =>
    rw [Machine.act, uploadBytes]
    split
    · cases space <;> exact bounds.of_eq rfl rfl
    · exact bounds
  | step => exact bounds.step

theorem of_reached (reached : machine.Reached) : machine.InBounds := by
  induction reached with
  | new => exact new
  | act reached action ih => exact ih.act action

theorem ended_of_complete {fault : Fault} (bounds : machine.InBounds)
    (met : (machine.complete none).2 = some fault) :
    machine.counter.toNat + 1 = codeSize ∧ fault = .badCounter codeSize := by
  have small := bounds.counter_lt
  rw [complete_eq, toNat_next small] at met
  split at met
  · have last : machine.counter.toNat + 1 = codeSize := by omega
    rw [last] at met
    exact ⟨last, (Option.some.inj met).symm⟩
  · cases met

theorem raises_of_finish {instruction : Instruction} {fault : Fault} {outcome : Outcome}
    (bounds : machine.InBounds)
    (executes : (machine.decoded instruction).execute instruction = outcome)
    (steers : (machine.decoded instruction).Steers instruction outcome)
    (met : (finish outcome).2 = some fault) : machine.Raises instruction fault := by
  have decoded : (machine.decoded instruction).InBounds := bounds.of_eq rfl rfl
  cases steers with
  | keeps counter returns =>
    obtain ⟨last, rfl⟩ := (decoded.of_eq counter returns).ended_of_complete met
    exact .ended executes last
  | aims inside =>
    rw [finish_aimed _ inside] at met
    cases met
  | @calls _ _ returns inside pushes =>
    rw [finish_aimed { machine.decoded _ with returns } inside] at met
    cases met
  | overflows inside full =>
    rw [finish_overflowed _ _ inside] at met
    cases met
    exact .overflowed rfl full
  | returns back pops =>
    obtain ⟨last, rfl⟩ := (decoded.pop pops).ended_of_complete met
    exact .ended executes last
  | refuses refused =>
    rw [finish_refused refused] at met
    cases met
    exact .refused refused.of_decoded

theorem raises_of_step {instruction : Instruction} {fault : Fault} (bounds : machine.InBounds)
    (comes : machine.upcoming? = some instruction) (met : machine.step.2 = some fault) :
    machine.Raises instruction fault := by
  rw [step_of_upcoming comes] at met
  exact bounds.raises_of_finish rfl (steers_execute _ _) met

end InBounds

/-- Whatever has been done to a machine, its counter and its return addresses stay within the
memory, the byte that packs its flags has no bit above the five flags, and a step finds a word and
ends with no other fault than one that the word explains. -/
theorem Reached.stays_in_bounds {machine : Machine} (reached : machine.Reached) :
    machine.counter.toNat ≤ 4095 ∧ machine.returns.depth ≤ 8 ∧
    (∀ slot ∈ machine.returns.slots, slot.toNat ≤ 4095) ∧
    machine.flags.bits < 32 ∧
    machine.step.1.counter ≠ 65535 ∧
    ∃ word, machine.fetch = .ok word ∧
      ∀ fault, machine.step.2 = some fault → machine.Raises (decode word) fault := by
  have bounds : machine.InBounds := .of_reached reached
  obtain ⟨word, fetched, comes⟩ := bounds.isSome_upcoming?
  refine ⟨Nat.le_of_lt_succ bounds.counter_lt, machine.returns.depth_le, ?_, machine.flags.bits_lt,
    ?_, word, fetched, ?_⟩
  · intro slot member
    exact Nat.le_of_lt_succ (bounds.slots_lt slot member)
  · intro beyond
    have inside := bounds.step.counter_lt
    rw [beyond] at inside
    exact absurd inside (by decide)
  · intro fault met
    exact bounds.raises_of_step comes met

def atLast : Machine :=
  let loaded := (act {} (.uploadCode [(Instruction.jump .jmp 4095).encode])).1
  (loaded.act .step).1

theorem Reached.stays_in_bounds_last :
    atLast.Reached ∧ atLast.counter = 4095 ∧ atLast.step.1.counter ≠ 65535 ∧
      atLast.Raises (decode 0) (.badCounter 4096) := by
  have reached : atLast.Reached := (Reached.new.act _).act .step
  obtain ⟨-, -, -, -, visible, word, fetched, raises⟩ := stays_in_bounds reached
  have met : atLast.step.2 = some (.badCounter 4096) := by decide +kernel
  have read : atLast.fetch.toOption = some 0 := by decide +kernel
  rw [fetched] at read
  cases read
  exact ⟨reached, by decide +kernel, visible, raises _ met⟩

end Machine

end Gumnut
