import Gumnut.Proofs.Frame

/-!
# What a fault leaves behind

An instruction finds out whether it can be executed before it changes anything: refused with a fatal
fault, it leaves the machine as it was, and a call that finds the return stack full has done nothing
but jump. A step has one more place to fail, after its instruction: if that has left the counter
where there is no next address, its effects stay, and the counter with them.
-/
set_option autoImplicit false

namespace Gumnut.Machine

open Instruction (decode)

/-- The ways in which a fatal fault ends a step, each with the machine it leaves and the fault. -/
inductive Aborts (machine : Machine) : Machine → Fault → Prop where
  | unfetched {fault : Fault} (unread : machine.fetch = .error fault) :
      machine.Aborts machine fault
  | refused {word : UInt32} {fault : Fault} (fetched : machine.fetch = .ok word)
      (met : (machine.execute (decode word)).2 = some fault) (fatal : fault.isFatal = true) :
      machine.Aborts (machine.decoded (decode word)) fault
  | ended {word : UInt32} {executed : Machine} (fetched : machine.fetch = .ok word)
      (executes : machine.execute (decode word) = (executed, none))
      (beyond : codeSize ≤ executed.counter.toNat + 1)
      (unwrapped : executed.counter.toNat + 1 < UInt16.size) :
      machine.Aborts (executed.decoded (decode word)) (.badCounter (executed.counter.toNat + 1))

variable {machine after : Machine} {instruction : Instruction} {fault : Fault} {word : UInt32}

/-! ## Instructions -/

/-- A fatal fault leaves the machine as it was before the instruction. -/
theorem execute_of_fatal (met : (machine.execute instruction).2 = some fault)
    (fatal : fault.isFatal = true) : machine.execute instruction = (machine, some fault) := by
  have steers := machine.steers_execute instruction
  generalize machine.execute instruction = outcome at steers met ⊢
  cases steers with
  | keeps | aims | calls | returns => cases met
  | overflows =>
    cases met
    cases fatal
  | refuses refused =>
    cases met
    rfl

/-- A call that overflows the return stack has jumped, and has done nothing else. -/
theorem execute_of_overflow (met : (machine.execute instruction).2 = some fault)
    (harmless : fault.isFatal = false) :
    ∃ target, instruction = .jump .jsb target ∧
      machine.execute instruction =
        ({ machine with counter := UInt16.ofNat (target.toNat % 4096) - 1 },
          some (.returnStackOverflow machine.counter)) := by
  have steers := machine.steers_execute instruction
  generalize outcome : machine.execute instruction = executed at steers met
  cases steers with
  | keeps | aims | calls | returns => cases met
  | @overflows target _ _ full =>
    refine ⟨target, rfl, ?_⟩
    have refused := (ReturnStack.push_eq_error_iff machine.returns machine.counter _).mpr
      ⟨full, rfl⟩
    rw [← outcome, execute, call_eq, refused]
  | refuses refused =>
    cases met
    rw [refused.isFatal] at harmless
    cases harmless

theorem toNat_aimed {address : Nat} (small : address < UInt16.size) :
    ((UInt16.ofNat address - 1).toNat : ℤ) = ((address : ℤ) - 1) % UInt16.size := by
  rw [UInt16.toNat_sub, UInt16.toNat_ofNat_of_lt' small]
  simp only [UInt16.toNat_one, UInt16.size]
  omega

theorem execute_decoded (machine : Machine) (latest instruction : Instruction) :
    (machine.decoded latest).execute instruction =
      Prod.map (·.decoded latest) id (machine.execute instruction) := by
  have whole : machine.decoded latest = machine.beside (machine.decoded latest) := rfl
  rw [whole, execute_beside]
  apply Prod.ext
  · show (machine.execute instruction).1.beside _ = (machine.execute instruction).1.decoded latest
    rw [← beside_execute]
    rfl
  · rfl

/-! ## Steps -/

theorem step_of_unread (unread : machine.fetch = .error fault) :
    machine.step = (machine, some fault) := by
  rw [step, unread]

theorem step_of_fetched (fetched : machine.fetch = .ok word) :
    machine.step =
      finish (Prod.map (·.decoded (decode word)) id (machine.execute (decode word))) := by
  rw [← execute_decoded, step, fetched]
  rfl

/-- Moving on fails just where the next address is outside the memory and is no overflow of the
counter itself. -/
theorem complete_eq_error_iff :
    machine.complete none = (after, some fault) ↔
      codeSize ≤ machine.counter.toNat + 1 ∧ machine.counter.toNat + 1 < UInt16.size ∧
        machine = after ∧ .badCounter (machine.counter.toNat + 1) = fault := by
  have bound : machine.counter.toNat < UInt16.size := machine.counter.toNat_lt
  rw [complete_eq]
  by_cases last : machine.counter.toNat + 1 = UInt16.size
  · have wrapped : (machine.counter + 1).toNat = 0 := by
      rw [UInt16.toNat_add, UInt16.toNat_one, last]
      rfl
    rw [wrapped, if_neg (by decide)]
    simp [last]
  · have unwrapped : machine.counter.toNat + 1 < UInt16.size := Nat.lt_of_le_of_ne bound last
    have next : (machine.counter + 1).toNat = machine.counter.toNat + 1 := by
      rw [UInt16.toNat_add]
      exact Nat.mod_eq_of_lt unwrapped
    rw [next]
    split
    · rename_i beyond
      simp [beyond, unwrapped]
    · rename_i inside
      simp [inside]

theorem step_of_refused (fetched : machine.fetch = .ok word)
    (met : (machine.execute (decode word)).2 = some fault) (fatal : fault.isFatal = true) :
    machine.step = (machine.decoded (decode word), some fault) := by
  rw [step_of_fetched fetched, execute_of_fatal met fatal]
  exact if_pos fatal

theorem step_of_overflow (fetched : machine.fetch = .ok word)
    (met : (machine.execute (decode word)).2 = some fault) (harmless : fault.isFatal = false) :
    ∃ address, machine.step = ((machine.decoded (decode word)).goneTo address,
      some (.returnStackOverflow machine.counter)) := by
  obtain ⟨target, -, executes⟩ := execute_of_overflow met harmless
  have inside : target.toNat % 4096 < codeSize := Nat.mod_lt _ (by decide)
  rw [step_of_fetched fetched, executes]
  exact ⟨_, finish_overflowed (machine.decoded (decode word)) machine.counter inside⟩

theorem step_of_executed {executed : Machine} (fetched : machine.fetch = .ok word)
    (executes : machine.execute (decode word) = (executed, none)) :
    machine.step = (executed.decoded (decode word)).complete none := by
  rw [step_of_fetched fetched, executes]
  rfl

/-- A step that a fatal fault ends has failed in one of the three ways. -/
theorem Aborts.of_step (stops : machine.step = (after, some fault)) (fatal : fault.isFatal = true) :
    machine.Aborts after fault := by
  cases fetched : machine.fetch with
  | error unread =>
    rw [step_of_unread fetched] at stops
    cases stops
    exact .unfetched fetched
  | ok word =>
    cases met : (machine.execute (decode word)).2 with
    | none =>
      have executes : machine.execute (decode word) = ((machine.execute (decode word)).1, none) :=
        Prod.ext rfl met
      rw [step_of_executed fetched executes] at stops
      obtain ⟨beyond, unwrapped, rfl, rfl⟩ := complete_eq_error_iff.mp stops
      exact .ended fetched executes beyond unwrapped
    | some other =>
      cases fatal' : other.isFatal with
      | true =>
        rw [step_of_refused fetched met fatal'] at stops
        cases stops
        exact .refused fetched met fatal
      | false =>
        obtain ⟨address, goes⟩ := step_of_overflow fetched met fatal'
        rw [goes] at stops
        cases stops
        cases fatal

theorem fetch_eq_error (unread : machine.fetch = .error fault) :
    fault = .badCounter machine.counter.toNat := by
  unfold fetch at unread
  split at unread
  · cases unread
  · cases unread
    rfl

theorem Aborts.step_eq (aborts : machine.Aborts after fault) :
    machine.step = (after, some fault) ∧ fault.isFatal = true := by
  cases aborts with
  | unfetched unread =>
    obtain rfl := fetch_eq_error unread
    exact ⟨step_of_unread unread, rfl⟩
  | refused fetched met fatal => exact ⟨step_of_refused fetched met fatal, fatal⟩
  | ended fetched executes beyond unwrapped =>
    rw [step_of_executed fetched executes]
    exact ⟨complete_eq_error_iff.mpr ⟨beyond, unwrapped, rfl, rfl⟩, rfl⟩

/-- Nothing is half done. An instruction that a fatal fault refuses changes nothing, one that
overflows the return stack jumps and does nothing else, and a step that a fatal fault ends is not
counted and leaves what its last successful part has left. -/
theorem faults_leave_no_partial_effects (machine : Machine) :
    (∀ instruction fault, (machine.execute instruction).2 = some fault → fault.isFatal = true →
      (machine.execute instruction).1 = machine) ∧
    (∀ instruction address,
      (machine.execute instruction).2 = some (.returnStackOverflow address) →
      ∃ target counter, instruction = .jump .jsb target ∧
        (machine.execute instruction).1 = { machine with counter } ∧
        (counter.toNat : ℤ) = ((target.toNat : ℤ) % 4096 - 1) % 65536) ∧
    (∀ after fault, machine.step = (after, some fault) ∧ fault.isFatal = true ↔
      machine.Aborts after fault) ∧
    (∀ after fault, machine.Aborts after fault → after.completed = machine.completed) := by
  refine ⟨?_, ?_, ?_, ?_⟩
  · intro instruction fault met fatal
    rw [execute_of_fatal met fatal]
  · intro instruction address met
    obtain ⟨target, called, executes⟩ := execute_of_overflow met rfl
    have small : target.toNat % 4096 < UInt16.size :=
      Nat.lt_trans (Nat.mod_lt _ (by decide)) (by decide : 4096 < UInt16.size)
    exact ⟨target, _, called, congrArg Prod.fst executes, toNat_aimed small⟩
  · intro after fault
    exact ⟨fun ⟨stops, fatal⟩ => .of_step stops fatal, Aborts.step_eq⟩
  · intro after fault aborts
    obtain ⟨stops, fatal⟩ := aborts.step_eq
    have counted := machine.completed_step
    rw [stops] at counted
    simpa [Outcome.isFatal, fatal] using counted

def atEnd : Machine := { counter := 4095 }

def crowded : Machine := { returns := { depth := 8 } }

theorem faults_leave_no_partial_effects_atEnd :
    (atEnd.execute (.control .reti)).1 = atEnd ∧
    (crowded.execute (.jump .jsb 4096)).1 = { crowded with counter := 65535 } ∧
    atEnd.Aborts atEnd.step.1 (.badCounter 4096) ∧ atEnd.step.1.completed = 0 ∧
    atEnd.step.1.flags.zero = true ∧ atEnd.step.1.counter = 4095 := by
  obtain ⟨refused, -, aborts, uncounted⟩ := faults_leave_no_partial_effects atEnd
  have met : atEnd.step.2 = some (.badCounter 4096) := by decide +kernel
  have stops : atEnd.step = (atEnd.step.1, some (.badCounter 4096)) := by rw [← met]
  have ended := (aborts _ _).mp ⟨stops, rfl⟩
  refine ⟨refused (.control .reti) .emptyReturnStack rfl rfl, ?_, ended, uncounted _ _ ended,
    by decide +kernel, by decide +kernel⟩
  obtain ⟨-, overflowed, -⟩ := faults_leave_no_partial_effects crowded
  obtain ⟨target, counter, called, jumped, aimed⟩ :=
    overflowed (.jump .jsb 4096) 0 (by decide +kernel)
  cases called
  obtain rfl : counter = 65535 := by
    have start : (counter.toNat : ℤ) = 65535 := aimed
    rw [← UInt16.toNat_inj]
    exact Int.ofNat_inj.mp start
  exact jumped

end Gumnut.Machine
