import Gumnut.Proofs.SessionSteps
import Mathlib.Logic.Function.Iterate

/-!
# Calls and returns

A call saves its own address on the return stack, and whatever runs in between, the address stays
where it is until a return takes it: nested calls only add to the stack above it, nested returns
only take away what they added, and a call without room adds nothing. So the first step behind the
call that leaves the stack as it was before is a return, and it goes to the line that was told as
the return line when the call was made.
-/
set_option autoImplicit false

namespace Gumnut

namespace Machine

variable {machine : Machine} {instruction : Instruction}

theorem returns_complete (machine : Machine) (met : Option Fault) :
    (machine.complete met).1.returns = machine.returns := by
  rw [complete_eq]
  split <;> rfl

/-- The return stack behind an instruction is what it was, or one address higher after a call, or
one lower after a return, which then goes on behind the address it took. -/
theorem returns_of_steers {outcome : Outcome} (steers : machine.Steers instruction outcome) :
    (finish outcome).1.returns = machine.returns ∨
    (finish outcome).1.returns.toList = machine.returns.toList ++ [machine.counter] ∨
    (instruction.IsReturn ∧ ∃ returned, finish outcome = complete returned none ∧
      machine.returns.toList = returned.returns.toList ++ [returned.counter]) := by
  cases steers with
  | @keeps _ kept counter returns =>
    refine .inl ?_
    rw [← returns]
    exact kept.returns_complete none
  | aims inside =>
    rw [finish_aimed machine inside]
    exact .inl rfl
  | @calls _ _ returns inside pushes =>
    rw [finish_aimed { machine with returns } inside]
    exact .inr (.inl (ReturnStack.toList_push pushes))
  | overflows inside full =>
    rw [finish_overflowed machine _ inside]
    exact .inl rfl
  | @returns _ returned back pops =>
    exact .inr (.inr ⟨back, returned, rfl, ReturnStack.toList_pop pops⟩)
  | refuses refused =>
    rw [finish_refused refused]
    exact .inl rfl

theorem saved_of_steers {outcome : Outcome} {below : List UInt16} {address : UInt16}
    (steers : machine.Steers instruction outcome) (inside : address.toNat + 1 < codeSize)
    (saved : below ++ [address] <+: machine.returns.toList) :
    below ++ [address] <+: (finish outcome).1.returns.toList ∨
    ((finish outcome).1.returns.toList = below ∧ instruction.IsReturn ∧
      (finish outcome).2 = none ∧
      (finish outcome).1.counter.toNat = address.toNat + 1) := by
  rcases returns_of_steers steers with same | grown | ⟨back, returned, completed, shrunk⟩
  · rw [same]
    exact .inl saved
  · rw [grown]
    exact .inl (saved.trans (List.prefix_append _ _))
  · rw [completed, returned.returns_complete]
    rw [shrunk] at saved
    rcases List.prefix_concat_iff.mp saved with whole | inner
    · obtain ⟨rfl, last⟩ := List.append_inj' whole rfl
      cases last
      rw [complete_kept none inside]
      exact .inr ⟨rfl, back, rfl, returned.counter_goneTo inside⟩
    · exact .inl inner

theorem saved_step {below : List UInt16} {address : UInt16}
    (comes : machine.upcoming? = some instruction) (inside : address.toNat + 1 < codeSize)
    (saved : below ++ [address] <+: machine.returns.toList) :
    below ++ [address] <+: machine.step.1.returns.toList ∨
    (machine.step.1.returns.toList = below ∧ instruction.IsReturn ∧
      machine.step.2 = none ∧ machine.step.1.counter.toNat = address.toNat + 1) := by
  have steers := (machine.decoded instruction).steers_execute instruction
  rw [step_of_upcoming comes]
  exact saved_of_steers steers inside saved

end Machine

namespace Session

variable {session : Session} {below : List UInt16} {address : UInt16}

/-- The next step of a session returns to a call at an address: it executes a return, meets no
fault, and goes on behind the address. -/
structure ReturnsTo (session : Session) (address : UInt16) : Prop where
  returns : session.upcoming? = some (.control .ret) ∨ session.upcoming? = some (.control .reti)
  succeeds : session.outcome.2 = none
  counter_eq : session.step.machine.counter.toNat = address.toNat + 1

/-- An address is saved above some others, with any number of addresses above it. -/
def Saves (session : Session) (below : List UInt16) (address : UInt16) : Prop :=
  below ++ [address] <+: session.machine.returns.toList

theorem Saves.lt_depth (saved : session.Saves below address) :
    below.length < session.machine.returns.depth := by
  have long := List.IsPrefix.length_le saved
  rw [List.length_append, ReturnStack.length_toList] at long
  exact long

theorem Saves.step (saved : session.Saves below address)
    (inside : address.toNat + 1 < codeSize) :
    session.step.Saves below address ∨
      session.step.machine.returns.toList = below ∧ session.ReturnsTo address := by
  by_cases halted : session.state = .halted
  · rw [step_of_halted halted]
    exact .inl saved
  have machine : session.step.machine = session.ready.step.1 := machine_step halted
  rw [Saves, machine]
  cases comes : session.ready.upcoming? with
  | none =>
    rw [Machine.step_of_upcoming_eq_none comes]
    exact .inl saved
  | some instruction =>
    rcases Machine.saved_step comes inside saved with kept | ⟨back, returns, succeeds, counter⟩
    · exact .inl kept
    · refine .inr ⟨back, ⟨?_, succeeds, ?_⟩⟩
      · rw [upcoming?, if_neg halted]
        rcases returns with rfl | rfl
        · exact .inl comes
        · exact .inr comes
      · rw [machine]
        exact counter

theorem Saves.iterate {n : Nat} (saved : session.Saves below address)
    (inside : address.toNat + 1 < codeSize)
    (above : ∀ k ≤ n, (Session.step^[k] session).machine.returns.depth ≠ below.length) :
    (Session.step^[n] session).Saves below address := by
  induction n with
  | zero => exact saved
  | succ n ih =>
    have before : (Session.step^[n] session).Saves below address := by
      apply ih
      intro k earlier
      exact above k (Nat.le_succ_of_le earlier)
    rw [Function.iterate_succ_apply']
    rcases before.step inside with after | ⟨back, -⟩
    · exact after
    · have depth := above (n + 1) (Nat.le_refl _)
      rw [Function.iterate_succ_apply', ← ReturnStack.length_toList, back] at depth
      exact absurd rfl depth

theorem image_iterate (session : Session) (n : Nat) :
    (Session.step^[n] session).image = session.image := by
  induction n with
  | zero => rfl
  | succ n ih => rw [Function.iterate_succ_apply', image_step, ih]

theorem step_of_call {target : UInt16} (calls : session.upcoming? = some (.jump .jsb target))
    (room : session.machine.returns.depth < 8) :
    session.step.Saves session.machine.returns.toList session.machine.counter ∧
      session.step.returnLine? = session.image.listing.lineAt? (session.machine.counter + 1) := by
  obtain ⟨running, comes⟩ := running_of_upcoming calls
  have steps := Machine.step_call comes
  cases pushed : session.ready.returns.push session.ready.counter with
  | error fault =>
    obtain ⟨full, -⟩ := (ReturnStack.push_eq_error_iff _ _ _).mp pushed
    exact absurd full (Nat.ne_of_lt room)
  | ok returns =>
    rw [pushed] at steps
    have machine : session.step.machine = session.ready.step.1 := machine_step running
    rw [steps] at machine
    refine ⟨?_, ?_⟩
    · rw [Saves, machine]
      exact (ReturnStack.toList_push pushed) ▸ List.prefix_refl _
    · rw [returnLine?, machine, image_step, previousCounter_step running]
      rfl

/-- The first step behind a call that leaves the return stack as deep as before the call returns to
it, and the line it comes to is the one that was told as the return line. -/
theorem call_returns {target : UInt16} {n : Nat}
    (calls : session.upcoming? = some (.jump .jsb target))
    (before : session.machine.counter.toNat < 4095)
    (room : session.machine.returns.depth < 8)
    (back : (Session.step^[n] session.step).machine.returns.depth =
      session.machine.returns.depth)
    (first : ∀ k < n, (Session.step^[k] session.step).machine.returns.depth ≠
      session.machine.returns.depth) :
    ∃ m, n = m + 1 ∧ (Session.step^[m] session.step).ReturnsTo session.machine.counter ∧
      (Session.step^[n] session.step).currentLine? = session.step.returnLine? := by
  have inside : session.machine.counter.toNat + 1 < codeSize := Nat.succ_lt_succ before
  obtain ⟨saved, line⟩ := step_of_call calls room
  rw [← session.machine.returns.length_toList] at first back
  cases n with
  | zero => exact absurd back (Nat.ne_of_gt saved.lt_depth)
  | succ m =>
    have deep : (Session.step^[m] session.step).Saves session.machine.returns.toList
        session.machine.counter := by
      apply saved.iterate inside
      intro k earlier
      exact first k (Nat.lt_succ_of_le earlier)
    rw [Function.iterate_succ_apply'] at back ⊢
    rcases deep.step inside with deeper | ⟨-, returns⟩
    · exact absurd back (Nat.ne_of_gt deeper.lt_depth)
    · refine ⟨m, rfl, returns, ?_⟩
      have counter : (Session.step^[m] session.step).step.machine.counter =
          session.machine.counter + 1 := by
        rw [← UInt16.toNat_inj, returns.counter_eq, Machine.toNat_next (Nat.lt_of_succ_lt inside)]
      rw [currentLine?, counter, image_step, image_iterate, image_step, line]

def nested : Session :=
  setup {} "main: jsb outer\n stby\nouter: jsb inner\n ret\ninner: ret\n"

theorem call_returns_nested :
    nested.upcoming? = some (.jump .jsb 2) ∧ (Session.step^[2] nested.step).ReturnsTo 0 ∧
      (Session.step^[3] nested.step).currentLine? = some 1 := by
  have run : nested.upcoming? = some (.jump .jsb 2) ∧ nested.machine.counter = 0 ∧
      nested.machine.returns.depth = 0 ∧
      (Session.step^[3] nested.step).machine.returns.depth = 0 ∧
      (∀ k < 3, (Session.step^[k] nested.step).machine.returns.depth ≠ 0) ∧
      nested.step.returnLine? = some 1 := by
    decide +kernel
  obtain ⟨calls, start, empty, back, first, told⟩ := run
  obtain ⟨m, three, returns, line⟩ := call_returns calls (by rw [start]; decide)
    (by rw [empty]; decide) (by rw [empty]; exact back) (by rw [empty]; exact first)
  obtain rfl : m = 2 := by omega
  rw [start] at returns
  rw [told] at line
  exact ⟨calls, returns, line⟩

end Session

end Gumnut
