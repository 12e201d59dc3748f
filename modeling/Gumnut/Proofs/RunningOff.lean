import Gumnut.Proofs.FaultEffects
import Gumnut.Proofs.RunLoops

/-!
# Running off the program

The words behind a program are zero, and a zero word adds nothing to the register r0: it changes
only the flags. A machine that has come to them steps on from word to word to the last one, and the
step there fails, since there is no next address. So a program that is left at its end does not
begin again, and a run of it ends in a halt.
-/
set_option autoImplicit false

namespace Gumnut

namespace Machine

def addNothing : Instruction :=
  .alu .add Reg.r0 Reg.r0 (.immediate 0)

def idled (machine : Machine) : Machine :=
  { machine with
    flags := { machine.flags with carry := false, zero := decide (machine.register Reg.r0 = 0) }
    lastInstruction := some addNothing }

structure Trails (machine : Machine) : Prop where
  inside : machine.counter.toNat < codeSize
  zeros : ∀ address, machine.counter.toNat ≤ address → address < codeSize →
    machine.code.get? address = some 0

variable {machine : Machine} {k : Nat}

/-! ## One zero word -/

theorem apply_add_zero (byte : UInt8) (carry : Bool) :
    AluOp.add.apply byte 0 carry =
      { value := byte, carry := false, zero := decide (byte = 0) } := by
  have bound := byte.toNat_lt
  have wide : AluOp.add.wide byte 0 carry = byte.toNat := by
    simp [AluOp.wide]
  have value : UInt8.ofInt byte.toNat = byte := by
    rw [UInt8.ofInt, Int.emod_eq_of_lt (Int.natCast_nonneg _) (by omega), Int.toNat_natCast,
      UInt8.ofNat_toNat]
  have carries : AluOp.add.carries byte.toNat = false := by
    rw [AluOp.carries, decide_eq_false_iff_not]
    omega
  have zero : decide ((byte.toNat : ℤ) = 0) = decide (byte = 0) := by
    rw [decide_eq_decide, Int.natCast_eq_zero, ← UInt8.toNat_inj]
    rfl
  rw [AluOp.apply, wide, value, carries, zero]

theorem setRegister_register (machine : Machine) (r : Reg) :
    machine.setRegister r (machine.register r) = machine := by
  simp [setRegister, register]

theorem execute_addNothing (machine : Machine) :
    (machine.decoded addNothing).execute addNothing = (machine.idled, none) := by
  rw [addNothing, execute, sourceValue, apply_add_zero, setResult, setRegister_register]
  rfl

theorem step_of_zero (read : machine.code.get? machine.counter.toNat = some 0) :
    machine.step = machine.idled.complete none := by
  have comes : machine.upcoming? = some addNothing := by
    rw [upcoming?, read]
    rfl
  rw [step_of_upcoming comes, execute_addNothing]
  rfl

theorem Trails.step_of_next (trails : machine.Trails)
    (next : machine.counter.toNat + 1 < codeSize) :
    machine.step = (machine.idled.goneTo (machine.counter.toNat + 1), none) := by
  rw [step_of_zero (trails.zeros _ (Nat.le_refl _) trails.inside)]
  exact complete_kept none next

theorem Trails.step_of_last (trails : machine.Trails)
    (last : machine.counter.toNat + 1 = codeSize) :
    machine.step = (machine.idled, some (.badCounter 4096)) := by
  have counter : machine.idled.counter.toNat + 1 = codeSize := last
  have address : (machine.idled.counter.toNat : ℤ) + 1 = 4096 := by
    rw [codeSize] at counter
    omega
  rw [step_of_zero (trails.zeros _ (Nat.le_refl _) trails.inside), complete_eq_error_iff, address,
    counter]
  exact ⟨Nat.le_refl _, by decide, rfl, rfl⟩

theorem Trails.next (trails : machine.Trails) (next : machine.counter.toNat + 1 < codeSize) :
    (machine.idled.goneTo (machine.counter.toNat + 1)).Trails := by
  have counter := machine.idled.counter_goneTo next
  refine ⟨?_, ?_⟩
  · rw [counter]
    exact next
  · intro address behind inside
    rw [counter] at behind
    exact trails.zeros address (Nat.le_of_succ_le behind) inside

/-! ## All of them -/

def passed (machine : Machine) (k : Nat) : Machine :=
  { machine.idled with
    counter := UInt16.ofNat (machine.counter.toNat + k)
    completed := machine.completed + k }

/-- Behind some steps a machine is still on its way, and what it has done does not add up. -/
theorem Trails.iterate (trails : machine.Trails) (inside : machine.counter.toNat + k < codeSize) :
    let stepped := (fun machine => machine.step.1)^[k] machine
    stepped.Trails ∧ stepped.counter.toNat = machine.counter.toNat + k ∧
      stepped.idled = machine.passed k := by
  induction k with
  | zero =>
    have start : UInt16.ofNat (machine.counter.toNat + 0) = machine.counter :=
      UInt16.ofNat_toNat
    refine ⟨trails, rfl, ?_⟩
    rw [passed, start]
    rfl
  | succ k ih =>
    obtain ⟨trails', counter, idled'⟩ := ih (Nat.lt_of_succ_lt inside)
    have next := inside
    rw [← Nat.add_assoc, ← counter] at next
    dsimp only
    rw [Function.iterate_succ_apply', trails'.step_of_next next]
    refine ⟨trails'.next next, ?_, ?_⟩
    · rw [counter_goneTo _ next, counter, Nat.add_assoc]
    · rw [idled', counter]
      rfl

end Machine

namespace Session

/-- Whether a session has come to the zero words at the end of the memory, and nothing that pauses
a run is ahead of it: no breakpoint on a line that is listed there, and no latch that counts. -/
structure Trails (session : Session) : Prop where
  machine : session.machine.Trails
  passes : ∀ address : UInt16, session.machine.counter < address → address.toNat < codeSize →
    (session.image.listing.lineAt? address).any session.breakpoints.contains = false
  awake : ¬ (session.policy.stopOnWait = true ∧ session.machine.flags.wait = true)
  attentive : ¬ (session.policy.stopOnStby = true ∧ session.machine.flags.stby = true)

variable {session : Session} {j k : Nat}

theorem Trails.ready (trails : session.Trails) : session.ready.Trails :=
  ⟨trails.machine.inside, trails.machine.zeros⟩

def further (session : Session) : Machine :=
  session.ready.idled.goneTo (session.machine.counter.toNat + 1)

theorem counter_further (next : session.machine.counter.toNat + 1 < codeSize) :
    session.further.counter.toNat = session.machine.counter.toNat + 1 :=
  session.ready.idled.counter_goneTo next

theorem lt_counter_further (next : session.machine.counter.toNat + 1 < codeSize) :
    session.machine.counter < session.further.counter := by
  rw [UInt16.lt_iff_toNat_lt, counter_further next]
  exact Nat.lt_succ_self _

theorem Trails.step_of_next (trails : session.Trails) (running : session.state ≠ .halted)
    (next : session.machine.counter.toNat + 1 < codeSize) :
    session.step =
      { session with
        machine := session.further
        previousCounter := session.machine.counter
        state := .idle
        steps := session.steps + 1 } := by
  have outcome : session.outcome = (session.further, none) := trails.ready.step_of_next next
  have passes := trails.passes session.further.counter (lt_counter_further next)
    (by rw [counter_further next]; exact next)
  have idle : session.stateAfter session.outcome = .idle := by
    have unmet : ¬ Machine.Outcome.isFatal (session.further, none) = true := Bool.false_ne_true
    rw [outcome, stateAfter, if_neg unmet, atBreakpoint, currentLine?]
    exact if_neg (by simpa using passes)
  rw [step_eq running, idle, outcome]
  rfl

theorem Trails.step (trails : session.Trails) (running : session.state ≠ .halted)
    (next : session.machine.counter.toNat + 1 < codeSize) :
    session.step.Trails := by
  rw [trails.step_of_next running next]
  refine ⟨trails.ready.next next, ?_, trails.awake, trails.attentive⟩
  intro address behind inside
  exact trails.passes address (UInt16.lt_trans (lt_counter_further next) behind) inside

theorem Trails.step_of_last (trails : session.Trails) (running : session.state ≠ .halted)
    (last : session.machine.counter.toNat + 1 = codeSize) :
    session.step.state = .halted ∧
      session.step.exception = some (.machine (.badCounter 4096)) := by
  have outcome : session.outcome = (session.ready.idled, some (.badCounter 4096)) :=
    trails.ready.step_of_last last
  rw [step_eq running, outcome]
  exact ⟨rfl, rfl⟩

theorem Trails.iterate (trails : session.Trails) (running : session.state ≠ .halted)
    (inside : session.machine.counter.toNat + k < codeSize) :
    let stepped := Session.step^[k] session
    stepped.Trails ∧ stepped.machine.counter.toNat = session.machine.counter.toNat + k ∧
      stepped.state ≠ .halted ∧ (1 ≤ k → stepped.state = .idle) := by
  induction k with
  | zero => exact ⟨trails, rfl, running, fun none => absurd none (by decide)⟩
  | succ k ih =>
    obtain ⟨trails', counter, running', -⟩ := ih (Nat.lt_of_succ_lt inside)
    have next := inside
    rw [← Nat.add_assoc, ← counter] at next
    have stepped := trails'.step_of_next running' next
    have idle : (Session.step^[k] session).step.state = .idle := by rw [stepped]
    dsimp only
    rw [Function.iterate_succ_apply']
    refine ⟨trails'.step running' next, ?_, ?_, fun _ => idle⟩
    · rw [stepped]
      show (Session.step^[k] session).further.counter.toNat = _
      rw [counter_further next, counter, Nat.add_assoc]
    · rw [idle]
      decide

theorem Trails.not_restsAfter (trails : session.Trails) (running : session.state ≠ .halted)
    (inside : session.machine.counter.toNat + k < codeSize) : ¬ session.RestsAfter k := by
  obtain ⟨trails', -, running', idle⟩ := trails.iterate running inside
  have policy : (Session.step^[k] session).policy = session.policy :=
    kept_iterate policy_step session k
  rintro (halted | ⟨later, paused | waits | sleeps⟩)
  · exact running' halted
  · exact paused (idle later)
  · exact trails'.awake (policy ▸ waits)
  · exact trails'.attentive (policy ▸ sleeps)

/-- A session that steps on from word to word comes to rest behind the last one, where it halts. -/
theorem Trails.isLeast (trails : session.Trails) (running : session.state ≠ .halted)
    (last : session.machine.counter.toNat + k = codeSize) :
    IsLeast {k | session.RestsAfter k} k ∧
      (Session.step^[k] session).state = .halted ∧
      (Session.step^[k] session).exception = some (.machine (.badCounter 4096)) := by
  have inside := trails.machine.inside
  obtain ⟨rest, rfl⟩ : ∃ rest, k = rest + 1 := ⟨k - 1, by omega⟩
  obtain ⟨trails', counter, running', -⟩ := trails.iterate running (k := rest) (by omega)
  have stops := trails'.step_of_last running' (by omega)
  rw [← Function.iterate_succ_apply' Session.step] at stops
  refine ⟨⟨.inl stops.1, ?_⟩, stops⟩
  intro i rests
  by_contra early
  exact trails.not_restsAfter running (by omega) rests

/-! ## Runs that come to zero words -/

/-- Behind its first steps a session rests where a run rests that goes on from there. -/
theorem restsAfter_add (later : 1 ≤ k) :
    session.RestsAfter (j + k) ↔ (Session.step^[j] session).RestsAfter k := by
  have policy : (Session.step^[j] session).policy = session.policy :=
    kept_iterate policy_step session j
  have later' : 1 ≤ k + j := Nat.le_add_right_of_le later
  simp only [RestsAfter, Nat.add_comm j k, Function.iterate_add_apply, policy, later, later',
    true_and]

theorem isLeast_restsAfter_add (restless : ∀ i ≤ j, ¬ session.RestsAfter i) (later : 1 ≤ k)
    (least : IsLeast {k | (Session.step^[j] session).RestsAfter k} k) :
    IsLeast {k | session.RestsAfter k} (j + k) := by
  refine ⟨(restsAfter_add later).mpr least.1, ?_⟩
  intro i rests
  rcases Nat.lt_or_ge j i with behind | before
  · obtain ⟨m, rfl⟩ := Nat.exists_eq_add_of_lt behind
    have rests' := (restsAfter_add (Nat.succ_pos m)).mp rests
    exact Nat.add_le_add_left (least.2 rests') j
  · exact absurd rests (restless i before)

theorem ends_of_isLeast (least : IsLeast {k | session.RestsAfter k} k) :
    (∀ other, Loops untripped () session other ↔ other = Session.step^[k] session) ∧
      ((Session.step^[k] session).steps < UInt64.size →
        session.run = Session.step^[k] session) := by
  have ends : IsLeast {k | Ends (fun _ => true) session k} k := by
    simpa only [restsAfter_iff] using least
  refine ⟨?_, ?_⟩
  · intro other
    constructor
    · intro loops
      obtain ⟨k', ends', rfl⟩ := loops_iff.mp loops
      rw [ends'.unique ends]
    · rintro rfl
      exact loops_iff.mpr ⟨k, ends, rfl⟩
  · intro countable
    refine runWhile_eq ⟨.inl ends.1, ?_⟩
    rintro i (earlier | rfl)
    · exact ends.2 earlier
    · exact le_size_of_isLeast least countable

end Session

/-- Zero words up to the end of the memory come to an end there. A machine steps over them to the
last one, whose step fails; it has then changed nothing but its two counters, its latest
instruction, CARRY and ZERO. A run that has come to them and finds no breakpoint and no latch in its
way halts with that fault. -/
theorem zero_words_halt :
    (∀ machine : Machine, machine.Trails →
      let rest := 4095 - machine.counter.toNat
      let behind := fun k => (fun machine : Machine => machine.step.1)^[k] machine
      (∀ k < rest, (behind k).step.2 = none) ∧
      (behind rest).step.2 = some (.badCounter 4096) ∧
      behind (rest + 1) =
        { machine with
          counter := 4095
          completed := machine.completed + rest
          flags :=
            { machine.flags with carry := false, zero := decide (machine.register Reg.r0 = 0) }
          lastInstruction := some Machine.addNothing }) ∧
    (∀ (session : Session) (j : Nat), (∀ i ≤ j, ¬ session.RestsAfter i) →
      (Session.step^[j] session).Trails →
      let rest := 4095 - (Session.step^[j] session).machine.counter.toNat
      let final := Session.step^[j + (rest + 1)] session
      (∀ other, Session.Loops Session.untripped () session other ↔ other = final) ∧
      (final.steps < UInt64.size → session.run = final) ∧
      final.state = .halted ∧ final.exception = some (.machine (.badCounter 4096))) := by
  refine ⟨?_, ?_⟩
  · intro machine trails rest behind
    have inside := trails.inside
    rw [codeSize] at inside
    have onTheWay {k : Nat} (early : k ≤ rest) :
        (behind k).Trails ∧ (behind k).counter.toNat = machine.counter.toNat + k ∧
          (behind k).idled = machine.passed k :=
      trails.iterate (by rw [codeSize]; omega)
    obtain ⟨trails', counter, idled⟩ := onTheWay (Nat.le_refl rest)
    have last : machine.counter.toNat + rest = 4095 := by omega
    have stops := trails'.step_of_last (by rw [counter, last]; rfl)
    refine ⟨?_, ?_, ?_⟩
    · intro k early
      obtain ⟨trails', counter, -⟩ := onTheWay (Nat.le_of_lt early)
      rw [trails'.step_of_next (by rw [counter, codeSize]; omega)]
    · rw [stops]
    · have next : behind (rest + 1) = (behind rest).step.1 := Function.iterate_succ_apply' _ _ _
      rw [next, stops, idled, Machine.passed, last]
      rfl
  · intro session j restless trails rest final
    have running := Session.running_of_not_restsAfter (restless j (Nat.le_refl j))
    have inside := trails.machine.inside
    rw [codeSize] at inside
    have last : (Session.step^[j] session).machine.counter.toNat + (rest + 1) = codeSize := by
      rw [codeSize]
      omega
    obtain ⟨least, stops⟩ := trails.isLeast running last
    rw [← Function.iterate_add_apply, Nat.add_comm _ j] at stops
    obtain ⟨loops, runs⟩ :=
      Session.ends_of_isLeast (Session.isLeast_restsAfter_add restless (Nat.succ_pos rest) least)
    exact ⟨loops, runs, stops⟩

def leaving : Session :=
  Session.setup {} "jmp 4094\n"

theorem zero_words_halt_leaving :
    leaving.step.Trails ∧
    leaving.step.machine.step.2 = none ∧
    leaving.step.machine.step.1.step.2 = some (.badCounter 4096) ∧
    leaving.step.machine.step.1.step.1.counter = 4095 ∧
    leaving.run = Session.step^[3] leaving ∧
    leaving.run.exception = some (.machine (.badCounter 4096)) := by
  obtain ⟨machines, sessions⟩ := zero_words_halt
  have left : leaving.step.machine.counter.toNat = 4094 ∧
      leaving.step.machine.code.get? 4094 = some 0 ∧
      leaving.step.machine.code.get? 4095 = some 0 ∧
      leaving.step.machine.flags = {} ∧ leaving.step.breakpoints = .empty ∧
      (∀ i ≤ 1, ¬ leaving.RestsAfter i) ∧
      (Session.step^[3] leaving).steps < UInt64.size := by decide +kernel
  obtain ⟨counter, zero, zero', flags, free, restless, countable⟩ := left
  have trails : leaving.step.Trails := by
    refine ⟨⟨by rw [counter]; decide, ?_⟩, ?_, by simp [flags], by simp [flags]⟩
    · intro address behind inside
      rw [counter] at behind
      rw [codeSize] at inside
      obtain rfl | rfl : address = 4094 ∨ address = 4095 := by omega
      · exact zero
      · exact zero'
    · intro address behind inside
      rw [free]
      cases leaving.step.image.listing.lineAt? address with
      | none => rfl
      | some line => rfl
  obtain ⟨goes, stops, behind⟩ := machines leaving.step.machine trails.machine
  obtain ⟨-, runs, -, told⟩ := sessions leaving 1 restless trails
  have rest : 4095 - leaving.step.machine.counter.toNat = 1 := by rw [counter]
  have reached : Session.step^[1] leaving = leaving.step := rfl
  rw [rest] at goes stops behind
  rw [reached, rest] at runs told
  have ran : leaving.run = Session.step^[3] leaving := runs countable
  refine ⟨trails, goes 0 (by decide), stops, ?_, ran, ?_⟩
  · exact congrArg Machine.counter behind
  · rw [ran]
    exact told

end Gumnut
