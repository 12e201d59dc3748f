import Gumnut.Proofs.FaultEffects
import Gumnut.Proofs.Observation
import Gumnut.Proofs.Requests

/-!
# What a step may change

Every instruction has its own frame: the parts of the machine that it may change, and those that it
cannot. A step stays within the frame of its instruction, whether it goes on or ends with a fault.
The latches WAIT and STBY are in no frame that clears them, so they stay set until the machine is
replaced by a new one.
-/
set_option autoImplicit false

namespace Gumnut

namespace Instruction

def computes : Instruction → Bool
  | alu .. | shift .. => true
  | memory .. | branch .. | jump .. | control _ | undefined _ => false

/-- Whether a byte goes into the register that the instruction names first. -/
def delivers : Instruction → Bool
  | alu .. | shift .. => true
  | memory op .. => op.loads
  | branch .. | jump .. | control _ | undefined _ => false

end Instruction

namespace Machine

/-- One machine is behind another by the changes that an instruction may make. Each part has its
own rule; the counter is told apart. -/
structure Framed (before after : Machine) (instruction : Instruction) : Prop where
  code : after.code = before.code
  interruptPending : after.interruptPending = before.interruptPending
  data : after.data = before.data ∨ ∃ rd base offset address value,
    instruction = .memory .stm rd base offset ∧ after.data = before.data.write address value
  io : after.io = before.io ∨ ∃ rd base offset address value,
    instruction = .memory .out rd base offset ∧ after.io = before.io.write address value
  register (r : Reg) : after.register r = before.register r ∨
    (instruction.delivers = true ∧ instruction.destination? = some r)
  carry : after.flags.carry = before.flags.carry ∨ instruction.computes = true
  zero : after.flags.zero = before.flags.zero ∨ instruction.computes = true
  wait : after.flags.wait = true ↔ before.flags.wait = true ∨ instruction = .control .wait
  stby : after.flags.stby = true ↔ before.flags.stby = true ∨ instruction = .control .stby
  iren : after.flags.iren = before.flags.iren ∨
    (after.flags.iren = true ∧ (instruction = .control .enai ∨ instruction = .control .reti)) ∨
    (after.flags.iren = false ∧ instruction = .control .disi)
  /-- A call adds its own address on top of those in use, and a return takes the top one away. -/
  returns : after.returns = before.returns ∨
    (∃ target, instruction = .jump .jsb target ∧
      after.returns.toList = before.returns.toList ++ [before.counter]) ∨
    (instruction.IsReturn ∧ ∃ address,
      before.returns.toList = after.returns.toList ++ [address])

inductive Departs (machine : Machine) : Instruction → Prop where
  | branch {cond : Condition} {displacement : UInt8}
      (taken : holds machine.flags cond = true) : machine.Departs (.branch cond displacement)
  | jump (op : JumpOp) (target : UInt16) : machine.Departs (.jump op target)
  | back {instruction : Instruction} (returns : instruction.IsReturn) :
      machine.Departs instruction

structure Latched (before after : Machine) : Prop where
  wait : before.flags.wait = true → after.flags.wait = true
  stby : before.flags.stby = true → after.flags.stby = true

variable {machine before after : Machine} {instruction : Instruction}

/-! ## Instructions -/

theorem framed_of_flow {returns : ReturnStack} (counter : UInt16)
    (awake : instruction ≠ .control .wait) (running : instruction ≠ .control .stby)
    (stack : returns = machine.returns ∨
      (∃ target, instruction = .jump .jsb target ∧
        returns.toList = machine.returns.toList ++ [machine.counter]) ∨
      (instruction.IsReturn ∧ ∃ address, machine.returns.toList = returns.toList ++ [address])) :
    machine.Framed { machine with counter, returns } instruction where
  code := rfl
  interruptPending := rfl
  data := .inl rfl
  io := .inl rfl
  register r := .inl rfl
  carry := .inl rfl
  zero := .inl rfl
  wait := by simp [awake]
  stby := by simp [running]
  iren := .inl rfl
  returns := stack

theorem framed_refl (machine : Machine) (awake : instruction ≠ .control .wait)
    (running : instruction ≠ .control .stby) : machine.Framed machine instruction :=
  framed_of_flow machine.counter awake running (.inl rfl)

theorem framed_aim (target : Int) (awake : instruction ≠ .control .wait)
    (running : instruction ≠ .control .stby) :
    machine.Framed (machine.aim target).1 instruction := by
  unfold aim
  split
  · exact framed_of_flow _ awake running (.inl rfl)
  · exact machine.framed_refl awake running

theorem framed_setResult {rd : Reg} (result : ByteResult) (computes : instruction.computes = true)
    (delivers : instruction.delivers = true) (destination : instruction.destination? = some rd) :
    machine.Framed (machine.setResult rd result) instruction := by
  have calm : ∀ op, instruction ≠ .control op := by
    rintro op rfl
    cases computes
  refine { machine.framed_refl (calm .wait) (calm .stby) with
    register := fun r => ?_
    carry := .inr computes
    zero := .inr computes }
  have written := machine.register_setRegister rd r result.value
  by_cases same : rd = r
  · subst same
    exact .inr ⟨delivers, destination⟩
  · rw [if_neg same] at written
    exact .inl written

theorem framed_transfer (op : MemoryOp) (rd : Reg) (base : Option Reg) (offset address : UInt8) :
    machine.Framed (machine.transfer op rd address) (.memory op rd base offset) := by
  have kept : machine.Framed machine (.memory op rd base offset) :=
    machine.framed_refl nofun nofun
  have loaded (r : Reg) : (machine.transfer op rd address).register r = machine.register r ∨
      ((Instruction.memory op rd base offset).delivers = true ∧
        (Instruction.memory op rd base offset).destination? = some r) := by
    rw [register_transfer]
    split
    · rename_i received
      exact .inr ⟨received.1, congrArg some received.2.symm⟩
    · exact .inl rfl
  cases op with
  | ldm | inp => exact { kept with register := loaded }
  | stm =>
    exact { kept with data := .inr ⟨rd, base, offset, address, machine.register rd, rfl, rfl⟩ }
  | out =>
    exact { kept with io := .inr ⟨rd, base, offset, address, machine.register rd, rfl, rfl⟩ }

theorem framed_call (target : UInt16) :
    machine.Framed (machine.call target).1 (.jump .jsb target) := by
  rw [call_eq]
  cases pushed : machine.returns.push machine.counter with
  | error fault => exact framed_of_flow _ nofun nofun (.inl rfl)
  | ok returns =>
    have grown := ReturnStack.toList_push pushed
    exact framed_of_flow _ nofun nofun (.inr (.inl ⟨target, rfl, grown⟩))

theorem framed_return (back : instruction.IsReturn) :
    machine.Framed machine.goBack.1 instruction := by
  have awake : instruction ≠ .control .wait := by
    rintro rfl
    exact back.elim nofun nofun
  have running : instruction ≠ .control .stby := by
    rintro rfl
    exact back.elim nofun nofun
  rw [goBack]
  cases popped : machine.returns.pop with
  | error fault => exact machine.framed_refl awake running
  | ok top =>
    have shrunk := ReturnStack.toList_pop popped
    exact framed_of_flow _ awake running (.inr (.inr ⟨back, top.1, shrunk⟩))

theorem framed_control (op : ControlOp) :
    machine.Framed (machine.control op).1 (.control op) := by
  have kept (calm : op ≠ .wait) (running : op ≠ .stby) : machine.Framed machine (.control op) :=
    machine.framed_refl (by simpa using calm) (by simpa using running)
  cases op with
  | ret => exact framed_return (.inl rfl)
  | reti =>
    have back : machine.Framed machine.goBack.1 (.control .reti) := framed_return (.inr rfl)
    rw [control]
    generalize machine.goBack = outcome at back ⊢
    obtain ⟨returned, met⟩ := outcome
    cases met with
    | some fault => exact back
    | none => exact { back with iren := .inr (.inl ⟨rfl, .inr rfl⟩) }
  | enai => exact { kept (by decide) (by decide) with iren := .inr (.inl ⟨rfl, .inl rfl⟩) }
  | disi => exact { kept (by decide) (by decide) with iren := .inr (.inr ⟨rfl, rfl⟩) }
  | wait | stby => constructor <;> simp [control, register]

/-- An instruction stays within its frame, also one that is refused. -/
theorem framed_execute (machine : Machine) (instruction : Instruction) :
    machine.Framed (machine.execute instruction).1 instruction := by
  cases instruction with
  | alu op rd rs source => exact framed_setResult _ rfl rfl rfl
  | shift op rd rs count => exact framed_setResult _ rfl rfl rfl
  | memory op rd base offset =>
    rw [execute]
    cases machine.operandAddress base offset with
    | error fault => exact machine.framed_refl (by simp) (by simp)
    | ok address => exact framed_transfer op rd base offset address
  | branch cond displacement =>
    rw [execute]
    split
    · exact framed_aim _ (by simp) (by simp)
    · exact machine.framed_refl (by simp) (by simp)
  | jump op target =>
    cases op with
    | jmp => exact framed_aim _ (by simp) (by simp)
    | jsb => exact framed_call target
  | control op => exact framed_control op
  | undefined word => exact machine.framed_refl (by simp) (by simp)

/-- Unless it departs, an instruction leaves the counter where it is. -/
theorem counter_execute (stays : ¬ machine.Departs instruction) :
    (machine.execute instruction).1.counter = machine.counter := by
  cases instruction with
  | alu | shift | undefined => rfl
  | memory op rd base offset =>
    rw [execute]
    cases machine.operandAddress base offset with
    | error fault => rfl
    | ok address => cases op <;> rfl
  | branch cond displacement =>
    rw [execute, if_neg fun taken => stays (.branch taken)]
  | jump op target => exact absurd (.jump op target) stays
  | control op =>
    cases op with
    | ret => exact absurd (.back (.inl rfl)) stays
    | reti => exact absurd (.back (.inr rfl)) stays
    | enai | disi | wait | stby => rfl

/-! ## Steps -/

theorem Framed.moved (framed : before.Framed after instruction) (counter : UInt16)
    (completed : Nat) (latest : Option Instruction) :
    before.Framed { after with counter, completed, lastInstruction := latest } instruction :=
  { framed with }

theorem Framed.of_decoded {latest : Instruction}
    (framed : (machine.decoded latest).Framed after instruction) :
    machine.Framed after instruction :=
  { framed with }

theorem exists_finish_eq (executed : Machine) (met : Option Fault) :
    ∃ counter completed, (finish (executed, met)).1 = { executed with counter, completed } := by
  rw [finish_eq]
  split
  · exact ⟨_, _, rfl⟩
  · rw [complete_eq]
    split
    · exact ⟨_, _, rfl⟩
    · exact ⟨_, _, rfl⟩

theorem framed_step (comes : machine.upcoming? = some instruction) :
    machine.Framed machine.step.1 instruction := by
  rw [step_of_upcoming comes]
  have executes := framed_execute (machine.decoded instruction) instruction
  generalize (machine.decoded instruction).execute instruction = outcome at executes ⊢
  obtain ⟨executed, met⟩ := outcome
  obtain ⟨counter, completed, moved⟩ := exists_finish_eq executed met
  rw [moved]
  exact (executes.moved counter completed executed.lastInstruction).of_decoded

theorem counter_finish {executed : Machine} {met : Option Fault}
    (ok : (finish (executed, met)).2 = none) :
    (finish (executed, met)).1.counter = executed.counter + 1 := by
  rw [finish_eq] at ok ⊢
  split at ok
  · rename_i fatal
    obtain rfl : met = none := ok
    cases fatal
  · rename_i harmless
    rw [complete_eq] at ok
    rw [if_neg harmless, complete_eq]
    split at ok
    · cases ok
    · rename_i inside
      rw [if_neg inside]
      exact UInt16.ofNat_toNat

theorem counter_lt_of_upcoming (comes : machine.upcoming? = some instruction) :
    machine.counter.toNat < codeSize := by
  obtain ⟨word, read, -⟩ := Option.map_eq_some_iff.mp comes
  exact (Vector.getElem?_eq_some_iff.mp read).1

/-- A step without a fault goes on behind its instruction, unless that departs. -/
theorem counter_step (comes : machine.upcoming? = some instruction) (ok : machine.step.2 = none)
    (stays : ¬ machine.Departs instruction) :
    machine.step.1.counter.toNat = machine.counter.toNat + 1 := by
  have kept : ((machine.decoded instruction).execute instruction).1.counter = machine.counter := by
    rw [execute_decoded]
    exact counter_execute stays
  rw [step_of_upcoming comes] at ok ⊢
  generalize (machine.decoded instruction).execute instruction = outcome at kept ok ⊢
  obtain ⟨executed, met⟩ := outcome
  rw [counter_finish ok, kept]
  exact toNat_next (counter_lt_of_upcoming comes)

/-! ## Latches -/

namespace Latched

theorem of_eq (same : after.flags = before.flags) : before.Latched after := by
  constructor
  · exact fun set => same ▸ set
  · exact fun set => same ▸ set

theorem refl (machine : Machine) : machine.Latched machine := of_eq rfl

theorem trans {first second third : Machine} (latched : first.Latched second)
    (latched' : second.Latched third) : first.Latched third where
  wait := latched'.wait ∘ latched.wait
  stby := latched'.stby ∘ latched.stby

end Latched

theorem Framed.latched (framed : before.Framed after instruction) : before.Latched after where
  wait set := framed.wait.mpr (.inl set)
  stby set := framed.stby.mpr (.inl set)

theorem latched_step (machine : Machine) : machine.Latched machine.step.1 := by
  cases comes : machine.upcoming? with
  | none =>
    rw [step_of_upcoming_eq_none comes]
    exact .refl machine
  | some instruction => exact (framed_step comes).latched

theorem latched_iterate (machine : Machine) (n : Nat) :
    machine.Latched ((fun machine => machine.step.1)^[n] machine) := by
  induction n with
  | zero => exact .refl machine
  | succ n ih =>
    rw [Function.iterate_succ_apply']
    exact ih.trans (latched_step _)

end Machine

namespace Session

def Action.Replaces : Action → Prop
  | setup _ | load _ | reset => True
  | step | toggleBreakpoint _ | raiseInterrupt | setIo _ _ | setPolicy _ | takeException
  | status => False

variable {session : Session}

theorem latched_step (session : Session) : session.machine.Latched session.step.machine := by
  by_cases halted : session.state = .halted
  · rw [step_of_halted halted]
    exact .refl session.machine
  · rw [machine_step halted]
    have started : session.machine.Latched session.ready := .of_eq rfl
    exact started.trans session.ready.latched_step

theorem latched_act {action : Action} (keeps : ¬ action.Replaces) :
    session.machine.Latched (session.act action).machine := by
  cases action with
  | setup | load | reset => exact absurd trivial keeps
  | step => exact session.latched_step
  | toggleBreakpoint | raiseInterrupt | setIo | setPolicy | takeException | status =>
    exact .of_eq rfl

theorem latched_actAll {actions : List Action} (keep : ∀ action ∈ actions, ¬ action.Replaces) :
    session.machine.Latched (session.actAll actions).machine := by
  induction actions generalizing session with
  | nil => exact .refl session.machine
  | cons action rest ih =>
    rw [List.forall_mem_cons] at keep
    obtain ⟨own, later⟩ := keep
    exact (latched_act own).trans (ih later)

end Session

namespace Machine

open Session (Request)

/-- A step changes nothing but what the frame of its instruction lets it change, and without a
fault it goes on behind an instruction that does not depart. So a latch that is set stays set, step
after step, and in a session whatever is asked of it, until another machine takes the place of this
one. -/
theorem steps_stay_within_frames :
    (∀ machine : Machine, machine.upcoming? = none → machine.step.1 = machine) ∧
    (∀ (machine : Machine) (instruction : Instruction), machine.upcoming? = some instruction →
      machine.Framed machine.step.1 instruction ∧
      (machine.step.2 = none → ¬ machine.Departs instruction →
        machine.step.1.counter.toNat = machine.counter.toNat + 1)) ∧
    (∀ (machine : Machine) (n : Nat),
      machine.Latched ((fun machine => machine.step.1)^[n] machine)) ∧
    (∀ (session : Session) (requests : List Request),
      (∀ action ∈ Request.allActions session requests, ¬ action.Replaces) →
      session.machine.Latched (session.serveAll requests).machine) := by
  refine ⟨?_, ?_, latched_iterate, ?_⟩
  · intro machine absent
    rw [step_of_upcoming_eq_none absent]
  · intro machine instruction comes
    exact ⟨framed_step comes, counter_step comes⟩
  · intro session requests keep
    rw [Session.serveAll_eq_actAll]
    exact Session.latched_actAll keep

def waiting : Session :=
  Session.setup {} "wait\nsub r1, r0, 1\nstm r1, 16\n"

theorem steps_stay_within_frames_waiting :
    waiting.machine.upcoming? = some (.control .wait) ∧
      waiting.machine.step.1.flags.wait = true ∧
      waiting.machine.step.1.counter.toNat = 1 ∧
      waiting.machine.step.1.data = waiting.machine.data ∧
      (waiting.step.serveAll [.runFor 2]).machine.flags.wait = true := by
  obtain ⟨-, frames, -, latches⟩ := steps_stay_within_frames
  have comes : waiting.machine.upcoming? = some (.control .wait) := by decide +kernel
  have start : waiting.machine.counter.toNat = 0 := by decide +kernel
  obtain ⟨framed, goesOn⟩ := frames waiting.machine (.control .wait) comes
  have stays : ¬ waiting.machine.Departs (.control .wait) := by
    intro departs
    cases departs with
    | back returns => exact returns.elim nofun nofun
  have next := goesOn (by decide +kernel) stays
  have kept : waiting.machine.step.1.data = waiting.machine.data := by
    rcases framed.data with same | ⟨_, _, _, _, _, stores, -⟩
    · exact same
    · cases stores
  have runs : (Request.runFor 2).IsRun := trivial
  obtain ⟨n, steps, -⟩ := Session.steps_of_onlyLooks runs trivial waiting.step
  have latched := latches waiting.step [.runFor 2] (by
    rw [Request.allActions, Request.allActions, steps, List.append_nil]
    intro action member
    rw [List.eq_of_mem_replicate member]
    exact id)
  refine ⟨comes, framed.wait.mpr (.inr rfl), ?_, kept, latched.wait (by decide +kernel)⟩
  rw [next, start]

end Machine

end Gumnut
