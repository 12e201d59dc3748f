import Gumnut.Proofs.SessionSteps
import Gumnut.Proofs.Transfers

/-!
# What the record of accesses tells

A step transfers one byte or none. The record of accesses behind it tells of that byte and of
nothing else: that it has been read, or written, and that it is another than before. Which byte of
the data memory has been transferred last is told however the record has been emptied in between.
-/
set_option autoImplicit false

namespace Gumnut

namespace Space

def loadOp : Space → MemoryOp
  | data => .ldm
  | io => .inp

def storeOp : Space → MemoryOp
  | data => .stm
  | io => .out

end Space

theorem AccessSet.empty_union (set : AccessSet) : ({} : AccessSet).union set = set := by
  simp [union]

namespace MemoryOp

theorem eq_loadOp_iff {op : MemoryOp} {space : Space} :
    op = space.loadOp ↔ op.space = space ∧ op.loads = true := by
  cases op <;> cases space <;> simp [Space.loadOp, MemoryOp.space, loads]

theorem eq_storeOp_iff {op : MemoryOp} {space : Space} :
    op = space.storeOp ↔ op.space = space ∧ op.loads = false := by
  cases op <;> cases space <;> simp [Space.storeOp, MemoryOp.space, loads]

end MemoryOp

namespace Session

/-- The next step of a session executes a memory instruction at an address. It does so even if the
address behind the instruction is outside the memory and the step ends with a fault. -/
def Executes (session : Session) (op : MemoryOp) (address : UInt8) : Prop :=
  ∃ rd base offset, session.upcoming? = some (.memory op rd base offset) ∧
    session.machine.effectiveAddress base offset = address.toNat

def transfer? (session : Session) : Option (MemoryOp × Reg × UInt8) :=
  match session.upcoming? with
  | some (.memory op rd base offset) =>
    match session.machine.operandAddress base offset with
    | .ok address => some (op, rd, address)
    | .error _ => none
  | _ => none

end Session

namespace Machine

variable {machine : Machine} {instruction : Instruction}

theorem operandAddress_eq_ok_iff {base : Option Reg} {offset address : UInt8} :
    machine.operandAddress base offset = .ok address ↔
      machine.effectiveAddress base offset = address.toNat := by
  have bound := address.toNat_lt
  have size : (dataSize : Int) = 256 := rfl
  rw [operandAddress_eq, byteAddress]
  split
  · rename_i inside
    have small : (machine.effectiveAddress base offset).toNat < UInt8.size := by
      simp only [UInt8.size]
      omega
    rw [Except.ok.injEq, ← UInt8.toNat_inj, UInt8.toNat_ofNat_of_lt' small]
    omega
  · simp only [reduceCtorEq, false_iff]
    omega

structure Untouched (before after : Machine) : Prop where
  memory : ∀ space, after.memory space = before.memory space
  accesses : after.accesses = before.accesses

namespace Untouched

theorem of_eq {before after : Machine} (data : after.data = before.data)
    (io : after.io = before.io) (accesses : after.accesses = before.accesses) :
    before.Untouched after := by
  refine ⟨?_, accesses⟩
  intro space
  cases space with
  | data => exact data
  | io => exact io

theorem refl (machine : Machine) : machine.Untouched machine := of_eq rfl rfl rfl

theorem trans {first second third : Machine} (untouched : first.Untouched second)
    (untouched' : second.Untouched third) : first.Untouched third where
  memory space := (untouched'.memory space).trans (untouched.memory space)
  accesses := untouched'.accesses.trans untouched.accesses

end Untouched

theorem untouched_aim (machine : Machine) (target : Int) :
    machine.Untouched (machine.aim target).1 := by
  unfold aim
  split <;> exact .of_eq rfl rfl rfl

theorem untouched_call (machine : Machine) (target : UInt16) :
    machine.Untouched (machine.call target).1 := by
  rw [call_eq]
  cases machine.returns.push machine.counter <;> exact .of_eq rfl rfl rfl

theorem untouched_control (machine : Machine) (op : ControlOp) :
    machine.Untouched (machine.control op).1 := by
  cases op with
  | enai | disi | wait | stby => exact .of_eq rfl rfl rfl
  | ret | reti =>
    rw [control, goBack]
    cases machine.returns.pop <;> exact .of_eq rfl rfl rfl

/-- Only a memory instruction at a byte's address touches the bytes and their record. -/
theorem untouched_execute
    (idle : ∀ op rd base offset address, instruction = .memory op rd base offset →
      machine.operandAddress base offset ≠ .ok address) :
    machine.Untouched (machine.execute instruction).1 := by
  cases instruction with
  | memory op rd base offset =>
    cases checked : machine.operandAddress base offset with
    | ok address => exact absurd checked (idle op rd base offset address rfl)
    | error fault =>
      rw [execute, checked]
      exact .refl machine
  | alu | shift | undefined => exact .of_eq rfl rfl rfl
  | branch cond displacement =>
    rw [execute]
    split
    · exact machine.untouched_aim _
    · exact .refl machine
  | jump op target =>
    cases op with
    | jmp => exact machine.untouched_aim _
    | jsb => exact machine.untouched_call target
  | control op => exact machine.untouched_control op

theorem untouched_complete (machine : Machine) (met : Option Fault) :
    machine.Untouched (machine.complete met).1 := by
  rw [complete_eq]
  split <;> exact .of_eq rfl rfl rfl

theorem untouched_finish (executed : Machine) (met : Option Fault) :
    executed.Untouched (finish (executed, met)).1 := by
  rw [finish_eq]
  split
  · exact .refl executed
  · exact executed.untouched_complete met

end Machine

namespace Session

variable {session : Session}

theorem transfer?_eq_some_iff {op : MemoryOp} {rd : Reg} {address : UInt8} :
    session.transfer? = some (op, rd, address) ↔
      ∃ base offset, session.upcoming? = some (.memory op rd base offset) ∧
        session.machine.operandAddress base offset = .ok address := by
  constructor
  · intro made
    unfold transfer? at made
    split at made
    · rename_i base offset comes
      split at made
      · rename_i checked
        cases made
        exact ⟨base, offset, comes, checked⟩
      · cases made
    · cases made
  · rintro ⟨base, offset, comes, checked⟩
    simp only [transfer?, comes, checked]

theorem executes_iff {op : MemoryOp} {address : UInt8} :
    session.Executes op address ↔ ∃ rd, session.transfer? = some (op, rd, address) := by
  simp only [Executes, ← Machine.operandAddress_eq_ok_iff, transfer?_eq_some_iff]

theorem transfer?_of_halted (halted : session.state = .halted) : session.transfer? = none := by
  rw [transfer?, upcoming?, if_pos halted]

theorem untouched_of_transfer {op : MemoryOp} {rd : Reg} {address : UInt8}
    (made : session.transfer? = some (op, rd, address)) :
    (session.ready.transfer op rd address).Untouched session.step.machine := by
  obtain ⟨base, offset, comes, checked⟩ := transfer?_eq_some_iff.mp made
  obtain ⟨running, comes'⟩ := running_of_upcoming comes
  have executes : (session.ready.decoded (.memory op rd base offset)).execute
      (.memory op rd base offset) =
        ((session.ready.decoded (.memory op rd base offset)).transfer op rd address, none) := by
    have same : (session.ready.decoded (.memory op rd base offset)).operandAddress base offset =
        .ok address := checked
    rw [Machine.execute, same]
  have before : (session.ready.transfer op rd address).Untouched
      ((session.ready.decoded (.memory op rd base offset)).transfer op rd address) := by
    cases op <;> exact .of_eq rfl rfl rfl
  rw [machine_step running, outcome, Machine.step_of_upcoming comes', executes]
  exact before.trans (Machine.untouched_finish _ none)

theorem untouched_of_no_transfer (running : session.state ≠ .halted)
    (none : session.transfer? = none) : session.ready.Untouched session.step.machine := by
  rw [machine_step running, outcome]
  cases comes : session.ready.upcoming? with
  | none =>
    rw [Machine.step_of_upcoming_eq_none comes]
    exact .refl _
  | some instruction =>
    have comes' : session.upcoming? = some instruction := by
      rw [upcoming?, if_neg running]
      exact comes
    have noted : session.ready.Untouched (session.ready.decoded instruction) := .of_eq rfl rfl rfl
    have before : (session.ready.decoded instruction).Untouched
        ((session.ready.decoded instruction).execute instruction).1 := by
      apply Machine.untouched_execute
      rintro op rd base offset address rfl checked
      rw [transfer?_eq_some_iff.mpr ⟨base, offset, comes', checked⟩] at none
      cases none
    rw [Machine.step_of_upcoming comes]
    exact noted.trans (before.trans (Machine.untouched_finish _ _))

/-! ## The record behind a step -/

theorem accesses_of_transfer {op : MemoryOp} {rd : Reg} {address : UInt8}
    (made : session.transfer? = some (op, rd, address)) :
    session.step.machine.accesses = session.machine.accesses.clear.add ⟨op.space, address⟩
      (op.access ((session.machine.memory op.space).read address)
        (session.machine.register rd)) := by
  rw [(untouched_of_transfer made).accesses, Machine.accesses_transfer]
  rfl

theorem accesses_of_no_transfer (running : session.state ≠ .halted)
    (none : session.transfer? = none) :
    session.step.machine.accesses = session.machine.accesses.clear :=
  (untouched_of_no_transfer running none).accesses

structure Tells (session : Session) (space : Space) (address : UInt8) : Prop where
  modified : (session.step.machine.accesses.get ⟨space, address⟩).modified = true ↔
    (session.step.machine.memory space).read address ≠ (session.machine.memory space).read address
  written : (session.step.machine.accesses.get ⟨space, address⟩).written = true ↔
    session.Executes space.storeOp address
  read : (session.step.machine.accesses.get ⟨space, address⟩).read = true ↔
    session.Executes space.loadOp address
  empty : (∀ op, op.space = space → ¬ session.Executes op address) →
    session.step.machine.accesses.get ⟨space, address⟩ = {}

theorem tells_of_transfer {op : MemoryOp} {rd : Reg} {address : UInt8}
    (made : session.transfer? = some (op, rd, address)) (space : Space) (other : UInt8) :
    session.Tells space other := by
  have told : session.step.machine.accesses.get ⟨space, other⟩ =
      if space = op.space ∧ other = address then
        op.access ((session.machine.memory op.space).read address) (session.machine.register rd)
      else {} := by
    simp only [accesses_of_transfer made, AccessLog.get_add, AccessLog.get_clear, Place.mk.injEq,
      AccessSet.empty_union]
  have byte : (session.step.machine.memory space).read other =
      if op.loads = false ∧ space = op.space ∧ other = address then session.machine.register rd
      else (session.machine.memory space).read other := by
    rw [(untouched_of_transfer made).memory space]
    exact Machine.memory_transfer session.ready op rd address space other
  have executes : ∀ op', session.Executes op' other ↔ op = op' ∧ other = address := by
    intro op'
    simp [executes_iff, made, eq_comm]
  by_cases here : space = op.space ∧ other = address
  · rw [if_pos here] at told
    obtain ⟨rfl, rfl⟩ := here
    constructor
    · rw [told, byte]
      cases loads : op.loads with
      | true => simp [MemoryOp.access, loads]
      | false =>
        simp only [MemoryOp.access, loads, Bool.not_false, Bool.true_and, bne_iff_ne, and_self,
          if_true]
        exact ne_comm
    · simp [told, executes, MemoryOp.eq_storeOp_iff, MemoryOp.access]
    · simp [told, executes, MemoryOp.eq_loadOp_iff, MemoryOp.access]
    · intro idle
      exact absurd ((executes op).mpr ⟨rfl, rfl⟩) (idle op rfl)
  · have kept : ¬ (op.loads = false ∧ space = op.space ∧ other = address) := fun same => here same.2
    have elsewhere : ∀ op', op'.space = space → ¬ session.Executes op' other := by
      rintro op' rfl executed
      obtain ⟨rfl, same⟩ := (executes op').mp executed
      exact here ⟨rfl, same⟩
    rw [if_neg here] at told
    rw [if_neg kept] at byte
    constructor
    · simp [told, byte]
    · simp [told, elsewhere _ (MemoryOp.eq_storeOp_iff.mp rfl).1]
    · simp [told, elsewhere _ (MemoryOp.eq_loadOp_iff.mp rfl).1]
    · exact fun _ => told

theorem tells_of_no_transfer (running : session.state ≠ .halted) (none : session.transfer? = none)
    (space : Space) (address : UInt8) : session.Tells space address := by
  have told : session.step.machine.accesses.get ⟨space, address⟩ = {} := by
    rw [accesses_of_no_transfer running none, AccessLog.get_clear]
  have byte : session.step.machine.memory space = session.machine.memory space :=
    (untouched_of_no_transfer running none).memory space
  have idle : ∀ op, ¬ session.Executes op address := by
    simp [executes_iff, none]
  constructor
  · simp [told, byte]
  · simp [told, idle]
  · simp [told, idle]
  · exact fun _ => told

theorem tells (running : session.state ≠ .halted) (space : Space) (address : UInt8) :
    session.Tells space address := by
  cases made : session.transfer? with
  | none => exact tells_of_no_transfer running made space address
  | some transfer => exact tells_of_transfer made space address

theorem length_entries_step_le (running : session.state ≠ .halted) :
    session.step.machine.accesses.entries.length ≤ 1 := by
  cases made : session.transfer? with
  | none =>
    rw [accesses_of_no_transfer running made]
    exact Nat.zero_le _
  | some transfer =>
    rw [accesses_of_transfer made]
    exact Nat.le_refl _

/-! ## The latest access to the data memory -/

def dataTransfer? (session : Session) : Option UInt8 :=
  match session.transfer? with
  | some (op, _, address) => if op.space = .data then some address else none
  | none => none

theorem dataTransfer?_eq_some_iff (session : Session) (address : UInt8) :
    session.dataTransfer? = some address ↔
      session.Executes .ldm address ∨ session.Executes .stm address := by
  simp only [executes_iff, dataTransfer?]
  cases made : session.transfer? with
  | none => simp
  | some transfer =>
    obtain ⟨op, rd, other⟩ := transfer
    cases op with
    | ldm | stm => simp [MemoryOp.space]
    | inp | out => simp [MemoryOp.space]

theorem lastData_step (session : Session) :
    session.step.machine.accesses.lastData =
      session.dataTransfer?.or session.machine.accesses.lastData := by
  by_cases halted : session.state = .halted
  · rw [step_of_halted halted, dataTransfer?, transfer?_of_halted halted]
    rfl
  · cases made : session.transfer? with
    | none =>
      rw [accesses_of_no_transfer halted made, dataTransfer?, made]
      rfl
    | some transfer =>
      obtain ⟨op, rd, address⟩ := transfer
      rw [accesses_of_transfer made, dataTransfer?, made]
      cases op with
      | ldm | stm | inp | out => rfl

inductive Watch where
  | step
  | clear
  | take

def watch (session : Session) : Watch → Session
  | .step => session.step
  | .clear =>
    { session with
      machine := { session.machine with accesses := session.machine.accesses.clear } }
  | .take =>
    { session with
      machine := { session.machine with accesses := session.machine.accesses.take.2 } }

def watchAll (session : Session) (watches : List Watch) : Session :=
  watches.foldl watch session

/-- The addresses in the data memory that the steps have transferred bytes at, in order. -/
def dataTransfers (session : Session) : List Watch → List UInt8
  | [] => []
  | .step :: rest => session.dataTransfer?.toList ++ session.step.dataTransfers rest
  | other :: rest => (session.watch other).dataTransfers rest

theorem lastData_watchAll (session : Session) (watches : List Watch) :
    (session.watchAll watches).machine.accesses.lastData =
      (session.dataTransfers watches).getLast?.or session.machine.accesses.lastData := by
  induction watches generalizing session with
  | nil => rfl
  | cons first rest ih =>
    show ((session.watch first).watchAll rest).machine.accesses.lastData = _
    rw [ih]
    cases first with
    | clear | take => rfl
    | step =>
      show (session.step.dataTransfers rest).getLast?.or session.step.machine.accesses.lastData = _
      rw [lastData_step, dataTransfers, List.getLast?_append]
      cases session.dataTransfer? <;> cases (session.step.dataTransfers rest).getLast? <;> rfl

/-- The record of accesses is exact: behind a step it tells what the step has done to each byte, and
of one place at most, and the latest access to the data memory is that of the last transfer since
the program was loaded. -/
theorem accesses_are_exact :
    (∀ session : Session, session.state ≠ .halted →
      (∀ space address, session.Tells space address) ∧
      session.step.machine.accesses.entries.length ≤ 1) ∧
    (∀ (session : Session) (image : Image) (watches : List Watch),
      ((session.load image).watchAll watches).machine.accesses.lastData =
        ((session.load image).dataTransfers watches).getLast?) ∧
    (∀ (session : Session) (address : UInt8), session.dataTransfer? = some address ↔
      session.Executes .ldm address ∨ session.Executes .stm address) := by
  refine ⟨?_, ?_, dataTransfer?_eq_some_iff⟩
  · intro session running
    exact ⟨tells running, length_entries_step_le running⟩
  · intro session image watches
    have none : (session.load image).machine.accesses.lastData = .none := rfl
    rw [lastData_watchAll, none, Option.or_none]

def stores : Image :=
  (Image.ofSource "stm r0, 16\nadd r1, r0, 7\nstm r1, 16\nout r1, 3\n").toOption.getD .empty

theorem accesses_are_exact_stores :
    (load {} stores).Executes .stm 16 ∧
      ((load {} stores).step.machine.accesses.get ⟨.data, 16⟩).written = true ∧
      ¬ ((load {} stores).step.machine.accesses.get ⟨.data, 16⟩).modified = true ∧
      ((load {} stores).step.step.step.machine.accesses.get ⟨.data, 16⟩).modified = true ∧
      ((load {} stores).watchAll
        [.step, .clear, .step, .step, .take, .step]).machine.accesses.lastData = some 16 := by
  obtain ⟨exact, latest, -⟩ := accesses_are_exact
  have executes : (load {} stores).Executes .stm 16 :=
    ⟨.r0, none, 16, by decide +kernel, rfl⟩
  obtain ⟨first, -⟩ := exact (load {} stores) (by decide +kernel)
  obtain ⟨third, -⟩ := exact (load {} stores).step.step (by decide +kernel)
  have same : ¬ ((load {} stores).step.machine.memory .data).read 16 ≠
      ((load {} stores).machine.memory .data).read 16 := by
    decide +kernel
  refine ⟨executes, (first .data 16).written.mpr executes, ?_, ?_, ?_⟩
  · exact fun modified => same ((first .data 16).modified.mp modified)
  · exact (third .data 16).modified.mpr (by decide +kernel)
  · rw [latest]
    decide +kernel

end Session

end Gumnut
