import Gumnut.Machine.Execute
import Mathlib.Data.Nat.Digits.Lemmas

/-!
# Wide arithmetic

Numbers of many bytes are added and subtracted one byte after the other, the lowest first, and
CARRY goes from each byte to the next. A byte is exact once the CARRY that it leaves counts as one
of the byte above. So the whole number is exact too: its bytes are those of the sum or the
difference modulo the width, and the last CARRY tells that the sum has gone over the width or the
difference below zero.
-/
set_option autoImplicit false

namespace Gumnut

def littleEndian (bytes : List UInt8) : Nat :=
  Nat.ofDigits 256 (bytes.map UInt8.toNat)

theorem littleEndian_cons (byte : UInt8) (bytes : List UInt8) :
    littleEndian (byte :: bytes) = byte.toNat + 256 * littleEndian bytes := by
  rw [littleEndian, List.map_cons, Nat.ofDigits_cons, littleEndian]

theorem littleEndian_lt (bytes : List UInt8) : littleEndian bytes < 256 ^ bytes.length := by
  have digits : ∀ digit ∈ bytes.map UInt8.toNat, digit < 256 := by
    rw [List.forall_mem_map]
    exact fun byte _ => byte.toNat_lt
  have bound := Nat.ofDigits_lt_base_pow_length (by decide) digits
  rwa [List.length_map] at bound

structure Stage where
  machine : Machine
  op : AluOp
  rd : Reg
  rs : Reg
  source : AluSource

namespace Stage

def outcome (stage : Stage) : Machine.Outcome :=
  stage.machine.execute (.alu stage.op stage.rd stage.rs stage.source)

def left (stage : Stage) : UInt8 :=
  stage.machine.register stage.rs

def right (stage : Stage) : UInt8 :=
  stage.machine.sourceValue stage.source

def result (stage : Stage) : UInt8 :=
  stage.outcome.1.register stage.rd

def carry (stage : Stage) : Bool :=
  stage.outcome.1.flags.carry

def zero (stage : Stage) : Bool :=
  stage.outcome.1.flags.zero

def leftNumber (stages : List Stage) : Nat :=
  littleEndian (stages.map left)

def rightNumber (stages : List Stage) : Nat :=
  littleEndian (stages.map right)

def resultNumber (stages : List Stage) : Nat :=
  littleEndian (stages.map result)

/-- Stages of one operation, from the lowest byte on, with the CARRY that the first one finds and
the one that the last one leaves. Between two of them anything may happen that keeps CARRY: the
loads and stores of the bytes, for instance. -/
inductive Linked (op : AluOp) : Bool → List Stage → Bool → Prop
  | nil (carry : Bool) : Linked op carry [] carry
  | cons {carry last : Bool} {stage : Stage} {rest : List Stage} (own : stage.op = op)
      (finds : stage.machine.flags.carry = carry) (more : Linked op stage.carry rest last) :
      Linked op carry (stage :: rest) last

end Stage

inductive WideOp where
  | sum
  | difference
  deriving DecidableEq, Repr

namespace WideOp

open Stage

def chained : WideOp → AluOp
  | sum => .addc
  | difference => .subc

def plain : WideOp → AluOp
  | sum => .add
  | difference => .sub

def sign : WideOp → ℤ
  | sum => 1
  | difference => -1

def Leaves (width value : ℤ) : WideOp → Prop
  | sum => width ≤ value
  | difference => value < 0

/-- Stages that work on wide numbers, with the CARRY that counts and the one that is left. All of
them take CARRY in, but the first one need not; then it is as if CARRY were clear before. -/
inductive Run (kind : WideOp) : Bool → List Stage → Bool → Prop
  | chained {carry last : Bool} {stages : List Stage}
      (linked : Linked kind.chained carry stages last) : Run kind carry stages last
  | plain {last : Bool} {stage : Stage} {rest : List Stage} (own : stage.op = kind.plain)
      (more : Linked kind.chained stage.carry rest last) : Run kind false (stage :: rest) last

/-- An operation on bytes that belongs to one on wide numbers, with the CARRY that is set and the
one that it takes in. -/
def Works (kind : WideOp) (op : AluOp) (carry used : Bool) : Prop :=
  (op = kind.chained ∧ used = carry) ∨ (op = kind.plain ∧ used = false)

def total (kind : WideOp) (carry : Bool) (stages : List Stage) : ℤ :=
  leftNumber stages + kind.sign * (rightNumber stages + carry.toNat)

/-- The result is exact if the last CARRY counts as one above the width. -/
def Exact (kind : WideOp) (carry : Bool) (stages : List Stage) (last : Bool) : Prop :=
  (resultNumber stages : ℤ) + kind.sign * (256 ^ stages.length * last.toNat) =
    kind.total carry stages

variable {kind : WideOp} {op : AluOp} {carry used last : Bool} {stages : List Stage}
  {stage : Stage}

/-! ## One byte -/

theorem toNat_ofInt (value : ℤ) : ((UInt8.ofInt value).toNat : ℤ) = value % 256 := by
  have positive : 0 ≤ value % 256 := Int.emod_nonneg _ (by decide)
  have small : value % 256 < 256 := Int.emod_lt_of_pos _ (by decide)
  rw [UInt8.ofInt, UInt8.toNat_ofNat']
  omega

theorem Works.wide_eq (works : kind.Works op carry used) (a b : UInt8) :
    op.wide a b carry = a.toNat + kind.sign * (b.toNat + used.toNat) := by
  rcases works with ⟨rfl, rfl⟩ | ⟨rfl, rfl⟩ <;> cases kind <;>
    simp only [chained, plain, sign, AluOp.wide, Bool.toNat_false] <;> omega

theorem Works.carries_iff (works : kind.Works op carry used) (value : ℤ) :
    op.carries value = true ↔ kind.Leaves 256 value := by
  rcases works with ⟨rfl, -⟩ | ⟨rfl, -⟩ <;> cases kind <;>
    simp only [chained, plain, AluOp.carries, Leaves, decide_eq_true_eq] <;> omega

/-- What leaves a byte is its CARRY, and ZERO tells of a result that is zero without it. -/
theorem Works.apply_exact (works : kind.Works op carry used) (a b : UInt8) :
    ((op.apply a b carry).value.toNat : ℤ) + kind.sign * (256 * (op.apply a b carry).carry.toNat) =
        a.toNat + kind.sign * (b.toNat + used.toNat) ∧
      ((op.apply a b carry).zero = true ↔
        (op.apply a b carry).value = 0 ∧ (op.apply a b carry).carry = false) := by
  have left := a.toNat_lt
  have right := b.toNat_lt
  have unit := used.toNat_le
  have wide := works.wide_eq a b
  have wraps := works.carries_iff (op.wide a b carry)
  have byte := toNat_ofInt (op.wide a b carry)
  have zero : UInt8.toNat 0 = 0 := rfl
  simp only [AluOp.apply, decide_eq_true_eq, ← UInt8.toNat_inj]
  generalize op.carries (op.wide a b carry) = out at wraps ⊢
  generalize op.wide a b carry = value at wide wraps byte ⊢
  generalize (UInt8.ofInt value).toNat = low at byte ⊢
  cases kind <;> cases out <;> simp [sign, Leaves] at wide wraps ⊢ <;> omega

theorem Works.stage_exact (works : kind.Works stage.op stage.machine.flags.carry used) :
    (stage.result.toNat : ℤ) + kind.sign * (256 * stage.carry.toNat) =
        stage.left.toNat + kind.sign * (stage.right.toNat + used.toNat) ∧
      (stage.zero = true ↔ stage.result = 0 ∧ stage.carry = false) := by
  let applied := stage.op.apply stage.left stage.right stage.machine.flags.carry
  have written := stage.machine.register_setRegister stage.rd stage.rd applied.value
  rw [if_pos rfl] at written
  have result : stage.result = applied.value := written
  have carry : stage.carry = applied.carry := rfl
  have zero : stage.zero = applied.zero := rfl
  rw [result, carry, zero]
  exact works.apply_exact stage.left stage.right

/-! ## Many bytes -/

/-- The stages above a byte take in what the byte leaves. -/
theorem Exact.cons {rest : List Stage}
    (works : kind.Works stage.op stage.machine.flags.carry used)
    (above : kind.Exact stage.carry rest last) : kind.Exact used (stage :: rest) last := by
  have lowest := works.stage_exact.1
  unfold Exact total resultNumber leftNumber rightNumber at above ⊢
  simp only [List.map_cons, littleEndian_cons, List.length_cons, pow_succ]
  push_cast
  linarith

theorem exact_of_linked (linked : Linked kind.chained carry stages last) :
    kind.Exact carry stages last := by
  generalize chained : kind.chained = op at linked
  induction linked with
  | nil carry => simp [Exact, total, resultNumber, leftNumber, rightNumber, littleEndian]
  | cons own finds more ih => exact ih.cons (.inl ⟨own.trans chained.symm, finds.symm⟩)

theorem Run.exact (run : kind.Run carry stages last) : kind.Exact carry stages last := by
  cases run with
  | chained linked => exact exact_of_linked linked
  | plain own more => exact (exact_of_linked more).cons (.inr ⟨own, rfl⟩)

theorem op_eq_of_linked (linked : Linked op carry stages last) (member : stage ∈ stages) :
    stage.op = op := by
  induction linked with
  | nil => cases member
  | cons own finds more ih =>
    rcases List.mem_cons.mp member with rfl | later
    · exact own
    · exact ih later

theorem Run.exists_works (run : kind.Run carry stages last) (member : stage ∈ stages) :
    ∃ used, kind.Works stage.op stage.machine.flags.carry used := by
  cases run with
  | chained linked => exact ⟨_, .inl ⟨op_eq_of_linked linked member, rfl⟩⟩
  | plain own more =>
    rcases List.mem_cons.mp member with rfl | later
    · exact ⟨_, .inr ⟨own, rfl⟩⟩
    · exact ⟨_, .inl ⟨op_eq_of_linked more later, rfl⟩⟩

theorem resultNumber_lt (stages : List Stage) :
    (resultNumber stages : ℤ) < 256 ^ stages.length := by
  have bound := littleEndian_lt (stages.map result)
  rw [List.length_map] at bound
  exact_mod_cast bound

theorem Exact.result_eq (exact : kind.Exact carry stages last) :
    (resultNumber stages : ℤ) = kind.total carry stages % 256 ^ stages.length := by
  have positive : (0 : ℤ) ≤ resultNumber stages := Int.natCast_nonneg _
  rw [← exact, mul_left_comm, Int.add_mul_emod_self_left,
    Int.emod_eq_of_lt positive (resultNumber_lt stages)]

theorem Exact.last_iff (exact : kind.Exact carry stages last) :
    last = true ↔ kind.Leaves (256 ^ stages.length) (kind.total carry stages) := by
  have within := resultNumber_lt stages
  have positive : (0 : ℤ) ≤ resultNumber stages := Int.natCast_nonneg _
  rw [← exact]
  cases last <;> cases kind <;> simp [sign, Leaves] <;> omega

theorem total_sum (carry : Bool) (stages : List Stage) :
    sum.total carry stages =
      ((leftNumber stages + rightNumber stages + carry.toNat : Nat) : ℤ) := by
  simp only [total, sign]
  push_cast
  ring

theorem total_difference (carry : Bool) (stages : List Stage) :
    difference.total carry stages =
      (leftNumber stages : ℤ) - rightNumber stages - carry.toNat := by
  simp only [total, sign]
  ring

/-- Arithmetic on numbers of any width by one instruction for each byte is exact. The bytes are
those of the sum or difference modulo the width, the last CARRY tells whether it was outside of the
width, and every stage sets ZERO just if its byte is zero and CARRY clear. -/
theorem wide_arithmetic_exact (stages : List Stage) (carry last : Bool) :
    (sum.Run carry stages last →
      resultNumber stages =
        (leftNumber stages + rightNumber stages + carry.toNat) % 256 ^ stages.length ∧
      (last = true ↔
        256 ^ stages.length ≤ leftNumber stages + rightNumber stages + carry.toNat)) ∧
    (difference.Run carry stages last →
      (resultNumber stages : ℤ) =
        ((leftNumber stages : ℤ) - rightNumber stages - carry.toNat) % 256 ^ stages.length ∧
      (last = true ↔ (leftNumber stages : ℤ) - rightNumber stages - carry.toNat < 0)) ∧
    ∀ kind : WideOp, kind.Run carry stages last → ∀ stage ∈ stages, stage.outcome.2 = none ∧
      (stage.zero = true ↔ stage.result = 0 ∧ stage.carry = false) := by
  refine ⟨fun run => ?_, fun run => ?_, fun kind run stage member => ⟨rfl, ?_⟩⟩
  · have result := run.exact.result_eq
    have wraps := run.exact.last_iff
    rw [total_sum] at result wraps
    rw [Leaves] at wraps
    exact ⟨by exact_mod_cast result, by exact_mod_cast wraps⟩
  · have result := run.exact.result_eq
    have below := run.exact.last_iff
    rw [total_difference] at result below
    exact ⟨result, below⟩
  · obtain ⟨used, works⟩ := run.exists_works member
    exact works.stage_exact.2

def holding (byte : UInt8) (flags : Flags) : Machine :=
  { registers := #v[byte, 0, 0, 0, 0, 0, 0, 0], flags }

def added : List Stage :=
  let low : Stage := ⟨holding 0xFF {}, .add, .r0, .r0, .immediate 1⟩
  [low, ⟨holding 1 low.outcome.1.flags, .addc, .r0, .r0, .immediate 0⟩]

/-- A zero less 255 and CARRY: the byte is zero again, and ZERO is clear. -/
def subtracted : List Stage :=
  [⟨holding 0 { carry := true, zero := true }, .subc, .r0, .r0, .immediate 0xFF⟩]

theorem wide_arithmetic_exact_chained :
    sum.Run false added false ∧ resultNumber added = 0x200 ∧
      difference.Run true subtracted true ∧ resultNumber subtracted = 0 ∧
      ∀ stage ∈ subtracted, stage.zero = false := by
  have runs : sum.Run false added false := .plain rfl (.cons rfl (by decide) (.nil false))
  have runs' : difference.Run true subtracted true := .chained (.cons rfl rfl (.nil true))
  obtain ⟨sums, -, -⟩ := wide_arithmetic_exact added false false
  obtain ⟨-, differences, zeros⟩ := wide_arithmetic_exact subtracted true true
  refine ⟨runs, ?_, runs', ?_, fun stage member => ?_⟩
  · rw [(sums runs).1]
    decide
  · have value : (resultNumber subtracted : ℤ) = 0 := by
      rw [(differences runs').1]
      decide
    exact_mod_cast value
  · have zero := (zeros .difference runs' stage member).2
    rw [← Bool.not_eq_true, zero]
    rintro ⟨-, clear⟩
    rw [List.mem_singleton.mp member] at clear
    cases clear

end WideOp

end Gumnut
