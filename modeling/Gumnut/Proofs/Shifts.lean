import Gumnut.Machine.Execute
import Mathlib.Algebra.Group.Nat.Defs
import Mathlib.Logic.Function.Iterate

/-!
# Shifts bit by bit

A shift by a count is that many shifts by one bit, one after the other, and so is a rotation by what
is left of its count modulo eight. CARRY is the bit that the last of them has moved out of the byte.
-/
set_option autoImplicit false

namespace Gumnut

namespace ShiftOp

/-- A byte moved by one bit. In a rotation the bit that leaves it comes in at the other end. -/
def once (op : ShiftOp) (byte : UInt8) : UInt8 :=
  match op with
  | shl => byte <<< 1
  | shr => byte >>> 1
  | rol => byte <<< 1 + byte >>> 7
  | ror => byte >>> 1 + byte <<< 7

def leaving (op : ShiftOp) (byte : UInt8) : Bool :=
  match op with
  | shl | rol => byte.toNat.testBit 7
  | shr | ror => byte.toNat.testBit 0

/-- How often a byte is moved by one bit. Eight rotations come to none. -/
def moves (op : ShiftOp) (count : UInt8) : Nat :=
  match op with
  | shl | shr => count.toNat
  | rol | ror => count.toNat % 8

def move (op : ShiftOp) (state : UInt8 × Bool) : UInt8 × Bool :=
  (op.once state.1, op.leaving state.1)

/-! ## One bit -/

section OneBit

variable (byte : UInt8)

theorem toNat_shl : (shl.once byte).toNat = byte.toNat * 2 % 256 := by
  simp [once, UInt8.toNat_shiftLeft, Nat.shiftLeft_eq]

theorem toNat_shr : (shr.once byte).toNat = byte.toNat / 2 := by
  simp [once, UInt8.toNat_shiftRight, Nat.shiftRight_eq_div_pow]

theorem toNat_rol : (rol.once byte).toNat = byte.toNat * 2 % 256 + byte.toNat / 128 := by
  have bound := byte.toNat_lt
  have left : (byte <<< 1).toNat = byte.toNat * 2 % 256 := toNat_shl byte
  have right : (byte >>> 7).toNat = byte.toNat / 128 := by
    simp [UInt8.toNat_shiftRight, Nat.shiftRight_eq_div_pow]
  rw [once, UInt8.toNat_add, left, right]
  omega

theorem toNat_ror : (ror.once byte).toNat = byte.toNat / 2 + byte.toNat * 128 % 256 := by
  have bound := byte.toNat_lt
  have left : (byte <<< 7).toNat = byte.toNat * 128 % 256 := by
    simp [UInt8.toNat_shiftLeft, Nat.shiftLeft_eq]
  have right : (byte >>> 1).toNat = byte.toNat / 2 := toNat_shr byte
  rw [once, UInt8.toNat_add, left, right]
  omega

theorem leaving_left : shl.leaving byte = (byte.toNat / 128 == 1) := by
  have bound := byte.toNat_lt
  rw [leaving, Nat.testBit_eq_decide_div_mod_eq, beq_eq_decide, decide_eq_decide]
  omega

theorem leaving_right : shr.leaving byte = (byte.toNat % 2 == 1) := by
  rw [leaving, Nat.testBit_eq_decide_div_mod_eq, beq_eq_decide, decide_eq_decide]
  omega

end OneBit

/-! ## Many bits -/

def turned (a turn : Nat) : Nat :=
  a <<< turn % 256 + a >>> (8 - turn)

section Turned

variable {a turn : Nat}

theorem pow_sub_mul_pow (few : turn ≤ 8) : 2 ^ (8 - turn) * 2 ^ turn = 256 := by
  rw [← Nat.pow_add, Nat.sub_add_cancel few]

theorem turned_lt (byte : a < 256) (few : turn ≤ 8) : turned a turn < 256 := by
  have whole := pow_sub_mul_pow few
  have front : a / 2 ^ (8 - turn) < 2 ^ turn := Nat.div_lt_of_lt_mul (by rwa [whole])
  have behind : a * 2 ^ turn % 256 = a % 2 ^ (8 - turn) * 2 ^ turn := by
    rw [← whole, Nat.mul_mod_mul_right]
  have room : (a % 2 ^ (8 - turn) + 1) * 2 ^ turn ≤ 256 := by
    rw [← whole]
    exact Nat.mul_le_mul_right _ (Nat.mod_lt _ (Nat.two_pow_pos _))
  rw [Nat.succ_mul] at room
  rw [turned, Nat.shiftLeft_eq, Nat.shiftRight_eq_div_pow, behind]
  omega

theorem turned_add (few : turn ≤ 8) :
    turned a turn + 255 * (a / 2 ^ (8 - turn)) = a * 2 ^ turn := by
  have front : a * 2 ^ turn / 256 = a / 2 ^ (8 - turn) := by
    rw [← pow_sub_mul_pow few, Nat.mul_div_mul_right _ _ (Nat.two_pow_pos turn)]
  rw [turned, Nat.shiftLeft_eq, Nat.shiftRight_eq_div_pow, ← front]
  omega

theorem turned_succ (byte : a < 256) (few : turn + 1 ≤ 8) :
    turned a (turn + 1) = turned a turn * 2 % 256 + turned a turn / 128 := by
  have fewer : turn ≤ 8 := Nat.le_of_succ_le few
  have before : turned a turn + 255 * (a / 2 ^ (8 - turn)) = a * 2 ^ turn := turned_add fewer
  have after : turned a (turn + 1) + 255 * (a / 2 ^ (8 - (turn + 1))) = a * 2 ^ (turn + 1) :=
    turned_add few
  have front : a / 2 ^ (8 - turn) = a / 2 ^ (8 - (turn + 1)) / 2 := by
    rw [Nat.div_div_eq_div_mul, ← Nat.pow_succ, Nat.succ_eq_add_one,
      show 8 - (turn + 1) + 1 = 8 - turn by omega]
  have leaves : turned a turn * 2 / 256 = turned a turn / 128 := by omega
  have bounded := turned_lt byte fewer
  have bounded' := turned_lt byte few
  rw [Nat.pow_succ, ← Nat.mul_assoc] at after
  omega

theorem turned_sub_succ (byte : a < 256) (few : turn + 1 ≤ 8) :
    turned a (8 - (turn + 1)) = turned a (8 - turn) / 2 + turned a (8 - turn) * 128 % 256 := by
  have bounded := turned_lt byte (Nat.sub_le 8 (turn + 1))
  have left : turned a (8 - turn) =
      turned a (8 - (turn + 1)) * 2 % 256 + turned a (8 - (turn + 1)) / 128 := by
    rw [← turned_succ byte (by omega), show 8 - (turn + 1) + 1 = 8 - turn by omega]
  have leaves : turned a (8 - (turn + 1)) * 2 / 256 = turned a (8 - (turn + 1)) / 128 := by omega
  have back : turned a (8 - turn) / 2 =
      turned a (8 - (turn + 1)) - turned a (8 - (turn + 1)) / 128 * 128 := by omega
  omega

end Turned

def Shows (state : UInt8 × Bool) (value : Nat) (out : Bool) : Prop :=
  state.1.toNat = value ∧ state.2 = out

variable (byte : UInt8)

theorem shows_shl (n : Nat) :
    Shows (shl.move^[n] (byte, false)) (byte.toNat <<< n % 256)
      (byte.toNat <<< n / 256 % 2 == 1) := by
  have bound := byte.toNat_lt
  induction n with
  | zero =>
    refine ⟨(Nat.mod_eq_of_lt bound).symm, ?_⟩
    rw [Nat.shiftLeft_zero, Nat.div_eq_of_lt bound]
    rfl
  | succ n ih =>
    obtain ⟨value, -⟩ := ih
    rw [Function.iterate_succ_apply', move]
    refine ⟨?_, ?_⟩
    · rw [toNat_shl, value, Nat.shiftLeft_succ]
      omega
    · rw [leaving_left, value, Nat.shiftLeft_succ, beq_eq_decide, beq_eq_decide, decide_eq_decide]
      omega

theorem shows_shr (n : Nat) :
    Shows (shr.move^[n] (byte, false)) ((byte.toNat * 2) >>> n / 2)
      ((byte.toNat * 2) >>> n % 2 == 1) := by
  induction n with
  | zero =>
    refine ⟨?_, ?_⟩
    · rw [Nat.shiftRight_zero, Nat.mul_div_cancel _ (by decide)]
      rfl
    · rw [Nat.shiftRight_zero, Nat.mul_mod_left]
      rfl
  | succ n ih =>
    obtain ⟨value, -⟩ := ih
    rw [Function.iterate_succ_apply', move]
    refine ⟨?_, ?_⟩
    · rw [toNat_shr, value, Nat.shiftRight_succ]
    · rw [leaving_right, value, Nat.shiftRight_succ]

theorem shows_rol {n : Nat} (small : n < 8) :
    Shows (rol.move^[n] (byte, false)) (turned byte.toNat n)
      (n != 0 && turned byte.toNat n % 2 == 1) := by
  have bound := byte.toNat_lt
  induction n with
  | zero =>
    refine ⟨?_, rfl⟩
    simp [turned, Nat.mod_eq_of_lt bound, Nat.shiftRight_eq_div_pow, Nat.div_eq_of_lt bound]
  | succ n ih =>
    obtain ⟨value, -⟩ := ih (Nat.lt_of_succ_lt small)
    have below := (rol.move^[n] (byte, false)).1.toNat_lt
    rw [value] at below
    have counted : (n + 1 != 0) = true := rfl
    rw [Function.iterate_succ_apply', move, counted, Bool.true_and,
      turned_succ bound (Nat.le_of_lt small)]
    refine ⟨?_, ?_⟩
    · rw [toNat_rol, value]
    · have out : rol.leaving (rol.move^[n] (byte, false)).1 = _ := leaving_left _
      rw [out, value, beq_eq_decide, beq_eq_decide, decide_eq_decide]
      omega

theorem shows_ror {n : Nat} (small : n < 8) :
    Shows (ror.move^[n] (byte, false)) (turned byte.toNat (8 - n))
      (n != 0 && turned byte.toNat (8 - n) / 128 == 1) := by
  have bound := byte.toNat_lt
  induction n with
  | zero =>
    refine ⟨?_, rfl⟩
    simp [turned, Nat.shiftLeft_eq]
  | succ n ih =>
    obtain ⟨value, -⟩ := ih (Nat.lt_of_succ_lt small)
    have below := (ror.move^[n] (byte, false)).1.toNat_lt
    rw [value] at below
    have counted : (n + 1 != 0) = true := rfl
    rw [Function.iterate_succ_apply', move, counted, Bool.true_and,
      turned_sub_succ bound (Nat.le_of_lt small)]
    refine ⟨?_, ?_⟩
    · rw [toNat_ror, value]
    · have out : ror.leaving (ror.move^[n] (byte, false)).1 = _ := leaving_right _
      rw [out, value, beq_eq_decide, beq_eq_decide, decide_eq_decide]
      omega

/-- The closed form of a shift is what its moves by one bit come to. -/
theorem shows_shifted (op : ShiftOp) (count : UInt8) :
    Shows (op.move^[op.moves count] (byte, false)) (op.shifted byte count).1
      (op.shifted byte count).2 := by
  have small : count.toNat % 8 < 8 := Nat.mod_lt _ (by decide)
  cases op with
  | shl => exact shows_shl byte count.toNat
  | shr => exact shows_shr byte count.toNat
  | rol => exact shows_rol byte small
  | ror =>
    have left : turned byte.toNat (8 - count.toNat % 8) =
        byte.toNat >>> (count.toNat % 8) + byte.toNat <<< (8 - count.toNat % 8) % 256 := by
      rw [turned, Nat.sub_sub_self (Nat.le_of_lt small), Nat.add_comm]
    rw [shifted, ← left]
    exact shows_ror byte small

/-- A shift in one go is the shift bit by bit. -/
theorem apply_eq_iterate_move (op : ShiftOp) (count : UInt8) :
    op.apply byte count =
      { value := (op.move^[op.moves count] (byte, false)).1
        carry := (op.move^[op.moves count] (byte, false)).2
        zero := decide ((op.move^[op.moves count] (byte, false)).1 = 0) } := by
  obtain ⟨value, out⟩ := shows_shifted byte op count
  generalize op.move^[op.moves count] (byte, false) = moved at value out ⊢
  have zero : moved.1 = 0 ↔ moved.1.toNat = 0 := UInt8.toNat_inj.symm
  have told : decide (moved.1 = 0) = ((op.shifted byte count).1 == 0) := by
    rw [beq_eq_decide, decide_eq_decide, zero, value]
  rw [told, out, ← UInt8.ofNat_toNat (x := moved.1), value]
  rfl

end ShiftOp

/-- Executing a shift moves the source by one bit as often as its count tells, puts the result into
the destination, the last bit moved out into CARRY and whether the result is zero into ZERO, and
leaves the rest of the machine as it is. -/
theorem Machine.execute_shift (machine : Machine) (op : ShiftOp) (rd rs : Reg) (count : UInt8) :
    machine.execute (.shift op rd rs count) =
      let moved := op.move^[op.moves count] (machine.register rs, false)
      ({ machine.setRegister rd moved.1 with
          flags := { machine.flags with carry := moved.2, zero := decide (moved.1 = 0) } },
        none) := by
  rw [execute, ShiftOp.apply_eq_iterate_move]
  rfl

end Gumnut
