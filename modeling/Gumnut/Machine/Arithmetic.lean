import Gumnut.Instruction

/-!
# Arithmetic on bytes

Arithmetic on bytes. An operation is computed without bounds first: CARRY tells that the result
left the range of a byte, above for a sum and below for a difference, and ZERO that it is zero
before it is cut down to a byte. A shift tells in CARRY the last bit that it moved out.
-/
set_option autoImplicit false

namespace Gumnut

structure ByteResult where
  value : UInt8
  carry : Bool
  zero : Bool
  deriving DecidableEq, Repr

namespace AluOp

def wide (op : AluOp) (a b : UInt8) (carry : Bool) : Int :=
  match op with
  | add => (a.toNat : Int) + b.toNat
  | addc => (a.toNat : Int) + b.toNat + carry.toNat
  | sub => (a.toNat : Int) - b.toNat
  | subc => (a.toNat : Int) - b.toNat - carry.toNat
  | and => (a &&& b).toNat
  | or => (a ||| b).toNat
  | xor => (a ^^^ b).toNat
  | mask => (a &&& ~~~b).toNat

def carries (op : AluOp) (wide : Int) : Bool :=
  match op with
  | add | addc => decide (255 < wide)
  | sub | subc => decide (wide < 0)
  | and | or | xor | mask => false

def apply (op : AluOp) (a b : UInt8) (carry : Bool) : ByteResult where
  value := UInt8.ofInt (op.wide a b carry)
  carry := op.carries (op.wide a b carry)
  zero := decide (op.wide a b carry = 0)

end AluOp

namespace ShiftOp

/-- The shifted byte and the last bit moved out. A rotation goes by the count modulo eight, and
one by nothing moves no bit out. -/
def shifted (op : ShiftOp) (a : UInt8) (count : UInt8) : Nat × Bool :=
  let turn := count.toNat % 8
  match op with
  | shl =>
    let wide := a.toNat <<< count.toNat
    (wide % 256, wide / 256 % 2 == 1)
  | shr =>
    let wide := (a.toNat * 2) >>> count.toNat
    (wide / 2, wide % 2 == 1)
  | rol =>
    let turned := (a.toNat <<< turn) % 256 + a.toNat >>> (8 - turn)
    (turned, turn != 0 && turned % 2 == 1)
  | ror =>
    let turned := a.toNat >>> turn + (a.toNat <<< (8 - turn)) % 256
    (turned, turn != 0 && turned / 128 == 1)

def apply (op : ShiftOp) (a : UInt8) (count : UInt8) : ByteResult :=
  let (value, carry) := op.shifted a count
  { value := UInt8.ofNat value, carry, zero := value == 0 }

end ShiftOp

end Gumnut
