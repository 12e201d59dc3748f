import Gumnut.Text.Radix

/-!
# Instructions

The instructions of the processor. There are eight registers and six families of instructions; an
instruction names its operation, its registers and its constant. A word that stands for none of
them is kept as an undefined instruction, so that every word has a reading.

The operations of one family are numbered, and the number is the part of the word that tells them
apart: `code` and `ofCode` are inverse to each other.

As assembly source, an instruction has its constants in decimal, but a jump target in hexadecimal;
the offset of an indexed operand and the displacement of a branch show their sign.
-/
set_option autoImplicit false

namespace Gumnut

/-- A byte read as a number from -128 to 127. -/
def signedByte (byte : UInt8) : Int :=
  if byte.toNat < 128 then byte.toNat else (byte.toNat : Int) - 256

theorem signedByte_bounds (byte : UInt8) : -128 ≤ signedByte byte ∧ signedByte byte ≤ 127 := by
  have bound := byte.toNat_lt
  unfold signedByte
  split <;> omega

theorem signedByte_emod (byte : UInt8) : signedByte byte % 256 = byte.toNat := by
  have bound := byte.toNat_lt
  unfold signedByte
  split <;> omega

abbrev Reg := Fin 8

namespace Reg

/-- The register r0. As the base of an address it stands for no base. -/
def r0 : Reg := 0

inductive NumberFault where
  | tooLarge
  deriving DecidableEq, Repr

def NumberFault.message : NumberFault → String
  | tooLarge => "number too large to fit in target type"

def ofNumber (number : Nat) : Except NumberFault Reg :=
  if below : number < 8 then .ok ⟨number, below⟩ else .error .tooLarge

def text (r : Reg) : String :=
  "r" ++ Radix.decimal r.val

end Reg

inductive AluOp where
  | add | addc | sub | subc | and | or | xor | mask
  deriving DecidableEq, Repr

inductive ShiftOp where
  | shl | shr | rol | ror
  deriving DecidableEq, Repr

inductive MemoryOp where
  | ldm | stm | inp | out
  deriving DecidableEq, Repr

inductive Condition where
  | z | nz | c | nc
  deriving DecidableEq, Repr

inductive JumpOp where
  | jmp | jsb
  deriving DecidableEq, Repr

inductive ControlOp where
  | ret | reti | enai | disi | wait | stby
  deriving DecidableEq, Repr

namespace AluOp

def code : AluOp → Fin 8
  | add => 0 | addc => 1 | sub => 2 | subc => 3 | and => 4 | or => 5 | xor => 6 | mask => 7

def ofCode : Fin 8 → AluOp
  | 0 => add | 1 => addc | 2 => sub | 3 => subc | 4 => and | 5 => or | 6 => xor | 7 => mask

def text : AluOp → String
  | add => "add" | addc => "addc" | sub => "sub" | subc => "subc"
  | and => "and" | or => "or" | xor => "xor" | mask => "mask"

@[simp] theorem ofCode_code (op : AluOp) : ofCode op.code = op := by cases op <;> rfl

@[simp] theorem code_ofCode (n : Fin 8) : (ofCode n).code = n := by decide +revert

end AluOp

namespace ShiftOp

def code : ShiftOp → Fin 4
  | shl => 0 | shr => 1 | rol => 2 | ror => 3

def ofCode : Fin 4 → ShiftOp
  | 0 => shl | 1 => shr | 2 => rol | 3 => ror

def text : ShiftOp → String
  | shl => "shl" | shr => "shr" | rol => "rol" | ror => "ror"

@[simp] theorem ofCode_code (op : ShiftOp) : ofCode op.code = op := by cases op <;> rfl

@[simp] theorem code_ofCode (n : Fin 4) : (ofCode n).code = n := by decide +revert

end ShiftOp

namespace MemoryOp

def code : MemoryOp → Fin 4
  | ldm => 0 | stm => 1 | inp => 2 | out => 3

def ofCode : Fin 4 → MemoryOp
  | 0 => ldm | 1 => stm | 2 => inp | 3 => out

def text : MemoryOp → String
  | ldm => "ldm" | stm => "stm" | inp => "inp" | out => "out"

@[simp] theorem ofCode_code (op : MemoryOp) : ofCode op.code = op := by cases op <;> rfl

@[simp] theorem code_ofCode (n : Fin 4) : (ofCode n).code = n := by decide +revert

end MemoryOp

namespace Condition

def code : Condition → Fin 4
  | z => 0 | nz => 1 | c => 2 | nc => 3

def ofCode : Fin 4 → Condition
  | 0 => z | 1 => nz | 2 => c | 3 => nc

def text : Condition → String
  | z => "bz" | nz => "bnz" | c => "bc" | nc => "bnc"

@[simp] theorem ofCode_code (cond : Condition) : ofCode cond.code = cond := by cases cond <;> rfl

@[simp] theorem code_ofCode (n : Fin 4) : (ofCode n).code = n := by decide +revert

end Condition

namespace JumpOp

def code : JumpOp → Fin 2
  | jmp => 0 | jsb => 1

def ofCode : Fin 2 → JumpOp
  | 0 => jmp | 1 => jsb

def text : JumpOp → String
  | jmp => "jmp" | jsb => "jsb"

@[simp] theorem ofCode_code (op : JumpOp) : ofCode op.code = op := by cases op <;> rfl

@[simp] theorem code_ofCode (n : Fin 2) : (ofCode n).code = n := by decide +revert

end JumpOp

namespace ControlOp

def code : ControlOp → Fin 8
  | ret => 0 | reti => 1 | enai => 2 | disi => 3 | wait => 4 | stby => 5

/-- The operation of a code; two of the eight codes are free. -/
def ofCode? : Fin 8 → Option ControlOp
  | 0 => some ret | 1 => some reti | 2 => some enai
  | 3 => some disi | 4 => some wait | 5 => some stby
  | 6 | 7 => none

def text : ControlOp → String
  | ret => "ret" | reti => "reti" | enai => "enai"
  | disi => "disi" | wait => "wait" | stby => "stby"

@[simp] theorem ofCode?_code (op : ControlOp) : ofCode? op.code = some op := by cases op <;> rfl

theorem code_of_ofCode? {n : Fin 8} {op : ControlOp} (found : ofCode? n = some op) :
    op.code = n := by
  decide +revert

theorem ofCode?_eq_none_iff (n : Fin 8) : ofCode? n = none ↔ 6 ≤ n.val := by
  decide +revert

end ControlOp

/-- What an instruction does, without its operands. -/
inductive Operation where
  | alu (op : AluOp)
  | shift (op : ShiftOp)
  | memory (op : MemoryOp)
  | branch (cond : Condition)
  | jump (op : JumpOp)
  | control (op : ControlOp)
  deriving DecidableEq, Repr

namespace Operation

def code : Operation → Nat
  | alu op => op.code
  | shift op => op.code
  | memory op => op.code
  | branch cond => cond.code
  | jump op => op.code
  | control op => op.code

def text : Operation → String
  | alu op => op.text
  | shift op => op.text
  | memory op => op.text
  | branch cond => cond.text
  | jump op => op.text
  | control op => op.text

def all : List Operation :=
  [alu .add, alu .addc, alu .sub, alu .subc, alu .and, alu .or, alu .xor, alu .mask,
   shift .shl, shift .shr, shift .rol, shift .ror,
   memory .ldm, memory .stm, memory .inp, memory .out,
   branch .z, branch .nz, branch .c, branch .nc,
   jump .jmp, jump .jsb,
   control .ret, control .reti, control .enai, control .disi, control .wait, control .stby]

def ofText? (text : String) : Option Operation :=
  all.find? fun operation => operation.text == text

theorem ofText?_text (operation : Operation) : ofText? operation.text = some operation := by
  rcases operation with op | op | op | op | op | op <;> cases op <;> decide

end Operation

inductive AluSource where
  | immediate (value : UInt8)
  | register (r : Reg)
  deriving DecidableEq, Repr

namespace AluSource

inductive Mode where
  | register
  | immediate
  deriving DecidableEq, Repr

def mode : AluSource → Mode
  | .immediate _ => .immediate
  | .register _ => .register

def text : AluSource → String
  | immediate value => Radix.decimal value.toNat
  | register r => r.text

end AluSource

/-- An instruction with its operands. A memory instruction without a base register addresses
memory directly. A branch holds its displacement from the next instruction as a byte. A word that
stands for no instruction is undefined. -/
inductive Instruction where
  | alu (op : AluOp) (rd rs : Reg) (source : AluSource)
  | shift (op : ShiftOp) (rd rs : Reg) (count : UInt8)
  | memory (op : MemoryOp) (rd : Reg) (base : Option Reg) (offset : UInt8)
  | branch (cond : Condition) (displacement : UInt8)
  | jump (op : JumpOp) (target : UInt16)
  | control (op : ControlOp)
  | undefined (word : UInt32)
  deriving DecidableEq, Repr

namespace Instruction

def operation? : Instruction → Option Operation
  | alu op .. => some (.alu op)
  | shift op .. => some (.shift op)
  | memory op .. => some (.memory op)
  | branch cond _ => some (.branch cond)
  | jump op _ => some (.jump op)
  | control op => some (.control op)
  | undefined _ => none

/-- The first register operand: the destination, or the register that a store writes out. -/
def destination? : Instruction → Option Reg
  | alu _ rd .. | shift _ rd .. | memory _ rd .. => some rd
  | _ => none

def mode? : Instruction → Option AluSource.Mode
  | alu _ _ _ source => some source.mode
  | _ => none

/-- The sign of an offset and its distance from zero, apart. -/
def offsetText (byte : UInt8) : String :=
  if signedByte byte < 0 then "- " ++ Radix.decimal (signedByte byte).natAbs
  else "+ " ++ Radix.decimal (signedByte byte).natAbs

def displacementText (byte : UInt8) : String :=
  if signedByte byte < 0 then "-" ++ Radix.decimal (signedByte byte).natAbs
  else "+" ++ Radix.decimal (signedByte byte).natAbs

def text : Instruction → String
  | alu op rd rs source => op.text ++ " " ++ rd.text ++ ", " ++ rs.text ++ ", " ++ source.text
  | shift op rd rs count =>
    op.text ++ " " ++ rd.text ++ ", " ++ rs.text ++ ", " ++ Radix.decimal count.toNat
  | memory op rd none offset => op.text ++ " " ++ rd.text ++ ", " ++ Radix.decimal offset.toNat
  | memory op rd (some base) offset =>
    op.text ++ " " ++ rd.text ++ ", (" ++ base.text ++ ") " ++ offsetText offset
  | branch cond displacement => cond.text ++ " " ++ displacementText displacement
  | jump op target => op.text ++ " " ++ Radix.hexadecimal 3 target.toNat
  | control op => op.text
  | undefined word => "<unknown " ++ Radix.hexadecimal 5 word.toNat ++ ">"

end Instruction

end Gumnut
