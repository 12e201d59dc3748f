import Gumnut.Instruction

/-!
# Instruction words

Instruction words. An instruction takes the low 18 bits of a word, and its family is told by the
number of ones at the front of them:

```text
             17  16  15  14  13  12  11  10   9   8   7   6   5   4   3   2   1   0
immediate  |  0 |     op    |     rd    |     rs    |           immediate           |
memory     |  1   0 |  op   |     rd    |    base   |            offset             |
shift      |  1   1   0 | - |     rd    |     rs    |   count   | -   -   - |  op   |
register   |  1   1   1   0 |     rd    |     rs    |     rt    | -   - |     op    |
jump       |  1   1   1   1   0 | op|                    target                     |
branch     |  1   1   1   1   1   0 | cond  | -   - |         displacement          |
control    |  1   1   1   1   1   1   0 |     op    | -   -   -   -   -   -   -   - |
```

Every word decodes. A word with a bit above these 18, with seven ones in front, or with a free
control code is undefined. The base field zero means direct addressing.
-/
set_option autoImplicit false

namespace Gumnut

namespace Word

def usedBits : Nat := 18

/-- Fields side by side, each given by its width and its value, the highest field first. A value
loses the bits that do not fit its field. -/
def pack (fields : List (Nat × Nat)) : Nat :=
  fields.foldl (fun word (width, value) => word <<< width + value % (1 <<< width)) 0

theorem one_shiftLeft_pos (width : Nat) : 0 < 1 <<< width := by
  rw [Nat.one_shiftLeft]
  exact Nat.two_pow_pos width

/-- The field of a word that begins at a bit and has a number of bits. -/
def field (word start width : Nat) : Fin (1 <<< width) :=
  ⟨word >>> start % (1 <<< width), Nat.mod_lt _ (one_shiftLeft_pos width)⟩

end Word

namespace Instruction

open Word (field)

def decode (word : UInt32) : Instruction :=
  let w := word.toNat
  let rd : Reg := field w 11 3
  let rs : Reg := field w 8 3
  let low : UInt8 := UInt8.ofNat (field w 0 8)
  if w >>> Word.usedBits ≠ 0 then undefined word
  else if w >>> 17 = 0b0 then
    alu (.ofCode (field w 14 3)) rd rs (.immediate low)
  else if w >>> 16 = 0b10 then
    memory (.ofCode (field w 14 2)) rd (if rs = .r0 then none else some rs) low
  else if w >>> 15 = 0b110 then
    shift (.ofCode (field w 0 2)) rd rs (UInt8.ofNat (field w 5 3))
  else if w >>> 14 = 0b1110 then
    alu (.ofCode (field w 0 3)) rd rs (.register (field w 5 3))
  else if w >>> 13 = 0b11110 then
    jump (.ofCode (field w 12 1)) (UInt16.ofNat (field w 0 12))
  else if w >>> 12 = 0b111110 then
    branch (.ofCode (field w 10 2)) low
  else if w >>> 11 = 0b1111110 then
    match ControlOp.ofCode? (field w 8 3) with
    | some op => control op
    | none => undefined word
  else undefined word

/-- The word of an instruction. A shift count and a jump target lose the bits that do not fit
their fields. -/
def encode : Instruction → UInt32
  | alu op rd rs (.immediate value) =>
    UInt32.ofNat (Word.pack [(1, 0b0), (3, op.code), (3, rd), (3, rs), (8, value.toNat)])
  | memory op rd base offset =>
    UInt32.ofNat
      (Word.pack [(2, 0b10), (2, op.code), (3, rd), (3, (base.getD .r0).val), (8, offset.toNat)])
  | shift op rd rs count =>
    UInt32.ofNat
      (Word.pack [(3, 0b110), (1, 0), (3, rd), (3, rs), (3, count.toNat), (3, 0), (2, op.code)])
  | alu op rd rs (.register rt) =>
    UInt32.ofNat (Word.pack [(4, 0b1110), (3, rd), (3, rs), (3, rt), (2, 0), (3, op.code)])
  | jump op target =>
    UInt32.ofNat (Word.pack [(5, 0b11110), (1, op.code), (12, target.toNat)])
  | branch cond displacement =>
    UInt32.ofNat (Word.pack [(6, 0b111110), (2, cond.code), (2, 0), (8, displacement.toNat)])
  | control op =>
    UInt32.ofNat (Word.pack [(7, 0b1111110), (3, op.code), (8, 0)])
  | undefined word => word

end Instruction

end Gumnut
