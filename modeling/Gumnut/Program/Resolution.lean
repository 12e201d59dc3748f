import Gumnut.Assembly.Line
import Gumnut.Instruction.Codec
import Gumnut.Program.Fault

/-!
# Resolving operands

From a mnemonic and its operands to an instruction, when the values of the symbols are known. The
operands have to be those of the operation's family:

```text
alu       rd, rs, rt      or  rd, rs, value
shift     rd, rs, value
memory    rd, (rb) value  or  rd, (label) value  or  rd, value
branch    value
jump      value
control   none
```

A value is a number or a symbol, and each place keeps only the low bits that it has room for. The
base r0 means a direct address, and so does a label as base.
-/
set_option autoImplicit false

namespace Gumnut

namespace Operand

def value (resolve : String → Except AssemblyFault UInt32) : Operand → Except AssemblyFault UInt32
  | number v => .ok v
  | symbol name => resolve name
  | notANumber => .error .invalidNumeral
  | register _ => .error .invalidOperands

end Operand

namespace Instruction

/-- The base register of an indexed address, unless it is r0. -/
def indexBase? (r : Reg) : Option Reg :=
  if r = .r0 then none else some r

/-- The displacement from behind an address to a target. -/
def displacement (address : UInt16) (target : UInt32) : UInt8 :=
  (target - (address.toUInt32 + 1)).toUInt8

def assemble (resolve : String → Except AssemblyFault UInt32) (address : UInt16) :
    Operation → Operands → Except AssemblyFault Instruction
  | .alu op, ⟨some (.register rd), some (.register rs), some (.register rt)⟩ =>
    .ok (.alu op rd rs (.register rt))
  | .alu op, ⟨some (.register rd), some (.register rs), some source⟩ => do
    let v ← source.value resolve
    .ok (.alu op rd rs (.immediate v.toUInt8))
  | .shift op, ⟨some (.register rd), some (.register rs), some count⟩ => do
    let v ← count.value resolve
    .ok (.shift op rd rs (v % 8).toUInt8)
  | .memory op, ⟨some (.register rd), some (.register base), some offset⟩ => do
    let v ← offset.value resolve
    .ok (.memory op rd (indexBase? base) v.toUInt8)
  | .memory op, ⟨some (.register rd), some (.symbol base), some offset⟩ => do
    let b ← resolve base
    let v ← offset.value resolve
    .ok (.memory op rd none (b + v).toUInt8)
  | .memory op, ⟨some (.register rd), some direct, none⟩ => do
    let v ← direct.value resolve
    .ok (.memory op rd none v.toUInt8)
  | .branch cond, ⟨some target, none, none⟩ => do
    let v ← target.value resolve
    .ok (.branch cond (displacement address v))
  | .jump op, ⟨some target, none, none⟩ => do
    let v ← target.value resolve
    .ok (.jump op (v % 4096).toUInt16)
  | .control op, ⟨none, none, none⟩ => .ok (.control op)
  | _, _ => .error .invalidOperands

end Instruction

end Gumnut
