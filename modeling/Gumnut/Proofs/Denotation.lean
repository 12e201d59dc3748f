import Gumnut.Program.Assemble
import Gumnut.Proofs.Codec

/-!
# What an instruction line means

What an instruction line means once the symbols are known, said by rules over integers: each
operand that stands for a number has a value, and each place of the instruction takes that value
modulo the room that it has. An assembled instruction is the one that the rules give to its line,
the rules give at most one, and it fits its word.
-/
set_option autoImplicit false

namespace Gumnut

/-- The value of an operand under a symbol table: a number is its own value, and a symbol has the
address that it is bound to. -/
def Operand.valueIn? (symbols : SymbolTable) : Operand → Option Nat
  | number v => some v.toNat
  | symbol name => (symbols.lookup? name).map fun location => location.value.toNat
  | notANumber => none
  | register _ => none

@[simp] theorem Operand.valueIn?_register (symbols : SymbolTable) (r : Reg) :
    (Operand.register r).valueIn? symbols = none := rfl

theorem Operand.valueIn?_congr {symbols table : SymbolTable}
    (same : ∀ label, symbols.lookup? label = table.lookup? label) (operand : Operand) :
    operand.valueIn? symbols = operand.valueIn? table := by
  cases operand with
  | symbol name => simp only [valueIn?, same]
  | _ => rfl

namespace Instruction

inductive Denotes (symbols : SymbolTable) (address : Nat) :
    Operation → Operands → Instruction → Prop
  | aluRegister (op : AluOp) (rd rs rt : Reg) :
      Denotes symbols address (.alu op)
        ⟨some (.register rd), some (.register rs), some (.register rt)⟩
        (.alu op rd rs (.register rt))
  | aluImmediate (op : AluOp) (rd rs : Reg) {source : Operand} {v : Nat}
      (value : source.valueIn? symbols = some v) :
      Denotes symbols address (.alu op)
        ⟨some (.register rd), some (.register rs), some source⟩
        (.alu op rd rs (.immediate (UInt8.ofNat (v % 256))))
  | shift (op : ShiftOp) (rd rs : Reg) {count : Operand} {v : Nat}
      (value : count.valueIn? symbols = some v) :
      Denotes symbols address (.shift op)
        ⟨some (.register rd), some (.register rs), some count⟩
        (.shift op rd rs (UInt8.ofNat (v % 8)))
  | indexed (op : MemoryOp) (rd base : Reg) {offset : Operand} {v : Nat}
      (value : offset.valueIn? symbols = some v) (index : base ≠ .r0) :
      Denotes symbols address (.memory op)
        ⟨some (.register rd), some (.register base), some offset⟩
        (.memory op rd (some base) (UInt8.ofNat (v % 256)))
  | unindexed (op : MemoryOp) (rd : Reg) {offset : Operand} {v : Nat}
      (value : offset.valueIn? symbols = some v) :
      Denotes symbols address (.memory op)
        ⟨some (.register rd), some (.register .r0), some offset⟩
        (.memory op rd none (UInt8.ofNat (v % 256)))
  | displaced (op : MemoryOp) (rd : Reg) {base : String} {offset : Operand} {b v : Nat}
      (start : (Operand.symbol base).valueIn? symbols = some b)
      (value : offset.valueIn? symbols = some v) :
      Denotes symbols address (.memory op)
        ⟨some (.register rd), some (.symbol base), some offset⟩
        (.memory op rd none (UInt8.ofNat ((b + v) % 256)))
  | direct (op : MemoryOp) (rd : Reg) {target : Operand} {v : Nat}
      (value : target.valueIn? symbols = some v) :
      Denotes symbols address (.memory op) ⟨some (.register rd), some target, none⟩
        (.memory op rd none (UInt8.ofNat (v % 256)))
  | branch (cond : Condition) {target : Operand} {t : Nat}
      (value : target.valueIn? symbols = some t) :
      Denotes symbols address (.branch cond) ⟨some target, none, none⟩
        (.branch cond (UInt8.ofInt (((t : Int) - (address + 1)) % 256)))
  | jump (op : JumpOp) {target : Operand} {t : Nat}
      (value : target.valueIn? symbols = some t) :
      Denotes symbols address (.jump op) ⟨some target, none, none⟩
        (.jump op (UInt16.ofNat (t % 4096)))
  | control (op : ControlOp) :
      Denotes symbols address (.control op) ⟨none, none, none⟩ (.control op)

variable {symbols : SymbolTable}

theorem valueIn?_of_value {operand : Operand} {v : UInt32}
    (value : operand.value (Pass.resolving.resolve symbols) = .ok v) :
    operand.valueIn? symbols = some v.toNat := by
  cases operand with
  | register _ => cases value
  | notANumber => cases value
  | number n =>
    cases value
    rfl
  | symbol name =>
    simp only [Operand.value, Pass.resolve] at value
    cases found : symbols.lookup? name with
    | none => simp [found] at value
    | some location =>
      simp only [found, Except.ok.injEq] at value
      rw [Operand.valueIn?, found, ← value, Option.map_some]

theorem bind_eq_ok {ε α β : Type} {first : Except ε α} {next : α → Except ε β} {result : β}
    (ok : (first >>= next) = .ok result) : ∃ value, first = .ok value ∧ next value = .ok result := by
  cases first with
  | error _ => cases ok
  | ok value => exact ⟨value, rfl, ok⟩

theorem toUInt8_eq (v : UInt32) : v.toUInt8 = UInt8.ofNat (v.toNat % 256) := by
  apply UInt8.toNat_inj.mp
  simp

theorem toUInt8_mod_eight (v : UInt32) : (v % 8).toUInt8 = UInt8.ofNat (v.toNat % 8) := by
  apply UInt8.toNat_inj.mp
  simp

theorem toUInt8_add (b v : UInt32) : (b + v).toUInt8 = UInt8.ofNat ((b.toNat + v.toNat) % 256) := by
  apply UInt8.toNat_inj.mp
  simp

theorem toUInt16_mod (t : UInt32) : (t % 4096).toUInt16 = UInt16.ofNat (t.toNat % 4096) := by
  apply UInt16.toNat_inj.mp
  simp

theorem displacement_eq (address : UInt16) (t : UInt32) :
    displacement address t = UInt8.ofInt (((t.toNat : Int) - (address.toNat + 1)) % 256) := by
  apply UInt8.toNat_inj.mp
  have bound := address.toNat_lt
  have bound' := t.toNat_lt
  have next : (address.toUInt32 + 1).toNat = address.toNat + 1 := by
    simp
    omega
  simp only [displacement, UInt32.toNat_toUInt8, UInt32.toNat_sub, next, UInt8.ofInt,
    UInt8.toNat_ofNat']
  omega

theorem denotes_of_assemble {address : UInt16} {operation : Operation} {operands : Operands}
    {instruction : Instruction}
    (assembles : assemble (Pass.resolving.resolve symbols) address operation operands =
      .ok instruction) :
    Denotes symbols address.toNat operation operands instruction := by
  revert assembles
  fun_cases assemble (Pass.resolving.resolve symbols) address operation operands with
  | case1 op rd rs rt =>
    intro assembles
    cases assembles
    exact .aluRegister op rd rs rt
  | case2 op rd rs source =>
    intro assembles
    obtain ⟨v, value, made⟩ := bind_eq_ok assembles
    cases made
    rw [toUInt8_eq]
    exact .aluImmediate op rd rs (valueIn?_of_value value)
  | case3 op rd rs count =>
    intro assembles
    obtain ⟨v, value, made⟩ := bind_eq_ok assembles
    cases made
    rw [toUInt8_mod_eight]
    exact .shift op rd rs (valueIn?_of_value value)
  | case4 op rd base offset =>
    intro assembles
    obtain ⟨v, value, made⟩ := bind_eq_ok assembles
    cases made
    rw [toUInt8_eq, indexBase?]
    by_cases zero : base = .r0
    · rw [if_pos zero, zero]
      exact .unindexed op rd (valueIn?_of_value value)
    · rw [if_neg zero]
      exact .indexed op rd base (valueIn?_of_value value) zero
  | case5 op rd base offset =>
    intro assembles
    obtain ⟨b, start, rest⟩ := bind_eq_ok assembles
    obtain ⟨v, value, made⟩ := bind_eq_ok rest
    cases made
    rw [toUInt8_add]
    have start' : (Operand.symbol base).value (Pass.resolving.resolve symbols) = .ok b := start
    exact .displaced op rd (valueIn?_of_value start') (valueIn?_of_value value)
  | case6 op rd target =>
    intro assembles
    obtain ⟨v, value, made⟩ := bind_eq_ok assembles
    cases made
    rw [toUInt8_eq]
    exact .direct op rd (valueIn?_of_value value)
  | case7 cond target =>
    intro assembles
    obtain ⟨t, value, made⟩ := bind_eq_ok assembles
    cases made
    rw [displacement_eq]
    exact .branch cond (valueIn?_of_value value)
  | case8 op target =>
    intro assembles
    obtain ⟨t, value, made⟩ := bind_eq_ok assembles
    cases made
    rw [toUInt16_mod]
    exact .jump op (valueIn?_of_value value)
  | case9 op =>
    intro assembles
    cases assembles
    exact .control op
  | case10 =>
    intro assembles
    cases assembles

/-- A line denotes one instruction at most. -/
theorem Denotes.unique {address : Nat} {operation : Operation} {operands : Operands}
    {instruction other : Instruction}
    (denotes : Denotes symbols address operation operands instruction)
    (denotes' : Denotes symbols address operation operands other) : instruction = other := by
  cases denotes <;> cases denotes'
  all_goals simp_all

/-- What a line denotes depends on the locations in the table, not on their order. -/
theorem Denotes.congr {table : SymbolTable} {address : Nat} {operation : Operation}
    {operands : Operands} {instruction : Instruction}
    (same : ∀ label, symbols.lookup? label = table.lookup? label)
    (denotes : Denotes symbols address operation operands instruction) :
    Denotes table address operation operands instruction := by
  have values : ∀ {operand : Operand} {v : Nat},
      operand.valueIn? symbols = some v → operand.valueIn? table = some v := by
    intro operand v value
    rw [← value]
    exact (Operand.valueIn?_congr same operand).symm
  cases denotes with
  | aluRegister op rd rs rt => exact .aluRegister op rd rs rt
  | aluImmediate op rd rs value => exact .aluImmediate op rd rs (values value)
  | shift op rd rs value => exact .shift op rd rs (values value)
  | indexed op rd base value index => exact .indexed op rd base (values value) index
  | unindexed op rd value => exact .unindexed op rd (values value)
  | displaced op rd start value => exact .displaced op rd (values start) (values value)
  | direct op rd value => exact .direct op rd (values value)
  | branch cond value => exact .branch cond (values value)
  | jump op value => exact .jump op (values value)
  | control op => exact .control op

theorem Denotes.eq_branch {address t : Nat} {cond : Condition} {operands : Operands}
    {target : Operand} {instruction : Instruction}
    (denotes : Denotes symbols address (.branch cond) operands instruction)
    (first : operands.first = some target) (value : target.valueIn? symbols = some t) :
    instruction = .branch cond (UInt8.ofInt (((t : Int) - (address + 1)) % 256)) := by
  cases denotes with
  | branch cond value' =>
    cases first
    cases value.symm.trans value'
    rfl

theorem Denotes.eq_jump {address t : Nat} {op : JumpOp} {operands : Operands}
    {target : Operand} {instruction : Instruction}
    (denotes : Denotes symbols address (.jump op) operands instruction)
    (first : operands.first = some target) (value : target.valueIn? symbols = some t) :
    instruction = .jump op (UInt16.ofNat (t % 4096)) := by
  cases denotes with
  | jump op value' =>
    cases first
    cases value.symm.trans value'
    rfl

theorem Denotes.encodable {address : Nat} {operation : Operation} {operands : Operands}
    {instruction : Instruction}
    (denotes : Denotes symbols address operation operands instruction) :
    instruction.Encodable := by
  cases denotes with
  | @shift op rd rs count v value =>
    have small : v % 8 < 8 := Nat.mod_lt v (by decide)
    rw [Encodable, UInt8.toNat_ofNat_of_lt' (Nat.lt_of_lt_of_le small (by decide))]
    exact small
  | @jump op target t value =>
    have small : t % 4096 < 4096 := Nat.mod_lt t (by decide)
    rw [Encodable, UInt16.toNat_ofNat_of_lt' (Nat.lt_of_lt_of_le small (by decide))]
    exact small
  | indexed op rd base value index => exact fun same => index (Option.some.inj same)
  | unindexed | displaced | direct => exact (Option.some_ne_none _).symm
  | _ => trivial

end Instruction

end Gumnut
