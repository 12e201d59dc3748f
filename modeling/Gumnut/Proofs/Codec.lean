import Gumnut.Proofs.WordFields
import Mathlib.Algebra.Group.Nat.Defs

/-!
# Decoding and encoding

Decoding is described by the front of a word, one rule for each family, and encoding by the fields
that are packed. From these two descriptions: a decoded word encodes to itself, the bits cleared
that its family does not use, and an instruction whose constants fit their fields decodes from its
word again.
-/
set_option autoImplicit false

namespace Gumnut.Instruction

open Word (field pack divide totalWidth)

inductive Reads (word : UInt32) : Instruction → Prop
  | aluImmediate (front : word.toNat >>> 17 = 0b0) :
      Reads word (alu (.ofCode (field word.toNat 14 3)) (field word.toNat 11 3)
        (field word.toNat 8 3) (.immediate (UInt8.ofNat (field word.toNat 0 8))))
  | memory (front : word.toNat >>> 16 = 0b10) :
      Reads word (memory (.ofCode (field word.toNat 14 2)) (field word.toNat 11 3)
        (if field word.toNat 8 3 = Reg.r0 then none else some (field word.toNat 8 3))
        (UInt8.ofNat (field word.toNat 0 8)))
  | shift (front : word.toNat >>> 15 = 0b110) :
      Reads word (shift (.ofCode (field word.toNat 0 2)) (field word.toNat 11 3)
        (field word.toNat 8 3) (UInt8.ofNat (field word.toNat 5 3)))
  | aluRegister (front : word.toNat >>> 14 = 0b1110) :
      Reads word (alu (.ofCode (field word.toNat 0 3)) (field word.toNat 11 3)
        (field word.toNat 8 3) (.register (field word.toNat 5 3)))
  | jump (front : word.toNat >>> 13 = 0b11110) :
      Reads word (jump (.ofCode (field word.toNat 12 1)) (UInt16.ofNat (field word.toNat 0 12)))
  | branch (front : word.toNat >>> 12 = 0b111110) :
      Reads word (branch (.ofCode (field word.toNat 10 2)) (UInt8.ofNat (field word.toNat 0 8)))
  | control {op : ControlOp} (front : word.toNat >>> 11 = 0b1111110)
      (code : op.code = field word.toNat 8 3) : Reads word (control op)
  | freeCode (front : word.toNat >>> 11 = 0b1111110) (free : 6 ≤ (field word.toNat 8 3).val) :
      Reads word (undefined word)
  | sevenOnes (front : word.toNat >>> 11 = 0b1111111) : Reads word (undefined word)
  | tooWide (wide : word.toNat >>> 18 ≠ 0) : Reads word (undefined word)

theorem reads_decode (word : UInt32) : Reads word (decode word) := by
  unfold decode
  by_cases wide : word.toNat >>> Word.usedBits ≠ 0
  · rw [if_pos wide]
    exact .tooWide wide
  rw [if_neg wide]
  split
  · exact .aluImmediate ‹_›
  split
  · exact .memory ‹_›
  split
  · exact .shift ‹_›
  split
  · exact .aluRegister ‹_›
  split
  · exact .jump ‹_›
  split
  · exact .branch ‹_›
  split
  · rename_i front
    cases found : ControlOp.ofCode? (field word.toNat 8 3) with
    | some op => exact .control front (ControlOp.code_of_ofCode? found)
    | none => exact .freeCode front ((ControlOp.ofCode?_eq_none_iff _).mp found)
  · have narrow : word.toNat >>> 18 = 0 := Decidable.not_not.mp wide
    refine .sevenOnes ?_
    omega

theorem decode_of_reads {word : UInt32} {instruction : Instruction}
    (reads : Reads word instruction) : decode word = instruction := by
  unfold decode Word.usedBits
  cases reads with
  | aluImmediate front => rw [if_neg (by omega), if_pos front]
  | memory front => rw [if_neg (by omega), if_neg (by omega), if_pos front]
  | shift front => rw [if_neg (by omega), if_neg (by omega), if_neg (by omega), if_pos front]
  | aluRegister front =>
    rw [if_neg (by omega), if_neg (by omega), if_neg (by omega), if_neg (by omega), if_pos front]
  | jump front =>
    rw [if_neg (by omega), if_neg (by omega), if_neg (by omega), if_neg (by omega),
      if_neg (by omega), if_pos front]
  | branch front =>
    rw [if_neg (by omega), if_neg (by omega), if_neg (by omega), if_neg (by omega),
      if_neg (by omega), if_neg (by omega), if_pos front]
  | @control op front code =>
    rw [if_neg (by omega), if_neg (by omega), if_neg (by omega), if_neg (by omega),
      if_neg (by omega), if_neg (by omega), if_neg (by omega), if_pos front, ← code,
      ControlOp.ofCode?_code]
  | freeCode front free =>
    rw [if_neg (by omega), if_neg (by omega), if_neg (by omega), if_neg (by omega),
      if_neg (by omega), if_neg (by omega), if_neg (by omega), if_pos front,
      (ControlOp.ofCode?_eq_none_iff _).mpr free]
  | sevenOnes front =>
    rw [if_neg (by omega), if_neg (by omega), if_neg (by omega), if_neg (by omega),
      if_neg (by omega), if_neg (by omega), if_neg (by omega), if_neg (by omega)]
  | tooWide wide => rw [if_pos wide]

/-! ## Fields of an instruction -/

def fields : Instruction → List (Nat × Nat)
  | alu op rd rs (.immediate value) =>
    [(1, 0b0), (3, op.code), (3, rd), (3, rs), (8, value.toNat)]
  | memory op rd base offset =>
    [(2, 0b10), (2, op.code), (3, rd), (3, (base.getD .r0).val), (8, offset.toNat)]
  | shift op rd rs count =>
    [(3, 0b110), (1, 0), (3, rd), (3, rs), (3, count.toNat), (3, 0), (2, op.code)]
  | alu op rd rs (.register rt) =>
    [(4, 0b1110), (3, rd), (3, rs), (3, rt), (2, 0), (3, op.code)]
  | jump op target => [(5, 0b11110), (1, op.code), (12, target.toNat)]
  | branch cond displacement =>
    [(6, 0b111110), (2, cond.code), (2, 0), (8, displacement.toNat)]
  | control op => [(7, 0b1111110), (3, op.code), (8, 0)]
  | undefined word => [(32, word.toNat)]

/-- How the family of an instruction divides a word, and which of the parts it reads. -/
def division : Instruction → List (Nat × Bool)
  | alu _ _ _ (.immediate _) => [(1, true), (3, true), (3, true), (3, true), (8, true)]
  | memory .. => [(2, true), (2, true), (3, true), (3, true), (8, true)]
  | shift .. =>
    [(3, true), (1, false), (3, true), (3, true), (3, true), (3, false), (2, true)]
  | alu _ _ _ (.register _) =>
    [(4, true), (3, true), (3, true), (3, true), (2, false), (3, true)]
  | jump .. => [(5, true), (1, true), (12, true)]
  | branch .. => [(6, true), (2, true), (2, false), (8, true)]
  | control _ => [(7, true), (3, true), (8, false)]
  | undefined _ => [(32, true)]

theorem totalWidth_fields_le (instruction : Instruction) :
    totalWidth instruction.fields ≤ 32 := by
  rcases instruction with ⟨op, rd, rs, _ | _⟩ | _ | _ | _ | _ | _ | _ <;>
    simp only [fields, totalWidth] <;> decide

theorem toNat_encode (instruction : Instruction) :
    instruction.encode.toNat = pack instruction.fields := by
  have narrow : pack instruction.fields < UInt32.size :=
    Nat.lt_of_lt_of_le (Word.pack_lt _)
      (Nat.pow_le_pow_right (by decide) instruction.totalWidth_fields_le)
  rcases instruction with ⟨op, rd, rs, _ | _⟩ | _ | _ | _ | _ | _ | word
  case undefined =>
    rw [encode, fields, Word.pack_cons, Nat.mod_eq_of_lt word.toNat_lt]
    exact (Nat.one_mul _).symm
  all_goals exact UInt32.toNat_ofNat_of_lt' narrow

theorem fields_of_reads {word : UInt32} {instruction : Instruction}
    (reads : Reads word instruction) :
    instruction.fields = divide word.toNat instruction.division := by
  cases reads with
  | aluImmediate front =>
    have lead : (field word.toNat 17 1).val = 0b0 :=
      Word.val_field_of_front front (by decide)
    simp [fields, division, divide, totalWidth, lead]
  | memory front =>
    have lead : (field word.toNat 16 2).val = 0b10 :=
      Word.val_field_of_front front (by decide)
    have base : (if field word.toNat 8 3 = Reg.r0 then none else
        some (field word.toNat 8 3)).getD Reg.r0 = field word.toNat 8 3 := by
      split <;> simp_all
    simp [fields, division, divide, totalWidth, lead, base]
  | shift front =>
    have lead : (field word.toNat 15 3).val = 0b110 :=
      Word.val_field_of_front front (by decide)
    have count : (field word.toNat 5 3).val < 256 :=
      Nat.lt_of_lt_of_le (field word.toNat 5 3).isLt (by decide)
    simp [fields, division, divide, totalWidth, lead, count]
  | aluRegister front =>
    have lead : (field word.toNat 14 4).val = 0b1110 :=
      Word.val_field_of_front front (by decide)
    simp [fields, division, divide, totalWidth, lead]
  | jump front =>
    have lead : (field word.toNat 13 5).val = 0b11110 :=
      Word.val_field_of_front front (by decide)
    have target : (field word.toNat 0 12).val < 65536 :=
      Nat.lt_of_lt_of_le (field word.toNat 0 12).isLt (by decide)
    simp [fields, division, divide, totalWidth, lead, target]
  | branch front =>
    have lead : (field word.toNat 12 6).val = 0b111110 :=
      Word.val_field_of_front front (by decide)
    simp [fields, division, divide, totalWidth, lead]
  | control front code =>
    have lead : (field word.toNat 11 7).val = 0b1111110 :=
      Word.val_field_of_front front (by decide)
    simp [fields, division, divide, totalWidth, lead, code]
  | _ =>
    have lead : (field word.toNat 0 32).val = word.toNat :=
      Word.val_field_of_front rfl word.toNat_lt
    simp [fields, division, divide, totalWidth, lead]

/-! ## Instructions that fit their words -/

/-- Whether the word of an instruction keeps all of it: the constants fit their fields, and the
base of an address is not r0, whose field stands for no base. -/
def Encodable : Instruction → Prop
  | shift _ _ _ count => count.toNat < 8
  | memory _ _ base _ => base ≠ some .r0
  | jump _ target => target.toNat < 4096
  | undefined _ => False
  | _ => True

instance (instruction : Instruction) : Decidable instruction.Encodable :=
  match instruction with
  | shift _ _ _ count => inferInstanceAs (Decidable (count.toNat < 8))
  | memory _ _ base _ => inferInstanceAs (Decidable (base ≠ some .r0))
  | jump _ target => inferInstanceAs (Decidable (target.toNat < 4096))
  | undefined _ => inferInstanceAs (Decidable False)
  | alu .. | branch .. | control _ => inferInstanceAs (Decidable True)

theorem fit_fields {instruction : Instruction} (encodable : instruction.Encodable) :
    Word.Fit instruction.fields instruction.division := by
  rcases instruction with ⟨op, rd, rs, value | rt⟩ | ⟨op, rd, rs, count⟩ | ⟨op, rd, base, offset⟩ |
    ⟨cond, displacement⟩ | ⟨op, target⟩ | op | word
  case undefined => exact encodable.elim
  case alu.immediate => simp [fields, division, Word.Fit, value.toNat_lt]
  case alu.register => simp [fields, division, Word.Fit]
  case shift =>
    have small : count.toNat < 8 := encodable
    simp [fields, division, Word.Fit, small]
  case memory => simp [fields, division, Word.Fit, offset.toNat_lt]
  case branch => simp [fields, division, Word.Fit, displacement.toNat_lt]
  case jump =>
    have small : target.toNat < 4096 := encodable
    exact ⟨rfl, by decide, nofun, rfl, op.code.isLt, nofun, rfl, small, nofun, trivial⟩
  case control => simp [fields, division, Word.Fit]

theorem totalWidth_division {instruction : Instruction} (encodable : instruction.Encodable) :
    totalWidth instruction.division = Word.usedBits := by
  rcases instruction with ⟨op, rd, rs, _ | _⟩ | _ | _ | _ | _ | _ | word
  case undefined => exact encodable.elim
  all_goals rfl

theorem toNat_encode_lt {instruction : Instruction} (encodable : instruction.Encodable) :
    instruction.encode.toNat < 2 ^ 18 := by
  have bound := Word.pack_lt instruction.fields
  rw [Word.totalWidth_of_fit (fit_fields encodable), totalWidth_division encodable] at bound
  rw [toNat_encode]
  exact bound

theorem reads_encode {instruction : Instruction} (encodable : instruction.Encodable) :
    Reads instruction.encode instruction := by
  have narrow := toNat_encode_lt encodable
  have parts := Word.divide_pack (fit_fields encodable)
  rw [← toNat_encode] at parts
  rcases instruction with ⟨op, rd, rs, value | rt⟩ | ⟨op, rd, rs, count⟩ | ⟨op, rd, base, offset⟩ |
    ⟨cond, displacement⟩ | ⟨op, target⟩ | op | word
  case undefined => exact encodable.elim
  all_goals
    revert narrow parts
    generalize encode _ = word
    intro narrow parts
    simp only [divide, division, fields, totalWidth, if_true, List.cons.injEq, Prod.mk.injEq,
      true_and, and_true, Nat.add_zero, Nat.reduceAdd] at parts
  case alu.immediate =>
    obtain ⟨lead, code, first, second, low⟩ := parts
    have rule := Reads.aluImmediate (Word.front_of_field narrow lead)
    rw [Fin.ext code, Fin.ext first, Fin.ext second, low] at rule
    simpa using rule
  case alu.register =>
    obtain ⟨lead, first, second, third, -, code⟩ := parts
    have rule := Reads.aluRegister (Word.front_of_field narrow lead)
    rw [Fin.ext code, Fin.ext first, Fin.ext second, Fin.ext third] at rule
    simpa using rule
  case shift =>
    obtain ⟨lead, -, first, second, count, -, code⟩ := parts
    have rule := Reads.shift (Word.front_of_field narrow lead)
    rw [Fin.ext code, Fin.ext first, Fin.ext second, count] at rule
    simpa using rule
  case memory =>
    obtain ⟨lead, code, first, second, low⟩ := parts
    have rule := Reads.memory (Word.front_of_field narrow lead)
    rw [Fin.ext code, Fin.ext first, Fin.ext second, low] at rule
    have kept : (if base.getD Reg.r0 = Reg.r0 then none else some (base.getD Reg.r0)) = base := by
      cases base with
      | none => rfl
      | some r =>
        have indexed : r ≠ Reg.r0 := fun same => encodable (congrArg some same)
        exact if_neg indexed
    rw [kept] at rule
    simpa using rule
  case branch =>
    obtain ⟨lead, code, -, low⟩ := parts
    have rule := Reads.branch (Word.front_of_field narrow lead)
    rw [Fin.ext code, low] at rule
    simpa using rule
  case jump =>
    obtain ⟨lead, code, low⟩ := parts
    have rule := Reads.jump (Word.front_of_field narrow lead)
    rw [Fin.ext code, low] at rule
    simpa using rule
  case control =>
    obtain ⟨lead, code, -⟩ := parts
    exact .control (Word.front_of_field narrow lead) (Fin.ext code.symm)

theorem decode_encode {instruction : Instruction} (encodable : instruction.Encodable) :
    decode instruction.encode = instruction :=
  decode_of_reads (reads_encode encodable)

theorem encode_inj {instruction other : Instruction} (encodable : instruction.Encodable)
    (encodable' : other.Encodable) (same : instruction.encode = other.encode) :
    instruction = other := by
  rw [← decode_encode encodable, same, decode_encode encodable']

/-! ## Words that stand for an instruction -/

def IsUndefined : Instruction → Prop
  | undefined _ => True
  | _ => False

instance (instruction : Instruction) : Decidable instruction.IsUndefined :=
  match instruction with
  | undefined _ => inferInstanceAs (Decidable True)
  | alu .. | shift .. | memory .. | branch .. | jump .. | control _ =>
    inferInstanceAs (Decidable False)

theorem not_isUndefined_of_encodable {instruction : Instruction}
    (encodable : instruction.Encodable) : ¬ instruction.IsUndefined := by
  cases instruction with
  | undefined word => exact encodable.elim
  | _ => exact id

theorem encode_of_isUndefined {word : UInt32} (none : (decode word).IsUndefined) :
    (decode word).encode = word := by
  have reads := reads_decode word
  generalize decode word = instruction at none reads ⊢
  cases reads with
  | freeCode | sevenOnes | tooWide => rfl
  | _ => exact none.elim

theorem encodable_decode {word : UInt32} (some : ¬ (decode word).IsUndefined) :
    (decode word).Encodable := by
  have reads := reads_decode word
  generalize decode word = instruction at some reads ⊢
  cases reads with
  | freeCode | sevenOnes | tooWide => exact absurd trivial some
  | shift front =>
    have small := (field word.toNat 5 3).isLt
    have fits : (field word.toNat 5 3).val < 256 := Nat.lt_of_lt_of_le small (by decide)
    rw [Encodable, UInt8.toNat_ofNat_of_lt' fits]
    exact small
  | jump front =>
    have small := (field word.toNat 0 12).isLt
    have fits : (field word.toNat 0 12).val < 65536 := Nat.lt_of_lt_of_le small (by decide)
    rw [Encodable, UInt16.toNat_ofNat_of_lt' fits]
    exact small
  | memory front =>
    rw [Encodable]
    split
    · exact nofun
    · rename_i indexed
      exact fun same => indexed (Option.some.inj same)
  | _ => trivial

theorem narrow_of_reads {word : UInt32} {instruction : Instruction}
    (reads : Reads word instruction) (some : ¬ instruction.IsUndefined) :
    word.toNat < 2 ^ 18 := by
  cases reads with
  | freeCode | sevenOnes | tooWide => exact absurd trivial some
  | _ => omega

def isSpareBit : Instruction → Nat → Bool
  | shift .., bit => bit == 14 || (2 ≤ bit && bit ≤ 4)
  | alu _ _ _ (.register _), bit => 3 ≤ bit && bit ≤ 4
  | branch .., bit => 8 ≤ bit && bit ≤ 9
  | control _, bit => bit ≤ 7
  | _, _ => false

/-- Of the 18 bits of a word, those that no part of its division takes are spare. -/
theorem isTaken_division {instruction : Instruction} (some : ¬ instruction.IsUndefined) {bit : Nat}
    (used : bit < 18) :
    Word.isTaken bit instruction.division = !instruction.isSpareBit bit := by
  rcases instruction with ⟨op, rd, rs, _ | _⟩ | _ | _ | _ | _ | _ | word
  case undefined => exact absurd trivial some
  all_goals
    simp only [division, isSpareBit]
    decide +revert

/-- A decoded word keeps its bits, those excepted that its family does not use. -/
theorem testBit_encode_decode (word : UInt32) (bit : Nat) :
    (decode word).encode.toNat.testBit bit =
      (word.toNat.testBit bit && !(decode word).isSpareBit bit) := by
  by_cases none : (decode word).IsUndefined
  · have unspared : (decode word).isSpareBit bit = false := by
      generalize decode word = instruction at none ⊢
      cases instruction with
      | undefined _ => rfl
      | _ => exact none.elim
    rw [encode_of_isUndefined none, unspared, Bool.not_false, Bool.and_true]
  · have reads := reads_decode word
    rw [toNat_encode, fields_of_reads reads, Word.testBit_pack_divide]
    by_cases used : bit < 18
    · rw [isTaken_division none used]
    · have above : word.toNat.testBit bit = false :=
        Nat.testBit_lt_two_pow (Nat.lt_of_lt_of_le (narrow_of_reads reads none)
          (Nat.pow_le_pow_right (by decide) (Nat.le_of_not_lt used)))
      rw [above, Bool.false_and, Bool.false_and]

theorem decode_encode_decode (word : UInt32) : decode (decode word).encode = decode word := by
  by_cases none : (decode word).IsUndefined
  · rw [encode_of_isUndefined none]
  · exact decode_encode (encodable_decode none)

/-- Which words are undefined: one with a bit above the 18 of an instruction, one with seven ones
in front, and one with a free control code. -/
theorem isUndefined_decode_iff (word : UInt32) :
    (decode word).IsUndefined ↔
      (∃ bit, 18 ≤ bit ∧ word.toNat.testBit bit = true) ∨
      (∀ bit, 11 ≤ bit → bit < 18 → word.toNat.testBit bit = true) ∨
      ((∀ bit, 12 ≤ bit → bit < 18 → word.toNat.testBit bit = true) ∧
        word.toNat.testBit 11 = false ∧
        (word.toNat >>> 8 % 8 = 6 ∨ word.toNat >>> 8 % 8 = 7)) := by
  by_cases narrow : word.toNat < 2 ^ 18
  · have noneAbove : ¬ ∃ bit, 18 ≤ bit ∧ word.toNat.testBit bit = true := by
      rintro ⟨bit, above, one⟩
      have zero := Nat.testBit_lt_two_pow
        (Nat.lt_of_lt_of_le narrow (Nat.pow_le_pow_right (by decide) above))
      rw [zero] at one
      exact absurd one (by decide)
    have seven := Word.shiftRight_eq_ones_iff 11 7 narrow
    have six := Word.shiftRight_eq_ones_iff 12 6 narrow
    have eleventh : word.toNat.testBit 11 = false ↔ word.toNat >>> 11 % 2 = 0 := by
      rw [Nat.testBit_eq_decide_div_mod_eq, decide_eq_false_iff_not, Nat.shiftRight_eq_div_pow]
      omega
    have code := Word.val_field word.toNat 8 3
    rw [or_iff_right noneAbove, ← seven, ← six, eleventh]
    constructor
    · intro undefined
      have reads := reads_decode word
      generalize decode word = instruction at undefined reads
      cases reads with
      | freeCode front free => right; omega
      | sevenOnes front => left; exact front
      | tooWide wide => omega
      | _ => exact undefined.elim
    · rintro (front | ⟨front, zero, free⟩)
      · rw [decode_of_reads (.sevenOnes front)]
        trivial
      · rw [decode_of_reads (.freeCode (by omega) (by omega))]
        trivial
  · have wide : word.toNat >>> 18 ≠ 0 := by omega
    rw [decode_of_reads (.tooWide wide)]
    obtain ⟨bit, above, one⟩ := Nat.exists_ge_and_testBit_of_ge_two_pow (Nat.le_of_not_lt narrow)
    exact iff_of_true trivial (.inl ⟨bit, above, one⟩)

end Gumnut.Instruction
