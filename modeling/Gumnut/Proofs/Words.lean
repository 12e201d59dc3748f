import Gumnut.Proofs.Assembled

/-!
# The words of an image

The laws of instruction words together: what encoding makes of a decoded word, which words stand
for no instruction, and which instructions survive their word. An image holds only words that an
instruction was encoded to, so each of its words decodes to an instruction and encodes to itself.
-/
set_option autoImplicit false

namespace Gumnut

open Instruction (decode)

theorem Instruction.encode_eq_zero :
    (alu .add .r0 .r0 (.immediate 0)).encode = 0 := by decide

namespace Image

variable {lines : List Line} {image : Image}

theorem lt_of_get? {size address : Nat} {α : Type} {memory : Memory α size} {cell : α}
    (read : memory.get? address = some cell) : address < size := by
  rw [Memory.get?, Vector.getElem?_eq_some_iff] at read
  exact read.1

theorem encodable_word (assembles : ofLines lines = .ok image) {address : Nat} {word : UInt32}
    (read : image.code.get? address = some word) :
    ∃ instruction : Instruction, instruction.Encodable ∧ word = instruction.encode := by
  have placed := code_at assembles (lt_of_get? read)
  split at placed
  · obtain ⟨instruction, denotes, written⟩ := placed
    rw [read] at written
    exact ⟨instruction, denotes.encodable, Option.some.inj written⟩
  · rw [read] at placed
    refine ⟨.alu .add .r0 .r0 (.immediate 0), trivial, ?_⟩
    rw [Instruction.encode_eq_zero]
    exact Option.some.inj placed

theorem encode_decode_word (assembles : ofLines lines = .ok image) {address : Nat} {word : UInt32}
    (read : image.code.get? address = some word) :
    (decode word).encode = word ∧ ¬ (decode word).IsUndefined := by
  obtain ⟨instruction, encodable, rfl⟩ := encodable_word assembles read
  rw [Instruction.decode_encode encodable]
  exact ⟨rfl, Instruction.not_isUndefined_of_encodable encodable⟩

end Image

/-- The laws of instruction words. -/
theorem Instruction.word_laws :
    (∀ word : UInt32, decode (decode word).encode = decode word ∧
      ((decode word).IsUndefined → (decode word).encode = word) ∧
      ∀ bit, (decode word).encode.toNat.testBit bit =
        (word.toNat.testBit bit && !(decode word).isSpareBit bit)) ∧
    (∀ word : UInt32, (decode word).IsUndefined ↔
      (∃ bit, 18 ≤ bit ∧ word.toNat.testBit bit = true) ∨
      (∀ bit, 11 ≤ bit → bit < 18 → word.toNat.testBit bit = true) ∨
      ((∀ bit, 12 ≤ bit → bit < 18 → word.toNat.testBit bit = true) ∧
        word.toNat.testBit 11 = false ∧
        (word.toNat >>> 8 % 8 = 6 ∨ word.toNat >>> 8 % 8 = 7))) ∧
    (∀ instruction : Instruction, instruction.Encodable →
      instruction.encode.toNat < 2 ^ 18 ∧ decode instruction.encode = instruction) ∧
    (∀ (lines : List Line) (image : Image), Image.ofLines lines = .ok image →
      ∀ (address : Nat) (word : UInt32), image.code.get? address = some word →
        (decode word).encode = word ∧ ¬ (decode word).IsUndefined) :=
  ⟨fun word => ⟨decode_encode_decode word, encode_of_isUndefined, testBit_encode_decode word⟩,
    isUndefined_decode_iff,
    fun _ encodable => ⟨toNat_encode_lt encodable, decode_encode encodable⟩,
    fun _ _ assembles _ _ read => Image.encode_decode_word assembles read⟩

theorem Instruction.word_laws_overlaid :
    decode (encode (.shift .ror 3 4 7)) = .shift .ror 3 4 7 ∧ (decode 0x40000).IsUndefined ∧
      ∃ image word, Image.ofLines Image.overlaid = .ok image ∧
        image.code.get? 0 = some word ∧ (decode word).encode = word := by
  obtain ⟨-, undefined, fits, images⟩ := Instruction.word_laws
  obtain ⟨image, assembles⟩ := Image.isOk_overlaid
  obtain ⟨instruction, -, read⟩ := Image.code_at assembles (show 0 < codeSize by decide)
  exact ⟨(fits _ (by decide)).2, (undefined 0x40000).mpr (.inl ⟨18, by decide, by decide⟩),
    image, instruction.encode, assembles, read, (images _ _ assembles _ _ read).1⟩

end Gumnut
