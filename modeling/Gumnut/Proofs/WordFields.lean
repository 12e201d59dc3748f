import Gumnut.Instruction.Codec
import Mathlib.Algebra.Group.Nat.Defs

/-!
# Fields of a word

Packed fields are read back by position: the bits of a word that was packed from fields are those
of the fields, each cut to its width, and a word packed from its own fields is the word again, with
the bits of the fields that were left out cleared.
-/
set_option autoImplicit false

namespace Gumnut.Word

def totalWidth {α : Type} : List (Nat × α) → Nat
  | [] => 0
  | (width, _) :: rest => width + totalWidth rest

theorem foldl_pack (fields : List (Nat × Nat)) (start : Nat) :
    fields.foldl (fun word (width, value) => word <<< width + value % (1 <<< width)) start =
      start <<< totalWidth fields + pack fields := by
  induction fields generalizing start with
  | nil => simp [totalWidth, pack]
  | cons field rest ih =>
    obtain ⟨width, value⟩ := field
    simp only [pack, List.foldl_cons, totalWidth]
    rw [ih, ih (0 <<< width + value % (1 <<< width))]
    simp only [Nat.shiftLeft_eq, Nat.pow_add, Nat.add_mul, Nat.zero_mul, Nat.mul_assoc]
    omega

theorem pack_cons (width value : Nat) (rest : List (Nat × Nat)) :
    pack ((width, value) :: rest) =
      2 ^ totalWidth rest * (value % 2 ^ width) + pack rest := by
  have unrolled := foldl_pack rest (0 <<< width + value % (1 <<< width))
  rw [pack, List.foldl_cons, unrolled]
  simp only [Nat.shiftLeft_eq, Nat.zero_mul, Nat.zero_add, Nat.one_mul, Nat.mul_comm]

theorem pack_lt (fields : List (Nat × Nat)) : pack fields < 2 ^ totalWidth fields := by
  induction fields with
  | nil => simp [pack, totalWidth]
  | cons field rest ih =>
    obtain ⟨width, value⟩ := field
    have inField : value % 2 ^ width + 1 ≤ 2 ^ width := Nat.mod_lt _ (Nat.two_pow_pos width)
    have scaled := Nat.mul_le_mul_left (2 ^ totalWidth rest) inField
    rw [Nat.mul_add, Nat.mul_one] at scaled
    rw [pack_cons, totalWidth, Nat.pow_add, Nat.mul_comm (2 ^ width)]
    omega

theorem testBit_pack_cons (width value : Nat) (rest : List (Nat × Nat)) (bit : Nat) :
    (pack ((width, value) :: rest)).testBit bit =
      if bit < totalWidth rest then (pack rest).testBit bit
      else decide (bit - totalWidth rest < width) && value.testBit (bit - totalWidth rest) := by
  rw [pack_cons, Nat.testBit_two_pow_mul_add _ (pack_lt rest), Nat.testBit_mod_two_pow]

theorem val_field (word start width : Nat) :
    (field word start width).val = word >>> start % 2 ^ width := by
  simp only [field, Nat.one_shiftLeft]

theorem val_field_of_front {word start width value : Nat} (front : word >>> start = value)
    (fits : value < 2 ^ width) : (field word start width).val = value := by
  rw [val_field, front, Nat.mod_eq_of_lt fits]

theorem testBit_field (word start width bit : Nat) :
    (field word start width).val.testBit bit =
      (decide (bit < width) && word.testBit (start + bit)) := by
  rw [val_field, Nat.testBit_mod_two_pow, Nat.testBit_shiftRight]

/-- The fields of a word in a division of its bits, given by the width of each and by whether its
value is taken. A field that is not taken is zero. -/
def divide (word : Nat) : List (Nat × Bool) → List (Nat × Nat)
  | [] => []
  | (width, taken) :: rest =>
    (width, if taken then (field word (totalWidth rest) width).val else 0) :: divide word rest

def isTaken (bit : Nat) : List (Nat × Bool) → Bool
  | [] => false
  | (width, taken) :: rest =>
    if bit < totalWidth rest then isTaken bit rest
    else decide (bit < totalWidth rest + width) && taken

theorem totalWidth_divide (word : Nat) (division : List (Nat × Bool)) :
    totalWidth (divide word division) = totalWidth division := by
  induction division with
  | nil => rfl
  | cons part rest ih =>
    obtain ⟨width, taken⟩ := part
    simp only [divide, totalWidth, ih]

/-- Packed again, a word keeps the bits of the taken fields and loses all others. -/
theorem testBit_pack_divide (word : Nat) (division : List (Nat × Bool)) (bit : Nat) :
    (pack (divide word division)).testBit bit = (word.testBit bit && isTaken bit division) := by
  induction division with
  | nil => simp [divide, pack, isTaken]
  | cons part rest ih =>
    obtain ⟨width, taken⟩ := part
    rw [divide, testBit_pack_cons, ih, totalWidth_divide, isTaken]
    by_cases behind : bit < totalWidth rest
    · rw [if_pos behind, if_pos behind]
    · rw [if_neg behind, if_neg behind]
      have place : totalWidth rest + (bit - totalWidth rest) = bit := by
        omega
      have inside : bit - totalWidth rest < width ↔ bit < totalWidth rest + width := by
        omega
      cases taken with
      | false => simp
      | true =>
        simp only [if_true, testBit_field, place, inside]
        cases word.testBit bit <;> simp

theorem pack_cons_mod (width value : Nat) (rest : List (Nat × Nat)) :
    pack ((width, value) :: rest) % 2 ^ totalWidth rest = pack rest := by
  rw [pack_cons, Nat.mul_add_mod, Nat.mod_eq_of_lt (pack_lt rest)]

theorem pack_cons_shiftRight (width value : Nat) (rest : List (Nat × Nat)) :
    pack ((width, value) :: rest) >>> totalWidth rest = value % 2 ^ width := by
  rw [Nat.shiftRight_eq_div_pow, pack_cons, Nat.mul_add_div (Nat.two_pow_pos _),
    Nat.div_eq_of_lt (pack_lt rest), Nat.add_zero]

theorem field_mod {start width stop : Nat} (word : Nat) (inside : start + width ≤ stop) :
    field (word % 2 ^ stop) start width = field word start width := by
  apply Fin.ext
  apply Nat.eq_of_testBit_eq
  intro bit
  rw [testBit_field, testBit_field, Nat.testBit_mod_two_pow]
  by_cases within : bit < width
  · have before : start + bit < stop := by omega
    simp [before]
  · simp [within]

theorem divide_mod {stop : Nat} (word : Nat) (division : List (Nat × Bool))
    (inside : totalWidth division ≤ stop) :
    divide (word % 2 ^ stop) division = divide word division := by
  induction division with
  | nil => rfl
  | cons part rest ih =>
    obtain ⟨width, taken⟩ := part
    rw [totalWidth] at inside
    simp only [divide]
    rw [ih (by omega), field_mod word (by omega)]

/-- Whether fields can be told apart by a division: the widths agree, each value fits its width,
and a part that is not taken holds zero. -/
def Fit : List (Nat × Nat) → List (Nat × Bool) → Prop
  | [], [] => True
  | (width, value) :: fields, (part, taken) :: division =>
    width = part ∧ value < 2 ^ width ∧ (taken = false → value = 0) ∧ Fit fields division
  | _, _ => False

theorem totalWidth_of_fit {fields : List (Nat × Nat)} {division : List (Nat × Bool)}
    (fit : Fit fields division) : totalWidth fields = totalWidth division := by
  induction fields generalizing division with
  | nil =>
    cases division with
    | nil => rfl
    | cons _ _ => exact fit.elim
  | cons field fields ih =>
    cases division with
    | nil => exact fit.elim
    | cons part division =>
      obtain ⟨same, -, -, rest⟩ := fit
      rw [totalWidth, totalWidth, same, ih rest]

/-- Fields that fit a division are found again in the packed word. -/
theorem divide_pack {fields : List (Nat × Nat)} {division : List (Nat × Bool)}
    (fit : Fit fields division) : divide (pack fields) division = fields := by
  induction fields generalizing division with
  | nil =>
    cases division with
    | nil => rfl
    | cons _ _ => exact fit.elim
  | cons field fields ih =>
    cases division with
    | nil => exact fit.elim
    | cons part division =>
      obtain ⟨width, value⟩ := field
      obtain ⟨_, taken⟩ := part
      obtain ⟨rfl, narrow, zero, rest⟩ := fit
      have behind : divide (pack ((width, value) :: fields)) division = fields := by
        rw [← divide_mod _ division (Nat.le_refl _), ← totalWidth_of_fit rest, pack_cons_mod,
          ih rest]
      have head : (Word.field (pack ((width, value) :: fields)) (totalWidth division) width).val =
          value := by
        rw [val_field, ← totalWidth_of_fit rest, pack_cons_shiftRight, Nat.mod_mod,
          Nat.mod_eq_of_lt narrow]
      rw [divide, behind, head]
      cases taken with
      | true => rfl
      | false => rw [zero rfl]; rfl

theorem front_of_field {word start width value : Nat} (inside : word < 2 ^ (start + width))
    (lead : (field word start width).val = value) : word >>> start = value := by
  have short : word >>> start < 2 ^ width := by
    rw [Nat.shiftRight_eq_div_pow]
    rw [Nat.pow_add] at inside
    exact Nat.div_lt_of_lt_mul inside
  rw [Word.val_field, Nat.mod_eq_of_lt short] at lead
  exact lead

theorem shiftRight_eq_ones_iff {word : Nat} (start count : Nat)
    (narrow : word < 2 ^ (start + count)) :
    word >>> start = 2 ^ count - 1 ↔
      ∀ bit, start ≤ bit → bit < start + count → word.testBit bit = true := by
  constructor
  · intro ones bit above below
    have place : start + (bit - start) = bit := by omega
    rw [← place, ← Nat.testBit_shiftRight, ones, Nat.testBit_two_pow_sub_one]
    exact decide_eq_true (by omega)
  · intro ones
    apply Nat.eq_of_testBit_eq
    intro bit
    rw [Nat.testBit_shiftRight, Nat.testBit_two_pow_sub_one]
    by_cases inside : bit < count
    · rw [ones (start + bit) (by omega) (by omega), decide_eq_true inside]
    · have above : word < 2 ^ (start + bit) :=
        Nat.lt_of_lt_of_le narrow (Nat.pow_le_pow_right (by decide) (by omega))
      rw [Nat.testBit_lt_two_pow above, decide_eq_false inside]

end Gumnut.Word
