import Gumnut.Text.Radix
import Mathlib.Tactic.IntervalCases

/-!
# Digits read back

Reading the digits of a number gives the number if it is below the bound of the reader and is
refused as too large otherwise, also with zeros in front. The digits are read from the left, so a
number that is too large is refused at the first of its leading parts that is.
-/
set_option autoImplicit false

namespace Gumnut.Radix

variable {radix bound : Nat}

theorem digit?_digitChar {d : Nat} (small : d < radix) (hex : radix ≤ 16) :
    digit? radix (Nat.digitChar d) = some d := by
  have below : d < 16 := Nat.lt_of_lt_of_le small hex
  interval_cases d <;> exact if_pos small

theorem readFrom_append (value : Nat) (front back : List Char) :
    readFrom radix bound value (front ++ back) =
      (readFrom radix bound value front).bind fun value => readFrom radix bound value back := by
  induction front generalizing value with
  | nil => rfl
  | cons c front ih =>
    rw [List.cons_append, readFrom, readFrom]
    cases digit? radix c with
    | none => rfl
    | some d =>
      dsimp only
      by_cases below : radix * value + d < bound
      · rw [if_pos below, if_pos below, ih]
      · rw [if_neg below, if_neg below]
        rfl

theorem readFrom_digitChar {d : Nat} (value : Nat) (small : d < radix) (hex : radix ≤ 16) :
    readFrom radix bound value [Nat.digitChar d] =
      if radix * value + d < bound then .ok (radix * value + d) else .error .tooLarge := by
  rw [readFrom, digit?_digitChar small hex]
  rfl

theorem readFrom_digits (value : Nat) (two : 1 < radix) (hex : radix ≤ 16) :
    readFrom radix bound 0 (digits radix value) =
      if value < bound then .ok value else .error .tooLarge := by
  induction value using Nat.strongRecOn with
  | ind value ih =>
    rw [digits, Nat.toDigits_eq_if two]
    by_cases small : value < radix
    · rw [if_pos small, readFrom_digitChar 0 small hex, Nat.mul_zero, Nat.zero_add]
    · have rest : value / radix < value := Nat.div_lt_self (by omega) two
      have last : value % radix < radix := Nat.mod_lt _ (by omega)
      have front := ih (value / radix) rest
      rw [digits] at front
      rw [if_neg small, readFrom_append, front]
      by_cases below : value / radix < bound
      · rw [if_pos below, Except.bind, readFrom_digitChar _ last hex, Nat.div_add_mod]
      · rw [if_neg below, if_neg (by omega)]
        rfl

theorem readFrom_zeros (count : Nat) (text : List Char) (positive : 0 < radix) (room : 0 < bound) :
    readFrom radix bound 0 (List.replicate count '0' ++ text) = readFrom radix bound 0 text := by
  induction count with
  | zero => rfl
  | succ count ih =>
    have zero : digit? radix '0' = some 0 := if_pos positive
    rw [List.replicate_succ, List.cons_append, readFrom, zero]
    dsimp only
    rw [Nat.mul_zero, Nat.add_zero, if_pos room, ih]

theorem digits_ne_nil (value : Nat) : digits radix value ≠ [] :=
  Nat.toDigits_ne_nil

theorem padded_ne_nil (width value : Nat) : padded radix width value ≠ [] := by
  intro empty
  rw [padded, List.leftpad, List.append_eq_nil_iff] at empty
  exact digits_ne_nil value empty.2

theorem read_padded (width value : Nat) (two : 1 < radix) (hex : radix ≤ 16) (room : 0 < bound) :
    read radix bound (padded radix width value) =
      if value < bound then .ok value else .error .tooLarge := by
  have filled : ¬ (padded radix width value).isEmpty = true := by
    rw [List.isEmpty_iff]
    exact padded_ne_nil width value
  rw [read, if_neg filled, padded, List.leftpad, readFrom_zeros _ _ (by omega) room,
    readFrom_digits value two hex]

theorem exists_digitChar_of_mem_digits {c : Char} (value : Nat) (two : 1 < radix)
    (member : c ∈ digits radix value) : ∃ d < radix, c = Nat.digitChar d := by
  induction value using Nat.strongRecOn with
  | ind value ih =>
    rw [digits, Nat.toDigits_eq_if two] at member
    by_cases small : value < radix
    · rw [if_pos small, List.mem_singleton] at member
      exact ⟨value, small, member⟩
    · rw [if_neg small, List.mem_append, List.mem_singleton] at member
      rcases member with front | last
      · exact ih (value / radix) (Nat.div_lt_self (by omega) two) front
      · exact ⟨value % radix, Nat.mod_lt _ (by omega), last⟩

theorem exists_digitChar_of_mem_padded {c : Char} {width value : Nat} (two : 1 < radix)
    (member : c ∈ padded radix width value) : ∃ d < radix, c = Nat.digitChar d := by
  rw [padded, List.leftpad, List.mem_append] at member
  rcases member with zeros | digit
  · exact ⟨0, by omega, List.eq_of_mem_replicate zeros⟩
  · exact exists_digitChar_of_mem_digits value two digit

end Gumnut.Radix
