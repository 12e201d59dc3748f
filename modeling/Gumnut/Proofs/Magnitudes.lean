import Gumnut.Proofs.Digits
import Mathlib.Data.Nat.Digits.Defs

/-!
# What digits are worth

The digits of a radix and the number that a text of them stands for, said without the reader. What
reading a text comes to is decided by its digits up to the first character that is none: they have
grown too large, or the character is bad, or there is none and the text is the number.
-/
set_option autoImplicit false

namespace Gumnut.Radix

def figures : List (Char × Nat) :=
  [('0', 0), ('1', 1), ('2', 2), ('3', 3), ('4', 4), ('5', 5), ('6', 6), ('7', 7), ('8', 8),
   ('9', 9), ('a', 10), ('A', 10), ('b', 11), ('B', 11), ('c', 12), ('C', 12), ('d', 13),
   ('D', 13), ('e', 14), ('E', 14), ('f', 15), ('F', 15)]

def Figure (radix : Nat) (c : Char) (value : Nat) : Prop :=
  (c, value) ∈ figures ∧ value < radix

/-- A text of digits stands for a number, the first digit counting most. -/
def Writes (radix : Nat) (text : List Char) (value : Nat) : Prop :=
  ∃ values, List.Forall₂ (Figure radix) text values ∧ Nat.ofDigits radix values.reverse = value

/-- What reading a text comes to, by its digits up to the first character that is none. -/
inductive Reads (radix bound : Nat) : List Char → Except ReadFault Nat → Prop
  | empty : Reads radix bound [] (.error .empty)
  | value {text : List Char} {value : Nat} (filled : text ≠ []) (writes : Writes radix text value)
      (fits : value < bound) : Reads radix bound text (.ok value)
  | tooLarge {front : List Char} {value : Nat} (back : List Char)
      (writes : Writes radix front value) (ends : ∀ c ∈ back.head?, ∀ d, ¬ Figure radix c d)
      (large : bound ≤ value) :
      Reads radix bound (front ++ back) (.error .tooLarge)
  | badDigit {front : List Char} {c : Char} {value : Nat} (back : List Char)
      (writes : Writes radix front value) (fits : value < bound) (bad : ∀ d, ¬ Figure radix c d) :
      Reads radix bound (front ++ c :: back) (.error .badDigit)

variable {radix bound : Nat}

/-! ## Digits -/

theorem mem_figures_of_range {first c : Char} {value : Nat} (count start : Nat)
    (listed : ∀ k < count, (Char.ofNat (first.toNat + k), start + k) ∈ figures)
    (above : first ≤ c) (distance : c.toNat - first.toNat + start = value)
    (small : value < start + count) : (c, value) ∈ figures := by
  have bound : first.toNat ≤ c.toNat := above
  have member := listed (c.toNat - first.toNat) (by omega)
  rwa [Nat.add_sub_cancel' bound, Char.ofNat_toNat, Nat.add_comm, distance] at member

theorem digit?_eq_some_iff (hex : radix ≤ 16) {c : Char} {value : Nat} :
    digit? radix c = some value ↔ Figure radix c value := by
  constructor
  · intro found
    simp only [digit?, Option.ite_none_right_eq_some, Option.some.injEq] at found
    obtain ⟨small, distance⟩ := found
    rw [distance] at small
    refine ⟨?_, small⟩
    split at distance
    · rename_i within
      have bound : c.toNat ≤ '9'.toNat := within.2
      have nine : '9'.toNat = 57 := rfl
      have zero : '0'.toNat = 48 := rfl
      exact mem_figures_of_range 10 0 (by decide) within.1 distance (by omega)
    · split at distance
      · rename_i within
        exact mem_figures_of_range 6 10 (by decide) within.1 distance (by omega)
      · split at distance
        · rename_i within
          exact mem_figures_of_range 6 10 (by decide) within.1 distance (by omega)
        · omega
  · rintro ⟨member, small⟩
    have values : ∀ figure ∈ figures, digit? 16 figure.1 = some figure.2 := by decide
    have found : digit? 16 c = some value := values _ member
    simp only [digit?, Option.ite_none_right_eq_some, Option.some.injEq] at found ⊢
    obtain ⟨_, distance⟩ := found
    split_ifs at distance ⊢ <;> omega

theorem digit?_eq_none_iff (hex : radix ≤ 16) {c : Char} :
    digit? radix c = none ↔ ∀ value, ¬ Figure radix c value := by
  simp only [← digit?_eq_some_iff hex, Option.eq_none_iff_forall_ne_some, ne_eq]

/-! ## Numbers -/

def accumulate (radix value : Nat) (values : List Nat) : Nat :=
  values.foldl (fun value d => radix * value + d) value

theorem ofDigits_reverse (values : List Nat) :
    Nat.ofDigits radix values.reverse = accumulate radix 0 values := by
  have order : (fun value d => d + radix * value) = fun value d => radix * value + d := by
    funext value d
    exact Nat.add_comm _ _
  rw [Nat.ofDigits_eq_foldr, List.foldr_reverse, accumulate, ← order]
  rfl

theorem le_accumulate (positive : 0 < radix) (value : Nat) (values : List Nat) :
    value ≤ accumulate radix value values := by
  induction values generalizing value with
  | nil => exact Nat.le_refl _
  | cons d values ih =>
    calc value ≤ radix * value := Nat.le_mul_of_pos_left value positive
      _ ≤ radix * value + d := Nat.le_add_right _ _
      _ ≤ accumulate radix (radix * value + d) values := ih _

/-- Digits are read to the end unless the number that they stand for is too large. A part of them
that is too large is refused at once, as the whole is too large then. -/
theorem readFrom_of_forall₂ (hex : radix ≤ 16) {text : List Char} {values : List Nat}
    (figures : List.Forall₂ (Figure radix) text values) {value : Nat} (room : value < bound) :
    readFrom radix bound value text =
      if accumulate radix value values < bound then .ok (accumulate radix value values)
      else .error .tooLarge := by
  induction figures generalizing value with
  | nil => exact (if_pos room).symm
  | @cons c d text values figure figures ih =>
    have positive : 0 < radix := Nat.lt_of_le_of_lt (Nat.zero_le d) figure.2
    have whole : accumulate radix value (d :: values) =
        accumulate radix (radix * value + d) values := rfl
    rw [readFrom, (digit?_eq_some_iff hex).mpr figure, whole]
    dsimp only
    by_cases below : radix * value + d < bound
    · rw [if_pos below, ih below]
    · have grown := le_accumulate positive (radix * value + d) values
      rw [if_neg below, if_neg (by omega)]

theorem readFrom_of_writes (hex : radix ≤ 16) (room : 0 < bound) {text : List Char} {value : Nat}
    (writes : Writes radix text value) :
    readFrom radix bound 0 text = if value < bound then .ok value else .error .tooLarge := by
  obtain ⟨values, figures, rfl⟩ := writes
  rw [ofDigits_reverse, readFrom_of_forall₂ hex figures room]

theorem exists_writes (radix : Nat) (text : List Char) :
    (∃ value, Writes radix text value) ∨
    ∃ front c back value, text = front ++ c :: back ∧ Writes radix front value ∧
      ∀ d, ¬ Figure radix c d := by
  induction text with
  | nil => exact .inl ⟨0, [], .nil, rfl⟩
  | cons c text ih =>
    by_cases figure : ∃ d, Figure radix c d
    · obtain ⟨d, figure⟩ := figure
      rcases ih with ⟨_, values, figures, -⟩ | ⟨front, e, back, _, rfl, ⟨values, figures, -⟩, bad⟩
      · exact .inl ⟨_, d :: values, .cons figure figures, rfl⟩
      · exact .inr ⟨c :: front, e, back, _, rfl, ⟨d :: values, .cons figure figures, rfl⟩, bad⟩
    · exact .inr ⟨[], c, text, 0, rfl, ⟨[], .nil, rfl⟩, not_exists.mp figure⟩

/-! ## Reading -/

theorem readFrom_of_tooLarge (hex : radix ≤ 16) (room : 0 < bound) {front : List Char}
    (back : List Char) {value : Nat} (writes : Writes radix front value) (large : bound ≤ value) :
    readFrom radix bound 0 (front ++ back) = .error .tooLarge := by
  rw [readFrom_append, readFrom_of_writes hex room writes, if_neg (Nat.not_lt.mpr large)]
  rfl

theorem readFrom_of_badDigit (hex : radix ≤ 16) (room : 0 < bound) {front : List Char} {c : Char}
    (back : List Char) {value : Nat} (writes : Writes radix front value) (fits : value < bound)
    (bad : ∀ d, ¬ Figure radix c d) :
    readFrom radix bound 0 (front ++ c :: back) = .error .badDigit := by
  rw [readFrom_append, readFrom_of_writes hex room writes, if_pos fits, Except.bind, readFrom,
    (digit?_eq_none_iff hex).mpr bad]

theorem read_of_ne_nil {text : List Char} (filled : text ≠ []) :
    read radix bound text = readFrom radix bound 0 text := by
  rw [read, if_neg (by simpa using filled)]

theorem Reads.read_eq (hex : radix ≤ 16) (room : 0 < bound) {text : List Char}
    {result : Except ReadFault Nat} (reads : Reads radix bound text result) :
    read radix bound text = result := by
  cases reads with
  | empty => rfl
  | value filled writes fits =>
    rw [read_of_ne_nil filled, readFrom_of_writes hex room writes, if_pos fits]
  | @tooLarge front value back writes ends large =>
    have filled : front ++ back ≠ [] := by
      rintro empty
      rw [(List.append_eq_nil_iff.mp empty).1] at writes
      obtain ⟨_, ⟨⟩, rfl⟩ := writes
      exact absurd room (Nat.not_lt.mpr large)
    rw [read_of_ne_nil filled, readFrom_of_tooLarge hex room back writes large]
  | badDigit back writes fits bad =>
    rw [read_of_ne_nil (by simp), readFrom_of_badDigit hex room back writes fits bad]

theorem reads_read (hex : radix ≤ 16) (room : 0 < bound) (text : List Char) :
    Reads radix bound text (read radix bound text) := by
  suffices decided : ∃ result, Reads radix bound text result by
    obtain ⟨result, reads⟩ := decided
    rwa [reads.read_eq hex room]
  by_cases filled : text = []
  · subst filled
    exact ⟨_, .empty⟩
  · rcases exists_writes radix text with ⟨value, writes⟩ | ⟨front, c, back, value, rfl, writes, bad⟩
    · rcases Nat.lt_or_ge value bound with fits | large
      · exact ⟨_, .value filled writes fits⟩
      · refine ⟨.error .tooLarge, ?_⟩
        have whole := Reads.tooLarge [] writes nofun large
        rwa [List.append_nil] at whole
    · rcases Nat.lt_or_ge value bound with fits | large
      · exact ⟨_, .badDigit back writes fits bad⟩
      · refine ⟨_, .tooLarge (c :: back) writes ?_ large⟩
        rintro _ ⟨⟩
        exact bad

/-- Reading a text comes to a result just if the rules of its digits say so. -/
theorem read_eq_iff (hex : radix ≤ 16) (room : 0 < bound) {text : List Char}
    {result : Except ReadFault Nat} :
    read radix bound text = result ↔ Reads radix bound text result := by
  constructor
  · rintro rfl
    exact reads_read hex room text
  · exact Reads.read_eq hex room

end Gumnut.Radix
