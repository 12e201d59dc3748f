import Gumnut.Proofs.Grammar
import Gumnut.Proofs.Magnitudes

/-!
# The grammar of numeric literals

A numeric literal, said by rules: an optional sign, an optional mark of the base, and one or more
digits of that base, with a magnitude of 32 bits. Reading a text without a point or a comma gives
its value if it is a literal; otherwise what is wrong with its digits, up to the first character
that is none, decides about the fault.
-/
set_option autoImplicit false

namespace Gumnut.Numeral

inductive Signed : List Char → Bool → List Char → Prop
  | minus (rest : List Char) : Signed ('-' :: rest) true rest
  | plus (rest : List Char) : Signed ('+' :: rest) false rest
  | plain {text : List Char} (unsigned : ∀ c ∈ text.head?, c ≠ '-' ∧ c ≠ '+') :
      Signed text false text

inductive Marked : List Char → Base → List Char → Prop
  | hexadecimal {x : Char} (mark : x = 'x' ∨ x = 'X') (rest : List Char) :
      Marked ('0' :: x :: rest) .hexadecimal rest
  | binary {b : Char} (mark : b = 'b' ∨ b = 'B') (rest : List Char) :
      Marked ('0' :: b :: rest) .binary rest
  | decimal {text : List Char}
      (unmarked : ∀ c rest, text = '0' :: c :: rest → c ∉ ['x', 'X', 'b', 'B']) :
      Marked text .decimal text

inductive Blamed : Base → Radix.ReadFault → LexicalFault → Prop
  | tooLarge (base : Base) : Blamed base .tooLarge .doesNotFit
  | badHexDigit : Blamed .hexadecimal .badDigit .badHexDigit
  | noHexDigits : Blamed .hexadecimal .empty .missingHexDigits
  | badBinaryDigit : Blamed .binary .badDigit .badBinaryDigit
  | noBinaryDigits : Blamed .binary .empty .missingBinaryDigits
  | badDecimalDigit : Blamed .decimal .badDigit .badDecimalDigit
  | noDecimalDigits : Blamed .decimal .empty .badDecimalDigit

inductive Literal (text : List Char) (v : UInt32) : Prop
  | mk {negative : Bool} {unsigned digits : List Char} {base : Base} {m : Nat}
      (signed : Signed text negative unsigned) (marked : Marked unsigned base digits)
      (filled : digits ≠ []) (writes : Radix.Writes base.radix digits m)
      (fits : m < UInt32.size)
      (value : (v.toNat : ℤ) = if negative then -(m : ℤ) % 256 else m)

/-- A text is no literal, with the fault that tells why. -/
inductive Misspelled (text : List Char) (fault : LexicalFault) : Prop
  | mk {negative : Bool} {unsigned digits : List Char} {base : Base} {reason : Radix.ReadFault}
      (signed : Signed text negative unsigned) (marked : Marked unsigned base digits)
      (refused : Radix.Reads base.radix UInt32.size digits (.error reason))
      (blamed : Blamed base reason fault)

variable {text unsigned digits : List Char} {base : Base} {negative : Bool}

/-! ## Signs and bases -/

theorem exists_signed (text : List Char) : ∃ negative unsigned, Signed text negative unsigned := by
  cases text with
  | nil => exact ⟨false, [], .plain nofun⟩
  | cons c rest =>
    by_cases minus : c = '-'
    · exact ⟨true, rest, minus ▸ .minus rest⟩
    · by_cases plus : c = '+'
      · exact ⟨false, rest, plus ▸ .plus rest⟩
      · refine ⟨false, c :: rest, .plain ?_⟩
        rintro _ ⟨⟩
        exact ⟨minus, plus⟩

theorem marked_split (text : List Char) :
    Marked text (Base.split text).1 (Base.split text).2 := by
  fun_cases Base.split text with
  | case1 digits => exact .hexadecimal (.inl rfl) digits
  | case2 digits => exact .hexadecimal (.inr rfl) digits
  | case3 digits => exact .binary (.inl rfl) digits
  | case4 digits => exact .binary (.inr rfl) digits
  | case5 _ lower upper lower' upper' =>
    refine .decimal ?_
    rintro c rest rfl mark
    simp only [List.mem_cons, List.not_mem_nil, or_false] at mark
    rcases mark with rfl | rfl | rfl | rfl
    · exact lower rest rfl
    · exact upper rest rfl
    · exact lower' rest rfl
    · exact upper' rest rfl

theorem split_of_marked (marked : Marked text base digits) : Base.split text = (base, digits) := by
  cases marked with
  | hexadecimal mark rest => rcases mark with rfl | rfl <;> rfl
  | binary mark rest => rcases mark with rfl | rfl <;> rfl
  | decimal unmarked =>
    rw [Base.split]
    all_goals
      intro rest same
      exact absurd (by decide) (unmarked _ rest same)

theorem blamed_iff {reason : Radix.ReadFault} {fault : LexicalFault} :
    Blamed base reason fault ↔ base.fault reason = fault := by
  constructor
  · intro blamed
    cases blamed with
    | tooLarge => cases base <;> rfl
    | _ => rfl
  · rintro rfl
    cases base <;> cases reason <;> constructor

theorem radix_le (base : Base) : base.radix ≤ 16 := by
  cases base <;> decide

/-! ## Reading -/

/-- A text with a point or a comma is not looked at any further. -/
def IsPlain (text : List Char) : Prop :=
  '.' ∉ text ∧ ',' ∉ text

theorem ofText_of_not_isPlain (pointed : ¬ IsPlain text) : ofText text = .ok .notANumber := by
  have point : (text.contains '.' || text.contains ',') = true := by
    simp only [Bool.or_eq_true, List.contains_iff_mem]
    by_contra none
    exact pointed (not_or.mp none)
  unfold ofText
  exact if_pos point

theorem ofText_of_parts (plain : IsPlain text) (signed : Signed text negative unsigned)
    (marked : Marked unsigned base digits) :
    ofText text =
      match Radix.read base.radix UInt32.size digits with
      | .ok m =>
        .ok (.value (if negative then negatedByte (UInt32.ofNat m) else UInt32.ofNat m))
      | .error reason => .error (base.fault reason) := by
  have pointless : ¬ (text.contains '.' || text.contains ',') = true := by
    simp only [Bool.or_eq_true, List.contains_iff_mem]
    exact not_or.mpr plain
  have reads : magnitude unsigned =
      match Radix.read base.radix UInt32.size digits with
      | .ok m => .ok (UInt32.ofNat m)
      | .error reason => .error (base.fault reason) := by
    cases result : Radix.read base.radix UInt32.size digits with
    | ok m | error reason => simp only [magnitude, split_of_marked marked, result]
  cases signed with
  | minus rest =>
    rw [ofText, if_neg pointless, reads]
    cases Radix.read base.radix UInt32.size digits <;> rfl
  | plus rest =>
    rw [ofText, if_neg pointless, reads]
    cases Radix.read base.radix UInt32.size digits <;> rfl
  | plain unsigned =>
    rw [ofText, if_neg pointless, reads]
    · cases Radix.read base.radix UInt32.size digits <;> rfl
    · rintro rest rfl
      exact (unsigned '-' rfl).1 rfl
    · rintro rest rfl
      exact (unsigned '+' rfl).2 rfl

theorem toNat_signed (negative : Bool) {m : Nat} (fits : m < UInt32.size) :
    ((if negative then negatedByte (UInt32.ofNat m) else UInt32.ofNat m).toNat : ℤ) =
      if negative then -(m : ℤ) % 256 else m := by
  have small : (UInt32.ofNat m).toNat = m := UInt32.toNat_ofNat_of_lt' fits
  cases negative with
  | true => rw [if_pos rfl, if_pos rfl, toNat_negatedByte, small]
  | false => rw [if_neg nofun, if_neg nofun, small]

theorem ofText_of_literal {v : UInt32} (plain : IsPlain text) (literal : Literal text v) :
    ofText text = .ok (.value v) := by
  obtain ⟨signed, marked, filled, writes, fits, value⟩ := literal
  rename_i negative unsigned digits base m
  have reads : Radix.read base.radix UInt32.size digits = .ok m :=
    (Radix.Reads.value filled writes fits).read_eq (radix_le base) (by decide)
  have same := toNat_signed negative fits
  rw [← value, Int.natCast_inj, UInt32.toNat_inj] at same
  rw [ofText_of_parts plain signed marked, reads]
  dsimp only
  rw [same]

theorem ofText_of_misspelled {fault : LexicalFault} (plain : IsPlain text)
    (misspelled : Misspelled text fault) : ofText text = .error fault := by
  obtain ⟨signed, marked, refused, blamed⟩ := misspelled
  rename_i negative unsigned digits base reason
  rw [ofText_of_parts plain signed marked, refused.read_eq (radix_le base) (by decide)]
  exact congrArg Except.error (blamed_iff.mp blamed)

/-- Every text is a literal or has a fault, and with a fault it is none. -/
theorem literal_or_misspelled (text : List Char) :
    (∃ v, Literal text v) ∨ ∃ fault, Misspelled text fault := by
  obtain ⟨negative, unsigned, signed⟩ := exists_signed text
  have marked := marked_split unsigned
  generalize Base.split unsigned = apart at marked
  obtain ⟨base, digits⟩ := apart
  have room : 0 < UInt32.size := by decide
  cases result : Radix.read base.radix UInt32.size digits with
  | error reason =>
    have refused := (Radix.read_eq_iff (radix_le base) room).mp result
    exact .inr ⟨_, .mk signed marked refused (blamed_iff.mpr rfl)⟩
  | ok m =>
    cases (Radix.read_eq_iff (radix_le base) room).mp result with
    | value filled writes fits =>
      exact .inl ⟨_, .mk signed marked filled writes fits (toNat_signed negative fits)⟩

theorem ofText_eq_notANumber_iff : ofText text = .ok .notANumber ↔ ¬ IsPlain text := by
  constructor
  · intro read plain
    rcases literal_or_misspelled text with ⟨v, literal⟩ | ⟨fault, misspelled⟩
    · rw [ofText_of_literal plain literal] at read
      cases read
    · rw [ofText_of_misspelled plain misspelled] at read
      cases read
  · exact ofText_of_not_isPlain

theorem isPlain_of_ofText (read : ofText text ≠ .ok .notANumber) : IsPlain text := by
  by_contra pointed
  exact read (ofText_of_not_isPlain pointed)

theorem ofText_eq_value_iff {v : UInt32} :
    ofText text = .ok (.value v) ↔ IsPlain text ∧ Literal text v := by
  constructor
  · intro read
    have plain : IsPlain text := isPlain_of_ofText (by simp [read])
    rcases literal_or_misspelled text with ⟨v', literal⟩ | ⟨fault, misspelled⟩
    · rw [ofText_of_literal plain literal] at read
      cases read
      exact ⟨plain, literal⟩
    · rw [ofText_of_misspelled plain misspelled] at read
      cases read
  · exact fun ⟨plain, literal⟩ => ofText_of_literal plain literal

theorem ofText_eq_error_iff {fault : LexicalFault} :
    ofText text = .error fault ↔ IsPlain text ∧ Misspelled text fault := by
  constructor
  · intro read
    have plain : IsPlain text := isPlain_of_ofText (by simp [read])
    rcases literal_or_misspelled text with ⟨v, literal⟩ | ⟨fault', misspelled⟩
    · rw [ofText_of_literal plain literal] at read
      cases read
    · rw [ofText_of_misspelled plain misspelled] at read
      cases read
      exact ⟨plain, misspelled⟩
  · exact fun ⟨plain, misspelled⟩ => ofText_of_misspelled plain misspelled

/-- Reading a text follows the grammar of numeric literals: a point or a comma makes it no number,
a literal has its value, and every other text has the fault that its digits tell; that it could not
be read for no reason is never told. -/
theorem ofText_by_grammar (text : List Char) :
    (ofText text = .ok .notANumber ↔ '.' ∈ text ∨ ',' ∈ text) ∧
    (∀ v, ofText text = .ok (.value v) ↔ ('.' ∉ text ∧ ',' ∉ text) ∧ Literal text v) ∧
    (∀ fault, ofText text = .error fault ↔
      ('.' ∉ text ∧ ',' ∉ text) ∧ Misspelled text fault) ∧
    ofText text ≠ .error .unreadableNumeral := by
  refine ⟨?_, fun v => ofText_eq_value_iff, fun fault => ofText_eq_error_iff, ?_⟩
  · rw [ofText_eq_notANumber_iff, IsPlain, ← not_or, not_not]
  · intro read
    obtain ⟨-, ⟨-, -, -, blamed⟩⟩ := ofText_eq_error_iff.mp read
    cases blamed

/-- Too many digits are told before the bad one behind them, and a second sign is a bad digit. -/
example : ofText "0x100000000Q".toList = .error .doesNotFit ∧
    ofText "-0xEE".toList = .ok (.value 18) ∧ ofText "+-1".toList = .error .badDecimalDigit := by
  decide

end Gumnut.Numeral
