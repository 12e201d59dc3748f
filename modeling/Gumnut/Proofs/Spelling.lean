import Gumnut.Proofs.Digits
import Gumnut.Proofs.Grammar

/-!
# Spelled tokens

Text that is put together from words and symbols, and the tokens that it spells. A word ends where
the next character does not go on in it, and a sign stands for itself unless a digit follows. What
is spelled in this way is read back as its tokens.
-/
set_option autoImplicit false

namespace Gumnut

namespace WordChar

theorem code_of_isNameStart {c : Char} (opens : isNameStart c = true) :
    57 < c.toNat ∧ c.toNat < 128 := by
  have ranges : (decide (65 ≤ c.toNat ∧ c.toNat ≤ 90) ||
      (decide (97 ≤ c.toNat) && decide (c.toNat ≤ 122)) || c == '_') = true := opens
  simp only [Bool.or_eq_true, Bool.and_eq_true, decide_eq_true_eq, beq_iff_eq] at ranges
  rcases ranges with (upper | lower) | rfl
  · omega
  · omega
  · decide

theorem not_isDigit_of_isNameStart {c : Char} (opens : isNameStart c = true) :
    isDigit c = false := by
  obtain ⟨above, below⟩ := code_of_isNameStart opens
  have ascii : CodePoint.isAscii c = true := decide_eq_true below
  rw [isDigit, if_pos ascii, Bool.eq_false_iff]
  simp only [Char.isDigit, ne_eq, Bool.and_eq_true, decide_eq_true_eq, ge_iff_le,
    UInt32.le_iff_toNat_le]
  exact fun within => absurd within.2 (Nat.not_le.mpr above)

end WordChar

namespace Token

def Ends (rest : List Char) : Prop :=
  ∀ c ∈ rest.head?, isTail c = false

/-- A name, a register or a numeral without a sign, as a word that spells it. -/
inductive IsWord : List Char → Token → Prop
  | mk {c : Char} {tail : List Char} {token : Token}
      (opens : WordChar.isNameStart c = true ∨ WordChar.isDigit c = true)
      (goesOn : ∀ d ∈ tail, isTail d = true) (lexed : ofLexeme c tail = .ok token) :
      IsWord (c :: tail) token

theorem IsWord.isTail {word : List Char} {token : Token} (spelled : IsWord word token) :
    ∀ c ∈ word, isTail c = true := by
  cases spelled with
  | mk opens goesOn lexed =>
    rw [List.forall_mem_cons]
    refine ⟨?_, goesOn⟩
    rw [Token.isTail, Bool.or_eq_true]
    rcases opens with name | digit
    · exact .inl (WordChar.isWord_of_isNameStart name)
    · exact .inl (WordChar.isWord_of_isDigit digit)

end Token

inductive Spells : List Char → List Token → Prop
  | nil : Spells [] []
  | space {rest : List Char} {tokens : List Token} (more : Spells rest tokens) :
      Spells (' ' :: rest) tokens
  | word {word rest : List Char} {token : Token} {tokens : List Token}
      (spelled : Token.IsWord word token) (ends : Token.Ends rest) (more : Spells rest tokens) :
      Spells (word ++ rest) (token :: tokens)
  | symbol {c : Char} {rest : List Char} {token : Token} {tokens : List Token}
      (symbol : Token.ofSymbol c = .ok token) (apart : rest.head?.any WordChar.isDigit = false)
      (more : Spells rest tokens) : Spells (c :: rest) (token :: tokens)

/-! ## What is spelled is read -/

namespace Lexeme

variable {c : Char} {rest : List Char} {token : Token}

theorem not_isBlank_of_opens (opens : WordChar.isNameStart c = true ∨ WordChar.isDigit c = true) :
    isBlank c = false ∧ c ≠ ';' := by
  constructor
  · by_contra blank
    simp only [isBlank, Bool.not_eq_false, Bool.or_eq_true, beq_iff_eq] at blank
    rcases blank with ((rfl | rfl) | rfl) | rfl
    all_goals exact absurd opens (by decide)
  · rintro rfl
    exact absurd opens (by decide)

theorem takeWhile_isTail {tail : List Char} (goesOn : ∀ d ∈ tail, Token.isTail d = true)
    (ends : Token.Ends rest) :
    (tail ++ rest).takeWhile Token.isTail = tail ∧
      (tail ++ rest).dropWhile Token.isTail = rest := by
  rw [List.takeWhile_append_of_pos goesOn, List.dropWhile_append_of_pos goesOn]
  cases rest with
  | nil => simp
  | cons d rest =>
    have other : ¬ Token.isTail d = true := Bool.eq_false_iff.mp (ends d rfl)
    rw [List.takeWhile_cons_of_neg other, List.dropWhile_cons_of_neg other, List.append_nil]
    exact ⟨rfl, rfl⟩

theorem exists_scan_word (start : Nat) {word : List Char} (spelled : Token.IsWord word token)
    (ends : Token.Ends rest) :
    ∃ span next, scan start (word ++ rest) = ⟨span, .ok token⟩ :: scan next rest := by
  cases spelled with
  | @mk c tail _ opens tailed lexed =>
    obtain ⟨filled, other⟩ := not_isBlank_of_opens opens
    have goes : goesOn c (tail ++ rest) = Token.isTail := by
      rw [goesOn, if_neg other, if_pos]
      rcases opens with name | digit
      · simp [name]
      · simp [digit]
    obtain ⟨taken, dropped⟩ := takeWhile_isTail tailed ends
    rw [List.cons_append, scan_cons, if_neg (Bool.eq_false_iff.mp filled)]
    simp only [goes, taken, dropped, lexed]
    exact ⟨_, _, rfl⟩

theorem ofLexeme_of_ofSymbol (symbol : Token.ofSymbol c = .ok token) :
    isBlank c = false ∧ c ≠ ';' ∧ (WordChar.isNameStart c || WordChar.isDigit c) = false ∧
      Token.ofLexeme c [] = .ok token := by
  revert symbol
  fun_cases Token.ofSymbol c with
  | case7 =>
    intro symbol
    cases symbol
  | _ =>
    rename_i same
    intro symbol
    cases symbol
    subst same
    decide

theorem exists_scan_symbol (start : Nat) (symbol : Token.ofSymbol c = .ok token)
    (apart : rest.head?.any WordChar.isDigit = false) :
    ∃ span next, scan start (c :: rest) = ⟨span, .ok token⟩ :: scan next rest := by
  obtain ⟨filled, other, opens, lexed⟩ := ofLexeme_of_ofSymbol symbol
  have goes : goesOn c rest = fun _ => false := by
    rw [goesOn, if_neg other, if_neg]
    simp [opens, apart]
  have taken : rest.takeWhile (fun _ => false) = [] := by cases rest <;> rfl
  have dropped : rest.dropWhile (fun _ => false) = rest := by cases rest <;> rfl
  rw [scan_cons, if_neg (Bool.eq_false_iff.mp filled)]
  simp only [goes, taken, dropped, lexed]
  exact ⟨_, _, rfl⟩

end Lexeme

namespace Spells

variable {text : List Char} {tokens : List Token}

theorem map_reading_scan (spells : Spells text tokens) (start : Nat) :
    (Lexeme.scan start text).map Lexeme.reading = tokens.map .ok := by
  induction spells generalizing start with
  | nil => rw [Lexeme.scan]; rfl
  | space more ih => rw [Lexeme.scan_cons, if_pos (by decide), ih]
  | word spelled ends more ih =>
    obtain ⟨span, next, scanned⟩ := Lexeme.exists_scan_word start spelled ends
    rw [scanned, List.map_cons, ih, List.map_cons]
  | symbol symbol apart more ih =>
    obtain ⟨span, next, scanned⟩ := Lexeme.exists_scan_symbol start symbol apart
    rw [scanned, List.map_cons, ih, List.map_cons]

theorem comment_not_mem (spells : Spells text tokens) : .comment ∉ tokens := by
  induction spells with
  | nil => exact List.not_mem_nil
  | space more ih => exact ih
  | word spelled ends more ih =>
    rw [List.mem_cons, not_or]
    refine ⟨?_, ih⟩
    rintro rfl
    cases spelled with
    | mk opens tailed lexed =>
      cases Token.reads_of_ofLexeme lexed with
      | comment opening => exact (Lexeme.not_isBlank_of_opens opens).2 opening
      | symbol symbol => simp at symbol
  | symbol symbol apart more ih =>
    rw [List.mem_cons, not_or]
    refine ⟨?_, ih⟩
    rintro rfl
    exact absurd (Token.mem_of_ofSymbol symbol) (by decide)

theorem not_isFeed_of_mem (spells : Spells text tokens) :
    ∀ c ∈ text, c ≠ '\n' ∧ c ≠ '\r' := by
  induction spells with
  | nil => exact nofun
  | space more ih =>
    rw [List.forall_mem_cons]
    exact ⟨by decide, ih⟩
  | word spelled ends more ih =>
    rw [List.forall_mem_append]
    refine ⟨fun c member => ?_, ih⟩
    have goesOn := spelled.isTail c member
    constructor
    · rintro rfl
      exact absurd goesOn (by decide)
    · rintro rfl
      exact absurd goesOn (by decide)
  | symbol symbol apart more ih =>
    rw [List.forall_mem_cons]
    refine ⟨?_, ih⟩
    constructor
    · rintro rfl
      cases symbol
    · rintro rfl
      cases symbol

end Spells

theorem pieces_of_readings {lexemes : List Lexeme} {tokens : List Token} (line : List Char)
    (readings : lexemes.map Lexeme.reading = tokens.map .ok) (plain : .comment ∉ tokens) :
    lexemes.filterMap Lexeme.fault? = [] ∧
      (lexemes.filterMap (Lexeme.piece? line)).map Piece.token = tokens := by
  induction tokens generalizing lexemes with
  | nil =>
    rw [List.map_nil, List.map_eq_nil_iff] at readings
    rw [readings]
    exact ⟨rfl, rfl⟩
  | cons token tokens ih =>
    obtain ⟨lexeme, rest, rfl, reading, later⟩ := List.map_eq_cons_iff.mp readings
    rw [List.mem_cons, not_or] at plain
    obtain ⟨other, plain⟩ := plain
    obtain ⟨sound, same⟩ := ih later plain
    have own : lexeme.fault? = none := by rw [Lexeme.fault?, reading]
    have piece : lexeme.piece? line = some ⟨token, lexeme.span.text line⟩ := by
      unfold Lexeme.piece?
      rw [reading]
      cases token with
      | comment => exact absurd rfl other
      | _ => rfl
    rw [List.filterMap_cons_none own, List.filterMap_cons_some piece, List.map_cons, same]
    exact ⟨sound, rfl⟩

/-- A text that spells a line of the grammar is read as its record. -/
theorem Line.parse_of_spells {text : List Char} {tokens : List Token} {record : Line}
    (spells : Spells text tokens) (sentence : Grammar.Sentence tokens record) :
    parse text = .ok record := by
  obtain ⟨sound, same⟩ :=
    pieces_of_readings text (spells.map_reading_scan 0) spells.comment_not_mem
  have tokens' : (pieces text).map Piece.token = tokens := same
  rw [parse_eq_ok_iff, tokens']
  exact ⟨sound, sentence⟩

/-! ## Words -/

namespace Token

theorem ends_nil : Ends [] := nofun

theorem ends_cons {c : Char} (rest : List Char) (stop : isTail c = false) : Ends (c :: rest) := by
  rintro d ⟨⟩
  exact stop

theorem isWord_name {word : List Char} (opens : word.head?.any WordChar.isNameStart = true)
    (goesOn : word.all isTail = true) (plain : isRegister word = false) :
    IsWord word (.name (String.ofList word)) := by
  cases word with
  | nil => cases opens
  | cons c tail =>
    have opens : WordChar.isNameStart c = true := opens
    rw [List.all_cons, Bool.and_eq_true, List.all_eq_true] at goesOn
    have other := (Lexeme.not_isBlank_of_opens (.inl opens)).2
    have unsigned : isSign c = false := by
      rw [Bool.eq_false_iff, isSign]
      intro sign
      rw [Bool.or_eq_true, beq_iff_eq, beq_iff_eq] at sign
      rcases sign with rfl | rfl
      · exact absurd opens (by decide)
      · exact absurd opens (by decide)
    refine .mk (.inl opens) goesOn.2 ?_
    simp [ofLexeme, other, WordChar.not_isDigit_of_isNameStart opens, unsigned, opens, plain]

theorem isWord_numeral {c : Char} {tail : List Char} {n : Numeral}
    (digit : WordChar.isDigit c = true) (goesOn : ∀ d ∈ tail, isTail d = true)
    (reads : Numeral.ofText (c :: tail) = .ok n) : IsWord (c :: tail) (.numeral n) := by
  refine .mk (.inr digit) goesOn ?_
  have other := (Lexeme.not_isBlank_of_opens (.inr digit)).2
  simp [ofLexeme, other, digit, reads, Except.map]

theorem isTail_digitChar {d : Nat} (small : d < 16) : isTail (Nat.digitChar d) = true := by
  interval_cases d <;> decide

theorem isDigit_digitChar {d : Nat} (small : d < 10) :
    WordChar.isDigit (Nat.digitChar d) = true := by
  interval_cases d <;> decide

end Token

namespace Numeral

theorem ofText_of_unsigned {text : List Char} (unsigned : ∀ c ∈ text, c ∉ ['.', ',', '-', '+']) :
    ofText text = (magnitude text).map value := by
  have pointless : ¬ (text.contains '.' || text.contains ',') = true := by
    rw [Bool.or_eq_true, List.contains_iff_mem, List.contains_iff_mem]
    rintro (point | comma)
    · exact unsigned _ point (by decide)
    · exact unsigned _ comma (by decide)
  rw [ofText, if_neg pointless]
  · rintro rest rfl
    exact absurd (by decide) (unsigned '-' List.mem_cons_self)
  · rintro rest rfl
    exact absurd (by decide) (unsigned '+' List.mem_cons_self)

theorem ofText_of_magnitude (base : Base) {text digits : List Char} {value : Nat}
    (unsigned : ∀ c ∈ text, c ∉ ['.', ',', '-', '+']) (announced : Base.split text = (base, digits))
    (reads : Radix.read base.radix UInt32.size digits = .ok value) :
    ofText text = .ok (.value (UInt32.ofNat value)) := by
  rw [ofText_of_unsigned unsigned, magnitude, announced]
  simp only [reads, Except.map]

theorem plain_digitChar {d : Nat} (small : d < 16) :
    Nat.digitChar d ∉ ['.', ',', '-', '+'] := by
  interval_cases d <;> decide

theorem split_digits (value : Nat) :
    Base.split (Radix.digits 10 value) = (.decimal, Radix.digits 10 value) := by
  have decimal : ∀ c ∈ Radix.digits 10 value, c ∉ ['x', 'X', 'b', 'B'] := by
    intro c member
    obtain ⟨d, small, rfl⟩ := Radix.exists_digitChar_of_mem_digits value (by decide) member
    interval_cases d <;> decide
  have second : ∀ {c rest}, Radix.digits 10 value = '0' :: c :: rest →
      c ∉ ['x', 'X', 'b', 'B'] := by
    intro c rest same
    exact decimal c (same ▸ List.mem_cons_of_mem _ List.mem_cons_self)
  rw [Base.split]
  all_goals exact fun rest same => absurd (by decide) (second same)

end Numeral

theorem Reg.toList_text (r : Reg) : r.text.toList = 'r' :: Radix.digits 10 r.val := by
  simp [text, Radix.decimal]

namespace Token

theorem isWord_decimal {value : Nat} (small : value < UInt32.size) :
    IsWord (Radix.decimal value).toList (.numeral (.value (UInt32.ofNat value))) := by
  have digit : ∀ c ∈ Radix.digits 10 value, ∃ d < 10, c = Nat.digitChar d :=
    fun c => Radix.exists_digitChar_of_mem_digits value (by decide)
  have unsigned : ∀ c ∈ Radix.digits 10 value, c ∉ ['.', ',', '-', '+'] := by
    intro c member
    obtain ⟨d, below, rfl⟩ := digit c member
    exact Numeral.plain_digitChar (Nat.lt_trans below (by decide))
  have reads : Radix.read 10 UInt32.size (Radix.digits 10 value) = .ok value := by
    rw [Radix.read, if_neg (by simp [Radix.digits_ne_nil]),
      Radix.readFrom_digits value (by decide) (by decide), if_pos small]
  have whole := Numeral.ofText_of_magnitude .decimal unsigned (Numeral.split_digits value) reads
  rw [Radix.decimal, String.toList_ofList]
  cases spelled : Radix.digits 10 value with
  | nil => exact absurd spelled (Radix.digits_ne_nil value)
  | cons c tail =>
    rw [spelled, List.forall_mem_cons] at digit
    rw [spelled] at whole
    obtain ⟨⟨d, below, rfl⟩, later⟩ := digit
    refine isWord_numeral (isDigit_digitChar below) (fun e member => ?_) whole
    obtain ⟨d', below', rfl⟩ := later e member
    exact isTail_digitChar (Nat.lt_trans below' (by decide))

theorem isWord_hexadecimal {value : Nat} (width : Nat) (small : value < UInt32.size) :
    IsWord (Radix.hexadecimal width value).toList
      (.numeral (.value (UInt32.ofNat value))) := by
  have digit : ∀ c ∈ Radix.padded 16 width value, ∃ d < 16, c = Nat.digitChar d :=
    fun c => Radix.exists_digitChar_of_mem_padded (by decide)
  have unsigned : ∀ c ∈ '0' :: 'x' :: Radix.padded 16 width value,
      c ∉ ['.', ',', '-', '+'] := by
    rw [List.forall_mem_cons, List.forall_mem_cons]
    refine ⟨by decide, by decide, fun c member => ?_⟩
    obtain ⟨d, below, rfl⟩ := digit c member
    exact Numeral.plain_digitChar below
  have reads : Radix.read 16 UInt32.size (Radix.padded 16 width value) = .ok value := by
    rw [Radix.read_padded width value (by decide) (by decide) (by decide), if_pos small]
  have whole := Numeral.ofText_of_magnitude .hexadecimal unsigned rfl reads
  have spelled : (Radix.hexadecimal width value).toList =
      '0' :: 'x' :: Radix.padded 16 width value := by
    simp [Radix.hexadecimal]
  rw [spelled]
  refine isWord_numeral (by decide) ?_ whole
  rw [List.forall_mem_cons]
  refine ⟨by decide, fun c member => ?_⟩
  obtain ⟨d, below, rfl⟩ := digit c member
  exact isTail_digitChar below

theorem isWord_register (r : Reg) : IsWord r.text.toList (.register r) := by
  have lexed : ∀ r : Reg, ofLexeme 'r' (Radix.digits 10 r.val) = .ok (.register r) := by decide
  rw [Reg.toList_text]
  refine .mk (.inl (by decide)) (fun c member => ?_) (lexed r)
  obtain ⟨d, below, rfl⟩ := Radix.exists_digitChar_of_mem_digits r.val (by decide) member
  exact isTail_digitChar (Nat.lt_trans below (by decide))

theorem isWord_operation (operation : Operation) :
    IsWord operation.text.toList (.name operation.text) := by
  have spelled : (operation.text.toList.head?.any WordChar.isNameStart &&
      operation.text.toList.all isTail && !isRegister operation.text.toList) = true := by
    rcases operation with op | op | op | op | op | op
    all_goals cases op <;> decide +kernel
  rw [Bool.and_eq_true, Bool.and_eq_true, Bool.not_eq_true'] at spelled
  have word := isWord_name spelled.1.1 spelled.1.2 spelled.2
  rwa [String.ofList_toList] at word

end Token

namespace Spells

variable {word rest : List Char} {token : Token} {tokens : List Token}

theorem last (spelled : Token.IsWord word token) : Spells word [token] := by
  have spells := Spells.word spelled Token.ends_nil .nil
  rwa [List.append_nil] at spells

theorem item (spelled : Token.IsWord word token) (more : Spells rest tokens) :
    Spells (word ++ ',' :: ' ' :: rest) (token :: .comma :: tokens) :=
  .word spelled (Token.ends_cons _ (by decide)) (.symbol rfl rfl more.space)

end Spells

end Gumnut
