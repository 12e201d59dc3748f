import Gumnut.Proofs.Partition
import Gumnut.Proofs.Reassembly

/-!
# Records written as source

The text of a record is a line again. Its names were read from words, which the reader takes whole
wherever they stand alone; its numbers are written in hexadecimal, and an indexed operand as two.
So a record that was read from a line, if all its numerals have a value, is read back from its text.
-/
set_option autoImplicit false

namespace Gumnut

open Grammar

def IsName (text : String) : Prop :=
  Token.IsWord text.toList (.name text)

/-! ## The names of a line -/

section
variable {text word : List Char} {name : String}

theorem isName_of_goes {c : Char} {tail : List Char} (goes : Pattern.name.Goes c tail)
    (plain : ¬ Pattern.register.Goes c tail) : IsName (String.ofList (c :: tail)) := by
  have goesOn : (c :: tail).all Token.isTail = true := by
    rw [List.all_eq_true, List.forall_mem_cons, Token.isTail,
      WordChar.isWord_of_isNameStart goes.1, Bool.true_or]
    exact ⟨rfl, goes.2⟩
  have other : Token.isRegister (c :: tail) = false :=
    Bool.eq_false_iff.mpr fun register => plain (isRegister_iff.mp register)
  rw [IsName, String.toList_ofList]
  exact Token.isWord_name goes.1 goesOn other

theorem Pattern.eq_name_of_read {pattern : Pattern} (reads : pattern.read word = .ok (.name name)) :
    pattern = .name ∧ name = String.ofList word := by
  cases pattern with
  | name =>
    cases reads
    exact ⟨rfl, rfl⟩
  | numeral =>
    cases value : Numeral.ofText word with
    | error fault => simp [Pattern.read, value, Except.map] at reads
    | ok n => simp [Pattern.read, value, Except.map] at reads
  | register =>
    obtain ⟨r, same⟩ := Token.exists_register_of_ofRegisterNumber reads
    cases same
  | symbol s => cases s <;> cases reads
  | comment => cases reads

theorem isName_of_taken (taken : Taken text word (.ok (.name name))) : IsName name := by
  generalize reading : (Except.ok (.name name) : Except LexicalFault Token) = result at taken
  cases taken with
  | matched longest =>
    obtain ⟨rfl, rfl⟩ := Pattern.eq_name_of_read reading.symm
    obtain ⟨c, tail, rfl, goes⟩ := mem_language_iff.mp longest.matched
    refine isName_of_goes goes fun register => ?_
    rcases longest.preferred .register (cons_mem_language_iff.mpr register) with same | ⟨same, -⟩
    · cases same
    · cases same
  | stray => cases reading

theorem isName_of_mem_pieces {line : List Char}
    (member : .name name ∈ (Line.pieces line).map Piece.token) : IsName name := by
  obtain ⟨piece, inside, token⟩ := List.mem_map.mp member
  obtain ⟨lexeme, found, made⟩ := List.mem_filterMap.mp inside
  obtain ⟨front, word, back, -, -, -, taken⟩ := Lexeme.exists_taken_of_mem found
  unfold Lexeme.piece? at made
  split at made
  · cases made
  · cases made
  · rename_i token' _ reads
    cases made
    obtain rfl : token' = .name name := token
    rw [reads] at taken
    exact isName_of_taken taken

end

/-! ## Records that can be written -/

namespace Grammar

variable {tokens : List Token} {places : List Operand} {name : String}

theorem Offset.not_symbol {operand : Operand} (offset : Offset tokens operand) :
    operand ≠ .symbol name := by
  cases offset with
  | bare n | plus n => cases n <;> nofun
  | _ => nofun

theorem Fills.name_mem (fills : Fills tokens places) (member : .symbol name ∈ places) :
    .name name ∈ tokens := by
  cases fills with
  | register r => simp at member
  | numeral n => cases n <;> simp [Operand.ofNumeral] at member
  | name text =>
    obtain rfl : name = text := by simpa using member
    exact List.mem_cons_self
  | @indexed token base offset behind inner outer =>
    have other : offset ≠ .symbol name := outer.not_symbol
    cases inner with
    | register r =>
      exact absurd member (by simp [other.symm])
    | name text =>
      obtain rfl : name = text := by simpa [other.symm] using member
      simp

theorem FillAll.name_mem (fill : FillAll tokens places) (member : .symbol name ∈ places) :
    .name name ∈ tokens := by
  induction fill with
  | single fills => exact fills.name_mem member
  | cons fills more ih =>
    rw [List.mem_append] at member ⊢
    exact member.imp fills.name_mem fun later => List.mem_cons_of_mem _ (ih later)

end Grammar

namespace Line

/-- A record whose text shows all of it, if its numerals have a value: its names are words, its
mnemonic is what its own text spells, and it has operands only behind a mnemonic and without gaps
between them. -/
structure Writable (record : Line) : Prop where
  label : ∀ name, record.label = some name → IsName name
  mnemonic : ∀ mnemonic, record.mnemonic = some mnemonic →
    IsName mnemonic.text ∧ Mnemonic.ofName mnemonic.text = mnemonic
  symbols : ∀ name, .symbol name ∈ record.operands.toList → IsName name
  packed : ∃ places : List Operand, places.length ≤ 3 ∧ record.operands = .ofList places
  attached : record.mnemonic = none → record.operands = {}

end Line

namespace Mnemonic

theorem ofName_cases (name : String) : (∃ operation, ofName name = .operation operation) ∨
    ofName name = .org ∨ ofName name = .byte ∨ ofName name = .unknown name := by
  fun_cases ofName name with
  | case1 lowered operation => exact .inl ⟨operation, rfl⟩
  | case2 => exact .inr (.inl rfl)
  | case3 => exact .inr (.inr (.inl rfl))
  | case4 => exact .inr (.inr (.inr rfl))

theorem isName_directive {text : String} (directive : text = "org" ∨ text = "byte") :
    IsName text := by
  have spelled : (text.toList.head?.any WordChar.isNameStart && text.toList.all Token.isTail &&
      !Token.isRegister text.toList) = true := by
    rcases directive with rfl | rfl <;> decide +kernel
  rw [Bool.and_eq_true, Bool.and_eq_true, Bool.not_eq_true'] at spelled
  have word := Token.isWord_name spelled.1.1 spelled.1.2 spelled.2
  rwa [String.ofList_toList] at word

/-- The text of a mnemonic that a name spells is a name that spells it too. -/
theorem ofName_text_ofName {name : String} (named : IsName name) :
    IsName (ofName name).text ∧ ofName (ofName name).text = ofName name := by
  rcases ofName_cases name with ⟨operation, same⟩ | same | same | same
  · rw [same]
    exact ⟨Token.isWord_operation operation, ofName_text operation⟩
  · rw [same]
    exact ⟨isName_directive (.inl rfl), by decide +kernel⟩
  · rw [same]
    exact ⟨isName_directive (.inr rfl), by decide +kernel⟩
  · rw [same]
    exact ⟨named, same⟩

end Mnemonic

theorem Grammar.Statement.writable {label : Option String} {tokens : List Token} {record : Line}
    (statement : Statement label tokens record) (labelled : ∀ name, label = some name → IsName name)
    (named : ∀ name, .name name ∈ tokens → IsName name) : record.Writable := by
  have spelled {name : String} {mnemonic : Mnemonic} (member : .name name ∈ tokens)
      (same : some (Mnemonic.ofName name) = some mnemonic) :
      IsName mnemonic.text ∧ Mnemonic.ofName mnemonic.text = mnemonic := by
    cases same
    exact Mnemonic.ofName_text_ofName (named name member)
  have empty : ({} : Operands).toList = [] := rfl
  cases statement with
  | nothing =>
    exact {
      label := labelled
      mnemonic := nofun
      symbols := by simp [empty]
      packed := ⟨[], Nat.zero_le 3, rfl⟩
      attached := fun _ => rfl }
  | bare name =>
    exact {
      label := labelled
      mnemonic := fun _ => spelled List.mem_cons_self
      symbols := by simp [empty]
      packed := ⟨[], Nat.zero_le 3, rfl⟩
      attached := nofun }
  | @full name tokens places fill fit =>
    refine {
      label := labelled
      mnemonic := fun _ => spelled List.mem_cons_self
      symbols := fun symbol member => ?_
      packed := ⟨places, fit, rfl⟩
      attached := nofun }
    rw [Operands.toList_ofList fit] at member
    exact named symbol (List.mem_cons_of_mem _ (fill.name_mem member))

/-- Every record that is read from a line can be written. -/
theorem Line.writable_of_parse {line : List Char} {record : Line}
    (reads : parse line = .ok record) : record.Writable := by
  obtain ⟨-, sentence⟩ := parse_eq_ok_iff.mp reads
  have named (name : String) (member : .name name ∈ (pieces line).map Piece.token) : IsName name :=
    isName_of_mem_pieces member
  generalize (pieces line).map Piece.token = tokens at sentence named
  cases sentence with
  | unlabelled statement => exact statement.writable nofun named
  | labelled label statement =>
    refine statement.writable ?_ fun name member =>
      named name (List.mem_cons_of_mem _ (List.mem_cons_of_mem _ member))
    rintro name ⟨⟩
    exact named label List.mem_cons_self

/-! ## The text of a record -/

section
variable {places : List Operand} {record : Line}

theorem Operand.exists_word {operand : Operand} (sound : operand ≠ .notANumber)
    (named : ∀ name, operand = .symbol name → IsName name) :
    ∃ token, Token.IsWord operand.text.toList token ∧ Fills [token] [operand] := by
  cases operand with
  | register r => exact ⟨.register r, Token.isWord_register r, .register r⟩
  | number value =>
    have spelled := Token.isWord_hexadecimal 0 value.toNat_lt
    rw [UInt32.ofNat_toNat] at spelled
    exact ⟨.numeral (.value value), spelled, .numeral (.value value)⟩
  | notANumber => exact absurd rfl sound
  | symbol name => exact ⟨.name name, named name rfl, .name name⟩

theorem exists_spelling_of_places (filled : places ≠ [])
    (shown : ∀ operand ∈ places,
      ∃ token, Token.IsWord operand.text.toList token ∧ Fills [token] [operand]) :
    ∃ tokens, Spells (String.intercalate ", " (places.map Operand.text)).toList tokens ∧
      FillAll tokens places := by
  rw [String.toList_intercalate]
  induction places with
  | nil => exact absurd rfl filled
  | cons operand places ih =>
    rw [List.forall_mem_cons] at shown
    obtain ⟨⟨token, word, fills⟩, shown⟩ := shown
    cases places with
    | nil =>
      refine ⟨[token], ?_, .single fills⟩
      rw [List.map_singleton, List.map_singleton, List.intercalate_singleton]
      exact .last word
    | cons next places =>
      obtain ⟨tokens, spells, fill⟩ := ih nofun shown
      refine ⟨token :: .comma :: tokens, ?_, .cons fills fill⟩
      rw [List.map_cons, List.map_cons, List.map_cons, List.map_cons, List.intercalate_cons_cons,
        List.append_assoc]
      exact .item word spells

theorem exists_spelling_of_statement {mnemonic : Mnemonic} (label : Option String)
    (writable : record.Writable) (sound : .notANumber ∉ record.operands.toList)
    (same : record.mnemonic = some mnemonic) :
    ∃ tokens, Spells (mnemonic.text ++ Line.operandsText record.operands).toList tokens ∧
      Statement label tokens ⟨label, some mnemonic, record.operands⟩ := by
  obtain ⟨word, spelled⟩ := writable.mnemonic mnemonic same
  obtain ⟨places, fit, operands⟩ := writable.packed
  have symbols := writable.symbols
  rw [operands, Operands.toList_ofList fit] at sound symbols
  rw [operands, Line.operandsText, Operands.toList_ofList fit]
  cases places with
  | nil =>
    refine ⟨[.name mnemonic.text], ?_, ?_⟩
    · rw [String.append_empty]
      exact .last word
    · have bare : Statement label _ _ := .bare mnemonic.text
      rwa [spelled] at bare
  | cons first rest =>
    have filled : first :: rest ≠ [] := nofun
    obtain ⟨tokens, spells, fill⟩ := exists_spelling_of_places filled fun operand member =>
      Operand.exists_word (fun same => sound (same ▸ member))
        fun name same => symbols name (same ▸ member)
    refine ⟨.name mnemonic.text :: tokens, ?_, ?_⟩
    · rw [String.toList_append, String.toList_append]
      exact .word word (Token.ends_cons _ (by decide)) (.space spells)
    · have full : Statement label _ _ := .full mnemonic.text fill fit
      rwa [spelled] at full

end

namespace Line

variable {record : Line}

/-- The text of a record that can be written, if its numerals have a value, spells it. -/
theorem Writable.exists_spelling (writable : record.Writable)
    (sound : .notANumber ∉ record.operands.toList) :
    ∃ tokens, Spells record.text.toList tokens ∧ Sentence tokens record := by
  have attached := writable.attached
  have labelled := writable.label
  have behind {mnemonic : Mnemonic} (same : record.mnemonic = some mnemonic) :=
    exists_spelling_of_statement record.label writable sound same
  obtain ⟨label, mnemonic, operands⟩ := record
  cases label with
  | none =>
    cases mnemonic with
    | none =>
      obtain rfl : operands = {} := attached rfl
      exact ⟨[], .nil, .unlabelled .nothing⟩
    | some mnemonic =>
      obtain ⟨tokens, spells, statement⟩ := behind rfl
      exact ⟨tokens, spells, .unlabelled statement⟩
  | some label =>
    have word : IsName label := labelled label rfl
    cases mnemonic with
    | none =>
      obtain rfl : operands = {} := attached rfl
      refine ⟨[.name label, .colon], ?_, .labelled label .nothing⟩
      rw [Line.text, String.toList_append]
      exact .word word (Token.ends_cons _ (by decide)) (.symbol rfl rfl .nil)
    | some mnemonic =>
      obtain ⟨tokens, spells, statement⟩ := behind rfl
      refine ⟨.name label :: .colon :: tokens, ?_, .labelled label statement⟩
      have text : (Line.text ⟨some label, some mnemonic, operands⟩).toList = label.toList ++
          ':' :: ' ' :: (mnemonic.text ++ Line.operandsText operands).toList := by
        simp [Line.text]
      rw [text]
      exact .word word (Token.ends_cons _ (by decide)) (.symbol rfl rfl (.space spells))

/-- A line whose numerals have a value loses nothing when its record is written as source: the text
of the record reads as the same record. -/
theorem parse_text_of_parse {line : List Char} (reads : parse line = .ok record)
    (sound : .notANumber ∉ record.operands.toList) : parse record.text.toList = .ok record := by
  obtain ⟨tokens, spells, sentence⟩ := (writable_of_parse reads).exists_spelling sound
  exact parse_of_spells spells sentence

theorem parse_text_of_parse_indexed :
    ∃ record, parse "Get: LDM r1, (add) - 0x12 ; note".toList = .ok record ∧
      .notANumber ∉ record.operands.toList ∧ record.text = "Get: ldm r1, add, 0xee" ∧
      parse record.text.toList = .ok record := by
  have reads : parse "Get: LDM r1, (add) - 0x12 ; note".toList =
      .ok ⟨some "Get", some (.operation (.memory .ldm)),
        ⟨some (.register 1), some (.symbol "add"), some (.number 238)⟩⟩ := by
    decide +kernel
  have sound : Operand.notANumber ∉
      [Operand.register 1, Operand.symbol "add", Operand.number 238] := by
    decide
  exact ⟨_, reads, sound, by decide +kernel, parse_text_of_parse reads sound⟩

end Line

end Gumnut
