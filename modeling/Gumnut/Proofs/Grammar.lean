import Gumnut.Proofs.Pieces

/-!
# The grammar of a line

Which tokens make up a line, and the record that they stand for, said by rules:

```text
line      ::= [name ":"] statement
statement ::= nothing | name [operand {"," operand}]
operand   ::= register | numeral | name | "(" (register | name) ")" offset
offset    ::= nothing | numeral | "+" numeral | "-" numeral
```

Reading a line comes to the record of the grammar if there is one and to a failure otherwise; and
if a lexeme of the line has a fault, to the first of these faults.
-/
set_option autoImplicit false

namespace Gumnut

namespace Grammar

inductive Offset : List Token → Operand → Prop
  | absent : Offset [] (.number 0)
  | bare (n : Numeral) : Offset [.numeral n] (.ofNumeral n)
  | plus (n : Numeral) : Offset [.plus, .numeral n] (.ofNumeral n)
  | minus {v w : UInt32} (negated : (w.toNat : Int) = -(v.toNat : Int) % 256) :
      Offset [.minus, .numeral (.value v)] (.number w)
  | minusMalformed : Offset [.minus, .numeral .notANumber] .notANumber

inductive Base : Token → Operand → Prop
  | register (r : Reg) : Base (.register r) (.register r)
  | name (text : String) : Base (.name text) (.symbol text)

inductive Fills : List Token → List Operand → Prop
  | register (r : Reg) : Fills [.register r] [.register r]
  | numeral (n : Numeral) : Fills [.numeral n] [.ofNumeral n]
  | name (text : String) : Fills [.name text] [.symbol text]
  | indexed {token : Token} {base offset : Operand} {behind : List Token}
      (inner : Base token base) (outer : Offset behind offset) :
      Fills (.openParen :: token :: .closeParen :: behind) [base, offset]

inductive FillAll : List Token → List Operand → Prop
  | single {tokens : List Token} {places : List Operand} (fills : Fills tokens places) :
      FillAll tokens places
  | cons {tokens rest : List Token} {places others : List Operand} (fills : Fills tokens places)
      (more : FillAll rest others) : FillAll (tokens ++ .comma :: rest) (places ++ others)

theorem Fills.opens {tokens : List Token} {places : List Operand} (fills : Fills tokens places) :
    ∃ token rest, tokens = token :: rest ∧ token ≠ .colon := by
  cases fills <;> exact ⟨_, _, rfl, nofun⟩

theorem FillAll.opens {tokens : List Token} {places : List Operand} (fill : FillAll tokens places) :
    ∃ token rest, tokens = token :: rest ∧ token ≠ .colon := by
  cases fill with
  | single fills => exact fills.opens
  | cons fills =>
    obtain ⟨token, rest, rfl, other⟩ := fills.opens
    exact ⟨token, _, rfl, other⟩

inductive Statement (label : Option String) : List Token → Line → Prop
  | nothing : Statement label [] ⟨label, none, {}⟩
  | bare (name : String) : Statement label [.name name] ⟨label, some (.ofName name), {}⟩
  | full (name : String) {tokens : List Token} {places : List Operand}
      (fill : FillAll tokens places) (fit : places.length ≤ 3) :
      Statement label (.name name :: tokens) ⟨label, some (.ofName name), .ofList places⟩

/-- The tokens of a line with its record. -/
inductive Sentence : List Token → Line → Prop
  | unlabelled {tokens : List Token} {record : Line} (statement : Statement none tokens record) :
      Sentence tokens record
  | labelled (label : String) {tokens : List Token} {record : Line}
      (statement : Statement (some label) tokens record) :
      Sentence (.name label :: .colon :: tokens) record

end Grammar

theorem toNat_negatedByte (v : UInt32) :
    ((negatedByte v).toNat : Int) = -(v.toNat : Int) % 256 := by
  have bound := v.toNat_lt
  have byte : UInt32.toNat 256 = 256 := rfl
  have size : UInt32.size = 4294967296 := rfl
  rw [negatedByte, UInt32.toNat_mod, UInt32.toNat_neg, byte, size]
  omega

namespace Line

open Grammar

def kinds (tokens : Tokens) : List Token :=
  tokens.map Prod.fst

variable {stop : Nat} {tokens front rest : Tokens} {places : List Operand}

/-! ## What is read is a line of the grammar -/

theorem offset_of_readSignedOffset {negative : Bool} {offset : Operand}
    (read : readSignedOffset stop negative tokens = .ok (offset, rest)) :
    ∃ front, tokens = front ++ rest ∧
      Offset ((if negative then .minus else .plus) :: kinds front) offset := by
  revert read
  fun_cases readSignedOffset stop negative tokens with
  | case1 v span rest =>
    intro read
    cases read
    refine ⟨[(.numeral (.value v), span)], rfl, ?_⟩
    cases negative with
    | false => exact .plus (.value v)
    | true => exact .minus (toNat_negatedByte v)
  | case2 span rest =>
    intro read
    cases read
    refine ⟨[(.numeral .notANumber, span)], rfl, ?_⟩
    cases negative with
    | false => exact .plus .notANumber
    | true => exact .minusMalformed
  | case3 =>
    intro read
    cases read

theorem offset_of_readOffset {offset : Operand}
    (read : readOffset stop tokens = .ok (offset, rest)) :
    ∃ front, tokens = front ++ rest ∧ Offset (kinds front) offset := by
  revert read
  fun_cases readOffset stop tokens with
  | case1 span back =>
    intro read
    obtain ⟨front, rfl, offset⟩ := offset_of_readSignedOffset read
    exact ⟨(.plus, span) :: front, rfl, offset⟩
  | case2 span back =>
    intro read
    obtain ⟨front, rfl, offset⟩ := offset_of_readSignedOffset read
    exact ⟨(.minus, span) :: front, rfl, offset⟩
  | case3 n span back =>
    intro read
    cases read
    exact ⟨[(.numeral n, span)], rfl, .bare n⟩
  | case4 =>
    intro read
    cases read
    exact ⟨[], rfl, .absent⟩

theorem base_of_readIndexBase {base : Operand}
    (read : readIndexBase stop tokens = .ok (base, rest)) :
    ∃ token span, tokens = (token, span) :: rest ∧ Base token base := by
  revert read
  fun_cases readIndexBase stop tokens with
  | case1 r span back =>
    intro read
    cases read
    exact ⟨_, span, rfl, .register r⟩
  | case2 text span back =>
    intro read
    cases read
    exact ⟨_, span, rfl, .name text⟩
  | case3 =>
    intro read
    cases read

theorem eq_of_readClosing (read : readClosing stop tokens = .ok rest) :
    ∃ span, tokens = (.closeParen, span) :: rest := by
  revert read
  fun_cases readClosing stop tokens with
  | case1 span back =>
    intro read
    cases read
    exact ⟨span, rfl⟩
  | case2 =>
    intro read
    cases read

theorem fills_of_readOperand (read : readOperand stop tokens = .ok (places, rest)) :
    ∃ front, tokens = front ++ rest ∧ Fills (kinds front) places := by
  revert read
  fun_cases readOperand stop tokens with
  | case1 r span back =>
    intro read
    cases read
    exact ⟨[(.register r, span)], rfl, .register r⟩
  | case2 n span back =>
    intro read
    cases read
    exact ⟨[(.numeral n, span)], rfl, .numeral n⟩
  | case3 text span back =>
    intro read
    cases read
    exact ⟨[(.name text, span)], rfl, .name text⟩
  | case7 span back base back' based back'' closed offset last ended =>
    intro read
    cases read
    obtain ⟨token, place, rfl, inner⟩ := base_of_readIndexBase based
    obtain ⟨place', rfl⟩ := eq_of_readClosing closed
    obtain ⟨front, rfl, outer⟩ := offset_of_readOffset ended
    exact ⟨(.openParen, span) :: (token, place) :: (.closeParen, place') :: front, rfl,
      .indexed inner outer⟩
  | _ =>
    intro read
    cases read

theorem fillAll_of_readOperands {read all : List Operand}
    (reads : readOperands stop read tokens = .ok all) :
    ∃ places, all = read ++ places ∧ FillAll (kinds tokens) places ∧ all.length ≤ 3 := by
  revert reads
  fun_induction readOperands stop read tokens with
  | case1 | case2 | case5 =>
    intro reads
    cases reads
  | case3 read tokens places fit next =>
    intro reads
    cases reads
    obtain ⟨front, rfl, fills⟩ := fills_of_readOperand next
    rw [List.append_nil]
    exact ⟨places, rfl, .single fills, Nat.le_of_not_lt fit⟩
  | case4 read tokens places fit span back _ next ih =>
    intro reads
    obtain ⟨others, rfl, more, short⟩ := ih reads
    obtain ⟨front, rfl, fills⟩ := fills_of_readOperand next
    refine ⟨places ++ others, List.append_assoc .., ?_, short⟩
    rw [kinds, List.map_append]
    exact .cons fills more

theorem statement_of_readInstruction {label : Option String} {record : Line}
    (reads : readInstruction stop label tokens = .ok record) :
    Statement label (kinds tokens) record := by
  revert reads
  fun_cases readInstruction stop label tokens with
  | case1 =>
    intro reads
    cases reads
    exact .nothing
  | case2 name span rest mnemonic none =>
    intro reads
    cases reads
    rw [List.isEmpty_iff.mp none]
    exact .bare name
  | case3 => intro reads; cases reads
  | case4 name span rest mnemonic some places read =>
    intro reads
    cases reads
    obtain ⟨filled, rfl, fill, fit⟩ := fillAll_of_readOperands read
    exact .full name fill fit
  | case5 => intro reads; cases reads

theorem sentence_of_ofTokens {record : Line} (reads : ofTokens stop tokens = .ok record) :
    Sentence (kinds tokens) record := by
  unfold ofTokens readLabel at reads
  split at reads
  rename_i apart
  split at apart
  · cases apart
    exact .labelled _ (statement_of_readInstruction reads)
  · cases apart
    exact .unlabelled (statement_of_readInstruction reads)

/-! ## A line of the grammar is read -/

/-- Whether an operand can end before these tokens. -/
def Closed (rest : Tokens) : Prop :=
  ∀ token span back, rest = (token, span) :: back → token = .comma

theorem kinds_eq_cons {token : Token} {others : List Token}
    (same : kinds tokens = token :: others) :
    ∃ span back, tokens = (token, span) :: back ∧ kinds back = others := by
  obtain ⟨⟨first, span⟩, back, rfl, rfl, rfl⟩ := List.map_eq_cons_iff.mp same
  exact ⟨span, back, rfl, rfl⟩

theorem kinds_eq_singleton {token : Token} (same : kinds tokens = [token]) :
    ∃ span, tokens = [(token, span)] := by
  obtain ⟨span, back, rfl, none⟩ := kinds_eq_cons same
  rw [kinds, List.map_eq_nil_iff] at none
  exact ⟨span, by rw [none]⟩

theorem readOffset_of_offset {offset : Operand} (rule : Offset (kinds front) offset)
    (closed : Closed rest) : readOffset stop (front ++ rest) = .ok (offset, rest) := by
  generalize same : kinds front = taken at rule
  cases rule with
  | absent =>
    rw [kinds, List.map_eq_nil_iff] at same
    rw [same, List.nil_append]
    unfold readOffset
    split
    · exact absurd (closed _ _ _ rfl) (by decide)
    · exact absurd (closed _ _ _ rfl) (by decide)
    · exact absurd (closed _ _ _ rfl) (by simp)
    · rfl
  | bare n =>
    obtain ⟨span, rfl⟩ := kinds_eq_singleton same
    rfl
  | plus n =>
    obtain ⟨sign, back, rfl, last⟩ := kinds_eq_cons same
    obtain ⟨span, rfl⟩ := kinds_eq_singleton last
    cases n <;> rfl
  | @minus v w negated =>
    obtain ⟨sign, back, rfl, last⟩ := kinds_eq_cons same
    obtain ⟨span, rfl⟩ := kinds_eq_singleton last
    have value : negatedByte v = w := by
      apply UInt32.toNat_inj.mp
      have byte := toNat_negatedByte v
      omega
    rw [← value]
    rfl
  | minusMalformed =>
    obtain ⟨sign, back, rfl, last⟩ := kinds_eq_cons same
    obtain ⟨span, rfl⟩ := kinds_eq_singleton last
    rfl

theorem readOperand_of_fills (rule : Fills (kinds front) places) (closed : Closed rest) :
    readOperand stop (front ++ rest) = .ok (places, rest) := by
  generalize same : kinds front = taken at rule
  cases rule with
  | register r | numeral n | name text =>
    obtain ⟨span, rfl⟩ := kinds_eq_singleton same
    rfl
  | @indexed token base offset behind inner outer =>
    obtain ⟨opening, back, rfl, second⟩ := kinds_eq_cons same
    obtain ⟨span, back, rfl, third⟩ := kinds_eq_cons second
    obtain ⟨closing, back, rfl, rfl⟩ := kinds_eq_cons third
    have ended : readOffset stop (back ++ rest) = .ok (offset, rest) :=
      readOffset_of_offset outer closed
    cases inner <;> simp [readOperand, readIndexBase, readClosing, ended]

theorem readOperands_of_next {read : List Operand}
    (next : readOperand stop tokens = .ok (places, rest)) :
    readOperands stop read tokens =
      if Operands.capacity < (read ++ places).length then
        .error (.tooManyOperands, ⟨(here stop tokens).start, (here stop rest).start⟩)
      else
        match rest with
        | [] => .ok (read ++ places)
        | (.comma, _) :: rest => readOperands stop (read ++ places) rest
        | (_, span) :: _ => .error (.expectedComma, span) := by
  rw [readOperands]
  split
  · rename_i refused
    rw [next] at refused
    cases refused
  · rename_i reads
    rw [next] at reads
    cases reads
    rfl

theorem readOperands_of_last {read : List Operand}
    (next : readOperand stop tokens = .ok (places, []))
    (fit : (read ++ places).length ≤ Operands.capacity) :
    readOperands stop read tokens = .ok (read ++ places) := by
  rw [readOperands_of_next next, if_neg (Nat.not_lt.mpr fit)]

theorem readOperands_of_comma {read : List Operand} {span : Span}
    (next : readOperand stop tokens = .ok (places, (.comma, span) :: rest))
    (fit : (read ++ places).length ≤ Operands.capacity) :
    readOperands stop read tokens = readOperands stop (read ++ places) rest := by
  rw [readOperands_of_next next, if_neg (Nat.not_lt.mpr fit)]

theorem readOperands_of_fillAll {read : List Operand} (rule : FillAll (kinds tokens) places)
    (fit : (read ++ places).length ≤ Operands.capacity) :
    readOperands stop read tokens = .ok (read ++ places) := by
  generalize same : kinds tokens = taken at rule
  induction rule generalizing tokens read with
  | @single taken places fills =>
    rw [← same] at fills
    have next : readOperand stop (tokens ++ []) = .ok (places, []) :=
      readOperand_of_fills fills nofun
    rw [List.append_nil] at next
    exact readOperands_of_last next fit
  | @cons taken rest places others fills more ih =>
    obtain ⟨front, back, rfl, rfl, behind⟩ := List.map_eq_append_iff.mp same
    obtain ⟨span, back, rfl, rfl⟩ := kinds_eq_cons behind
    rw [← List.append_assoc] at fit ⊢
    have closed : Closed ((.comma, span) :: back) := by
      rintro _ _ _ ⟨rfl, -⟩
      rfl
    have here : (read ++ places).length ≤ Operands.capacity := by
      rw [List.length_append] at fit
      omega
    rw [readOperands_of_comma (readOperand_of_fills fills closed) here]
    exact ih fit rfl

theorem readInstruction_of_statement {label : Option String} {record : Line}
    (rule : Statement label (kinds tokens) record) :
    readInstruction stop label tokens = .ok record := by
  generalize same : kinds tokens = taken at rule
  cases rule with
  | nothing =>
    rw [kinds, List.map_eq_nil_iff] at same
    rw [same]
    rfl
  | bare name =>
    obtain ⟨span, rfl⟩ := kinds_eq_singleton same
    rfl
  | @full name _ places fill fit =>
    obtain ⟨span, rest, rfl, rfl⟩ := kinds_eq_cons same
    have reads : readOperands stop [] rest = .ok places := readOperands_of_fillAll fill fit
    have some : ¬ rest.isEmpty = true := by
      intro none
      rw [List.isEmpty_iff.mp none] at fill
      obtain ⟨_, _, same, -⟩ := fill.opens
      cases same
    simp only [readInstruction, if_neg some, reads]

theorem ofTokens_of_sentence {record : Line} (rule : Sentence (kinds tokens) record) :
    ofTokens stop tokens = .ok record := by
  generalize same : kinds tokens = taken at rule
  cases rule with
  | unlabelled statement =>
    have plain : readLabel tokens = (none, tokens) := by
      unfold readLabel
      split
      · rw [← same] at statement
        cases statement with
        | full _ fill =>
          obtain ⟨_, _, head, other⟩ := fill.opens
          cases head
          exact absurd rfl other
      · rfl
    rw [← same] at statement
    rw [ofTokens, plain]
    exact readInstruction_of_statement statement
  | labelled label statement =>
    obtain ⟨span, rest, rfl, second⟩ := kinds_eq_cons same
    obtain ⟨colon, rest, rfl, rfl⟩ := kinds_eq_cons second
    exact readInstruction_of_statement statement

/-! ## Lines -/

theorem tokens_of_faults {lexemes : List Lexeme} {fault : LexicalFault} {span : Span}
    (first : (lexemes.filterMap Lexeme.fault?).head? = some (fault, span)) :
    Line.tokens lexemes = .error (.lexical fault, span) := by
  fun_induction Line.tokens lexemes with
  | case1 => cases first
  | case2 place fault' rest =>
    cases first
    rfl
  | case3 place rest ih => exact ih first
  | case4 place token rest _ ih =>
    rw [ih first]
    rfl

theorem tokens_of_no_faults {lexemes : List Lexeme} (line : List Char)
    (none : lexemes.filterMap Lexeme.fault? = []) :
    ∃ tokens, Line.tokens lexemes = .ok tokens ∧
      kinds tokens = (lexemes.filterMap (Lexeme.piece? line)).map Piece.token := by
  fun_induction Line.tokens lexemes with
  | case1 => exact ⟨[], rfl, rfl⟩
  | case2 place fault' rest => cases none
  | case3 place rest ih => exact ih none
  | case4 place token rest other ih =>
    obtain ⟨tokens, read, same⟩ := ih none
    refine ⟨(token, place) :: tokens, by rw [read]; rfl, ?_⟩
    have own : Lexeme.piece? line ⟨place, .ok token⟩ = some ⟨token, place.text line⟩ := by
      unfold Lexeme.piece?
      split
      · rename_i comment
        cases comment
        exact absurd rfl other
      · rename_i fault
        cases fault
      · rename_i same
        cases same
        rfl
    rw [List.filterMap_cons_some own, List.map_cons, ← same]
    rfl

theorem parse_of_faults {line : List Char} {fault : LexicalFault} {span : Span}
    (first : (Lexeme.faults line).head? = some (fault, span)) :
    parse line = .error (.lexical fault, span) := by
  rw [parse, tokens_of_faults first]

theorem parse_of_no_faults {line : List Char} {record : Line} (none : Lexeme.faults line = []) :
    parse line = .ok record ↔ Sentence ((pieces line).map Piece.token) record := by
  obtain ⟨tokens, read, same⟩ := tokens_of_no_faults line none
  rw [parse, read, pieces, ← same]
  exact ⟨sentence_of_ofTokens, ofTokens_of_sentence⟩

/-- A line has a record just if its lexemes have no fault and its tokens are a line of the
grammar. -/
theorem parse_eq_ok_iff {line : List Char} {record : Line} :
    parse line = .ok record ↔
      Lexeme.faults line = [] ∧ Sentence ((pieces line).map Piece.token) record := by
  cases faults : Lexeme.faults line with
  | nil => simp [parse_of_no_faults faults]
  | cons first rest =>
    have failed : parse line = .error (.lexical first.1, first.2) :=
      parse_of_faults (by rw [faults]; rfl)
    simp [failed]

/-- Reading a line accepts exactly the grammar, once the lexemes have no fault; and the names in
its record are spelled as in the source. -/
theorem parse_by_grammar (line : List Char) :
    (match (Lexeme.faults line).head? with
      | some (fault, span) => parse line = .error (.lexical fault, span)
      | none => ∀ record,
        parse line = .ok record ↔ Sentence ((pieces line).map Piece.token) record) ∧
    ∀ piece ∈ pieces line, ∀ name, piece.token = .name name → name = piece.text := by
  refine ⟨?_, fun piece member name token => name_eq_text member token⟩
  cases faults : Lexeme.faults line with
  | nil => exact fun record => parse_of_no_faults faults
  | cons first rest => exact parse_of_faults (by rw [faults]; rfl)

theorem parse_by_grammar_indexed :
    parse "Get: ldm r1, (r2) - 0x12 ; note".toList =
        .ok ⟨some "Get", some (.operation (.memory .ldm)),
          ⟨some (.register 1), some (.register 2), some (.number 238)⟩⟩ ∧
      parse "add r1 @ r9".toList = .error (.lexical .unknownSymbol, ⟨7, 8⟩) := by
  constructor
  · have accepts := (parse_by_grammar "Get: ldm r1, (r2) - 0x12 ; note".toList).1
    have sound : (Lexeme.faults "Get: ldm r1, (r2) - 0x12 ; note".toList).head? = none := by
      decide +kernel
    have tokens : (pieces "Get: ldm r1, (r2) - 0x12 ; note".toList).map Piece.token =
        [.name "Get", .colon, .name "ldm", .register 1, .comma, .openParen, .register 2,
          .closeParen, .minus, .numeral (.value 18)] := by
      decide +kernel
    rw [sound, tokens] at accepts
    have offset : Offset [.minus, .numeral (.value 18)] (.number 238) := .minus (by decide)
    exact (accepts _).mpr (.labelled "Get" (.full "ldm"
      (.cons (.register 1) (.single (.indexed (.register 2) offset))) (by decide)))
  · have refuses := (parse_by_grammar "add r1 @ r9".toList).1
    have faulty : (Lexeme.faults "add r1 @ r9".toList).head? =
        some (.unknownSymbol, ⟨7, 8⟩) := by
      decide +kernel
    rwa [faulty] at refuses

end Line

end Gumnut
