import Gumnut.Assembly.Line
import Gumnut.Assembly.Token
import Gumnut.Text.Lines

/-!
# Reading a source

Reading source text into records, one for each of its lines. The first line that is none of the
grammar decides about the whole text. The grammar of a line, comments left out, is

```text
line    ::= [name ":"] [name [operand {"," operand}]]
operand ::= register | numeral | name | "(" (register | name) ")" [offset]
offset  ::= numeral | "+" numeral | "-" numeral
```

with at most three operand places, of which an indexed operand takes two. The first lexeme with a
fault decides about the line before its grammar is looked at. Each error names the lexeme at which
the line stops to be one, or the end of the line.
-/
set_option autoImplicit false

namespace Gumnut

namespace Line

abbrev Tokens := List (Token × Span)

abbrev Failure := SyntaxFault × Span

/-- The tokens among some lexemes without the comments, or the first fault. -/
def tokens : List Lexeme → Except Failure Tokens
  | [] => .ok []
  | ⟨span, .error fault⟩ :: _ => .error (.lexical fault, span)
  | ⟨_, .ok .comment⟩ :: rest => tokens rest
  | ⟨span, .ok token⟩ :: rest => (tokens rest).map ((token, span) :: ·)

/-- The place of the next token, or the end of the line at byte `stop`. -/
def here (stop : Nat) : Tokens → Span
  | (_, span) :: _ => span
  | [] => ⟨stop, stop⟩

def readIndexBase (stop : Nat) : Tokens → Except Failure (Operand × Tokens)
  | (.register r, _) :: rest => .ok (.register r, rest)
  | (.name text, _) :: rest => .ok (.symbol text, rest)
  | rest => .error (.badIndexBase, here stop rest)

def readClosing (stop : Nat) : Tokens → Except Failure Tokens
  | (.closeParen, _) :: rest => .ok rest
  | rest => .error (.unclosedIndex, here stop rest)

def readSignedOffset (stop : Nat) (negative : Bool) : Tokens → Except Failure (Operand × Tokens)
  | (.numeral (.value v), _) :: rest =>
    .ok (.number (if negative then negatedByte v else v), rest)
  | (.numeral .notANumber, _) :: rest => .ok (.notANumber, rest)
  | rest => .error (.expectedOperand, here stop rest)

def readOffset (stop : Nat) : Tokens → Except Failure (Operand × Tokens)
  | (.plus, _) :: rest => readSignedOffset stop false rest
  | (.minus, _) :: rest => readSignedOffset stop true rest
  | (.numeral n, _) :: rest => .ok (.ofNumeral n, rest)
  | rest => .ok (.number 0, rest)

/-- One operand, as the places that it fills. -/
def readOperand (stop : Nat) : Tokens → Except Failure (List Operand × Tokens)
  | (.register r, _) :: rest => .ok ([.register r], rest)
  | (.numeral n, _) :: rest => .ok ([.ofNumeral n], rest)
  | (.name text, _) :: rest => .ok ([.symbol text], rest)
  | (.openParen, _) :: rest =>
    match readIndexBase stop rest with
    | .error failure => .error failure
    | .ok (base, rest) =>
      match readClosing stop rest with
      | .error failure => .error failure
      | .ok rest =>
        match readOffset stop rest with
        | .error failure => .error failure
        | .ok (offset, rest) => .ok ([base, offset], rest)
  | rest => .error (.expectedOperand, here stop rest)

theorem length_of_readIndexBase {stop : Nat} {tokens rest : Tokens} {base : Operand}
    (read : readIndexBase stop tokens = .ok (base, rest)) : rest.length ≤ tokens.length := by
  unfold readIndexBase at read
  split at read <;> simp_all

theorem length_of_readClosing {stop : Nat} {tokens rest : Tokens}
    (read : readClosing stop tokens = .ok rest) : rest.length ≤ tokens.length := by
  unfold readClosing at read
  split at read <;> simp_all

theorem length_of_readOffset {stop : Nat} {tokens rest : Tokens} {offset : Operand}
    (read : readOffset stop tokens = .ok (offset, rest)) : rest.length ≤ tokens.length := by
  unfold readOffset readSignedOffset at read
  split at read <;> (try split at read) <;> simp_all <;> omega

theorem length_of_readOperand {stop : Nat} {tokens rest : Tokens} {places : List Operand}
    (read : readOperand stop tokens = .ok (places, rest)) : rest.length < tokens.length := by
  unfold readOperand at read
  split at read
  · simp_all
  · simp_all
  · simp_all
  · split at read
    · simp at read
    · rename_i base
      split at read
      · simp at read
      · rename_i closing
        split at read
        · simp at read
        · rename_i offset
          have first := length_of_readIndexBase base
          have second := length_of_readClosing closing
          have third := length_of_readOffset offset
          simp only [Except.ok.injEq, Prod.mk.injEq] at read
          obtain ⟨_, rfl⟩ := read
          simp only [List.length_cons]
          omega
  · simp at read

/-- The operands of a line behind those that fill the places `read` already. -/
def readOperands (stop : Nat) (read : List Operand) (tokens : Tokens) :
    Except Failure (List Operand) :=
  match _next : readOperand stop tokens with
  | .error failure => .error failure
  | .ok (places, rest) =>
    if Operands.capacity < (read ++ places).length then
      .error (.tooManyOperands, ⟨(here stop tokens).start, (here stop rest).start⟩)
    else
      match rest with
      | [] => .ok (read ++ places)
      | (.comma, _) :: rest => readOperands stop (read ++ places) rest
      | (_, span) :: _ => .error (.expectedComma, span)
termination_by tokens.length
decreasing_by
  have shorter := length_of_readOperand _next
  simp only [List.length_cons] at shorter
  omega

def readLabel : Tokens → Option String × Tokens
  | (.name text, _) :: (.colon, _) :: rest => (some text, rest)
  | rest => (none, rest)

def readInstruction (stop : Nat) (label : Option String) : Tokens → Except Failure Line
  | [] => .ok { label }
  | (.name text, _) :: rest =>
    let mnemonic := some (Mnemonic.ofName text)
    if rest.isEmpty then .ok { label, mnemonic }
    else
      match readOperands stop [] rest with
      | .error failure => .error failure
      | .ok places => .ok { label, mnemonic, operands := .ofList places }
  | (_, span) :: _ => .error (.expectedMnemonic, span)

def ofTokens (stop : Nat) (tokens : Tokens) : Except Failure Line :=
  let (label, rest) := readLabel tokens
  readInstruction stop label rest

def parse (line : List Char) : Except Failure Line :=
  match tokens (Lexeme.ofLine line) with
  | .error failure => .error failure
  | .ok tokens => ofTokens (CodePoint.byteLength line) tokens

end Line

namespace Source

/-- The records of lines of which the first has a given number. -/
def readLines (number : Nat) : List (List Char) → Except SyntaxError (List Line)
  | [] => .ok []
  | text :: rest =>
    match Line.parse text with
    | .error (fault, span) => .error ⟨fault, number, span⟩
    | .ok line => (readLines (number + 1) rest).map (line :: ·)

def parse (source : String) : Except SyntaxError (List Line) :=
  readLines 0 (Lines.split source.toList)

end Source

end Gumnut
