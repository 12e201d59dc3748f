/-!
# Faults of a source line

What can be wrong with a line of assembly source. A lexical fault belongs to one lexeme, a syntax
fault to the line as a whole; a syntax error adds where it is: the line of the source, counted
from zero, and the bytes of that line. Each fault has a message, and most have a help text.
-/
set_option autoImplicit false

namespace Gumnut

/-- A range of bytes within a line, without its stop. -/
structure Span where
  start : Nat
  stop : Nat
  deriving DecidableEq, Repr

inductive LexicalFault where
  | doesNotFit
  | badHexDigit
  | missingHexDigits
  | badBinaryDigit
  | missingBinaryDigits
  | badDecimalDigit
  | unreadableNumeral
  | noSuchRegister
  | unknownSymbol
  deriving DecidableEq, Repr

namespace LexicalFault

def message : LexicalFault → String
  | doesNotFit => "numeric token does not fit 32-bit unsigned integer"
  | badHexDigit | missingHexDigits => "invalid hex literal"
  | badBinaryDigit | missingBinaryDigits => "invalid binary literal"
  | badDecimalDigit => "invalid decimal literal"
  | unreadableNumeral => "could not parse integer"
  | noSuchRegister => "invalid register"
  | unknownSymbol => "unrecognized symbol"

def help? : LexicalFault → Option String
  | doesNotFit => some "the range for a numeric literal is [0, 4294967295]"
  | badHexDigit => some "a hex literal starts with '0x' and consists of 0-9, A-F"
  | missingHexDigits => some "there should be hex digits (0-9, A-F) here"
  | badBinaryDigit => some "a binary literal starts with '0b' and consists of 0 and 1"
  | missingBinaryDigits => some "there should be binary digits (0, 1) here"
  | badDecimalDigit => some "a decimal literal only consists of digits 0-9"
  | unreadableNumeral => none
  | noSuchRegister => some "this must be r0-r7"
  | unknownSymbol => some "this char does not occur in any token in Gumnut assembly"

end LexicalFault

inductive SyntaxFault where
  | lexical (fault : LexicalFault)
  | expectedMnemonic
  | expectedOperand
  | expectedComma
  | unclosedIndex
  | badIndexBase
  | tooManyOperands
  deriving DecidableEq, Repr

namespace SyntaxFault

def message : SyntaxFault → String
  | lexical fault => fault.message
  | expectedMnemonic => "expected mnemonic"
  | expectedOperand => "expected operand"
  | expectedComma => "expected comma between operands"
  | unclosedIndex => "indexed operand was never closed"
  | badIndexBase => "invalid base of indexed operand"
  | tooManyOperands => "too many operands"

def help? : SyntaxFault → Option String
  | lexical fault => fault.help?
  | expectedMnemonic => some "a line holds an optional `label:` followed by a mnemonic"
  | expectedOperand => some "operands are registers, numbers, labels, or (rN) + offset"
  | expectedComma => some "try adding a comma between these operands"
  | unclosedIndex => some "try adding a ')' after the base register"
  | badIndexBase => some "the base of an indexed operand must be a register or a label"
  | tooManyOperands =>
    some "instructions take at most three operands, and (rN) + k counts as two"

end SyntaxFault

structure SyntaxError where
  fault : SyntaxFault
  line : Nat
  span : Span
  deriving DecidableEq, Repr

namespace SyntaxError

def cause? (error : SyntaxError) : Option LexicalFault :=
  match error.fault with
  | .lexical fault => some fault
  | _ => none

end SyntaxError

end Gumnut
