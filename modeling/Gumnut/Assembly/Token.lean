import Gumnut.Assembly.Numeral
import Gumnut.Instruction
import Gumnut.Text.Characters

/-!
# Tokens

A line as tokens with their places. A numeral begins with a digit, or with a sign and a digit, and
goes on through word characters and points, so that a malformed number is one token and not
several. A register is the letter `r` and decimal digits; any other word that begins with an ASCII
letter or an underscore is a name.

From each character that is not blank the longest possible lexeme is taken; a character that begins
none is a lexeme of its own with a fault, and reading goes on behind it. So the lexemes and the
blanks between them make up the line.
-/
set_option autoImplicit false

namespace Gumnut

inductive Token where
  | numeral (n : Numeral)
  | register (r : Reg)
  | name (text : String)
  | colon
  | comma
  | openParen
  | closeParen
  | plus
  | minus
  | comment
  deriving DecidableEq, Repr

namespace Token

def isSign (c : Char) : Bool :=
  c == '+' || c == '-'

def isTail (c : Char) : Bool :=
  WordChar.isWord c || c == '.'

/-- Whether a word is spelled as a register, whatever its number. -/
def isRegister : List Char → Bool
  | c :: number => (c == 'r' || c == 'R') && !number.isEmpty && number.all WordChar.isDigit
  | [] => false

def ofRegisterNumber (number : List Char) : Except LexicalFault Token :=
  match Radix.read 10 8 number with
  | .ok value =>
    if below : value < 8 then .ok (register ⟨value, below⟩) else .error .noSuchRegister
  | .error _ => .error .noSuchRegister

def ofSymbol (c : Char) : Except LexicalFault Token :=
  if c = ':' then .ok colon
  else if c = ',' then .ok comma
  else if c = '(' then .ok openParen
  else if c = ')' then .ok closeParen
  else if c = '+' then .ok plus
  else if c = '-' then .ok minus
  else .error .unknownSymbol

def ofLexeme (c : Char) (tail : List Char) : Except LexicalFault Token :=
  if c = ';' then .ok comment
  else if WordChar.isDigit c || (isSign c && !tail.isEmpty) then
    (Numeral.ofText (c :: tail)).map numeral
  else if WordChar.isNameStart c then
    if isRegister (c :: tail) then ofRegisterNumber tail else .ok (name (String.ofList (c :: tail)))
  else ofSymbol c

end Token

/-- A piece of a line: its bytes, and the token that it reads as. -/
structure Lexeme where
  span : Span
  reading : Except LexicalFault Token

namespace Lexeme

def isBlank (c : Char) : Bool :=
  c == ' ' || c == '\t' || c == '\r' || c == '\n'

/-- Which characters a lexeme takes after its first one, when `rest` follows that one. A comment
takes the line, a number or a word its tail, and anything else is complete by itself. -/
def goesOn (c : Char) (rest : List Char) : Char → Bool :=
  if c = ';' then (· != '\n')
  else if WordChar.isNameStart c || WordChar.isDigit c
      || (Token.isSign c && rest.head?.any WordChar.isDigit) then Token.isTail
  else fun _ => false

def scan (start : Nat) (text : List Char) : List Lexeme :=
  match text with
  | [] => []
  | c :: rest =>
    if isBlank c then scan (start + c.utf8Size) rest
    else
      let tail := rest.takeWhile (goesOn c rest)
      let stop := start + CodePoint.byteLength (c :: tail)
      ⟨⟨start, stop⟩, Token.ofLexeme c tail⟩ :: scan stop (rest.dropWhile (goesOn c rest))
termination_by text.length
decreasing_by
  · simp
  · have shorter := (rest.dropWhile_sublist (goesOn c rest)).length_le
    simp only [List.length_cons]
    omega

def ofLine (line : List Char) : List Lexeme :=
  scan 0 line

end Lexeme

end Gumnut
