import Gumnut.Assembly.Fault
import Gumnut.Text.Radix

/-!
# Numerals

Numeric literals: an optional sign, then hexadecimal digits after `0x`, binary digits after `0b`,
or decimal digits. A magnitude has 32 bits. A negative literal stands for its two's-complement
byte, so `-1` is 255; a positive one is kept whole. A literal with a point or a comma in it is
read as not a number, which leaves the verdict to the assembler.
-/
set_option autoImplicit false

namespace Gumnut

/-- The byte that minus a value leaves modulo 256. -/
def negatedByte (value : UInt32) : UInt32 :=
  (-value) % 256

inductive Numeral where
  | value (v : UInt32)
  | notANumber
  deriving DecidableEq, Repr

namespace Numeral

inductive Base where
  | hexadecimal
  | binary
  | decimal
  deriving DecidableEq, Repr

namespace Base

def radix : Base → Nat
  | hexadecimal => 16
  | binary => 2
  | decimal => 10

def fault : Base → Radix.ReadFault → LexicalFault
  | _, .tooLarge => .doesNotFit
  | hexadecimal, .badDigit => .badHexDigit
  | hexadecimal, .empty => .missingHexDigits
  | binary, .badDigit => .badBinaryDigit
  | binary, .empty => .missingBinaryDigits
  | decimal, .badDigit => .badDecimalDigit
  | decimal, .empty => .badDecimalDigit

/-- The base that the front of an unsigned literal announces, and the digits behind it. -/
def split : List Char → Base × List Char
  | '0' :: 'x' :: digits => (hexadecimal, digits)
  | '0' :: 'X' :: digits => (hexadecimal, digits)
  | '0' :: 'b' :: digits => (binary, digits)
  | '0' :: 'B' :: digits => (binary, digits)
  | digits => (decimal, digits)

end Base

def magnitude (unsigned : List Char) : Except LexicalFault UInt32 :=
  let (base, digits) := Base.split unsigned
  match Radix.read base.radix UInt32.size digits with
  | .ok m => .ok (UInt32.ofNat m)
  | .error reason => .error (base.fault reason)

def ofText (text : List Char) : Except LexicalFault Numeral :=
  if text.contains '.' || text.contains ',' then .ok notANumber
  else
    match text with
    | '-' :: unsigned => (magnitude unsigned).map fun m => value (negatedByte m)
    | '+' :: unsigned => (magnitude unsigned).map value
    | unsigned => (magnitude unsigned).map value

end Numeral

end Gumnut
