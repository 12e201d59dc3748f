/-!
# Numbers in a radix

Numbers written in a radix. `read` takes digits of either case from left to right and stops at
the first reason to reject them; at one position a character that is no digit wins over a value
that has grown too large. The writers give the fewest digits, in lower case, or at least a given
number of them.
-/
set_option autoImplicit false

namespace Gumnut.Radix

inductive ReadFault where
  | empty
  | badDigit
  | tooLarge
  deriving DecidableEq, Repr

/-- The value of a digit of the radix; letters stand for ten and above. -/
def digit? (radix : Nat) (c : Char) : Option Nat :=
  let value :=
    if '0' ≤ c ∧ c ≤ '9' then c.toNat - '0'.toNat
    else if 'a' ≤ c ∧ c ≤ 'z' then c.toNat - 'a'.toNat + 10
    else if 'A' ≤ c ∧ c ≤ 'Z' then c.toNat - 'A'.toNat + 10
    else radix
  if value < radix then some value else none

/-- The value of `digits` read after `value`, kept below `bound`. -/
def readFrom (radix bound value : Nat) : List Char → Except ReadFault Nat
  | [] => .ok value
  | c :: digits =>
    match digit? radix c with
    | none => .error .badDigit
    | some d =>
      if radix * value + d < bound then readFrom radix bound (radix * value + d) digits
      else .error .tooLarge

def read (radix bound : Nat) (digits : List Char) : Except ReadFault Nat :=
  if digits.isEmpty then .error .empty else readFrom radix bound 0 digits

def digits (radix value : Nat) : List Char :=
  Nat.toDigits radix value

/-- The digits of a number with zeros in front up to a width. -/
def padded (radix width value : Nat) : List Char :=
  List.leftpad width '0' (digits radix value)

def decimal (value : Nat) : String :=
  String.ofList (digits 10 value)

def signedDecimal (value : Int) : String :=
  if value < 0 then "-" ++ decimal value.natAbs else decimal value.natAbs

def hexadecimal (width value : Nat) : String :=
  "0x" ++ String.ofList (padded 16 width value)

end Gumnut.Radix
