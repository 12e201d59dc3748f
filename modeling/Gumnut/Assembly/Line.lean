import Gumnut.Assembly.Numeral
import Gumnut.Instruction

/-!
# Line records

The record of one line of source: a label, a mnemonic and up to three operands, each of which may
be missing. A mnemonic is an operation of the processor, one of the directives `org` and `byte`, or
a name that is neither; case does not matter for the first two, and an unknown name keeps its
spelling. An indexed operand fills two places, its base and its offset. Operands are unresolved: a
symbol stays a name until the line is assembled.
-/
set_option autoImplicit false

namespace Gumnut

inductive Mnemonic where
  | operation (operation : Operation)
  | org
  | byte
  | unknown (name : String)
  deriving DecidableEq, Repr

namespace Mnemonic

/-- A character in lower case, as far as that can spell a mnemonic. Of the characters beyond ASCII
the Kelvin sign alone has an ASCII letter for its lower case. -/
def lower (c : Char) : Char :=
  if c = '\u212A' then 'k' else c.toLower

def ofName (name : String) : Mnemonic :=
  let lowered := String.ofList (name.toList.map lower)
  match Operation.ofText? lowered with
  | some op => operation op
  | none => if lowered = "org" then org else if lowered = "byte" then byte else unknown name

def text : Mnemonic → String
  | operation op => op.text
  | org => "org"
  | byte => "byte"
  | unknown name => name

end Mnemonic

inductive Operand where
  | register (r : Reg)
  | number (value : UInt32)
  | notANumber
  | symbol (name : String)
  deriving DecidableEq, Repr

namespace Operand

def ofNumeral : Numeral → Operand
  | .value v => number v
  | .notANumber => notANumber

def text : Operand → String
  | register r => r.text
  | number value => Radix.hexadecimal 0 value.toNat
  | notANumber => "NaN"
  | symbol name => name

end Operand

structure Operands where
  first : Option Operand := none
  second : Option Operand := none
  third : Option Operand := none
  deriving DecidableEq, Repr

namespace Operands

def capacity : Nat := 3

def ofList (operands : List Operand) : Operands where
  first := operands[0]?
  second := operands[1]?
  third := operands[2]?

def toList (operands : Operands) : List Operand :=
  [operands.first, operands.second, operands.third].filterMap id

theorem toList_ofList {operands : List Operand} (fit : operands.length ≤ capacity) :
    (ofList operands).toList = operands := by
  match operands, fit with
  | [], _ | [_], _ | [_, _], _ | [_, _, _], _ => rfl
  | _ :: _ :: _ :: _ :: _, fit =>
    simp only [capacity, List.length_cons] at fit
    omega

end Operands

structure Line where
  label : Option String := none
  mnemonic : Option Mnemonic := none
  operands : Operands := {}
  deriving DecidableEq, Repr

namespace Line

def isEmpty (line : Line) : Bool :=
  line.label.isNone && line.mnemonic.isNone && line.operands.toList.isEmpty

def operandsText (operands : Operands) : String :=
  match operands.toList with
  | [] => ""
  | operands => " " ++ String.intercalate ", " (operands.map Operand.text)

/-- The record as source text. Operands show only behind a mnemonic. -/
def text (line : Line) : String :=
  match line.label, line.mnemonic with
  | none, none => ""
  | some label, none => label ++ ":"
  | none, some mnemonic => mnemonic.text ++ operandsText line.operands
  | some label, some mnemonic => label ++ ": " ++ mnemonic.text ++ operandsText line.operands

end Line

end Gumnut
