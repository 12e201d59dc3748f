import Gumnut.Assembly.Fault
import Gumnut.Memory
import Gumnut.Text.Quoted
import Gumnut.Text.Radix

/-!
# Faults of a program

What can be wrong with a program as a whole: a line of it that is not of the grammar, a line whose
meaning is not clear, or more code or data than the memories hold. An assembly error adds the line
of the source, counted from zero.
-/
set_option autoImplicit false

namespace Gumnut

inductive AssemblyFault where
  | malformed (fault : SyntaxFault)
  | unknownMnemonic (name : String)
  | invalidOperands
  | invalidNumeral
  | duplicateLabel (label : String)
  | undefinedLabel (label : String)
  | codeTooLarge
  | dataTooLarge
  deriving DecidableEq, Repr

namespace AssemblyFault

def message : AssemblyFault → String
  | malformed fault => fault.message
  | unknownMnemonic name => "unknown mnemonic " ++ Quoted.quote name
  | invalidOperands => "invalid operands for instruction"
  | invalidNumeral => "malformed numeric literal"
  | duplicateLabel label => "label " ++ Quoted.quote label ++ " was defined multiple times"
  | undefinedLabel label => "label " ++ Quoted.quote label ++ " could not be found"
  | codeTooLarge => "instruction memory size exceeded"
  | dataTooLarge => "data memory size exceeded"

def help? : AssemblyFault → Option String
  | malformed _ => none
  | unknownMnemonic _ => some "check the spelling of this instruction"
  | invalidOperands => some "check the number and kind of operands this instruction takes"
  | invalidNumeral => some "numbers cannot hold '.'"
  | duplicateLabel _ =>
    some "labels must be unique within a file, try renaming one of the labels"
  | undefinedLabel _ => some "try adding this label before an instruction or directive"
  | codeTooLarge => some ("instruction memory holds " ++ Radix.decimal codeSize ++ " words")
  | dataTooLarge => some ("data memory holds " ++ Radix.decimal dataSize ++ " bytes")

def name? : AssemblyFault → Option String
  | unknownMnemonic name | duplicateLabel name | undefinedLabel name => some name
  | _ => none

end AssemblyFault

structure AssemblyError where
  fault : AssemblyFault
  line : Nat
  deriving DecidableEq, Repr

namespace AssemblyError

def ofSyntax (error : SyntaxError) : AssemblyError :=
  ⟨.malformed error.fault, error.line⟩

end AssemblyError

end Gumnut
