import Gumnut.Machine.Fault
import Gumnut.Program.Fault

/-!
# Exceptions

What a debugging session records when something goes wrong: a program that could not be assembled,
or a fault of the machine.
-/
set_option autoImplicit false

namespace Gumnut

inductive Exception where
  | assembly (error : AssemblyError)
  | machine (fault : Fault)
  deriving DecidableEq, Repr

structure ExceptionReport where
  kind : String
  message : String
  value : Option Int
  deriving DecidableEq, Repr

namespace Exception

def kind : Exception → String
  | assembly error =>
    match error.fault with
    | .unknownMnemonic _ => "unknown_mnemonic"
    | .malformed _ | .invalidOperands | .invalidNumeral => "malformed_instruction"
    | .duplicateLabel _ => "duplicate_label"
    | .undefinedLabel _ => "undefined_label"
    | .codeTooLarge => "instruction_memory_size_exceeded"
    | .dataTooLarge => "data_memory_size_exceeded"
  | machine fault => fault.kind

def value? : Exception → Option Int
  | assembly _ => none
  | machine fault => fault.value?

def isFatal : Exception → Bool
  | assembly _ => true
  | machine fault => fault.isFatal

def causeMessage : Exception → String
  | assembly error => error.fault.message
  | machine fault => fault.message

def message : Exception → String
  | assembly error => "line " ++ Radix.decimal error.line ++ ": " ++ error.fault.message
  | machine fault => fault.message

def help? : Exception → Option String
  | assembly error => error.fault.help?
  | machine fault => fault.help?

def line? : Exception → Option Nat
  | assembly error => some error.line
  | machine _ => none

def report (exception : Exception) : ExceptionReport where
  kind := exception.kind
  message := exception.message
  value := exception.value?

end Exception

end Gumnut
