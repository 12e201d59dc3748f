import Gumnut.Memory
import Gumnut.Text.Radix

/-!
# Faults of the machine

The conditions that a machine raises. All of them stop execution but one: a call that finds the
return stack full still jumps, and only its return address is lost.
-/
set_option autoImplicit false

namespace Gumnut

inductive Fault where
  /-- A program counter outside the instruction memory, reached or aimed at. -/
  | badCounter (address : Int)
  | codeTooLarge (words : Nat)
  | dataTooLarge (bytes : Nat)
  /-- An address outside the data memory and the I/O registers. -/
  | accessViolation (address : Int)
  | undefinedInstruction (word : UInt32)
  | emptyReturnStack
  /-- The return address that found no place. -/
  | returnStackOverflow (address : UInt16)
  deriving DecidableEq, Repr

namespace Fault

def isFatal : Fault → Bool
  | returnStackOverflow _ => false
  | _ => true

def kind : Fault → String
  | badCounter _ => "invalid_pc"
  | codeTooLarge _ => "instruction_memory_size_exceeded"
  | dataTooLarge _ => "data_memory_size_exceeded"
  | accessViolation _ => "data_memory_access_violation"
  | undefinedInstruction _ => "invalid_instruction"
  | emptyReturnStack => "empty_return_stack"
  | returnStackOverflow _ => "return_stack_overflow"

def value? : Fault → Option Int
  | badCounter address => some address
  | codeTooLarge words => some words
  | dataTooLarge bytes => some bytes
  | accessViolation address => some address
  | undefinedInstruction word => some word.toNat
  | emptyReturnStack => none
  | returnStackOverflow address => some address.toNat

def message : Fault → String
  | badCounter address => "invalid PC value " ++ Radix.signedDecimal address
  | codeTooLarge words =>
    "instruction memory size exceeded (" ++ Radix.decimal words ++ " words)"
  | dataTooLarge bytes => "data memory size exceeded (" ++ Radix.decimal bytes ++ " bytes)"
  | accessViolation address =>
    "data memory access violation at address " ++ Radix.signedDecimal address
  | undefinedInstruction word => "invalid instruction " ++ Radix.hexadecimal 5 word.toNat
  | emptyReturnStack => "return from subroutine with empty return address stack"
  | returnStackOverflow _ => "return address stack overflow"

def help? : Fault → Option String
  | badCounter _ => some ("the PC must stay between 0 and " ++ Radix.decimal (codeSize - 1))
  | codeTooLarge _ | dataTooLarge _ => none
  | accessViolation _ => some "base register plus offset must be between 0 and 255"
  | undefinedInstruction _ => some "execution may have run into data or unassembled memory"
  | emptyReturnStack => some "every ret must be paired with an earlier jsb"
  | returnStackOverflow _ => some "subroutine calls can only nest 8 deep"

end Fault

end Gumnut
