import Gumnut.Assembly.Line
import Gumnut.Program.Fault

/-!
# Images

The image of a program: what goes into the two memories, and for debugging the listing and the
symbols. An image read back from storage has neither listing nor symbols.

Instruction memory and data memory are separate address spaces, so a location says which of them it
means. A symbol table binds a label once and for all; labels differ by case. The listing has the
source lines in order, those without a label and a mnemonic left out, each with the location that
it was assembled to. Read backwards, from the address of an instruction to its line, only
instructions count, and of several at one address the first.
-/
set_option autoImplicit false

namespace Gumnut

inductive Location where
  | code (address : UInt16)
  | data (address : UInt8)
  deriving DecidableEq, Repr

namespace Location

/-- The address without its space, as the value of a symbol. -/
def value : Location → UInt32
  | code address => address.toUInt32
  | data address => address.toUInt32

end Location

/-- Labels with their locations, the latest first, and no label twice. -/
structure SymbolTable where
  entries : List (String × Location) := []
  nodup : (entries.map Prod.fst).Nodup := by exact List.nodup_nil
  deriving DecidableEq

namespace SymbolTable

def empty : SymbolTable := {}

def lookup? (symbols : SymbolTable) (label : String) : Option Location :=
  symbols.entries.lookup label

theorem not_mem_of_lookup_eq_none {label : String} {entries : List (String × Location)}
    (absent : entries.lookup label = none) : label ∉ entries.map Prod.fst := by
  intro member
  obtain ⟨entry, inside, rfl⟩ := List.mem_map.mp member
  have := List.lookup_eq_none_iff.mp absent entry inside
  simp at this

def bind? (symbols : SymbolTable) (label : String) (location : Location) : Option SymbolTable :=
  match absent : symbols.lookup? label with
  | some _ => none
  | none =>
    some ⟨(label, location) :: symbols.entries,
      List.nodup_cons.mpr ⟨not_mem_of_lookup_eq_none absent, symbols.nodup⟩⟩

def labelOf? (symbols : SymbolTable) (location : Location) : Option String :=
  (symbols.entries.find? fun entry => entry.2 == location).map Prod.fst

def size (symbols : SymbolTable) : Nat :=
  symbols.entries.length

def isEmpty (symbols : SymbolTable) : Bool :=
  symbols.entries.isEmpty

theorem lookup?_bind? {symbols bound : SymbolTable} {label : String} {location : Location}
    (binds : symbols.bind? label location = some bound) (other : String) :
    bound.lookup? other = if other = label then some location else symbols.lookup? other := by
  unfold bind? at binds
  split at binds
  · simp at binds
  · cases binds
    by_cases same : other = label
    · simp [lookup?, same]
    · simp [lookup?, List.lookup_cons, same, beq_eq_false_iff_ne.mpr same]

theorem bind?_eq_none_iff (symbols : SymbolTable) (label : String) (location : Location) :
    symbols.bind? label location = none ↔ (symbols.lookup? label).isSome := by
  unfold bind?
  split <;> simp_all

end SymbolTable

/-- A source line in a listing, with its number counted from zero. -/
structure ListedLine where
  number : Nat
  line : Line
  location : Option Location
  deriving DecidableEq, Repr

namespace ListedLine

def isInstructionAt (listed : ListedLine) (address : UInt16) : Bool :=
  match listed.line.mnemonic with
  | some (.operation _) => listed.location == some (.code address)
  | _ => false

end ListedLine

structure Listing where
  lines : Array ListedLine := #[]
  deriving DecidableEq, Repr

namespace Listing

def add (listing : Listing) (number : Nat) (line : Line) (location : Option Location) : Listing :=
  ⟨listing.lines.push ⟨number, line, location⟩⟩

def get? (listing : Listing) (number : Nat) : Option ListedLine :=
  listing.lines.find? fun listed => listed.number == number

def locationOf? (listing : Listing) (number : Nat) : Option Location :=
  (listing.get? number).bind ListedLine.location

/-- The number of the first instruction line at an address. -/
def lineAt? (listing : Listing) (address : UInt16) : Option Nat :=
  (listing.lines.find? fun listed => listed.isInstructionAt address).map ListedLine.number

def size (listing : Listing) : Nat :=
  listing.lines.size

def isEmpty (listing : Listing) : Bool :=
  listing.lines.isEmpty

end Listing

structure Image where
  code : CodeMemory
  data : ByteMemory
  listing : Listing
  symbols : SymbolTable
  instructionCount : Nat
  lineCount : Nat
  deriving DecidableEq

namespace Image

def empty : Image where
  code := .zero
  data := .zero
  listing := {}
  symbols := .empty
  instructionCount := 0
  lineCount := 0

def ofWords (words : List UInt32) (bytes : List UInt8) : Except AssemblyFault Image :=
  match Memory.load? words, Memory.load? bytes with
  | none, _ => .error .codeTooLarge
  | some _, none => .error .dataTooLarge
  | some code, some data => .ok { empty with code, data, instructionCount := words.length }

end Image

end Gumnut
