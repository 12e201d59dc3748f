import Gumnut.Assembly.Parse
import Gumnut.Program.Image
import Gumnut.Program.Resolution

/-!
# Assembling a program

From the lines of a program to its image. Instructions and data bytes are laid out in the order of
the lines, each at its own pointer; `org` moves the one for instructions.

A pass over the lines binds every label where it stands and takes zero for a symbol that is not
bound yet. If there was one, the lines are gone through once more with the symbols complete, and
now a symbol without a binding is a fault.
-/
set_option autoImplicit false

namespace Gumnut

inductive Pass where
  /-- Labels are bound; a symbol that is not bound yet counts as zero. -/
  | binding
  /-- The symbols are complete. -/
  | resolving
  deriving DecidableEq, Repr

def Pass.resolve (pass : Pass) (symbols : SymbolTable) (label : String) :
    Except AssemblyFault UInt32 :=
  match symbols.lookup? label, pass with
  | some location, _ => .ok location.value
  | none, .binding => .ok 0
  | none, .resolving => .error (.undefinedLabel label)

namespace Line

def hasUnboundSymbol (line : Line) (symbols : SymbolTable) : Bool :=
  line.operands.toList.any fun operand =>
    match operand with
    | .symbol label => (symbols.lookup? label).isNone
    | _ => false

end Line

structure Draft where
  symbols : SymbolTable := .empty
  /-- Where the next instruction goes. It may point just behind the memory. -/
  codePointer : UInt16 := 0
  /-- Where the next data byte goes. It may point just behind the memory. -/
  dataPointer : UInt16 := 0
  code : CodeMemory := .zero
  data : ByteMemory := .zero
  listing : Listing := {}
  instructionCount : Nat := 0
  /-- Whether a symbol was used that was not bound yet. -/
  pending : Bool := false

namespace Draft

/-- Binds the label of a line, if it has one and the pass binds labels. -/
def bindLabel (draft : Draft) (pass : Pass) (label : Option String) (location : Location) :
    Except AssemblyFault Draft :=
  match pass, label with
  | .binding, some label =>
    match draft.symbols.bind? label location with
    | some symbols => .ok { draft with symbols }
    | none => .error (.duplicateLabel label)
  | _, _ => .ok draft

def list (draft : Draft) (number : Nat) (line : Line) (location : Option Location) : Draft :=
  { draft with listing := draft.listing.add number line location }

/-- A line with a label only: the label is bound to the next instruction. -/
def placeLabel (draft : Draft) (pass : Pass) (number : Nat) (line : Line) :
    Except AssemblyFault Draft := do
  if line.label.isNone then .ok draft
  else
    let location := Location.code draft.codePointer
    let draft ← draft.bindLabel pass line.label location
    .ok (draft.list number line (some location))

/-- The directive `org`: instructions go on at another address, to which its label is bound. -/
def placeOrg (draft : Draft) (pass : Pass) (number : Nat) (line : Line) :
    Except AssemblyFault Draft :=
  match line.operands with
  | ⟨some (.number address), none, none⟩ => do
    if codeSize < address.toNat then .error .codeTooLarge
    else
      let location := Location.code address.toUInt16
      let moved := { draft with codePointer := address.toUInt16 }
      let bound ← moved.bindLabel pass line.label location
      .ok (bound.list number line (line.label.map fun _ => location))
  | _ => .error .invalidOperands

def placeByte (draft : Draft) (pass : Pass) (number : Nat) (line : Line) :
    Except AssemblyFault Draft :=
  match line.operands with
  | ⟨some operand, none, none⟩ => do
    if dataSize ≤ draft.dataPointer.toNat then .error .dataTooLarge
    else
      let location := Location.data draft.dataPointer.toUInt8
      let draft ← draft.bindLabel pass line.label location
      let value ← operand.value (pass.resolve draft.symbols)
      let placed := { draft with
        data := draft.data.set draft.dataPointer.toNat value.toUInt8
        dataPointer := draft.dataPointer + 1
        pending := draft.pending || line.hasUnboundSymbol draft.symbols }
      .ok (placed.list number line (some location))
  | _ => .error .invalidOperands

def placeInstruction (draft : Draft) (pass : Pass) (number : Nat) (line : Line)
    (operation : Operation) : Except AssemblyFault Draft := do
  if codeSize ≤ draft.codePointer.toNat then .error .codeTooLarge
  else
    let location := Location.code draft.codePointer
    let draft ← draft.bindLabel pass line.label location
    let instruction ←
      Instruction.assemble (pass.resolve draft.symbols) draft.codePointer operation line.operands
    let placed := { draft with
      code := draft.code.set draft.codePointer.toNat instruction.encode
      codePointer := draft.codePointer + 1
      instructionCount := draft.instructionCount + 1
      pending := draft.pending || line.hasUnboundSymbol draft.symbols }
    .ok (placed.list number line (some location))

def place (draft : Draft) (pass : Pass) (number : Nat) (line : Line) :
    Except AssemblyFault Draft :=
  match line.mnemonic with
  | none => draft.placeLabel pass number line
  | some .org => draft.placeOrg pass number line
  | some .byte => draft.placeByte pass number line
  | some (.unknown name) => .error (.unknownMnemonic name)
  | some (.operation operation) => draft.placeInstruction pass number line operation

/-- The draft after some lines of which the first has a given number. -/
def placeAll (draft : Draft) (pass : Pass) (number : Nat) : List Line → Except AssemblyError Draft
  | [] => .ok draft
  | line :: rest =>
    match draft.place pass number line with
    | .error fault => .error ⟨fault, number⟩
    | .ok draft => draft.placeAll pass (number + 1) rest

/-- The draft of a program: that of the first pass, unless a symbol was used before its label. -/
def ofLines (lines : List Line) : Except AssemblyError Draft :=
  match placeAll {} .binding 0 lines with
  | .error error => .error error
  | .ok first =>
    if first.pending then placeAll { symbols := first.symbols } .resolving 0 lines else .ok first

end Draft

namespace Image

def ofLines (lines : List Line) : Except AssemblyError Image :=
  (Draft.ofLines lines).map fun draft =>
    { code := draft.code
      data := draft.data
      listing := draft.listing
      symbols := draft.symbols
      instructionCount := draft.instructionCount
      lineCount := lines.length }

def ofSource (source : String) : Except AssemblyError Image :=
  match Source.parse source with
  | .error error => .error (.ofSyntax error)
  | .ok lines => ofLines lines

end Image

end Gumnut
