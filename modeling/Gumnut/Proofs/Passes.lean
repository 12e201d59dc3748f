import Gumnut.Proofs.Denotation
import Gumnut.Proofs.Layout

/-!
# Passes over the lines

What one line can make of a draft, one rule for each kind of line, and what a pass over several
lines makes of it. The rules say all that a line can do; what is proved of a pass is proved of them.
-/
set_option autoImplicit false

namespace Gumnut

open Instruction (bind_eq_ok)

theorem ok_bind {ε α β : Type} (value : α) (next : α → Except ε β) :
    ((Except.ok value : Except ε α) >>= next) = next value := rfl

inductive Binds (pass : Pass) (symbols : SymbolTable) (label : Option String)
    (location : Location) : SymbolTable → Prop
  | kept (frozen : pass = .resolving ∨ label = none) : Binds pass symbols label location symbols
  | bound {name : String} {table : SymbolTable} (binding : pass = .binding)
      (named : label = some name) (fresh : symbols.bind? name location = some table) :
      Binds pass symbols label location table

theorem Binds.eq_of_resolving {symbols table : SymbolTable} {label : Option String}
    {location : Location} (binds : Binds .resolving symbols label location table) :
    table = symbols := by
  cases binds with
  | kept => rfl
  | bound binding => cases binding

namespace Draft

/-- What a line makes of a draft, one rule for each kind of line. -/
inductive Places (pass : Pass) (draft : Draft) (number : Nat) (line : Line) : Draft → Prop
  | blank (mnemonic : line.mnemonic = none) (label : line.label = none) :
      Places pass draft number line draft
  | label {symbols : SymbolTable} (mnemonic : line.mnemonic = none)
      (label : line.label ≠ none)
      (binds : Binds pass draft.symbols line.label (.code draft.codePointer) symbols) :
      Places pass draft number line
        { draft with
          symbols
          listing := draft.listing.add number line (some (.code draft.codePointer)) }
  | org {address : UInt32} {symbols : SymbolTable} (mnemonic : line.mnemonic = some .org)
      (operands : line.operands = ⟨some (.number address), none, none⟩)
      (inside : address.toNat ≤ codeSize)
      (binds : Binds pass draft.symbols line.label (.code address.toUInt16) symbols) :
      Places pass draft number line
        { draft with
          symbols
          codePointer := address.toUInt16
          listing := draft.listing.add number line
            (line.label.map fun _ => .code address.toUInt16) }
  | byte {operand : Operand} {symbols : SymbolTable} {value : UInt32}
      (mnemonic : line.mnemonic = some .byte)
      (operands : line.operands = ⟨some operand, none, none⟩)
      (room : draft.dataPointer.toNat < dataSize)
      (binds : Binds pass draft.symbols line.label (.data draft.dataPointer.toUInt8) symbols)
      (evaluates : operand.value (pass.resolve symbols) = .ok value) :
      Places pass draft number line
        { draft with
          symbols
          data := draft.data.set draft.dataPointer.toNat value.toUInt8
          dataPointer := draft.dataPointer + 1
          pending := draft.pending || line.hasUnboundSymbol symbols
          listing := draft.listing.add number line (some (.data draft.dataPointer.toUInt8)) }
  | instruction {operation : Operation} {symbols : SymbolTable} {instruction : Instruction}
      (mnemonic : line.mnemonic = some (.operation operation))
      (room : draft.codePointer.toNat < codeSize)
      (binds : Binds pass draft.symbols line.label (.code draft.codePointer) symbols)
      (assembles : Instruction.assemble (pass.resolve symbols) draft.codePointer operation
        line.operands = .ok instruction) :
      Places pass draft number line
        { draft with
          symbols
          code := draft.code.set draft.codePointer.toNat instruction.encode
          codePointer := draft.codePointer + 1
          instructionCount := draft.instructionCount + 1
          pending := draft.pending || line.hasUnboundSymbol symbols
          listing := draft.listing.add number line (some (.code draft.codePointer)) }

variable {pass : Pass} {draft next final : Draft} {number : Nat} {line : Line}

theorem binds_of_bindLabel {label : Option String} {location : Location}
    (binds : draft.bindLabel pass label location = .ok next) :
    ∃ symbols, Binds pass draft.symbols label location symbols ∧
      next = { draft with symbols } := by
  cases pass with
  | resolving =>
    cases binds
    exact ⟨draft.symbols, .kept (.inl rfl), rfl⟩
  | binding =>
    cases label with
    | none =>
      cases binds
      exact ⟨draft.symbols, .kept (.inr rfl), rfl⟩
    | some name =>
      simp only [bindLabel] at binds
      split at binds
      · rename_i symbols fresh
        cases binds
        exact ⟨symbols, .bound rfl rfl fresh, rfl⟩
      · cases binds

theorem bindLabel_of_binds (draft : Draft) {label : Option String} {location : Location}
    {symbols : SymbolTable} (binds : Binds pass draft.symbols label location symbols) :
    draft.bindLabel pass label location = .ok { draft with symbols } := by
  cases binds with
  | kept frozen =>
    rcases frozen with rfl | rfl
    · rfl
    · cases pass <;> rfl
  | bound binding named fresh =>
    subst binding named
    simp only [bindLabel, fresh]

theorem places_of_place (placed : draft.place pass number line = .ok next) :
    Places pass draft number line next := by
  unfold place at placed
  split at placed
  · rename_i mnemonic
    unfold placeLabel at placed
    split at placed
    · rename_i label
      cases placed
      exact .blank mnemonic (Option.isNone_iff_eq_none.mp label)
    · rename_i label
      obtain ⟨bound, binds, made⟩ := bind_eq_ok placed
      obtain ⟨symbols, rule, rfl⟩ := binds_of_bindLabel binds
      cases made
      exact .label mnemonic (fun none => label (Option.isNone_iff_eq_none.mpr none)) rule
  · rename_i mnemonic
    unfold placeOrg at placed
    split at placed
    · rename_i address operands
      split at placed
      · cases placed
      · rename_i inside
        obtain ⟨bound, binds, made⟩ := bind_eq_ok placed
        obtain ⟨symbols, rule, rfl⟩ := binds_of_bindLabel binds
        cases made
        exact .org mnemonic operands (Nat.le_of_not_lt inside) rule
    · cases placed
  · rename_i mnemonic
    unfold placeByte at placed
    split at placed
    · rename_i operand operands
      split at placed
      · cases placed
      · rename_i room
        obtain ⟨bound, binds, rest⟩ := bind_eq_ok placed
        obtain ⟨symbols, rule, rfl⟩ := binds_of_bindLabel binds
        obtain ⟨value, evaluates, made⟩ := bind_eq_ok rest
        cases made
        exact .byte mnemonic operands (Nat.lt_of_not_le room) rule evaluates
    · cases placed
  · cases placed
  · rename_i operation mnemonic
    unfold placeInstruction at placed
    split at placed
    · cases placed
    · rename_i room
      obtain ⟨bound, binds, rest⟩ := bind_eq_ok placed
      obtain ⟨symbols, rule, rfl⟩ := binds_of_bindLabel binds
      obtain ⟨instruction, assembles, made⟩ := bind_eq_ok rest
      cases made
      exact .instruction mnemonic (Nat.lt_of_not_le room) rule assembles

theorem place_of_places (places : Places pass draft number line next) :
    draft.place pass number line = .ok next := by
  unfold place
  cases places with
  | blank mnemonic label =>
    simp only [mnemonic, placeLabel, label, Option.isNone_none, if_true]
  | label mnemonic label binds =>
    have named : ¬ line.label.isNone = true := fun none =>
      label (Option.isNone_iff_eq_none.mp none)
    simp only [mnemonic, placeLabel, if_neg named, bindLabel_of_binds draft binds, ok_bind, list]
  | @org address symbols mnemonic operands inside binds =>
    have moved := bindLabel_of_binds { draft with codePointer := address.toUInt16 } binds
    simp only [mnemonic, placeOrg, operands, if_neg (Nat.not_lt.mpr inside), moved, ok_bind, list]
  | byte mnemonic operands room binds evaluates =>
    simp only [mnemonic, placeByte, operands, if_neg (Nat.not_le.mpr room),
      bindLabel_of_binds draft binds, ok_bind, evaluates, list]
  | instruction mnemonic room binds assembles =>
    simp only [mnemonic, placeInstruction, if_neg (Nat.not_le.mpr room),
      bindLabel_of_binds draft binds, ok_bind, assembles, list]

def site (draft : Draft) (number : Nat) (line : Line) : Site :=
  ⟨number, draft.codePointer.toNat, draft.dataPointer.toNat, line⟩

theorem Places.codePointer_eq (places : Places pass draft number line next) :
    next.codePointer.toNat = line.codeAfter draft.codePointer.toNat := by
  cases places with
  | blank mnemonic | label mnemonic => simp only [Line.codeAfter, mnemonic]
  | org mnemonic operands inside =>
    simp only [Line.codeAfter, mnemonic, operands, UInt32.toNat_toUInt16]
    unfold codeSize at inside
    omega
  | byte mnemonic => simp only [Line.codeAfter, mnemonic]
  | instruction mnemonic room =>
    simp only [Line.codeAfter, mnemonic, UInt16.toNat_add, UInt16.toNat_one]
    unfold codeSize at room
    omega

theorem Places.dataPointer_eq (places : Places pass draft number line next) :
    next.dataPointer.toNat = line.dataAfter draft.dataPointer.toNat := by
  cases places with
  | blank mnemonic | label mnemonic | org mnemonic | instruction mnemonic =>
    simp [Line.dataAfter, Line.isByte, mnemonic]
  | byte mnemonic operands room =>
    simp only [Line.dataAfter, Line.isByte, mnemonic, beq_self_eq_true, if_true,
      UInt16.toNat_add, UInt16.toNat_one]
    unfold dataSize at room
    omega

theorem Places.walk_cons (places : Places pass draft number line next) (rest : List Line) :
    Layout.walk number draft.codePointer.toNat draft.dataPointer.toNat (line :: rest) =
      draft.site number line ::
        Layout.walk (number + 1) next.codePointer.toNat next.dataPointer.toNat rest := by
  rw [Layout.walk, places.codePointer_eq, places.dataPointer_eq]
  rfl

inductive Runs (pass : Pass) : Draft → Nat → List Line → Draft → Prop
  | nil (draft : Draft) (number : Nat) : Runs pass draft number [] draft
  | cons {draft next final : Draft} {number : Nat} {line : Line} {rest : List Line}
      (places : Places pass draft number line next)
      (runs : Runs pass next (number + 1) rest final) :
      Runs pass draft number (line :: rest) final

theorem runs_of_placeAll {lines : List Line}
    (placed : draft.placeAll pass number lines = .ok final) :
    Runs pass draft number lines final := by
  induction lines generalizing draft number with
  | nil =>
    cases placed
    exact .nil _ _
  | cons line rest ih =>
    rw [placeAll] at placed
    cases first : draft.place pass number line with
    | error fault => simp [first] at placed
    | ok next =>
      simp only [first] at placed
      exact .cons (places_of_place first) (ih placed)

theorem placeAll_of_runs {lines : List Line} (runs : Runs pass draft number lines final) :
    draft.placeAll pass number lines = .ok final := by
  induction runs with
  | nil => rfl
  | cons places runs ih => simp only [placeAll, place_of_places places, ih]

/-- The rules say exactly what a pass does. -/
theorem placeAll_eq_ok_iff {lines : List Line} :
    draft.placeAll pass number lines = .ok final ↔ Runs pass draft number lines final :=
  ⟨runs_of_placeAll, placeAll_of_runs⟩

/-- A program has the draft of its binding pass if that used no symbol before its label, and the
draft of a resolving pass under the same symbols if it did. -/
theorem ofLines_eq_ok_iff {lines : List Line} :
    ofLines lines = .ok final ↔
      ∃ bound, Runs .binding {} 0 lines bound ∧
        if bound.pending then Runs .resolving { symbols := bound.symbols } 0 lines final
        else bound = final := by
  simp only [← placeAll_eq_ok_iff, ofLines]
  cases placeAll {} .binding 0 lines with
  | error error => simp
  | ok bound => cases pending : bound.pending <;> simp [pending]

end Draft

end Gumnut
