import Gumnut.Proofs.OneTable

/-!
# What a program is assembled to

The memories of an assembled program, told by its layout and its finished symbols: every word is
that of the last instruction line at its address, every data byte that of its line, and all other
cells are zero.
-/
set_option autoImplicit false

namespace Gumnut

def Site.Denotes (symbols : SymbolTable) (site : Site) (instruction : Instruction) : Prop :=
  ∃ operation, site.line.operation? = some operation ∧
    Instruction.Denotes symbols site.code operation site.line.operands instruction

theorem Site.Denotes.unique {symbols : SymbolTable} {site : Site} {instruction other : Instruction}
    (denotes : site.Denotes symbols instruction) (denotes' : site.Denotes symbols other) :
    instruction = other := by
  obtain ⟨operation, mnemonic, means⟩ := denotes
  obtain ⟨operation', mnemonic', means'⟩ := denotes'
  cases mnemonic.symm.trans mnemonic'
  exact means.unique means'

theorem Site.Denotes.encodable {symbols : SymbolTable} {site : Site} {instruction : Instruction}
    (denotes : site.Denotes symbols instruction) : instruction.Encodable := by
  obtain ⟨operation, -, means⟩ := denotes
  exact means.encodable

theorem Site.Denotes.congr {symbols table : SymbolTable} {site other : Site}
    {instruction : Instruction} (same : ∀ label, symbols.lookup? label = table.lookup? label)
    (code : site.code = other.code) (line : site.line = other.line)
    (denotes : site.Denotes symbols instruction) : other.Denotes table instruction := by
  obtain ⟨operation, mnemonic, means⟩ := denotes
  rw [line] at mnemonic means
  rw [code] at means
  exact ⟨operation, mnemonic, means.congr same⟩

def Line.DenotesByte (symbols : SymbolTable) (line : Line) (byte : UInt8) : Prop :=
  ∃ operand v, line.operands = ⟨some operand, none, none⟩ ∧
    operand.valueIn? symbols = some v ∧ byte = UInt8.ofNat (v % 256)

theorem Line.DenotesByte.unique {symbols : SymbolTable} {line : Line} {byte other : UInt8}
    (denotes : line.DenotesByte symbols byte) (denotes' : line.DenotesByte symbols other) :
    byte = other := by
  obtain ⟨operand, v, operands, value, rfl⟩ := denotes
  obtain ⟨operand', v', operands', value', rfl⟩ := denotes'
  rw [operands] at operands'
  cases operands'
  cases value.symm.trans value'
  rfl

theorem Line.DenotesByte.congr {symbols table : SymbolTable} {line : Line} {byte : UInt8}
    (same : ∀ label, symbols.lookup? label = table.lookup? label)
    (denotes : line.DenotesByte symbols byte) : line.DenotesByte table byte := by
  obtain ⟨operand, v, operands, value, low⟩ := denotes
  rw [Operand.valueIn?_congr same] at value
  exact ⟨operand, v, operands, value, low⟩

namespace Draft

variable {pass : Pass} {draft next final : Draft} {number : Nat} {line : Line}
  {lines : List Line}

theorem Places.code_of_isInstructionAt {address : Nat}
    (places : Places .resolving draft number line next)
    (here : (draft.site number line).isInstructionAt address = true) :
    ∃ instruction, (draft.site number line).Denotes draft.symbols instruction ∧
      next.code.get? address = some instruction.encode := by
  obtain ⟨kind, place⟩ := Site.isInstructionAt_iff.mp here
  have pointer : draft.codePointer.toNat = address := place
  cases places with
  | @instruction operation symbols instruction mnemonic room binds assembles =>
    have kept : symbols = draft.symbols := binds.eq_of_resolving
    rw [kept] at assembles
    refine ⟨instruction, ⟨operation, ?_, Instruction.denotes_of_assemble assembles⟩, ?_⟩
    · simp only [site, Line.operation?, mnemonic]
    · rw [← pointer, Memory.get?_set, if_pos ⟨rfl, room⟩]
  | blank mnemonic | label mnemonic | org mnemonic | byte mnemonic =>
    simp [site, Line.isInstruction, Line.operation?, mnemonic] at kind

theorem Places.code_of_not_isInstructionAt {address : Nat}
    (places : Places pass draft number line next)
    (elsewhere : (draft.site number line).isInstructionAt address = false) :
    next.code.get? address = draft.code.get? address := by
  cases places with
  | blank | label | org | byte => rfl
  | instruction mnemonic =>
    rw [Memory.get?_set, if_neg]
    rintro ⟨here, -⟩
    simp [Site.isInstructionAt, site, Line.isInstruction, Line.operation?, mnemonic, here]
      at elsewhere

/-- The word at an address behind a pass is that of the last instruction line there, and the old
one if there is none. -/
theorem Runs.code_at (runs : Runs .resolving draft number lines final) (address : Nat) :
    match ((Layout.walk number draft.codePointer.toNat draft.dataPointer.toNat lines).filter
        fun site => site.isInstructionAt address).getLast? with
    | some site => ∃ instruction, site.Denotes draft.symbols instruction ∧
        final.code.get? address = some instruction.encode
    | none => final.code.get? address = draft.code.get? address := by
  induction runs with
  | nil => rfl
  | @cons draft next final number line rest places runs ih =>
    rw [places.symbols_eq] at ih
    rw [places.walk_cons, List.filter_cons]
    cases here : (draft.site number line).isInstructionAt address with
    | false =>
      rw [if_neg Bool.false_ne_true, ← places.code_of_not_isInstructionAt here]
      exact ih
    | true =>
      rw [if_pos rfl, List.getLast?_cons]
      generalize (List.filter _ _).getLast? = last at ih ⊢
      cases last with
      | some site => exact ih
      | none =>
        obtain ⟨instruction, denotes, word⟩ := places.code_of_isInstructionAt here
        exact ⟨instruction, denotes, ih.trans word⟩

/-! ## Data bytes -/

theorem Places.data_of_isByte (places : Places .resolving draft number line next)
    (here : line.isByte = true) :
    ∃ byte, line.DenotesByte draft.symbols byte ∧
      draft.dataPointer.toNat < dataSize ∧
      next.data = draft.data.set draft.dataPointer.toNat byte := by
  cases places with
  | @byte operand symbols value mnemonic operands room binds evaluates =>
    have kept : symbols = draft.symbols := binds.eq_of_resolving
    rw [kept] at evaluates
    exact ⟨value.toUInt8, ⟨operand, value.toNat, operands,
      Instruction.valueIn?_of_value evaluates, Instruction.toUInt8_eq value⟩, room, rfl⟩
  | blank mnemonic | label mnemonic | org mnemonic | instruction mnemonic =>
    simp [Line.isByte, mnemonic] at here

theorem Places.data_of_not_isByte (places : Places pass draft number line next)
    (elsewhere : line.isByte = false) : next.data = draft.data := by
  cases places with
  | blank | label | org | instruction => rfl
  | byte mnemonic => simp [Line.isByte, mnemonic] at elsewhere

/-- Behind a pass the bytes of its `byte` lines follow each other from the data pointer on, and all
others are the old ones. -/
theorem Runs.data_at (runs : Runs .resolving draft number lines final) (address : Nat) :
    (address < draft.dataPointer.toNat → final.data.get? address = draft.data.get? address) ∧
    ∀ k, address = draft.dataPointer.toNat + k →
      match (Layout.byteLines lines)[k]? with
      | some line => ∃ byte, line.DenotesByte draft.symbols byte ∧
          final.data.get? address = some byte
      | none => final.data.get? address = draft.data.get? address := by
  induction runs with
  | nil => exact ⟨fun _ => rfl, fun _ _ => rfl⟩
  | @cons draft next final number line rest places runs ih =>
    rw [places.symbols_eq, places.dataPointer_eq, Line.dataAfter] at ih
    obtain ⟨before, behind⟩ := ih
    cases here : line.isByte with
    | false =>
      rw [here] at before behind
      rw [Layout.byteLines, List.filter_cons_of_neg (Bool.eq_false_iff.mp here)]
      rw [places.data_of_not_isByte here] at before behind
      exact ⟨before, behind⟩
    | true =>
      simp only [here, if_true] at before behind
      obtain ⟨byte, denotes, room, written⟩ := places.data_of_isByte here
      rw [Layout.byteLines, List.filter_cons_of_pos here]
      refine ⟨fun below => ?_, fun k place => ?_⟩
      · rw [before (Nat.lt_succ_of_lt below), written, Memory.get?_set, if_neg]
        rintro ⟨same, -⟩
        omega
      · cases k with
        | zero =>
          have own : draft.dataPointer.toNat = address := place.symm
          refine ⟨byte, denotes, ?_⟩
          rw [before (by omega), written, Memory.get?_set, own, if_pos ⟨rfl, own ▸ room⟩]
        | succ k =>
          have apart : ¬ (draft.dataPointer.toNat = address ∧ address < dataSize) := by
            rintro ⟨same, -⟩
            omega
          have rest := behind k (by omega)
          rw [written, Memory.get?_set, if_neg apart] at rest
          exact rest

/-! ## Counts -/

theorem Places.instructionCount_eq (places : Places pass draft number line next) :
    next.instructionCount = draft.instructionCount + if line.isInstruction then 1 else 0 := by
  cases places with
  | blank mnemonic | label mnemonic | org mnemonic | byte mnemonic | instruction mnemonic =>
    simp [Line.isInstruction, Line.operation?, mnemonic]

theorem Runs.instructionCount_eq (runs : Runs pass draft number lines final) :
    final.instructionCount = draft.instructionCount + lines.countP Line.isInstruction := by
  induction runs with
  | nil => rfl
  | cons places runs ih =>
    rw [ih, places.instructionCount_eq, List.countP_cons]
    omega

end Draft

/-! ## Images -/

namespace Image

variable {lines : List Line} {image : Image}

theorem draft_of_ofLines (assembles : ofLines lines = .ok image) :
    ∃ final, Draft.ofLines lines = .ok final ∧ image.code = final.code ∧
      image.data = final.data ∧ image.listing = final.listing ∧ image.symbols = final.symbols ∧
      image.instructionCount = final.instructionCount := by
  unfold ofLines at assembles
  cases drafted : Draft.ofLines lines with
  | error error => simp [drafted, Except.map] at assembles
  | ok final =>
    rw [drafted] at assembles
    cases assembles
    exact ⟨final, rfl, rfl, rfl, rfl, rfl, rfl⟩

theorem runs_of_ofLines (assembles : ofLines lines = .ok image) :
    ∃ final, Draft.Runs .resolving { symbols := image.symbols } 0 lines final ∧
      image.code = final.code ∧ image.data = final.data ∧ image.listing = final.listing ∧
      image.instructionCount = final.instructionCount := by
  obtain ⟨final, drafted, code, data, listing, symbols, count⟩ := draft_of_ofLines assembles
  rw [symbols]
  exact ⟨final, Draft.runs_of_ofLines drafted, code, data, listing, count⟩

theorem get?_zero {size : Nat} {α : Type} [OfNat α 0] {address : Nat} (inside : address < size) :
    (Memory.zero : Memory α size).get? address = some 0 := by
  simp [Memory.zero, Memory.get?, inside]

/-- The word at an address of an image is that of the last instruction line there, under the
symbols of the image, and zero if there is none. -/
theorem code_at (assembles : ofLines lines = .ok image) {address : Nat}
    (inside : address < codeSize) :
    match (Layout.instructionsAt lines address).getLast? with
    | some site => ∃ instruction, site.Denotes image.symbols instruction ∧
        image.code.get? address = some instruction.encode
    | none => image.code.get? address = some 0 := by
  obtain ⟨final, runs, code, -, -, -⟩ := runs_of_ofLines assembles
  rw [code, ← get?_zero inside]
  exact runs.code_at address

/-- An address with an instruction line is within the memory, and has the word of the last line
there. -/
theorem word_of_getLast? (assembles : ofLines lines = .ok image) {address : Nat} {last : Site}
    (ending : (Layout.instructionsAt lines address).getLast? = some last) :
    ∃ instruction, last.Denotes image.symbols instruction ∧
      image.code.get? address = some instruction.encode := by
  obtain ⟨final, runs, code, -, -, -⟩ := runs_of_ofLines assembles
  have placed := runs.code_at address
  have walked : ((Layout.walk 0 0 0 lines).filter
      fun site => site.isInstructionAt address).getLast? = some last := ending
  simp only [UInt16.toNat_zero, walked] at placed
  rw [code]
  exact placed

theorem data_at (assembles : ofLines lines = .ok image) {k : Nat} (inside : k < dataSize) :
    match (Layout.byteLines lines)[k]? with
    | some line => ∃ byte, line.DenotesByte image.symbols byte ∧ image.data.get? k = some byte
    | none => image.data.get? k = some 0 := by
  obtain ⟨final, runs, -, data, -, -⟩ := runs_of_ofLines assembles
  rw [data, ← get?_zero inside]
  exact (runs.data_at k).2 k (Nat.zero_add k).symm

theorem instructionCount_eq (assembles : ofLines lines = .ok image) :
    image.instructionCount = lines.countP Line.isInstruction := by
  obtain ⟨final, runs, -, -, -, count⟩ := runs_of_ofLines assembles
  rw [count, runs.instructionCount_eq]
  exact Nat.zero_add _

/-- The memories of an image hold what the lines stand for under the finished symbols, whether one
pass was made or two. -/
theorem assembled_by_final_symbols (assembles : ofLines lines = .ok image) :
    (∀ address < codeSize,
      match (Layout.instructionsAt lines address).getLast? with
      | some site => ∃ instruction, site.Denotes image.symbols instruction ∧
          image.code.get? address = some instruction.encode
      | none => image.code.get? address = some 0) ∧
    (∀ k < dataSize,
      match (Layout.byteLines lines)[k]? with
      | some line => ∃ byte, line.DenotesByte image.symbols byte ∧ image.data.get? k = some byte
      | none => image.data.get? k = some 0) ∧
    image.instructionCount = lines.countP Line.isInstruction := by
  refine ⟨fun address inside => code_at assembles inside,
    fun k inside => data_at assembles inside, instructionCount_eq assembles⟩

/-- A program with a forward and a backward branch, a data byte, and an instruction that `org`
puts over an earlier one. -/
def overlaid : List Line :=
  [⟨some "start", some (.operation (.branch .nz)), ⟨some (.symbol "done"), none, none⟩⟩,
   ⟨none, some (.operation (.control .wait)), {}⟩,
   ⟨some "table", some .byte, ⟨some (.number 300), none, none⟩⟩,
   ⟨some "done", some (.operation (.jump .jmp)), ⟨some (.symbol "start"), none, none⟩⟩,
   ⟨none, some .org, ⟨some (.number 1), none, none⟩⟩,
   ⟨none, some (.operation (.memory .ldm)),
    ⟨some (.register .r0), some (.symbol "table"), some (.number 3)⟩⟩]

theorem isOk_of_isSome (some : (ofLines lines).toOption.isSome = true) :
    ∃ image, ofLines lines = .ok image := by
  cases assembles : ofLines lines with
  | ok image => exact ⟨image, rfl⟩
  | error error => simp [assembles, Except.toOption] at some

theorem isOk_overlaid : ∃ image, ofLines overlaid = .ok image :=
  isOk_of_isSome (by decide +kernel)

theorem assembled_by_final_symbols_overlaid :
    ∃ image, ofLines overlaid = .ok image ∧
      (∃ instruction, Site.Denotes image.symbols ⟨5, 1, 1, overlaid[5]⟩ instruction ∧
        image.code.get? 1 = some instruction.encode) ∧
      image.code.get? 3 = some 0 ∧
      image.data.get? 0 = some 44 ∧
      image.instructionCount = 4 := by
  obtain ⟨image, assembles⟩ := isOk_overlaid
  obtain ⟨words, bytes, count⟩ := assembled_by_final_symbols assembles
  obtain ⟨byte, ⟨operand, v, operands, value, low⟩, read⟩ := bytes 0 (by decide)
  refine ⟨image, assembles, words 1 (by decide), words 3 (by decide), ?_, count⟩
  cases operands
  cases value
  rw [read, low]
  rfl

end Image

end Gumnut
