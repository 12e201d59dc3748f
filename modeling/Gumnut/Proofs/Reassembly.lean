import Gumnut.Proofs.Sections
import Gumnut.Proofs.SourceLines
import Gumnut.Proofs.Spelling

/-!
# Disassembly read back

The text of an instruction is a line of source, and assembling it gives the instruction again; for
a branch only the displacement is shown, which is not how its target is written. So the texts of a
list of instructions, one to a line, assemble to the words of the list.
-/
set_option autoImplicit false

namespace Gumnut

namespace Instruction

/-- Whether the text of an instruction says which one it is. -/
def Prints (instruction : Instruction) : Prop :=
  instruction.Encodable ∧ ∀ cond displacement, instruction ≠ .branch cond displacement

def operands : Instruction → Operands
  | alu _ rd rs (.register rt) =>
    ⟨some (.register rd), some (.register rs), some (.register rt)⟩
  | alu _ rd rs (.immediate value) =>
    ⟨some (.register rd), some (.register rs), some (.number value.toUInt32)⟩
  | shift _ rd rs count =>
    ⟨some (.register rd), some (.register rs), some (.number count.toUInt32)⟩
  | memory _ rd none address => ⟨some (.register rd), some (.number address.toUInt32), none⟩
  | memory _ rd (some base) offset =>
    ⟨some (.register rd), some (.register base), some (.number offset.toUInt32)⟩
  | branch _ displacement => ⟨some (.number displacement.toUInt32), none, none⟩
  | jump _ target => ⟨some (.number target.toUInt32), none, none⟩
  | control _ | undefined _ => {}

def line (instruction : Instruction) : Line where
  mnemonic := instruction.operation?.map .operation
  operands := instruction.operands

/-! ## The text of an instruction -/

theorem isWord_byte (byte : UInt8) :
    Token.IsWord (Radix.decimal byte.toNat).toList (.numeral (.value byte.toUInt32)) := by
  have small : byte.toNat < UInt32.size := Nat.lt_trans byte.toNat_lt (by decide)
  have value : UInt32.ofNat byte.toNat = byte.toUInt32 := by
    apply UInt32.toNat_inj.mp
    rw [UInt32.toNat_ofNat_of_lt' small, UInt8.toNat_toUInt32]
  rw [← value]
  exact Token.isWord_decimal small

theorem isWord_target (width : Nat) (target : UInt16) :
    Token.IsWord (Radix.hexadecimal width target.toNat).toList
      (.numeral (.value target.toUInt32)) := by
  have small : target.toNat < UInt32.size := Nat.lt_trans target.toNat_lt (by decide)
  have value : UInt32.ofNat target.toNat = target.toUInt32 := by
    apply UInt32.toNat_inj.mp
    rw [UInt32.toNat_ofNat_of_lt' small, UInt16.toNat_toUInt32]
  rw [← value]
  exact Token.isWord_hexadecimal width small

theorem exists_offset (byte : UInt8) :
    ∃ tokens, Spells (offsetText byte).toList tokens ∧
      Grammar.Offset tokens (.number byte.toUInt32) := by
  have low := signedByte_emod byte
  have bounds := signedByte_bounds byte
  have bound := byte.toNat_lt
  have wide : byte.toUInt32.toNat = byte.toNat := UInt8.toNat_toUInt32 byte
  unfold offsetText
  split
  · have small : (signedByte byte).natAbs < UInt32.size := by
      simp only [UInt32.size]
      omega
    have value : (UInt32.ofNat (signedByte byte).natAbs).toNat = (signedByte byte).natAbs :=
      UInt32.toNat_ofNat_of_lt' small
    refine ⟨_, ?_, .minus (v := UInt32.ofNat (signedByte byte).natAbs) (by omega)⟩
    rw [String.toList_append]
    exact .symbol rfl rfl (.space (.last (Token.isWord_decimal small)))
  · have same : (signedByte byte).natAbs = byte.toNat := by omega
    refine ⟨_, ?_, .plus (.value byte.toUInt32)⟩
    rw [String.toList_append, same]
    exact .symbol rfl rfl (.space (.last (isWord_byte byte)))

end Instruction

theorem Mnemonic.ofName_text (operation : Operation) :
    ofName operation.text = .operation operation := by
  have lowered : String.ofList (operation.text.toList.map lower) = operation.text := by
    rcases operation with op | op | op | op | op | op
    all_goals cases op <;> decide +kernel
  rw [ofName, lowered, Operation.ofText?_text]

namespace Instruction

variable {instruction : Instruction}

theorem exists_spelling_of_fill (operation : Operation) {text : List Char} {tokens : List Token}
    {places : List Operand} (spells : Spells text tokens) (fill : Grammar.FillAll tokens places)
    (fit : places.length ≤ 3) :
    ∃ all, Spells (operation.text.toList ++ ' ' :: text) all ∧
      Grammar.Sentence all ⟨none, some (.operation operation), .ofList places⟩ := by
  refine ⟨.name operation.text :: tokens, ?_, .unlabelled ?_⟩
  · exact .word (Token.isWord_operation operation) (Token.ends_cons _ (by decide)) (.space spells)
  · rw [← Mnemonic.ofName_text]
    exact .full operation.text fill fit

theorem toList_threefold (first second third fourth : String) :
    (first ++ " " ++ second ++ ", " ++ third ++ ", " ++ fourth).toList =
      first.toList ++ ' ' :: (second.toList ++ ',' :: ' ' :: (third.toList ++ ',' :: ' ' ::
        fourth.toList)) := by
  simp

theorem exists_spelling_of_threefold (operation : Operation) {word : List Char} {token : Token}
    {operand : Operand} (rd rs : Reg) (spelled : Token.IsWord word token)
    (fills : Grammar.Fills [token] [operand]) :
    ∃ all, Spells (operation.text.toList ++ ' ' :: (rd.text.toList ++ ',' :: ' ' ::
        (rs.text.toList ++ ',' :: ' ' :: word))) all ∧
      Grammar.Sentence all ⟨none, some (.operation operation),
        ⟨some (.register rd), some (.register rs), some operand⟩⟩ :=
  exists_spelling_of_fill operation
    (.item (Token.isWord_register rd) (.item (Token.isWord_register rs) (.last spelled)))
    (.cons (.register rd) (.cons (.register rs) (.single fills))) (Nat.le_refl 3)

theorem exists_spelling (prints : instruction.Prints) :
    ∃ tokens, Spells instruction.text.toList tokens ∧
      Grammar.Sentence tokens instruction.line := by
  obtain ⟨encodable, other⟩ := prints
  rcases instruction with ⟨op, rd, rs, value | rt⟩ | ⟨op, rd, rs, count⟩ |
    ⟨op, rd, _ | base, offset⟩ | ⟨cond, displacement⟩ | ⟨op, target⟩ | op | word
  case alu.immediate =>
    rw [Instruction.text, toList_threefold]
    exact exists_spelling_of_threefold (.alu op) rd rs (isWord_byte value)
      (.numeral (.value _))
  case alu.register =>
    rw [Instruction.text, toList_threefold]
    exact exists_spelling_of_threefold (.alu op) rd rs (Token.isWord_register rt)
      (.register rt)
  case shift =>
    rw [Instruction.text, toList_threefold]
    exact exists_spelling_of_threefold (.shift op) rd rs (isWord_byte count)
      (.numeral (.value _))
  case memory.none =>
    have text : (memory op rd none offset).text.toList = op.text.toList ++ ' ' ::
        (rd.text.toList ++ ',' :: ' ' :: (Radix.decimal offset.toNat).toList) := by
      simp [Instruction.text]
    rw [text]
    exact exists_spelling_of_fill (.memory op)
      (.item (Token.isWord_register rd) (.last (isWord_byte offset)))
      (.cons (.register rd) (.single (.numeral (.value _)))) (Nat.le_succ 2)
  case memory.some =>
    obtain ⟨tokens, spells, rule⟩ := exists_offset offset
    have text : (memory op rd (some base) offset).text.toList = op.text.toList ++ ' ' ::
        (rd.text.toList ++ ',' :: ' ' :: '(' :: (base.text.toList ++ ')' :: ' ' ::
          (offsetText offset).toList)) := by
      simp [Instruction.text]
    have indexed : Spells ('(' :: (base.text.toList ++ ')' :: ' ' :: (offsetText offset).toList))
        (.openParen :: .register base :: .closeParen :: tokens) :=
      .symbol rfl (by rw [Reg.toList_text]; rfl) (.word (Token.isWord_register base)
        (Token.ends_cons _ (by decide)) (.symbol rfl rfl (.space spells)))
    rw [text]
    exact exists_spelling_of_fill (.memory op)
      (.item (Token.isWord_register rd) indexed)
      (.cons (.register rd) (.single (.indexed (.register base) rule))) (Nat.le_refl 3)
  case branch => exact absurd rfl (other cond displacement)
  case jump =>
    have text : (jump op target).text.toList = op.text.toList ++ ' ' ::
        (Radix.hexadecimal 3 target.toNat).toList := by
      simp [Instruction.text]
    rw [text]
    exact exists_spelling_of_fill (.jump op) (.last (isWord_target 3 target))
      (.single (.numeral (.value _))) (Nat.le_add_left 1 2)
  case control =>
    refine ⟨_, .last (Token.isWord_operation (.control op)), .unlabelled ?_⟩
    have name : Grammar.Statement none _ _ := .bare (Operation.control op).text
    rw [Mnemonic.ofName_text] at name
    exact name
  case undefined => exact encodable.elim

theorem parse_text (prints : instruction.Prints) :
    Line.parse instruction.text.toList = .ok instruction.line := by
  obtain ⟨tokens, spells, sentence⟩ := exists_spelling prints
  exact Line.parse_of_spells spells sentence

/-- Assembling the operands that are shown gives the instruction, wherever it stands. -/
theorem assemble_operands {operation : Operation}
    (resolve : String → Except AssemblyFault UInt32) (address : UInt16)
    (prints : instruction.Prints) (kind : instruction.operation? = some operation) :
    assemble resolve address operation instruction.operands = .ok instruction := by
  obtain ⟨encodable, other⟩ := prints
  rcases instruction with ⟨op, rd, rs, value | rt⟩ | ⟨op, rd, rs, count⟩ |
    ⟨op, rd, _ | base, offset⟩ | ⟨cond, displacement⟩ | ⟨op, target⟩ | op | word
  all_goals cases kind
  case alu.immediate => simp [assemble, operands, Operand.value, ok_bind]
  case alu.register => rfl
  case shift =>
    have small : count.toNat < 8 := encodable
    have kept : (count.toUInt32 % 8).toUInt8 = count := by
      rw [toUInt8_mod_eight, UInt8.toNat_toUInt32, Nat.mod_eq_of_lt small, UInt8.ofNat_toNat]
    simp [assemble, operands, Operand.value, ok_bind, kept]
  case memory.none => simp [assemble, operands, Operand.value, ok_bind]
  case memory.some =>
    have index : indexBase? base = some base := if_neg fun same => encodable (by rw [same])
    simp [assemble, operands, Operand.value, ok_bind, index]
  case branch => exact absurd rfl (other cond displacement)
  case jump =>
    have small : target.toNat < 4096 := encodable
    have kept : (target.toUInt32 % 4096).toUInt16 = target := by
      rw [toUInt16_mod, UInt16.toNat_toUInt32, Nat.mod_eq_of_lt small, UInt16.ofNat_toNat]
    simp [assemble, operands, Operand.value, ok_bind, kept]
  case control => rfl

theorem exists_operation (prints : instruction.Prints) :
    ∃ operation, instruction.operation? = some operation := by
  cases instruction with
  | undefined word => exact prints.1.elim
  | _ => exact ⟨_, rfl⟩

theorem isInstruction_line (prints : instruction.Prints) :
    instruction.line.isInstruction = true := by
  obtain ⟨operation, kind⟩ := exists_operation prints
  simp [line, Line.isInstruction, Line.operation?, kind]

theorem isByte_line (instruction : Instruction) : instruction.line.isByte = false := by
  cases instruction <;> rfl

theorem not_uses_line (instruction : Instruction) (name : String) :
    ¬ instruction.line.Uses name := by
  rintro ⟨-, member⟩
  rcases instruction with ⟨op, rd, rs, value | rt⟩ | ⟨op, rd, rs, count⟩ |
    ⟨op, rd, _ | base, offset⟩ | ⟨cond, displacement⟩ | ⟨op, target⟩ | op | word
  all_goals simp [line, operands, Operands.toList] at member

theorem fits_line {address : Nat} (prints : instruction.Prints) (room : address < codeSize) :
    (Spot.mk address instruction.line).Fits := by
  obtain ⟨operation, kind⟩ := exists_operation prints
  have mnemonic : instruction.line.mnemonic = some (.operation operation) := by
    rw [line, kind, Option.map_some]
  simp only [Spot.Fits, mnemonic]
  exact ⟨room, instruction, assemble_operands zeroed 0 prints kind⟩

theorem denotes_line {symbols : SymbolTable} {address : Nat} {operation : Operation}
    (prints : instruction.Prints) (inside : address < codeSize)
    (kind : instruction.operation? = some operation) :
    Denotes symbols address operation instruction.operands instruction := by
  have small : (UInt16.ofNat address).toNat = address :=
    UInt16.toNat_ofNat_of_lt' (Nat.lt_trans inside (by decide))
  rw [← small]
  exact denotes_of_assemble (assemble_operands _ _ prints kind)

end Instruction

/-! ## Programs of instructions alone -/

namespace Layout

variable {lines : List Line}

theorem codePointer_of_isInstruction (all : ∀ line ∈ lines, line.isInstruction = true)
    {count : Nat} (inside : count ≤ lines.length) : codePointer lines count = count := by
  induction count with
  | zero => rfl
  | succ count ih =>
    have here : lines[count]? = some lines[count] := List.getElem?_eq_getElem inside
    obtain ⟨operation, mnemonic⟩ :=
      Line.mnemonic_of_isInstruction (all _ (List.getElem_mem inside))
    rw [codePointer_succ here, ih (Nat.le_of_lt inside), Line.codeAfter, mnemonic]

/-- In a program of instructions alone, each stands at the address of its number. -/
theorem getLast?_instructionsAt (all : ∀ line ∈ lines, line.isInstruction = true)
    (address : Nat) :
    (instructionsAt lines address).getLast? =
      lines[address]?.map fun line => siteAt lines address line := by
  have numbered : ∀ site ∈ instructionsAt lines address,
      lines[address]? = some site.line ∧ site = siteAt lines address site.line := by
    intro site member
    obtain ⟨inside, here⟩ := List.mem_filter.mp member
    obtain ⟨source, own⟩ := eq_siteAt_of_mem inside
    obtain ⟨below, -⟩ := List.getElem?_eq_some_iff.mp source
    have place : codePointer lines site.number = address := by
      rw [← (Site.isInstructionAt_iff.mp here).2, own]
      rfl
    rw [codePointer_of_isInstruction all (Nat.le_of_lt below)] at place
    rw [← place]
    exact ⟨source, own⟩
  cases ending : (instructionsAt lines address).getLast? with
  | some site =>
    obtain ⟨source, own⟩ := numbered site (List.mem_of_getLast? ending)
    rw [source, Option.map_some, ← own]
  | none =>
    cases source : lines[address]? with
    | none => rfl
    | some line =>
      obtain ⟨below, -⟩ := List.getElem?_eq_some_iff.mp source
      have kind := all line (List.mem_of_getElem? source)
      have member : siteAt lines address line ∈ instructionsAt lines address :=
        List.mem_filter.mpr ⟨siteAt_mem source, Site.isInstructionAt_iff.mpr
          ⟨kind, codePointer_of_isInstruction all (Nat.le_of_lt below)⟩⟩
      rw [List.getLast?_eq_none_iff.mp ending] at member
      cases member

end Layout

/-! ## Reassembling -/

namespace Image

variable {program : List Instruction} {image : Image}

theorem isInstruction_of_prints (prints : ∀ instruction ∈ program, instruction.Prints) :
    ∀ line ∈ program.map Instruction.line, line.isInstruction = true := by
  rw [List.forall_mem_map]
  exact fun instruction member => Instruction.isInstruction_line (prints instruction member)

theorem codePointer_of_prints (prints : ∀ instruction ∈ program, instruction.Prints) {count : Nat}
    (inside : count ≤ program.length) :
    Layout.codePointer (program.map Instruction.line) count = count := by
  apply Layout.codePointer_of_isInstruction (isInstruction_of_prints prints)
  rwa [List.length_map]

theorem exists_ofLines_of_prints (prints : ∀ instruction ∈ program, instruction.Prints)
    (fit : program.length ≤ codeSize) :
    ∃ image, ofLines (program.map Instruction.line) = .ok image := by
  rw [exists_ofLines_iff]
  refine ⟨?fits, ?distinct, ?bound⟩
  case fits =>
    intro spot member
    obtain ⟨site, inside, rfl⟩ := List.mem_map.mp member
    obtain ⟨source, own⟩ := Layout.eq_siteAt_of_mem inside
    rw [List.getElem?_map, Option.map_eq_some_iff] at source
    obtain ⟨instruction, found, same⟩ := source
    obtain ⟨below, -⟩ := List.getElem?_eq_some_iff.mp found
    have place : site.spot = ⟨site.number, instruction.line⟩ := by
      rw [own, ← same, Layout.siteAt, Site.spot, Instruction.isByte_line,
        codePointer_of_prints prints (Nat.le_of_lt below)]
      rfl
    rw [place]
    exact Instruction.fits_line (prints instruction (List.mem_of_getElem? found))
      (Nat.lt_of_lt_of_le below fit)
  case distinct =>
    have none : Layout.labels (program.map Instruction.line) = [] := by
      simp [Layout.labels, Instruction.line]
    rw [none]
    exact List.nodup_nil
  case bound =>
    rw [List.forall_mem_map]
    exact fun instruction member name uses =>
      absurd uses (Instruction.not_uses_line instruction name)

/-- The words of an image that is assembled from instructions alone. -/
theorem code_of_prints (prints : ∀ instruction ∈ program, instruction.Prints)
    (assembles : ofLines (program.map Instruction.line) = .ok image) {address : Nat}
    (inside : address < codeSize) :
    image.code.get? address = some ((program[address]?.map Instruction.encode).getD 0) := by
  have placed := code_at assembles inside
  rw [Layout.getLast?_instructionsAt (isInstruction_of_prints prints), List.getElem?_map] at placed
  cases found : program[address]? with
  | none =>
    rw [found] at placed
    exact placed
  | some instruction =>
    rw [found] at placed
    obtain ⟨made, ⟨operation, mnemonic, denotes⟩, read⟩ := placed
    have printed := prints instruction (List.mem_of_getElem? found)
    obtain ⟨below, -⟩ := List.getElem?_eq_some_iff.mp found
    obtain ⟨operation', kind⟩ := Instruction.exists_operation printed
    have same : operation' = operation := by
      simpa [Layout.siteAt, Line.operation?, Instruction.line, kind] using mnemonic
    have means : Instruction.Denotes image.symbols
        (Layout.codePointer (program.map Instruction.line) address) operation'
        instruction.operands instruction := by
      rw [codePointer_of_prints prints (Nat.le_of_lt below)]
      exact Instruction.denotes_line printed inside kind
    rw [same] at means
    rw [read, denotes.unique means]
    rfl

theorem split_texts (prints : ∀ instruction ∈ program, instruction.Prints) {source : String}
    (written : source = String.join (program.map fun instruction => instruction.text ++ "\n") ∨
      source = String.intercalate "\n" (program.map Instruction.text)) :
    Lines.split source.toList = program.map fun instruction => instruction.text.toList := by
  have plain : ∀ text ∈ program.map (fun instruction => instruction.text.toList),
      ∀ c ∈ text, c ≠ '\n' ∧ c ≠ '\r' := by
    rw [List.forall_mem_map]
    intro instruction member
    obtain ⟨tokens, spells, -⟩ := Instruction.exists_spelling (prints instruction member)
    exact spells.not_isFeed_of_mem
  have filled : ∀ text ∈ program.map (fun instruction => instruction.text.toList), text ≠ [] := by
    rw [List.forall_mem_map]
    intro instruction member empty
    have parses := Instruction.parse_text (prints instruction member)
    have kind := Instruction.isInstruction_line (prints instruction member)
    rw [empty] at parses
    have blank : Line.parse [] = .ok {} := by decide +kernel
    rw [← Except.ok.inj (blank.symm.trans parses)] at kind
    cases kind
  rcases written with rfl | rfl
  · have joined := Lines.split_flatMap plain
    rw [List.flatMap_map] at joined
    rw [String.toList_join, List.flatMap_map]
    simpa using joined
  · have joined := Lines.split_intercalate plain filled
    rw [String.toList_intercalate, List.map_map]
    exact joined

/-- Disassembly is assembly text: the texts of instructions assemble to their words. -/
theorem reassembles (prints : ∀ instruction ∈ program, instruction.Prints)
    (fit : program.length ≤ codeSize) {source : String}
    (written : source = String.join (program.map fun instruction => instruction.text ++ "\n") ∨
      source = String.intercalate "\n" (program.map Instruction.text)) :
    ∃ image, ofSource source = .ok image ∧ image.instructionCount = program.length ∧
      (∀ address instruction, program[address]? = some instruction →
        image.code.get? address = some instruction.encode) ∧
      ∀ address, program.length ≤ address → address < codeSize →
        image.code.get? address = some 0 := by
  have parses : Source.parse source = .ok (program.map Instruction.line) := by
    rw [Source.parse_eq_ok_iff, split_texts prints written, List.forall₂_map_left_iff,
      List.forall₂_map_right_iff, List.forall₂_same]
    exact fun instruction member => Instruction.parse_text (prints instruction member)
  obtain ⟨image, assembles⟩ := exists_ofLines_of_prints prints fit
  refine ⟨image, ofSource_eq_ok_iff.mpr ⟨_, parses, assembles⟩, ?_, ?_, ?_⟩
  · rw [instructionCount_eq assembles, List.countP_eq_length.mpr (isInstruction_of_prints prints),
      List.length_map]
  · intro address instruction found
    obtain ⟨below, -⟩ := List.getElem?_eq_some_iff.mp found
    rw [code_of_prints prints assembles (Nat.lt_of_lt_of_le below fit), found]
    rfl
  · intro address behind inside
    rw [code_of_prints prints assembles inside, List.getElem?_eq_none behind]
    rfl

def extremes : List Instruction :=
  [.memory .ldm .r0 (some ⟨2, by decide⟩) 0x80, .alu .sub ⟨7, by decide⟩ .r0 (.immediate 255),
    .shift .ror .r0 .r0 7, .jump .jsb 0xFFF, .control .reti]

theorem reassembles_extremes :
    ∃ image, ofSource "ldm r0, (r2) - 128\nsub r7, r0, 255\nror r0, r0, 7\njsb 0xfff\nreti\n" =
        .ok image ∧
      image.instructionCount = 5 ∧
      image.code.get? 0 = some (Instruction.memory .ldm .r0 (some ⟨2, by decide⟩) 0x80).encode ∧
      image.code.get? 5 = some 0 := by
  have prints : ∀ instruction ∈ extremes, instruction.Prints := by
    simp only [extremes, List.forall_mem_cons]
    exact ⟨⟨by decide, nofun⟩, ⟨by decide, nofun⟩, ⟨by decide, nofun⟩, ⟨by decide, nofun⟩,
      ⟨by decide, nofun⟩, nofun⟩
  have written : "ldm r0, (r2) - 128\nsub r7, r0, 255\nror r0, r0, 7\njsb 0xfff\nreti\n" =
      String.join (extremes.map fun instruction => instruction.text ++ "\n") := by
    decide +kernel
  obtain ⟨image, assembles, count, words, zeros⟩ :=
    reassembles prints (by decide) (.inl written)
  exact ⟨image, assembles, count, words 0 _ rfl, zeros 5 (by decide) (by decide)⟩

end Image

end Gumnut
