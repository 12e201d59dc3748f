import Gumnut.Proofs.Assembled
import Gumnut.Proofs.Grammar
import Gumnut.Proofs.SourceLines
import Gumnut.Proofs.Transfers

/-!
# Addresses of memory operands

Which byte a memory instruction transfers, told by the operand as it is written in the source. The
integers of the source pass through several readings on their way: a minus sign is taken modulo 256
when the line is read, the offset is cut to a byte when it is assembled, and the byte has a sign or
none when it is executed, as there is a base register or none.
-/
set_option autoImplicit false

namespace Gumnut

/-! ## Operands as they are written -/

def Numeral.integer? (text : List Char) : Option Int :=
  match text with
  | '-' :: unsigned => (magnitude unsigned).toOption.map fun m => -(m.toNat : Int)
  | '+' :: unsigned => (magnitude unsigned).toOption.map fun m => (m.toNat : Int)
  | unsigned => (magnitude unsigned).toOption.map fun m => (m.toNat : Int)

def Piece.Writes (piece : Piece) (k : Int) : Prop :=
  (∃ v, piece.token = .numeral (.value v)) ∧ Numeral.integer? piece.text.toList = some k

inductive WritesOffset : List Piece → Int → Prop
  | absent : WritesOffset [] 0
  | bare {numeral : Piece} {k : Int} (writes : numeral.Writes k) : WritesOffset [numeral] k
  | plus {sign numeral : Piece} {k : Int} (plus : sign.token = .plus) (writes : numeral.Writes k) :
      WritesOffset [sign, numeral] k
  | minus {sign numeral : Piece} {k : Int} (minus : sign.token = .minus)
      (writes : numeral.Writes k) : WritesOffset [sign, numeral] (-k)

inductive Addressing where
  /-- By a register in parentheses with an offset. -/
  | indexed (base : Reg) (offset : Int)
  /-- By a label in parentheses with an offset. -/
  | beside (label : String) (offset : Int)
  | literal (address : Int)
  | label (name : String)

inductive WritesAddress : List Piece → Addressing → Prop
  | indexed {opening base closing : Piece} {behind : List Piece} {r : Reg} {k : Int}
      (opens : opening.token = .openParen) (register : base.token = .register r)
      (closes : closing.token = .closeParen) (offset : WritesOffset behind k) :
      WritesAddress (opening :: base :: closing :: behind) (.indexed r k)
  | beside {opening base closing : Piece} {behind : List Piece} {label : String} {k : Int}
      (opens : opening.token = .openParen) (name : base.token = .name label)
      (closes : closing.token = .closeParen) (offset : WritesOffset behind k) :
      WritesAddress (opening :: base :: closing :: behind) (.beside label k)
  | literal {numeral : Piece} {k : Int} (writes : numeral.Writes k) :
      WritesAddress [numeral] (.literal k)
  | label {piece : Piece} {text : String} (name : piece.token = .name text) :
      WritesAddress [piece] (.label text)

inductive WritesInstruction : List Piece → MemoryOp → Reg → Addressing → Prop
  | mk {mnemonic register comma : Piece} {operand : List Piece} {text : String} {op : MemoryOp}
      {rd : Reg} {addressing : Addressing} (name : mnemonic.token = .name text)
      (spells : Mnemonic.ofName text = .operation (.memory op))
      (target : register.token = .register rd) (separates : comma.token = .comma)
      (address : WritesAddress operand addressing) :
      WritesInstruction (mnemonic :: register :: comma :: operand) op rd addressing

inductive WritesTransfer : List Piece → MemoryOp → Reg → Addressing → Prop
  | unlabelled {pieces : List Piece} {op : MemoryOp} {rd : Reg} {addressing : Addressing}
      (instruction : WritesInstruction pieces op rd addressing) :
      WritesTransfer pieces op rd addressing
  | labelled {label colon : Piece} {pieces : List Piece} {text : String} {op : MemoryOp} {rd : Reg}
      {addressing : Addressing} (name : label.token = .name text) (separates : colon.token = .colon)
      (instruction : WritesInstruction pieces op rd addressing) :
      WritesTransfer (label :: colon :: pieces) op rd addressing

/-! ## From the source to the record -/

namespace Numeral

theorem exists_magnitude {unsigned : List Char} {f : UInt32 → Numeral} {g : UInt32 → Int}
    {n : Numeral} {k : Int} (reads : (magnitude unsigned).map f = .ok n)
    (integer : (magnitude unsigned).toOption.map g = some k) : ∃ m, f m = n ∧ g m = k := by
  cases made : magnitude unsigned with
  | error fault =>
    rw [made] at reads
    cases reads
  | ok m =>
    rw [made] at reads integer
    exact ⟨m, Except.ok.inj reads, Option.some.inj integer⟩

/-- The value of a numeral is the integer that it is written for, modulo 256. -/
theorem emod_of_ofText {text : List Char} {v : UInt32} {k : Int}
    (reads : ofText text = .ok (.value v)) (integer : integer? text = some k) :
    (v.toNat : Int) % 256 = k % 256 := by
  unfold ofText at reads
  split at reads
  · cases reads
  · split at reads
    · rw [integer?] at integer
      obtain ⟨m, value, rfl⟩ := exists_magnitude reads integer
      cases value
      rw [toNat_negatedByte, Int.emod_emod]
    · rw [integer?] at integer
      obtain ⟨m, value, rfl⟩ := exists_magnitude reads integer
      cases value
      rfl
    · rename_i minus plus
      rw [integer?.eq_3 text minus plus] at integer
      obtain ⟨m, value, rfl⟩ := exists_magnitude reads integer
      cases value
      rfl

end Numeral

/-- Whether a value is an integer as far as a byte can tell. -/
def LowByte (w : UInt32) (k : Int) : Prop :=
  (w.toNat : Int) % 256 = k % 256

def Addressing.Fills (addressing : Addressing) (places : List Operand) : Prop :=
  match addressing with
  | .indexed base k => ∃ w, places = [.register base, .number w] ∧ LowByte w k
  | .beside name k => ∃ w, places = [.symbol name, .number w] ∧ LowByte w k
  | .literal k => ∃ w, places = [.number w] ∧ LowByte w k
  | .label name => places = [.symbol name]

section Record

variable {line : List Char} {piece : Piece} {pieces : List Piece} {addressing : Addressing}
  {k : Int}

theorem Piece.Writes.value (writes : piece.Writes k) (member : piece ∈ Line.pieces line) :
    ∃ w, piece.token = .numeral (.value w) ∧ LowByte w k := by
  obtain ⟨⟨v, token⟩, integer⟩ := writes
  obtain ⟨c, tail, text, reads⟩ := Line.exists_lexeme_of_mem_pieces member
  rw [token] at reads
  rw [text, String.toList_ofList] at integer
  exact ⟨v, token, Numeral.emod_of_ofText (Token.ofText_of_ofLexeme reads) integer⟩

theorem WritesOffset.offset (writes : WritesOffset pieces k)
    (inside : pieces ⊆ Line.pieces line) :
    ∃ w, Grammar.Offset (pieces.map Piece.token) (.number w) ∧ LowByte w k := by
  cases writes with
  | absent => exact ⟨0, .absent, rfl⟩
  | bare numeral =>
    obtain ⟨w, token, low⟩ := numeral.value (inside (by simp))
    refine ⟨w, ?_, low⟩
    rw [List.map_singleton, token]
    exact .bare (.value w)
  | plus sign numeral =>
    obtain ⟨w, token, low⟩ := numeral.value (inside (by simp))
    refine ⟨w, ?_, low⟩
    rw [List.map_cons, List.map_singleton, sign, token]
    exact .plus (.value w)
  | minus sign numeral =>
    obtain ⟨w, token, low⟩ := numeral.value (inside (by simp))
    have negated := toNat_negatedByte w
    refine ⟨negatedByte w, ?_, ?_⟩
    · rw [List.map_cons, List.map_singleton, sign, token]
      exact .minus negated
    · unfold LowByte at low ⊢
      omega

theorem subset_of_three {first second third : Piece} {all : List Piece}
    (inside : first :: second :: third :: pieces ⊆ all) : pieces ⊆ all :=
  fun _ member => inside (List.mem_append_right [first, second, third] member)

theorem WritesAddress.fills (writes : WritesAddress pieces addressing)
    (inside : pieces ⊆ Line.pieces line) :
    ∃ places, Grammar.Fills (pieces.map Piece.token) places ∧ addressing.Fills places := by
  cases writes with
  | indexed opens register closes offset =>
    obtain ⟨w, rule, low⟩ := offset.offset (subset_of_three inside)
    refine ⟨[.register _, .number w], ?_, w, rfl, low⟩
    simp only [List.map_cons, opens, register, closes]
    exact .indexed (.register _) rule
  | beside opens name closes offset =>
    obtain ⟨w, rule, low⟩ := offset.offset (subset_of_three inside)
    refine ⟨[.symbol _, .number w], ?_, w, rfl, low⟩
    simp only [List.map_cons, opens, name, closes]
    exact .indexed (.name _) rule
  | literal numeral =>
    obtain ⟨w, token, low⟩ := numeral.value (inside (List.mem_singleton_self _))
    refine ⟨[.number w], ?_, w, rfl, low⟩
    rw [List.map_singleton, token]
    exact .numeral (.value w)
  | label name =>
    refine ⟨[.symbol _], ?_, rfl⟩
    rw [List.map_singleton, name]
    exact .name _

theorem Addressing.Fills.length_le {places : List Operand} (fills : addressing.Fills places) :
    places.length ≤ 2 := by
  cases addressing with
  | indexed | beside | literal =>
    obtain ⟨w, rfl, -⟩ := fills
    simp
  | label =>
    cases fills
    simp

theorem WritesInstruction.statement {op : MemoryOp} {rd : Reg}
    (writes : WritesInstruction pieces op rd addressing) (inside : pieces ⊆ Line.pieces line) :
    ∃ places, addressing.Fills places ∧ ∀ label,
      Grammar.Statement label (pieces.map Piece.token)
        ⟨label, some (.operation (.memory op)), .ofList (.register rd :: places)⟩ := by
  cases writes with
  | mk name spells target separates address =>
    obtain ⟨places, rule, fills⟩ := address.fills (subset_of_three inside)
    refine ⟨places, fills, fun label => ?_⟩
    have short := fills.length_le
    simp only [List.map_cons, name, target, separates, ← spells]
    exact .full _ (.cons (.register rd) (.single rule)) (by simp; omega)

/-- The record of the line of a memory instruction. -/
theorem WritesTransfer.record {op : MemoryOp} {rd : Reg} {record : Line}
    (writes : WritesTransfer (Line.pieces line) op rd addressing)
    (parses : Line.parse line = .ok record) :
    ∃ places, addressing.Fills places ∧ record.mnemonic = some (.operation (.memory op)) ∧
      record.operands = .ofList (.register rd :: places) := by
  obtain ⟨sound, -⟩ := Line.parse_eq_ok_iff.mp parses
  obtain ⟨places, fills, label, sentence⟩ : ∃ places, addressing.Fills places ∧ ∃ label,
      Grammar.Sentence ((Line.pieces line).map Piece.token)
        ⟨label, some (.operation (.memory op)), .ofList (.register rd :: places)⟩ := by
    generalize whole : Line.pieces line = all at writes
    cases writes with
    | unlabelled instruction =>
      rw [← whole] at instruction ⊢
      obtain ⟨places, fills, statement⟩ := instruction.statement (List.Subset.refl _)
      exact ⟨places, fills, none, .unlabelled (statement none)⟩
    | @labelled label colon pieces text _ _ _ name separates instruction =>
      have inside : pieces ⊆ Line.pieces line := by
        rw [whole]
        exact List.subset_cons_of_subset _ (List.subset_cons_self colon pieces)
      obtain ⟨places, fills, statement⟩ := instruction.statement inside
      refine ⟨places, fills, some text, ?_⟩
      simp only [List.map_cons, name, separates]
      exact .labelled _ (statement _)
  have read := Line.parse_eq_ok_iff.mpr ⟨sound, sentence⟩
  cases parses.symm.trans read
  exact ⟨places, fills, rfl, rfl⟩

end Record

/-! ## From the record to the byte -/

/-- Whether a step transfers the byte that an operand addresses. An offset counts as the signed
byte that agrees with it modulo 256; without a base register, addresses are taken modulo 256. -/
def Machine.TransfersBy (machine : Machine) (symbols : SymbolTable) (op : MemoryOp) (rd : Reg) :
    Addressing → Prop
  | .indexed base k =>
    if base = .r0 then machine.TransfersModulo op rd k
    else
      (-128 ≤ k → k ≤ 127 → machine.TransfersAt op rd ((machine.register base).toNat + k)) ∧
        machine.TransfersAt op rd ((machine.register base).toNat + k.bmod 256)
  | .beside name k => ∃ location, symbols.lookup? name = some location ∧
    machine.TransfersModulo op rd (location.value.toNat + k)
  | .literal k => machine.TransfersModulo op rd k
  | .label name => ∃ location, symbols.lookup? name = some location ∧
    machine.TransfersModulo op rd location.value.toNat

theorem signedByte_eq_bmod {byte : UInt8} {k : Int} (low : (byte.toNat : Int) = k % 256) :
    signedByte byte = k.bmod 256 := by
  have byte_lt := byte.toNat_lt
  simp only [signedByte, Int.bmod_def]
  split <;> split <;> omega

theorem bmod_of_near {k : Int} (below : -128 ≤ k) (above : k ≤ 127) : k.bmod 256 = k := by
  rw [Int.bmod_def]
  split <;> omega

theorem toNat_lowByte (v : Nat) : ((UInt8.ofNat (v % 256)).toNat : Int) = (v : Int) % 256 := by
  rw [UInt8.toNat_ofNat_of_lt' (Nat.mod_lt v (by decide))]
  exact Int.natCast_emod v 256

variable {machine : Machine} {op : MemoryOp} {rd : Reg}

theorem Machine.transfersModulo_of_direct {v : Nat} {k : Int}
    (read : machine.code.get? machine.counter.toNat =
      some (Instruction.memory op rd none (UInt8.ofNat (v % 256))).encode)
    (low : (v : Int) % 256 = k % 256) (inside : machine.counter.toNat + 1 < codeSize) :
    machine.TransfersModulo op rd k :=
  ⟨_, (toNat_lowByte v).trans low, transfers_of_direct read inside⟩

theorem Machine.transfersBy_of_fills {symbols : SymbolTable} {address : Nat}
    {addressing : Addressing} {places : List Operand} {instruction : Instruction}
    (fills : addressing.Fills places)
    (denotes : Instruction.Denotes symbols address (.memory op) (.ofList (.register rd :: places))
      instruction)
    (read : machine.code.get? machine.counter.toNat = some instruction.encode)
    (inside : machine.counter.toNat + 1 < codeSize) :
    machine.TransfersBy symbols op rd addressing := by
  cases addressing with
  | indexed base k =>
    obtain ⟨w, rfl, low⟩ := fills
    cases denotes with
    | indexed op rd base value index =>
      cases value
      have signed : signedByte (UInt8.ofNat (w.toNat % 256)) = k.bmod 256 :=
        signedByte_eq_bmod ((toNat_lowByte w.toNat).trans low)
      have transfers := transfersAt_of_indexed read index inside
      rw [signed] at transfers
      rw [TransfersBy, if_neg index]
      refine ⟨fun below above => ?_, transfers⟩
      rwa [bmod_of_near below above] at transfers
    | unindexed op rd value =>
      cases value
      rw [TransfersBy, if_pos rfl]
      exact transfersModulo_of_direct read low inside
  | beside label k =>
    obtain ⟨w, rfl, low⟩ := fills
    cases denotes with
    | displaced op rd start value =>
      cases value
      obtain ⟨location, bound, rfl⟩ := Option.map_eq_some_iff.mp start
      refine ⟨location, bound, transfersModulo_of_direct read ?_ inside⟩
      unfold LowByte at low
      omega
  | literal k =>
    obtain ⟨w, rfl, low⟩ := fills
    cases denotes with
    | direct op rd value =>
      cases value
      exact transfersModulo_of_direct read low inside
  | label name =>
    cases fills
    cases denotes with
    | direct op rd value =>
      obtain ⟨location, bound, rfl⟩ := Option.map_eq_some_iff.mp value
      exact ⟨location, bound, transfersModulo_of_direct read rfl inside⟩

/-- A machine at a memory instruction of its program transfers the byte that the source says. -/
theorem Image.transfers_written_address {source : String} {image : Image} {lines : List Line}
    {site : Site} {text : List Char} {addressing : Addressing}
    (assembles : ofSource source = .ok image) (parses : Source.parse source = .ok lines)
    (ending : (Layout.instructionsAt lines machine.counter.toNat).getLast? = some site)
    (here : (Lines.split source.toList)[site.number]? = some text)
    (writes : WritesTransfer (Line.pieces text) op rd addressing)
    (loaded : machine.code = image.code) (inside : machine.counter.toNat < 4095) :
    machine.TransfersBy image.symbols op rd addressing := by
  obtain ⟨lines', parses', assembles'⟩ := ofSource_eq_ok_iff.mp assembles
  cases parses.symm.trans parses'
  obtain ⟨member, -⟩ := List.mem_filter.mp (List.mem_of_getLast? ending)
  have own := Source.parse_line parses here (Layout.line_of_mem_ofLines member)
  obtain ⟨places, fills, mnemonic, operands⟩ := writes.record own
  obtain ⟨instruction, ⟨operation, mnemonic', denotes⟩, read⟩ :=
    word_of_getLast? assembles' ending
  rw [Line.operation?, mnemonic] at mnemonic'
  cases mnemonic'
  rw [operands] at denotes
  rw [← loaded] at read
  exact Machine.transfersBy_of_fills fills denotes read (Nat.succ_lt_succ inside)

theorem Image.transfers_written_address_indexed :
    ∃ image, ofSource "get: ldm r1, (r2) - 0x03 ; note" = .ok image ∧
      (Machine.load {} image).step.2 = some (.accessViolation (-3)) := by
  have parses : Source.parse "get: ldm r1, (r2) - 0x03 ; note" =
      .ok [⟨some "get", some (.operation (.memory .ldm)),
        ⟨some (.register 1), some (.register 2), some (.number 253)⟩⟩] := by
    decide +kernel
  obtain ⟨image, assembles⟩ : ∃ image, ofLines [⟨some "get", some (.operation (.memory .ldm)),
      ⟨some (.register 1), some (.register 2), some (.number 253)⟩⟩] = .ok image :=
    isOk_of_isSome (by decide +kernel)
  have whole := ofSource_eq_ok_iff.mpr ⟨_, parses, assembles⟩
  have pieces : Line.pieces "get: ldm r1, (r2) - 0x03 ; note".toList =
      [⟨.name "get", "get"⟩, ⟨.colon, ":"⟩, ⟨.name "ldm", "ldm"⟩, ⟨.register 1, "r1"⟩,
        ⟨.comma, ","⟩, ⟨.openParen, "("⟩, ⟨.register 2, "r2"⟩, ⟨.closeParen, ")"⟩,
        ⟨.minus, "-"⟩, ⟨.numeral (.value 3), "0x03"⟩] := by
    decide +kernel
  have writes : WritesTransfer (Line.pieces "get: ldm r1, (r2) - 0x03 ; note".toList) .ldm 1
      (.indexed 2 (-3)) := by
    rw [pieces]
    have numeral : (⟨.numeral (.value 3), "0x03"⟩ : Piece).Writes 3 := ⟨⟨3, rfl⟩, by decide⟩
    exact .labelled rfl rfl
      (.mk rfl (by decide) rfl rfl (.indexed rfl rfl rfl (.minus rfl numeral)))
  have start : (Machine.load {} image).counter.toNat < 4095 := show 0 < 4095 by decide
  have transfers : (Machine.load {} image).TransfersBy image.symbols .ldm 1 (.indexed 2 (-3)) :=
    transfers_written_address whole parses rfl rfl writes rfl start
  have below : ¬ (0 ≤ ((0 : Nat) : Int) + -3 ∧ ((0 : Nat) : Int) + -3 ≤ 255) := by decide
  exact ⟨image, whole, ((transfers.1 (by decide) (by decide)).2 below).1⟩

end Gumnut
