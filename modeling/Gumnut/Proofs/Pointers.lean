import Gumnut.Proofs.Passes

/-!
# Where the pointers of a pass stand

The two pointers of a pass are 16-bit numbers, and a memory ignores what is written behind its end.
Neither shows in a pass: whatever the lines are, its pointers never go further than just behind the
memories, they are the numbers that a walk over the lines has which knows no limits, and every word
and every byte goes into a cell that there is. This is shown of one line, and from it of a pass
wherever it stops.
-/
set_option autoImplicit false

namespace Gumnut

namespace Draft

variable {pass : Pass} {draft next final : Draft} {number : Nat} {line : Line}
  {lines : List Line}

structure InRange (draft : Draft) : Prop where
  code_le : draft.codePointer.toNat ≤ codeSize
  data_le : draft.dataPointer.toNat ≤ dataSize

/-- What a line that is placed does with the pointers and with the memories. -/
structure Advances (draft : Draft) (number : Nat) (line : Line) (next : Draft) : Prop where
  /-- The pointers move as the numbers do that they stand for: neither starts again at zero, and
  the address of an `org` is not cut off. -/
  codePointer : next.codePointer.toNat = line.codeAfter draft.codePointer.toNat
  dataPointer : next.dataPointer.toNat = line.dataAfter draft.dataPointer.toNat
  /-- An instruction writes its word into a cell that there is, and no other line writes one. -/
  code :
    if line.isInstruction then
      draft.codePointer.toNat < codeSize ∧
        ∃ word, next.code = draft.code.set draft.codePointer.toNat word
    else next.code = draft.code
  /-- A `byte` line writes its byte into a cell that there is, and is listed with the address of
  this cell; no other line writes one. -/
  data :
    if line.isByte then
      draft.dataPointer.toNat < dataSize ∧
        ∃ (address : UInt8) (byte : UInt8), address.toNat = draft.dataPointer.toNat ∧
          next.data = draft.data.set address.toNat byte ∧
          next.listing = draft.listing.add number line (some (.data address))
    else next.data = draft.data

/-! ## One line -/

theorem toNat_succ_le {pointer : UInt16} {size : Nat} (room : pointer.toNat < size) :
    (pointer + 1).toNat ≤ size := by
  rw [UInt16.toNat_add, UInt16.toNat_one]
  exact Nat.le_trans (Nat.mod_le _ _) room

theorem Places.inRange (places : Places pass draft number line next) (range : draft.InRange) :
    next.InRange := by
  obtain ⟨code, data⟩ := range
  cases places with
  | blank | label => exact ⟨code, data⟩
  | @org address symbols mnemonic operands inside =>
    refine ⟨?_, data⟩
    show address.toUInt16.toNat ≤ codeSize
    rw [UInt32.toNat_toUInt16]
    exact Nat.le_trans (Nat.mod_le _ _) inside
  | byte mnemonic operands room => exact ⟨code, toNat_succ_le room⟩
  | instruction mnemonic room => exact ⟨toNat_succ_le room, data⟩

/-- Nothing is lost when a data pointer with room in front of it becomes the address of a byte. -/
theorem toNat_dataAddress (room : draft.dataPointer.toNat < dataSize) :
    draft.dataPointer.toUInt8.toNat = draft.dataPointer.toNat := by
  rw [UInt16.toNat_toUInt8]
  exact Nat.mod_eq_of_lt room

theorem Places.advances (places : Places pass draft number line next) :
    draft.Advances number line next := by
  refine ⟨places.codePointer_eq, places.dataPointer_eq, ?_, ?_⟩
  · cases places with
    | blank mnemonic | label mnemonic | org mnemonic | byte mnemonic =>
      simp [Line.isInstruction, Line.operation?, mnemonic]
    | @instruction operation symbols instruction mnemonic room =>
      have kind : line.isInstruction = true := by
        simp [Line.isInstruction, Line.operation?, mnemonic]
      rw [if_pos kind]
      exact ⟨room, instruction.encode, rfl⟩
  · cases places with
    | blank mnemonic | label mnemonic | org mnemonic | instruction mnemonic =>
      simp [Line.isByte, mnemonic]
    | @byte operand symbols value mnemonic operands room =>
      have kind : line.isByte = true := by
        simp [Line.isByte, mnemonic]
      have same := toNat_dataAddress room
      rw [if_pos kind]
      refine ⟨room, draft.dataPointer.toUInt8, value.toUInt8, same, ?_, rfl⟩
      rw [same]

/-! ## A pass -/

theorem Runs.inRange (runs : Runs pass draft number lines final) (range : draft.InRange) :
    final.InRange := by
  induction runs with
  | nil => exact range
  | cons places runs ih => exact ih (places.inRange range)

theorem Runs.codePointer_eq (runs : Runs pass draft number lines final) :
    final.codePointer.toNat =
      lines.foldl (fun code line => line.codeAfter code) draft.codePointer.toNat := by
  induction runs with
  | nil => rfl
  | cons places runs ih => rw [ih, places.codePointer_eq, List.foldl_cons]

theorem Runs.dataPointer_eq (runs : Runs pass draft number lines final) :
    final.dataPointer.toNat = draft.dataPointer.toNat + lines.countP Line.isByte := by
  induction runs with
  | nil => rfl
  | @cons draft next final number line rest places runs ih =>
    rw [ih, places.dataPointer_eq, Line.dataAfter, List.countP_cons]
    split <;> omega

/-- Behind the first lines of a program, in both passes and whatever becomes of the lines that are
left, the pointers are within their memories or just behind them, and yet they are those of a walk
that knows no limits. Whatever line is placed next, it moves them as the walk does and writes within
the memories. -/
theorem pointers_stay_in_range {symbols : SymbolTable} {count : Nat}
    (placed : placeAll { symbols } pass 0 (lines.take count) = .ok draft) :
    draft.codePointer.toNat ≤ 4096 ∧
    draft.dataPointer.toNat ≤ 256 ∧
    draft.codePointer.toNat = Layout.codePointer lines count ∧
    draft.dataPointer.toNat = (lines.take count).countP Line.isByte ∧
    ∀ line next, draft.place pass count line = .ok next → draft.Advances count line next := by
  have runs := runs_of_placeAll placed
  have start : InRange { symbols } := ⟨Nat.zero_le _, Nat.zero_le _⟩
  have range := runs.inRange start
  refine ⟨range.code_le, range.data_le, runs.codePointer_eq, ?_, ?_⟩
  · exact runs.dataPointer_eq.trans (Nat.zero_add _)
  · intro line next goesOn
    exact (places_of_place goesOn).advances

/-- A program that has a byte, fills the last cell for instructions, has a byte and a label behind
it, and then an instruction for which there is no room. -/
def brim : List Line :=
  [⟨some "size", some .byte, ⟨some (.symbol "end"), none, none⟩⟩,
   ⟨none, some .org, ⟨some (.number 4095), none, none⟩⟩,
   ⟨none, some (.operation (.control .wait)), {}⟩,
   ⟨none, some .byte, ⟨some (.number 300), none, none⟩⟩,
   ⟨some "end", none, {}⟩,
   ⟨none, some (.operation (.control .stby)), {}⟩]

theorem pointers_stay_in_range_brim :
    ∃ draft next, placeAll {} .binding 0 (brim.take 3) = .ok draft ∧
      draft.codePointer.toNat = 4096 ∧ draft.dataPointer.toNat = 1 ∧
      draft.place .binding 3 brim[3] = .ok next ∧ draft.Advances 3 brim[3] next ∧
      Image.ofLines brim = .error ⟨.codeTooLarge, 5⟩ := by
  obtain ⟨draft, next, placed, goesOn⟩ :
      ∃ draft next, placeAll {} .binding 0 (brim.take 3) = .ok draft ∧
        draft.place .binding 3 brim[3] = .ok next := ⟨_, _, rfl, rfl⟩
  obtain ⟨-, -, code, data, advances⟩ := pointers_stay_in_range placed
  exact ⟨draft, next, placed, code, data, goesOn, advances brim[3] next goesOn, rfl⟩

end Draft

end Gumnut
