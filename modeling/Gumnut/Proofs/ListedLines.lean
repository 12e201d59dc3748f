import Gumnut.Proofs.Assembled

/-!
# Reading a listing backwards

A word is written over by a later instruction line at its address, a listing keeps the first line
there. So the listing names a line that its address really executes just if the first and the last
instruction line at the address denote the same instruction.
-/
set_option autoImplicit false

namespace Gumnut

theorem Listing.lineAt?_add (listing : Listing) (number : Nat) (line : Line)
    (location : Option Location) (address : UInt16) :
    (listing.add number line location).lineAt? address =
      (listing.lineAt? address).or
        (if (ListedLine.mk number line location).isInstructionAt address then some number
          else none) := by
  rw [lineAt?, add, Array.find?_push, Option.map_or, lineAt?]
  split <;> rfl

namespace Draft

variable {pass : Pass} {draft next final : Draft} {number : Nat} {line : Line}
  {lines : List Line}

theorem Places.lineAt?_eq (places : Places pass draft number line next) (address : UInt16) :
    next.listing.lineAt? address =
      (draft.listing.lineAt? address).or
        (if (draft.site number line).isInstructionAt address.toNat then some number
          else none) := by
  cases places with
  | blank mnemonic =>
    simp [site, Site.isInstructionAt, Line.isInstruction, Line.operation?, mnemonic]
  | instruction mnemonic =>
    rw [Listing.lineAt?_add]
    simp [ListedLine.isInstructionAt, site, Site.isInstructionAt, Line.isInstruction,
      Line.operation?, mnemonic, UInt16.toNat_inj]
  | label mnemonic | org mnemonic | byte mnemonic =>
    rw [Listing.lineAt?_add]
    simp [ListedLine.isInstructionAt, site, Site.isInstructionAt, Line.isInstruction,
      Line.operation?, mnemonic]

/-- A pass lists the first instruction line at an address, unless one is listed already. -/
theorem Runs.lineAt?_eq (runs : Runs pass draft number lines final) (address : UInt16) :
    final.listing.lineAt? address =
      (draft.listing.lineAt? address).or
        (((Layout.walk number draft.codePointer.toNat draft.dataPointer.toNat lines).filter
          fun site => site.isInstructionAt address.toNat).head?.map Site.number) := by
  induction runs with
  | nil => exact (Option.or_none).symm
  | @cons draft next final number line rest places runs ih =>
    rw [ih, places.lineAt?_eq, places.walk_cons, List.filter_cons, Option.or_assoc]
    cases (draft.site number line).isInstructionAt address.toNat with
    | false => rfl
    | true => rfl

end Draft

namespace Image

variable {lines : List Line} {image : Image}

theorem lineAt?_eq (assembles : ofLines lines = .ok image) (address : UInt16) :
    image.listing.lineAt? address =
      (Layout.instructionsAt lines address.toNat).head?.map Site.number := by
  obtain ⟨final, runs, -, -, listing, -⟩ := runs_of_ofLines assembles
  rw [listing, runs.lineAt?_eq]
  rfl

/-- Whether a line is an instruction line and denotes, at an address, the instruction whose word
the image has there. -/
def Executes (image : Image) (lines : List Line) (address number : Nat) : Prop :=
  ∃ line operation instruction, lines[number]? = some line ∧ line.operation? = some operation ∧
    Instruction.Denotes image.symbols address operation line.operands instruction ∧
    image.code.get? address = some instruction.encode

theorem site_of_lineAt? (assembles : ofLines lines = .ok image) {address : UInt16} {number : Nat}
    (listed : image.listing.lineAt? address = some number) :
    ∃ first, (Layout.instructionsAt lines address.toNat).head? = some first ∧
      first.isInstructionAt address.toNat = true ∧ lines[number]? = some first.line := by
  rw [lineAt?_eq assembles] at listed
  obtain ⟨first, found, rfl⟩ := Option.map_eq_some_iff.mp listed
  obtain ⟨member, here⟩ := List.mem_filter.mp (List.mem_of_mem_head? found)
  exact ⟨first, found, here, Layout.line_of_mem_ofLines member⟩

theorem executes_of_site {site : Site} {address number : Nat}
    (here : site.isInstructionAt address = true) (source : lines[number]? = some site.line) :
    image.Executes lines address number ↔
      ∃ instruction, site.Denotes image.symbols instruction ∧
        image.code.get? address = some instruction.encode := by
  obtain ⟨-, rfl⟩ := Site.isInstructionAt_iff.mp here
  constructor
  · rintro ⟨line, operation, instruction, source', mnemonic, denotes, read⟩
    cases source.symm.trans source'
    exact ⟨instruction, ⟨operation, mnemonic, denotes⟩, read⟩
  · rintro ⟨instruction, ⟨operation, mnemonic, denotes⟩, read⟩
    exact ⟨site.line, operation, instruction, source, mnemonic, denotes, read⟩

/-- The line that a listing names at an address is an instruction line. It is the one executed
there just if it denotes the same as the last instruction line at the address. -/
theorem executes_lineAt?_iff (assembles : ofLines lines = .ok image) {address : UInt16}
    {number : Nat} (listed : image.listing.lineAt? address = some number) :
    (∃ line, lines[number]? = some line ∧ line.isInstruction = true) ∧
      (image.Executes lines address.toNat number ↔
        ∃ first last instruction,
          (Layout.instructionsAt lines address.toNat).head? = some first ∧
          (Layout.instructionsAt lines address.toNat).getLast? = some last ∧
          first.Denotes image.symbols instruction ∧ last.Denotes image.symbols instruction) := by
  obtain ⟨first, found, here, source⟩ := site_of_lineAt? assembles listed
  have occupied : Layout.instructionsAt lines address.toNat ≠ [] := by
    intro none
    rw [none] at found
    cases found
  have ending := List.getLast?_eq_some_getLast occupied
  obtain ⟨instruction, denotes, read⟩ := word_of_getLast? assembles ending
  refine ⟨⟨first.line, source, (Site.isInstructionAt_iff.mp here).1⟩, ?_⟩
  rw [executes_of_site here source]
  constructor
  · rintro ⟨named, denotes', read'⟩
    have same : named = instruction :=
      Instruction.encode_inj denotes'.encodable denotes.encodable
        (Option.some.inj (read'.symm.trans read))
    exact ⟨first, _, instruction, found, ending, same ▸ denotes', denotes⟩
  · rintro ⟨first', last, shared, found', ending', denotesFirst, denotesLast⟩
    cases found.symm.trans found'
    cases ending.symm.trans ending'
    have same : shared = instruction := denotesLast.unique denotes
    exact ⟨shared, denotesFirst, same ▸ read⟩

theorem executes_lineAt?_overlaid :
    ∃ image, ofLines overlaid = .ok image ∧ image.listing.lineAt? 0 = some 0 ∧
      image.Executes overlaid 0 0 := by
  obtain ⟨image, assembles⟩ := isOk_overlaid
  have listed : image.listing.lineAt? 0 = some 0 := lineAt?_eq assembles 0
  obtain ⟨instruction, denotes, -⟩ := code_at assembles (show 0 < codeSize by decide)
  exact ⟨image, assembles, listed, (executes_lineAt?_iff assembles listed).2.mpr
    ⟨_, _, instruction, rfl, rfl, denotes, denotes⟩⟩

def replaced : List Line :=
  [⟨none, some (.operation (.control .wait)), {}⟩,
   ⟨none, some .org, ⟨some (.number 0), none, none⟩⟩,
   ⟨none, some (.operation (.control .stby)), {}⟩]

/-- The listing still names the line whose word is written over. -/
theorem not_executes_lineAt?_replaced :
    ∃ image, ofLines replaced = .ok image ∧ image.listing.lineAt? 0 = some 0 ∧
      ¬ image.Executes replaced 0 0 := by
  obtain ⟨image, assembles⟩ : ∃ image, ofLines replaced = .ok image :=
    isOk_of_isSome (by decide +kernel)
  refine ⟨image, assembles, lineAt?_eq assembles 0, ?_⟩
  rintro ⟨line, operation, instruction, source, mnemonic, denotes, read⟩
  obtain ⟨written, ⟨operation', mnemonic', denotes'⟩, read'⟩ :=
    code_at assembles (show 0 < codeSize by decide)
  cases source
  cases mnemonic
  cases mnemonic'
  cases denotes
  cases denotes'
  have same := Option.some.inj (read.symm.trans read')
  exact absurd same (by decide)

end Image

end Gumnut
