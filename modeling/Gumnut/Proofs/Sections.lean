import Gumnut.Proofs.Fitting

/-!
# Code and data apart

The lines of a program belong to two sides: data bytes to one, instructions and all else that has a
label or a mnemonic to the other. Each side moves its own pointer, so a line stands where the lines
of its own side put it. Two programs with the same sides are assembled to the same memories and
symbols, however their sides are interleaved.
-/
set_option autoImplicit false

namespace Gumnut

inductive Side where
  | code
  | data
  deriving DecidableEq, Repr

namespace Side

def pick (side : Side) (code data : Nat) : Nat :=
  match side with
  | .code => code
  | .data => data

end Side

namespace Line

/-- The side of a line. A line with neither label nor mnemonic has none. -/
def side? (line : Line) : Option Side :=
  match line.mnemonic, line.label with
  | some .byte, _ => some .data
  | none, none => none
  | _, _ => some .code

def isOn (side : Side) (line : Line) : Bool :=
  line.side? == some side

def after (line : Line) (side : Side) (pointer : Nat) : Nat :=
  match side with
  | .code => line.codeAfter pointer
  | .data => line.dataAfter pointer

theorem isOn_iff {side : Side} {line : Line} : line.isOn side = true ↔ line.side? = some side := by
  rw [isOn, beq_iff_eq]

theorem side?_eq_none_iff {line : Line} :
    line.side? = none ↔ line.mnemonic = none ∧ line.label = none := by
  unfold side?
  split <;> simp_all

theorem isOn_code_of_isInstruction {line : Line} (instruction : line.isInstruction = true) :
    line.isOn .code = true := by
  obtain ⟨operation, mnemonic⟩ := mnemonic_of_isInstruction instruction
  simp [isOn, side?, mnemonic]

theorem isByte_eq (line : Line) : line.isByte = line.isOn .data := by
  unfold isByte isOn side?
  cases line.mnemonic with
  | none => cases line.label <;> rfl
  | some mnemonic => cases mnemonic <;> rfl

theorem after_of_not_isOn {side : Side} {line : Line} (elsewhere : line.isOn side = false)
    (pointer : Nat) : line.after side pointer = pointer := by
  cases side with
  | data => rw [after, dataAfter, isByte_eq, elsewhere, if_neg Bool.false_ne_true]
  | code =>
    cases mnemonic : line.mnemonic with
    | none => simp [after, codeAfter, mnemonic]
    | some mnemonic' =>
      cases mnemonic' with
      | byte => simp [after, codeAfter, mnemonic]
      | operation | org | unknown => simp [isOn, side?, mnemonic] at elsewhere

end Line

theorem Site.pointer_of_isOn {site : Site} {side : Side} (on : site.line.isOn side = true) :
    site.spot.pointer = side.pick site.code site.data := by
  rw [spot, Line.isByte_eq]
  cases side with
  | data => exact if_pos on
  | code =>
    rw [Line.isOn_iff] at on
    exact if_neg (by simp [Line.isOn, on])

namespace Layout

def track (side : Side) (pointer : Nat) : List Line → List Spot
  | [] => []
  | line :: rest => ⟨pointer, line⟩ :: track side (line.after side pointer) rest

theorem filter_spot_walk (side : Side) (number code data : Nat) (lines : List Line) :
    ((walk number code data lines).map Site.spot).filter (fun spot => spot.line.isOn side) =
      track side (side.pick code data) (lines.filter (Line.isOn side)) := by
  induction lines generalizing number code data with
  | nil => rfl
  | cons line rest ih =>
    have moved : side.pick (line.codeAfter code) (line.dataAfter data) =
        line.after side (side.pick code data) := by
      cases side <;> rfl
    have own : (Site.mk number code data line).spot.line = line := rfl
    rw [walk, List.map_cons, List.filter_cons, List.filter_cons, ih, moved, own]
    cases on : line.isOn side with
    | true =>
      have pointer : (Site.mk number code data line).spot.pointer = side.pick code data :=
        Site.pointer_of_isOn on
      rw [if_pos rfl, if_pos rfl, track, ← pointer]
      rfl
    | false => rw [if_neg Bool.false_ne_true, if_neg Bool.false_ne_true, Line.after_of_not_isOn on]

/-- The lines of a side stand where they would stand without the other side. -/
theorem filter_spots (side : Side) (lines : List Line) :
    (spots lines).filter (fun spot => spot.line.isOn side) =
      track side 0 (lines.filter (Line.isOn side)) := by
  rw [spots, ofLines, filter_spot_walk]
  cases side <;> rfl

/-- The bindings of some lines are those of the two sides. -/
theorem bindings_perm (spots : List Spot) :
    (spots.flatMap Spot.bindings).Perm
      ((spots.filter fun spot => spot.line.isOn .code).flatMap Spot.bindings ++
        (spots.filter fun spot => spot.line.isOn .data).flatMap Spot.bindings) := by
  induction spots with
  | nil => exact .nil
  | cons spot rest ih =>
    rw [List.flatMap_cons, List.filter_cons, List.filter_cons]
    cases on : spot.line.side? with
    | none =>
      obtain ⟨-, unlabelled⟩ := Line.side?_eq_none_iff.mp on
      simpa [Line.isOn, on, Spot.bindings, unlabelled] using ih
    | some side =>
      have front := ih.append_left spot.bindings
      cases side with
      | code => simpa [Line.isOn, on] using front
      | data => simpa [Line.isOn, on] using front.trans (List.perm_append_comm_assoc ..)

/-- Whether two programs have the same lines on each side, in the same order. -/
def SameSides (first second : List Line) : Prop :=
  ∀ side, first.filter (Line.isOn side) = second.filter (Line.isOn side)

namespace SameSides

variable {first second : List Line}

theorem symm (same : SameSides first second) : SameSides second first :=
  fun side => (same side).symm

theorem spots_eq (same : SameSides first second) (side : Side) :
    (spots first).filter (fun spot => spot.line.isOn side) =
      (spots second).filter (fun spot => spot.line.isOn side) := by
  rw [filter_spots, filter_spots, same side]

theorem fits (same : SameSides first second) (fits : ∀ spot ∈ spots first, spot.Fits) :
    ∀ spot ∈ spots second, spot.Fits := by
  intro spot member
  cases on : spot.line.side? with
  | none =>
    obtain ⟨bare, -⟩ := Line.side?_eq_none_iff.mp on
    simp [Spot.Fits, bare]
  | some side =>
    have kept : spot ∈ (spots second).filter (fun spot => spot.line.isOn side) :=
      List.mem_filter.mpr ⟨member, Line.isOn_iff.mpr on⟩
    rw [← same.spots_eq side] at kept
    exact fits spot (List.mem_of_mem_filter kept)

theorem uses {names : List String} (same : SameSides first second)
    (uses : ∀ line ∈ first, ∀ name, line.Uses name → name ∈ names) :
    ∀ line ∈ second, ∀ name, line.Uses name → name ∈ names := by
  intro line member name used
  cases on : line.side? with
  | none =>
    obtain ⟨bare, -⟩ := Line.side?_eq_none_iff.mp on
    simp [Line.Uses, bare] at used
  | some side =>
    have kept : line ∈ second.filter (Line.isOn side) :=
      List.mem_filter.mpr ⟨member, Line.isOn_iff.mpr on⟩
    rw [← same side] at kept
    exact uses line (List.mem_of_mem_filter kept) name used

theorem bindings_perm (same : SameSides first second) :
    ((spots first).flatMap Spot.bindings).Perm ((spots second).flatMap Spot.bindings) := by
  apply (Layout.bindings_perm _).trans
  rw [same.spots_eq, same.spots_eq]
  exact (Layout.bindings_perm _).symm

theorem labels_perm (same : SameSides first second) : (labels first).Perm (labels second) := by
  rw [← map_fst_bindings, ← map_fst_bindings]
  exact same.bindings_perm.map Prod.fst

theorem countP_isInstruction (same : SameSides first second) :
    first.countP Line.isInstruction = second.countP Line.isInstruction := by
  have counts : ∀ lines : List Line,
      lines.countP Line.isInstruction =
        (lines.filter (Line.isOn .code)).countP Line.isInstruction := by
    intro lines
    rw [List.countP_filter]
    apply List.countP_congr
    intro line _
    simp only [Bool.and_eq_true, iff_self_and]
    exact Line.isOn_code_of_isInstruction
  rw [counts first, counts second, same .code]

theorem byteLines_eq (same : SameSides first second) : byteLines first = byteLines second := by
  have whole : Line.isByte = Line.isOn .data := funext Line.isByte_eq
  rw [byteLines, byteLines, whole, same .data]

/-- The last instruction lines at an address are the same, wherever else they stand. -/
theorem spot_of_getLast? (same : SameSides first second) (address : Nat) :
    (instructionsAt first address).getLast?.map Site.spot =
      (instructionsAt second address).getLast?.map Site.spot := by
  have told : ∀ lines : List Line, (instructionsAt lines address).map Site.spot =
      ((spots lines).filter fun spot => spot.line.isOn .code).filter fun spot =>
        spot.line.isInstruction && spot.pointer == address := by
    intro lines
    rw [instructionsAt, spots, List.filter_map, List.filter_map, List.filter_filter]
    congr 1
    apply List.filter_congr
    intro site _
    show site.isInstructionAt address =
      (site.line.isInstruction && site.spot.pointer == address && site.line.isOn .code)
    cases on : site.line.isInstruction with
    | false => simp only [Site.isInstructionAt, on, Bool.false_and]
    | true =>
      have side := Line.isOn_code_of_isInstruction on
      have own : site.spot.pointer = site.code := Site.pointer_of_isOn side
      rw [Site.isInstructionAt, on, own, side, Bool.and_true]
  rw [← List.getLast?_map, ← List.getLast?_map, told, told, same.spots_eq]

end SameSides

end Layout

namespace Image

open Layout (SameSides)

variable {first second : List Line} {image other : Image}

theorem exists_of_sameSides (same : SameSides first second)
    (assembles : ∃ image, ofLines first = .ok image) : ∃ image, ofLines second = .ok image := by
  obtain ⟨fits, distinct, uses⟩ := exists_ofLines_iff.mp assembles
  apply exists_ofLines_iff.mpr
  refine ⟨same.fits fits, same.labels_perm.nodup_iff.mp distinct, ?_⟩
  apply same.uses
  intro line member name used
  exact same.labels_perm.mem_iff.mp (uses line member name used)

theorem entries_perm (same : SameSides first second) (assembles : ofLines first = .ok image)
    (assembles' : ofLines second = .ok other) :
    image.symbols.entries.Perm other.symbols.entries := by
  rw [entries_eq assembles, entries_eq assembles']
  exact (List.reverse_perm _).trans (same.bindings_perm.trans (List.reverse_perm _).symm)

theorem lookup?_eq (same : SameSides first second) (assembles : ofLines first = .ok image)
    (assembles' : ofLines second = .ok other) (label : String) :
    image.symbols.lookup? label = other.symbols.lookup? label := by
  apply Option.ext
  intro location
  rw [SymbolTable.lookup?_eq_some_iff, SymbolTable.lookup?_eq_some_iff]
  exact (entries_perm same assembles assembles').mem_iff

theorem code_eq (same : SameSides first second) (assembles : ofLines first = .ok image)
    (assembles' : ofLines second = .ok other) : image.code = other.code := by
  apply Memory.eq_of_get?
  intro address inside
  have words := code_at assembles inside
  have words' := code_at assembles' inside
  have last := same.spot_of_getLast? address
  cases ending : (Layout.instructionsAt first address).getLast? with
  | none =>
    cases ending' : (Layout.instructionsAt second address).getLast? with
    | none =>
      rw [ending] at words
      rw [ending'] at words'
      exact words.trans words'.symm
    | some site' => simp [ending, ending'] at last
  | some site =>
    cases ending' : (Layout.instructionsAt second address).getLast? with
    | none => simp [ending, ending'] at last
    | some site' =>
      rw [ending] at words
      rw [ending'] at words'
      obtain ⟨instruction, denotes, word⟩ := words
      obtain ⟨instruction', denotes', word'⟩ := words'
      have code : site.code = site'.code :=
        (Layout.code_of_getLast? ending).trans (Layout.code_of_getLast? ending').symm
      have line : site.line = site'.line := by
        simp only [ending, ending', Option.map_some, Option.some.injEq] at last
        exact congrArg Spot.line last
      have means := denotes.congr (lookup?_eq same assembles assembles') code line
      rw [word, word', means.unique denotes']

theorem data_eq (same : SameSides first second) (assembles : ofLines first = .ok image)
    (assembles' : ofLines second = .ok other) : image.data = other.data := by
  apply Memory.eq_of_get?
  intro k inside
  have bytes := data_at assembles inside
  have bytes' := data_at assembles' inside
  rw [same.byteLines_eq] at bytes
  cases found : (Layout.byteLines second)[k]? with
  | none =>
    rw [found] at bytes bytes'
    exact bytes.trans bytes'.symm
  | some line =>
    rw [found] at bytes bytes'
    obtain ⟨byte, denotes, read⟩ := bytes
    obtain ⟨byte', denotes', read'⟩ := bytes'
    have means := denotes.congr (lookup?_eq same assembles assembles')
    rw [read, read', means.unique denotes']

/-- Programs with the same sides assemble both or neither, and then to the same words, bytes and
symbols. -/
theorem sections_independent (same : SameSides first second) :
    ((∃ image, ofLines first = .ok image) ↔ ∃ image, ofLines second = .ok image) ∧
      ∀ image other, ofLines first = .ok image → ofLines second = .ok other →
        image.code = other.code ∧
        image.data = other.data ∧
        (∀ label, image.symbols.lookup? label = other.symbols.lookup? label) ∧
        image.symbols.entries.Perm other.symbols.entries ∧
        image.instructionCount = other.instructionCount := by
  refine ⟨⟨exists_of_sameSides same, exists_of_sameSides same.symm⟩, ?_⟩
  intro image other assembles assembles'
  refine ⟨code_eq same assembles assembles', data_eq same assembles assembles',
    lookup?_eq same assembles assembles', entries_perm same assembles assembles', ?_⟩
  rw [instructionCount_eq assembles, instructionCount_eq assembles', same.countP_isInstruction]

def tabled : List Line :=
  [⟨some "table", some .byte, ⟨some (.number 300), none, none⟩⟩,
   ⟨some "start", some (.operation (.memory .ldm)),
    ⟨some (.register .r0), some (.symbol "table"), none⟩⟩,
   ⟨none, some .byte, ⟨some (.symbol "start"), none, none⟩⟩,
   ⟨none, some (.operation (.branch .nz)), ⟨some (.symbol "start"), none, none⟩⟩]

/-- The lines of `tabled` with the code first and an empty one between: the table is used before its
label, which takes a second pass. -/
def trailed : List Line :=
  [⟨some "start", some (.operation (.memory .ldm)),
    ⟨some (.register .r0), some (.symbol "table"), none⟩⟩,
   ⟨none, none, {}⟩,
   ⟨none, some (.operation (.branch .nz)), ⟨some (.symbol "start"), none, none⟩⟩,
   ⟨some "table", some .byte, ⟨some (.number 300), none, none⟩⟩,
   ⟨none, some .byte, ⟨some (.symbol "start"), none, none⟩⟩]

theorem sections_independent_tabled :
    SameSides tabled trailed ∧
      ∃ image other, ofLines tabled = .ok image ∧ ofLines trailed = .ok other ∧
        image.code = other.code ∧
        image.data = other.data ∧
        (∀ label, image.symbols.lookup? label = other.symbols.lookup? label) ∧
        image.symbols.entries.Perm other.symbols.entries ∧
        image.instructionCount = other.instructionCount ∧
        other.code.get? 1 = some (Instruction.branch .nz 254).encode ∧
        other.data.read 0 = 44 ∧
        other.symbols.lookup? "table" = some (.data 0) := by
  have same : SameSides tabled trailed := by
    intro side
    cases side <;> rfl
  obtain ⟨both, equal⟩ := sections_independent same
  obtain ⟨image, assembles⟩ : ∃ image, ofLines tabled = .ok image :=
    isOk_of_isSome (by decide +kernel)
  obtain ⟨other, assembles'⟩ := both.mp ⟨image, assembles⟩
  obtain ⟨code, data, symbols, entries, count⟩ := equal image other assembles assembles'
  have produced : (ofLines tabled).toOption.map (fun image =>
      (image.code.get? 1, image.data.read 0, image.symbols.lookup? "table")) =
        some (some (Instruction.branch .nz 254).encode, 44, some (.data 0)) := by
    decide +kernel
  rw [assembles] at produced
  obtain ⟨branches, byte, table⟩ : image.code.get? 1 = some (Instruction.branch .nz 254).encode ∧
      image.data.read 0 = 44 ∧ image.symbols.lookup? "table" = some (.data 0) := by
    simpa using Option.some.inj produced
  refine ⟨same, image, other, assembles, assembles', code, data, symbols, entries, count,
    ?_, ?_, ?_⟩
  · rw [← code, branches]
  · rw [← data, byte]
  · rw [← symbols, table]

end Image

end Gumnut
