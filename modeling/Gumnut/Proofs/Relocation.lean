import Gumnut.Proofs.Fitting

/-!
# Relocated code

Code that refers to labels can stand anywhere. If no line of a program says where its instructions
go, an `org` in front of them moves all of them by the same distance, and the labels between them
too; data stays. A branch is told its distance from the target, so its word stays the same. A jump
is told its target, which has moved. Other instructions take no notice unless they use the address
of an instruction as a number.
-/
set_option autoImplicit false

namespace Gumnut

def Location.moved (distance : Nat) : Location → Location
  | code address => code (UInt16.ofNat (address.toNat + distance))
  | data address => data address

theorem Location.moved_code (distance pointer : Nat) :
    (code (UInt16.ofNat pointer)).moved distance = code (UInt16.ofNat (pointer + distance)) := by
  rw [moved, UInt16.ofNat_add, UInt16.ofNat_toNat, UInt16.ofNat_add]

def Site.moved (distance : Nat) (site : Site) : Site :=
  ⟨site.number + 1, site.code + distance, site.data, site.line⟩

namespace Line

def orgTo (address : Nat) : Line :=
  ⟨none, some .org, ⟨some (.number (UInt32.ofNat address)), none, none⟩⟩

/-- Whether a line has the label of an instruction among its operands. -/
def RefersToCode (line : Line) (symbols : SymbolTable) : Prop :=
  ∃ name address, .symbol name ∈ line.operands.toList ∧
    symbols.lookup? name = some (.code address)

variable {line : Line} {distance : Nat}

theorem toNat_orgTo (inside : distance ≤ codeSize) : (UInt32.ofNat distance).toNat = distance :=
  UInt32.toNat_ofNat_of_lt' (Nat.lt_of_le_of_lt inside (by decide))

theorem codeAfter_of_ne_org (still : line.mnemonic ≠ some .org) (code : Nat) :
    line.codeAfter code = code + if line.isInstruction then 1 else 0 := by
  cases mnemonic : line.mnemonic with
  | none => simp [codeAfter, isInstruction, operation?, mnemonic]
  | some kind =>
    cases kind with
    | org => exact absurd mnemonic still
    | byte | unknown | operation => simp [codeAfter, isInstruction, operation?, mnemonic]

end Line

theorem Site.location_of_ne_org {site : Site} (still : site.line.mnemonic ≠ some .org) :
    site.spot.location =
      if site.line.isByte then .data (UInt8.ofNat site.data) else .code (UInt16.ofNat site.code) := by
  cases mnemonic : site.line.mnemonic with
  | none => simp [Spot.location, Site.spot, Line.isByte, mnemonic]
  | some kind =>
    cases kind with
    | org => exact absurd mnemonic still
    | byte | unknown | operation => simp [Spot.location, Site.spot, Line.isByte, mnemonic]

/-! ## The layout -/

namespace Layout

variable {lines : List Line} {site : Site} {distance number code data : Nat}

theorem still_of_mem_ofLines (still : ∀ line ∈ lines, line.mnemonic ≠ some .org)
    (member : site ∈ ofLines lines) : site.line.mnemonic ≠ some .org := by
  have source := line_of_mem_ofLines member
  exact still _ (List.mem_of_getElem? source)

theorem walk_moved (still : ∀ line ∈ lines, line.mnemonic ≠ some .org)
    (distance number code data : Nat) :
    walk (number + 1) (code + distance) data lines =
      (walk number code data lines).map (Site.moved distance) := by
  induction lines generalizing number code data with
  | nil => rfl
  | cons line rest ih =>
    rw [List.forall_mem_cons] at still
    obtain ⟨own, later⟩ := still
    have behind : line.codeAfter (code + distance) = line.codeAfter code + distance := by
      rw [Line.codeAfter_of_ne_org own, Line.codeAfter_of_ne_org own, Nat.add_right_comm]
    rw [walk, walk, behind, ih later, List.map_cons, Site.moved]

theorem ofLines_orgTo (still : ∀ line ∈ lines, line.mnemonic ≠ some .org)
    (inside : distance ≤ codeSize) :
    ofLines (.orgTo distance :: lines) =
      ⟨0, 0, 0, .orgTo distance⟩ :: (ofLines lines).map (Site.moved distance) := by
  have start : (Line.orgTo distance).codeAfter 0 = 0 + distance := by
    rw [Nat.zero_add]
    exact Line.toNat_orgTo inside
  rw [ofLines, walk, start, ofLines, ← walk_moved still]
  rfl

/-- A line stands behind the instructions before it, and there is room for those that follow. -/
theorem code_of_mem_walk (still : ∀ line ∈ lines, line.mnemonic ≠ some .org)
    (member : site ∈ walk number code data lines) :
    code ≤ site.code ∧
      (site.code + if site.line.isInstruction then 1 else 0) ≤
        code + lines.countP Line.isInstruction := by
  induction lines generalizing number code data with
  | nil => cases member
  | cons line rest ih =>
    rw [List.forall_mem_cons] at still
    obtain ⟨own, later⟩ := still
    rw [List.countP_cons]
    rcases List.mem_cons.mp member with rfl | behind
    · exact ⟨Nat.le_refl code, by dsimp only; omega⟩
    · have bounds := ih later behind
      rw [Line.codeAfter_of_ne_org own] at bounds
      omega

theorem filter_walk_eq_singleton (still : ∀ line ∈ lines, line.mnemonic ≠ some .org)
    (member : site ∈ walk number code data lines) (kind : site.line.isInstruction = true) :
    ((walk number code data lines).filter fun other => other.isInstructionAt site.code) = [site] := by
  induction lines generalizing number code data with
  | nil => cases member
  | cons line rest ih =>
    rw [List.forall_mem_cons] at still
    obtain ⟨own, later⟩ := still
    have next := Line.codeAfter_of_ne_org own code
    rw [walk, List.filter_cons]
    rcases List.mem_cons.mp member with rfl | behind
    · rw [if_pos (Site.isInstructionAt_iff.mpr ⟨kind, rfl⟩), List.filter_eq_nil_iff.mpr]
      intro other following same
      have above := (code_of_mem_walk later following).1
      have here := (Site.isInstructionAt_iff.mp same).2
      rw [next, if_pos kind] at above
      dsimp only at here
      omega
    · have above := (code_of_mem_walk later behind).1
      rw [next] at above
      rw [if_neg, ih later behind]
      intro same
      obtain ⟨instruction, here⟩ := Site.isInstructionAt_iff.mp same
      rw [if_pos instruction] at above
      dsimp only at here
      omega

theorem instructionsAt_orgTo (still : ∀ line ∈ lines, line.mnemonic ≠ some .org)
    (inside : distance ≤ codeSize) (address : Nat) :
    instructionsAt (.orgTo distance :: lines) (address + distance) =
      (instructionsAt lines address).map (Site.moved distance) := by
  have moved : ((fun site => Site.isInstructionAt site (address + distance)) ∘
      Site.moved distance) = fun site => site.isInstructionAt address := by
    funext site
    have same : (site.code + distance == address + distance) = (site.code == address) := by
      rw [Bool.eq_iff_iff, beq_iff_eq, beq_iff_eq, Nat.add_right_cancel_iff]
    simp only [Function.comp_apply, Site.isInstructionAt, Site.moved, same]
  rw [instructionsAt, ofLines_orgTo still inside, instructionsAt]
  rw [List.filter_cons_of_neg (by simp [Site.isInstructionAt, Line.orgTo, Line.isInstruction,
    Line.operation?]), List.filter_map, moved]

end Layout

/-! ## The symbols -/

namespace SymbolTable

theorem lookup_map (f : Location → Location) (label : String)
    (entries : List (String × Location)) :
    (entries.map (Prod.map id f)).lookup label = (entries.lookup label).map f := by
  induction entries with
  | nil => rfl
  | cons entry rest ih =>
    obtain ⟨own, location⟩ := entry
    rw [List.map_cons, Prod.map_apply, id, List.lookup_cons, ih, List.lookup_cons]
    cases label == own <;> rfl

end SymbolTable

namespace Layout

variable {lines : List Line} {site : Site} {distance : Nat}

/-- A line that moves with the code binds its label to the location that has moved. -/
theorem bindings_moved (still : site.line.mnemonic ≠ some .org) :
    (site.moved distance).spot.bindings =
      site.spot.bindings.map (Prod.map id (Location.moved distance)) := by
  have place : (site.moved distance).spot.location = site.spot.location.moved distance := by
    have still' : (site.moved distance).line.mnemonic ≠ some .org := still
    have same : (site.moved distance).line = site.line := rfl
    rw [Site.location_of_ne_org still', Site.location_of_ne_org still, same]
    split
    · rfl
    · exact (Location.moved_code distance site.code).symm
  have line : (site.moved distance).spot.line = site.spot.line := rfl
  rw [Spot.bindings, Spot.bindings, place, line]
  cases site.spot.line.label <;> rfl

theorem bindings_orgTo (still : ∀ line ∈ lines, line.mnemonic ≠ some .org)
    (inside : distance ≤ codeSize) :
    (spots (.orgTo distance :: lines)).flatMap Spot.bindings =
      ((spots lines).flatMap Spot.bindings).map (Prod.map id (Location.moved distance)) := by
  have own : (Site.mk 0 0 0 (.orgTo distance)).spot.bindings = [] := rfl
  have each : ∀ site ∈ ofLines lines, (site.moved distance).spot.bindings =
      site.spot.bindings.map (Prod.map id (Location.moved distance)) := by
    intro site member
    exact bindings_moved (still_of_mem_ofLines still member)
  rw [spots, ofLines_orgTo still inside, List.map_cons, List.flatMap_cons, own, List.nil_append,
    spots, List.map_map, List.flatMap_map, List.flatMap_map, List.map_flatMap]
  exact List.flatMap_congr each

theorem fits_orgTo (still : ∀ line ∈ lines, line.mnemonic ≠ some .org)
    (room : distance + lines.countP Line.isInstruction ≤ codeSize)
    (fits : ∀ spot ∈ spots lines, spot.Fits) :
    ∀ spot ∈ spots (.orgTo distance :: lines), spot.Fits := by
  have inside : distance ≤ codeSize := Nat.le_trans (Nat.le_add_right _ _) room
  rw [spots, ofLines_orgTo still inside, List.map_cons, List.forall_mem_cons, List.map_map,
    List.forall_mem_map]
  refine ⟨⟨_, rfl, ?_⟩, fun site member => ?_⟩
  · rw [Line.toNat_orgTo inside]
    exact inside
  · have fit : site.spot.Fits := fits _ (List.mem_map_of_mem member)
    have own := still_of_mem_ofLines still member
    have bound := (code_of_mem_walk still member).2
    rw [Nat.zero_add] at bound
    cases mnemonic : site.line.mnemonic with
    | none => simp [Spot.Fits, Site.spot, Site.moved, mnemonic]
    | some kind =>
      cases kind with
      | org => exact absurd mnemonic own
      | unknown name => simp [Spot.Fits, Site.spot, mnemonic] at fit
      | byte =>
        simpa [Spot.Fits, Site.spot, Site.moved, Line.isByte, mnemonic] using fit
      | operation operation =>
        have kind : site.line.isInstruction = true := by
          simp [Line.isInstruction, Line.operation?, mnemonic]
        rw [if_pos kind] at bound
        simp only [Spot.Fits, Site.spot, Line.isByte, mnemonic] at fit
        simp only [Spot.Fits, Site.spot, Site.moved, Line.isByte, mnemonic, Function.comp_apply]
        exact ⟨by simp; omega, fit.2⟩

end Layout

/-! ## The words -/

/-- Apart from a branch, an instruction is the same wherever it stands, as long as its operands have
the same values. -/
theorem Instruction.Denotes.elsewhere {symbols table : SymbolTable} {address : Nat}
    {operation : Operation} {operands : Operands} {instruction : Instruction}
    (denotes : Denotes symbols address operation operands instruction) (other : Nat)
    (settled : ∀ cond, operation ≠ .branch cond)
    (same : ∀ operand ∈ operands.toList, operand.valueIn? table = operand.valueIn? symbols) :
    Denotes table other operation operands instruction := by
  have keeps {operand : Operand} {v : Nat} (member : operand ∈ operands.toList)
      (value : operand.valueIn? symbols = some v) : operand.valueIn? table = some v :=
    (same operand member).trans value
  cases denotes with
  | aluRegister op rd rs rt => exact .aluRegister op rd rs rt
  | aluImmediate op rd rs value =>
    exact .aluImmediate op rd rs (keeps (by simp [Operands.toList]) value)
  | shift op rd rs value => exact .shift op rd rs (keeps (by simp [Operands.toList]) value)
  | indexed op rd base value index =>
    exact .indexed op rd base (keeps (by simp [Operands.toList]) value) index
  | unindexed op rd value => exact .unindexed op rd (keeps (by simp [Operands.toList]) value)
  | displaced op rd start value =>
    exact .displaced op rd (keeps (by simp [Operands.toList]) start)
      (keeps (by simp [Operands.toList]) value)
  | direct op rd value => exact .direct op rd (keeps (by simp [Operands.toList]) value)
  | branch cond value => exact absurd rfl (settled cond)
  | jump op value => exact .jump op (keeps (by simp [Operands.toList]) value)
  | control op => exact .control op

namespace Image

variable {lines : List Line} {image moved : Image} {site : Site} {distance : Nat}
  {operation : Operation}

theorem exists_orgTo (assembles : ofLines lines = .ok image)
    (still : ∀ line ∈ lines, line.mnemonic ≠ some .org)
    (room : distance + lines.countP Line.isInstruction ≤ codeSize) :
    ∃ moved, ofLines (.orgTo distance :: lines) = .ok moved := by
  obtain ⟨fits, distinct, uses⟩ := exists_ofLines_iff.mp ⟨image, assembles⟩
  have labels : Layout.labels (.orgTo distance :: lines) = Layout.labels lines := rfl
  rw [exists_ofLines_iff, labels, List.forall_mem_cons]
  refine ⟨Layout.fits_orgTo still room fits, distinct, fun name used => ?_, uses⟩
  simp [Line.Uses, Line.orgTo, Operands.toList] at used

/-- Every label is bound to the location that has moved with its line. -/
theorem lookup?_moved (assembles : ofLines lines = .ok image)
    (assembles' : ofLines (.orgTo distance :: lines) = .ok moved)
    (still : ∀ line ∈ lines, line.mnemonic ≠ some .org) (inside : distance ≤ codeSize)
    (label : String) :
    moved.symbols.lookup? label = (image.symbols.lookup? label).map (Location.moved distance) := by
  have entries : moved.symbols.entries =
      image.symbols.entries.map (Prod.map id (Location.moved distance)) := by
    rw [entries_eq assembles', Layout.bindings_orgTo still inside, entries_eq assembles,
      List.map_reverse]
  rw [SymbolTable.lookup?, entries, SymbolTable.lookup_map, SymbolTable.lookup?]

/-- A label of the code stands at an instruction or behind the last one. -/
theorem toNat_le_of_lookup? (assembles : ofLines lines = .ok image)
    (still : ∀ line ∈ lines, line.mnemonic ≠ some .org) {label : String} {address : UInt16}
    (bound : image.symbols.lookup? label = some (.code address)) :
    address.toNat ≤ lines.countP Line.isInstruction := by
  rw [SymbolTable.lookup?_eq_some_iff, entries_eq assembles, List.mem_reverse,
    List.mem_flatMap] at bound
  obtain ⟨spot, member, own⟩ := bound
  obtain ⟨site, inside, rfl⟩ := List.mem_map.mp member
  have below := (Layout.code_of_mem_walk still inside).2
  have place : site.spot.location = .code address := by
    obtain ⟨name, -, same⟩ := Option.map_eq_some_iff.mp (Option.mem_toList.mp own)
    exact congrArg Prod.snd same
  rw [Site.location_of_ne_org (Layout.still_of_mem_ofLines still inside)] at place
  split at place
  · cases place
  · cases place
    rw [UInt16.toNat_ofNat']
    have lowered := Nat.mod_le site.code (2 ^ 16)
    omega

/-- An instruction line has a word in both images, each by the symbols of its own image. -/
theorem exists_words (assembles : ofLines lines = .ok image)
    (assembles' : ofLines (.orgTo distance :: lines) = .ok moved)
    (still : ∀ line ∈ lines, line.mnemonic ≠ some .org) (inside : distance ≤ codeSize)
    (member : site ∈ Layout.ofLines lines) (kind : site.line.operation? = some operation) :
    ∃ instruction other,
      Instruction.Denotes image.symbols site.code operation site.line.operands instruction ∧
      image.code.get? site.code = some instruction.encode ∧
      Instruction.Denotes moved.symbols (site.code + distance) operation site.line.operands other ∧
      moved.code.get? (site.code + distance) = some other.encode := by
  have places : site.line.isInstruction = true := by
    rw [Line.isInstruction, kind, Option.isSome_some]
  have alone : Layout.instructionsAt lines site.code = [site] :=
    Layout.filter_walk_eq_singleton still member places
  have alone' := Layout.instructionsAt_orgTo still inside site.code
  rw [alone] at alone'
  obtain ⟨instruction, ⟨operation', kind', denotes⟩, read⟩ :=
    word_of_getLast? assembles (congrArg List.getLast? alone)
  obtain ⟨other, ⟨operation'', kind'', denotes'⟩, read'⟩ :=
    word_of_getLast? assembles' (congrArg List.getLast? alone')
  cases kind.symm.trans kind'
  cases kind.symm.trans kind''
  exact ⟨instruction, other, denotes, read, denotes', read'⟩

theorem valueIn?_moved (moves : ∀ label,
      moved.symbols.lookup? label = (image.symbols.lookup? label).map (Location.moved distance))
    {line : Line} (apart : ¬ line.RefersToCode image.symbols) {operand : Operand}
    (member : operand ∈ line.operands.toList) :
    operand.valueIn? moved.symbols = operand.valueIn? image.symbols := by
  cases operand with
  | register | number | notANumber => rfl
  | symbol name =>
    rw [Operand.valueIn?, moves, Operand.valueIn?]
    cases bound : image.symbols.lookup? name with
    | none => rfl
    | some location =>
      cases location with
      | data address => rfl
      | code address => exact absurd ⟨name, address, member, bound⟩ apart

/-- Behind an `org` to any address with room for them, the lines of a program without one assemble
again. Labels of the code and their instructions move by that distance, and those of data stay. A
branch to a label of the code keeps its word, and so does any other instruction that refers to none;
a jump to one goes where its target has moved. -/
theorem code_relocates (assembles : ofLines lines = .ok image)
    (still : ∀ line ∈ lines, line.mnemonic ≠ some .org)
    (room : distance + lines.countP Line.isInstruction ≤ codeSize) :
    ∃ moved, ofLines (.orgTo distance :: lines) = .ok moved ∧
      (∀ label, moved.symbols.lookup? label =
        (image.symbols.lookup? label).map (Location.moved distance)) ∧
      (∀ label target, image.symbols.lookup? label = some (.code target) →
        target.toNat + distance ≤ codeSize) ∧
      ∀ site ∈ Layout.ofLines lines, ∀ operation, site.line.operation? = some operation →
        ∃ instruction,
          Instruction.Denotes image.symbols site.code operation site.line.operands instruction ∧
          image.code.get? site.code = some instruction.encode ∧
          (∀ cond label target, operation = .branch cond →
            site.line.operands.first = some (.symbol label) →
            image.symbols.lookup? label = some (.code target) →
            moved.code.get? (site.code + distance) = some instruction.encode) ∧
          ((∀ cond, operation ≠ .branch cond) → ¬ site.line.RefersToCode image.symbols →
            moved.code.get? (site.code + distance) = some instruction.encode) ∧
          ∀ op label target, operation = .jump op →
            site.line.operands.first = some (.symbol label) →
            image.symbols.lookup? label = some (.code target) →
            instruction = .jump op (UInt16.ofNat (target.toNat % 4096)) ∧
            moved.code.get? (site.code + distance) =
              some (Instruction.jump op
                (UInt16.ofNat ((target.toNat + distance) % 4096))).encode := by
  have inside : distance ≤ codeSize := Nat.le_trans (Nat.le_add_right _ _) room
  obtain ⟨moved, assembles'⟩ := exists_orgTo assembles still room
  have moves := lookup?_moved assembles assembles' still inside
  have within : ∀ label target, image.symbols.lookup? label = some (.code target) →
      target.toNat + distance ≤ codeSize := by
    intro label target bound
    have below := toNat_le_of_lookup? assembles still bound
    omega
  refine ⟨moved, assembles', moves, within, fun site member operation kind => ?_⟩
  obtain ⟨instruction, other, denotes, read, denotes', read'⟩ :=
    exists_words assembles assembles' still inside member kind
  have values : ∀ {label target}, image.symbols.lookup? label = some (.code target) →
      (Operand.symbol label).valueIn? image.symbols = some target.toNat ∧
      (Operand.symbol label).valueIn? moved.symbols = some (target.toNat + distance) := by
    intro label target bound
    have small : target.toNat + distance < UInt16.size :=
      Nat.lt_of_le_of_lt (within label target bound) (by decide)
    rw [Operand.valueIn?, Operand.valueIn?, moves, bound]
    refine ⟨rfl, congrArg some ?_⟩
    exact UInt16.toNat_ofNat_of_lt' small
  refine ⟨instruction, denotes, read, ?_, ?_, ?_⟩
  · rintro cond label target rfl operand bound
    obtain ⟨value, value'⟩ := values bound
    have distances : ((target.toNat + distance : Nat) : Int) - ((site.code + distance : Nat) + 1) =
        target.toNat - (site.code + 1) := by omega
    rw [read', denotes.eq_branch operand value, denotes'.eq_branch operand value', distances]
  · intro settled apart
    have same := denotes.elsewhere (site.code + distance) settled
      fun operand member => valueIn?_moved moves apart member
    rw [read', denotes'.unique same]
  · rintro op label target rfl operand bound
    obtain ⟨value, value'⟩ := values bound
    rw [read', denotes'.eq_jump operand value']
    exact ⟨denotes.eq_jump operand value, rfl⟩

def relocatable : List Line :=
  [⟨some "start", some (.operation (.memory .ldm)),
    ⟨some (.register .r0), some (.symbol "table"), none⟩⟩,
   ⟨none, some (.operation (.branch .nz)), ⟨some (.symbol "start"), none, none⟩⟩,
   ⟨none, some (.operation (.jump .jsb)), ⟨some (.symbol "done"), none, none⟩⟩,
   ⟨some "table", some .byte, ⟨some (.number 7), none, none⟩⟩,
   ⟨some "done", some (.operation (.control .ret)), {}⟩]

theorem code_relocates_relocatable :
    ∃ image moved, ofLines relocatable = .ok image ∧
      ofLines (.orgTo 4092 :: relocatable) = .ok moved ∧
      moved.symbols.lookup? "done" = some (.code 4095) ∧
      moved.symbols.lookup? "table" = some (.data 0) ∧
      moved.code.get? 4092 = image.code.get? 0 ∧
      moved.code.get? 4093 = image.code.get? 1 ∧
      image.code.get? 2 = some (Instruction.jump .jsb 3).encode ∧
      moved.code.get? 4094 = some (Instruction.jump .jsb 4095).encode := by
  obtain ⟨image, assembles⟩ : ∃ image, ofLines relocatable = .ok image :=
    isOk_of_isSome (by decide +kernel)
  have bound : (ofLines relocatable).toOption.map (fun image =>
      (image.symbols.lookup? "start", image.symbols.lookup? "done", image.symbols.lookup? "table"))
        = some (some (.code 0), some (.code 3), some (.data 0)) := by
    decide +kernel
  rw [assembles] at bound
  obtain ⟨start, done, table⟩ : image.symbols.lookup? "start" = some (.code 0) ∧
      image.symbols.lookup? "done" = some (.code 3) ∧
      image.symbols.lookup? "table" = some (.data 0) := by
    simpa using Option.some.inj bound
  have still : ∀ line ∈ relocatable, line.mnemonic ≠ some .org := by decide
  have room : 4092 + relocatable.countP Line.isInstruction ≤ codeSize := by decide
  obtain ⟨moved, assembles', moves, -, words⟩ := code_relocates assembles still room
  have member (number : Nat) (inside : number < relocatable.length) :
      Layout.siteAt relocatable number relocatable[number] ∈ Layout.ofLines relocatable :=
    Layout.siteAt_mem (List.getElem?_eq_getElem inside)
  obtain ⟨_, _, read₀, _, loads, _⟩ := words _ (member 0 (by decide)) _ rfl
  obtain ⟨_, _, read₁, branches, _⟩ := words _ (member 1 (by decide)) _ rfl
  obtain ⟨_, _, read₂, _, _, jumps⟩ := words _ (member 2 (by decide)) _ rfl
  have apart : ¬ (relocatable[0]).RefersToCode image.symbols := by
    rintro ⟨name, address, member, code⟩
    obtain rfl : name = "table" := by
      simpa [relocatable, Operands.toList] using member
    rw [table] at code
    cases code
  have loadsByte : ∀ cond, Operation.memory .ldm ≠ .branch cond := by
    intro cond same
    cases same
  obtain ⟨called, target⟩ := jumps .jsb "done" 3 rfl rfl done
  refine ⟨image, moved, assembles, assembles', ?_, ?_, ?_, ?_, ?_, target⟩
  · rw [moves, done]
    rfl
  · rw [moves, table]
    rfl
  · exact (loads loadsByte apart).trans read₀.symm
  · exact (branches .nz "start" 0 rfl rfl start).trans read₁.symm
  · rw [called] at read₂
    exact read₂

end Image

end Gumnut
