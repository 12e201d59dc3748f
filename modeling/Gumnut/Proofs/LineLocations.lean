import Gumnut.Proofs.Fitting
import Gumnut.Proofs.ListedLines

/-!
# Where lines are listed

The listing of a program and its symbols tell the same of every line. A line is listed at the
pointer of its own memory, read off the lines in front of it; its label is bound to that location,
and reading the listing backwards leads from the address of an instruction to a line that is listed
there. The symbols come from the first pass and the listing perhaps from the second.
-/
set_option autoImplicit false

namespace Gumnut

/-- The location that a line is listed with: an `org` without a label has none. -/
def Site.location? (site : Site) : Option Location :=
  if site.line.mnemonic = some .org ∧ site.line.label = none then none
  else some site.spot.location

def Site.listed? (site : Site) : Option ListedLine :=
  if site.line.label = none ∧ site.line.mnemonic = none then none
  else some ⟨site.number, site.line, site.location?⟩

theorem Site.number_of_listed? {site : Site} {listed : ListedLine}
    (shown : site.listed? = some listed) : listed.number = site.number := by
  unfold listed? at shown
  split at shown
  · cases shown
  · cases shown
    rfl

namespace Draft

variable {pass : Pass} {draft next final : Draft} {number : Nat} {line : Line}
  {lines : List Line}

theorem Places.listing_eq (places : Places pass draft number line next) :
    next.listing.lines.toList =
      draft.listing.lines.toList ++ (draft.site number line).listed?.toList := by
  cases places with
  | blank mnemonic label => simp [Site.listed?, site, mnemonic, label]
  | label mnemonic label =>
    simp [Listing.add, Site.listed?, Site.location?, Site.spot, Spot.location, site, Line.isByte,
      mnemonic, label]
  | org mnemonic operands =>
    cases label : line.label <;>
      simp [Listing.add, Site.listed?, Site.location?, Site.spot, Spot.location, site, Line.isByte,
        Line.codeAfter, mnemonic, operands, label]
  | byte mnemonic | instruction mnemonic =>
    simp [Listing.add, Site.listed?, Site.location?, Site.spot, Spot.location, site, Line.isByte,
      mnemonic]

theorem Runs.listing_eq (runs : Runs pass draft number lines final) :
    final.listing.lines.toList = draft.listing.lines.toList ++
      (Layout.walk number draft.codePointer.toNat draft.dataPointer.toNat lines).filterMap
        Site.listed? := by
  induction runs with
  | nil => exact (List.append_nil _).symm
  | cons places runs ih =>
    rw [ih, places.listing_eq, places.walk_cons, List.append_assoc, List.filterMap_cons]
    cases Site.listed? _ <;> rfl

end Draft

namespace Layout

variable {lines : List Line}

theorem number_le_of_mem_listed {number code data : Nat} {listed : ListedLine}
    (member : listed ∈ (walk number code data lines).filterMap Site.listed?) :
    number ≤ listed.number := by
  obtain ⟨site, inside, shown⟩ := List.mem_filterMap.mp member
  rw [Site.number_of_listed? shown]
  exact (line_of_mem_walk inside).1

theorem find?_listed_walk (lines : List Line) {number wanted : Nat} (code data : Nat)
    (below : number ≤ wanted) :
    ((walk number code data lines).filterMap Site.listed?).find?
        (fun listed => listed.number == wanted) =
      (walk number code data lines)[wanted - number]?.bind Site.listed? := by
  induction lines generalizing number code data with
  | nil => rfl
  | cons line rest ih =>
    rw [walk, List.filterMap_cons]
    by_cases same : number = wanted
    · rw [same, Nat.sub_self, List.getElem?_cons_zero, Option.bind_some]
      split
      · rename_i unlisted
        rw [unlisted, List.find?_eq_none]
        intro listed later
        have behind := number_le_of_mem_listed later
        rw [beq_iff_eq]
        omega
      · rename_i shown
        rw [shown, List.find?_cons_of_pos]
        rw [Site.number_of_listed? shown]
        exact beq_self_eq_true wanted
    · have index : wanted - number = wanted - (number + 1) + 1 := by omega
      rw [index, List.getElem?_cons_succ, ← ih _ _ (by omega)]
      split
      · rfl
      · rename_i shown
        rw [List.find?_cons_of_neg]
        rw [Site.number_of_listed? shown, beq_iff_eq]
        exact same

theorem fits_siteAt (fits : ∀ spot ∈ spots lines, spot.Fits) {number : Nat} {line : Line}
    (here : lines[number]? = some line) : (siteAt lines number line).spot.Fits :=
  fits _ (List.mem_map_of_mem (siteAt_mem here))

theorem length_listed_walk (number code data : Nat) :
    ((walk number code data lines).filterMap Site.listed?).length =
      lines.countP fun line => line.label.isSome || line.mnemonic.isSome := by
  induction lines generalizing number code data with
  | nil => rfl
  | cons line rest ih =>
    rw [walk, List.filterMap_cons, List.countP_cons, ← ih (number + 1) (line.codeAfter code)
      (line.dataAfter data), Site.listed?]
    cases line.label <;> cases line.mnemonic <;> simp

/-- Behind lines that fit, instructions go on within the memory or just behind it. -/
theorem codePointer_le (fits : ∀ spot ∈ spots lines, spot.Fits) {count : Nat}
    (inside : count ≤ lines.length) : codePointer lines count ≤ codeSize := by
  induction count with
  | zero => exact Nat.zero_le _
  | succ count ih =>
    have below := ih (Nat.le_of_lt inside)
    have here : lines[count]? = some lines[count] := List.getElem?_eq_getElem inside
    have own := fits_siteAt fits here
    rw [codePointer_succ here]
    simp only [Spot.Fits, Site.spot, siteAt, Line.isByte] at own
    unfold Line.codeAfter
    split at own
    · rename_i mnemonic
      simpa [mnemonic] using below
    · rename_i mnemonic
      obtain ⟨address, operands, small⟩ := own
      simpa [mnemonic, operands] using small
    · rename_i mnemonic
      simpa [mnemonic] using below
    · cases own
    · rename_i mnemonic
      obtain ⟨room, -⟩ := own
      simpa [mnemonic] using Nat.succ_le_of_lt room

end Layout

namespace Image

variable {lines : List Line} {image : Image}

theorem listing_eq (assembles : ofLines lines = .ok image) :
    image.listing.lines.toList = (Layout.ofLines lines).filterMap Site.listed? := by
  obtain ⟨final, runs, -, -, listing, -⟩ := runs_of_ofLines assembles
  rw [listing, runs.listing_eq]
  rfl

theorem get?_eq (assembles : ofLines lines = .ok image) (number : Nat) :
    image.listing.get? number =
      lines[number]?.bind fun line => (Layout.siteAt lines number line).listed? := by
  have found := Layout.find?_listed_walk lines 0 0 (Nat.zero_le number)
  have walked := Layout.getElem?_ofLines lines number
  rw [Listing.get?, ← Array.find?_toList, listing_eq assembles]
  rw [Nat.sub_zero] at found
  rw [Layout.ofLines] at walked ⊢
  rw [found, walked, Option.bind_map]
  rfl

/-- A line with a label, an instruction and a data byte are listed with their locations. -/
theorem locationOf?_eq (assembles : ofLines lines = .ok image) {number : Nat} {line : Line}
    (here : lines[number]? = some line)
    (located : line.label ≠ none ∨ line.isInstruction = true ∨ line.isByte = true) :
    image.listing.locationOf? number = some (Layout.siteAt lines number line).spot.location := by
  have shown : ¬ (line.label = none ∧ line.mnemonic = none) := by
    rintro ⟨label, mnemonic⟩
    simp [label, Line.isInstruction, Line.operation?, Line.isByte, mnemonic] at located
  have placed : ¬ (line.mnemonic = some .org ∧ line.label = none) := by
    rintro ⟨mnemonic, label⟩
    simp [label, Line.isInstruction, Line.operation?, Line.isByte, mnemonic] at located
  have listed : (Layout.siteAt lines number line).listed? =
      some ⟨number, line, (Layout.siteAt lines number line).location?⟩ := if_neg shown
  rw [Listing.locationOf?, get?_eq assembles, here, Option.bind_some, listed, Option.bind_some]
  exact if_neg placed

theorem size_listing (assembles : ofLines lines = .ok image) :
    image.listing.size = lines.countP fun line => line.label.isSome || line.mnemonic.isSome := by
  rw [Listing.size, ← Array.length_toList, listing_eq assembles, Layout.ofLines,
    Layout.length_listed_walk]

theorem size_symbols (assembles : ofLines lines = .ok image) :
    image.symbols.size = lines.countP fun line => line.label.isSome := by
  have same : ∀ rest : List Line,
      (Layout.labels rest).length = rest.countP fun line => line.label.isSome := by
    intro rest
    induction rest with
    | nil => rfl
    | cons line rest ih =>
      rw [Layout.labels, List.flatMap_cons, List.length_append, List.countP_cons, ← ih,
        Layout.labels]
      cases line.label <;> simp [Nat.add_comm]
  rw [← same, ← List.length_reverse, ← labels_eq assembles, SymbolTable.labels, List.length_map]
  rfl

theorem lookup?_label (assembles : ofLines lines = .ok image) {number : Nat} {line : Line}
    {label : String} (here : lines[number]? = some line) (named : line.label = some label) :
    image.symbols.lookup? label = some (Layout.siteAt lines number line).spot.location := by
  rw [SymbolTable.lookup?_eq_some_iff, entries_eq assembles, List.mem_reverse, List.mem_flatMap]
  refine ⟨_, List.mem_map_of_mem (Layout.siteAt_mem here), ?_⟩
  have label' : (Layout.siteAt lines number line).spot.line.label = some label := named
  rw [Spot.bindings, label']
  exact List.mem_singleton_self _

theorem number_unique (assembles : ofLines lines = .ok image) {number other : Nat}
    {line line' : Line} {label : String} (here : lines[number]? = some line)
    (there : lines[other]? = some line') (named : line.label = some label)
    (named' : line'.label = some label) : number = other := by
  have distinct : (Layout.labels lines).Nodup := by
    rw [← List.nodup_reverse, ← labels_eq assembles]
    exact image.symbols.nodup
  have apart : ∀ {i j : Nat} {first second : Line}, lines[i]? = some first →
      lines[j]? = some second → first.label = some label → second.label = some label →
      ¬ i < j := by
    intro i j first second at_i at_j named_i named_j before
    obtain ⟨inside_i, rfl⟩ := List.getElem?_eq_some_iff.mp at_i
    obtain ⟨inside_j, rfl⟩ := List.getElem?_eq_some_iff.mp at_j
    have disjoint := List.pairwise_iff_getElem.mp (List.nodup_flatMap.mp distinct).2 i j inside_i
      inside_j before
    exact disjoint (Option.mem_toList.mpr named_i) (Option.mem_toList.mpr named_j)
  rcases Nat.lt_trichotomy number other with before | same | behind
  · exact absurd before (apart here there named named')
  · exact same
  · exact absurd behind (apart there here named' named)

/-- A label that is bound stands on exactly one line. -/
theorem existsUnique_of_lookup? (assembles : ofLines lines = .ok image) {label : String}
    {location : Location} (bound : image.symbols.lookup? label = some location) :
    ∃! number : Nat, ∃ line, lines[number]? = some line ∧ line.label = some label := by
  have member : label ∈ Layout.labels lines := by
    rw [← List.mem_reverse, ← labels_eq assembles, SymbolTable.mem_labels_iff]
    exact ⟨location, bound⟩
  obtain ⟨line, inside, named⟩ := List.mem_flatMap.mp member
  rw [Option.mem_toList] at named
  obtain ⟨number, here⟩ := List.mem_iff_getElem?.mp inside
  refine ⟨number, ⟨line, here, named⟩, ?_⟩
  rintro other ⟨line', there, named'⟩
  exact number_unique assembles there here named' named

theorem exists_code_of_isInstruction (assembles : ofLines lines = .ok image) {number : Nat}
    {line : Line} (here : lines[number]? = some line) (kind : line.isInstruction = true) :
    ∃ address : UInt16, address.toNat = Layout.codePointer lines number ∧
      address.toNat < codeSize ∧ image.listing.locationOf? number = some (.code address) := by
  obtain ⟨fits, -⟩ := exists_ofLines_iff.mp ⟨image, assembles⟩
  obtain ⟨operation, mnemonic⟩ := Line.mnemonic_of_isInstruction kind
  have own := Layout.fits_siteAt fits here
  simp only [Spot.Fits, Site.spot, Layout.siteAt, Line.isByte, mnemonic] at own
  obtain ⟨room, -⟩ := own
  have pointer : (UInt16.ofNat (Layout.codePointer lines number)).toNat =
      Layout.codePointer lines number :=
    UInt16.toNat_ofNat_of_lt' (Nat.lt_trans room (by decide))
  refine ⟨_, pointer, pointer.symm ▸ room, ?_⟩
  rw [locationOf?_eq assembles here (.inr (.inl kind))]
  simp [Site.spot, Layout.siteAt, Spot.location, Line.isByte, mnemonic]

theorem exists_data_of_isByte (assembles : ofLines lines = .ok image) {number : Nat}
    {line : Line} (here : lines[number]? = some line) (kind : line.isByte = true) :
    ∃ address : UInt8, address.toNat = Layout.dataPointer lines number ∧
      image.listing.locationOf? number = some (.data address) := by
  obtain ⟨fits, -⟩ := exists_ofLines_iff.mp ⟨image, assembles⟩
  have mnemonic : line.mnemonic = some .byte := beq_iff_eq.mp kind
  have own := Layout.fits_siteAt fits here
  simp only [Spot.Fits, Site.spot, Layout.siteAt, Line.isByte, mnemonic] at own
  obtain ⟨room, -⟩ := own
  refine ⟨UInt8.ofNat (Layout.dataPointer lines number), UInt8.toNat_ofNat_of_lt' room, ?_⟩
  rw [locationOf?_eq assembles here (.inr (.inr kind))]
  simp [Site.spot, Layout.siteAt, Spot.location, Line.isByte, mnemonic]

/-- A label on its own is listed where instructions go on, be it just behind the memory. -/
theorem exists_code_of_label (assembles : ofLines lines = .ok image) {number : Nat}
    {line : Line} (here : lines[number]? = some line) (mnemonic : line.mnemonic = none)
    (labelled : line.label ≠ none) :
    ∃ address : UInt16, address.toNat = Layout.codePointer lines number ∧
      address.toNat ≤ codeSize ∧ image.listing.locationOf? number = some (.code address) := by
  obtain ⟨fits, -⟩ := exists_ofLines_iff.mp ⟨image, assembles⟩
  obtain ⟨inside, -⟩ := List.getElem?_eq_some_iff.mp here
  have below := Layout.codePointer_le fits (Nat.le_of_lt inside)
  have pointer : (UInt16.ofNat (Layout.codePointer lines number)).toNat =
      Layout.codePointer lines number :=
    UInt16.toNat_ofNat_of_lt' (Nat.lt_of_le_of_lt below (by decide))
  refine ⟨_, pointer, pointer.symm ▸ below, ?_⟩
  rw [locationOf?_eq assembles here (.inl labelled)]
  simp [Site.spot, Layout.siteAt, Spot.location, Line.isByte, mnemonic]

/-- An `org` with a label is listed at the address that it goes on at. -/
theorem exists_code_of_org (assembles : ofLines lines = .ok image) {number : Nat}
    {line : Line} (here : lines[number]? = some line) (mnemonic : line.mnemonic = some .org)
    (labelled : line.label ≠ none) :
    ∃ address : UInt16, address.toNat = Layout.codePointer lines (number + 1) ∧
      address.toNat ≤ codeSize ∧ image.listing.locationOf? number = some (.code address) := by
  obtain ⟨fits, -⟩ := exists_ofLines_iff.mp ⟨image, assembles⟩
  obtain ⟨inside, -⟩ := List.getElem?_eq_some_iff.mp here
  have below := Layout.codePointer_le fits (Nat.succ_le_of_lt inside)
  have pointer : (UInt16.ofNat (Layout.codePointer lines (number + 1))).toNat =
      Layout.codePointer lines (number + 1) :=
    UInt16.toNat_ofNat_of_lt' (Nat.lt_of_le_of_lt below (by decide))
  refine ⟨_, pointer, pointer.symm ▸ below, ?_⟩
  rw [locationOf?_eq assembles here (.inl labelled), Layout.codePointer_succ here]
  simp [Site.spot, Layout.siteAt, Spot.location, Line.isByte, mnemonic]

theorem exists_listed_iff (assembles : ofLines lines = .ok image) (number : Nat) (line : Line) :
    (∃ location, image.listing.get? number = some ⟨number, line, location⟩) ↔
      lines[number]? = some line ∧ (line.label ≠ none ∨ line.mnemonic ≠ none) := by
  rw [get?_eq assembles]
  constructor
  · rintro ⟨location, listed⟩
    obtain ⟨own, here, shown⟩ := Option.bind_eq_some_iff.mp listed
    unfold Site.listed? at shown
    split at shown
    · cases shown
    · rename_i present
      cases shown
      exact ⟨here, Classical.not_and_iff_not_or_not.mp present⟩
  · rintro ⟨here, present⟩
    rw [here, Option.bind_some]
    exact ⟨_, if_neg (Classical.not_and_iff_not_or_not.mpr present)⟩

theorem locationOf?_org (assembles : ofLines lines = .ok image) {number : Nat} {line : Line}
    (here : lines[number]? = some line) (mnemonic : line.mnemonic = some .org)
    (unlabelled : line.label = none) : image.listing.locationOf? number = none := by
  rw [Listing.locationOf?, get?_eq assembles, here, Option.bind_some]
  simp [Site.listed?, Site.location?, Layout.siteAt, mnemonic, unlabelled]

/-- What a listing names at an address is an instruction line that is listed there. -/
theorem locationOf?_of_lineAt? (assembles : ofLines lines = .ok image) {address : UInt16}
    {number : Nat} (found : image.listing.lineAt? address = some number) :
    ∃ line, lines[number]? = some line ∧ line.isInstruction = true ∧
      image.listing.locationOf? number = some (.code address) := by
  rw [lineAt?_eq assembles] at found
  obtain ⟨site, first, rfl⟩ := Option.map_eq_some_iff.mp found
  obtain ⟨member, here⟩ := List.mem_filter.mp (List.mem_of_mem_head? first)
  obtain ⟨source, own⟩ := Layout.eq_siteAt_of_mem member
  obtain ⟨kind, place⟩ := Site.isInstructionAt_iff.mp here
  obtain ⟨listed, pointer, -, location⟩ := exists_code_of_isInstruction assembles source kind
  have same : listed = address := by
    rw [← UInt16.toNat_inj, pointer, ← place, own]
    rfl
  exact ⟨site.line, source, kind, same ▸ location⟩

/-- An instruction line that is listed at an address, or one in front of it, is named there. -/
theorem exists_lineAt?_of_locationOf? (assembles : ofLines lines = .ok image) {address : UInt16}
    {number : Nat} {line : Line} (here : lines[number]? = some line)
    (kind : line.isInstruction = true)
    (listed : image.listing.locationOf? number = some (.code address)) :
    ∃ first, image.listing.lineAt? address = some first := by
  obtain ⟨own, pointer, -, location⟩ := exists_code_of_isInstruction assembles here kind
  cases listed.symm.trans location
  have member : Layout.siteAt lines number line ∈ Layout.instructionsAt lines address.toNat :=
    List.mem_filter.mpr ⟨Layout.siteAt_mem here, Site.isInstructionAt_iff.mpr ⟨kind, pointer.symm⟩⟩
  rw [lineAt?_eq assembles]
  cases found : (Layout.instructionsAt lines address.toNat).head? with
  | some first => exact ⟨first.number, rfl⟩
  | none =>
    rw [List.head?_eq_none_iff.mp found] at member
    cases member

/-- What the listing and the symbols of an image tell of the lines of a program. -/
structure Correlates (image : Image) (lines : List Line) : Prop where
  /-- The lines that have a label or a mnemonic are listed, each with its own record. -/
  listed (number : Nat) (line : Line) :
    (∃ location, image.listing.get? number = some ⟨number, line, location⟩) ↔
      lines[number]? = some line ∧ (line.label ≠ none ∨ line.mnemonic ≠ none)
  /-- Nothing else is listed. -/
  listedCount : image.listing.size =
    lines.countP fun line => line.label.isSome || line.mnemonic.isSome
  /-- A label is bound to the location that its line is listed with. -/
  bound (number : Nat) (line : Line) (label : String) :
    lines[number]? = some line → line.label = some label →
      ∃ location, image.symbols.lookup? label = some location ∧
        image.listing.locationOf? number = some location
  /-- A label that is bound stands on exactly one line. -/
  owner (label : String) (location : Location) :
    image.symbols.lookup? label = some location →
      ∃! number : Nat, ∃ line, lines[number]? = some line ∧ line.label = some label
  boundCount : image.symbols.size = lines.countP fun line => line.label.isSome
  instruction (number : Nat) (line : Line) :
    lines[number]? = some line → line.isInstruction = true →
      ∃ address : UInt16, address.toNat = Layout.codePointer lines number ∧
        address.toNat < codeSize ∧ image.listing.locationOf? number = some (.code address)
  /-- Data bytes are listed at the number of data bytes in front of them. -/
  byte (number : Nat) (line : Line) :
    lines[number]? = some line → line.isByte = true →
      ∃ address : UInt8, address.toNat = Layout.dataPointer lines number ∧
        image.listing.locationOf? number = some (.data address)
  label (number : Nat) (line : Line) :
    lines[number]? = some line → line.mnemonic = none → line.label ≠ none →
      ∃ address : UInt16, address.toNat = Layout.codePointer lines number ∧
        address.toNat ≤ codeSize ∧ image.listing.locationOf? number = some (.code address)
  /-- An `org` with a label is listed at the pointer behind it. -/
  labelledOrg (number : Nat) (line : Line) :
    lines[number]? = some line → line.mnemonic = some .org → line.label ≠ none →
      ∃ address : UInt16, address.toNat = Layout.codePointer lines (number + 1) ∧
        address.toNat ≤ codeSize ∧ image.listing.locationOf? number = some (.code address)
  plainOrg (number : Nat) (line : Line) :
    lines[number]? = some line → line.mnemonic = some .org → line.label = none →
      image.listing.locationOf? number = none
  /-- An address is looked up backwards if some instruction line is listed there. -/
  found (address : UInt16) :
    (∃ number, image.listing.lineAt? address = some number) ↔
      ∃ number line, lines[number]? = some line ∧ line.isInstruction = true ∧
        image.listing.locationOf? number = some (.code address)
  /-- The look-up names one of the instruction lines that are listed there. -/
  named (address : UInt16) (number : Nat) :
    image.listing.lineAt? address = some number →
      ∃ line, lines[number]? = some line ∧ line.isInstruction = true ∧
        image.listing.locationOf? number = some (.code address)

/-- The listing and the symbols of a program agree, with each other and with its layout. -/
theorem symbols_agree_with_listing (assembles : ofLines lines = .ok image) :
    image.Correlates lines where
  listed := exists_listed_iff assembles
  listedCount := size_listing assembles
  bound number line label here named := by
    refine ⟨_, lookup?_label assembles here named, ?_⟩
    exact locationOf?_eq assembles here (.inl (by simp [named]))
  owner _ _ := existsUnique_of_lookup? assembles
  boundCount := size_symbols assembles
  instruction _ _ := exists_code_of_isInstruction assembles
  byte _ _ := exists_data_of_isByte assembles
  label _ _ := exists_code_of_label assembles
  labelledOrg _ _ := exists_code_of_org assembles
  plainOrg _ _ := locationOf?_org assembles
  found address := by
    constructor
    · rintro ⟨number, named⟩
      exact ⟨number, locationOf?_of_lineAt? assembles named⟩
    · rintro ⟨number, line, here, kind, listed⟩
      exact exists_lineAt?_of_locationOf? assembles here kind listed
  named _ _ := locationOf?_of_lineAt? assembles

theorem symbols_agree_with_listing_overlaid :
    ∃ image, ofLines overlaid = .ok image ∧ image.Correlates overlaid := by
  obtain ⟨image, assembles⟩ := isOk_overlaid
  exact ⟨image, assembles, symbols_agree_with_listing assembles⟩

end Image

end Gumnut
