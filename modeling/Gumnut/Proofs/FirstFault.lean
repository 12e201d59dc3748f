import Gumnut.Proofs.Fitting
import Mathlib.Order.Bounds.Defs

/-!
# The first fault of a program

Which fault a program that has no image is told of. Every fault but a symbol without a label is
found by the binding pass: it is that of the first line that cannot be placed behind the lines
before it, whatever comes behind. The resolving pass, which is made only if all lines have been
placed, finds nothing but symbols without a label, and names the first of them.
-/
set_option autoImplicit false

namespace Gumnut

open Instruction (bind_eq_ok)

theorem error_bind {ε α β : Type} (error : ε) (next : α → Except ε β) :
    ((Except.error error : Except ε α) >>= next) = .error error := rfl

def AssemblyFault.IsUndefinedLabel (fault : AssemblyFault) : Prop :=
  ∃ name, fault = .undefinedLabel name

theorem AssemblyFault.isUndefinedLabel (name : String) : (undefinedLabel name).IsUndefinedLabel :=
  ⟨name, rfl⟩

/-! ## Symbols in the order of their evaluation -/

def Operand.symbol? : Operand → Option String
  | symbol name => some name
  | _ => none

/-- The operands that stand for numbers, in the order in which they are evaluated: the base of an
index comes before its offset. Operands that are not of the operation's family are not evaluated. -/
def Operation.evaluated : Operation → Operands → List Operand
  | alu _, ⟨some (.register _), some (.register _), some source⟩ => [source]
  | shift _, ⟨some (.register _), some (.register _), some count⟩ => [count]
  | memory _, ⟨some (.register _), some (.register _), some offset⟩ => [offset]
  | memory _, ⟨some (.register _), some (.symbol base), some offset⟩ => [.symbol base, offset]
  | memory _, ⟨some (.register _), some direct, none⟩ => [direct]
  | branch _, ⟨some target, none, none⟩ => [target]
  | jump _, ⟨some target, none, none⟩ => [target]
  | _, _ => []

/-- The operands of a line that are evaluated. The address of an `org` is no such operand: it has to
be a number as it is written. -/
def Line.evaluated (line : Line) : List Operand :=
  match line.mnemonic, line.operands with
  | some .byte, ⟨some operand, none, none⟩ => [operand]
  | some (.operation operation), operands => operation.evaluated operands
  | _, _ => []

def Line.symbols (line : Line) : List String :=
  line.evaluated.filterMap Operand.symbol?

/-- The first line of some that takes the value of a symbol that is not among the labels, and the
first such symbol on it. -/
structure Layout.FirstUndefined (labels : List String) (lines : List Line) (number : Nat)
    (name : String) : Prop where
  here : ∃ line, lines[number]? = some line ∧ line.symbols.find? (· ∉ labels) = some name
  before : ∀ earlier < number, ∀ line, lines[earlier]? = some line →
    ∀ name ∈ line.symbols, name ∈ labels

namespace Instruction

variable {symbols : SymbolTable} {name : String}

theorem resolve_eq_error (unbound : name ∉ symbols.labels) :
    Pass.resolving.resolve symbols name = .error (.undefinedLabel name) := by
  cases found : symbols.lookup? name with
  | none => simp only [Pass.resolve, found]
  | some location => exact absurd (SymbolTable.mem_labels_iff.mpr ⟨location, found⟩) unbound

theorem eq_symbol_of_find? {operand : Operand}
    (unbound : ([operand].filterMap Operand.symbol?).find? (· ∉ symbols.labels) = some name) :
    operand = .symbol name ∧
      Pass.resolving.resolve symbols name = .error (.undefinedLabel name) := by
  have absent := List.find?_some unbound
  have member := List.mem_of_find?_eq_some unbound
  cases operand with
  | register | number | notANumber => simp [Operand.symbol?] at member
  | symbol other =>
    obtain rfl : name = other := by simpa [Operand.symbol?] using member
    exact ⟨rfl, resolve_eq_error (of_decide_eq_true absent)⟩

/-- An instruction of which a symbol is not bound is refused for the first such symbol. -/
theorem assemble_eq_error {address : UInt16} {operation : Operation} {operands : Operands}
    (unbound : ((operation.evaluated operands).filterMap Operand.symbol?).find?
      (· ∉ symbols.labels) = some name) :
    assemble (Pass.resolving.resolve symbols) address operation operands =
      .error (.undefinedLabel name) := by
  revert unbound
  fun_cases Operation.evaluated operation operands with
  | case8 => simp
  | case4 op rd base offset =>
    intro unbound
    by_cases bound : base ∈ symbols.labels
    · have behind : ([offset].filterMap Operand.symbol?).find? (· ∉ symbols.labels) =
          some name := by
        simpa [List.filterMap_cons, Operand.symbol?, bound] using unbound
      obtain ⟨rfl, refused⟩ := eq_symbol_of_find? behind
      obtain ⟨b, start⟩ := Pass.resolves_resolving_iff.mpr bound
      simp only [assemble, start, ok_bind, Operand.value, refused, error_bind]
    · obtain rfl : base = name := by
        simpa [List.filterMap_cons, Operand.symbol?, bound] using unbound
      simp only [assemble, resolve_eq_error bound, error_bind]
  | case1 | case2 | case3 | case5 | case6 | case7 =>
    intro unbound
    obtain ⟨rfl, refused⟩ := eq_symbol_of_find? unbound
    simp only [assemble, Operand.value, refused, error_bind]

theorem mem_evaluated_of_assemble {operation : Operation} {operands : Operands}
    (shape : ∃ instruction, assemble zeroed 0 operation operands = .ok instruction)
    (member : .symbol name ∈ operands.toList) : .symbol name ∈ operation.evaluated operands := by
  revert shape member
  fun_cases assemble zeroed 0 operation operands with
  | case10 => simp
  | case1 | case9 => simp [Operands.toList]
  | case2 | case3 | case4 | case5 | case6 | case7 | case8 =>
    intro _ member
    simpa [Operands.toList, Operation.evaluated] using member

theorem mem_of_mem_evaluated {operation : Operation} {operands : Operands} {operand : Operand}
    (member : operand ∈ operation.evaluated operands) : operand ∈ operands.toList := by
  revert member
  fun_cases Operation.evaluated operation operands with
  | case8 => simp
  | case1 | case2 | case3 | case4 | case5 | case6 | case7 => simp +contextual [Operands.toList]

end Instruction

theorem Line.mem_symbols_iff {line : Line} {name : String} :
    name ∈ line.symbols ↔ .symbol name ∈ line.evaluated := by
  rw [symbols, List.mem_filterMap]
  constructor
  · rintro ⟨operand, member, named⟩
    cases operand with
    | register | number | notANumber => cases named
    | symbol other =>
      cases named
      exact member
  · intro member
    exact ⟨_, member, rfl⟩

theorem Line.uses_of_mem_symbols {line : Line} {name : String} (member : name ∈ line.symbols) :
    line.Uses name := by
  rw [mem_symbols_iff, evaluated] at member
  split at member
  · rename_i operand mnemonic operands
    refine ⟨by simp [mnemonic], ?_⟩
    simpa [operands, Operands.toList] using member
  · rename_i operation mnemonic
    exact ⟨by simp [mnemonic], Instruction.mem_of_mem_evaluated member⟩
  · cases member

theorem Spot.mem_symbols_of_uses {spot : Spot} {name : String} (fits : spot.Fits)
    (uses : spot.line.Uses name) : name ∈ spot.line.symbols := by
  obtain ⟨some, member⟩ := uses
  rw [Line.mem_symbols_iff, Line.evaluated]
  unfold Fits at fits
  split at fits
  · rename_i mnemonic
    simp [mnemonic] at some
  · obtain ⟨address, operands, -⟩ := fits
    simp [operands, Operands.toList] at member
  · rename_i mnemonic
    obtain ⟨-, operand, value, operands, -⟩ := fits
    simpa [mnemonic, operands, Operands.toList] using member
  · cases fits
  · rename_i operation mnemonic
    obtain ⟨-, shape⟩ := fits
    simpa [mnemonic] using Instruction.mem_evaluated_of_assemble shape member

namespace Layout

variable {labels : List String} {lines : List Line} {number : Nat} {name : String}

theorem mem_of_find? {line : Line} (found : line.symbols.find? (· ∉ labels) = some name) :
    name ∈ line.symbols ∧ name ∉ labels := by
  have absent := List.find?_some found
  exact ⟨List.mem_of_find?_eq_some found, of_decide_eq_true absent⟩

theorem FirstUndefined.not_lt {other : Nat} {name' : String}
    (first : FirstUndefined labels lines number name)
    (first' : FirstUndefined labels lines other name') : ¬ number < other := by
  intro ahead
  obtain ⟨line, here, found⟩ := first.here
  obtain ⟨member, absent⟩ := mem_of_find? found
  exact absent (first'.before number ahead line here name member)

theorem FirstUndefined.unique {other : Nat} {name' : String}
    (first : FirstUndefined labels lines number name)
    (first' : FirstUndefined labels lines other name') : number = other ∧ name = name' := by
  obtain rfl : number = other := by
    have lower := first'.not_lt first
    have upper := first.not_lt first'
    omega
  obtain ⟨line, here, found⟩ := first.here
  obtain ⟨line', here', found'⟩ := first'.here
  cases here.symm.trans here'
  exact ⟨rfl, Option.some.inj (found.symm.trans found')⟩

theorem FirstUndefined.cons {line : Line} (bound : ∀ name ∈ line.symbols, name ∈ labels)
    (first : FirstUndefined labels lines number name) :
    FirstUndefined labels (line :: lines) (number + 1) name := by
  refine ⟨first.here, ?_⟩
  intro earlier ahead other found
  cases earlier with
  | zero =>
    cases found
    exact bound
  | succ earlier => exact first.before earlier (Nat.lt_of_succ_lt_succ ahead) other found

theorem exists_firstUndefined_iff :
    (∃ number name, FirstUndefined labels lines number name) ↔
      ∃ line ∈ lines, ∃ name ∈ line.symbols, name ∉ labels := by
  constructor
  · rintro ⟨number, name, first⟩
    obtain ⟨line, here, found⟩ := first.here
    exact ⟨line, List.mem_of_getElem? here, name, mem_of_find? found⟩
  · intro unbound
    induction lines with
    | nil => simp at unbound
    | cons line rest ih =>
      cases found : line.symbols.find? (· ∉ labels) with
      | some name => exact ⟨0, name, ⟨line, rfl, found⟩, by simp⟩
      | none =>
        have bound : ∀ name ∈ line.symbols, name ∈ labels := by simpa using found
        rw [List.exists_mem_cons_iff] at unbound
        rcases unbound with ⟨name, member, absent⟩ | later
        · exact absurd (bound name member) absent
        · obtain ⟨number, name, first⟩ := ih later
          exact ⟨number + 1, name, first.cons bound⟩

end Layout

/-! ## The resolving pass -/

namespace Draft

variable {pass : Pass} {draft final : Draft} {number : Nat} {line : Line} {lines : List Line}

/-- A line that fits is refused by the resolving pass for the first of its symbols that is not
bound. -/
theorem place_resolving_eq_error {name : String} (fits : (draft.site number line).spot.Fits)
    (unbound : line.symbols.find? (· ∉ draft.symbols.labels) = some name) :
    draft.place .resolving number line = .error (.undefinedLabel name) := by
  rw [Line.symbols, Line.evaluated] at unbound
  simp only [Spot.Fits, Site.spot, site] at fits
  split at unbound
  · rename_i operand mnemonic operands
    simp only [mnemonic, Line.isByte, beq_self_eq_true, if_true] at fits
    obtain ⟨rfl, refused⟩ := Instruction.eq_symbol_of_find? unbound
    simp only [place, mnemonic, placeByte, operands, if_neg (Nat.not_le.mpr fits.1), bindLabel,
      ok_bind, Operand.value, refused, error_bind]
  · rename_i operation mnemonic
    obtain ⟨room, -⟩ : draft.codePointer.toNat < codeSize ∧ _ := by
      simpa [mnemonic, Line.isByte] using fits
    simp only [place, mnemonic, placeInstruction, if_neg (Nat.not_le.mpr room), bindLabel, ok_bind,
      Instruction.assemble_eq_error unbound, error_bind]
  · cases unbound

/-- A resolving pass over lines that fit goes through, or it stops at the first symbol without a
label. -/
theorem placeAll_resolving {labels : List String}
    (known : ∀ name, name ∈ draft.symbols.labels ↔ name ∈ labels)
    (fits : ∀ spot ∈ draft.spots number lines, spot.Fits) :
    (∃ final, draft.placeAll .resolving number lines = .ok final) ∨
      ∃ n name, Layout.FirstUndefined labels lines n name ∧
        draft.placeAll .resolving number lines = .error ⟨.undefinedLabel name, number + n⟩ := by
  induction lines generalizing draft number with
  | nil => exact .inl ⟨draft, rfl⟩
  | cons line rest ih =>
    have here : (draft.site number line).spot.Fits := fits _ List.mem_cons_self
    have same : line.symbols.find? (· ∉ draft.symbols.labels) =
        line.symbols.find? (· ∉ labels) := by
      simp only [known]
    rw [placeAll]
    cases unbound : line.symbols.find? (· ∉ labels) with
    | some name =>
      rw [place_resolving_eq_error here (same.trans unbound)]
      exact .inr ⟨0, name, ⟨⟨line, rfl, unbound⟩, by simp⟩, rfl⟩
    | none =>
      have bound : ∀ name ∈ line.symbols, name ∈ labels := by
        simpa using unbound
      obtain ⟨next, places, kept⟩ := exists_places here (.kept (.inl rfl))
        fun name uses => Pass.resolves_resolving_iff.mpr
          ((known name).mpr (bound name (Spot.mem_symbols_of_uses here uses)))
      rw [places.spots_cons, List.forall_mem_cons] at fits
      rw [place_of_places places]
      dsimp only
      rcases ih (by rwa [kept]) fits.2 with through | ⟨n, name, first, stops⟩
      · exact .inl through
      · refine .inr ⟨n + 1, name, first.cons bound, ?_⟩
        rw [stops, Nat.add_right_comm, Nat.add_assoc]

/-! ## The binding pass -/

def IsLabelled {α : Type} (result : Except AssemblyFault α) : Prop :=
  ∀ name, result ≠ .error (.undefinedLabel name)

namespace IsLabelled

variable {α β : Type}

theorem ok (value : α) : IsLabelled (.ok value : Except AssemblyFault α) := nofun

theorem error {fault : AssemblyFault} (apart : ∀ name, fault ≠ .undefinedLabel name) :
    IsLabelled (.error fault : Except AssemblyFault α) := by
  intro name same
  exact apart name (Except.error.inj same)

theorem bind {first : Except AssemblyFault α} {next : α → Except AssemblyFault β}
    (labelled : IsLabelled first) (rest : ∀ value, IsLabelled (next value)) :
    IsLabelled (first >>= next) := by
  cases first with
  | ok value => exact rest value
  | error fault => exact .error fun name same => labelled name (congrArg Except.error same)

end IsLabelled

theorem isLabelled_value (symbols : SymbolTable) (operand : Operand) :
    IsLabelled (operand.value (Pass.binding.resolve symbols)) := by
  cases operand with
  | register => exact .error nofun
  | number value => exact .ok _
  | notANumber => exact .error nofun
  | symbol name =>
    obtain ⟨v, resolves⟩ := Pass.resolves_binding symbols name
    rw [Operand.value, resolves]
    exact .ok v

theorem isLabelled_assemble (symbols : SymbolTable) (address : UInt16) (operation : Operation)
    (operands : Operands) :
    IsLabelled (Instruction.assemble (Pass.binding.resolve symbols) address operation
      operands) := by
  have evaluated : ∀ {operand : Operand} {next : UInt32 → Instruction},
      IsLabelled (operand.value (Pass.binding.resolve symbols) >>= fun v => .ok (next v)) :=
    (isLabelled_value symbols _).bind fun _ => .ok _
  fun_cases Instruction.assemble (Pass.binding.resolve symbols) address operation operands with
  | case1 | case9 => exact .ok _
  | case10 =>
    apply IsLabelled.error
    intro name same
    cases same
  | case5 op rd base offset =>
    obtain ⟨b, resolves⟩ := Pass.resolves_binding symbols base
    rw [resolves, ok_bind]
    exact evaluated
  | case2 | case3 | case4 | case6 | case7 | case8 => exact evaluated

theorem isLabelled_bindLabel (draft : Draft) (pass : Pass) (label : Option String)
    (location : Location) : IsLabelled (draft.bindLabel pass label location) := by
  unfold bindLabel
  split
  · split
    · exact .ok _
    · exact .error nofun
  · exact .ok draft

theorem isLabelled_place (draft : Draft) (number : Nat) (line : Line) :
    IsLabelled (draft.place .binding number line) := by
  unfold place
  split
  · unfold placeLabel
    split
    · exact .ok draft
    · exact .bind (isLabelled_bindLabel _ _ _ _) fun _ => .ok _
  · unfold placeOrg
    split
    · split
      · exact .error nofun
      · exact .bind (isLabelled_bindLabel _ _ _ _) fun _ => .ok _
    · exact .error nofun
  · unfold placeByte
    split
    · split
      · exact .error nofun
      · refine .bind (isLabelled_bindLabel _ _ _ _) fun bound => ?_
        exact .bind (isLabelled_value bound.symbols _) fun _ => .ok _
    · exact .error nofun
  · exact .error nofun
  · unfold placeInstruction
    split
    · exact .error nofun
    · refine .bind (isLabelled_bindLabel _ _ _ _) fun bound => ?_
      exact .bind (isLabelled_assemble bound.symbols _ _ _) fun _ => .ok _

/-! ## Passes that stop -/

theorem placeAll_append (draft : Draft) (pass : Pass) (number : Nat) (first rest : List Line) :
    draft.placeAll pass number (first ++ rest) =
      (draft.placeAll pass number first >>= fun next =>
        next.placeAll pass (number + first.length) rest) := by
  induction first generalizing draft number with
  | nil => rfl
  | cons line first ih =>
    rw [List.cons_append, placeAll, placeAll]
    cases draft.place pass number line with
    | error fault => rfl
    | ok next =>
      dsimp only
      rw [ih, List.length_cons, Nat.add_right_comm, Nat.add_assoc]

theorem placeAll_append_of_error {error : AssemblyError} (rest : List Line)
    (stops : draft.placeAll pass number lines = .error error) :
    draft.placeAll pass number (lines ++ rest) = .error error := by
  rw [placeAll_append, stops, error_bind]

theorem exists_placeAll_take {first rest : List Line}
    (placed : draft.placeAll pass number (first ++ rest) = .ok final) :
    ∃ next, draft.placeAll pass number first = .ok next := by
  rw [placeAll_append] at placed
  obtain ⟨next, made, -⟩ := bind_eq_ok placed
  exact ⟨next, made⟩

/-- A pass that stops has placed all lines before the one at which it does. -/
theorem placeAll_error {error : AssemblyError}
    (stops : draft.placeAll pass number lines = .error error) :
    ∃ before line behind next, lines = before ++ line :: behind ∧
      error.line = number + before.length ∧
      draft.placeAll pass number before = .ok next ∧
      next.place pass error.line line = .error error.fault := by
  induction lines generalizing draft number with
  | nil => cases stops
  | cons line rest ih =>
    rw [placeAll] at stops
    cases placed : draft.place pass number line with
    | error fault =>
      simp only [placed, Except.error.injEq] at stops
      subst stops
      exact ⟨[], line, rest, draft, rfl, rfl, rfl, placed⟩
    | ok next =>
      simp only [placed] at stops
      obtain ⟨before, other, behind, last, rfl, place, made, refused⟩ := ih stops
      refine ⟨line :: before, other, behind, last, rfl, ?_, ?_, refused⟩
      · rw [place, List.length_cons, Nat.add_right_comm, Nat.add_assoc]
      · simp only [placeAll, placed, made]

end Draft

namespace Image

variable {lines : List Line} {error : AssemblyError}

def FailsOutright (lines : List Line) : Prop :=
  ∃ error, ofLines lines = .error error ∧ ¬ error.fault.IsUndefinedLabel

/-- Behind a binding pass the resolving pass fails for nothing but the first symbol without a
label. -/
theorem firstUndefined_of_resolving {bound : Draft}
    (binding : Draft.placeAll {} .binding 0 lines = .ok bound)
    (stops : Draft.placeAll { symbols := bound.symbols } .resolving 0 lines = .error error) :
    ∃ name, error.fault = .undefinedLabel name ∧
      Layout.FirstUndefined (Layout.labels lines) lines error.line name := by
  have runs := Draft.runs_of_placeAll binding
  have known : ∀ name, name ∈ ({ symbols := bound.symbols } : Draft).symbols.labels ↔
      name ∈ Layout.labels lines := by
    intro name
    show name ∈ bound.symbols.labels ↔ _
    rw [runs.labels_eq]
    simp [SymbolTable.labels, SymbolTable.empty]
  rcases Draft.placeAll_resolving known runs.fits with
    ⟨final, through⟩ | ⟨n, name, first, stops'⟩
  · rw [through] at stops
    cases stops
  · rw [stops', Nat.zero_add] at stops
    cases stops
    exact ⟨name, rfl, first⟩

/-- A program fails as its binding pass does, or, if that goes through, at its first symbol without
a label. -/
theorem ofLines_eq_error (fails : ofLines lines = .error error) :
    Draft.placeAll {} .binding 0 lines = .error error ∨
      (∃ bound, Draft.placeAll {} .binding 0 lines = .ok bound) ∧
        ∃ name, error.fault = .undefinedLabel name ∧
          Layout.FirstUndefined (Layout.labels lines) lines error.line name := by
  have drafted : Draft.ofLines lines = .error error := by
    unfold ofLines at fails
    cases made : Draft.ofLines lines with
    | error other => simpa [made, Except.map] using fails
    | ok draft => simp [made, Except.map] at fails
  unfold Draft.ofLines at drafted
  cases binding : Draft.placeAll {} .binding 0 lines with
  | error other =>
    simp only [binding, Except.error.injEq] at drafted
    exact .inl (by rw [drafted])
  | ok bound =>
    simp only [binding] at drafted
    split at drafted
    · exact .inr ⟨⟨bound, rfl⟩, firstUndefined_of_resolving binding drafted⟩
    · cases drafted

/-- The faults of the binding pass are those that fail a program outright. -/
theorem placeAll_binding_eq_error_iff :
    Draft.placeAll {} .binding 0 lines = .error error ↔
      ofLines lines = .error error ∧ ¬ error.fault.IsUndefinedLabel := by
  constructor
  · intro stops
    refine ⟨?_, ?_⟩
    · rw [ofLines, Draft.ofLines, stops]
      rfl
    · obtain ⟨before, line, behind, next, -, -, -, refused⟩ := Draft.placeAll_error stops
      rintro ⟨name, undefined⟩
      rw [undefined] at refused
      exact next.isLabelled_place error.line line name refused
  · rintro ⟨fails, outright⟩
    rcases ofLines_eq_error fails with stops | ⟨-, name, fault, -⟩
    · exact stops
    · exact absurd ⟨name, fault⟩ outright

theorem failsOutright_iff :
    FailsOutright lines ↔ ∃ error, Draft.placeAll {} .binding 0 lines = .error error := by
  simp only [FailsOutright, placeAll_binding_eq_error_iff]

theorem not_failsOutright_iff :
    ¬ FailsOutright lines ↔ ∃ bound, Draft.placeAll {} .binding 0 lines = .ok bound := by
  rw [failsOutright_iff]
  cases Draft.placeAll {} .binding 0 lines with
  | error error => simp
  | ok bound => simp

theorem not_failsOutright_take (through : ¬ FailsOutright lines) (count : Nat) :
    ¬ FailsOutright (lines.take count) := by
  rw [not_failsOutright_iff] at through ⊢
  obtain ⟨bound, placed⟩ := through
  rw [← List.take_append_drop count lines] at placed
  exact Draft.exists_placeAll_take placed

/-- A program that fails outright does so at the end of a prefix, and no shorter prefix does. -/
theorem isLeast_of_placeAll_error (stops : Draft.placeAll {} .binding 0 lines = .error error) :
    IsLeast {n | FailsOutright (lines.take (n + 1))} error.line ∧
      ∀ rest, Draft.placeAll {} .binding 0 (lines.take (error.line + 1) ++ rest) =
        .error error := by
  obtain ⟨before, line, behind, next, rfl, place, made, refused⟩ := Draft.placeAll_error stops
  rw [Nat.zero_add] at place
  have cut : (before ++ line :: behind).take (error.line + 1) = before ++ [line] := by
    rw [place, List.take_append, List.take_of_length_le (Nat.le_succ _), Nat.add_sub_cancel_left]
    rfl
  have here : Draft.placeAll {} .binding 0 (before ++ [line]) = .error error := by
    rw [Draft.placeAll_append, made]
    simp only [ok_bind, Draft.placeAll, Nat.zero_add, ← place, refused]
  rw [cut]
  refine ⟨⟨?_, ?_⟩, ?_⟩
  · show FailsOutright _
    rw [cut, failsOutright_iff]
    exact ⟨error, here⟩
  · intro other fails
    by_contra ahead
    have whole : (before ++ line :: behind).take (other + 1) = before.take (other + 1) :=
      List.take_append_of_le_length (by omega)
    have early : FailsOutright (before.take (other + 1)) := whole ▸ fails
    exact not_failsOutright_take (not_failsOutright_iff.mpr ⟨next, made⟩) _ early
  · intro rest
    exact Draft.placeAll_append_of_error rest here

theorem exists_error_iff (number : Nat) :
    (∃ fault, ofLines lines = .error ⟨fault, number⟩ ∧ ¬ fault.IsUndefinedLabel) ↔
      IsLeast {n | FailsOutright (lines.take (n + 1))} number := by
  constructor
  · rintro ⟨fault, fails, outright⟩
    exact (isLeast_of_placeAll_error (placeAll_binding_eq_error_iff.mpr ⟨fails, outright⟩)).1
  · intro least
    obtain ⟨error, stops⟩ := failsOutright_iff.mp least.1
    have whole := Draft.placeAll_append_of_error (lines.drop (number + 1)) stops
    rw [List.take_append_drop] at whole
    obtain ⟨fails, outright⟩ := placeAll_binding_eq_error_iff.mp whole
    have least' := (isLeast_of_placeAll_error whole).1
    obtain rfl : error.line = number := Nat.le_antisymm (least'.2 least.1) (least.2 least'.1)
    exact ⟨error.fault, fails, outright⟩

/-- A program is told of a symbol without a label just if nothing else is wrong with it, and then of
the first one. -/
theorem undefinedLabel_iff (number : Nat) (name : String) :
    ofLines lines = .error ⟨.undefinedLabel name, number⟩ ↔
      (∀ count, ¬ FailsOutright (lines.take count)) ∧
        Layout.FirstUndefined (Layout.labels lines) lines number name := by
  constructor
  · intro fails
    rcases ofLines_eq_error fails with stops | ⟨through, other, same, first⟩
    · exact absurd (AssemblyFault.isUndefinedLabel name)
        (placeAll_binding_eq_error_iff.mp stops).2
    · cases same
      exact ⟨not_failsOutright_take (not_failsOutright_iff.mpr through), first⟩
  · rintro ⟨through, first⟩
    cases made : ofLines lines with
    | ok image =>
      obtain ⟨-, -, bound⟩ := exists_ofLines_iff.mp ⟨image, made⟩
      obtain ⟨line, here, found⟩ := first.here
      obtain ⟨member, absent⟩ := Layout.mem_of_find? found
      exact absurd (bound line (List.mem_of_getElem? here) name (Line.uses_of_mem_symbols member))
        absent
    | error error =>
      have whole := through lines.length
      rw [List.take_length] at whole
      rcases ofLines_eq_error made with stops | ⟨-, other, fault, first'⟩
      · exact absurd (failsOutright_iff.mpr ⟨error, stops⟩) whole
      · obtain ⟨line, named⟩ := first'.unique first
        rw [← line, ← named, ← fault]

/-- What a program that has no image is told: the first line that cannot be placed behind those
before it, or, if there is none, the first symbol without a label. -/
theorem error_names_first_offender (lines : List Line) :
    (∀ number, (∃ fault, ofLines lines = .error ⟨fault, number⟩ ∧ ¬ fault.IsUndefinedLabel) ↔
      IsLeast {n | FailsOutright (lines.take (n + 1))} number) ∧
    (∀ number fault, ofLines lines = .error ⟨fault, number⟩ → ¬ fault.IsUndefinedLabel →
      ofLines (lines.take (number + 1)) = .error ⟨fault, number⟩ ∧
      ∀ others, ofLines (lines.take (number + 1) ++ others) = .error ⟨fault, number⟩) ∧
    ((∃ name number, ofLines lines = .error ⟨.undefinedLabel name, number⟩) ↔
      (∀ count, ¬ FailsOutright (lines.take count)) ∧
        ∃ line ∈ lines, ∃ name ∈ line.symbols, name ∉ Layout.labels lines) ∧
    (∀ name number, ofLines lines = .error ⟨.undefinedLabel name, number⟩ →
      Layout.FirstUndefined (Layout.labels lines) lines number name) ∧
    (∀ bound error, Draft.placeAll {} .binding 0 lines = .ok bound →
      Draft.placeAll { symbols := bound.symbols } .resolving 0 lines = .error error →
      error.fault.IsUndefinedLabel) := by
  refine ⟨exists_error_iff, ?_, ?_, ?_, ?_⟩
  · intro number fault fails outright
    have stops := placeAll_binding_eq_error_iff.mpr ⟨fails, outright⟩
    have kept : ∀ others, ofLines (lines.take (number + 1) ++ others) = .error ⟨fault, number⟩ := by
      intro others
      exact (placeAll_binding_eq_error_iff.mp ((isLeast_of_placeAll_error stops).2 others)).1
    exact ⟨List.append_nil (lines.take (number + 1)) ▸ kept [], kept⟩
  · simp only [undefinedLabel_iff, ← Layout.exists_firstUndefined_iff]
    exact ⟨fun ⟨name, number, through, first⟩ => ⟨through, number, name, first⟩,
      fun ⟨through, number, name, first⟩ => ⟨name, number, through, first⟩⟩
  · intro name number fails
    exact ((undefinedLabel_iff number name).mp fails).2
  · intro bound error binding stops
    obtain ⟨name, fault, -⟩ := firstUndefined_of_resolving binding stops
    exact ⟨name, fault⟩

def forgotten : List Line :=
  [⟨none, some (.operation (.jump .jmp)), ⟨some (.symbol "end"), none, none⟩⟩,
   ⟨none, some (.operation (.memory .ldm)),
    ⟨some (.register .r0), some (.symbol "table"), some (.symbol "index")⟩⟩,
   ⟨some "table", some .byte, ⟨some (.number 3), none, none⟩⟩,
   ⟨some "end", some (.operation (.control .stby)), {}⟩]

def misspelt : List Line :=
  forgotten.take 2 ++ [⟨some "table", some (.unknown "bite"), ⟨some (.number 3), none, none⟩⟩]

theorem error_names_first_offender_forgotten :
    ofLines forgotten = .error ⟨.undefinedLabel "index", 1⟩ ∧
      Layout.FirstUndefined (Layout.labels forgotten) forgotten 1 "index" ∧
      IsLeast {n | FailsOutright (misspelt.take (n + 1))} 2 ∧
      ∀ others, ofLines (misspelt.take 3 ++ others) = .error ⟨.unknownMnemonic "bite", 2⟩ := by
  have undefined : ofLines forgotten = .error ⟨.undefinedLabel "index", 1⟩ := by decide +kernel
  have unknown : ofLines misspelt = .error ⟨.unknownMnemonic "bite", 2⟩ := by decide +kernel
  have outright : ¬ (AssemblyFault.unknownMnemonic "bite").IsUndefinedLabel := nofun
  obtain ⟨-, -, -, first, -⟩ := error_names_first_offender forgotten
  obtain ⟨least, kept, -⟩ := error_names_first_offender misspelt
  exact ⟨undefined, first "index" 1 undefined, (least 2).mp ⟨_, unknown, outright⟩,
    (kept 2 _ unknown outright).2⟩

end Image

end Gumnut
