import Gumnut.Proofs.Bindings

/-!
# When a program assembles

Which programs have an image. Apart from its symbols a line either fits where it stands or not: it
has the operands of its kind, and its memory has room for it. A program assembles exactly when all
its lines fit, no label stands on two of them, and every symbol that is used is a label of one.
-/
set_option autoImplicit false

namespace Gumnut

def zeroed (_ : String) : Except AssemblyFault UInt32 :=
  .ok 0

namespace Instruction

theorem exists_value_iff (resolve : String → Except AssemblyFault UInt32) {operand : Operand} :
    (∃ v, operand.value resolve = .ok v) ↔
      (∃ v, operand.value zeroed = .ok v) ∧
        ∀ name, .symbol name = operand → ∃ v, resolve name = .ok v := by
  cases operand with
  | symbol name => simp [Operand.value, zeroed]
  | _ => simp [Operand.value]

theorem exists_bind_iff {ε α β : Type} {first : Except ε α} {next : α → Except ε β} :
    (∃ result, (first >>= next) = .ok result) ↔
      ∃ value, first = .ok value ∧ ∃ result, next value = .ok result := by
  cases first with
  | error _ => simp [bind, Except.bind]
  | ok value => simp [bind, Except.bind]

/-- Apart from its symbols, a line is assembled under every resolution and at every address or
nowhere. -/
theorem exists_assemble_iff {resolve : String → Except AssemblyFault UInt32} {address : UInt16}
    {operation : Operation} {operands : Operands} :
    (∃ instruction, assemble resolve address operation operands = .ok instruction) ↔
      (∃ instruction, assemble zeroed 0 operation operands = .ok instruction) ∧
        ∀ name, .symbol name ∈ operands.toList → ∃ v, resolve name = .ok v := by
  fun_cases assemble resolve address operation operands with
  | case1 | case9 => simp [assemble, Operands.toList]
  | case2 op rd rs operand | case3 op rd rs operand | case4 op rd base operand
  | case6 op rd operand | case7 cond operand | case8 op operand =>
    simp only [assemble, exists_bind_iff]
    simp [exists_value_iff resolve, Operands.toList]
  | case5 op rd base offset =>
    simp only [assemble, exists_bind_iff]
    simp [exists_value_iff resolve, zeroed, Operands.toList, or_imp, forall_and, and_left_comm]
  | case10 => simp [assemble]

end Instruction

/-- Whether a line can stand where it does, its symbols apart. -/
def Spot.Fits (spot : Spot) : Prop :=
  match spot.line.mnemonic with
  | none => True
  | some .org =>
    ∃ address, spot.line.operands = ⟨some (.number address), none, none⟩ ∧
      address.toNat ≤ codeSize
  | some .byte =>
    spot.pointer < dataSize ∧
      ∃ operand value, spot.line.operands = ⟨some operand, none, none⟩ ∧
        operand.value zeroed = .ok value
  | some (.unknown _) => False
  | some (.operation operation) =>
    spot.pointer < codeSize ∧
      ∃ instruction, Instruction.assemble zeroed 0 operation spot.line.operands = .ok instruction

def Line.Uses (line : Line) (name : String) : Prop :=
  line.mnemonic.isSome = true ∧ .symbol name ∈ line.operands.toList

theorem Pass.resolves_binding (symbols : SymbolTable) (name : String) :
    ∃ v, binding.resolve symbols name = .ok v := by
  unfold resolve
  cases symbols.lookup? name with
  | none => exact ⟨0, rfl⟩
  | some location => exact ⟨location.value, rfl⟩

theorem Pass.resolves_resolving_iff {symbols : SymbolTable} {name : String} :
    (∃ v, resolving.resolve symbols name = .ok v) ↔ name ∈ symbols.labels := by
  rw [SymbolTable.mem_labels_iff]
  unfold resolve
  cases symbols.lookup? name with
  | none => simp
  | some location => simp

namespace Draft

variable {pass : Pass} {draft next final : Draft} {number : Nat} {line : Line}
  {lines : List Line}

theorem Places.fits (places : Places pass draft number line next) :
    (draft.site number line).spot.Fits := by
  cases places with
  | blank mnemonic | label mnemonic => simp [Spot.Fits, Site.spot, site, mnemonic]
  | org mnemonic operands inside =>
    simpa [Spot.Fits, Site.spot, site, mnemonic, operands] using inside
  | byte mnemonic operands room binds evaluates =>
    obtain ⟨shape, -⟩ := (Instruction.exists_value_iff _).mp ⟨_, evaluates⟩
    simpa [Spot.Fits, Site.spot, site, mnemonic, operands, Line.isByte] using ⟨room, shape⟩
  | instruction mnemonic room binds assembles =>
    obtain ⟨shape, -⟩ := Instruction.exists_assemble_iff.mp ⟨_, assembles⟩
    simpa [Spot.Fits, Site.spot, site, mnemonic, Line.isByte] using ⟨room, shape⟩

theorem Places.resolves (places : Places pass draft number line next) {name : String}
    (uses : line.Uses name) : ∃ v, pass.resolve next.symbols name = .ok v := by
  obtain ⟨some, member⟩ := uses
  cases places with
  | blank mnemonic | label mnemonic => simp [mnemonic] at some
  | org mnemonic operands => simp [operands, Operands.toList] at member
  | byte mnemonic operands room binds evaluates =>
    obtain ⟨-, resolves⟩ := (Instruction.exists_value_iff _).mp ⟨_, evaluates⟩
    apply resolves
    simpa [operands, Operands.toList] using member
  | instruction mnemonic room binds assembles =>
    obtain ⟨-, resolves⟩ := Instruction.exists_assemble_iff.mp ⟨_, assembles⟩
    exact resolves name member

/-- A line that fits is placed if its label can be bound and its symbols have values. -/
theorem exists_places {symbols : SymbolTable} (fits : (draft.site number line).spot.Fits)
    (binds : Binds pass draft.symbols line.label (draft.site number line).spot.location symbols)
    (resolves : ∀ name, line.Uses name → ∃ v, pass.resolve symbols name = .ok v) :
    ∃ next, Places pass draft number line next ∧ next.symbols = symbols := by
  simp only [Spot.location, Site.spot, site] at binds
  simp only [Spot.Fits, Site.spot, site] at fits
  split at fits
  · rename_i mnemonic
    simp only [mnemonic, Line.isByte] at binds
    by_cases label : line.label = none
    · cases binds with
      | kept => exact ⟨draft, .blank mnemonic label, rfl⟩
      | bound _ named => simp [label] at named
    · exact ⟨_, .label mnemonic label (by simpa using binds), rfl⟩
  · rename_i mnemonic
    obtain ⟨address, operands, inside⟩ := fits
    simp only [mnemonic, Line.codeAfter, operands] at binds
    exact ⟨_, .org mnemonic operands inside (by simpa using binds), rfl⟩
  · rename_i mnemonic
    obtain ⟨room, operand, value, operands, shape⟩ := fits
    simp only [mnemonic, Line.isByte] at binds room
    have names : ∀ name, .symbol name = operand → ∃ v, pass.resolve symbols name = .ok v := by
      rintro name rfl
      apply resolves
      simp [Line.Uses, mnemonic, operands, Operands.toList]
    obtain ⟨v, evaluates⟩ := (Instruction.exists_value_iff _).mpr ⟨⟨value, shape⟩, names⟩
    exact ⟨_, .byte mnemonic operands (by simpa using room) (by simpa using binds) evaluates, rfl⟩
  · cases fits
  · rename_i operation mnemonic
    obtain ⟨room, shape⟩ := fits
    simp only [mnemonic, Line.isByte] at binds room
    have names : ∀ name, .symbol name ∈ line.operands.toList →
        ∃ v, pass.resolve symbols name = .ok v := by
      intro name member
      exact resolves name ⟨by simp [mnemonic], member⟩
    obtain ⟨made, assembles⟩ : ∃ made, Instruction.assemble (pass.resolve symbols)
        draft.codePointer operation line.operands = .ok made :=
      Instruction.exists_assemble_iff.mpr ⟨shape, names⟩
    exact ⟨_, .instruction mnemonic (by simpa using room) (by simpa using binds) assembles, rfl⟩

theorem Runs.fits (runs : Runs pass draft number lines final) :
    ∀ spot ∈ draft.spots number lines, spot.Fits := by
  induction runs with
  | nil => simp [spots, Layout.walk]
  | cons places runs ih =>
    rw [places.spots_cons, List.forall_mem_cons]
    exact ⟨places.fits, ih⟩

theorem Runs.uses_bound (runs : Runs .resolving draft number lines final) :
    ∀ line ∈ lines, ∀ name, line.Uses name → name ∈ draft.symbols.labels := by
  induction runs with
  | nil => simp
  | cons places runs ih =>
    rw [places.symbols_eq] at ih
    rw [List.forall_mem_cons]
    refine ⟨fun name uses => ?_, ih⟩
    rw [← places.symbols_eq]
    exact Pass.resolves_resolving_iff.mp (places.resolves uses)

theorem exists_runs_resolving
    (fits : ∀ spot ∈ draft.spots number lines, spot.Fits)
    (bound : ∀ line ∈ lines, ∀ name, line.Uses name → name ∈ draft.symbols.labels) :
    ∃ final, Runs .resolving draft number lines final := by
  induction lines generalizing draft number with
  | nil => exact ⟨draft, .nil draft number⟩
  | cons line rest ih =>
    rw [List.forall_mem_cons] at bound
    obtain ⟨own, later⟩ := bound
    have here : (draft.site number line).spot.Fits := fits _ List.mem_cons_self
    obtain ⟨next, places, -⟩ := exists_places here (.kept (.inl rfl))
      fun name uses => Pass.resolves_resolving_iff.mpr (own name uses)
    rw [places.spots_cons, List.forall_mem_cons] at fits
    rw [← places.symbols_eq] at later
    obtain ⟨final, runs⟩ := ih fits.2 later
    exact ⟨final, .cons places runs⟩

theorem exists_binds {symbols : SymbolTable} {label : Option String} (location : Location)
    (fresh : ∀ name, label = some name → name ∉ symbols.labels) :
    ∃ table, Binds .binding symbols label location table := by
  cases label with
  | none => exact ⟨symbols, .kept (.inr rfl)⟩
  | some name =>
    cases bound : symbols.bind? name location with
    | some table => exact ⟨table, .bound rfl rfl bound⟩
    | none =>
      rw [SymbolTable.bind?_eq_none_iff, Option.isSome_iff_exists,
        ← SymbolTable.mem_labels_iff] at bound
      exact absurd bound (fresh name rfl)

/-- A pass that binds the labels goes through if all lines fit and each label is new where it
stands. -/
theorem exists_runs_binding
    (fits : ∀ spot ∈ draft.spots number lines, spot.Fits)
    (distinct : ((Layout.labels lines).reverse ++ draft.symbols.labels).Nodup) :
    ∃ final, Runs .binding draft number lines final := by
  induction lines generalizing draft number with
  | nil => exact ⟨draft, .nil draft number⟩
  | cons line rest ih =>
    rw [Layout.labels, List.flatMap_cons, List.reverse_append, List.append_assoc] at distinct
    have here : (draft.site number line).spot.Fits := fits _ List.mem_cons_self
    have fresh : ∀ name, line.label = some name → name ∉ draft.symbols.labels := by
      intro name label
      have behind := (List.nodup_append.mp distinct).2.1
      simp only [label, Option.toList_some, List.reverse_singleton, List.singleton_append,
        List.nodup_cons] at behind
      exact behind.1
    obtain ⟨table, binds⟩ := exists_binds _ fresh
    obtain ⟨next, places, rfl⟩ := exists_places here binds
      fun name _ => Pass.resolves_binding table name
    have labels : next.symbols.labels = line.label.toList.reverse ++ draft.symbols.labels := by
      rw [SymbolTable.labels_of_binds binds]
      cases line.label <;> rfl
    rw [places.spots_cons, List.forall_mem_cons] at fits
    rw [← labels] at distinct
    obtain ⟨final, runs⟩ := ih fits.2 distinct
    exact ⟨final, .cons places runs⟩

end Draft

namespace Image

variable {lines : List Line}

/-- A program assembles exactly when all its lines fit, no label stands on two of them, and every
symbol that is used is a label of the program. -/
theorem exists_ofLines_iff :
    (∃ image, ofLines lines = .ok image) ↔
      (∀ spot ∈ Layout.spots lines, spot.Fits) ∧
        (Layout.labels lines).Nodup ∧
        ∀ line ∈ lines, ∀ name, line.Uses name → name ∈ Layout.labels lines := by
  constructor
  · rintro ⟨image, assembles⟩
    obtain ⟨final, runs, -⟩ := runs_of_ofLines assembles
    have labels := labels_eq assembles
    refine ⟨runs.fits, ?_, ?_⟩
    · rw [← List.nodup_reverse, ← labels]
      exact image.symbols.nodup
    · intro line member name uses
      rw [← List.mem_reverse, ← labels]
      exact runs.uses_bound line member name uses
  · rintro ⟨fits, distinct, uses⟩
    have fresh : ((Layout.labels lines).reverse ++ SymbolTable.empty.labels).Nodup := by
      simpa [SymbolTable.empty, SymbolTable.labels] using distinct
    obtain ⟨bound, binding⟩ : ∃ bound, Draft.Runs .binding {} 0 lines bound :=
      Draft.exists_runs_binding fits fresh
    have known : ∀ line ∈ lines, ∀ name, line.Uses name → name ∈ bound.symbols.labels := by
      intro line member name used
      rw [binding.labels_eq]
      exact List.mem_append_left _ (List.mem_reverse.mpr (uses line member name used))
    obtain ⟨second, resolving⟩ :
        ∃ second, Draft.Runs .resolving { symbols := bound.symbols } 0 lines second :=
      Draft.exists_runs_resolving fits known
    have drafted : ∃ final, Draft.ofLines lines = .ok final := by
      simp only [Draft.ofLines_eq_ok_iff]
      cases pending : bound.pending with
      | true => exact ⟨second, bound, binding, by rwa [if_pos pending]⟩
      | false => exact ⟨bound, bound, binding, by simp [pending]⟩
    obtain ⟨final, drafted⟩ := drafted
    simp [ofLines, drafted, Except.map]

end Image

end Gumnut
