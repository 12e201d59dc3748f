import Gumnut.Proofs.Passes

/-!
# One table for both passes

The two passes of a program come down to one: whichever of them gives the draft, it is the draft of
a resolving pass under the symbols that the draft ends with. A binding pass in which every symbol
was bound when it was used read the values that the finished table has, since a table only grows.
-/
set_option autoImplicit false

namespace Gumnut

def SymbolTable.Extends (table symbols : SymbolTable) : Prop :=
  ∀ label location, symbols.lookup? label = some location → table.lookup? label = some location

namespace SymbolTable.Extends

theorem refl (symbols : SymbolTable) : symbols.Extends symbols :=
  fun _ _ found => found

theorem trans {table middle symbols : SymbolTable} (upper : table.Extends middle)
    (lower : middle.Extends symbols) : table.Extends symbols :=
  fun label location found => upper label location (lower label location found)

theorem of_binds {pass : Pass} {symbols table : SymbolTable} {label : Option String}
    {location : Location} (binds : Binds pass symbols label location table) :
    table.Extends symbols := by
  cases binds with
  | kept => exact refl symbols
  | @bound name _ _ _ fresh =>
    intro other found bindsOther
    have absent : symbols.lookup? name = none := by
      have free : ¬ symbols.bind? name location = none := by simp [fresh]
      rw [bind?_eq_none_iff] at free
      exact Option.not_isSome_iff_eq_none.mp free
    rw [lookup?_bind? fresh]
    have apart : other ≠ name := by
      rintro rfl
      rw [absent] at bindsOther
      cases bindsOther
    rw [if_neg apart, bindsOther]

end SymbolTable.Extends

theorem Line.lookup_of_not_hasUnboundSymbol {line : Line} {symbols : SymbolTable}
    (settled : line.hasUnboundSymbol symbols = false) {name : String}
    (member : .symbol name ∈ line.operands.toList) :
    ∃ location, symbols.lookup? name = some location := by
  have bound := List.any_eq_false.mp settled (.symbol name) member
  cases found : symbols.lookup? name with
  | some location => exact ⟨location, rfl⟩
  | none => simp [found] at bound

theorem Line.hasUnboundSymbol_mono {line : Line} {table symbols : SymbolTable}
    (upper : table.Extends symbols) (settled : line.hasUnboundSymbol symbols = false) :
    line.hasUnboundSymbol table = false := by
  apply List.any_eq_false.mpr
  intro operand member
  cases operand with
  | symbol name =>
    obtain ⟨location, found⟩ := lookup_of_not_hasUnboundSymbol settled member
    simp [upper name location found]
  | _ => simp

theorem Pass.resolve_agree {line : Line} {table symbols : SymbolTable} {pass : Pass}
    (upper : table.Extends symbols) (settled : line.hasUnboundSymbol symbols = false)
    {name : String} (member : .symbol name ∈ line.operands.toList) :
    Pass.resolving.resolve table name = pass.resolve symbols name := by
  obtain ⟨location, found⟩ := Line.lookup_of_not_hasUnboundSymbol settled member
  simp only [Pass.resolve, found, upper name location found]

namespace Instruction

variable {resolve resolve' : String → Except AssemblyFault UInt32}

theorem value_congr {operand : Operand}
    (agree : ∀ name, operand = .symbol name → resolve name = resolve' name) :
    operand.value resolve = operand.value resolve' := by
  cases operand with
  | symbol name => exact agree name rfl
  | _ => rfl

/-- Assembling looks at no symbols but those among the operands. -/
theorem assemble_congr {address : UInt16} {operation : Operation} {operands : Operands}
    (agree : ∀ name, .symbol name ∈ operands.toList → resolve name = resolve' name) :
    assemble resolve address operation operands = assemble resolve' address operation operands := by
  have values : ∀ operand ∈ operands.toList, operand.value resolve = operand.value resolve' := by
    intro operand member
    apply value_congr
    rintro name rfl
    exact agree name member
  fun_cases assemble resolve address operation operands with
  | case5 op rd base offset =>
    have start := agree base (by simp [Operands.toList])
    have rest := values offset (by simp [Operands.toList])
    simp only [assemble, start, rest]
  | case2 op rd rs operand | case3 op rd rs operand | case4 op rd base operand
  | case6 op rd operand | case7 cond operand | case8 op operand =>
    have value := values operand (by simp [Operands.toList])
    simp only [assemble, value]
  | case1 | case9 => rfl
  | case10 =>
    simp only [assemble]

end Instruction
namespace Draft

variable {pass : Pass} {draft next final : Draft} {number : Nat} {line : Line}
  {lines : List Line} {table : SymbolTable}

theorem Places.extends (places : Places pass draft number line next) :
    next.symbols.Extends draft.symbols := by
  cases places with
  | blank => exact .refl draft.symbols
  | label _ _ binds => exact .of_binds binds
  | org _ _ _ binds => exact .of_binds binds
  | byte _ _ _ binds => exact .of_binds binds
  | instruction _ _ binds => exact .of_binds binds

theorem Runs.extends (runs : Runs pass draft number lines final) :
    final.symbols.Extends draft.symbols := by
  induction runs with
  | nil => exact .refl _
  | cons places runs ih => exact ih.trans places.extends

theorem Places.symbols_eq (places : Places .resolving draft number line next) :
    next.symbols = draft.symbols := by
  cases places with
  | blank => rfl
  | label _ _ binds => exact binds.eq_of_resolving
  | org _ _ _ binds => exact binds.eq_of_resolving
  | byte _ _ _ binds => exact binds.eq_of_resolving
  | instruction _ _ binds => exact binds.eq_of_resolving

theorem Runs.symbols_eq (runs : Runs .resolving draft number lines final) :
    final.symbols = draft.symbols := by
  induction runs with
  | nil => rfl
  | cons places runs ih => rw [ih, places.symbols_eq]

theorem Places.pending_mono (places : Places pass draft number line next)
    (settled : next.pending = false) : draft.pending = false := by
  cases places with
  | blank | label | org => exact settled
  | byte | instruction => exact (Bool.or_eq_false_iff.mp settled).1

theorem Runs.pending_mono (runs : Runs pass draft number lines final)
    (settled : final.pending = false) : draft.pending = false := by
  induction runs with
  | nil => exact settled
  | cons places runs ih => exact places.pending_mono (ih settled)

/-- What a line makes of a draft once all its symbols are bound, it makes of it under every greater
table in a resolving pass too. -/
theorem Places.resolving (places : Places pass draft number line next)
    (settled : next.pending = false) (upper : table.Extends next.symbols) :
    Places .resolving { draft with symbols := table } number line
      { next with symbols := table } := by
  cases places with
  | blank mnemonic label => exact .blank mnemonic label
  | label mnemonic label binds => exact .label mnemonic label (.kept (.inl rfl))
  | org mnemonic operands inside binds =>
    exact .org mnemonic operands inside (.kept (.inl rfl))
  | @byte operand symbols value mnemonic operands room binds evaluates =>
    obtain ⟨-, bound⟩ := Bool.or_eq_false_iff.mp settled
    have same : operand.value (Pass.resolving.resolve table) = .ok value := by
      rw [← evaluates]
      apply Instruction.value_congr
      rintro name rfl
      exact Pass.resolve_agree upper bound (by simp [operands, Operands.toList])
    rw [bound.trans (Line.hasUnboundSymbol_mono upper bound).symm]
    exact .byte mnemonic operands room (.kept (.inl rfl)) same
  | @instruction operation symbols instruction mnemonic room binds assembles =>
    obtain ⟨-, bound⟩ := Bool.or_eq_false_iff.mp settled
    have same : Instruction.assemble (Pass.resolving.resolve table) draft.codePointer operation
        line.operands = .ok instruction := by
      rw [← assembles]
      apply Instruction.assemble_congr
      intro name member
      exact Pass.resolve_agree upper bound member
    rw [bound.trans (Line.hasUnboundSymbol_mono upper bound).symm]
    exact .instruction mnemonic room (.kept (.inl rfl)) same

theorem Runs.resolving (runs : Runs pass draft number lines final)
    (settled : final.pending = false) (upper : table.Extends final.symbols) :
    Runs .resolving { draft with symbols := table } number lines
      { final with symbols := table } := by
  induction runs with
  | nil => exact .nil _ _
  | cons places runs ih =>
    have between := places.resolving (runs.pending_mono settled) (upper.trans runs.extends)
    exact .cons between (ih settled upper)

/-- Whichever pass gave it, the draft of a program is that of a resolving pass under the symbols
that it ends with. -/
theorem runs_of_ofLines (drafted : ofLines lines = .ok final) :
    Runs .resolving { symbols := final.symbols } 0 lines final := by
  obtain ⟨bound, first, rest⟩ := ofLines_eq_ok_iff.mp drafted
  split at rest
  · have kept : final.symbols = bound.symbols := rest.symbols_eq
    rw [kept]
    exact rest
  · rename_i settled
    cases rest
    exact first.resolving (Bool.eq_false_iff.mpr settled) (.refl _)

/-- The symbols of a program are those of its binding pass. -/
theorem binding_of_ofLines (drafted : ofLines lines = .ok final) :
    ∃ bound, Runs .binding {} 0 lines bound ∧ final.symbols = bound.symbols := by
  obtain ⟨bound, first, rest⟩ := ofLines_eq_ok_iff.mp drafted
  refine ⟨bound, first, ?_⟩
  split at rest
  · exact rest.symbols_eq
  · cases rest
    rfl

end Draft

end Gumnut
