import Gumnut.Proofs.Assembled
import Mathlib.Data.List.Nodup

/-!
# What labels are bound to

The symbols of an assembled program, read off its lines. Each line stands at the pointer of its own
memory, and its label is bound there, or where instructions go on if the line is an `org`. The table
of a program has these bindings and no others, the last one first.
-/
set_option autoImplicit false

namespace Gumnut

/-- A line at the pointer of its own memory. -/
structure Spot where
  pointer : Nat
  line : Line

namespace Spot

def location (spot : Spot) : Location :=
  match spot.line.mnemonic with
  | some .byte => .data (UInt8.ofNat spot.pointer)
  | some .org => .code (UInt16.ofNat (spot.line.codeAfter spot.pointer))
  | _ => .code (UInt16.ofNat spot.pointer)

def bindings (spot : Spot) : List (String × Location) :=
  (spot.line.label.map fun label => (label, spot.location)).toList

theorem map_fst_bindings (spot : Spot) :
    spot.bindings.map Prod.fst = spot.line.label.toList := by
  rw [bindings]
  cases spot.line.label <;> rfl

theorem reverse_bindings (spot : Spot) : spot.bindings.reverse = spot.bindings := by
  rw [bindings]
  cases spot.line.label <;> rfl

end Spot

def Site.spot (site : Site) : Spot :=
  ⟨if site.line.isByte then site.data else site.code, site.line⟩

namespace Layout

def spots (lines : List Line) : List Spot :=
  (ofLines lines).map Site.spot

def labels (lines : List Line) : List String :=
  lines.flatMap fun line => line.label.toList

theorem map_fst_bindings_walk (number code data : Nat) (lines : List Line) :
    (((walk number code data lines).map Site.spot).flatMap Spot.bindings).map Prod.fst =
      labels lines := by
  induction lines generalizing number code data with
  | nil => rfl
  | cons line rest ih =>
    rw [walk, List.map_cons, List.flatMap_cons, List.map_append, ih, Spot.map_fst_bindings, labels,
      labels, List.flatMap_cons]
    rfl

theorem map_fst_bindings (lines : List Line) :
    ((spots lines).flatMap Spot.bindings).map Prod.fst = labels lines :=
  map_fst_bindings_walk 0 0 0 lines

end Layout

namespace SymbolTable

variable {symbols table : SymbolTable} {location : Location}

def labels (symbols : SymbolTable) : List String :=
  symbols.entries.map Prod.fst

theorem lookup?_eq_some_iff {label : String} :
    symbols.lookup? label = some location ↔ (label, location) ∈ symbols.entries := by
  constructor
  · intro found
    obtain ⟨before, after, entries, -⟩ := List.lookup_eq_some_iff.mp found
    simp [entries]
  · intro member
    cases found : symbols.lookup? label with
    | none =>
      exact absurd (List.mem_map_of_mem member) (not_mem_of_lookup_eq_none found)
    | some other =>
      obtain ⟨before, after, entries, -⟩ := List.lookup_eq_some_iff.mp found
      have listed : (label, other) ∈ symbols.entries := by simp [entries]
      have once := List.inj_on_of_nodup_map symbols.nodup member listed rfl
      cases once
      rfl

theorem mem_labels_iff {label : String} :
    label ∈ symbols.labels ↔ ∃ location, symbols.lookup? label = some location := by
  simp [labels, lookup?_eq_some_iff]

theorem entries_bind? {label : String} (binds : symbols.bind? label location = some table) :
    table.entries = (label, location) :: symbols.entries := by
  unfold bind? at binds
  split at binds
  · cases binds
  · cases binds
    rfl

theorem entries_of_binds {label : Option String}
    (binds : Binds .binding symbols label location table) :
    table.entries = (label.map fun name => (name, location)).toList ++ symbols.entries := by
  cases binds with
  | kept frozen =>
    obtain frozen | rfl := frozen
    · cases frozen
    · rfl
  | bound binding named fresh =>
    subst named
    exact entries_bind? fresh

theorem labels_of_binds {label : Option String}
    (binds : Binds .binding symbols label location table) :
    table.labels = label.toList ++ symbols.labels := by
  rw [labels, entries_of_binds binds, List.map_append, labels]
  cases label <;> rfl

end SymbolTable

namespace Draft

variable {pass : Pass} {draft next final : Draft} {number : Nat} {line : Line}
  {lines : List Line}

def spots (draft : Draft) (number : Nat) (lines : List Line) : List Spot :=
  (Layout.walk number draft.codePointer.toNat draft.dataPointer.toNat lines).map Site.spot

theorem Places.spots_cons (places : Places pass draft number line next) (rest : List Line) :
    draft.spots number (line :: rest) =
      (draft.site number line).spot :: next.spots (number + 1) rest := by
  rw [spots, places.walk_cons, List.map_cons, spots]

theorem Places.binds (places : Places pass draft number line next) :
    Binds pass draft.symbols line.label (draft.site number line).spot.location next.symbols := by
  cases places with
  | blank mnemonic label => exact .kept (.inr label)
  | label mnemonic label binds =>
    simpa [Spot.location, Site.spot, site, Line.isByte, mnemonic] using binds
  | org mnemonic operands inside binds =>
    simpa [Spot.location, Site.spot, site, Line.isByte, Line.codeAfter, mnemonic, operands]
      using binds
  | byte mnemonic operands room binds =>
    simpa [Spot.location, Site.spot, site, Line.isByte, mnemonic] using binds
  | instruction mnemonic room binds =>
    simpa [Spot.location, Site.spot, site, Line.isByte, mnemonic] using binds

theorem Runs.entries_eq (runs : Runs .binding draft number lines final) :
    final.symbols.entries =
      ((draft.spots number lines).flatMap Spot.bindings).reverse ++ draft.symbols.entries := by
  induction runs with
  | nil => rfl
  | @cons draft next final number line rest places runs ih =>
    have own : next.symbols.entries =
        (draft.site number line).spot.bindings ++ draft.symbols.entries :=
      SymbolTable.entries_of_binds places.binds
    rw [places.spots_cons, ih, own, List.flatMap_cons, List.reverse_append, Spot.reverse_bindings,
      List.append_assoc]

theorem Runs.labels_eq (runs : Runs .binding draft number lines final) :
    final.symbols.labels = (Layout.labels lines).reverse ++ draft.symbols.labels := by
  rw [SymbolTable.labels, runs.entries_eq, List.map_append, List.map_reverse, spots,
    Layout.map_fst_bindings_walk, SymbolTable.labels]

end Draft

namespace Image

variable {lines : List Line} {image : Image}

theorem binding_of_ofLines (assembles : ofLines lines = .ok image) :
    ∃ bound, Draft.Runs .binding {} 0 lines bound ∧ image.symbols = bound.symbols := by
  obtain ⟨final, drafted, -, -, -, symbols, -⟩ := draft_of_ofLines assembles
  rw [symbols]
  exact Draft.binding_of_ofLines drafted

/-- The table of a program binds the labels of its lines, each to the location of its line. -/
theorem entries_eq (assembles : ofLines lines = .ok image) :
    image.symbols.entries = ((Layout.spots lines).flatMap Spot.bindings).reverse := by
  obtain ⟨bound, binding, same⟩ := binding_of_ofLines assembles
  rw [same, binding.entries_eq]
  exact List.append_nil _

theorem labels_eq (assembles : ofLines lines = .ok image) :
    image.symbols.labels = (Layout.labels lines).reverse := by
  obtain ⟨bound, binding, same⟩ := binding_of_ofLines assembles
  rw [same, binding.labels_eq]
  exact List.append_nil _

end Image

end Gumnut
