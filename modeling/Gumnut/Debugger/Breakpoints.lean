/-!
# Breakpoints

Breakpoints: a set of source lines, counted from zero, held in ascending order.
-/
set_option autoImplicit false

namespace Gumnut

namespace Breakpoints

def insertLine (line : Nat) : List Nat → List Nat
  | [] => [line]
  | other :: rest =>
    if line < other then line :: other :: rest
    else if line = other then other :: rest
    else other :: insertLine line rest

theorem mem_insertLine (line other : Nat) (lines : List Nat) :
    other ∈ insertLine line lines ↔ other = line ∨ other ∈ lines := by
  induction lines with
  | nil => simp [insertLine]
  | cons first rest ih =>
    simp only [insertLine]
    split
    · simp
    · split
      · rename_i same
        simp [same]
      · simp only [List.mem_cons, ih]
        grind

theorem ascending_insertLine (line : Nat) {lines : List Nat}
    (ascending : lines.Pairwise (· < ·)) : (insertLine line lines).Pairwise (· < ·) := by
  induction lines with
  | nil => simp [insertLine]
  | cons first rest ih =>
    obtain ⟨below, order⟩ := List.pairwise_cons.mp ascending
    simp only [insertLine]
    split
    · rename_i before
      refine List.pairwise_cons.mpr ⟨fun later member => ?_, ascending⟩
      rcases List.mem_cons.mp member with rfl | behind
      · exact before
      · exact Nat.lt_trans before (below later behind)
    · split
      · exact ascending
      · refine List.pairwise_cons.mpr ⟨fun later member => ?_, ih order⟩
        rcases (mem_insertLine line later rest).mp member with rfl | behind
        · omega
        · exact below later behind

end Breakpoints

structure Breakpoints where
  lines : List Nat := []
  ascending : lines.Pairwise (· < ·) := by exact List.Pairwise.nil
  deriving DecidableEq

namespace Breakpoints

def empty : Breakpoints := {}

def contains (breakpoints : Breakpoints) (line : Nat) : Bool :=
  breakpoints.lines.contains line

def isEmpty (breakpoints : Breakpoints) : Bool :=
  breakpoints.lines.isEmpty

def toggle (breakpoints : Breakpoints) (line : Nat) : Breakpoints :=
  if breakpoints.contains line then
    ⟨breakpoints.lines.filter (· != line), breakpoints.ascending.filter _⟩
  else ⟨insertLine line breakpoints.lines, ascending_insertLine line breakpoints.ascending⟩

end Breakpoints

end Gumnut
