import Gumnut.Program.Assemble
import Mathlib.Data.List.Forall2

/-!
# Lines of a source

A source is read line by line: it has records just if each of its lines has one, and the records
stand in the order of the lines.
-/
set_option autoImplicit false

namespace Gumnut

namespace Source

theorem readLines_eq_ok_iff {number : Nat} {texts : List (List Char)} {lines : List Line} :
    readLines number texts = .ok lines ↔
      List.Forall₂ (fun text line => Line.parse text = .ok line) texts lines := by
  induction texts generalizing number lines with
  | nil => simp [readLines, eq_comm]
  | cons text rest ih =>
    rw [readLines, List.forall₂_cons_left_iff]
    cases own : Line.parse text with
    | error failure => simp
    | ok line =>
      constructor
      · intro reads
        cases later : readLines (number + 1) rest with
        | error failure =>
          rw [later] at reads
          cases reads
        | ok others =>
          rw [later] at reads
          cases reads
          exact ⟨line, others, rfl, ih.mp later, rfl⟩
      · rintro ⟨line', others, same, later, rfl⟩
        cases same
        simp only [ih.mpr later, Except.map]

/-- The lines of a text have the records that its source is read as, one by one. -/
theorem parse_eq_ok_iff {source : String} {lines : List Line} :
    parse source = .ok lines ↔ List.Forall₂ (fun text line => Line.parse text = .ok line)
      (Lines.split source.toList) lines :=
  readLines_eq_ok_iff

theorem parse_line {source : String} {lines : List Line} (parses : parse source = .ok lines)
    {number : Nat} {text : List Char} {line : Line}
    (here : (Lines.split source.toList)[number]? = some text)
    (there : lines[number]? = some line) : Line.parse text = .ok line := by
  obtain ⟨inside, rfl⟩ := List.getElem?_eq_some_iff.mp here
  obtain ⟨inside', rfl⟩ := List.getElem?_eq_some_iff.mp there
  exact (parse_eq_ok_iff.mp parses).get inside inside'

end Source

theorem Image.ofSource_eq_ok_iff {source : String} {image : Image} :
    ofSource source = .ok image ↔
      ∃ lines, Source.parse source = .ok lines ∧ ofLines lines = .ok image := by
  unfold ofSource
  cases Source.parse source with
  | error error => simp
  | ok lines => simp

end Gumnut
