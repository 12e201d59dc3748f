/-!
# Lines of text

Text as a list of lines. A line feed ends a line, and so does a carriage return with a line feed;
a carriage return elsewhere is an ordinary character. Text after the last line feed is a line of
its own unless it is empty.
-/
set_option autoImplicit false

namespace Gumnut.Lines

/-- A line without the carriage return before its line feed. -/
def dropReturn (line : List Char) : List Char :=
  if line.getLast? = some '\r' then line.dropLast else line

/-- The lines of a text of which a line has been read in part, its last character first. -/
def splitFrom (read : List Char) : List Char → List (List Char)
  | [] => if read.isEmpty then [] else [read.reverse]
  | c :: rest =>
    if c = '\n' then dropReturn read.reverse :: splitFrom [] rest
    else splitFrom (c :: read) rest

def split (text : List Char) : List (List Char) :=
  splitFrom [] text

@[simp] theorem split_nil : split [] = [] := rfl

theorem splitFrom_append {line : List Char} (read rest : List Char) (whole : '\n' ∉ line) :
    splitFrom read (line ++ rest) = splitFrom (line.reverse ++ read) rest := by
  induction line generalizing read with
  | nil => simp
  | cons c line ih =>
    have other : c ≠ '\n' := fun same => whole (by simp [same])
    have tail : '\n' ∉ line := fun inside => whole (by simp [inside])
    simp only [List.cons_append, splitFrom, if_neg other, ih (c :: read) tail]
    simp

theorem split_append_feed {line : List Char} (rest : List Char) (whole : '\n' ∉ line) :
    split (line ++ '\n' :: rest) = dropReturn line :: split rest := by
  simp [split, splitFrom_append, whole, splitFrom]

theorem dropReturn_of_plain {line : List Char} (plain : ∀ c ∈ line, c ≠ '\n' ∧ c ≠ '\r') :
    dropReturn line = line := by
  rw [dropReturn, if_neg]
  intro last
  exact (plain _ (List.mem_of_getLast? last)).2 rfl

theorem split_flatMap {lines : List (List Char)}
    (plain : ∀ line ∈ lines, ∀ c ∈ line, c ≠ '\n' ∧ c ≠ '\r') :
    split (lines.flatMap fun line => line ++ ['\n']) = lines := by
  induction lines with
  | nil => rfl
  | cons line rest ih =>
    rw [List.forall_mem_cons] at plain
    obtain ⟨own, later⟩ := plain
    rw [List.flatMap_cons, List.append_assoc, List.singleton_append,
      split_append_feed _ fun feed => (own _ feed).1 rfl, dropReturn_of_plain own, ih later]

theorem split_intercalate {lines : List (List Char)}
    (plain : ∀ line ∈ lines, ∀ c ∈ line, c ≠ '\n' ∧ c ≠ '\r')
    (filled : ∀ line ∈ lines, line ≠ []) : split (List.intercalate ['\n'] lines) = lines := by
  induction lines with
  | nil => rfl
  | cons line rest ih =>
    rw [List.forall_mem_cons] at plain filled
    obtain ⟨own, later⟩ := plain
    obtain ⟨some, others⟩ := filled
    have whole : '\n' ∉ line := fun feed => (own _ feed).1 rfl
    cases rest with
    | nil =>
      have read := splitFrom_append [] [] whole
      rw [List.append_nil, List.append_nil] at read
      rw [List.intercalate_singleton, split, read, splitFrom, List.reverse_reverse, if_neg]
      simpa using some
    | cons next rest =>
      rw [List.intercalate_cons_cons, List.append_assoc, List.singleton_append,
        split_append_feed _ whole, dropReturn_of_plain own, ih later others]

end Gumnut.Lines
