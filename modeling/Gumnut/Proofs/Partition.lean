import Gumnut.Proofs.Patterns

/-!
# The lexemes of a line

The lexemes of a line and the blanks between them make up the line: no character is lost and none
is read twice. Each lexeme is what the patterns take from the text that it begins; so written out
again with a space between each two, the lexemes of a line are read as they were.
-/
set_option autoImplicit false

namespace Gumnut

open CodePoint (byteLength)

/-- The lexemes that make up a text together with blanks, when the text begins at a byte. -/
inductive Partition : Nat → List Char → List Lexeme → Prop
  | nil (start : Nat) : Partition start [] []
  | blank {start : Nat} {c : Char} {rest : List Char} {lexemes : List Lexeme}
      (blank : Lexeme.isBlank c = true) (more : Partition (start + c.utf8Size) rest lexemes) :
      Partition start (c :: rest) lexemes
  | lexeme {start : Nat} {word rest : List Char} {reading : Except LexicalFault Token}
      {lexemes : List Lexeme} (taken : Taken (word ++ rest) word reading)
      (more : Partition (start + byteLength word) rest lexemes) :
      Partition start (word ++ rest) (⟨⟨start, start + byteLength word⟩, reading⟩ :: lexemes)

def respaced (line : List Char) : List Char :=
  List.intercalate [' '] ((Lexeme.ofLine line).map fun lexeme => (lexeme.span.text line).toList)

/-! ## Texts that are taken -/

section
variable {c : Char} {text word rest tail : List Char} {pattern : Pattern}
  {reading : Except LexicalFault Token}

theorem not_isBlank_of_goes (goes : pattern.Goes c tail) : Lexeme.isBlank c = false := by
  cases pattern with
  | numeral =>
    rcases goes with ⟨digit, -⟩ | ⟨sign, -⟩
    · exact (Lexeme.not_isBlank_of_opens (.inr digit)).1
    · rw [Token.isSign, Bool.or_eq_true, beq_iff_eq, beq_iff_eq] at sign
      rcases sign with rfl | rfl <;> decide
  | register => rcases goes.1 with rfl | rfl <;> decide
  | name => exact (Lexeme.not_isBlank_of_opens (.inl goes.1)).1
  | symbol s =>
    obtain ⟨rfl, -⟩ := goes
    cases s <;> decide
  | comment =>
    obtain ⟨rfl, -⟩ := goes
    decide

theorem eq_comment_of_space (goes : pattern.Goes c tail) (space : ' ' ∈ tail) :
    pattern = .comment := by
  cases pattern with
  | numeral =>
    rcases goes with ⟨-, all⟩ | ⟨-, d, rest, rfl, digit, all⟩
    · exact absurd (all ' ' space) (by decide)
    · rcases List.mem_cons.mp space with rfl | later
      · exact absurd digit (by decide)
      · exact absurd (all ' ' later) (by decide)
  | register => exact absurd (goes.2.2 ' ' space) (by decide)
  | name => exact absurd (goes.2 ' ' space) (by decide)
  | symbol s =>
    rw [goes.2] at space
    cases space
  | comment => rfl

namespace Taken

theorem isPrefix (taken : Taken text word reading) : word <+: text := by
  cases taken with
  | matched longest => exact longest.isPrefix
  | stray opens => exact opens ▸ ⟨_, rfl⟩

theorem opens (taken : Taken text word reading) :
    ∃ c tail, word = c :: tail ∧ Lexeme.isBlank c = false := by
  cases taken with
  | matched longest =>
    obtain ⟨c, tail, rfl, goes⟩ := mem_language_iff.mp longest.matched
    exact ⟨c, tail, rfl, not_isBlank_of_goes goes⟩
  | stray _ filled => exact ⟨_, [], rfl, filled⟩

theorem alone (taken : Taken text word reading) : Taken word word reading := by
  have isPrefix := taken.isPrefix
  cases taken with
  | matched longest =>
    exact .matched { longest with
      isPrefix := List.prefix_refl word
      longest := fun other word' matched inside =>
        longest.longest other word' matched (inside.trans isPrefix) }
  | stray opens filled unmatched =>
    exact .stray rfl filled fun pattern word' matched inside =>
      unmatched pattern word' matched (inside.trans isPrefix)

/-- What a pattern matches of a text with a space behind it ends in front of the space, unless it
is a comment. -/
theorem prefix_of_prefix_space {other : Pattern} {word' : List Char} (plain : c ≠ ';')
    (matched : word' ∈ other.language) (isPrefix : word' <+: c :: tail ++ ' ' :: rest) :
    word' <+: c :: tail := by
  rcases List.prefix_or_prefix_of_prefix isPrefix (List.prefix_append _ _) with inside | ⟨more, rfl⟩
  · exact inside
  · rw [List.prefix_append_right_inj] at isPrefix
    cases more with
    | nil => rw [List.append_nil]
    | cons d more =>
      obtain ⟨rfl, -⟩ := List.cons_prefix_cons.mp isPrefix
      have goes := cons_mem_language_iff.mp matched
      obtain rfl := eq_comment_of_space goes (by simp)
      exact absurd goes.1 plain

/-- What is taken is taken also in front of a space, unless it is a comment. -/
theorem spaced (taken : Taken text word reading) (plain : word.head? ≠ some ';')
    (rest : List Char) : Taken (word ++ ' ' :: rest) word reading := by
  have isPrefix := taken.isPrefix
  obtain ⟨c, tail, rfl, -⟩ := taken.opens
  have plain : c ≠ ';' := fun same => plain (congrArg some same)
  have within {other : Pattern} {word' : List Char} (matched : word' ∈ other.language)
      (inside : word' <+: c :: tail ++ ' ' :: rest) : word' <+: text :=
    (prefix_of_prefix_space plain matched inside).trans isPrefix
  cases taken with
  | matched longest =>
    exact .matched { longest with
      isPrefix := List.prefix_append _ _
      longest := fun other word' matched inside =>
        longest.longest other word' matched (within matched inside) }
  | stray opens filled unmatched =>
    exact .stray rfl filled fun pattern word' matched inside =>
      unmatched pattern word' matched (within matched inside)

theorem eq_nil_of_comment (taken : Taken (word ++ rest) word reading)
    (opens : word.head? = some ';') (oneLine : '\n' ∉ word ++ rest) : rest = [] := by
  obtain ⟨c, tail, rfl, -⟩ := taken.opens
  obtain rfl : c = ';' := Option.some.inj opens
  have all : (tail ++ rest).takeWhile (· != '\n') = tail ++ rest := by
    rw [List.takeWhile_eq_self_iff]
    rintro d member
    rw [bne_iff_ne]
    rintro rfl
    exact oneLine (List.mem_cons_of_mem _ member)
  obtain ⟨same, -⟩ := taken.unique (taken_comment (tail ++ rest))
  rw [all] at same
  exact List.self_eq_append_right.mp (List.cons.inj same).2

end Taken

end

/-! ## The lexemes partition the text -/

theorem Lexeme.partition_scan (start : Nat) (text : List Char) :
    Partition start text (scan start text) := by
  fun_induction scan start text with
  | case1 start => exact .nil start
  | case2 start c rest blank ih => exact .blank blank ih
  | case3 start c rest filled tail stop ih =>
    have taken : Taken (c :: rest) (c :: tail) (Token.ofLexeme c tail) :=
      taken_scan (Bool.eq_false_iff.mpr filled)
    have split : c :: rest = c :: tail ++ rest.dropWhile (goesOn c rest) := by
      rw [List.cons_append, List.takeWhile_append_dropWhile]
    rw [split] at taken ⊢
    exact .lexeme taken ih

namespace Partition

variable {start : Nat} {text : List Char} {lexemes : List Lexeme}

/-- A text has no other partition than the one that the reader finds. -/
theorem eq_scan (partition : Partition start text lexemes) :
    lexemes = Lexeme.scan start text := by
  induction partition with
  | nil start => rw [Lexeme.scan]
  | blank blank more ih => rw [Lexeme.scan_cons, if_pos blank, ih]
  | @lexeme start word rest reading lexemes taken more ih =>
    obtain ⟨c, tail, rfl, filled⟩ := taken.opens
    have taken : Taken (c :: (tail ++ rest)) (c :: tail) reading := taken
    obtain ⟨same, rfl⟩ := taken.unique (taken_scan filled)
    have split := List.takeWhile_append_dropWhile
      (p := Lexeme.goesOn c (tail ++ rest)) (l := tail ++ rest)
    rw [← (List.cons.inj same).2, List.append_cancel_left_eq] at split
    rw [List.cons_append, Lexeme.scan_cons, if_neg (Bool.eq_false_iff.mp filled)]
    simp only [split, ← (List.cons.inj same).2, ih]

theorem exists_run_of_mem (partition : Partition start text lexemes) {lexeme : Lexeme}
    (member : lexeme ∈ lexemes) :
    ∃ front word back, text = front ++ word ++ back ∧
      lexeme.span.start = start + byteLength front ∧
      lexeme.span.stop = lexeme.span.start + byteLength word ∧
      Taken (word ++ back) word lexeme.reading := by
  induction partition with
  | nil => cases member
  | @blank start c rest lexemes blank more ih =>
    obtain ⟨front, word, back, rfl, place, size, taken⟩ := ih member
    refine ⟨c :: front, word, back, rfl, ?_, size, taken⟩
    rw [place, CodePoint.byteLength_cons, Nat.add_assoc]
  | @lexeme start word rest reading lexemes taken more ih =>
    rcases List.mem_cons.mp member with rfl | later
    · exact ⟨[], word, rest, rfl, rfl, rfl, taken⟩
    · obtain ⟨front, word', back, rfl, place, size, taken'⟩ := ih later
      refine ⟨word ++ front, word', back, ?_, ?_, size, taken'⟩
      · simp only [List.append_assoc]
      · rw [place, CodePoint.byteLength_append, Nat.add_assoc]

theorem pairwise (partition : Partition start text lexemes) :
    lexemes.Pairwise fun earlier later => earlier.span.stop ≤ later.span.start := by
  induction partition with
  | nil => exact .nil
  | blank blank more ih => exact ih
  | lexeme taken more ih =>
    refine .cons (fun later member => ?_) ih
    obtain ⟨front, word, back, -, place, -, -⟩ := more.exists_run_of_mem member
    exact place ▸ Nat.le_add_right _ _

/-- A character outside of all lexemes of a partition is blank. -/
theorem covers (partition : Partition start text lexemes) {front back : List Char} {c : Char}
    (split : text = front ++ c :: back) :
    Lexeme.isBlank c = true ∨ ∃ lexeme ∈ lexemes, lexeme.span.start ≤ start + byteLength front ∧
      start + byteLength front < lexeme.span.stop := by
  induction partition generalizing front with
  | nil start => exact absurd split.symm (List.append_ne_nil_of_right_ne_nil _ nofun)
  | @blank start d rest lexemes blank more ih =>
    cases front with
    | nil =>
      cases split
      exact .inl blank
    | cons e front =>
      obtain ⟨rfl, behind⟩ := List.cons.inj split
      rw [CodePoint.byteLength_cons, ← Nat.add_assoc]
      exact ih behind
  | @lexeme start word rest reading lexemes taken more ih =>
    have further {front : List Char} (split : rest = front ++ c :: back) :
        Lexeme.isBlank c = true ∨ ∃ lexeme ∈ (⟨⟨start, start + byteLength word⟩, reading⟩ ::
          lexemes : List Lexeme), lexeme.span.start ≤ start + byteLength (word ++ front) ∧
            start + byteLength (word ++ front) < lexeme.span.stop := by
      rw [CodePoint.byteLength_append, ← Nat.add_assoc]
      refine (ih split).imp id ?_
      rintro ⟨lexeme, member, within⟩
      exact ⟨lexeme, List.mem_cons_of_mem _ member, within⟩
    rcases List.append_eq_append_iff.mp split with ⟨front', rfl, behind⟩ | ⟨inner, rfl, behind⟩
    · exact further behind
    · cases inner with
      | nil =>
        have here := further (show rest = [] ++ c :: back from behind.symm)
        simpa only [List.append_nil] using here
      | cons d inner =>
        obtain ⟨rfl, -⟩ := List.cons.inj behind
        refine .inr ⟨_, List.mem_cons_self, Nat.le_add_right _ _, ?_⟩
        have positive := c.utf8Size_pos
        simp only [CodePoint.byteLength_append, CodePoint.byteLength_cons]
        omega

end Partition

/-! ## Lexemes written out again -/

section
variable {start : Nat} {text : List Char} {lexemes : List Lexeme}

/-- The lexemes of a text, written out from anywhere with a space between each two, partition that
text as they did. -/
theorem Partition.respaced (partition : Partition start text lexemes) (oneLine : '\n' ∉ text)
    {front : List Char} (place : start = byteLength front) (start' : Nat) :
    ∃ lexemes', Partition start' (List.intercalate [' ']
        (lexemes.map fun lexeme => (lexeme.span.text (front ++ text)).toList)) lexemes' ∧
      lexemes'.map Lexeme.reading = lexemes.map Lexeme.reading := by
  induction partition generalizing front start' with
  | nil => exact ⟨[], .nil _, rfl⟩
  | @blank start c rest lexemes blank more ih =>
    rw [List.append_cons]
    refine ih (fun member => oneLine (List.mem_cons_of_mem c member)) ?_ start'
    simp [place]
  | @lexeme start word rest reading lexemes taken more ih =>
    have spelled : (Span.text ⟨start, start + byteLength word⟩ (front ++ (word ++ rest))).toList =
        word := by
      rw [place, ← List.append_assoc, Span.text_append, String.toList_ofList]
    have later : '\n' ∉ rest := fun member => oneLine (List.mem_append_right word member)
    have place' : start + byteLength word = byteLength (front ++ word) := by simp [place]
    have behind := ih later place'
    rw [List.append_assoc] at behind
    rw [List.map_cons, spelled]
    cases lexemes with
    | nil =>
      refine ⟨[⟨⟨start', start' + byteLength word⟩, reading⟩], ?_, rfl⟩
      rw [List.map_nil, List.intercalate_singleton]
      have alone : Taken (word ++ []) word reading := (List.append_nil word).symm ▸ taken.alone
      have made := Partition.lexeme alone (.nil (start' + byteLength word))
      rwa [List.append_nil] at made
    | cons next lexemes =>
      have plain : word.head? ≠ some ';' := by
        intro opens
        obtain rfl := taken.eq_nil_of_comment opens oneLine
        have none := more.eq_scan
        rw [Lexeme.scan] at none
        cases none
      obtain ⟨lexemes', made, same⟩ := behind (start' + byteLength word + ' '.utf8Size)
      refine ⟨⟨⟨start', start' + byteLength word⟩, reading⟩ :: lexemes', ?_, ?_⟩
      · rw [List.map_cons, List.intercalate_cons_cons, List.append_assoc]
        exact .lexeme (taken.spaced plain _) (.blank rfl made)
      · rw [List.map_cons, same]
        rfl

end

namespace Lexeme

variable {line : List Char} {lexeme : Lexeme}

/-- A lexeme of a line is taken from the text that it begins, and its span is the place of what is
taken. -/
theorem exists_taken_of_mem (member : lexeme ∈ ofLine line) :
    ∃ front word back, line = front ++ word ++ back ∧
      lexeme.span.start = byteLength front ∧ lexeme.span.stop = byteLength (front ++ word) ∧
      Taken (word ++ back) word lexeme.reading := by
  obtain ⟨front, word, back, split, place, size, taken⟩ :=
    (partition_scan 0 line).exists_run_of_mem member
  rw [Nat.zero_add] at place
  exact ⟨front, word, back, split, place, by rw [size, place, CodePoint.byteLength_append], taken⟩

theorem bounds_of_mem (member : lexeme ∈ ofLine line) :
    lexeme.span.start < lexeme.span.stop ∧ lexeme.span.stop ≤ byteLength line := by
  obtain ⟨front, word, back, rfl, place, size, taken⟩ := exists_taken_of_mem member
  obtain ⟨c, tail, rfl, -⟩ := taken.opens
  have positive := c.utf8Size_pos
  rw [place, size]
  simp only [CodePoint.byteLength_append, CodePoint.byteLength_cons]
  omega

/-- The lexemes of a line partition it. Their spans are not empty, stand on whole characters of
the line and come one after the other, and what is outside of them are blanks. Each of them is what
the patterns take from the text that it begins. So the lexemes of one line, written with a space
between each two, read as they did. -/
theorem ofLine_partitions (line : List Char) :
    (∀ lexeme ∈ ofLine line,
      lexeme.span.start < lexeme.span.stop ∧ lexeme.span.stop ≤ byteLength line ∧
      ∃ front word back, line = front ++ word ++ back ∧
        lexeme.span.start = byteLength front ∧ lexeme.span.stop = byteLength (front ++ word) ∧
        Taken (word ++ back) word lexeme.reading) ∧
    ((ofLine line).Pairwise fun earlier later => earlier.span.stop ≤ later.span.start) ∧
    (∀ front c back, line = front ++ c :: back → c ∈ [' ', '\t', '\r', '\n'] ∨
      ∃ lexeme ∈ ofLine line,
        lexeme.span.start ≤ byteLength front ∧ byteLength front < lexeme.span.stop) ∧
    ('\n' ∉ line →
      (ofLine (respaced line)).map Lexeme.reading = (ofLine line).map Lexeme.reading) := by
  have partition : Partition 0 line (ofLine line) := partition_scan 0 line
  refine ⟨fun lexeme member => ?_, partition.pairwise, fun front c back split => ?_,
    fun oneLine => ?_⟩
  · obtain ⟨filled, within⟩ := bounds_of_mem member
    exact ⟨filled, within, exists_taken_of_mem member⟩
  · refine (partition.covers split).imp (fun blank => ?_) fun inside => ?_
    · simpa [isBlank, or_assoc] using blank
    · simpa only [Nat.zero_add] using inside
  · have place : 0 = byteLength [] := rfl
    obtain ⟨lexemes', made, same⟩ := partition.respaced oneLine place 0
    have scanned : lexemes' = ofLine (respaced line) := made.eq_scan
    rw [← scanned, same]

theorem ofLine_partitions_indexed :
    '\n' ∉ "a: 1,(r2)-3.b @ ;; x".toList ∧
    respaced "a: 1,(r2)-3.b @ ;; x".toList = "a : 1 , ( r2 ) -3.b @ ;; x".toList ∧
    (ofLine "a : 1 , ( r2 ) -3.b @ ;; x".toList).map Lexeme.reading =
      (ofLine "a: 1,(r2)-3.b @ ;; x".toList).map Lexeme.reading := by
  have oneLine : '\n' ∉ "a: 1,(r2)-3.b @ ;; x".toList := by decide
  have spaced : respaced "a: 1,(r2)-3.b @ ;; x".toList = "a : 1 , ( r2 ) -3.b @ ;; x".toList := by
    decide +kernel
  have kept := (ofLine_partitions "a: 1,(r2)-3.b @ ;; x".toList).2.2.2 oneLine
  rw [spaced] at kept
  exact ⟨oneLine, spaced, kept⟩

end Lexeme

end Gumnut
