import Gumnut.Proofs.Grammar
import Gumnut.Proofs.Patterns
import Mathlib.Data.List.TakeWhile

/-!
# Comments and blanks

What a line says does not depend on the blanks around it nor on a comment behind it. Both change
where the lexemes stand, and a comment is one more lexeme at most; and which record a line has, or
which fault, follows from what its lexemes read as, with the comments left out, whatever their
places are.
-/
set_option autoImplicit false

namespace Gumnut

/-! ## Lexemes of a line with text around it -/

namespace Lexeme

def blanks : List Char := [' ', '\t', '\r']

variable {c d : Char} {text rest back after note : List Char}

theorem isBlank_of_mem_blanks (blank : c ∈ blanks) : isBlank c = true := by
  simp only [blanks, List.mem_cons, List.not_mem_nil, or_false] at blank
  rcases blank with rfl | rfl | rfl <;> rfl

theorem not_isTail_of_mem_blanks (blank : c ∈ blanks) : Token.isTail c = false := by
  simp only [blanks, List.mem_cons, List.not_mem_nil, or_false] at blank
  rcases blank with rfl | rfl | rfl <;> decide

theorem ne_newline_of_mem_blanks (blank : c ∈ blanks) : c ≠ '\n' := by
  rintro rfl
  exact absurd blank (by decide)

/-- What a lexeme reads as does not depend on where its text begins. -/
theorem map_reading_scan_from (start start' : Nat) (text : List Char) :
    (scan start' text).map reading = (scan start text).map reading := by
  fun_induction scan start text generalizing start' with
  | case1 => rw [scan]
  | case2 start c rest blank ih => rw [scan_cons, if_pos blank, ih]
  | case3 start c rest filled tail stop ih =>
    rw [scan_cons, if_neg filled, List.map_cons, List.map_cons, ih]

theorem map_reading_scan_blanks {before : List Char} (blank : ∀ c ∈ before, c ∈ blanks)
    (start : Nat) (text : List Char) :
    (scan start (before ++ text)).map reading = (scan start text).map reading := by
  induction before generalizing start with
  | nil => rfl
  | cons c before ih =>
    obtain ⟨own, others⟩ := List.forall_mem_cons.mp blank
    rw [List.cons_append, scan_cons, if_pos (isBlank_of_mem_blanks own), ih others,
      map_reading_scan_from]

theorem not_goesOn_of_not_isTail (plain : c ≠ ';') (rest : List Char)
    (ends : Token.isTail d = false) : goesOn c rest d = false := by
  rw [goesOn, if_neg plain]
  split
  · exact ends
  · rfl

/-- Where a lexeme ends does not depend on what follows behind a character that goes on in no
word. -/
theorem goesOn_append (plain : c ≠ ';') (rest : List Char) (ends : Token.Ends back) :
    goesOn c (rest ++ back) = goesOn c rest := by
  have sameDigit : (rest ++ back).head?.any WordChar.isDigit = rest.head?.any WordChar.isDigit := by
    cases rest with
    | cons d rest => rfl
    | nil =>
      cases back with
      | nil => rfl
      | cons d back =>
        refine Bool.eq_false_iff.mpr fun digit => ?_
        have goes : Token.isTail d = true := isTail_of_isDigit digit
        rw [ends d rfl] at goes
        cases goes
  rw [goesOn, goesOn, if_neg plain, if_neg plain, sameDigit]

theorem takeWhile_append_of_ends {p : Char → Bool} (rest : List Char)
    (ends : ∀ d ∈ back.head?, p d = false) :
    (rest ++ back).takeWhile p = rest.takeWhile p ∧
      (rest ++ back).dropWhile p = rest.dropWhile p ++ back := by
  induction rest with
  | nil =>
    cases back with
    | nil => exact ⟨rfl, rfl⟩
    | cons d back =>
      have other : ¬ p d = true := Bool.eq_false_iff.mp (ends d rfl)
      simp [other]
  | cons c rest ih =>
    cases own : p c with
    | false => simp [own]
    | true => simpa [own] using ih

/-- A lexeme that is no comment is the same in front of a text that goes on in no word. -/
theorem scan_append_of_ends (start : Nat) (filled : ¬ isBlank c = true) (plain : c ≠ ';')
    (rest : List Char) (ends : Token.Ends back) :
    scan start (c :: rest ++ back) =
      let tail := rest.takeWhile (goesOn c rest)
      let stop := start + CodePoint.byteLength (c :: tail)
      ⟨⟨start, stop⟩, Token.ofLexeme c tail⟩ ::
        scan stop (rest.dropWhile (goesOn c rest) ++ back) := by
  have stops : ∀ d ∈ back.head?, goesOn c rest d = false := fun d first =>
    not_goesOn_of_not_isTail plain rest (ends d first)
  obtain ⟨taken, dropped⟩ := takeWhile_append_of_ends rest stops
  rw [List.cons_append, scan_cons, if_neg filled, goesOn_append plain rest ends, taken, dropped]

theorem ofLexeme_comment (tail : List Char) : Token.ofLexeme ';' tail = .ok .comment := by
  rw [Token.ofLexeme, if_pos rfl]

theorem map_reading_scan_comment (start : Nat) (oneLine : '\n' ∉ note) :
    (scan start (';' :: note)).map reading = [.ok .comment] := by
  have goes : goesOn ';' note = (· != '\n') := by rw [goesOn, if_pos rfl]
  have all : ∀ d ∈ note, (d != '\n') = true := by
    intro d member
    rw [bne_iff_ne]
    rintro rfl
    exact oneLine member
  have dropped : note.dropWhile (· != '\n') = [] := List.dropWhile_eq_nil_iff.mpr all
  rw [scan_cons, if_neg (by decide)]
  simp only [goes, dropped, ofLexeme_comment]
  rw [scan]
  rfl

theorem ends_append_comment (blank : ∀ c ∈ after, c ∈ blanks) (note : List Char) :
    Token.Ends (after ++ ';' :: note) := by
  cases after with
  | nil =>
    rintro d ⟨⟩
    decide
  | cons c after =>
    rintro d ⟨⟩
    exact not_isTail_of_mem_blanks (blank c List.mem_cons_self)

theorem newline_not_mem_append_comment (blank : ∀ c ∈ after, c ∈ blanks) (oneLine : '\n' ∉ note) :
    '\n' ∉ after ++ ';' :: note := by
  rw [List.mem_append, List.mem_cons, not_or, not_or]
  exact ⟨fun member => ne_newline_of_mem_blanks (blank _ member) rfl, by decide, oneLine⟩

/-- Blanks and a comment behind a line add one comment at most to its lexemes. -/
theorem map_reading_scan_append (start start' : Nat) (oneLine : '\n' ∉ text)
    (blank : ∀ c ∈ after, c ∈ blanks) (oneLine' : '\n' ∉ note) :
    ∃ added, (scan start' (text ++ (after ++ ';' :: note))).map reading =
        (scan start text).map reading ++ added ∧
      ∀ reading ∈ added, reading = .ok .comment := by
  fun_induction scan start text generalizing start' with
  | case1 =>
    refine ⟨[.ok .comment], ?_, by simp⟩
    rw [List.nil_append, map_reading_scan_blanks blank, map_reading_scan_comment _ oneLine']
    rfl
  | case2 start c rest skipped ih =>
    rw [List.cons_append, scan_cons, if_pos skipped]
    exact ih (start' + c.utf8Size) fun member => oneLine (List.mem_cons_of_mem c member)
  | case3 start c rest filled tail stop ih =>
    have later : '\n' ∉ rest := fun member => oneLine (List.mem_cons_of_mem c member)
    by_cases opens : c = ';'
    · subst opens
      refine ⟨[], ?_, fun reading member => absurd member List.not_mem_nil⟩
      have whole := map_reading_scan_comment start later
      rw [scan_cons, if_neg filled] at whole
      rw [List.append_nil, whole, List.cons_append, map_reading_scan_comment]
      rw [List.mem_append, not_or]
      exact ⟨later, newline_not_mem_append_comment blank oneLine'⟩
    · have left : '\n' ∉ rest.dropWhile (goesOn c rest) :=
        fun member => later ((List.dropWhile_sublist _).subset member)
      obtain ⟨added, same, comments⟩ := ih (start' + CodePoint.byteLength (c :: tail)) left
      refine ⟨added, ?_, comments⟩
      rw [scan_append_of_ends start' filled opens rest (ends_append_comment blank note)]
      simp only [List.map_cons, List.cons_append]
      rw [same]

end Lexeme

/-! ## Results that differ in places only -/

namespace Line

inductive Moved : Tokens → Tokens → Prop
  | nil : Moved [] []
  | cons (token : Token) (span span' : Span) {rest rest' : Tokens} (more : Moved rest rest') :
      Moved ((token, span) :: rest) ((token, span') :: rest')

inductive SameRest {α : Type} : α × Tokens → α × Tokens → Prop
  | mk (read : α) {rest rest' : Tokens} (more : Moved rest rest') :
      SameRest (read, rest) (read, rest')

/-- Two results of reading, apart from the places of their faults. -/
inductive Alike {α : Type} (same : α → α → Prop) : Except Failure α → Except Failure α → Prop
  | ok {a b : α} (alike : same a b) : Alike same (.ok a) (.ok b)
  | error (fault : SyntaxFault) (span span' : Span) :
      Alike same (.error (fault, span)) (.error (fault, span'))

theorem Moved.isEmpty_eq {tokens tokens' : Tokens} (moved : Moved tokens tokens') :
    tokens'.isEmpty = tokens.isEmpty := by
  cases moved <;> rfl

namespace Alike

variable {α : Type}

theorem exists_rest {a : α} {rest : Tokens} {result : Except Failure (α × Tokens)}
    (alike : Alike SameRest (.ok (a, rest)) result) :
    ∃ rest', result = .ok (a, rest') ∧ Moved rest rest' := by
  cases alike with
  | ok alike =>
    cases alike with
    | mk read more => exact ⟨_, rfl, more⟩

theorem exists_error {same : α → α → Prop} {result : Except Failure α} {fault : SyntaxFault}
    {span : Span} (alike : Alike same (.error (fault, span)) result) :
    ∃ span', result = .error (fault, span') := by
  cases alike with
  | error => exact ⟨_, rfl⟩

end Alike

/-! ## Reading tokens at other places -/

section
variable {stop stop' : Nat} {tokens tokens' : Tokens}

theorem alike_readIndexBase (moved : Moved tokens tokens') :
    Alike SameRest (readIndexBase stop tokens) (readIndexBase stop' tokens') := by
  cases moved with
  | nil => exact .error ..
  | cons token span span' more =>
    cases token with
    | register | name => exact .ok (.mk _ more)
    | _ => exact .error ..

theorem alike_readClosing (moved : Moved tokens tokens') :
    Alike Moved (readClosing stop tokens) (readClosing stop' tokens') := by
  cases moved with
  | nil => exact .error ..
  | cons token span span' more =>
    cases token with
    | closeParen => exact .ok more
    | _ => exact .error ..

theorem alike_readSignedOffset (negative : Bool) (moved : Moved tokens tokens') :
    Alike SameRest (readSignedOffset stop negative tokens)
      (readSignedOffset stop' negative tokens') := by
  cases moved with
  | nil => exact .error ..
  | cons token span span' more =>
    cases token with
    | numeral n => cases n <;> exact .ok (.mk _ more)
    | _ => exact .error ..

theorem alike_readOffset (moved : Moved tokens tokens') :
    Alike SameRest (readOffset stop tokens) (readOffset stop' tokens') := by
  cases moved with
  | nil => exact .ok (.mk _ .nil)
  | cons token span span' more =>
    cases token with
    | plus => exact alike_readSignedOffset false more
    | minus => exact alike_readSignedOffset true more
    | numeral => exact .ok (.mk _ more)
    | _ => exact .ok (.mk _ (.cons _ span span' more))

theorem alike_readOperand (moved : Moved tokens tokens') :
    Alike SameRest (readOperand stop tokens) (readOperand stop' tokens') := by
  cases moved with
  | nil => exact .error ..
  | @cons token span span' rest rest' more =>
    cases token with
    | register | numeral | name => exact .ok (.mk _ more)
    | openParen =>
      have based : Alike SameRest (readIndexBase stop rest) (readIndexBase stop' rest') :=
        alike_readIndexBase more
      simp only [readOperand]
      generalize readIndexBase stop rest = base, readIndexBase stop' rest' = base' at based ⊢
      cases based with
      | error => exact .error ..
      | ok based =>
        cases based with
        | @mk base inner inner' more =>
          have closed : Alike Moved (readClosing stop inner) (readClosing stop' inner') :=
            alike_readClosing more
          simp only
          generalize readClosing stop inner = closing, readClosing stop' inner' = closing'
            at closed ⊢
          cases closed with
          | error => exact .error ..
          | @ok behind behind' more =>
            have ended : Alike SameRest (readOffset stop behind) (readOffset stop' behind') :=
              alike_readOffset more
            simp only
            generalize readOffset stop behind = offset, readOffset stop' behind' = offset'
              at ended ⊢
            cases ended with
            | error => exact .error ..
            | ok ended =>
              cases ended with
              | mk offset more => exact .ok (.mk _ more)
    | _ => exact .error ..

theorem readOperands_of_error {read : List Operand} {failure : Failure}
    (next : readOperand stop tokens = .error failure) :
    readOperands stop read tokens = .error failure := by
  rw [readOperands]
  split
  · rename_i refused
    rw [next] at refused
    cases refused
    rfl
  · rename_i reads
    rw [next] at reads
    cases reads

variable {read places : List Operand} {rest : Tokens}

theorem readOperands_of_tooMany (next : readOperand stop tokens = .ok (places, rest))
    (excess : Operands.capacity < (read ++ places).length) :
    readOperands stop read tokens =
      .error (.tooManyOperands, ⟨(here stop tokens).start, (here stop rest).start⟩) := by
  rw [readOperands_of_next next, if_pos excess]

theorem readOperands_of_noComma {token : Token} {span : Span}
    (next : readOperand stop tokens = .ok (places, (token, span) :: rest))
    (fit : (read ++ places).length ≤ Operands.capacity) (other : token ≠ .comma) :
    readOperands stop read tokens = .error (.expectedComma, span) := by
  rw [readOperands_of_next next, if_neg (Nat.not_lt.mpr fit)]
  cases token with
  | comma => exact absurd rfl other
  | _ => rfl

theorem alike_readOperands (read : List Operand) (moved : Moved tokens tokens') :
    Alike Eq (readOperands stop read tokens) (readOperands stop' read tokens') := by
  have next : Alike SameRest (readOperand stop tokens) (readOperand stop' tokens') :=
    alike_readOperand moved
  fun_induction readOperands stop read tokens generalizing tokens' with
  | case1 read tokens failure refused =>
    rw [refused] at next
    obtain ⟨span', refused'⟩ := next.exists_error
    rw [readOperands_of_error refused']
    exact .error ..
  | case2 read tokens places rest taken excess =>
    rw [taken] at next
    obtain ⟨rest', taken', later⟩ := next.exists_rest
    rw [readOperands_of_tooMany taken' excess]
    exact .error ..
  | case3 read tokens places fit taken =>
    rw [taken] at next
    obtain ⟨rest', taken', later⟩ := next.exists_rest
    cases later
    rw [readOperands_of_last taken' (Nat.le_of_not_lt fit)]
    exact .ok rfl
  | case4 read tokens places fit span rest _ taken ih =>
    rw [taken] at next
    obtain ⟨rest', taken', later⟩ := next.exists_rest
    cases later with
    | cons _ _ span' more =>
      rw [readOperands_of_comma taken' (Nat.le_of_not_lt fit)]
      exact ih more (alike_readOperand more)
  | case5 read tokens places fit token span rest taken other =>
    rw [taken] at next
    obtain ⟨rest', taken', later⟩ := next.exists_rest
    have plain : token ≠ .comma := by
      rintro rfl
      exact other taken rfl HEq.rfl
    cases later with
    | cons _ _ span' more =>
      rw [readOperands_of_noComma taken' (Nat.le_of_not_lt fit) plain]
      exact .error ..

theorem alike_readInstruction (label : Option String) (moved : Moved tokens tokens') :
    Alike Eq (readInstruction stop label tokens) (readInstruction stop' label tokens') := by
  cases moved with
  | nil => exact .ok rfl
  | @cons token span span' rest rest' more =>
    cases token with
    | name text =>
      have operands : Alike Eq (readOperands stop [] rest) (readOperands stop' [] rest') :=
        alike_readOperands [] more
      simp only [readInstruction, more.isEmpty_eq]
      split
      · exact .ok rfl
      · generalize readOperands stop [] rest = places, readOperands stop' [] rest' = places'
          at operands ⊢
        cases operands with
        | error => exact .error ..
        | ok same => exact .ok (by rw [same])
    | _ => exact .error ..

theorem sameRest_readLabel (moved : Moved tokens tokens') :
    SameRest (readLabel tokens) (readLabel tokens') := by
  cases moved with
  | nil => exact .mk _ .nil
  | cons token span span' more =>
    cases token with
    | name text =>
      cases more with
      | nil => exact .mk _ (.cons _ span span' .nil)
      | cons second place place' more =>
        cases second with
        | colon => exact .mk _ more
        | _ => exact .mk _ (.cons _ span span' (.cons _ place place' more))
    | _ => exact .mk _ (.cons _ span span' more)

/-- The record of a line, or its fault, follows from its tokens. -/
theorem alike_ofTokens (moved : Moved tokens tokens') :
    Alike Eq (ofTokens stop tokens) (ofTokens stop' tokens') := by
  have labels : SameRest (readLabel tokens) (readLabel tokens') := sameRest_readLabel moved
  unfold ofTokens
  generalize readLabel tokens = apart, readLabel tokens' = apart' at labels ⊢
  cases labels with
  | mk label more => exact alike_readInstruction label more

end

/-! ## Lines with text around them -/

theorem tokens_of_comments {lexemes : List Lexeme}
    (comments : ∀ lexeme ∈ lexemes, lexeme.reading = .ok .comment) :
    Line.tokens lexemes = .ok [] := by
  induction lexemes with
  | nil => rfl
  | cons lexeme lexemes ih =>
    obtain ⟨span, reading⟩ := lexeme
    obtain ⟨rfl, others⟩ := List.forall_mem_cons.mp comments
    exact ih others

theorem tokens_of_not_comment {token : Token} (plain : token ≠ .comment) (span : Span)
    (rest : List Lexeme) :
    Line.tokens (⟨span, .ok token⟩ :: rest) = (Line.tokens rest).map ((token, span) :: ·) := by
  cases token with
  | comment => exact absurd rfl plain
  | _ => rfl

/-- Comments behind the lexemes of a line change none of its tokens, nor which fault comes
first. -/
theorem alike_tokens {lexemes lexemes' : List Lexeme} {added : List (Except LexicalFault Token)}
    (readings : lexemes'.map Lexeme.reading = lexemes.map Lexeme.reading ++ added)
    (comments : ∀ reading ∈ added, reading = .ok .comment) :
    Alike Moved (Line.tokens lexemes) (Line.tokens lexemes') := by
  induction lexemes generalizing lexemes' with
  | nil =>
    have silent : Line.tokens lexemes' = .ok [] := by
      refine tokens_of_comments fun lexeme member => comments _ ?_
      rw [← show lexemes'.map Lexeme.reading = added from readings]
      exact List.mem_map_of_mem member
    rw [silent]
    exact .ok .nil
  | cons lexeme lexemes ih =>
    obtain ⟨span, reading⟩ := lexeme
    obtain ⟨⟨span', reading'⟩, lexemes', rfl, same, later⟩ := List.map_eq_cons_iff.mp readings
    have same : reading' = reading := same
    have behind : Alike Moved (Line.tokens lexemes) (Line.tokens lexemes') := ih later
    subst same
    cases reading' with
    | error fault => exact .error ..
    | ok token =>
      by_cases comment : token = .comment
      · subst comment
        exact behind
      · rw [tokens_of_not_comment comment, tokens_of_not_comment comment]
        generalize Line.tokens lexemes = found, Line.tokens lexemes' = found' at behind ⊢
        cases behind with
        | error => exact .error ..
        | ok more => exact .ok (.cons token span span' more)

theorem alike_parse {before line after note : List Char}
    (blank : ∀ c ∈ before, c ∈ Lexeme.blanks) (blank' : ∀ c ∈ after, c ∈ Lexeme.blanks)
    (oneLine : '\n' ∉ line) (oneLine' : '\n' ∉ note) :
    Alike Eq (parse line) (parse (before ++ line ++ after ++ ';' :: note)) := by
  obtain ⟨added, readings, comments⟩ :=
    Lexeme.map_reading_scan_append 0 0 oneLine blank' oneLine'
  have found : Alike Moved (Line.tokens (Lexeme.ofLine line))
      (Line.tokens (Lexeme.ofLine (before ++ line ++ after ++ ';' :: note))) := by
    refine alike_tokens ?_ comments
    rw [Lexeme.ofLine, List.append_assoc, List.append_assoc,
      Lexeme.map_reading_scan_blanks blank, readings]
    rfl
  unfold parse
  generalize Line.tokens (Lexeme.ofLine line) = result,
    Line.tokens (Lexeme.ofLine (before ++ line ++ after ++ ';' :: note)) = result' at found ⊢
  cases found with
  | error => exact .error ..
  | ok moved => exact alike_ofTokens moved

/-- Blanks around a line and a comment behind it carry no meaning, whatever the comment holds: the
line has the same record, or else fails with the same fault. -/
theorem parse_commented {before line after note : List Char}
    (blank : ∀ c ∈ before ++ after, c ∈ [' ', '\t', '\r']) (oneLine : '\n' ∉ line ++ note) :
    (∀ record, parse (before ++ line ++ after ++ ';' :: note) = .ok record ↔
      parse line = .ok record) ∧
    ∀ fault, (∃ span, parse (before ++ line ++ after ++ ';' :: note) = .error (fault, span)) ↔
      ∃ span, parse line = .error (fault, span) := by
  obtain ⟨blankBefore, blankAfter⟩ := List.forall_mem_append.mp blank
  rw [List.mem_append, not_or] at oneLine
  have alike : Alike Eq (parse line) (parse (before ++ line ++ after ++ ';' :: note)) :=
    alike_parse blankBefore blankAfter oneLine.1 oneLine.2
  generalize parse line = result, parse (before ++ line ++ after ++ ';' :: note) = result'
    at alike ⊢
  cases alike with
  | ok same =>
    rw [same]
    exact ⟨fun record => Iff.rfl, fun fault => Iff.rfl⟩
  | error => simp

theorem parse_commented_unfinished :
    (∀ c ∈ ['\t'] ++ [' ', '\r'], c ∈ [' ', '\t', '\r']) ∧
    '\n' ∉ "ldm r1, (r2 ; base".toList ++ " \"µ@;".toList ∧
    parse "ldm r1, (r2 ; base".toList = .error (.unclosedIndex, ⟨18, 18⟩) ∧
    ∃ span, parse "\tldm r1, (r2 ; base \r; \"µ@;".toList = .error (.unclosedIndex, span) := by
  have blank : ∀ c ∈ ['\t'] ++ [' ', '\r'], c ∈ [' ', '\t', '\r'] := by simp
  have oneLine : '\n' ∉ "ldm r1, (r2 ; base".toList ++ " \"µ@;".toList := by
    decide +kernel
  have alone : parse "ldm r1, (r2 ; base".toList = .error (.unclosedIndex, ⟨18, 18⟩) := by
    decide +kernel
  exact ⟨blank, oneLine, alone, ((parse_commented blank oneLine).2 .unclosedIndex).mpr ⟨_, alone⟩⟩

end Line

end Gumnut
