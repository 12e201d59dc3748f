import Gumnut.Assembly.Parse

/-!
# Pieces of a line

The tokens of a line with their source text. Every lexeme of a line is a run of its characters, and
its span are the bytes of that run; so the text at the span of a name is the name itself.
-/
set_option autoImplicit false

namespace Gumnut

namespace Span

def cut (span : Span) (start : Nat) : List Char → List Char
  | [] => []
  | c :: rest =>
    if span.start ≤ start ∧ start < span.stop then c :: span.cut (start + c.utf8Size) rest
    else span.cut (start + c.utf8Size) rest

def text (span : Span) (line : List Char) : String :=
  String.ofList (span.cut 0 line)

variable {span : Span} {start : Nat}

theorem cut_append_of_before {front : List Char} (rest : List Char)
    (before : start + CodePoint.byteLength front ≤ span.start) :
    span.cut start (front ++ rest) = span.cut (start + CodePoint.byteLength front) rest := by
  induction front generalizing start with
  | nil => rfl
  | cons c front ih =>
    have positive := c.utf8Size_pos
    rw [CodePoint.byteLength_cons, ← Nat.add_assoc] at before ⊢
    rw [List.cons_append, cut, if_neg (by omega), ih before]

theorem cut_append_of_within {word : List Char} (rest : List Char) (after : span.start ≤ start)
    (within : start + CodePoint.byteLength word ≤ span.stop) :
    span.cut start (word ++ rest) = word ++ span.cut (start + CodePoint.byteLength word) rest := by
  induction word generalizing start with
  | nil => rfl
  | cons c word ih =>
    have positive := c.utf8Size_pos
    rw [CodePoint.byteLength_cons, ← Nat.add_assoc] at within ⊢
    rw [List.cons_append, cut, if_pos (by omega), ih (by omega) within, List.cons_append]

theorem cut_of_behind (rest : List Char) (behind : span.stop ≤ start) :
    span.cut start rest = [] := by
  induction rest generalizing start with
  | nil => rfl
  | cons c rest ih => rw [cut, if_neg (by omega), ih (by omega)]

theorem text_append (front word rest : List Char) :
    text ⟨CodePoint.byteLength front, CodePoint.byteLength front + CodePoint.byteLength word⟩
      (front ++ word ++ rest) = String.ofList word := by
  rw [text, List.append_assoc, cut_append_of_before _ (by simp), Nat.zero_add,
    cut_append_of_within _ (Nat.le_refl _) (Nat.le_refl _), cut_of_behind _ (Nat.le_refl _),
    List.append_nil]

end Span

namespace Lexeme

theorem scan_cons (start : Nat) (c : Char) (rest : List Char) :
    scan start (c :: rest) =
      if isBlank c then scan (start + c.utf8Size) rest
      else
        let tail := rest.takeWhile (goesOn c rest)
        let stop := start + CodePoint.byteLength (c :: tail)
        ⟨⟨start, stop⟩, Token.ofLexeme c tail⟩ :: scan stop (rest.dropWhile (goesOn c rest)) := by
  rw [scan]

/-- A lexeme of a text is a run of its characters, at the bytes of the run. -/
theorem exists_run_of_mem_scan {start : Nat} {text : List Char} {lexeme : Lexeme}
    (member : lexeme ∈ scan start text) :
    ∃ front c tail rest, text = front ++ c :: tail ++ rest ∧
      lexeme.span.start = start + CodePoint.byteLength front ∧
      lexeme.span.stop = lexeme.span.start + CodePoint.byteLength (c :: tail) ∧
      lexeme.reading = Token.ofLexeme c tail := by
  fun_induction scan start text with
  | case1 => cases member
  | case2 start c rest blank ih =>
    obtain ⟨front, d, tail, back, rfl, place, size, reading⟩ := ih member
    refine ⟨c :: front, d, tail, back, rfl, ?_, size, reading⟩
    rw [place, CodePoint.byteLength_cons, Nat.add_assoc]
  | case3 start c rest blank tail stop ih =>
    have split : c :: rest = c :: tail ++ rest.dropWhile (goesOn c rest) := by
      rw [List.cons_append, List.takeWhile_append_dropWhile]
    rcases List.mem_cons.mp member with rfl | later
    · exact ⟨[], c, tail, _, split, rfl, rfl, rfl⟩
    · obtain ⟨front, d, tail', back, behind, place, size, reading⟩ := ih later
      refine ⟨c :: tail ++ front, d, tail', back, ?_, ?_, size, reading⟩
      · rw [split, behind, List.append_assoc, List.append_assoc, List.append_assoc]
      · rw [place, CodePoint.byteLength_append, ← Nat.add_assoc]

/-- What stands at the span of a lexeme is what the lexeme was read from. -/
theorem exists_text_of_mem_ofLine {line : List Char} {lexeme : Lexeme}
    (member : lexeme ∈ ofLine line) :
    ∃ c tail, lexeme.span.text line = String.ofList (c :: tail) ∧
      lexeme.reading = Token.ofLexeme c tail := by
  obtain ⟨front, c, tail, rest, rfl, place, size, reading⟩ := exists_run_of_mem_scan member
  have bytes : lexeme.span = ⟨CodePoint.byteLength front,
      CodePoint.byteLength front + CodePoint.byteLength (c :: tail)⟩ := by
    rw [Nat.zero_add] at place
    rw [← place, ← size]
  exact ⟨c, tail, by rw [bytes, Span.text_append], reading⟩

def fault? (lexeme : Lexeme) : Option (LexicalFault × Span) :=
  match lexeme.reading with
  | .error fault => some (fault, lexeme.span)
  | .ok _ => none

def faults (line : List Char) : List (LexicalFault × Span) :=
  (ofLine line).filterMap fault?

end Lexeme

namespace Token

inductive Reads (c : Char) (tail : List Char) : Token → Prop
  | comment (opens : c = ';') : Reads c tail .comment
  | numeral {n : Numeral} (reads : Numeral.ofText (c :: tail) = .ok n) : Reads c tail (.numeral n)
  | register (r : Reg) : Reads c tail (.register r)
  | name : Reads c tail (.name (String.ofList (c :: tail)))
  | symbol {token : Token}
      (symbol : token ∈ [.colon, .comma, .openParen, .closeParen, .plus, .minus]) :
      Reads c tail token

theorem mem_of_ofSymbol {c : Char} {token : Token} (reads : ofSymbol c = .ok token) :
    token ∈ [.colon, .comma, .openParen, .closeParen, .plus, .minus] := by
  revert reads
  fun_cases ofSymbol c with
  | case7 => nofun
  | _ =>
    intro reads
    cases reads
    decide

theorem exists_register_of_ofRegisterNumber {number : List Char} {token : Token}
    (reads : ofRegisterNumber number = .ok token) : ∃ r, token = register r := by
  revert reads
  fun_cases ofRegisterNumber number with
  | case1 =>
    intro reads
    cases reads
    exact ⟨_, rfl⟩
  | _ => nofun

theorem reads_of_ofLexeme {c : Char} {tail : List Char} {token : Token}
    (lexed : ofLexeme c tail = .ok token) : Reads c tail token := by
  revert lexed
  fun_cases ofLexeme c tail with
  | case1 comment =>
    intro lexed
    cases lexed
    exact .comment comment
  | case2 =>
    cases reads : Numeral.ofText (c :: tail) with
    | error fault => nofun
    | ok n =>
      intro lexed
      cases lexed
      exact .numeral reads
  | case3 =>
    intro lexed
    obtain ⟨r, rfl⟩ := exists_register_of_ofRegisterNumber lexed
    exact .register r
  | case4 =>
    intro lexed
    cases lexed
    exact .name
  | case5 => exact fun lexed => .symbol (mem_of_ofSymbol lexed)

theorem eq_of_ofLexeme {c : Char} {tail : List Char} {text : String}
    (lexed : ofLexeme c tail = .ok (name text)) : text = String.ofList (c :: tail) := by
  cases reads_of_ofLexeme lexed with
  | name => rfl
  | symbol symbol => simp at symbol

theorem ofText_of_ofLexeme {c : Char} {tail : List Char} {n : Numeral}
    (lexed : ofLexeme c tail = .ok (numeral n)) : Numeral.ofText (c :: tail) = .ok n := by
  cases reads_of_ofLexeme lexed with
  | numeral reads => exact reads
  | symbol symbol => simp at symbol

end Token

structure Piece where
  token : Token
  text : String
  deriving DecidableEq, Repr

/-- The token of a lexeme of a line, unless that is a comment or has a fault. -/
def Lexeme.piece? (line : List Char) (lexeme : Lexeme) : Option Piece :=
  match lexeme.reading with
  | .ok .comment | .error _ => none
  | .ok token => some ⟨token, lexeme.span.text line⟩

namespace Line

def pieces (line : List Char) : List Piece :=
  (Lexeme.ofLine line).filterMap (Lexeme.piece? line)

theorem exists_lexeme_of_mem_pieces {line : List Char} {piece : Piece}
    (member : piece ∈ pieces line) :
    ∃ c tail, piece.text = String.ofList (c :: tail) ∧
      Token.ofLexeme c tail = .ok piece.token := by
  obtain ⟨lexeme, inside, made⟩ := List.mem_filterMap.mp member
  obtain ⟨c, tail, text, reading⟩ := Lexeme.exists_text_of_mem_ofLine inside
  unfold Lexeme.piece? at made
  split at made
  · cases made
  · cases made
  · rename_i token _ reads
    cases made
    exact ⟨c, tail, text, reading.symm.trans reads⟩

theorem name_eq_text {line : List Char} {piece : Piece} (member : piece ∈ pieces line)
    {name : String} (token : piece.token = .name name) : name = piece.text := by
  obtain ⟨c, tail, text, reads⟩ := exists_lexeme_of_mem_pieces member
  rw [token] at reads
  rw [text, Token.eq_of_ofLexeme reads]

end Line

end Gumnut
