import Gumnut.Proofs.FirstFault
import Gumnut.Proofs.Grammar
import Gumnut.Proofs.Partition
import Gumnut.Proofs.SourceLines

/-!
# The places of errors

Where an error is said to be. The place of a syntax fault is cut out of its line: it does not end
before it begins, both ends are within the line and neither is inside a character. A source names
the first of its lines that is none, with the fault and the place that this line has by itself; and
an error of the program names a line of the source.

Reading a line blames the next token or the end of the line, but for an operand too many, which
is blamed from its first token to the one behind it. So what has to be known of the places is that
those of the tokens are usable and ascend.
-/
set_option autoImplicit false

namespace Gumnut

open CodePoint (byteLength)

theorem map_eq_ok_iff {ε α β : Type} {result : Except ε α} {f : α → β} {b : β} :
    result.map f = .ok b ↔ ∃ a, result = .ok a ∧ f a = b := by
  cases result <;> simp [Except.map]

theorem map_eq_error_iff {ε α β : Type} {result : Except ε α} {f : α → β} {error : ε} :
    result.map f = .error error ↔ result = .error error := by
  cases result <;> simp [Except.map]

/-- Whether a byte of a line is at the front of a character, or at the end of the line. -/
def IsBoundary (line : List Char) (byte : Nat) : Prop :=
  ∃ front back, line = front ++ back ∧ byteLength front = byte

structure Span.Usable (span : Span) (line : List Char) : Prop where
  ordered : span.start ≤ span.stop
  within : span.stop ≤ byteLength line
  starts : IsBoundary line span.start
  stops : IsBoundary line span.stop

theorem IsBoundary.stop (line : List Char) : IsBoundary line (byteLength line) :=
  ⟨line, [], (List.append_nil line).symm, rfl⟩

theorem Lexeme.usable_of_mem {line : List Char} {lexeme : Lexeme} (member : lexeme ∈ ofLine line) :
    lexeme.span.Usable line := by
  obtain ⟨filled, within⟩ := bounds_of_mem member
  obtain ⟨front, word, back, rfl, start, stop, -⟩ := exists_taken_of_mem member
  exact {
    ordered := Nat.le_of_lt filled
    within := within
    starts := ⟨front, word ++ back, List.append_assoc .., start.symm⟩
    stops := ⟨front ++ word, back, rfl, stop.symm⟩ }

namespace Line

/-! ## What is blamed -/

/-- The places that reading some tokens of a line that ends at byte `stop` may blame. -/
inductive Blames (stop : Nat) (tokens : Tokens) : Span → Prop
  | next {later : Tokens} (behind : later <:+ tokens) : Blames stop tokens (here stop later)
  | between {first rest : Tokens} (ends : rest <:+ first) (behind : first <:+ tokens) :
      Blames stop tokens ⟨(here stop first).start, (here stop rest).start⟩

variable {stop : Nat} {tokens later : Tokens} {fault : SyntaxFault} {span : Span}

theorem Blames.of_suffix (blames : Blames stop later span) (behind : later <:+ tokens) :
    Blames stop tokens span := by
  cases blames with
  | next inner => exact .next (inner.trans behind)
  | between ends inner => exact .between ends (inner.trans behind)

theorem blames_of_readIndexBase (fails : readIndexBase stop tokens = .error (fault, span)) :
    Blames stop tokens span := by
  revert fails
  fun_cases readIndexBase stop tokens with
  | case3 =>
    intro fails
    cases fails
    exact .next (List.suffix_refl _)
  | _ =>
    intro fails
    cases fails

theorem blames_of_readClosing (fails : readClosing stop tokens = .error (fault, span)) :
    Blames stop tokens span := by
  revert fails
  fun_cases readClosing stop tokens with
  | case2 =>
    intro fails
    cases fails
    exact .next (List.suffix_refl _)
  | _ =>
    intro fails
    cases fails

theorem blames_of_readSignedOffset {negative : Bool}
    (fails : readSignedOffset stop negative tokens = .error (fault, span)) :
    Blames stop tokens span := by
  revert fails
  fun_cases readSignedOffset stop negative tokens with
  | case3 =>
    intro fails
    cases fails
    exact .next (List.suffix_refl _)
  | _ =>
    intro fails
    cases fails

theorem blames_of_readOffset (fails : readOffset stop tokens = .error (fault, span)) :
    Blames stop tokens span := by
  revert fails
  fun_cases readOffset stop tokens with
  | case1 | case2 =>
    intro fails
    exact (blames_of_readSignedOffset fails).of_suffix (List.suffix_cons _ _)
  | _ =>
    intro fails
    cases fails

theorem blames_of_readOperand (fails : readOperand stop tokens = .error (fault, span)) :
    Blames stop tokens span := by
  revert fails
  fun_cases readOperand stop tokens with
  | case4 place rest failure refused =>
    intro fails
    cases fails
    exact (blames_of_readIndexBase refused).of_suffix (List.suffix_cons _ _)
  | case5 place rest base inner based failure refused =>
    intro fails
    cases fails
    obtain ⟨_, _, rfl, -⟩ := base_of_readIndexBase based
    refine (blames_of_readClosing refused).of_suffix ?_
    exact (List.suffix_cons _ _).trans (List.suffix_cons _ _)
  | case6 place rest base inner based closing closed failure refused =>
    intro fails
    cases fails
    obtain ⟨_, _, rfl, -⟩ := base_of_readIndexBase based
    obtain ⟨_, rfl⟩ := eq_of_readClosing closed
    refine (blames_of_readOffset refused).of_suffix ?_
    exact ((List.suffix_cons _ _).trans (List.suffix_cons _ _)).trans (List.suffix_cons _ _)
  | case8 =>
    intro fails
    cases fails
    exact .next (List.suffix_refl _)
  | _ =>
    intro fails
    cases fails

theorem suffix_of_readOperand {places : List Operand}
    (reads : readOperand stop tokens = .ok (places, later)) : later <:+ tokens := by
  obtain ⟨front, rfl, -⟩ := fills_of_readOperand reads
  exact List.suffix_append front later

/-- Of the operands of a line either one goes wrong by itself, or what is behind it does. -/
theorem blames_of_readOperands {read : List Operand}
    (fails : readOperands stop read tokens = .error (fault, span)) : Blames stop tokens span := by
  revert fails
  fun_induction readOperands stop read tokens with
  | case1 read tokens failure refused =>
    intro fails
    cases fails
    exact blames_of_readOperand refused
  | case2 read tokens places rest taken excess =>
    intro fails
    cases fails
    exact .between (suffix_of_readOperand taken) (List.suffix_refl _)
  | case3 =>
    intro fails
    cases fails
  | case4 read tokens places fit place rest _ taken ih =>
    intro fails
    refine (ih fails).of_suffix ?_
    exact (List.suffix_cons _ _).trans (suffix_of_readOperand taken)
  | case5 read tokens places fit token place rest taken =>
    intro fails
    cases fails
    exact .next (suffix_of_readOperand taken)

theorem blames_of_readInstruction {label : Option String}
    (fails : readInstruction stop label tokens = .error (fault, span)) :
    Blames stop tokens span := by
  revert fails
  fun_cases readInstruction stop label tokens with
  | case3 name place rest mnemonic failure refused =>
    intro fails
    cases fails
    exact (blames_of_readOperands refused).of_suffix (List.suffix_cons _ _)
  | case5 =>
    intro fails
    cases fails
    exact .next (List.suffix_refl _)
  | _ =>
    intro fails
    cases fails

theorem suffix_readLabel (tokens : Tokens) : (readLabel tokens).2 <:+ tokens := by
  fun_cases readLabel tokens with
  | case1 => exact (List.suffix_cons _ _).trans (List.suffix_cons _ _)
  | case2 => exact List.suffix_refl _

theorem blames_of_ofTokens (fails : ofTokens stop tokens = .error (fault, span)) :
    Blames stop tokens span :=
  (blames_of_readInstruction fails).of_suffix (suffix_readLabel tokens)

/-! ## What is blamed is usable -/

structure Placed (line : List Char) (tokens : Tokens) : Prop where
  usable : ∀ token ∈ tokens, token.2.Usable line
  ascending : tokens.Pairwise fun earlier later => earlier.2.stop ≤ later.2.start

namespace Placed

variable {line : List Char} {rest : Tokens}

theorem of_suffix (placed : Placed line tokens) (behind : later <:+ tokens) :
    Placed line later where
  usable token member := placed.usable token (behind.subset member)
  ascending := placed.ascending.sublist behind.sublist

theorem here_usable (placed : Placed line tokens) :
    (here (byteLength line) tokens).Usable line := by
  cases tokens with
  | nil =>
    exact {
      ordered := Nat.le_refl _
      within := Nat.le_refl _
      starts := .stop line
      stops := .stop line }
  | cons token tokens => exact placed.usable token List.mem_cons_self

theorem start_le (placed : Placed line tokens) (behind : rest <:+ tokens) :
    (here (byteLength line) tokens).start ≤ (here (byteLength line) rest).start := by
  have within := (placed.of_suffix behind).here_usable
  cases tokens with
  | nil =>
    obtain rfl := List.suffix_nil.mp behind
    exact Nat.le_refl _
  | cons token tokens =>
    have first : token.2.Usable line := placed.usable token List.mem_cons_self
    rcases List.suffix_cons_iff.mp behind with rfl | behind
    · exact Nat.le_refl _
    · refine first.ordered.trans ?_
      cases rest with
      | nil => exact first.within
      | cons next rest =>
        exact List.rel_of_pairwise_cons placed.ascending (behind.subset List.mem_cons_self)

theorem usable_of_blames (placed : Placed line tokens)
    (blames : Blames (byteLength line) tokens span) : span.Usable line := by
  cases blames with
  | next behind => exact (placed.of_suffix behind).here_usable
  | between ends behind =>
    have opening := (placed.of_suffix behind).here_usable
    have closing := (placed.of_suffix (ends.trans behind)).here_usable
    exact {
      ordered := (placed.of_suffix behind).start_le ends
      within := closing.ordered.trans closing.within
      starts := opening.starts
      stops := closing.starts }

end Placed

theorem sublist_of_tokens {lexemes : List Lexeme} (found : Line.tokens lexemes = .ok tokens) :
    (tokens.map Prod.snd).Sublist (lexemes.map Lexeme.span) := by
  revert found
  fun_induction Line.tokens lexemes generalizing tokens with
  | case1 =>
    intro found
    cases found
    exact .slnil
  | case2 =>
    intro found
    cases found
  | case3 place rest ih => exact fun found => (ih found).cons place
  | case4 place token rest plain ih =>
    intro found
    obtain ⟨others, behind, rfl⟩ := map_eq_ok_iff.mp found
    exact (ih behind).cons_cons place

theorem exists_lexeme_of_tokens {lexemes : List Lexeme}
    (fails : Line.tokens lexemes = .error (fault, span)) :
    ∃ lexeme ∈ lexemes, lexeme.span = span := by
  revert fails
  fun_induction Line.tokens lexemes with
  | case1 =>
    intro fails
    cases fails
  | case2 place reason rest =>
    intro fails
    cases fails
    exact ⟨_, List.mem_cons_self, rfl⟩
  | case3 place rest ih =>
    intro fails
    obtain ⟨lexeme, member, same⟩ := ih fails
    exact ⟨lexeme, List.mem_cons_of_mem _ member, same⟩
  | case4 place token rest plain ih =>
    intro fails
    obtain ⟨lexeme, member, same⟩ := ih (map_eq_error_iff.mp fails)
    exact ⟨lexeme, List.mem_cons_of_mem _ member, same⟩

theorem placed_of_tokens {line : List Char}
    (found : Line.tokens (Lexeme.ofLine line) = .ok tokens) : Placed line tokens := by
  have places := sublist_of_tokens found
  have ascending := (Lexeme.partition_scan 0 line).pairwise
  constructor
  · intro token member
    obtain ⟨lexeme, inside, same⟩ :=
      List.mem_map.mp (places.subset (List.mem_map_of_mem member))
    exact same ▸ Lexeme.usable_of_mem inside
  · have spans : ((Lexeme.ofLine line).map Lexeme.span).Pairwise
        fun earlier later => earlier.stop ≤ later.start := List.pairwise_map.mpr ascending
    exact List.pairwise_map.mp (spans.sublist places)

theorem usable_of_parse {line : List Char} (fails : parse line = .error (fault, span)) :
    span.Usable line := by
  unfold parse at fails
  split at fails
  · rename_i failure refused
    cases fails
    obtain ⟨lexeme, member, rfl⟩ := exists_lexeme_of_tokens refused
    exact Lexeme.usable_of_mem member
  · rename_i tokens found
    exact (placed_of_tokens found).usable_of_blames (blames_of_ofTokens fails)

end Line

/-! ## The line that is named -/

/-- The first of some lines that has no record, and how reading it fails. -/
structure Source.FirstFailure (texts : List (List Char)) (number : Nat) (failure : Line.Failure) :
    Prop where
  below : number < texts.length
  fails : Line.parse texts[number] = .error failure
  before : ∀ text ∈ texts.take number, ∃ record, Line.parse text = .ok record

namespace Source

variable {text : List Char} {texts rest : List (List Char)} {number : Nat} {failure : Line.Failure}

theorem firstFailure_zero_iff :
    FirstFailure (text :: rest) 0 failure ↔ Line.parse text = .error failure :=
  ⟨fun first => first.fails, fun fails => ⟨Nat.succ_pos _, fails, by simp⟩⟩

theorem firstFailure_succ_iff :
    FirstFailure (text :: rest) (number + 1) failure ↔
      (∃ record, Line.parse text = .ok record) ∧ FirstFailure rest number failure := by
  constructor
  · rintro ⟨below, fails, before⟩
    rw [List.take_succ_cons, List.forall_mem_cons] at before
    exact ⟨before.1, Nat.lt_of_succ_lt_succ below, fails, before.2⟩
  · rintro ⟨own, below, fails, before⟩
    refine ⟨Nat.succ_lt_succ below, fails, ?_⟩
    rw [List.take_succ_cons, List.forall_mem_cons]
    exact ⟨own, before⟩

theorem exists_firstFailure_cons_iff {line : Nat} :
    (∃ count, line = number + count ∧ FirstFailure (text :: rest) count failure) ↔
      (line = number ∧ Line.parse text = .error failure) ∨
      (∃ record, Line.parse text = .ok record) ∧
        ∃ count, line = number + 1 + count ∧ FirstFailure rest count failure := by
  constructor
  · rintro ⟨count, place, first⟩
    cases count with
    | zero => exact .inl ⟨place, firstFailure_zero_iff.mp first⟩
    | succ count =>
      obtain ⟨own, first⟩ := firstFailure_succ_iff.mp first
      exact .inr ⟨own, count, by omega, first⟩
  · rintro (⟨place, fails⟩ | ⟨own, count, place, first⟩)
    · exact ⟨0, place, firstFailure_zero_iff.mpr fails⟩
    · exact ⟨count + 1, by omega, firstFailure_succ_iff.mpr ⟨own, first⟩⟩

/-- Lines of a source fail to be records with the first of them that does, at its number. -/
theorem readLines_eq_error_iff {error : SyntaxError} :
    readLines number texts = .error error ↔
      ∃ count, error.line = number + count ∧
        FirstFailure texts count (error.fault, error.span) := by
  induction texts generalizing number with
  | nil =>
    constructor
    · intro fails
      cases fails
    · rintro ⟨count, -, first⟩
      exact absurd first.below (Nat.not_lt_zero count)
  | cons text rest ih =>
    rw [readLines, exists_firstFailure_cons_iff]
    cases own : Line.parse text with
    | error failure =>
      obtain ⟨fault, line, span⟩ := error
      simp [Prod.ext_iff, eq_comm, and_left_comm]
    | ok record =>
      rw [map_eq_error_iff, ih]
      simp

theorem parse_eq_error_iff {source : String} {error : SyntaxError} :
    parse source = .error error ↔
      FirstFailure (Lines.split source.toList) error.line (error.fault, error.span) := by
  rw [parse, readLines_eq_error_iff]
  simp

end Source

namespace Image

theorem line_lt_length {lines : List Line} {error : AssemblyError}
    (fails : ofLines lines = .error error) : error.line < lines.length := by
  rcases ofLines_eq_error fails with stops | ⟨-, name, -, first⟩
  · obtain ⟨before, line, behind, next, rfl, place, -⟩ := Draft.placeAll_error stops
    rw [place, List.length_append, List.length_cons]
    omega
  · obtain ⟨line, here, -⟩ := first.here
    exact (List.getElem?_eq_some_iff.mp here).1

/-- An error of a program is the syntax error of its source, or the source has records and the
error is one of assembling them. -/
theorem ofSource_eq_error_iff {source : String} {error : AssemblyError} :
    ofSource source = .error error ↔
      (∃ failure, Source.parse source = .error failure ∧ error = .ofSyntax failure) ∨
        ∃ lines, Source.parse source = .ok lines ∧ ofLines lines = .error error := by
  unfold ofSource
  cases Source.parse source with
  | error failure => simp [eq_comm]
  | ok lines => simp

theorem line_lt_length_split {source : String} {error : AssemblyError}
    (fails : ofSource source = .error error) :
    error.line < (Lines.split source.toList).length := by
  rcases ofSource_eq_error_iff.mp fails with ⟨failure, refused, rfl⟩ | ⟨lines, parses, fails⟩
  · exact (Source.parse_eq_error_iff.mp refused).below
  · rw [(Source.parse_eq_ok_iff.mp parses).length_eq]
    exact line_lt_length fails

/-- A line without a record decides about the program. -/
theorem ofSource_of_failure {source : String} {text : List Char} {failure : Line.Failure}
    (member : text ∈ Lines.split source.toList) (fails : Line.parse text = .error failure) :
    ∃ error, Source.parse source = .error error ∧ ofSource source = .error (.ofSyntax error) := by
  cases parsed : Source.parse source with
  | error error => exact ⟨error, rfl, by rw [ofSource, parsed]⟩
  | ok records =>
    obtain ⟨number, inside, rfl⟩ := List.getElem_of_mem member
    have all := Source.parse_eq_ok_iff.mp parsed
    have reads := all.get inside (all.length_eq ▸ inside)
    exact nomatch fails.symm.trans reads

/-- The place of an error can be shown. The span of a line that has no record can be cut out of it.
A source fails with the first of its lines that has no record, as that line fails by itself. An
error of a program names a line of its source; and if any line has no record, then that is the
error. -/
theorem errors_placed (source : String) :
    (∀ line fault span, Line.parse line = .error (fault, span) → span.Usable line) ∧
    (∀ error, Source.parse source = .error error ↔
      Source.FirstFailure (Lines.split source.toList) error.line (error.fault, error.span)) ∧
    (∀ error, ofSource source = .error error → error.line < (Lines.split source.toList).length) ∧
    ∀ text ∈ Lines.split source.toList, ∀ failure, Line.parse text = .error failure →
      ∃ error, Source.parse source = .error error ∧
        ofSource source = .error (.ofSyntax error) := by
  refine ⟨fun line fault span fails => Line.usable_of_parse fails,
    fun error => Source.parse_eq_error_iff, fun error fails => line_lt_length_split fails,
    fun text member failure fails => ofSource_of_failure member fails⟩

/-- Operands in four places, on the second line, behind a label with a letter of two bytes and in
front of a comment. -/
def overfull : String :=
  "ret\r\naµ: add r1, 1, (b) + 2 ; ¶"

theorem errors_placed_tooMany :
    ∃ error : SyntaxError, error = ⟨.tooManyOperands, 1, ⟨16, 28⟩⟩ ∧
      Source.parse overfull = .error error ∧
      ofSource overfull = .error (.ofSyntax error) ∧
      Source.FirstFailure (Lines.split overfull.toList) error.line (error.fault, error.span) ∧
      ∃ text, (Lines.split overfull.toList)[error.line]? = some text ∧ error.span.Usable text := by
  obtain ⟨usable, first, -, decides⟩ := errors_placed overfull
  have here : (Lines.split overfull.toList)[1]? = some "aµ: add r1, 1, (b) + 2 ; ¶".toList := by
    decide +kernel
  have fails : Line.parse "aµ: add r1, 1, (b) + 2 ; ¶".toList =
      .error (.tooManyOperands, ⟨16, 28⟩) := by
    decide +kernel
  have found : Source.parse overfull = .error ⟨.tooManyOperands, 1, ⟨16, 28⟩⟩ := by
    decide +kernel
  obtain ⟨error, parses, refuses⟩ := decides _ (List.mem_of_getElem? here) _ fails
  cases parses.symm.trans found
  exact ⟨_, rfl, found, refuses, (first _).mp found, _, here, usable _ _ _ fails⟩

end Image

end Gumnut
