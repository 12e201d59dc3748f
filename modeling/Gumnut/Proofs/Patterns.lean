import Gumnut.Proofs.Spelling
import Mathlib.Computability.Language
import Mathlib.Data.List.TakeWhile

/-!
# The patterns of tokens

Each kind of token has a pattern, a regular set of texts. What is taken from the front of a text is
the longest of its prefixes that is in a pattern, as a register if it may be a register or a name,
and a single character where no prefix is in any. These rules determine what is taken.
-/
set_option autoImplicit false

open scoped Computability

namespace Gumnut

def charClass (p : Char → Bool) : Language Char :=
  {text | ∃ c, p c = true ∧ text = [c]}

inductive Symbol where
  | colon
  | comma
  | openParen
  | closeParen
  | plus
  | minus
  deriving DecidableEq, Repr

namespace Symbol

def char : Symbol → Char
  | colon => ':'
  | comma => ','
  | openParen => '('
  | closeParen => ')'
  | plus => '+'
  | minus => '-'

def token : Symbol → Token
  | colon => .colon
  | comma => .comma
  | openParen => .openParen
  | closeParen => .closeParen
  | plus => .plus
  | minus => .minus

theorem char_inj {s s' : Symbol} (same : s.char = s'.char) : s = s' := by
  revert same
  cases s <;> cases s' <;> decide

end Symbol

inductive Pattern where
  | numeral
  | register
  | name
  | symbol (symbol : Symbol)
  | comment
  deriving DecidableEq, Repr

namespace Pattern

def language : Pattern → Language Char
  | numeral => (1 + charClass Token.isSign) *
      (charClass WordChar.isDigit * (charClass Token.isTail)∗)
  | register => charClass (fun c => c == 'r' || c == 'R') *
      (charClass WordChar.isDigit * (charClass WordChar.isDigit)∗)
  | name => charClass WordChar.isNameStart * (charClass Token.isTail)∗
  | symbol s => {[s.char]}
  | comment => charClass (· == ';') * (charClass (· != '\n'))∗

def read (word : List Char) : Pattern → Except LexicalFault Token
  | numeral => (Numeral.ofText word).map .numeral
  | register => Token.ofRegisterNumber word.tail
  | name => .ok (.name (String.ofList word))
  | symbol s => .ok s.token
  | comment => .ok .comment

end Pattern

/-- The longest prefix of a text that is in a pattern, and the pattern that it is read by. -/
structure Longest (text word : List Char) (pattern : Pattern) : Prop where
  isPrefix : word <+: text
  matched : word ∈ pattern.language
  longest (other : Pattern) : ∀ word' ∈ other.language, word' <+: text →
    word'.length ≤ word.length
  preferred (other : Pattern) : word ∈ other.language →
    other = pattern ∨ (other = .name ∧ pattern = .register)

/-- What is taken from the front of a text, and what it reads as. -/
inductive Taken (text : List Char) : List Char → Except LexicalFault Token → Prop
  | matched {word : List Char} {pattern : Pattern} (longest : Longest text word pattern) :
      Taken text word (pattern.read word)
  | stray {c : Char} {rest : List Char} (opens : text = c :: rest)
      (filled : Lexeme.isBlank c = false)
      (unmatched : ∀ pattern : Pattern, ∀ word ∈ pattern.language, ¬ word <+: text) :
      Taken text [c] (.error .unknownSymbol)

/-! ## Matching -/

theorem mem_kstar_charClass {p : Char → Bool} {text : List Char} :
    text ∈ (charClass p)∗ ↔ ∀ c ∈ text, p c = true := by
  rw [Language.mem_kstar]
  constructor
  · rintro ⟨pieces, rfl, classes⟩ c member
    obtain ⟨piece, inside, here⟩ := List.mem_flatten.mp member
    obtain ⟨d, holds, rfl⟩ := classes piece inside
    rwa [List.mem_singleton.mp here]
  · intro all
    refine ⟨text.map fun c => [c], (List.flatMap_singleton' text).symm, ?_⟩
    intro piece member
    obtain ⟨c, inside, rfl⟩ := List.mem_map.mp member
    exact ⟨c, all c inside, rfl⟩

theorem mem_charClass_mul {p : Char → Bool} {l : Language Char} {text : List Char} :
    text ∈ charClass p * l ↔ ∃ c tail, text = c :: tail ∧ p c = true ∧ tail ∈ l := by
  rw [Language.mem_mul]
  constructor
  · rintro ⟨_, ⟨c, holds, rfl⟩, tail, member, rfl⟩
    exact ⟨c, tail, rfl, holds, member⟩
  · rintro ⟨c, tail, rfl, holds, member⟩
    exact ⟨[c], ⟨c, holds, rfl⟩, tail, member, rfl⟩

def Pattern.Goes (c : Char) (tail : List Char) : Pattern → Prop
  | numeral => (WordChar.isDigit c = true ∧ ∀ d ∈ tail, Token.isTail d = true) ∨
      (Token.isSign c = true ∧ ∃ d rest, tail = d :: rest ∧ WordChar.isDigit d = true ∧
        ∀ e ∈ rest, Token.isTail e = true)
  | register => (c = 'r' ∨ c = 'R') ∧ tail ≠ [] ∧ ∀ d ∈ tail, WordChar.isDigit d = true
  | name => WordChar.isNameStart c = true ∧ ∀ d ∈ tail, Token.isTail d = true
  | symbol s => c = s.char ∧ tail = []
  | comment => c = ';' ∧ ∀ d ∈ tail, d ≠ '\n'

theorem mem_language_iff {pattern : Pattern} {word : List Char} :
    word ∈ pattern.language ↔ ∃ c tail, word = c :: tail ∧ pattern.Goes c tail := by
  cases pattern with
  | numeral =>
    simp only [Pattern.language, add_mul, one_mul, Language.mem_add, mem_charClass_mul,
      mem_kstar_charClass, Pattern.Goes]
    constructor
    · rintro (⟨c, tail, rfl, digit, all⟩ | ⟨c, _, rfl, sign, d, tail, rfl, digit, all⟩)
      · exact ⟨c, tail, rfl, .inl ⟨digit, all⟩⟩
      · exact ⟨c, d :: tail, rfl, .inr ⟨sign, d, tail, rfl, digit, all⟩⟩
    · rintro ⟨c, tail, rfl, ⟨digit, all⟩ | ⟨sign, d, rest, rfl, digit, all⟩⟩
      · exact .inl ⟨c, tail, rfl, digit, all⟩
      · exact .inr ⟨c, d :: rest, rfl, sign, d, rest, rfl, digit, all⟩
  | register =>
    simp only [Pattern.language, mem_charClass_mul, mem_kstar_charClass, Pattern.Goes,
      Bool.or_eq_true, beq_iff_eq]
    constructor
    · rintro ⟨c, _, rfl, letter, d, tail, rfl, digit, all⟩
      exact ⟨c, d :: tail, rfl, letter, nofun, List.forall_mem_cons.mpr ⟨digit, all⟩⟩
    · rintro ⟨c, tail, rfl, letter, filled, all⟩
      cases tail with
      | nil => exact absurd rfl filled
      | cons d tail =>
        rw [List.forall_mem_cons] at all
        exact ⟨c, d :: tail, rfl, letter, d, tail, rfl, all.1, all.2⟩
  | name =>
    simp only [Pattern.language, mem_charClass_mul, mem_kstar_charClass, Pattern.Goes]
  | symbol s =>
    constructor
    · rintro rfl
      exact ⟨s.char, [], rfl, rfl, rfl⟩
    · rintro ⟨c, tail, rfl, rfl, rfl⟩
      rfl
  | comment =>
    simp only [Pattern.language, mem_charClass_mul, mem_kstar_charClass, Pattern.Goes, beq_iff_eq,
      bne_iff_ne]

theorem cons_mem_language_iff {pattern : Pattern} {c : Char} {tail : List Char} :
    c :: tail ∈ pattern.language ↔ pattern.Goes c tail := by
  rw [mem_language_iff]
  constructor
  · rintro ⟨_, _, ⟨⟩, goes⟩
    exact goes
  · exact fun goes => ⟨c, tail, rfl, goes⟩

/-! ## First characters -/

section
variable {c : Char}

theorem apart_of_isNameStart (opens : WordChar.isNameStart c = true) :
    WordChar.isDigit c = false ∧ Token.isSign c = false ∧ (∀ s : Symbol, c ≠ s.char) ∧ c ≠ ';' := by
  refine ⟨WordChar.not_isDigit_of_isNameStart opens, ?_, ?_,
    (Lexeme.not_isBlank_of_opens (.inl opens)).2⟩
  · rw [Bool.eq_false_iff, Token.isSign, ne_eq, Bool.or_eq_true, beq_iff_eq, beq_iff_eq]
    rintro (rfl | rfl)
    · exact absurd opens (by decide)
    · exact absurd opens (by decide)
  · rintro s rfl
    exact absurd opens (by cases s <;> decide)

theorem apart_of_isDigit (digit : WordChar.isDigit c = true) :
    WordChar.isNameStart c = false ∧ Token.isSign c = false ∧ (∀ s : Symbol, c ≠ s.char) ∧
      c ≠ ';' := by
  refine ⟨?_, ?_, ?_, (Lexeme.not_isBlank_of_opens (.inr digit)).2⟩
  · rw [Bool.eq_false_iff]
    intro opens
    rw [WordChar.not_isDigit_of_isNameStart opens] at digit
    cases digit
  · rw [Bool.eq_false_iff, Token.isSign, ne_eq, Bool.or_eq_true, beq_iff_eq, beq_iff_eq]
    rintro (rfl | rfl)
    · exact absurd digit (by decide)
    · exact absurd digit (by decide)
  · rintro s rfl
    exact absurd digit (by cases s <;> decide)

theorem ofSymbol_cases (c : Char) :
    (∃ s : Symbol, c = s.char ∧ Token.ofSymbol c = .ok s.token) ∨
    ((∀ s : Symbol, c ≠ s.char) ∧ Token.ofSymbol c = .error .unknownSymbol) := by
  by_cases listed : ∃ s : Symbol, c = s.char
  · obtain ⟨s, rfl⟩ := listed
    exact .inl ⟨s, rfl, by cases s <;> rfl⟩
  · rw [not_exists] at listed
    refine .inr ⟨listed, ?_⟩
    rw [Token.ofSymbol, if_neg (show c ≠ ':' from listed .colon),
      if_neg (show c ≠ ',' from listed .comma), if_neg (show c ≠ '(' from listed .openParen),
      if_neg (show c ≠ ')' from listed .closeParen), if_neg (show c ≠ '+' from listed .plus),
      if_neg (show c ≠ '-' from listed .minus)]

theorem apart_of_isSign (sign : Token.isSign c = true) :
    WordChar.isNameStart c = false ∧ WordChar.isDigit c = false ∧ c ≠ ';' := by
  rw [Token.isSign, Bool.or_eq_true, beq_iff_eq, beq_iff_eq] at sign
  rcases sign with rfl | rfl <;> decide

theorem isTail_of_isDigit (digit : WordChar.isDigit c = true) : Token.isTail c = true := by
  rw [Token.isTail, WordChar.isWord_of_isDigit digit, Bool.true_or]

end

/-! ## What is taken -/

section
variable {c : Char} {rest : List Char} {pattern : Pattern}

theorem length_le_takeWhile {p : Char → Bool} {tail : List Char} (isPrefix : tail <+: rest)
    (all : ∀ d ∈ tail, p d = true) : tail.length ≤ (rest.takeWhile p).length := by
  obtain ⟨back, rfl⟩ := isPrefix
  rw [List.takeWhile_append_of_pos all, List.length_append]
  exact Nat.le_add_right _ _

/-- Where every pattern goes on within a class of characters, all that the class goes on to is the
longest prefix, if a pattern matches it. -/
theorem longest_of_class {p : Char → Bool}
    (within : ∀ (other : Pattern) (tail : List Char), other.Goes c tail → tail <+: rest →
      ∀ d ∈ tail, p d = true)
    (goes : pattern.Goes c (rest.takeWhile p))
    (preferred : ∀ other : Pattern, other.Goes c (rest.takeWhile p) →
      other = pattern ∨ (other = .name ∧ pattern = .register)) :
    Longest (c :: rest) (c :: rest.takeWhile p) pattern where
  isPrefix := (List.prefix_cons_inj c).mpr (List.takeWhile_prefix p)
  matched := cons_mem_language_iff.mpr goes
  longest other word' matched' isPrefix' := by
    obtain ⟨d, tail, rfl, goes'⟩ := mem_language_iff.mp matched'
    obtain ⟨rfl, behind⟩ := List.cons_prefix_cons.mp isPrefix'
    exact Nat.succ_le_succ (length_le_takeWhile behind (within other tail goes' behind))
  preferred other matched' := preferred other (cons_mem_language_iff.mp matched')

theorem taken_comment (rest : List Char) :
    Taken (';' :: rest) (';' :: rest.takeWhile (· != '\n')) (.ok .comment) := by
  have only {other : Pattern} {tail : List Char} (goes : other.Goes ';' tail) :
      other = .comment := by
    cases other with
    | numeral => exact absurd (goes.imp And.left And.left) (by decide)
    | register => exact absurd goes.1 (by decide)
    | name => exact absurd goes.1 (by decide)
    | symbol s => exact absurd goes.1 (by cases s <;> decide)
    | comment => rfl
  have longest : Longest (';' :: rest) (';' :: rest.takeWhile (· != '\n')) .comment := by
    refine longest_of_class ?_ ⟨rfl, ?_⟩ fun other goes => .inl (only goes)
    · intro other tail goes _ d member
      obtain rfl := only goes
      exact bne_iff_ne.mpr (goes.2 d member)
    · intro d member
      have other := List.mem_takeWhile_imp member
      exact bne_iff_ne.mp other
  exact .matched longest

theorem isRegister_iff {tail : List Char} :
    Token.isRegister (c :: tail) = true ↔ Pattern.register.Goes c tail := by
  simp only [Token.isRegister, Pattern.Goes, Bool.and_eq_true, Bool.or_eq_true, beq_iff_eq,
    Bool.not_eq_true', List.isEmpty_eq_false_iff, List.all_eq_true, and_assoc]

theorem goes_of_isNameStart (opens : WordChar.isNameStart c = true) {tail : List Char}
    (goes : pattern.Goes c tail) :
    (pattern = .register ∨ pattern = .name) ∧ ∀ d ∈ tail, Token.isTail d = true := by
  obtain ⟨digit, sign, symbol, comment⟩ := apart_of_isNameStart opens
  cases pattern with
  | numeral =>
    rcases goes with ⟨digit', -⟩ | ⟨sign', -⟩
    · exact absurd digit' (Bool.eq_false_iff.mp digit)
    · exact absurd sign' (Bool.eq_false_iff.mp sign)
  | register => exact ⟨.inl rfl, fun d member => isTail_of_isDigit (goes.2.2 d member)⟩
  | name => exact ⟨.inr rfl, goes.2⟩
  | symbol s => exact absurd goes.1 (symbol s)
  | comment => exact absurd goes.1 comment

theorem taken_word (opens : WordChar.isNameStart c = true) :
    Taken (c :: rest) (c :: rest.takeWhile Token.isTail)
      (Token.ofLexeme c (rest.takeWhile Token.isTail)) := by
  obtain ⟨digit, sign, -, comment⟩ := apart_of_isNameStart opens
  have within (other : Pattern) (tail : List Char) (goes : other.Goes c tail) (_ : tail <+: rest) :
      ∀ d ∈ tail, Token.isTail d = true :=
    (goes_of_isNameStart opens goes).2
  have goesOn : Pattern.name.Goes c (rest.takeWhile Token.isTail) :=
    ⟨opens, fun d => List.mem_takeWhile_imp⟩
  rw [Token.ofLexeme, if_neg comment, digit, sign, if_neg (by simp), if_pos opens]
  split
  · rename_i register
    have longest := longest_of_class within (isRegister_iff.mp register) fun other goes => by
      rcases (goes_of_isNameStart opens goes).1 with rfl | rfl
      · exact .inl rfl
      · exact .inr ⟨rfl, rfl⟩
    exact .matched longest
  · rename_i plain
    have longest := longest_of_class within goesOn fun other goes => by
      rcases (goes_of_isNameStart opens goes).1 with rfl | rfl
      · exact absurd (isRegister_iff.mpr goes) plain
      · exact .inl rfl
    exact .matched longest

theorem goes_of_numeral (opens : WordChar.isDigit c = true ∨ Token.isSign c = true)
    {tail : List Char} (goes : pattern.Goes c tail) :
    (pattern = .numeral ∧ ∀ d ∈ tail, Token.isTail d = true) ∨
      (WordChar.isDigit c = false ∧ tail = []) := by
  have apart : WordChar.isNameStart c = false ∧ c ≠ ';' := by
    rcases opens with digit | sign
    · obtain ⟨name, -, -, comment⟩ := apart_of_isDigit digit
      exact ⟨name, comment⟩
    · obtain ⟨name, -, comment⟩ := apart_of_isSign sign
      exact ⟨name, comment⟩
  cases pattern with
  | numeral =>
    refine .inl ⟨rfl, ?_⟩
    rcases goes with ⟨-, all⟩ | ⟨-, d, rest, rfl, digit, all⟩
    · exact all
    · exact List.forall_mem_cons.mpr ⟨isTail_of_isDigit digit, all⟩
  | register =>
    rcases goes.1 with rfl | rfl
    · exact absurd apart.1 (by decide)
    · exact absurd apart.1 (by decide)
  | name => exact absurd goes.1 (Bool.eq_false_iff.mp apart.1)
  | symbol s =>
    refine .inr ⟨?_, goes.2⟩
    rw [Bool.eq_false_iff]
    intro digit
    obtain ⟨-, -, symbol, -⟩ := apart_of_isDigit digit
    exact symbol s goes.1
  | comment => exact absurd goes.1 apart.2

theorem taken_numeral (opens : Pattern.numeral.Goes c (rest.takeWhile Token.isTail)) :
    Taken (c :: rest) (c :: rest.takeWhile Token.isTail)
      (Token.ofLexeme c (rest.takeWhile Token.isTail)) := by
  have first : WordChar.isDigit c = true ∨ Token.isSign c = true := opens.imp And.left And.left
  have comment : c ≠ ';' := by
    rcases first with digit | sign
    · exact (apart_of_isDigit digit).2.2.2
    · exact (apart_of_isSign sign).2.2
  have filled : (WordChar.isDigit c ||
      (Token.isSign c && !(rest.takeWhile Token.isTail).isEmpty)) = true := by
    rcases opens with ⟨digit, -⟩ | ⟨sign, d, back, more, -⟩
    · rw [digit, Bool.true_or]
    · rw [sign, more]
      exact Bool.or_true _
  have longest : Longest (c :: rest) (c :: rest.takeWhile Token.isTail) .numeral := by
    refine longest_of_class ?_ opens ?_
    · intro other tail goes _
      rcases goes_of_numeral first goes with ⟨-, all⟩ | ⟨-, rfl⟩
      · exact all
      · exact List.forall_mem_nil _
    · intro other goes
      rcases goes_of_numeral first goes with ⟨rfl, -⟩ | ⟨digit, none⟩
      · exact .inl rfl
      · rcases opens with ⟨digit', -⟩ | ⟨-, d, back, more, -⟩
        · exact absurd digit' (Bool.eq_false_iff.mp digit)
        · rw [none] at more
          cases more
  rw [Token.ofLexeme, if_neg comment, if_pos filled]
  exact .matched longest

theorem taken_single (filled : Lexeme.isBlank c = false) (comment : c ≠ ';')
    (name : WordChar.isNameStart c = false) (digit : WordChar.isDigit c = false)
    (sign : (Token.isSign c && rest.head?.any WordChar.isDigit) = false) :
    Taken (c :: rest) [c] (Token.ofLexeme c []) := by
  have only {other : Pattern} {tail : List Char} (goes : other.Goes c tail)
      (isPrefix : tail <+: rest) : ∃ s, other = .symbol s ∧ c = s.char ∧ tail = [] := by
    cases other with
    | numeral =>
      rcases goes with ⟨digit', -⟩ | ⟨sign', d, back, rfl, digit', -⟩
      · exact absurd digit' (Bool.eq_false_iff.mp digit)
      · obtain ⟨behind, rfl⟩ := isPrefix
        simp [sign', digit'] at sign
    | register =>
      rcases goes.1 with rfl | rfl
      · exact absurd name (by decide)
      · exact absurd name (by decide)
    | name => exact absurd goes.1 (Bool.eq_false_iff.mp name)
    | symbol s => exact ⟨s, rfl, goes.1, goes.2⟩
    | comment => exact absurd goes.1 comment
  have lexed : Token.ofLexeme c [] = Token.ofSymbol c := by
    simp [Token.ofLexeme, comment, digit, name]
  rw [lexed]
  rcases ofSymbol_cases c with ⟨s, rfl, reads⟩ | ⟨unlisted, reads⟩
  · rw [reads]
    have nothing : rest.takeWhile (fun _ => false) = [] := by cases rest <;> rfl
    have longest : Longest (s.char :: rest) (s.char :: rest.takeWhile fun _ => false)
        (.symbol s) := by
      refine longest_of_class ?_ ⟨rfl, nothing⟩ ?_
      · intro other tail goes isPrefix
        obtain ⟨-, -, -, rfl⟩ := only goes isPrefix
        exact List.forall_mem_nil _
      · intro other goes
        obtain ⟨s', rfl, same, -⟩ := only goes (List.takeWhile_prefix _)
        exact .inl (congrArg Pattern.symbol (Symbol.char_inj same.symm))
    rw [nothing] at longest
    exact .matched longest
  · rw [reads]
    refine .stray rfl filled ?_
    intro pattern word matched isPrefix
    obtain ⟨d, tail, rfl, goes⟩ := mem_language_iff.mp matched
    obtain ⟨rfl, behind⟩ := List.cons_prefix_cons.mp isPrefix
    obtain ⟨s, -, same, -⟩ := only goes behind
    exact unlisted s same

/-- What the reader takes from a text is what the patterns say. -/
theorem taken_scan (filled : Lexeme.isBlank c = false) :
    Taken (c :: rest) (c :: rest.takeWhile (Lexeme.goesOn c rest))
      (Token.ofLexeme c (rest.takeWhile (Lexeme.goesOn c rest))) := by
  by_cases comment : c = ';'
  · subst comment
    exact taken_comment rest
  · have class_eq : Lexeme.goesOn c rest =
        if WordChar.isNameStart c || WordChar.isDigit c ||
          (Token.isSign c && rest.head?.any WordChar.isDigit) then Token.isTail
        else fun _ => false := if_neg comment
    rw [class_eq]
    split
    · rename_i opens
      by_cases name : WordChar.isNameStart c = true
      · exact taken_word name
      · by_cases digit : WordChar.isDigit c = true
        · exact taken_numeral (.inl ⟨digit, fun d => List.mem_takeWhile_imp⟩)
        · cases rest with
          | nil => simp [name, digit] at opens
          | cons d rest =>
            have numeral : Token.isSign c = true ∧ WordChar.isDigit d = true := by
              simpa [name, digit] using opens
            refine taken_numeral (.inr ⟨numeral.1, d, rest.takeWhile Token.isTail, ?_, numeral.2,
              fun e => List.mem_takeWhile_imp⟩)
            rw [List.takeWhile_cons_of_pos (isTail_of_isDigit numeral.2)]
    · rename_i single
      rw [Bool.not_eq_true, Bool.or_eq_false_iff, Bool.or_eq_false_iff] at single
      have nothing : rest.takeWhile (fun _ => false) = [] := by cases rest <;> rfl
      rw [nothing]
      exact taken_single filled comment single.1.1 single.1.2 single.2

end

/-! ## The rules determine what is taken -/

section
variable {text word word' : List Char} {pattern pattern' : Pattern}
  {reading reading' : Except LexicalFault Token}

theorem Longest.unique (longest : Longest text word pattern)
    (longest' : Longest text word' pattern') : word = word' ∧ pattern = pattern' := by
  have shorter := longest'.longest pattern word longest.matched longest.isPrefix
  have shorter' := longest.longest pattern' word' longest'.matched longest'.isPrefix
  have same : word = word' :=
    (List.prefix_of_prefix_length_le longest.isPrefix longest'.isPrefix shorter).eq_of_length
      (Nat.le_antisymm shorter shorter')
  subst same
  refine ⟨rfl, ?_⟩
  rcases longest.preferred pattern' longest'.matched with same | ⟨rfl, rfl⟩
  · exact same.symm
  · rcases longest'.preferred .register longest.matched with same | ⟨other, -⟩
    · exact same
    · cases other

theorem Taken.unique (taken : Taken text word reading) (taken' : Taken text word' reading') :
    word = word' ∧ reading = reading' := by
  cases taken with
  | matched longest =>
    cases taken' with
    | matched longest' =>
      obtain ⟨rfl, rfl⟩ := longest.unique longest'
      exact ⟨rfl, rfl⟩
    | stray opens filled unmatched =>
      exact absurd longest.isPrefix (unmatched _ word longest.matched)
  | stray opens filled unmatched =>
    cases taken' with
    | matched longest' => exact absurd longest'.isPrefix (unmatched _ word' longest'.matched)
    | stray opens' =>
      rw [opens] at opens'
      cases opens'
      exact ⟨rfl, rfl⟩

end

end Gumnut
