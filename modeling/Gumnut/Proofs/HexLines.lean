import Gumnut.Proofs.Magnitudes
import Gumnut.Proofs.StoredImages
import Mathlib.Data.List.TakeWhile

/-!
# Lines of hexadecimal text

Which texts the hexadecimal format reads, said without its reader: how a text falls into lines, what
is left of a line without the blanks at its ends, and which characters write a number.

```text
text   ::= {line ("\n" | "\r\n")} [line]
line   ::= {blank} [["+"] digit {digit}] {blank}
```

A text of such lines has the numbers of its lines that are not blank, in their order, provided that
all of them are below a bound; and no other text has any.
-/
set_option autoImplicit false

namespace Gumnut

/-! ## Texts as lines -/

namespace Lines

/-- A text with its lines, each ended by a line feed with or without a carriage return in front, and
the last one perhaps by the end of the text. -/
inductive Lined : List Char → List (List Char) → Prop
  | nil : Lined [] []
  | last {line : List Char} (filled : line ≠ []) (whole : '\n' ∉ line) : Lined line [line]
  | feed {line rest : List Char} {lines : List (List Char)} (whole : '\n' ∉ line)
      (plain : line.getLast? ≠ some '\r') (more : Lined rest lines) :
      Lined (line ++ '\n' :: rest) (line :: lines)
  | returnFeed {line rest : List Char} {lines : List (List Char)} (whole : '\n' ∉ line)
      (more : Lined rest lines) : Lined (line ++ '\r' :: '\n' :: rest) (line :: lines)

theorem lined_splitFrom (read text : List Char) (whole : '\n' ∉ read) :
    Lined (read.reverse ++ text) (splitFrom read text) := by
  induction text generalizing read with
  | nil =>
    rw [List.append_nil, splitFrom]
    split
    · rename_i none
      rw [List.isEmpty_iff.mp none]
      exact .nil
    · rename_i some
      refine .last (fun none => some ?_) fun member => whole (List.mem_reverse.mp member)
      rw [List.reverse_eq_nil_iff.mp none, List.isEmpty_nil]
  | cons c rest ih =>
    rw [splitFrom]
    split
    · rename_i feed
      subst feed
      have behind : Lined rest (splitFrom [] rest) := ih [] List.not_mem_nil
      have whole : '\n' ∉ read.reverse := fun member => whole (List.mem_reverse.mp member)
      rw [dropReturn]
      split
      · rename_i ends
        obtain ⟨line, apart⟩ := List.getLast?_eq_some_iff.mp ends
        rw [apart] at whole ⊢
        rw [List.append_assoc, List.dropLast_concat]
        exact .returnFeed (fun member => whole (List.mem_append_left _ member)) behind
      · rename_i plain
        exact .feed whole plain behind
    · rename_i other
      have together : read.reverse ++ c :: rest = (c :: read).reverse ++ rest := by simp
      rw [together]
      refine ih (c :: read) ?_
      rw [List.mem_cons, not_or]
      exact ⟨fun same => other same.symm, whole⟩

theorem dropReturn_append_return (line : List Char) : dropReturn (line ++ ['\r']) = line := by
  rw [dropReturn, if_pos List.getLast?_concat, List.dropLast_concat]

theorem Lined.split_eq {text : List Char} {lines : List (List Char)} (lined : Lined text lines) :
    split text = lines := by
  induction lined with
  | nil => rfl
  | @last line filled whole =>
    have read := splitFrom_append [] [] whole
    rw [List.append_nil, List.append_nil] at read
    rw [split, read, splitFrom, List.reverse_reverse, if_neg]
    simpa using filled
  | feed whole plain more ih =>
    rw [split_append_feed _ whole, dropReturn, if_neg plain, ih]
  | @returnFeed line rest lines whole more ih =>
    have whole : '\n' ∉ line ++ ['\r'] := by simpa using whole
    rw [List.append_cons, split_append_feed _ whole, dropReturn_append_return, ih]

/-- The lines of a text are those that it is split into. -/
theorem split_eq_iff {text : List Char} {lines : List (List Char)} :
    split text = lines ↔ Lined text lines := by
  constructor
  · rintro rfl
    exact lined_splitFrom [] text List.not_mem_nil
  · exact Lined.split_eq

end Lines

/-! ## Lines without their blanks -/

namespace Blank

structure Trimmed (text core : List Char) : Prop where
  around : ∃ front back, text = front ++ core ++ back ∧ ∀ c ∈ front ++ back, isBlank c = true
  opens : ∀ c ∈ core.head?, isBlank c = false
  closes : ∀ c ∈ core.getLast?, isBlank c = false

theorem not_isBlank_of_dropWhile (text : List Char) :
    ∀ c ∈ (text.dropWhile isBlank).head?, isBlank c = false := by
  intro c first
  have stops := List.head?_dropWhile_not isBlank text
  rw [Option.mem_def.mp first] at stops
  exact stops

theorem dropWhile_eq_self {text : List Char} (opens : ∀ c ∈ text.head?, isBlank c = false) :
    text.dropWhile isBlank = text := by
  cases text with
  | nil => rfl
  | cons c text => exact List.dropWhile_cons_of_neg (Bool.eq_false_iff.mp (opens c rfl))

theorem trimmed_trim (text : List Char) : Trimmed text (trim text) := by
  have front := List.takeWhile_append_dropWhile (p := isBlank) (l := text)
  have back := List.takeWhile_append_dropWhile (p := isBlank)
    (l := (text.dropWhile isBlank).reverse)
  have split : text.dropWhile isBlank =
      trim text ++ ((text.dropWhile isBlank).reverse.takeWhile isBlank).reverse := by
    rw [trim, ← List.reverse_append, back, List.reverse_reverse]
  constructor
  · refine ⟨text.takeWhile isBlank, ((text.dropWhile isBlank).reverse.takeWhile isBlank).reverse,
      ?_, ?_⟩
    · rw [List.append_assoc, ← split, front]
    · rw [List.forall_mem_append]
      refine ⟨fun c => List.mem_takeWhile_imp, fun c member => ?_⟩
      exact List.mem_takeWhile_imp (List.mem_reverse.mp member)
  · intro c first
    refine not_isBlank_of_dropWhile text c ?_
    rw [split, List.head?_append, Option.mem_def.mp first]
    rfl
  · intro c last
    rw [trim, List.getLast?_reverse] at last
    exact not_isBlank_of_dropWhile _ c last

theorem Trimmed.trim_eq {text core : List Char} (trimmed : Trimmed text core) :
    trim text = core := by
  obtain ⟨front, back, rfl, blank⟩ := trimmed.around
  rw [List.forall_mem_append] at blank
  obtain ⟨before, behind⟩ := blank
  rw [trim, List.append_assoc, List.dropWhile_append_of_pos before]
  cases core with
  | nil =>
    rw [List.nil_append, List.dropWhile_eq_nil_iff.mpr behind]
    rfl
  | cons c core =>
    have first : ∀ d ∈ (c :: core ++ back).head?, isBlank d = false := trimmed.opens
    have last : ∀ d ∈ (c :: core).reverse.head?, isBlank d = false := by
      rw [List.head?_reverse]
      exact trimmed.closes
    have behind : ∀ d ∈ back.reverse, isBlank d = true := fun d member =>
      behind d (List.mem_reverse.mp member)
    rw [dropWhile_eq_self first, List.reverse_append, List.dropWhile_append_of_pos behind,
      dropWhile_eq_self last, List.reverse_reverse]

theorem trim_eq_iff {text core : List Char} : trim text = core ↔ Trimmed text core := by
  constructor
  · rintro rfl
    exact trimmed_trim text
  · exact Trimmed.trim_eq

end Blank

/-! ## Numbers of lines -/

namespace HexText

/-- A hexadecimal number as it may be written: digits of either case, perhaps behind a plus sign. -/
inductive Written : List Char → Nat → Prop
  | plain {digits : List Char} {value : Nat} (filled : digits ≠ [])
      (writes : Radix.Writes 16 digits value) : Written digits value
  | plus {digits : List Char} {value : Nat} (filled : digits ≠ [])
      (writes : Radix.Writes 16 digits value) : Written ('+' :: digits) value

inductive Holds (bound : Nat) : List (List Char) → List Nat → Prop
  | nil : Holds bound [] []
  | blank {line : List Char} {lines : List (List Char)} {values : List Nat}
      (blank : Blank.Trimmed line []) (more : Holds bound lines values) :
      Holds bound (line :: lines) values
  | number {line core : List Char} {value : Nat} {lines : List (List Char)} {values : List Nat}
      (trimmed : Blank.Trimmed line core) (written : Written core value) (fits : value < bound)
      (more : Holds bound lines values) : Holds bound (line :: lines) (value :: values)

variable {bound : Nat}

theorem read_eq_ok_iff (room : 0 < bound) {digits : List Char} {value : Nat} :
    Radix.read 16 bound digits = .ok value ↔
      digits ≠ [] ∧ Radix.Writes 16 digits value ∧ value < bound := by
  rw [Radix.read_eq_iff (by decide) room]
  constructor
  · intro reads
    cases reads with
    | value filled writes fits => exact ⟨filled, writes, fits⟩
  · rintro ⟨filled, writes, fits⟩
    exact .value filled writes fits

theorem not_writes_plus {digits : List Char} {value : Nat} :
    ¬ Radix.Writes 16 ('+' :: digits) value := by
  rintro ⟨values, figures, -⟩
  cases figures with
  | cons figure =>
    have listed : ∀ figure ∈ Radix.figures, figure.1 ≠ '+' := by decide
    exact listed _ figure.1 rfl

theorem number?_eq_some_iff (room : 0 < bound) {text : List Char} {value : Nat} :
    number? bound text = some value ↔ Written text value ∧ value < bound := by
  have read {digits : List Char} : (Radix.read 16 bound digits).toOption = some value ↔
      Radix.read 16 bound digits = .ok value := by
    cases Radix.read 16 bound digits <;> simp [Except.toOption]
  unfold number?
  dsimp only
  split
  · rename_i digits
    rw [read, read_eq_ok_iff room]
    constructor
    · rintro ⟨filled, writes, fits⟩
      exact ⟨.plus filled writes, fits⟩
    · rintro ⟨written, fits⟩
      cases written with
      | plain _ writes => exact absurd writes not_writes_plus
      | plus filled writes => exact ⟨filled, writes, fits⟩
  · rename_i unsigned
    rw [read, read_eq_ok_iff room]
    constructor
    · rintro ⟨filled, writes, fits⟩
      exact ⟨.plain filled writes, fits⟩
    · rintro ⟨written, fits⟩
      cases written with
      | plain filled writes => exact ⟨filled, writes, fits⟩
      | plus => exact absurd rfl (unsigned _)

theorem mapM_number?_eq_some_iff (room : 0 < bound) {texts : List (List Char)}
    {values : List Nat} :
    ((texts.map Blank.trim).filter fun line => !line.isEmpty).mapM (number? bound) = some values ↔
      Holds bound texts values := by
  induction texts generalizing values with
  | nil =>
    constructor
    · rintro ⟨⟩
      exact .nil
    · rintro ⟨⟩
      rfl
  | cons line texts ih =>
    rw [List.map_cons, List.filter_cons]
    split
    · rename_i filled
      have filled : Blank.trim line ≠ [] := by simpa using filled
      rw [List.mapM_cons]
      simp only [Option.bind_eq_bind, Option.bind_eq_some_iff, number?_eq_some_iff room, ih,
        Option.pure_def, Option.some.injEq]
      constructor
      · rintro ⟨value, ⟨written, fits⟩, others, more, rfl⟩
        exact .number (Blank.trimmed_trim line) written fits more
      · intro holds
        cases holds with
        | blank blank => exact absurd blank.trim_eq filled
        | number trimmed written fits more =>
          rw [trimmed.trim_eq]
          exact ⟨_, ⟨written, fits⟩, _, more, rfl⟩
    · rename_i empty
      have empty : Blank.trim line = [] := by simpa using empty
      rw [ih]
      constructor
      · exact .blank (Blank.trim_eq_iff.mp empty)
      · intro holds
        cases holds with
        | blank _ more => exact more
        | number trimmed written =>
          rw [trimmed.trim_eq] at empty
          subst empty
          cases written with
          | plain filled => exact absurd rfl filled

def Numbers (bound : Nat) (text : String) (values : List Nat) : Prop :=
  ∃ lines, Lines.Lined text.toList lines ∧ Holds bound lines values

theorem numbers?_eq_some_iff_numbers (room : 0 < bound) {text : String} {values : List Nat} :
    numbers? bound text = some values ↔ Numbers bound text values := by
  rw [numbers?, lines, mapM_number?_eq_some_iff room]
  constructor
  · exact fun holds => ⟨_, Lines.split_eq_iff.mp rfl, holds⟩
  · rintro ⟨lines, lined, holds⟩
    rwa [lined.split_eq]

theorem Holds.lt_bound {lines : List (List Char)} {values : List Nat}
    (holds : Holds bound lines values) : ∀ value ∈ values, value < bound := by
  induction holds with
  | nil => exact nofun
  | blank _ _ ih => exact ih
  | number _ _ fits _ ih => exact List.forall_mem_cons.mpr ⟨fits, ih⟩

theorem decoded_eq_some_iff {α : Type} (toNat : α → Nat) (ofNat : Nat → α)
    (inverse : ∀ found, ofNat (toNat found) = found)
    (faithful : ∀ value < bound, toNat (ofNat value) = value) (room : 0 < bound) {text : String}
    {found : List α} :
    (numbers? bound text).map (·.map ofNat) = some found ↔
      Numbers bound text (found.map toNat) := by
  rw [Option.map_eq_some_iff]
  simp only [numbers?_eq_some_iff_numbers room]
  constructor
  · rintro ⟨values, numbers, rfl⟩
    have ⟨_, _, holds⟩ := numbers
    have same : (values.map ofNat).map toNat = values.map id := by
      rw [List.map_map]
      exact List.map_congr_left fun value member => faithful value (holds.lt_bound value member)
    rwa [same, List.map_id]
  · intro numbers
    have same : ofNat ∘ toNat = id := funext inverse
    exact ⟨_, numbers, by rw [List.map_map, same, List.map_id]⟩

end HexText

/-! ## Images -/

/-- An image of words and bytes that fit the memories, from the first addresses on and with zeros
behind them, and without listing and symbols. -/
structure Image.Loads (image : Image) (words : List UInt32) (bytes : List UInt8) : Prop where
  wordsFit : words.length ≤ codeSize
  bytesFit : bytes.length ≤ dataSize
  code : image.code.toList = words ++ List.replicate (codeSize - words.length) 0
  data : image.data.toList = bytes ++ List.replicate (dataSize - bytes.length) 0
  count : image.instructionCount = words.length
  listing : image.listing = {}
  symbols : image.symbols = .empty
  lineCount : image.lineCount = 0

theorem Memory.fits_of_load? {α : Type} {size : Nat} [OfNat α 0] {cells : List α}
    {memory : Memory α size} (loaded : load? cells = some memory) : cells.length ≤ size := by
  refine Nat.le_of_not_lt fun excess => ?_
  rw [(load?_eq_none_iff cells).mpr excess] at loaded
  cases loaded

theorem Image.ofWords_eq_ok_iff {words : List UInt32} {bytes : List UInt8} {image : Image} :
    ofWords words bytes = .ok image ↔ image.Loads words bytes := by
  constructor
  · intro loads
    unfold ofWords at loads
    split at loads
    · cases loads
    · cases loads
    · rename_i code data codeLoaded dataLoaded
      cases loads
      exact {
        wordsFit := Memory.fits_of_load? codeLoaded
        bytesFit := Memory.fits_of_load? dataLoaded
        code := Memory.toList_of_load? codeLoaded
        data := Memory.toList_of_load? dataLoaded
        count := rfl
        listing := rfl
        symbols := rfl
        lineCount := rfl }
  · rintro ⟨wordsFit, bytesFit, words, bytes, count, listing, symbols, lineCount⟩
    obtain ⟨code, codeLoaded, codeCells⟩ := Memory.exists_load? wordsFit
    obtain ⟨data, dataLoaded, dataCells⟩ := Memory.exists_load? bytesFit
    obtain rfl : image.code = code := Memory.toList_inj.mp (words.trans codeCells.symm)
    obtain rfl : image.data = data := Memory.toList_inj.mp (bytes.trans dataCells.symm)
    rw [ofWords, codeLoaded, dataLoaded]
    cases image
    cases count
    cases listing
    cases symbols
    cases lineCount
    rfl

theorem StorageFormat.read?_eq_some_iff {Stream : Type} {format : StorageFormat Stream}
    {code data : Stream} {image : Image} :
    format.read? code data = some image ↔ ∃ words bytes, format.readWords? code = some words ∧
      format.readBytes? data = some bytes ∧ image.Loads words bytes := by
  have loads {words : List UInt32} {bytes : List UInt8} :
      (Image.ofWords words bytes).toOption = some image ↔ image.Loads words bytes := by
    rw [← Image.ofWords_eq_ok_iff]
    cases Image.ofWords words bytes <;> simp [Except.toOption]
  simp only [read?, Option.bind_eq_bind, Option.bind_eq_some_iff, loads]
  constructor
  · rintro ⟨words, readWords, bytes, readBytes, loaded⟩
    exact ⟨words, bytes, readWords, readBytes, loaded⟩
  · rintro ⟨words, bytes, readWords, readBytes, loaded⟩
    exact ⟨words, readWords, bytes, readBytes, loaded⟩

/-- The hexadecimal format reads exactly the texts of its grammar: as words those of which all
numbers have 20 bits, as bytes those of which all have 8. It reads an image from two texts if both
are read and have no more numbers than the memories have cells, and then the image has these numbers
with zeros behind them. -/
theorem hexText_reads_exactly :
    (∀ text words, hexText.readWords? text = some words ↔
      HexText.Numbers (2 ^ 20) text (words.map UInt32.toNat)) ∧
    (∀ text bytes, hexText.readBytes? text = some bytes ↔
      HexText.Numbers (2 ^ 8) text (bytes.map UInt8.toNat)) ∧
    ∀ code data image, hexText.read? code data = some image ↔
      ∃ words bytes, hexText.readWords? code = some words ∧
        hexText.readBytes? data = some bytes ∧ image.Loads words bytes := by
  refine ⟨fun text words => ?_, fun text bytes => ?_,
    fun code data image => StorageFormat.read?_eq_some_iff⟩
  · have faithful : ∀ value < 2 ^ 20, (UInt32.ofNat value).toNat = value := fun value small =>
      UInt32.toNat_ofNat_of_lt' (Nat.lt_trans small (by decide))
    exact HexText.decoded_eq_some_iff UInt32.toNat UInt32.ofNat (fun _ => UInt32.ofNat_toNat)
      faithful (by decide)
  · have faithful : ∀ value < 2 ^ 8, (UInt8.ofNat value).toNat = value := fun value small =>
      UInt8.toNat_ofNat_of_lt' small
    exact HexText.decoded_eq_some_iff UInt8.toNat UInt8.ofNat (fun _ => UInt8.ofNat_toNat)
      faithful (by decide)

/-- A signed number in front of a carriage return, a line of blanks, and a number without an end. -/
example : hexText.readWords? "\t+0fA\r\n\u2003\n1" = some [0xFA, 1] := by decide +kernel

end Gumnut
