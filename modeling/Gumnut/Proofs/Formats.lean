import Gumnut.Program.Storage
import Gumnut.Proofs.Digits

/-!
# What storage formats read back

What reading makes of written words and bytes, for each format. Hexadecimal text keeps every bit of
a word, so the reader sees how wide it is. A packed word has lost what is above its 24 low bits
before the reader looks at it.
-/
set_option autoImplicit false

namespace Gumnut

namespace HexText

theorem plain_of_mem_padded {c : Char} {width value : Nat}
    (member : c ∈ Radix.padded 16 width value) :
    c ≠ '\n' ∧ c ≠ '\r' ∧ c ≠ '+' ∧ Blank.isBlank c = false := by
  have plain : ∀ d < 16, Nat.digitChar d ≠ '\n' ∧ Nat.digitChar d ≠ '\r' ∧
      Nat.digitChar d ≠ '+' ∧ Blank.isBlank (Nat.digitChar d) = false := by
    decide
  obtain ⟨d, small, rfl⟩ := Radix.exists_digitChar_of_mem_padded (by decide) member
  exact plain d small

theorem trim_padded (width value : Nat) :
    Blank.trim (Radix.padded 16 width value) = Radix.padded 16 width value := by
  have kept : ∀ text : List Char, (∀ c ∈ text, Blank.isBlank c = false) →
      text.dropWhile Blank.isBlank = text := by
    intro text plain
    cases text with
    | nil => rfl
    | cons c text =>
      apply List.dropWhile_cons_of_neg
      rw [plain c List.mem_cons_self]
      exact Bool.false_ne_true
  rw [Blank.trim, kept _ fun c member => (plain_of_mem_padded member).2.2.2, kept,
    List.reverse_reverse]
  intro c member
  exact (plain_of_mem_padded (List.mem_reverse.mp member)).2.2.2

theorem split_flatMap (width : Nat) (values : List Nat) :
    Lines.split (values.flatMap (line width)) = values.map (Radix.padded 16 width) := by
  have plain : ∀ text ∈ values.map (Radix.padded 16 width), ∀ c ∈ text, c ≠ '\n' ∧ c ≠ '\r' := by
    rw [List.forall_mem_map]
    intro value _ c member
    obtain ⟨feed, ret, -⟩ := plain_of_mem_padded member
    exact ⟨feed, ret⟩
  have split := Lines.split_flatMap plain
  rw [List.flatMap_map] at split
  exact split

theorem lines_flatMap (width : Nat) (values : List Nat) :
    lines (String.ofList (values.flatMap (line width))) =
      values.map (Radix.padded 16 width) := by
  rw [lines, String.toList_ofList, split_flatMap]
  induction values with
  | nil => rfl
  | cons value values ih =>
    have filled : (!(Radix.padded 16 width value).isEmpty) = true := by
      rw [Bool.not_eq_true', List.isEmpty_eq_false_iff]
      exact Radix.padded_ne_nil width value
    rw [List.map_cons, List.map_cons, trim_padded, List.filter_cons, if_pos filled,
      ih]

theorem number?_padded {bound : Nat} (width value : Nat) (room : 0 < bound) :
    number? bound (Radix.padded 16 width value) = if value < bound then some value else none := by
  have unsigned : number? bound (Radix.padded 16 width value) =
      (Radix.read 16 bound (Radix.padded 16 width value)).toOption := by
    rw [number?]
    intro rest signed
    have plus : '+' ∈ Radix.padded 16 width value := by
      rw [signed]
      exact List.mem_cons_self
    exact (plain_of_mem_padded plus).2.2.1 rfl
  rw [unsigned, Radix.read_padded width value (by decide) (by decide) room]
  split <;> rfl

/-- Numbers are read back if all of them are below the bound, and otherwise none is. -/
theorem numbers?_eq_some_iff {bound width : Nat} {values found : List Nat} (room : 0 < bound) :
    numbers? bound (String.ofList (values.flatMap (line width))) = some found ↔
      (∀ value ∈ values, value < bound) ∧ found = values := by
  rw [numbers?, lines_flatMap]
  induction values generalizing found with
  | nil => simp [eq_comm]
  | cons value values ih =>
    rw [List.map_cons, List.mapM_cons, number?_padded width value room, List.forall_mem_cons]
    by_cases below : value < bound
    · rw [if_pos below]
      simp only [Option.bind_eq_bind, Option.bind_some, Option.bind_eq_some_iff, ih,
        Option.pure_def, Option.some.injEq]
      constructor
      · rintro ⟨rest, ⟨small, rfl⟩, rfl⟩
        exact ⟨⟨below, small⟩, rfl⟩
      · rintro ⟨⟨-, small⟩, rfl⟩
        exact ⟨values, ⟨small, rfl⟩, rfl⟩
    · rw [if_neg below]
      constructor
      · intro read
        cases read
      · intro fit
        exact absurd fit.1.1 below

theorem decode_eq_some_iff {α : Type} (toNat : α → Nat) (ofNat : Nat → α) {bound width : Nat}
    {values found : List α} (inverse : ∀ value, ofNat (toNat value) = value) (room : 0 < bound) :
    (numbers? bound (String.ofList (values.flatMap fun value => line width (toNat value)))).map
        (·.map ofNat) = some found ↔
      (∀ value ∈ values, toNat value < bound) ∧ found = values := by
  have written : (values.flatMap fun value => line width (toNat value)) =
      (values.map toNat).flatMap (line width) := by
    rw [List.flatMap_map]
  have back : (values.map toNat).map ofNat = values := by
    have same : ofNat ∘ toNat = id := funext inverse
    rw [List.map_map, same, List.map_id]
  rw [written, Option.map_eq_some_iff]
  simp only [numbers?_eq_some_iff room, List.forall_mem_map]
  constructor
  · rintro ⟨numbers, ⟨small, rfl⟩, rfl⟩
    exact ⟨small, back⟩
  · rintro ⟨small, rfl⟩
    exact ⟨_, ⟨small, rfl⟩, back⟩

end HexText

namespace Packed

def kept (word : UInt32) : UInt32 :=
  word % 0x1000000

theorem toNat_kept (word : UInt32) : (kept word).toNat = word.toNat % 0x1000000 :=
  UInt32.toNat_mod _ _

theorem kept_eq_self_iff (word : UInt32) : kept word = word ↔ word.toNat < 0x1000000 := by
  rw [← UInt32.toNat_inj, toNat_kept]
  omega

theorem kept_of_lt {word : UInt32} (small : word.toNat < wordBound) : kept word = word :=
  (kept_eq_self_iff word).mpr (Nat.lt_trans small (by decide))

theorem value_wordBytes (word : UInt32) :
    word.toUInt8.toNat + 256 * (word / 256).toUInt8.toNat + 65536 * (word / 65536).toUInt8.toNat =
      (kept word).toNat := by
  have middle : (word / 256).toNat = word.toNat / 256 := UInt32.toNat_div _ _
  have high : (word / 65536).toNat = word.toNat / 65536 := UInt32.toNat_div _ _
  rw [toNat_kept, UInt32.toNat_toUInt8, UInt32.toNat_toUInt8, UInt32.toNat_toUInt8, middle, high]
  omega

theorem words?_eq_some_iff {words found : List UInt32} :
    words? (words.flatMap wordBytes) = some found ↔
      (∀ word ∈ words, (kept word).toNat < wordBound) ∧ found = words.map kept := by
  induction words generalizing found with
  | nil => simp [words?, eq_comm]
  | cons word words ih =>
    rw [List.flatMap_cons, wordBytes, List.cons_append, List.cons_append, List.singleton_append,
      words?, value_wordBytes, UInt32.ofNat_toNat, List.forall_mem_cons, List.map_cons]
    by_cases below : (kept word).toNat < wordBound
    · rw [if_pos below, Option.map_eq_some_iff]
      constructor
      · rintro ⟨rest, read, rfl⟩
        obtain ⟨small, rfl⟩ := ih.mp read
        exact ⟨⟨below, small⟩, rfl⟩
      · rintro ⟨⟨-, small⟩, rfl⟩
        exact ⟨words.map kept, ih.mpr ⟨small, rfl⟩, rfl⟩
    · rw [if_neg below]
      constructor
      · intro read
        cases read
      · intro fit
        exact absurd fit.1.1 below

theorem wordBytes_ofNat (low middle high : UInt8) :
    wordBytes (UInt32.ofNat (low.toNat + 256 * middle.toNat + 65536 * high.toNat)) =
      [low, middle, high] := by
  have low_lt := low.toNat_lt
  have middle_lt := middle.toNat_lt
  have high_lt := high.toNat_lt
  have small : low.toNat + 256 * middle.toNat + 65536 * high.toNat < UInt32.size := by
    rw [UInt32.size]
    omega
  have value := UInt32.toNat_ofNat_of_lt' small
  generalize UInt32.ofNat (low.toNat + 256 * middle.toNat + 65536 * high.toNat) = word at value
  have second : (word / 256).toNat = word.toNat / 256 := UInt32.toNat_div _ _
  have third : (word / 65536).toNat = word.toNat / 65536 := UInt32.toNat_div _ _
  simp only [wordBytes, List.cons.injEq, and_true, ← UInt8.toNat_inj, UInt32.toNat_toUInt8,
    second, third, value]
  omega

/-- A stream that is read is the one that is written for what was read. -/
theorem flatMap_of_words? {stream : List UInt8} {words : List UInt32}
    (read : words? stream = some words) : words.flatMap wordBytes = stream := by
  fun_induction words? stream generalizing words with
  | case1 =>
    cases read
    rfl
  | case2 low middle high rest word below =>
    rename_i ih
    obtain ⟨tail, readTail, rfl⟩ := Option.map_eq_some_iff.mp read
    rw [List.flatMap_cons, wordBytes_ofNat, ih readTail]
    rfl
  | case3 => cases read
  | case4 => cases read

end Packed

end Gumnut
