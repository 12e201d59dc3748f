import Gumnut.Proofs.Formats
import Gumnut.Proofs.Words

/-!
# Stored images

What becomes of an image that is written in a format and read back. A word of 20 bits survives both
formats, so an assembled image does. A wider word is refused by the hexadecimal format; the packed
format refuses it only if its low 24 bits are too wide, and otherwise gives another word in its
place.
-/
set_option autoImplicit false

namespace Gumnut

namespace Memory

variable {α : Type} {size : Nat}

theorem toList_inj {memory other : Memory α size} :
    memory.toList = other.toList ↔ memory = other := by
  obtain ⟨cells⟩ := memory
  obtain ⟨cells'⟩ := other
  rw [toList, toList, Vector.toList_inj, mk.injEq]

theorem exists_load? [OfNat α 0] {cells : List α} (fit : cells.length ≤ size) :
    ∃ memory : Memory α size, load? cells = some memory ∧
      memory.toList = cells ++ List.replicate (size - cells.length) 0 := by
  cases loaded : (load? cells : Option (Memory α size)) with
  | none => exact absurd ((load?_eq_none_iff cells).mp loaded) (Nat.not_lt.mpr fit)
  | some memory => exact ⟨memory, rfl, toList_of_load? loaded⟩

theorem load?_toList [OfNat α 0] (memory : Memory α size) :
    load? memory.toList = some memory := by
  obtain ⟨copy, loaded, whole⟩ := exists_load? (Nat.le_of_eq memory.length_toList)
  rw [length_toList, Nat.sub_self, List.replicate_zero, List.append_nil] at whole
  rw [loaded, toList_inj.mp whole]

def map (f : α → α) (memory : Memory α size) : Memory α size :=
  ⟨memory.cells.map f⟩

theorem toList_map (f : α → α) (memory : Memory α size) :
    (memory.map f).toList = memory.toList.map f :=
  Vector.toList_map

theorem map_id (memory : Memory α size) : memory.map id = memory := by
  rw [← toList_inj, toList_map, List.map_id]

theorem map_eq_self_iff (f : α → α) (memory : Memory α size) :
    memory.map f = memory ↔ ∀ cell ∈ memory.toList, f cell = cell := by
  have same : memory.toList.map f = memory.toList.map id ↔
      ∀ cell ∈ memory.toList, f cell = id cell := List.map_inj_left
  rw [List.map_id] at same
  rw [← toList_inj, toList_map, same]
  rfl

end Memory

def Image.ofMemories (code : CodeMemory) (data : ByteMemory) : Image :=
  { empty with code, data, instructionCount := codeSize }

theorem Image.ofWords_toList (code : CodeMemory) (data : ByteMemory) :
    ofWords code.toList data.toList = .ok (ofMemories code data) := by
  rw [ofWords, Memory.load?_toList, Memory.load?_toList]
  dsimp only
  rw [Memory.length_toList, ofMemories]

namespace StorageFormat

variable {Stream : Type}

def restore? (format : StorageFormat Stream) (image : Image) : Option Image :=
  format.read? (format.write image).1 (format.write image).2

/-- A format gives back an image with the same memories, if it gives back any. -/
def Keeps (format : StorageFormat Stream) (image : Image) : Prop :=
  ∀ stored, format.restore? image = some stored →
    stored.code = image.code ∧ stored.data = image.data

/-- A format reads back a part of each word, provided that every word fits, and reads back bytes
as they are. -/
structure Reads (format : StorageFormat Stream) (fits : UInt32 → Prop) (part : UInt32 → UInt32) :
    Prop where
  words_iff : ∀ words found, format.readWords? (format.writeWords words) = some found ↔
    (∀ word ∈ words, fits word) ∧ found = words.map part
  bytes_eq : ∀ bytes, format.readBytes? (format.writeBytes bytes) = some bytes

namespace Reads

variable {format : StorageFormat Stream} {fits : UInt32 → Prop} {part : UInt32 → UInt32}

theorem words_eq (reads : format.Reads fits part) {words : List UInt32}
    (fit : ∀ word ∈ words, fits word) (whole : ∀ word ∈ words, part word = word) :
    format.readWords? (format.writeWords words) = some words := by
  have same : words.map part = words := (List.map_congr_left whole).trans (List.map_id' words)
  exact (reads.words_iff words words).mpr ⟨fit, same.symm⟩

theorem restore?_iff (reads : format.Reads fits part) {image stored : Image} :
    format.restore? image = some stored ↔
      (∀ word ∈ image.code.toList, fits word) ∧
        stored = .ofMemories (image.code.map part) image.data := by
  have bytes := reads.bytes_eq image.data.toList
  rw [restore?, read?, write]
  dsimp only
  rw [bytes]
  simp only [Option.bind_eq_bind, Option.bind_some, Option.bind_eq_some_iff, reads.words_iff]
  constructor
  · rintro ⟨words, ⟨fit, rfl⟩, read⟩
    rw [← Memory.toList_map, Image.ofWords_toList] at read
    exact ⟨fit, (Option.some.inj read).symm⟩
  · rintro ⟨fit, rfl⟩
    refine ⟨_, ⟨fit, rfl⟩, ?_⟩
    rw [← Memory.toList_map, Image.ofWords_toList]
    rfl

theorem keeps_iff (reads : format.Reads fits part) (image : Image) :
    format.Keeps image ↔ ((∀ word ∈ image.code.toList, fits word) →
      ∀ word ∈ image.code.toList, part word = word) := by
  rw [← Memory.map_eq_self_iff]
  constructor
  · intro keeps fit
    exact (keeps _ (reads.restore?_iff.mpr ⟨fit, rfl⟩)).1
  · intro whole stored restored
    obtain ⟨fit, rfl⟩ := reads.restore?_iff.mp restored
    exact ⟨whole fit, rfl⟩

end Reads

end StorageFormat

theorem reads_hexText : hexText.Reads (fun word => word.toNat < wordBound) id where
  words_iff words found := by
    have inverse : ∀ word : UInt32, UInt32.ofNat word.toNat = word := fun _ => UInt32.ofNat_toNat
    have room : 0 < wordBound := by decide
    rw [List.map_id, hexText]
    dsimp only
    rw [HexText.decode_eq_some_iff UInt32.toNat UInt32.ofNat inverse room]
  bytes_eq bytes := by
    have inverse : ∀ byte : UInt8, UInt8.ofNat byte.toNat = byte := fun _ => UInt8.ofNat_toNat
    rw [hexText]
    dsimp only
    rw [HexText.decode_eq_some_iff UInt8.toNat UInt8.ofNat inverse (by decide)]
    exact ⟨fun byte _ => byte.toNat_lt, rfl⟩

theorem reads_packed :
    packed.Reads (fun word => (Packed.kept word).toNat < wordBound) Packed.kept where
  words_iff _ _ := Packed.words?_eq_some_iff
  bytes_eq _ := rfl

namespace Image

variable {image : Image}

def Small (image : Image) : Prop :=
  ∀ word ∈ image.code.toList, word.toNat < wordBound

/-- As far as the packed format stores it, every word has 20 bits at most. -/
def SmallStored (image : Image) : Prop :=
  ∀ word ∈ image.code.toList, (Packed.kept word).toNat < wordBound

theorem small_of_ofLines {lines : List Line} (assembles : ofLines lines = .ok image) :
    image.Small := by
  intro word member
  obtain ⟨address, read⟩ := List.mem_iff_getElem?.mp member
  rw [Memory.getElem?_toList] at read
  obtain ⟨instruction, encodable, rfl⟩ := encodable_word assembles read
  exact Nat.lt_trans (Instruction.toNat_encode_lt encodable) (by decide)

theorem Small.map_kept (small : image.Small) : image.code.map Packed.kept = image.code := by
  rw [Memory.map_eq_self_iff]
  intro word member
  exact Packed.kept_of_lt (small word member)

theorem Small.smallStored (small : image.Small) : image.SmallStored := by
  intro word member
  rw [Packed.kept_of_lt (small word member)]
  exact small word member

theorem SmallStored.small_iff (stored : image.SmallStored) :
    image.Small ↔ ∀ word ∈ image.code.toList, Packed.kept word = word := by
  constructor
  · intro small word member
    exact Packed.kept_of_lt (small word member)
  · intro whole word member
    rw [← whole word member]
    exact stored word member

theorem restore?_hexText_iff {stored : Image} :
    hexText.restore? image = some stored ↔
      image.Small ∧ stored = ofMemories image.code image.data := by
  rw [reads_hexText.restore?_iff, Memory.map_id]
  rfl

theorem restore?_packed_iff {stored : Image} :
    packed.restore? image = some stored ↔
      image.SmallStored ∧ stored = ofMemories (image.code.map Packed.kept) image.data :=
  reads_packed.restore?_iff

end Image

namespace StorageFormat

/-- Both formats give back what was written in them, and the packed format reads nothing else. An
assembled image comes back from both with its two memories. -/
theorem round_trips :
    (∀ words : List UInt32, (∀ word ∈ words, word.toNat < wordBound) →
      hexText.readWords? (hexText.writeWords words) = some words ∧
      packed.readWords? (packed.writeWords words) = some words) ∧
    (∀ bytes : List UInt8,
      hexText.readBytes? (hexText.writeBytes bytes) = some bytes ∧
      packed.readBytes? (packed.writeBytes bytes) = some bytes) ∧
    (∀ (stream : List UInt8) (words : List UInt32), packed.readWords? stream = some words →
      packed.writeWords words = stream) ∧
    (∀ (lines : List Line) (image : Image), Image.ofLines lines = .ok image →
      ∃ stored, hexText.restore? image = some stored ∧ packed.restore? image = some stored ∧
        stored.code = image.code ∧ stored.data = image.data) := by
  refine ⟨?_, ?_, ?_, ?_⟩
  · intro words small
    have whole : ∀ word ∈ words, Packed.kept word = word := by
      intro word member
      exact Packed.kept_of_lt (small word member)
    refine ⟨reads_hexText.words_eq small fun _ _ => rfl, reads_packed.words_eq ?_ whole⟩
    intro word member
    rw [whole word member]
    exact small word member
  · intro bytes
    exact ⟨reads_hexText.bytes_eq bytes, reads_packed.bytes_eq bytes⟩
  · intro stream words read
    exact Packed.flatMap_of_words? read
  · intro lines image assembles
    have small := Image.small_of_ofLines assembles
    refine ⟨.ofMemories image.code image.data, Image.restore?_hexText_iff.mpr ⟨small, rfl⟩,
      Image.restore?_packed_iff.mpr ⟨small.smallStored, ?_⟩, rfl, rfl⟩
    rw [small.map_kept]

theorem round_trips_overlaid :
    packed.readWords? (packed.writeWords [0xFFFFF, 0]) = some [0xFFFFF, 0] ∧
      packed.writeWords [0x30201] = [1, 2, 3] ∧
      ∃ image stored, Image.ofLines Image.overlaid = .ok image ∧
        hexText.restore? image = some stored ∧ stored.code = image.code := by
  obtain ⟨words, -, streams, images⟩ := round_trips
  obtain ⟨image, assembles⟩ := Image.isOk_overlaid
  obtain ⟨stored, hex, -, code, -⟩ := images _ _ assembles
  have read : packed.readWords? [1, 2, 3] = some [0x30201] := by decide
  have small : ∀ word ∈ [(0xFFFFF : UInt32), 0], word.toNat < wordBound := by
    intro word member
    rw [List.mem_cons, List.mem_singleton] at member
    rcases member with rfl | rfl
    · decide
    · decide
  exact ⟨(words _ small).2, streams _ _ read, image, stored, assembles, hex, code⟩

/-- The hexadecimal format keeps every image. The packed format keeps an image, and agrees with the
hexadecimal one on it, unless it stores words of 20 bits for words that are wider. -/
theorem keeps_iff_small_of_stored (image : Image) :
    hexText.Keeps image ∧
    (packed.Keeps image ↔ (image.SmallStored → image.Small)) ∧
    (hexText.restore? image = packed.restore? image ↔ (image.SmallStored → image.Small)) := by
  refine ⟨?_, ?_, ?_, ?_⟩
  · rw [reads_hexText.keeps_iff]
    intro _ word _
    rfl
  · rw [reads_packed.keeps_iff]
    constructor
    · intro keeps stored
      exact stored.small_iff.mpr (keeps stored)
    · intro unclipped (stored : image.SmallStored)
      exact stored.small_iff.mp (unclipped stored)
  · intro same stored
    have restored := Image.restore?_packed_iff.mpr ⟨stored, rfl⟩
    rw [← same] at restored
    exact (Image.restore?_hexText_iff.mp restored).1
  · intro unclipped
    apply Option.ext
    intro stored
    rw [Image.restore?_hexText_iff, Image.restore?_packed_iff]
    constructor
    · rintro ⟨small, rfl⟩
      exact ⟨small.smallStored, by rw [small.map_kept]⟩
    · rintro ⟨fits, rfl⟩
      have small := unclipped fits
      exact ⟨small, by rw [small.map_kept]⟩

/-- A word of 25 bits is packed as zero, which is read back, while the hexadecimal format refuses
it. -/
theorem not_keeps_wide :
    ∃ image, Image.ofWords [0x1000000] [] = .ok image ∧ hexText.restore? image = none ∧
      ¬ packed.Keeps image := by
  obtain ⟨code, loadedCode, words⟩ : ∃ code : CodeMemory, Memory.load? [0x1000000] = some code ∧
      code.toList = [0x1000000] ++ List.replicate 4095 0 := Memory.exists_load? (by decide)
  obtain ⟨data, loadedData, -⟩ : ∃ data : ByteMemory, Memory.load? [] = some data ∧
      data.toList = [] ++ List.replicate 256 0 := Memory.exists_load? (by decide)
  let image : Image := { Image.empty with code, data, instructionCount := 1 }
  have first : 0x1000000 ∈ image.code.toList := by
    rw [words]
    exact List.mem_append_left _ List.mem_cons_self
  have wide : ¬ image.Small := by
    intro small
    exact absurd (small _ first) (by decide)
  have stored : image.SmallStored := by
    intro word member
    rw [words, List.mem_append, List.mem_singleton] at member
    obtain rfl | member := member
    · decide
    · rw [List.eq_of_mem_replicate member]
      decide
  refine ⟨image, ?_, ?_, ?_⟩
  · rw [Image.ofWords, loadedCode, loadedData]
    rfl
  · rw [Option.eq_none_iff_forall_ne_some]
    intro restored read
    exact wide (Image.restore?_hexText_iff.mp read).1
  · rw [reads_packed.keeps_iff]
    intro keeps
    exact wide (stored.small_iff.mpr (keeps stored))

end StorageFormat

end Gumnut
