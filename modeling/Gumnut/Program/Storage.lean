import Gumnut.Program.Image
import Gumnut.Text.Characters
import Gumnut.Text.Lines

/-!
# Stored images

How the two memories of an image are stored. A storage format writes and reads instruction words
and data bytes apart. There are two of them:

* hexadecimal text, one number a line, a word with at least five digits and a byte with two. Read
  back, blanks around a number, empty lines and a plus sign in front are allowed.
* packed bytes, three for a word with the lowest first, and data bytes as they are.

Reading refuses a word of more than 20 bits; what was read then has to fit the memories.
-/
set_option autoImplicit false

namespace Gumnut

structure StorageFormat (Stream : Type) where
  writeWords : List UInt32 → Stream
  writeBytes : List UInt8 → Stream
  readWords? : Stream → Option (List UInt32)
  readBytes? : Stream → Option (List UInt8)

namespace StorageFormat

variable {Stream : Type}

def write (format : StorageFormat Stream) (image : Image) : Stream × Stream :=
  (format.writeWords image.code.toList, format.writeBytes image.data.toList)

/-- The image in two streams, without listing and symbols. -/
def read? (format : StorageFormat Stream) (code data : Stream) : Option Image := do
  let words ← format.readWords? code
  let bytes ← format.readBytes? data
  (Image.ofWords words bytes).toOption

end StorageFormat

/-- The words that may be read: those of 20 bits. -/
def wordBound : Nat := 0x100000

namespace HexText

def line (width value : Nat) : List Char :=
  Radix.padded 16 width value ++ ['\n']

/-- A number below a bound, with an optional plus sign. -/
def number? (bound : Nat) (text : List Char) : Option Nat :=
  let digits := match text with
    | '+' :: digits => digits
    | digits => digits
  (Radix.read 16 bound digits).toOption

def lines (text : String) : List (List Char) :=
  ((Lines.split text.toList).map Blank.trim).filter fun line => !line.isEmpty

def numbers? (bound : Nat) (text : String) : Option (List Nat) :=
  (lines text).mapM (number? bound)

end HexText

def hexText : StorageFormat String where
  writeWords words := String.ofList (words.flatMap fun word => HexText.line 5 word.toNat)
  writeBytes bytes := String.ofList (bytes.flatMap fun byte => HexText.line 2 byte.toNat)
  readWords? text := (HexText.numbers? wordBound text).map (·.map UInt32.ofNat)
  readBytes? text := (HexText.numbers? 256 text).map (·.map UInt8.ofNat)

namespace Packed

/-- The three low bytes of a word, the lowest first. -/
def wordBytes (word : UInt32) : List UInt8 :=
  [word.toUInt8, (word / 256).toUInt8, (word / 65536).toUInt8]

def words? : List UInt8 → Option (List UInt32)
  | [] => some []
  | low :: middle :: high :: rest =>
    let word := low.toNat + 256 * middle.toNat + 65536 * high.toNat
    if word < wordBound then (words? rest).map (UInt32.ofNat word :: ·) else none
  | _ => none

end Packed

def packed : StorageFormat (List UInt8) where
  writeWords words := words.flatMap Packed.wordBytes
  writeBytes bytes := bytes
  readWords? := Packed.words?
  readBytes? bytes := some bytes

end Gumnut
