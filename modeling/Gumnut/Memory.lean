/-!
# Memories

Memories of a fixed size: 4096 instruction words, and 256 bytes for data and again for the I/O
registers. A memory is loaded as a whole: cells beyond those given are zero, and more cells than
it has are refused.
-/
set_option autoImplicit false

namespace Gumnut

def codeSize : Nat := 4096

def dataSize : Nat := 256

structure Memory (α : Type) (size : Nat) where
  cells : Vector α size
  deriving DecidableEq

namespace Memory

variable {α : Type} {size : Nat}

def zero [OfNat α 0] : Memory α size :=
  ⟨Vector.replicate size 0⟩

def get? (memory : Memory α size) (address : Nat) : Option α :=
  memory.cells[address]?

/-- Writes a cell; an address beyond the memory is ignored. -/
def set (memory : Memory α size) (address : Nat) (value : α) : Memory α size :=
  ⟨memory.cells.setIfInBounds address value⟩

def toList (memory : Memory α size) : List α :=
  memory.cells.toList

/-- The memory that begins with some cells and is zero behind them, if they fit. -/
def load? [OfNat α 0] (cells : List α) : Option (Memory α size) :=
  if fit : cells.length ≤ size then
    some ⟨⟨(cells ++ List.replicate (size - cells.length) 0).toArray, by simp; omega⟩⟩
  else none

@[simp] theorem length_toList (memory : Memory α size) : memory.toList.length = size := by
  simp [toList]

theorem getElem?_toList (memory : Memory α size) (address : Nat) :
    memory.toList[address]? = memory.get? address := by
  simp [toList, get?]

theorem get?_set (memory : Memory α size) (address other : Nat) (value : α) :
    (memory.set address value).get? other =
      if address = other ∧ other < size then some value else memory.get? other := by
  simp only [set, get?, Vector.getElem?_setIfInBounds]
  grind

theorem eq_of_get? {memory other : Memory α size}
    (same : ∀ address < size, memory.get? address = other.get? address) : memory = other := by
  obtain ⟨cells⟩ := memory
  obtain ⟨cells'⟩ := other
  congr
  apply Vector.ext
  intro address inside
  have read := same address inside
  simpa [get?, inside] using read

theorem toList_of_load? [OfNat α 0] {cells : List α} {memory : Memory α size}
    (loaded : load? cells = some memory) :
    memory.toList = cells ++ List.replicate (size - cells.length) 0 := by
  unfold load? at loaded
  split at loaded
  · cases loaded
    simp [toList]
  · simp at loaded

theorem load?_eq_none_iff [OfNat α 0] (cells : List α) :
    (load? cells : Option (Memory α size)) = none ↔ size < cells.length := by
  simp [load?]

end Memory

abbrev CodeMemory := Memory UInt32 codeSize

abbrev ByteMemory := Memory UInt8 dataSize

namespace ByteMemory

theorem address_lt (address : UInt8) : address.toNat < dataSize :=
  address.toNat_lt

def read (memory : ByteMemory) (address : UInt8) : UInt8 :=
  have bound := address_lt address
  memory.cells[address.toNat]

def write (memory : ByteMemory) (address value : UInt8) : ByteMemory :=
  ⟨memory.cells.set address.toNat value (address_lt address)⟩

theorem read_write (memory : ByteMemory) (address other value : UInt8) :
    (memory.write address value).read other =
      if address = other then value else memory.read other := by
  simp only [read, write, Vector.getElem_set, UInt8.toNat_inj]

end ByteMemory

end Gumnut
