import Gumnut.Proofs.Bounds
import Gumnut.Proofs.HexLines
import Gumnut.Proofs.Requests

/-!
# Loading

Cells are uploaded into a memory in place, over what it held before, and are refused if there are
more than it has. An image begins with as many zeros as the memories have cells, and is made by
writing some of them; so it keeps their number, however it has come about, its upload is never
refused, and loading it always starts a session over.
-/
set_option autoImplicit false

namespace Gumnut

/-! ## Memories -/

namespace Memory

variable {α : Type} {size : Nat} [OfNat α 0]

/-- Cells that began as zeros and have been written one by one, each where there was one. -/
inductive Written (size : Nat) : List α → Prop
  | zeros : Written size (List.replicate size 0)
  | set {cells : List α} (written : Written size cells) {address : Nat}
      (inside : address < cells.length) (value : α) : Written size (cells.set address value)

theorem Written.length_eq {cells : List α} (written : Written size cells) :
    cells.length = size := by
  induction written with
  | zeros => exact List.length_replicate
  | set written inside value ih => rw [List.length_set, ih]

theorem toList_set {α : Type} {size : Nat} (memory : Memory α size) (address : Nat) (value : α) :
    (memory.set address value).toList = memory.toList.set address value := by
  rw [set, toList, Vector.toList_setIfInBounds]
  rfl

theorem written_zero : Written size (zero : Memory α size).toList := by
  rw [zero, toList, Vector.toList_replicate]
  exact .zeros

theorem written_set {memory : Memory α size} (written : Written size memory.toList) {address : Nat}
    (inside : address < size) (value : α) : Written size (memory.set address value).toList := by
  rw [toList_set]
  exact written.set (by rwa [written.length_eq]) value

def overwrite (memory : Memory α size) (cells : List α) : Nat → Memory α size
  | 0 => memory
  | k + 1 => (memory.overwrite cells k).set k (cells.getD k 0)

def refill (memory : Memory α size) (cells : List α) : Memory α size :=
  memory.overwrite cells size

theorem get?_overwrite (memory : Memory α size) (cells : List α) {k : Nat} (inside : k ≤ size)
    (address : Nat) :
    (memory.overwrite cells k).get? address =
      if address < k then some (cells.getD address 0) else memory.get? address := by
  induction k with
  | zero => rfl
  | succ k ih =>
    rw [overwrite, get?_set, ih (Nat.le_of_succ_le inside)]
    by_cases here : k = address
    · subst here
      rw [if_pos ⟨rfl, inside⟩, if_pos (Nat.lt_succ_self k)]
    · have same : address < k + 1 ↔ address < k := by omega
      rw [if_neg fun both => here both.1]
      simp only [same]

theorem toList_refill (memory : Memory α size) {cells : List α} (fit : cells.length ≤ size) :
    (memory.refill cells).toList = cells ++ List.replicate (size - cells.length) 0 := by
  apply List.ext_getElem?
  intro address
  rw [getElem?_toList, refill, get?_overwrite memory cells (Nat.le_refl size),
    List.getElem?_append, List.getElem?_replicate]
  by_cases given : address < cells.length
  · rw [if_pos (Nat.lt_of_lt_of_le given fit), if_pos given, List.getD_eq_getElem?_getD,
      List.getElem?_eq_getElem given, Option.getD_some]
  · have behind : address - cells.length < size - cells.length ↔ address < size := by omega
    have past : cells[address]? = none := List.getElem?_eq_none (Nat.le_of_not_lt given)
    rw [if_neg given, List.getD_eq_getElem?_getD, past, Option.getD_none]
    by_cases inside : address < size
    · rw [if_pos inside, if_pos (behind.mpr inside)]
    · rw [if_neg inside, if_neg fun early => inside (behind.mp early)]
      exact Vector.getElem?_eq_none (Nat.le_of_not_lt inside)

theorem written_overwrite {memory : Memory α size} (written : Written size memory.toList)
    (cells : List α) {k : Nat} (inside : k ≤ size) :
    Written size (memory.overwrite cells k).toList := by
  induction k with
  | zero => exact written
  | succ k ih => exact written_set (ih (Nat.le_of_succ_le inside)) inside _

/-- Loading cells is refilling whatever memory there was. -/
theorem load?_eq_refill (memory : Memory α size) {cells : List α} (fit : cells.length ≤ size) :
    load? cells = some (memory.refill cells) := by
  obtain ⟨loaded, loads, whole⟩ := exists_load? (α := α) fit
  rw [loads, toList_inj.mp (whole.trans (memory.toList_refill fit).symm)]

theorem refill_toList (memory other : Memory α size) : memory.refill other.toList = other := by
  have refilled := memory.load?_eq_refill (Nat.le_of_eq other.length_toList)
  rw [load?_toList] at refilled
  exact (Option.some.inj refilled).symm

theorem written_load? {cells : List α} {memory : Memory α size}
    (loaded : load? cells = some memory) : Written size memory.toList := by
  rw [zero.load?_eq_refill (fits_of_load? loaded)] at loaded
  cases loaded
  exact written_overwrite written_zero cells (Nat.le_refl size)

end Memory

/-! ## Images -/

namespace Draft

structure IsWritten (draft : Draft) : Prop where
  code : Memory.Written codeSize draft.code.toList
  data : Memory.Written dataSize draft.data.toList

variable {pass : Pass} {draft next final : Draft} {number : Nat} {line : Line} {lines : List Line}

theorem IsWritten.start (symbols : SymbolTable) : IsWritten { symbols } :=
  ⟨Memory.written_zero, Memory.written_zero⟩

theorem IsWritten.places (written : draft.IsWritten) (places : Places pass draft number line next) :
    next.IsWritten := by
  cases places with
  | blank | label | org => exact ⟨written.code, written.data⟩
  | byte mnemonic operands room => exact ⟨written.code, Memory.written_set written.data room _⟩
  | instruction mnemonic room => exact ⟨Memory.written_set written.code room _, written.data⟩

theorem IsWritten.runs (written : draft.IsWritten) (runs : Runs pass draft number lines final) :
    final.IsWritten := by
  induction runs with
  | nil => exact written
  | cons places runs ih => exact ih (written.places places)

/-- Whichever pass gave the draft of a program, its memories are written from zeros. -/
theorem isWritten_of_ofLines (drafted : ofLines lines = .ok final) : final.IsWritten := by
  obtain ⟨bound, first, rest⟩ := ofLines_eq_ok_iff.mp drafted
  split at rest
  · exact (IsWritten.start bound.symbols).runs rest
  · cases rest
    exact (IsWritten.start .empty).runs first

end Draft

namespace Image

/-- The images that there are: those of programs, of words and bytes, and of what is stored in some
format, and the empty one. -/
inductive Obtained : Image → Prop
  | assembled {lines : List Line} {image : Image} (assembles : ofLines lines = .ok image) :
      Obtained image
  | raw {words : List UInt32} {bytes : List UInt8} {image : Image}
      (fit : ofWords words bytes = .ok image) : Obtained image
  | empty : Obtained empty
  | stored {Stream : Type} {format : StorageFormat Stream} {code data : Stream} {image : Image}
      (reads : format.read? code data = some image) : Obtained image

theorem written_of_ofWords {words : List UInt32} {bytes : List UInt8} {image : Image}
    (fit : ofWords words bytes = .ok image) :
    Memory.Written codeSize image.code.toList ∧ Memory.Written dataSize image.data.toList := by
  unfold ofWords at fit
  split at fit
  · cases fit
  · cases fit
  · rename_i code data codeLoaded dataLoaded
    cases fit
    exact ⟨Memory.written_load? codeLoaded, Memory.written_load? dataLoaded⟩

theorem Obtained.written {image : Image} (obtained : image.Obtained) :
    Memory.Written codeSize image.code.toList ∧ Memory.Written dataSize image.data.toList := by
  cases obtained with
  | assembled assembles =>
    obtain ⟨draft, drafted, code, data, -⟩ := draft_of_ofLines assembles
    have written := Draft.isWritten_of_ofLines drafted
    rw [code, data]
    exact ⟨written.code, written.data⟩
  | raw fit => exact written_of_ofWords fit
  | empty => exact ⟨Memory.written_zero, Memory.written_zero⟩
  | stored reads =>
    obtain ⟨words, bytes, -, -, loads⟩ := StorageFormat.read?_eq_some_iff.mp reads
    exact written_of_ofWords (ofWords_eq_ok_iff.mpr loads)

end Image

/-! ## Uploads -/

namespace Machine

theorem act_uploadCode (machine : Machine) {words : List UInt32} (fit : words.length ≤ codeSize) :
    machine.act (.uploadCode words) =
      ({ machine with code := machine.code.refill words }, none) := by
  rw [act, uploadCode, machine.code.load?_eq_refill fit]

theorem act_uploadCode_of_excess (machine : Machine) {words : List UInt32}
    (excess : codeSize < words.length) :
    machine.act (.uploadCode words) = (machine, some (.codeTooLarge words.length)) := by
  rw [act, uploadCode, (Memory.load?_eq_none_iff words).mpr excess]

theorem act_uploadBytes (machine : Machine) (space : Space) {bytes : List UInt8}
    (fit : bytes.length ≤ dataSize) :
    machine.act (.uploadBytes space bytes) =
      (machine.setMemory space ((machine.memory space).refill bytes), none) := by
  rw [act, uploadBytes, (machine.memory space).load?_eq_refill fit]

theorem act_uploadBytes_of_excess (machine : Machine) (space : Space) {bytes : List UInt8}
    (excess : dataSize < bytes.length) :
    machine.act (.uploadBytes space bytes) = (machine, some (.dataTooLarge bytes.length)) := by
  rw [act, uploadBytes, (Memory.load?_eq_none_iff bytes).mpr excess]

/-- The two uploads of an image, of which the second is made only if the first goes through. -/
def upload (machine : Machine) (image : Image) : Outcome :=
  match machine.act (.uploadCode image.code.toList) with
  | (loaded, none) => loaded.act (.uploadBytes .data image.data.toList)
  | refused => refused

theorem upload_eq (machine : Machine) (image : Image) :
    machine.upload image = ({ machine with code := image.code, data := image.data }, none) := by
  rw [upload, act_uploadCode machine (Nat.le_of_eq image.code.length_toList)]
  dsimp only
  rw [act_uploadBytes _ _ (Nat.le_of_eq image.data.length_toList), Memory.refill_toList,
    Memory.refill_toList]
  rfl

end Machine

namespace Session

def restart (session : Session) (image : Image) : Session :=
  match session.reset.machine.upload image with
  | (machine, some fault) => { session.reset with machine, exception := some (.machine fault) }
  | (machine, none) =>
    { session.reset with
      machine
      image
      state := if image.instructionCount = 0 then .halted else .idle }

theorem load_eq_restart (session : Session) (image : Image) :
    session.load image = session.restart image := by
  rw [restart, Machine.upload_eq]
  rfl

end Session

/-- Loading always goes through. An image has just as many cells as the memories, so that its
uploads are not refused by any machine, and a session that loads it has nothing left of what it was
but the policy. An upload of cells that are too many leaves the machine as it was; any other leaves
the cells with zeros behind them, and of the memory's former contents nothing. -/
theorem loading_is_total :
    (∀ image : Image, image.Obtained →
      image.code.toList.length = codeSize ∧ image.data.toList.length = dataSize) ∧
    (∀ (machine : Machine) (image : Image),
      machine.upload image = ({ machine with code := image.code, data := image.data }, none)) ∧
    (∀ (session : Session) (image : Image),
      session.load image = session.restart image ∧
      session.restart image =
        { policy := session.policy
          image
          machine := { code := image.code, data := image.data }
          state := if 0 < image.instructionCount then .idle else .halted }) ∧
    (∀ (machine : Machine) (words : List UInt32),
      codeSize < words.length ∧
        machine.act (.uploadCode words) = (machine, some (.codeTooLarge words.length)) ∨
      ∃ code : CodeMemory, words.length ≤ codeSize ∧
        machine.act (.uploadCode words) = ({ machine with code }, none) ∧
        code = machine.code.refill words ∧
        code.toList = words ++ List.replicate (codeSize - words.length) 0) ∧
    (∀ (machine : Machine) (space : Space) (bytes : List UInt8),
      dataSize < bytes.length ∧
        machine.act (.uploadBytes space bytes) = (machine, some (.dataTooLarge bytes.length)) ∨
      ∃ memory : ByteMemory, bytes.length ≤ dataSize ∧
        machine.act (.uploadBytes space bytes) = (machine.setMemory space memory, none) ∧
        memory = (machine.memory space).refill bytes ∧
        memory.toList = bytes ++ List.replicate (dataSize - bytes.length) 0) := by
  refine ⟨?_, Machine.upload_eq, ?_, ?_, ?_⟩
  · intro image obtained
    obtain ⟨code, data⟩ := obtained.written
    exact ⟨code.length_eq, data.length_eq⟩
  · intro session image
    refine ⟨session.load_eq_restart image, ?_⟩
    have counted : (if image.instructionCount = 0 then RunState.halted else .idle) =
        if 0 < image.instructionCount then .idle else .halted := by
      simp only [Nat.pos_iff_ne_zero, ite_not]
    rw [← session.load_eq_restart, Session.load, counted]
    rfl
  · intro machine words
    rcases Nat.lt_or_ge codeSize words.length with excess | fit
    · exact .inl ⟨excess, machine.act_uploadCode_of_excess excess⟩
    · exact .inr ⟨_, fit, machine.act_uploadCode fit, rfl, machine.code.toList_refill fit⟩
  · intro machine space bytes
    rcases Nat.lt_or_ge dataSize bytes.length with excess | fit
    · exact .inl ⟨excess, machine.act_uploadBytes_of_excess space excess⟩
    · exact .inr ⟨_, fit, machine.act_uploadBytes space fit, rfl, Memory.toList_refill _ fit⟩

def occupied : Machine :=
  { registers := Vector.replicate 8 7, counter := 9, data := ByteMemory.write .zero 200 5 }

theorem loading_is_total_occupied :
    ∃ image, Image.ofWords [0x901, 0x902] [42] = .ok image ∧
      image.code.toList.length = 4096 ∧ image.data.toList.length = 256 ∧
      occupied.upload image = ({ occupied with code := image.code, data := image.data }, none) ∧
      (Session.load { machine := occupied } image).state = .idle ∧
      ∃ memory : ByteMemory,
        (occupied.act (.uploadBytes .data [1, 2])).1 = { occupied with data := memory } ∧
        memory.toList = [1, 2] ++ List.replicate 254 0 := by
  obtain ⟨sizes, uploads, sessions, -, bytes⟩ := loading_is_total
  obtain ⟨image, made⟩ : ∃ image, Image.ofWords [0x901, 0x902] [42] = .ok image := ⟨_, rfl⟩
  obtain ⟨code, data⟩ := sizes image (.raw made)
  obtain ⟨restarts, started⟩ := sessions { machine := occupied } image
  have count : image.instructionCount = 2 := (Image.ofWords_eq_ok_iff.mp made).count
  refine ⟨image, made, code, data, uploads occupied image, ?_, ?_⟩
  · rw [restarts, started, count]
    rfl
  · rcases bytes occupied .data [1, 2] with ⟨excess, -⟩ | ⟨memory, -, loaded, -, cells⟩
    · exact absurd excess (by decide)
    · exact ⟨memory, congrArg Prod.fst loaded, cells⟩

end Gumnut
