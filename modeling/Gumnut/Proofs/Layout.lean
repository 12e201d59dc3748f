import Gumnut.Assembly.Line

/-!
# Where lines go

The layout of a program, read off its lines alone: a walk over them in order, from address zero of
both memories, in which `org` sets where instructions go on, each instruction takes one word, and
each `byte` line one byte. A walk knows no symbols, no limits and no faults.
-/
set_option autoImplicit false

namespace Gumnut

namespace Line

def operation? (line : Line) : Option Operation :=
  match line.mnemonic with
  | some (.operation operation) => some operation
  | _ => none

def isInstruction (line : Line) : Bool :=
  line.operation?.isSome

def isByte (line : Line) : Bool :=
  line.mnemonic == some .byte

def codeAfter (line : Line) (code : Nat) : Nat :=
  match line.mnemonic, line.operands.first with
  | some .org, some (.number address) => address.toNat
  | some (.operation _), _ => code + 1
  | _, _ => code

def dataAfter (line : Line) (data : Nat) : Nat :=
  if line.isByte then data + 1 else data

theorem mnemonic_of_isInstruction {line : Line} (kind : line.isInstruction = true) :
    ∃ operation, line.mnemonic = some (.operation operation) := by
  unfold isInstruction operation? at kind
  split at kind
  · rename_i operation mnemonic
    exact ⟨operation, mnemonic⟩
  · cases kind

end Line

/-- A line where the walk meets it: its number, counted from zero, and where the next instruction
and the next data byte go. -/
structure Site where
  number : Nat
  code : Nat
  data : Nat
  line : Line

def Site.isInstructionAt (site : Site) (address : Nat) : Bool :=
  site.line.isInstruction && site.code == address

theorem Site.isInstructionAt_iff {site : Site} {address : Nat} :
    site.isInstructionAt address = true ↔
      site.line.isInstruction = true ∧ site.code = address := by
  rw [isInstructionAt, Bool.and_eq_true, beq_iff_eq]

namespace Layout

def walk (number code data : Nat) : List Line → List Site
  | [] => []
  | line :: rest =>
    ⟨number, code, data, line⟩ ::
      walk (number + 1) (line.codeAfter code) (line.dataAfter data) rest

def ofLines (lines : List Line) : List Site :=
  walk 0 0 0 lines

def instructionsAt (lines : List Line) (address : Nat) : List Site :=
  (ofLines lines).filter fun site => site.isInstructionAt address

def byteLines (lines : List Line) : List Line :=
  lines.filter Line.isByte

theorem line_of_mem_walk {number code data : Nat} {lines : List Line} {site : Site}
    (member : site ∈ walk number code data lines) :
    number ≤ site.number ∧ lines[site.number - number]? = some site.line := by
  induction lines generalizing number code data with
  | nil => cases member
  | cons line rest ih =>
    rcases List.mem_cons.mp member with rfl | later
    · simp
    · obtain ⟨after, found⟩ := ih later
      have index : site.number - number = site.number - (number + 1) + 1 := by omega
      rw [index, List.getElem?_cons_succ]
      exact ⟨by omega, found⟩

theorem line_of_mem_ofLines {lines : List Line} {site : Site} (member : site ∈ ofLines lines) :
    lines[site.number]? = some site.line :=
  (line_of_mem_walk member).2

theorem code_of_getLast? {lines : List Line} {address : Nat} {site : Site}
    (ending : (instructionsAt lines address).getLast? = some site) : site.code = address := by
  obtain ⟨-, here⟩ := List.mem_filter.mp (List.mem_of_getLast? ending)
  exact (Site.isInstructionAt_iff.mp here).2

def codePointer (lines : List Line) (count : Nat) : Nat :=
  (lines.take count).foldl (fun code line => line.codeAfter code) 0

def dataPointer (lines : List Line) (count : Nat) : Nat :=
  (lines.take count).countP Line.isByte

theorem codePointer_succ {lines : List Line} {count : Nat} {line : Line}
    (here : lines[count]? = some line) :
    codePointer lines (count + 1) = line.codeAfter (codePointer lines count) := by
  rw [codePointer, List.take_add_one, here, Option.toList_some, List.foldl_append, codePointer]
  rfl

theorem getElem?_walk (number code data : Nat) (lines : List Line) (count : Nat) :
    (walk number code data lines)[count]? = lines[count]?.map fun line =>
      ⟨number + count, (lines.take count).foldl (fun code line => line.codeAfter code) code,
        data + (lines.take count).countP Line.isByte, line⟩ := by
  induction lines generalizing number code data count with
  | nil => rfl
  | cons line rest ih =>
    cases count with
    | zero => rfl
    | succ count =>
      have next : line.dataAfter data + (rest.take count).countP Line.isByte =
          data + ((line :: rest).take (count + 1)).countP Line.isByte := by
        rw [List.take_succ_cons, List.countP_cons, Line.dataAfter]
        split <;> omega
      rw [walk, List.getElem?_cons_succ, List.getElem?_cons_succ, ih, next, List.take_succ_cons,
        List.foldl_cons, Nat.add_right_comm]
      rfl

def siteAt (lines : List Line) (number : Nat) (line : Line) : Site :=
  ⟨number, codePointer lines number, dataPointer lines number, line⟩

theorem getElem?_ofLines (lines : List Line) (number : Nat) :
    (ofLines lines)[number]? = lines[number]?.map (siteAt lines number) := by
  have walked := getElem?_walk 0 0 0 lines number
  simp only [Nat.zero_add] at walked
  exact walked

theorem siteAt_mem {lines : List Line} {number : Nat} {line : Line}
    (here : lines[number]? = some line) : siteAt lines number line ∈ ofLines lines := by
  apply List.mem_of_getElem? (i := number)
  rw [getElem?_ofLines, here, Option.map_some]

theorem eq_siteAt_of_mem {lines : List Line} {site : Site} (member : site ∈ ofLines lines) :
    lines[site.number]? = some site.line ∧ site = siteAt lines site.number site.line := by
  obtain ⟨number, found⟩ := List.mem_iff_getElem?.mp member
  rw [getElem?_ofLines] at found
  obtain ⟨line, here, rfl⟩ := Option.map_eq_some_iff.mp found
  exact ⟨here, rfl⟩

end Layout

end Gumnut
