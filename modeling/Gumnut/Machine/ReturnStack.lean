import Gumnut.Machine.Fault

/-!
# The return stack

The return stack: eight slots for addresses and the number of them in use. A slot that is no
longer in use keeps its address. Read from the bottom up, the slots in use are the list that
`push` appends to and `pop` takes the last address from.
-/
set_option autoImplicit false

namespace Gumnut

structure ReturnStack where
  slots : Vector UInt16 8 := Vector.replicate 8 0
  depth : Nat := 0
  depth_le : depth ≤ 8 := by decide
  deriving DecidableEq

namespace ReturnStack

def empty : ReturnStack := {}

def capacity : Nat := 8

/-- The addresses in use, from the bottom up. -/
def toList (stack : ReturnStack) : List UInt16 :=
  stack.slots.toList.take stack.depth

def isEmpty (stack : ReturnStack) : Bool :=
  stack.depth == 0

def isFull (stack : ReturnStack) : Bool :=
  stack.depth == capacity

def push (stack : ReturnStack) (address : UInt16) : Except Fault ReturnStack :=
  if free : stack.depth < 8 then
    .ok ⟨stack.slots.set stack.depth address, stack.depth + 1, free⟩
  else .error (.returnStackOverflow address)

def pop (stack : ReturnStack) : Except Fault (UInt16 × ReturnStack) :=
  if used : 0 < stack.depth then
    have bound := stack.depth_le
    .ok (stack.slots[stack.depth - 1], ⟨stack.slots, stack.depth - 1, by omega⟩)
  else .error .emptyReturnStack

@[simp] theorem length_toList (stack : ReturnStack) : stack.toList.length = stack.depth := by
  simp [toList, stack.depth_le]

theorem toList_push {stack pushed : ReturnStack} {address : UInt16}
    (pushes : stack.push address = .ok pushed) : pushed.toList = stack.toList ++ [address] := by
  unfold push at pushes
  split at pushes
  · rename_i free
    cases pushes
    apply List.ext_getElem?
    intro i
    simp only [toList, List.getElem?_take, Vector.toList_set, List.getElem?_set,
      List.getElem?_append, List.length_take, Vector.length_toList]
    grind
  · simp at pushes

theorem push_eq_error_iff (stack : ReturnStack) (address : UInt16) (fault : Fault) :
    stack.push address = .error fault ↔
      stack.depth = 8 ∧ fault = .returnStackOverflow address := by
  have bound := stack.depth_le
  unfold push
  split
  · simp only [reduceCtorEq, false_iff]
    omega
  · simp only [Except.error.injEq, eq_comm]
    grind

theorem toList_pop {stack popped : ReturnStack} {address : UInt16}
    (pops : stack.pop = .ok (address, popped)) : stack.toList = popped.toList ++ [address] := by
  unfold pop at pops
  split at pops
  · rename_i used
    have bound := stack.depth_le
    simp only [Except.ok.injEq, Prod.mk.injEq] at pops
    obtain ⟨rfl, rfl⟩ := pops
    have inside : stack.depth - 1 < stack.slots.toList.length := by
      rw [Vector.length_toList]
      omega
    have last := List.take_succ_eq_append_getElem inside
    rw [Nat.sub_add_cancel used] at last
    simpa only [toList, Vector.getElem_toList] using last
  · simp at pops

theorem pop_eq_error_iff (stack : ReturnStack) (fault : Fault) :
    stack.pop = .error fault ↔ stack.depth = 0 ∧ fault = .emptyReturnStack := by
  unfold pop
  split
  · simp only [reduceCtorEq, false_iff]
    omega
  · simp only [Except.error.injEq, eq_comm]
    grind

end ReturnStack

end Gumnut
