import Gumnut.Machine.ReturnStack

/-!
# The return stack as a bounded list

No calls tell a return stack from a list of at most eight addresses, in whatever order addresses are
pushed and popped and however many calls fail on the way. What has been left in slots that are not
in use is never answered. The bound that a stack carries with it is not needed for this: slots with
a bare number of those in use give the same answers, and no call looks for a slot that is not there.

Both are shown for one call, as a square between the stack and its view, and a run over several
calls repeats the square.
-/
set_option autoImplicit false

namespace Gumnut

inductive StackCall where
  | push (address : UInt16)
  | pop
  deriving DecidableEq, Repr

/-- The answer to a call: the address that is popped, nothing for one that is pushed, or a fault. -/
abbrev StackAnswer := Except Fault (Option UInt16)

/-- The slots of a stack and a number of those in use that nothing bounds. -/
structure BareStack where
  slots : Vector UInt16 8 := Vector.replicate 8 0
  depth : Nat := 0

def ReturnStack.bare (stack : ReturnStack) : BareStack :=
  ⟨stack.slots, stack.depth⟩

namespace StackCall

def onStack (stack : ReturnStack) : StackCall → StackAnswer × ReturnStack
  | push address =>
    match stack.push address with
    | .ok pushed => (.ok none, pushed)
    | .error fault => (.error fault, stack)
  | pop =>
    match stack.pop with
    | .ok (address, popped) => (.ok (some address), popped)
    | .error fault => (.error fault, stack)

def onList (addresses : List UInt16) : StackCall → StackAnswer × List UInt16
  | push address =>
    if addresses.length < 8 then (.ok none, addresses ++ [address])
    else (.error (.returnStackOverflow address), addresses)
  | pop =>
    match addresses.getLast? with
    | some address => (.ok (some address), addresses.dropLast)
    | none => (.error .emptyReturnStack, addresses)

/-- A call of bare slots. It has no answer if it reads a slot that is not there. -/
def onSlots (stack : BareStack) : StackCall → Option StackAnswer × BareStack
  | push address =>
    match stack.slots[stack.depth]? with
    | some _ => (some (.ok none), ⟨stack.slots.setIfInBounds stack.depth address, stack.depth + 1⟩)
    | none => (some (.error (.returnStackOverflow address)), stack)
  | pop =>
    match stack.depth with
    | 0 => (some (.error .emptyReturnStack), stack)
    | top + 1 => (stack.slots[top]?.map fun address => .ok (some address), ⟨stack.slots, top⟩)

section

variable {σ τ α β : Type}

def run (answer : σ → StackCall → α × σ) (state : σ) : List StackCall → List α × σ
  | [] => ([], state)
  | call :: rest =>
    let answered := answer state call
    let behind := run answer answered.2 rest
    (answered.1 :: behind.1, behind.2)

/-- If every call can be made on the view of a state as well, then so can several calls. -/
theorem run_view {answer : σ → StackCall → α × σ} {answer' : τ → StackCall → β × τ}
    {tell : α → β} {view : σ → τ}
    (square : ∀ state call, answer' (view state) call = (answer state call).map tell view)
    (state : σ) (calls : List StackCall) :
    run answer' (view state) calls = (run answer state calls).map (List.map tell) view := by
  induction calls generalizing state with
  | nil => rfl
  | cons call rest ih => simp only [run, square, Prod.map, ih, List.map_cons]

end

end StackCall

namespace ReturnStack

open StackCall

/-! ## One call -/

theorem length_lt_of_push {stack pushed : ReturnStack} {address : UInt16}
    (pushes : stack.push address = .ok pushed) : stack.toList.length < 8 := by
  have longer := congrArg List.length (toList_push pushes)
  rw [length_toList, List.length_append, List.length_singleton] at longer
  have bound := pushed.depth_le
  omega

theorem onList_toList (stack : ReturnStack) (call : StackCall) :
    onList stack.toList call = (onStack stack call).map id toList := by
  cases call with
  | push address =>
    rw [onList, onStack]
    cases pushes : stack.push address with
    | ok pushed =>
      rw [if_pos (length_lt_of_push pushes), ← toList_push pushes]
      rfl
    | error fault =>
      obtain ⟨full, rfl⟩ := (push_eq_error_iff stack address fault).mp pushes
      have long : ¬ stack.toList.length < 8 := by
        rw [length_toList, full]
        exact Nat.lt_irrefl 8
      rw [if_neg long]
      rfl
  | pop =>
    rw [onList, onStack]
    cases pops : stack.pop with
    | ok top =>
      obtain ⟨address, popped⟩ := top
      rw [toList_pop pops, List.getLast?_concat, List.dropLast_concat]
      rfl
    | error fault =>
      obtain ⟨empty, rfl⟩ := (pop_eq_error_iff stack fault).mp pops
      have unused : stack.toList = [] := by
        rw [List.eq_nil_iff_length_eq_zero, length_toList, empty]
      simp only [unused, List.getLast?_nil, Prod.map, id]

theorem setIfInBounds_eq_set (slots : Vector UInt16 8) {depth : Nat} (free : depth < 8)
    (address : UInt16) : slots.setIfInBounds depth address = slots.set depth address free := by
  ext i inside
  rw [Vector.getElem_setIfInBounds inside, Vector.getElem_set]

/-- The bound of a stack can be left away: no call looks for a slot that is not there. -/
theorem onSlots_bare (stack : ReturnStack) (call : StackCall) :
    onSlots stack.bare call = (onStack stack call).map some bare := by
  obtain ⟨slots, depth, bound⟩ := stack
  cases call with
  | push address =>
    by_cases free : depth < 8
    · have there : slots[depth]? = some slots[depth] := Vector.getElem?_eq_getElem free
      simp only [onSlots, onStack, push, bare, there, dif_pos free, Prod.map,
        setIfInBounds_eq_set slots free]
    · have missing : slots[depth]? = none := Vector.getElem?_eq_none (Nat.not_lt.mp free)
      simp only [onSlots, onStack, push, bare, missing, dif_neg free, Prod.map]
  | pop =>
    cases depth with
    | zero => rfl
    | succ top =>
      have there : slots[top]? = some slots[top] := Vector.getElem?_eq_getElem bound
      simp only [onSlots, onStack, pop, bare, there, dif_pos top.succ_pos, Prod.map,
        Option.map_some, Nat.add_sub_cancel]

theorem onStack_of_error {stack : ReturnStack} {call : StackCall} {fault : Fault}
    (fails : (onStack stack call).1 = .error fault) : (onStack stack call).2 = stack := by
  revert fails
  fun_cases onStack stack call with
  | case1 | case3 => nofun
  | case2 | case4 => exact fun _ => rfl

/-! ## Several calls -/

/-- What is in the slots that are not in use does not belong to the list of a stack. -/
theorem toList_eq_of_agree {stack other : ReturnStack} (depth : stack.depth = other.depth)
    (agree : ∀ i < stack.depth, stack.slots[i]? = other.slots[i]?) :
    stack.toList = other.toList := by
  apply List.ext_getElem?
  intro i
  rw [toList, toList, List.getElem?_take, List.getElem?_take, ← depth]
  split
  · rename_i used
    simpa using agree i used
  · rfl

theorem run_onList (stack : ReturnStack) (calls : List StackCall) :
    run onList stack.toList calls = (run onStack stack calls).map id toList := by
  have viewed := run_view onList_toList stack calls
  rwa [List.map_id_fun] at viewed

theorem run_onSlots (stack : ReturnStack) (calls : List StackCall) :
    run onSlots stack.bare calls = (run onStack stack calls).map (List.map some) bare :=
  run_view onSlots_bare stack calls

/-- Stacks that differ only in slots that are not in use answer all further calls alike, and stand
for the same list behind them. -/
theorem run_eq_of_agree {stack other : ReturnStack} (depth : stack.depth = other.depth)
    (agree : ∀ i < stack.depth, stack.slots[i]? = other.slots[i]?) (calls : List StackCall) :
    (run onStack stack calls).map id toList = (run onStack other calls).map id toList := by
  rw [← run_onList, ← run_onList, toList_eq_of_agree depth agree]

/-- A return stack is a list of at most eight addresses. Behind any calls on the empty stack, it has
answered as the list has and stands for it, bare slots have answered the same, each call from a slot
that is there, and a call that fails leaves all slots as they are. What is in slots that are not in
use makes no difference to any further calls. -/
theorem refines_bounded_list :
    (∀ (calls : List StackCall) (answers : List StackAnswer) (stack : ReturnStack),
      run onStack empty calls = (answers, stack) →
        run onList [] calls = (answers, stack.toList) ∧
        run onSlots {} calls = (answers.map some, ⟨stack.slots, stack.depth⟩) ∧
        stack.depth ≤ 8 ∧
        ∀ call fault, (onStack stack call).1 = .error fault → (onStack stack call).2 = stack) ∧
    ∀ stack other : ReturnStack, stack.depth = other.depth →
      (∀ i < stack.depth, stack.slots[i]? = other.slots[i]?) →
        ∀ calls, (run onStack stack calls).1 = (run onStack other calls).1 ∧
          (run onStack stack calls).2.toList = (run onStack other calls).2.toList := by
  constructor
  · intro calls answers stack ran
    have listed := run_onList empty calls
    have bared := run_onSlots empty calls
    rw [ran] at listed bared
    exact ⟨listed, bared, stack.depth_le, fun call fault fails => onStack_of_error fails⟩
  · intro stack other depth agree calls
    exact Prod.ext_iff.mp (run_eq_of_agree depth agree calls)

/-- Nine addresses are pushed, of which the last one is refused, and two of them popped. -/
def overfill : List StackCall :=
  [.push 0, .push 2, .push 4, .push 6, .push 8, .push 10, .push 12, .push 14, .push 291, .pop, .pop]

theorem refines_bounded_list_overfill :
    (run onStack empty overfill).2 ≠ (run onStack empty (overfill.take 6)).2 ∧
    run onList [] overfill = ((run onStack empty overfill).1, [0, 2, 4, 6, 8, 10]) ∧
    (run onStack empty overfill).1[8]? = some (.error (.returnStackOverflow 291)) ∧
    ∀ calls, (run onStack (run onStack empty overfill).2 calls).1 =
      (run onStack (run onStack empty (overfill.take 6)).2 calls).1 := by
  obtain ⟨behind, further⟩ := refines_bounded_list
  obtain ⟨listed, -⟩ := behind overfill _ _ rfl
  refine ⟨by decide +kernel, listed, rfl, fun calls => ?_⟩
  exact (further _ _ (by decide +kernel) (by decide +kernel) calls).1

end ReturnStack

end Gumnut
