import Gumnut.Proofs.Assembled
import Gumnut.Proofs.Steps

/-!
# Where control goes

Where a machine goes that comes to a branch or a jump of its program, told by the value of the
operand in the source. A displacement has eight bits, so a branch reaches one of the 256 addresses
around it, the one that agrees with its target modulo 256; a jump reaches its target modulo 4096.
-/
set_option autoImplicit false

namespace Gumnut

/-- Whether a branch at an address goes to a place for a target: the place agrees with the target
modulo 256 and lies within the reach of a signed byte behind the branch. -/
def InReach (address t : Nat) (place : Int) : Prop :=
  place % 256 = (t : Int) % 256 ∧
    (address : Int) + 1 - 128 ≤ place ∧ place ≤ (address : Int) + 1 + 127

namespace InReach

variable {address t : Nat} {place other : Int}

theorem unique (reached : InReach address t place) (reached' : InReach address t other) :
    place = other := by
  obtain ⟨low, below, above⟩ := reached
  obtain ⟨low', below', above'⟩ := reached'
  omega

theorem of_near (below : -128 ≤ (t : Int) - (address + 1)) (above : (t : Int) - (address + 1) ≤ 127) :
    InReach address t t :=
  ⟨rfl, by omega, by omega⟩

theorem of_byte {byte : UInt8} (means : (byte.toNat : Int) = ((t : Int) - (address + 1)) % 256) :
    InReach address t (address + 1 + signedByte byte) := by
  obtain ⟨below, above⟩ := signedByte_bounds byte
  have low := signedByte_emod byte
  rw [means] at low
  have agrees : ((address : Int) + 1 + signedByte byte) % 256 = (t : Int) % 256 := by omega
  exact ⟨agrees, by omega, by omega⟩

/-- The place that a displacement leads to is the one within reach. -/
theorem of_displacement (address t : Nat) :
    InReach address t
      (address + 1 + signedByte (UInt8.ofInt (((t : Int) - (address + 1)) % 256))) := by
  apply of_byte
  rw [UInt8.ofInt, UInt8.toNat_ofNat']
  omega

end InReach

namespace Machine

def StepsTo (machine : Machine) (address : Nat) (met : Option Fault) : Prop :=
  machine.step.1.counter.toNat = address ∧ machine.step.2 = met

theorem stepsTo_goneTo {machine before : Machine} {address : Nat} {met : Option Fault}
    (inside : address < codeSize) (steps : machine.step = (before.goneTo address, met)) :
    machine.StepsTo address met := by
  rw [StepsTo, steps]
  exact ⟨before.counter_goneTo inside, rfl⟩

variable {machine : Machine}

theorem stepsTo_taken {cond : Condition} {t : Nat} {place : Int}
    (read : machine.code.get? machine.counter.toNat = some (Instruction.branch cond
      (UInt8.ofInt (((t : Int) - (machine.counter.toNat + 1)) % 256))).encode)
    (taken : holds machine.flags cond = true)
    (reached : InReach machine.counter.toNat t place) :
    (0 ≤ place ∧ place < codeSize → machine.StepsTo place.toNat none) ∧
    (place < 0 ∨ codeSize ≤ place →
      machine.StepsTo machine.counter.toNat (some (.badCounter place))) := by
  have steps := step_taken read taken
  have aimed := reached.unique (.of_displacement machine.counter.toNat t)
  rw [branchTarget, ← aimed] at steps
  constructor
  · intro inside
    have inside' : 0 ≤ place ∧ place.toNat < codeSize := ⟨inside.1, by omega⟩
    rw [if_pos inside'] at steps
    exact stepsTo_goneTo inside'.2 steps
  · intro outside
    rw [if_neg (by omega)] at steps
    rw [StepsTo, steps]
    exact ⟨rfl, rfl⟩

theorem stepsTo_passed {cond : Condition} {displacement : UInt8}
    (read : machine.code.get? machine.counter.toNat =
      some (Instruction.branch cond displacement).encode)
    (passed : holds machine.flags cond = false) (inside : machine.counter.toNat + 1 < codeSize) :
    machine.StepsTo (machine.counter.toNat + 1) none :=
  stepsTo_goneTo inside (step_not_taken read passed inside)

theorem toNat_jumpTarget (t : Nat) : (UInt16.ofNat (t % 4096)).toNat = t % 4096 :=
  UInt16.toNat_ofNat_of_lt' (Nat.lt_trans (Nat.mod_lt t (by decide)) (by decide))

theorem jumpTarget_lt (t : Nat) : (UInt16.ofNat (t % 4096)).toNat < 4096 := by
  rw [toNat_jumpTarget]
  exact Nat.mod_lt t (by decide)

theorem stepsTo_jmp {t : Nat}
    (read : machine.code.get? machine.counter.toNat =
      some (Instruction.jump .jmp (UInt16.ofNat (t % 4096))).encode) :
    machine.StepsTo (t % 4096) none := by
  have steps := step_jmp (jumpTarget_lt t) read
  rw [toNat_jumpTarget] at steps
  exact stepsTo_goneTo (Nat.mod_lt t (by decide)) steps

theorem stepsTo_jsb {t : Nat}
    (read : machine.code.get? machine.counter.toNat =
      some (Instruction.jump .jsb (UInt16.ofNat (t % 4096))).encode) :
    machine.StepsTo (t % 4096)
      (if machine.returns.isFull then some (.returnStackOverflow machine.counter) else none) := by
  have inside : t % 4096 < codeSize := Nat.mod_lt t (by decide)
  have steps := step_jsb (jumpTarget_lt t) read
  rw [toNat_jumpTarget] at steps
  cases pushed : machine.returns.push machine.counter with
  | ok returns =>
    rw [pushed] at steps
    have free : ¬ machine.returns.isFull = true := by
      intro full
      have refused := (ReturnStack.push_eq_error_iff machine.returns machine.counter _).mpr
        ⟨beq_iff_eq.mp full, rfl⟩
      rw [pushed] at refused
      cases refused
    rw [if_neg free]
    exact stepsTo_goneTo inside steps
  | error fault =>
    rw [pushed] at steps
    obtain ⟨full, rfl⟩ := (ReturnStack.push_eq_error_iff _ _ _).mp pushed
    have full' : machine.returns.isFull = true := beq_iff_eq.mpr full
    rw [if_pos full']
    exact stepsTo_goneTo inside steps

end Machine

/-- A machine at a branch or a jump of the image that it holds goes where the source says. -/
theorem Image.control_reaches_target {lines : List Line} {image : Image} {machine : Machine}
    {site : Site} {target : Operand} {t : Nat} (assembles : ofLines lines = .ok image)
    (ending : (Layout.instructionsAt lines machine.counter.toNat).getLast? = some site)
    (operand : site.line.operands.first = some target)
    (value : target.valueIn? image.symbols = some t) (loaded : machine.code = image.code) :
    (∀ cond, site.line.operation? = some (.branch cond) →
      (Machine.holds machine.flags cond = true →
        (-128 ≤ (t : Int) - (machine.counter.toNat + 1) →
          (t : Int) - (machine.counter.toNat + 1) ≤ 127 → t < codeSize →
            machine.StepsTo t none) ∧
        ∃ place, InReach machine.counter.toNat t place ∧
          (∀ other, InReach machine.counter.toNat t other → other = place) ∧
          (0 ≤ place ∧ place < codeSize → machine.StepsTo place.toNat none) ∧
          (place < 0 ∨ codeSize ≤ place →
            machine.StepsTo machine.counter.toNat (some (.badCounter place)))) ∧
      (Machine.holds machine.flags cond = false → machine.counter.toNat + 1 < codeSize →
        machine.StepsTo (machine.counter.toNat + 1) none)) ∧
    (site.line.operation? = some (.jump .jmp) → machine.StepsTo (t % 4096) none) ∧
    (site.line.operation? = some (.jump .jsb) → machine.StepsTo (t % 4096)
      (if machine.returns.isFull then some (.returnStackOverflow machine.counter) else none)) := by
  obtain ⟨instruction, ⟨operation, mnemonic, denotes⟩, read⟩ := word_of_getLast? assembles ending
  have place : site.code = machine.counter.toNat := Layout.code_of_getLast? ending
  rw [place] at denotes
  rw [← loaded] at read
  refine ⟨fun cond branches => ?_, fun jumps => ?_, fun calls => ?_⟩
  · cases mnemonic.symm.trans branches
    rw [denotes.eq_branch operand value] at read
    refine ⟨fun taken => ⟨fun below above inside => ?_, ?_⟩, Machine.stepsTo_passed read⟩
    · have within : 0 ≤ (t : Int) ∧ (t : Int) < codeSize := by omega
      exact (Machine.stepsTo_taken read taken (.of_near below above)).1 within
    · exact ⟨_, .of_displacement _ t, fun other reached => reached.unique (.of_displacement _ t),
        Machine.stepsTo_taken read taken (.of_displacement _ t)⟩
  · cases mnemonic.symm.trans jumps
    rw [denotes.eq_jump operand value] at read
    exact Machine.stepsTo_jmp read
  · cases mnemonic.symm.trans calls
    rw [denotes.eq_jump operand value] at read
    exact Machine.stepsTo_jsb read

theorem Image.control_reaches_target_overlaid :
    ∃ image, ofLines overlaid = .ok image ∧ (Machine.load {} image).StepsTo 2 none := by
  obtain ⟨image, assembles⟩ := isOk_overlaid
  have bound : (ofLines overlaid).toOption.map
      (fun image => (Operand.symbol "done").valueIn? image.symbols) = some (some 2) := by
    decide +kernel
  rw [assembles] at bound
  have value : (Operand.symbol "done").valueIn? image.symbols = some 2 := Option.some.inj bound
  have ending : (Layout.instructionsAt overlaid (Machine.load {} image).counter.toNat).getLast? =
      some ⟨0, 0, 0, overlaid[0]⟩ := rfl
  have near : -128 ≤ ((2 : Nat) : Int) - (((0 : Nat) : Int) + 1) ∧
      ((2 : Nat) : Int) - (((0 : Nat) : Int) + 1) ≤ 127 := by decide
  have branches := (control_reaches_target assembles ending rfl value rfl).1 .nz rfl
  exact ⟨image, assembles, (branches.1 rfl).1 near.1 near.2 (by decide)⟩

end Gumnut
