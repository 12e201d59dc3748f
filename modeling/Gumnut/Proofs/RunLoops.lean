import Gumnut.Proofs.Requests
import Mathlib.Data.Nat.Find
import Mathlib.Order.Bounds.Basic

/-!
# Runs as iterated steps

A run is a number of steps: the least number behind which the session rests, or the limit of the run
if that comes first. A session rests if it is halted, and behind a step of the run also if it is not
idle or a latch that counts is set. The rules of a run know of no budget; with a limit a run always
ends, and without one it ends just if the session comes to rest.
-/
set_option autoImplicit false

namespace Gumnut.Session

inductive Loops {σ : Type} (tripwire : Tripwire σ) : σ → Session → Session → Prop where
  | halted {watch : σ} {session : Session} (halted : session.state = .halted) :
      Loops tripwire watch session session
  | tripped {watch next : σ} {session looked : Session} (running : session.state ≠ .halted)
      (trips : tripwire watch session = (false, next, looked)) :
      Loops tripwire watch session looked
  | paused {watch next : σ} {session looked : Session} (running : session.state ≠ .halted)
      (goesOn : tripwire watch session = (true, next, looked))
      (pauses : looked.step.pauses = true) :
      Loops tripwire watch session looked.step
  | turns {watch next : σ} {session looked final : Session} (running : session.state ≠ .halted)
      (goesOn : tripwire watch session = (true, next, looked))
      (unpaused : looked.step.pauses = false) (rest : Loops tripwire next looked.step final) :
      Loops tripwire watch session final

/-- Whether a run has come to rest behind a number of steps. A breakpoint and the latches are looked
at behind a step of the run only, so that it goes on from where an earlier one was paused. -/
def RestsAfter (session : Session) (k : Nat) : Prop :=
  let stepped := Session.step^[k] session
  stepped.state = .halted ∨
    1 ≤ k ∧ (stepped.state ≠ .idle ∨
      session.policy.stopOnWait = true ∧ stepped.machine.flags.wait = true ∨
      session.policy.stopOnStby = true ∧ stepped.machine.flags.stby = true)

instance (session : Session) (k : Nat) : Decidable (session.RestsAfter k) :=
  inferInstanceAs (Decidable (_ ∨ _))

/-- The test of a run with a limit that has begun with some count of steps. Counts are of 64 bits,
and so is their difference. -/
def withinLimit (start : Nat) (limit : UInt64) (session : Session) : Bool :=
  UInt64.ofNat session.steps - UInt64.ofNat start < limit

def Ends (test : Session → Bool) (session : Session) (k : Nat) : Prop :=
  let stepped := Session.step^[k] session
  stepped.state = .halted ∨ test stepped = false ∨ 0 < k ∧ stepped.pauses = true

variable {session final : Session} {test : Session → Bool} {k budget : Nat}

/-! ## The first end of a run -/

theorem isLeast_zero {p : Nat → Prop} (here : p 0) : IsLeast {k | p k} 0 :=
  ⟨here, fun _ _ => Nat.zero_le _⟩

theorem isLeast_one {p : Nat → Prop} (next : p 1) (notHere : ¬ p 0) : IsLeast {k | p k} 1 := by
  refine ⟨next, fun k holds => Nat.one_le_iff_ne_zero.mpr ?_⟩
  rintro rfl
  exact notHere holds

theorem isLeast_succ_iff {p q : Nat → Prop} (notHere : ¬ p 0) (shift : ∀ k, p (k + 1) ↔ q k) :
    IsLeast {k | p k} (k + 1) ↔ IsLeast {k | q k} k := by
  constructor
  · rintro ⟨holds, least⟩
    exact ⟨(shift k).mp holds, fun j other => Nat.le_of_succ_le_succ (least ((shift j).mpr other))⟩
  · rintro ⟨holds, least⟩
    refine ⟨(shift k).mpr holds, ?_⟩
    intro j other
    cases j with
    | zero => exact absurd other notHere
    | succ j => exact Nat.succ_le_succ (least ((shift j).mp other))

theorem ends_zero : Ends test session 0 ↔ session.state = .halted ∨ test session = false := by
  simp [Ends]

theorem not_ends_zero (running : session.state ≠ .halted) (goesOn : test session = true) :
    ¬ Ends test session 0 := by
  simp [ends_zero, running, goesOn]

theorem ends_one (pauses : session.step.pauses = true) : Ends test session 1 :=
  .inr (.inr ⟨Nat.one_pos, pauses⟩)

/-- Behind a step that does not pause it, a run ends where one ends that begins there. -/
theorem ends_succ (unpaused : session.step.pauses = false) (k : Nat) :
    Ends test session (k + 1) ↔ Ends test session.step k := by
  simp only [Ends, Function.iterate_succ_apply, Nat.succ_pos, true_and]
  cases k with
  | zero => simp [unpaused]
  | succ k => simp

/-! ## Runs under a test -/

theorem tripUnless_eq_iff {goesOn : Bool} {watch next : Unit} {looked : Session} :
    tripUnless test watch session = (goesOn, next, looked) ↔
      test session = goesOn ∧ session = looked := by
  simp [tripUnless]

theorem Loops.exists_isLeast {watch : Unit} (loops : Loops (tripUnless test) watch session final) :
    ∃ k, IsLeast {k | Ends test session k} k ∧ final = Session.step^[k] session := by
  induction loops with
  | halted halted => exact ⟨0, isLeast_zero (ends_zero.mpr (.inl halted)), rfl⟩
  | tripped running trips =>
    obtain ⟨failed, rfl⟩ := tripUnless_eq_iff.mp trips
    exact ⟨0, isLeast_zero (ends_zero.mpr (.inr failed)), rfl⟩
  | paused running goesOn pauses =>
    obtain ⟨holds, rfl⟩ := tripUnless_eq_iff.mp goesOn
    exact ⟨1, isLeast_one (ends_one pauses) (not_ends_zero running holds), rfl⟩
  | turns running goesOn unpaused rest ih =>
    obtain ⟨holds, rfl⟩ := tripUnless_eq_iff.mp goesOn
    obtain ⟨k, least, ended⟩ := ih
    exact ⟨k + 1, (isLeast_succ_iff (not_ends_zero running holds) (ends_succ unpaused)).mpr least,
      ended⟩

theorem Loops.of_isLeast (least : IsLeast {k | Ends test session k} k) :
    Loops (tripUnless test) () session (Session.step^[k] session) := by
  induction k generalizing session with
  | zero =>
    by_cases halted : session.state = .halted
    · exact .halted halted
    · have failed := (ends_zero.mp least.1).resolve_left halted
      have trips : tripUnless test () session = (false, (), session) :=
        tripUnless_eq_iff.mpr ⟨failed, rfl⟩
      exact .tripped halted trips
  | succ k ih =>
    have notHere : ¬ Ends test session 0 := fun now => absurd (least.2 now) (Nat.not_succ_le_zero k)
    obtain ⟨running, holds⟩ : session.state ≠ .halted ∧ test session = true := by
      simpa [ends_zero] using notHere
    have goesOn : tripUnless test () session = (true, (), session) :=
      tripUnless_eq_iff.mpr ⟨holds, rfl⟩
    cases pauses : session.step.pauses with
    | true =>
      obtain rfl : k = 0 := Nat.le_zero.mp (Nat.le_of_succ_le_succ (least.2 (ends_one pauses)))
      exact .paused running goesOn pauses
    | false =>
      exact .turns running goesOn pauses
        (ih ((isLeast_succ_iff notHere (ends_succ pauses)).mp least))

/-- A run under a test ends with the session behind the least number of steps at which it can. -/
theorem loops_iff :
    Loops (tripUnless test) () session final ↔
      ∃ k, IsLeast {k | Ends test session k} k ∧ final = Session.step^[k] session := by
  constructor
  · exact Loops.exists_isLeast
  · rintro ⟨k, least, rfl⟩
    exact .of_isLeast least

/-- With a budget of steps a run ends at the latest when that is used up. -/
theorem runWhile_eq (least : IsLeast {k | Ends test session k ∨ k = budget} k) :
    runWhile (tripUnless test) budget () session = Session.step^[k] session := by
  induction budget generalizing session k with
  | zero =>
    obtain rfl : k = 0 := Nat.le_zero.mp (least.2 (.inr rfl))
    rfl
  | succ budget ih =>
    rw [runWhile, runUnder]
    by_cases now : Ends test session 0
    · obtain rfl : k = 0 := Nat.le_zero.mp (least.2 (.inl now))
      split
      · rfl
      · rename_i running
        have failed := (ends_zero.mp now).resolve_left running
        rw [tripUnless, failed]
        rfl
    · obtain ⟨running, holds⟩ : session.state ≠ .halted ∧ test session = true := by
        simpa [ends_zero] using now
      have notHere : ¬ (Ends test session 0 ∨ 0 = budget + 1) := by simp [now]
      rw [if_neg running, tripUnless, holds]
      dsimp only
      cases pauses : session.step.pauses with
      | true =>
        obtain rfl : k = 1 := by
          have within := least.2 (.inl (ends_one pauses))
          have apart : k ≠ 0 := fun zero => notHere (zero ▸ least.1)
          omega
        rfl
      | false =>
        cases k with
        | zero => exact absurd least.1 notHere
        | succ k =>
          apply ih
          refine (isLeast_succ_iff notHere ?_).mp least
          intro k
          rw [ends_succ pauses, Nat.add_right_cancel_iff]

/-! ## Runs with and without a limit -/

theorem policy_step (session : Session) : session.step.policy = session.policy := by
  by_cases halted : session.state = .halted
  · rw [step_of_halted halted]
  · rw [step_eq halted]

theorem breakpoints_step (session : Session) : session.step.breakpoints = session.breakpoints := by
  by_cases halted : session.state = .halted
  · rw [step_of_halted halted]
  · rw [step_eq halted]

theorem kept_iterate {α : Type} {part : Session → α}
    (kept : ∀ session : Session, part session.step = part session) (session : Session) (k : Nat) :
    part (Session.step^[k] session) = part session := by
  induction k with
  | zero => rfl
  | succ k ih => rw [Function.iterate_succ_apply', kept, ih]

theorem running_of_step (running : session.step.state ≠ .halted) : session.state ≠ .halted := by
  intro halted
  rw [step_of_halted halted] at running
  exact running halted

/-- A step that does not end in a halt is counted. -/
theorem steps_step (running : session.step.state ≠ .halted) :
    session.step.steps = session.steps + 1 := by
  have before := running_of_step running
  have harmless : ¬ session.outcome.isFatal = true :=
    fun fatal => running ((state_step_eq_halted_iff before).mpr fatal)
  rw [step_eq before]
  exact if_neg harmless

theorem steps_le_step (session : Session) : session.steps ≤ session.step.steps := by
  by_cases halted : session.state = .halted
  · rw [step_of_halted halted]
  · rw [step_eq halted]
    dsimp only
    split
    · exact Nat.le_refl _
    · exact Nat.le_succ _

theorem steps_iterate (running : (Session.step^[k] session).state ≠ .halted) :
    (Session.step^[k] session).steps = session.steps + k := by
  induction k with
  | zero => rfl
  | succ k ih =>
    rw [Function.iterate_succ_apply'] at running ⊢
    rw [steps_step running, ih (running_of_step running), Nat.add_assoc]

theorem restsAfter_iff : session.RestsAfter k ↔ Ends (fun _ => true) session k := by
  have policy := kept_iterate policy_step session k
  simp only [RestsAfter, Ends, pauses, policy, Bool.or_eq_true, Bool.and_eq_true,
    bne_iff_ne, or_assoc, reduceCtorEq, false_or, Nat.succ_le_iff]

theorem running_of_not_restsAfter (restless : ¬ session.RestsAfter k) :
    (Session.step^[k] session).state ≠ .halted :=
  fun halted => restless (.inl halted)

/-- As long as a run has not come to rest, the steps that count are all its steps. -/
theorem restsAfter_or_counted_iff {limit : Nat} :
    session.RestsAfter k ∨ (Session.step^[k] session).steps = session.steps + limit ↔
      Ends (fun _ => true) session k ∨ k = limit := by
  rw [← restsAfter_iff]
  by_cases rests : session.RestsAfter k
  · simp [rests]
  · simp only [rests, false_or, steps_iterate (running_of_not_restsAfter rests),
      Nat.add_left_cancel_iff]

theorem exists_isLeast_limit (session : Session) (limit : Nat) :
    ∃ k ≤ limit, IsLeast {k | Ends (fun _ => true) session k ∨ k = limit} k := by
  classical
  have reached : ∃ k, Ends (fun _ => true) session k ∨ k = limit := ⟨limit, .inr rfl⟩
  exact ⟨Nat.find reached, Nat.find_min' reached (.inr rfl), Nat.find_spec reached,
    fun _ holds => Nat.find_min' reached holds⟩

theorem withinLimit_eq {start : Nat} {limit : UInt64} (counted : session.steps = start + k)
    (small : k < UInt64.size) : session.withinLimit start limit = decide (k < limit.toNat) := by
  have difference : UInt64.ofNat (start + k) - UInt64.ofNat start = UInt64.ofNat k := by
    rw [UInt64.ofNat_add, UInt64.add_comm, UInt64.add_sub_cancel]
  simp only [withinLimit, counted, difference, UInt64.lt_iff_toNat_lt,
    UInt64.toNat_ofNat_of_lt' small]

/-- The test of a limit ends a run behind as many steps as the limit. -/
theorem isLeast_withinLimit {limit : UInt64}
    (least : IsLeast {k | Ends (fun _ => true) session k ∨ k = limit.toNat} k) :
    IsLeast {k | Ends (withinLimit session.steps limit) session k} k := by
  have within : k ≤ limit.toNat := least.2 (.inr rfl)
  have bound : limit.toNat < UInt64.size := limit.toNat_lt
  refine ⟨?_, ?_⟩
  · by_cases rests : session.RestsAfter k
    · rcases restsAfter_iff.mp rests with halted | tripped | paused
      · exact .inl halted
      · cases tripped
      · exact .inr (.inr paused)
    · obtain rfl : k = limit.toNat :=
        least.1.resolve_left fun ends => rests (restsAfter_iff.mpr ends)
      refine .inr (.inl ?_)
      rw [withinLimit_eq (steps_iterate (running_of_not_restsAfter rests)) bound]
      exact decide_eq_false (Nat.lt_irrefl _)
  · intro j ends
    by_contra early
    have restless : ¬ Ends (fun _ => true) session j := fun rests => early (least.2 (.inl rests))
    have counted := steps_iterate fun halted => restless (.inl halted)
    rcases ends with halted | tripped | paused
    · exact restless (.inl halted)
    · rw [withinLimit_eq counted (by omega), decide_eq_false_iff_not] at tripped
      omega
    · exact restless (.inr (.inr paused))

/-- A run that comes to rest before its counter is full makes no more steps than that can count. -/
theorem le_size_of_isLeast (rests : IsLeast {k | session.RestsAfter k} k)
    (countable : (Session.step^[k] session).steps < UInt64.size) : k ≤ UInt64.size := by
  cases k with
  | zero => exact Nat.zero_le _
  | succ k =>
    have restless : ¬ session.RestsAfter k := fun earlier =>
      absurd (rests.2 earlier) (Nat.not_succ_le_self k)
    have counted := steps_iterate (running_of_not_restsAfter restless)
    have grows := steps_le_step (Session.step^[k] session)
    rw [Function.iterate_succ_apply'] at countable
    omega

/-! ## Breakpoints -/

theorem not_atBreakpoint_of_idle (idle : session.step.state = .idle) :
    session.step.atBreakpoint = false := by
  have running : session.state ≠ .halted := by
    apply running_of_step
    rw [idle]
    decide
  have state : session.step.state = session.stateAfter session.outcome := by rw [step_eq running]
  have same : session.step.atBreakpoint =
      { session with machine := session.outcome.1 }.atBreakpoint := by
    rw [step_eq running]
    rfl
  rw [state, stateAfter] at idle
  rw [same]
  by_contra stops
  rw [Bool.not_eq_false] at stops
  rw [stops, Bool.or_true, if_pos rfl] at idle
  split at idle
  · cases idle
  · cases idle

/-- A run without actions of its own executes no line with a breakpoint but maybe the first. -/
theorem no_breakpoint_of_onlyLooks {request : Request} (runs : request.IsRun)
    (looks : request.OnlyLooks) (session : Session) :
    ∃ k, request.actions session = List.replicate k .step ∧
      session.serve request = Session.step^[k] session ∧
      ∀ j, 0 < j → j < k → ∀ line, (Session.step^[j] session).currentLine? = some line →
        session.breakpoints.contains line = false := by
  obtain ⟨k, steps, served, idle⟩ := steps_of_onlyLooks runs looks session
  refine ⟨k, steps, served, ?_⟩
  intro j later early line current
  obtain ⟨i, rfl⟩ := Nat.exists_eq_add_one_of_ne_zero (Nat.ne_of_gt later)
  have passed := idle i early
  rw [Function.iterate_succ_apply'] at passed current
  have clear := not_atBreakpoint_of_idle passed
  rw [atBreakpoint, current, breakpoints_step, kept_iterate breakpoints_step] at clear
  exact clear

/-- A run comes to the least number of steps behind which the session rests or as many steps as its
limit have counted; at most as many are made. Without a limit it ends just if the session comes to
rest, and then a run with a limit that is not less ends alike. No run executes a line with a
breakpoint but at its first step. -/
theorem runs_iterate_steps (session : Session) :
    (∀ limit : UInt64, ∃ k, k ≤ limit.toNat ∧
      IsLeast {k | session.RestsAfter k ∨
        (Session.step^[k] session).steps = session.steps + limit.toNat} k ∧
      session.runFor limit.toNat = Session.step^[k] session ∧
      ∀ final, Loops (tripUnless (withinLimit session.steps limit)) () session final ↔
        final = Session.step^[k] session) ∧
    (∀ final, Loops untripped () session final ↔
      ∃ k, IsLeast {k | session.RestsAfter k} k ∧ final = Session.step^[k] session) ∧
    (∀ k, IsLeast {k | session.RestsAfter k} k →
      (∀ limit, k ≤ limit → session.runFor limit = Session.step^[k] session) ∧
      ((Session.step^[k] session).steps < UInt64.size → session.run = Session.step^[k] session)) ∧
    (∀ request : Request, request.IsRun → request.OnlyLooks → ∃ k,
      request.actions session = List.replicate k .step ∧
      session.serve request = Session.step^[k] session ∧
      ∀ j, 0 < j → j < k → ∀ line, (Session.step^[j] session).currentLine? = some line →
        session.breakpoints.contains line = false) := by
  refine ⟨?_, ?_, ?_, ?_⟩
  · intro limit
    obtain ⟨k, within, least⟩ := session.exists_isLeast_limit limit.toNat
    refine ⟨k, within, ?_, runWhile_eq least, ?_⟩
    · simpa only [restsAfter_or_counted_iff] using least
    · intro final
      have first := isLeast_withinLimit least
      rw [loops_iff]
      constructor
      · rintro ⟨other, first', rfl⟩
        rw [first.unique first']
      · rintro rfl
        exact ⟨k, first, rfl⟩
  · intro final
    simp only [restsAfter_iff]
    exact loops_iff
  · intro k rests
    have ends : ∀ limit, k ≤ limit → session.runFor limit = Session.step^[k] session := by
      intro limit within
      apply runWhile_eq
      refine ⟨.inl (restsAfter_iff.mp rests.1), ?_⟩
      rintro j (earlier | rfl)
      · exact rests.2 (restsAfter_iff.mpr earlier)
      · exact within
    exact ⟨ends, fun countable => ends unlimited (le_size_of_isLeast rests countable)⟩
  · intro request runs looks
    exact no_breakpoint_of_onlyLooks runs looks session

def paused : Session :=
  ((setup {} "loop: add r0, r0, 1\n jmp loop\n").toggleBreakpoint 1).1.step

theorem runs_iterate_steps_paused :
    paused.state = .breakpoint ∧ paused.currentLine? = some 1 ∧
      paused.run = Session.step^[2] paused ∧ paused.runFor 9 = Session.step^[2] paused ∧
      (∀ final, Loops untripped () paused final ↔ final = Session.step^[2] paused) ∧
      paused.runFor 1 = paused.step := by
  obtain ⟨limited, free, resting, -⟩ := runs_iterate_steps paused
  have rests : paused.RestsAfter 2 ∧ ¬ paused.RestsAfter 0 ∧ ¬ paused.RestsAfter 1 := by
    decide +kernel
  have least : IsLeast {k | paused.RestsAfter k} 2 := by
    refine ⟨rests.1, ?_⟩
    intro k holds
    match k with
    | 0 => exact absurd holds rests.2.1
    | 1 => exact absurd holds rests.2.2
    | k + 2 => exact Nat.le_add_left 2 k
  have ends := resting 2 least
  refine ⟨by decide +kernel, by decide +kernel, ends.2 (by decide +kernel), ends.1 9 (by decide),
    ?_, ?_⟩
  · intro final
    rw [free]
    constructor
    · rintro ⟨k, least', rfl⟩
      rw [least'.unique least]
    · rintro rfl
      exact ⟨2, least, rfl⟩
  · obtain ⟨k, small, ⟨stops, -⟩, ends', -⟩ := limited 1
    have going : ¬ (paused.RestsAfter 0 ∨ paused.steps = paused.steps + 1) := by
      simp [rests.2.1]
    match k with
    | 0 => exact absurd stops going
    | 1 => exact ends'
    | k + 2 => exact absurd small (by simp)

end Gumnut.Session
