import Mathlib.Data.List.Induction
import Mathlib.Order.Bounds.Basic
import Mathlib.Order.MinMax
import Mathlib.Tactic.Common

/-!
# Runs of a machine

A machine answers a call in each state, or refuses it.  `exec` runs it through a list of calls,
`Along` says that every call of such a run meets a condition in the state in which it is made, and
`total` is the machine that refuses nothing.
-/

namespace Runs

variable {State Call : Type*}

/-- Make the calls one after another, failing at the first one refused. -/
def exec (step : State → Call → Option State) : State → List Call → Option State
  | state, [] => some state
  | state, call :: calls => step state call >>= fun next => exec step next calls

/-- Every call of the run meets the condition in the state in which it is made. -/
def Along (step : State → Call → Option State) (condition : State → Call → Prop) :
    State → List Call → Prop
  | _, [] => True
  | state, call :: calls =>
      condition state call ∧ ∀ next, step state call = some next → Along step condition next calls

/-- What is observed at the calls of a run, in order. -/
def observed {Output : Type*} (step : State → Call → Option State)
    (observe : State → Call → List Output) : State → List Call → List Output
  | _, [] => []
  | state, call :: calls =>
      observe state call ++ (step state call).elim [] fun next => observed step observe next calls

instance Along.decidable {step : State → Call → Option State} {condition : State → Call → Prop}
    [∀ state call, Decidable (condition state call)] :
    (state : State) → (calls : List Call) → Decidable (Along step condition state calls)
  | _, [] => inferInstanceAs (Decidable True)
  | state, call :: calls =>
      have : DecidablePred fun next => Along step condition next calls :=
        fun next => Along.decidable next calls
      inferInstanceAs (Decidable (condition state call ∧
        ∀ next ∈ step state call, Along step condition next calls))

/-- The machine that answers every call. -/
def total (step : State → Call → State) (state : State) (call : Call) : Option State :=
  some (step state call)

@[simp] theorem exec_nil (step : State → Call → Option State) (state : State) :
    exec step state [] = some state := rfl

theorem exec_cons_eq_some {step : State → Call → Option State} {state final : State}
    {call : Call} {calls : List Call} :
    exec step state (call :: calls) = some final ↔
      ∃ next, step state call = some next ∧ exec step next calls = some final := by
  simp [exec, Option.bind_eq_some_iff]

/-- A run goes on from where another one ended. -/
theorem exec_append {step : State → Call → Option State} (state : State)
    (calls further : List Call) :
    exec step state (calls ++ further) =
      exec step state calls >>= fun next => exec step next further := by
  induction calls generalizing state with
  | nil => rfl
  | cons call calls induction =>
      rw [List.cons_append, exec, exec, bind_assoc]
      exact congrArg _ (funext induction)

@[simp] theorem along_nil (step : State → Call → Option State)
    (condition : State → Call → Prop) (state : State) : Along step condition state [] :=
  trivial

@[simp] theorem exec_total (step : State → Call → State) (state : State) (calls : List Call) :
    exec (total step) state calls = some (calls.foldl step state) := by
  induction calls generalizing state with
  | nil => rfl
  | cons call calls induction => simpa [exec, total] using induction (step state call)

@[simp] theorem along_total_cons (step : State → Call → State)
    (condition : State → Call → Prop) (state : State) (call : Call) (calls : List Call) :
    Along (total step) condition state (call :: calls) ↔
      condition state call ∧ Along (total step) condition (step state call) calls := by
  simp [Along, total]

/-- A condition on the calls alone. -/
theorem along_total_const_iff {step : State → Call → State} {condition : Call → Prop}
    {state : State} {calls : List Call} :
    Along (total step) (fun _ call => condition call) state calls ↔
      ∀ call ∈ calls, condition call := by
  induction calls generalizing state with
  | nil => simp
  | cons call calls induction => rw [along_total_cons, induction, List.forall_mem_cons]

theorem along_of_forall {step : State → Call → Option State} {condition : State → Call → Prop}
    (always : ∀ state call, condition state call) (state : State) (calls : List Call) :
    Along step condition state calls := by
  induction calls generalizing state with
  | nil => trivial
  | cons call calls induction => exact ⟨always state call, fun next _ => induction next⟩

/-- A condition that all calls meet, whatever the state. -/
theorem along_of_forall_mem (step : State → Call → Option State) {condition : Call → Prop}
    {calls : List Call} (met : ∀ call ∈ calls, condition call) (state : State) :
    Along step (fun _ call => condition call) state calls := by
  induction calls generalizing state with
  | nil => trivial
  | cons call calls induction =>
      exact ⟨met call (.head _), fun next _ =>
        induction (fun other member => met other (.tail _ member)) next⟩

/-- A property of calls holds along a run if an invariant that gives it is kept by the calls that
meet a condition. -/
theorem Along.of_invariant {step : State → Call → Option State}
    {valid condition property : State → Call → Prop} (invariant : State → Prop)
    (preserved : ∀ state call next, valid state call → condition state call → invariant state →
      step state call = some next → invariant next)
    (holds : ∀ state call, valid state call → invariant state → property state call)
    {state : State} {calls : List Call} (start : invariant state)
    (allowed : Along step valid state calls) (met : Along step condition state calls) :
    Along step property state calls := by
  induction calls generalizing state with
  | nil => trivial
  | cons call calls induction =>
      refine ⟨holds state call allowed.1 start, fun next taken => ?_⟩
      exact induction (preserved state call next allowed.1 met.1 start taken)
        (allowed.2 next taken) (met.2 next taken)

/-- Conditions that agree wherever an invariant holds agree along every run. -/
theorem along_congr {step : State → Call → Option State} {left right : State → Call → Prop}
    (invariant : State → Prop)
    (preserved : ∀ state call next, step state call = some next → invariant state →
      invariant next)
    (same : ∀ state call, invariant state → (left state call ↔ right state call))
    {state : State} (start : invariant state) (calls : List Call) :
    Along step left state calls ↔ Along step right state calls := by
  induction calls generalizing state with
  | nil => exact Iff.rfl
  | cons call calls induction =>
      refine and_congr (same state call start) (forall_congr' fun next => ?_)
      exact imp_congr_right fun taken => induction (preserved state call next taken start)

/-- Exact conditions for what must hold after every call of a run: each call keeps the machine good
in a good state precisely when it meets `condition`. -/
theorem along_good_iff_along {step : State → Call → Option State}
    {condition : State → Call → Prop} (invariant : State → Prop) {good : State → Prop}
    (preserved : ∀ state call next, step state call = some next → invariant state →
      invariant next)
    (exactly : ∀ state call, invariant state → good state →
      ((∀ next, step state call = some next → good next) ↔ condition state call))
    {state : State} (start : invariant state) (well : good state) (calls : List Call) :
    Along step (fun state call => ∀ next, step state call = some next → good next) state calls ↔
      Along step condition state calls := by
  induction calls generalizing state with
  | nil => exact Iff.rfl
  | cons call calls induction =>
      have now := exactly state call start well
      refine ⟨fun ⟨after, later⟩ => ⟨now.mp after, fun next taken => ?_⟩,
        fun ⟨met, later⟩ => ⟨now.mpr met, fun next taken => ?_⟩⟩
      · exact (induction (preserved state call next taken start) (after next taken)).mp
          (later next taken)
      · exact (induction (preserved state call next taken start) (now.mpr met next taken)).mpr
          (later next taken)

/-- Exact conditions for a machine that must answer every call of a run, and be good after it. -/
theorem along_answered_iff_along {step : State → Call → Option State}
    {condition : State → Call → Prop} (invariant : State → Prop) {good : State → Prop}
    (preserved : ∀ state call next, step state call = some next → invariant state →
      invariant next)
    (exactly : ∀ state call, invariant state → good state →
      ((∃ next, step state call = some next ∧ good next) ↔ condition state call))
    {state : State} (start : invariant state) (well : good state) (calls : List Call) :
    Along step (fun state call => ∃ next, step state call = some next ∧ good next) state calls ↔
      Along step condition state calls := by
  induction calls generalizing state with
  | nil => exact Iff.rfl
  | cons call calls induction =>
      rw [Along, Along, exactly state call start well]
      refine and_congr_right fun met => forall_congr' fun next => imp_congr_right fun taken => ?_
      obtain ⟨next', taken', after⟩ := (exactly state call start well).mpr met
      obtain rfl := Option.some.inj (taken.symm.trans taken')
      exact induction (preserved state call next taken start) after

/-- Exact conditions for what must hold after every call, for a machine that answers every call. -/
theorem along_good_total_iff {step : State → Call → State} {condition : State → Call → Prop}
    (invariant : State → Prop) {good : State → Prop}
    (preserved : ∀ state call, invariant state → invariant (step state call))
    (exactly : ∀ state call, invariant state → good state →
      (good (step state call) ↔ condition state call))
    {state : State} (start : invariant state) (well : good state) (calls : List Call) :
    Along (total step) (fun state call => good (step state call)) state calls ↔
      Along (total step) condition state calls := by
  have after : ∀ state call, good (step state call) ↔
      ∀ next, total step state call = some next → good next := by simp [total]
  simp only [after] at exactly ⊢
  refine along_good_iff_along invariant ?_ exactly start well calls
  rintro state call _ ⟨⟩
  exact preserved state call

/-- What every allowed call preserves holds at the end of an allowed run. -/
theorem exec_invariant {step : State → Call → Option State}
    {condition : State → Call → Prop} {invariant : State → Prop}
    (preserved : ∀ state call next, invariant state → condition state call →
      step state call = some next → invariant next)
    {state final : State} {calls : List Call} (start : invariant state)
    (allowed : Along step condition state calls) (run : exec step state calls = some final) :
    invariant final := by
  induction calls generalizing state with
  | nil =>
      obtain rfl : state = final := by simpa using run
      exact start
  | cons call calls induction =>
      obtain ⟨next, taken, rest⟩ := exec_cons_eq_some.mp run
      exact induction (preserved state call next start allowed.1 taken)
        (allowed.2 next taken) rest

/-- What every call preserves holds at the end of every run. -/
theorem exec_invariant_of_forall {step : State → Call → Option State} {invariant : State → Prop}
    (preserved : ∀ state call next, invariant state → step state call = some next →
      invariant next)
    {state final : State} {calls : List Call} (start : invariant state)
    (run : exec step state calls = some final) : invariant final :=
  exec_invariant (fun state call next before _ taken => preserved state call next before taken)
    start (along_of_forall (fun _ _ => trivial) state calls) run

/-- A relation between the calls made so far and the state, kept by every call of a run, holds at
its end. -/
theorem exec_history {step : State → Call → Option State} {related : List Call → State → Prop}
    {start : State}
    (preserved : ∀ sofar state call next, exec step start sofar = some state →
      related sofar state → step state call = some next → related (sofar ++ [call]) next)
    (first : related [] start) {calls : List Call} {final : State}
    (run : exec step start calls = some final) : related calls final := by
  induction calls using List.reverseRecOn generalizing final with
  | nil =>
      obtain rfl : start = final := by simpa using run
      exact first
  | append_singleton calls call induction =>
      rw [exec_append, Option.bind_eq_bind, Option.bind_eq_some_iff] at run
      obtain ⟨state, before, last⟩ := run
      obtain ⟨next, taken, same⟩ := exec_cons_eq_some.mp last
      obtain rfl : next = final := by simpa using same
      exact preserved calls state call next before (induction before) taken

/-- What holds before every call that leads to a state it holds of, holds at the start of a run if
it holds at its end. -/
theorem exec_backward {step : State → Call → Option State} {bounded : State → Prop}
    (earlier : ∀ state call next, step state call = some next → bounded next → bounded state)
    {state final : State} {calls : List Call} (run : exec step state calls = some final)
    (limit : bounded final) : bounded state := by
  induction calls generalizing state with
  | nil =>
      obtain rfl : state = final := by simpa using run
      exact limit
  | cons call calls induction =>
      obtain ⟨next, taken, rest⟩ := exec_cons_eq_some.mp run
      exact earlier state call next taken (induction rest)

/-- If every call that counts lowers a measure, a run makes no more of them than the measure is at
its start. -/
theorem countP_add_measure_le {step : State → Call → Option State}
    {bounded invariant : State → Prop} (measure : State → Nat) (counts : Call → Bool)
    (earlier : ∀ state call next, step state call = some next → bounded next → bounded state)
    (lowers : ∀ state call next, invariant state → bounded state → step state call = some next →
      invariant next ∧ (counts call).toNat + measure next ≤ measure state)
    {state final : State} {calls : List Call} (start : invariant state)
    (run : exec step state calls = some final) (limit : bounded final) :
    invariant final ∧ calls.countP counts + measure final ≤ measure state := by
  induction calls generalizing state with
  | nil =>
      obtain rfl : state = final := by simpa using run
      exact ⟨start, by simp⟩
  | cons call calls induction =>
      obtain ⟨next, taken, rest⟩ := exec_cons_eq_some.mp run
      have limited := earlier state call next taken (exec_backward earlier rest limit)
      obtain ⟨after, lowered⟩ := lowers state call next start limited taken
      obtain ⟨atEnd, later⟩ := induction after rest
      refine ⟨atEnd, ?_⟩
      rw [List.countP_cons]
      cases counted : counts call <;> simp [counted] at lowered ⊢ <;> omega

/-- What every call preserves holds at the end of every run of a total machine. -/
theorem foldl_invariant {step : State → Call → State} {invariant : State → Prop}
    (preserved : ∀ state call, invariant state → invariant (step state call))
    {state : State} (start : invariant state) (calls : List Call) :
    invariant (calls.foldl step state) := by
  induction calls generalizing state with
  | nil => exact start
  | cons call calls induction => exact induction (preserved state call start)

/-- If every call raises `peak` to what `current` is after it, and no further, then `peak` is the
greatest value `current` has had in the run. -/
theorem isGreatest_of_max {Value : Type*} [LinearOrder Value] {step : State → Call → State}
    (peak current : State → Value) (invariant : State → Prop)
    (preserved : ∀ state call, invariant state → invariant (step state call))
    (raised : ∀ state call, invariant state →
      peak (step state call) = max (peak state) (current (step state call)))
    {state : State} (start : invariant state) (first : peak state = current state)
    (calls : List Call) :
    IsGreatest { value | ∃ sofar, sofar <+: calls ∧ value = current (sofar.foldl step state) }
      (peak (calls.foldl step state)) := by
  induction calls using List.reverseRecOn with
  | nil => simp [IsGreatest, upperBounds, first]
  | append_singleton calls call induction =>
      have before := foldl_invariant preserved start calls
      rw [List.foldl_append, List.foldl_cons, List.foldl_nil, raised _ call before]
      constructor
      · rcases max_choice (peak (calls.foldl step state))
            (current (step (calls.foldl step state) call)) with same | same
        · obtain ⟨sofar, isPrefix, value⟩ := induction.1
          exact ⟨sofar, isPrefix.trans (List.prefix_append _ _), same.trans value⟩
        · exact ⟨calls ++ [call], List.prefix_rfl, by rw [same, List.foldl_append]; rfl⟩
      · rintro _ ⟨sofar, isPrefix, rfl⟩
        rcases List.prefix_concat_iff.mp isPrefix with whole | earlier
        · rw [whole, List.foldl_append]
          exact le_max_right _ _
        · exact (induction.2 ⟨sofar, earlier, rfl⟩).trans (le_max_left _ _)

theorem along_cons_of_step {step : State → Call → Option State}
    {condition : State → Call → Prop} {state next : State} {call : Call} {calls : List Call}
    (taken : step state call = some next) :
    Along step condition state (call :: calls) ↔
      condition state call ∧ Along step condition next calls := by
  simp [Along, taken]

@[simp] theorem observed_nil {Output : Type*} (step : State → Call → Option State)
    (observe : State → Call → List Output) (state : State) : observed step observe state [] = [] :=
  rfl

theorem observed_cons_of_step {Output : Type*} {step : State → Call → Option State}
    {observe : State → Call → List Output} {state next : State} {call : Call} {calls : List Call}
    (taken : step state call = some next) :
    observed step observe state (call :: calls) =
      observe state call ++ observed step observe next calls := by
  simp [observed, taken]

/-- What is observed of a run and of one more call. -/
theorem observed_concat {Output : Type*} {step : State → Call → Option State}
    (observe : State → Call → List Output) {start state : State} {calls : List Call}
    (run : exec step start calls = some state) (call : Call) :
    observed step observe start (calls ++ [call]) =
      observed step observe start calls ++ observe state call := by
  induction calls generalizing start with
  | nil =>
      obtain rfl : start = state := by simpa using run
      cases taken : step start call <;> simp [observed, taken]
  | cons earlier calls induction =>
      obtain ⟨next, taken, rest⟩ := exec_cons_eq_some.mp run
      rw [List.cons_append, observed_cons_of_step taken, observed_cons_of_step taken,
        induction rest, List.append_assoc]

/-- A relation between what was observed so far and the state, kept by every call of a run, holds at
its end. -/
theorem exec_observed {Output : Type*} {step : State → Call → Option State}
    {observe : State → Call → List Output} (related : List Output → State → Prop) {start : State}
    (preserved : ∀ sofar state call next, exec step start sofar = some state →
      related (observed step observe start sofar) state → step state call = some next →
        related (observed step observe start sofar ++ observe state call) next)
    (first : related [] start) {calls : List Call} {final : State}
    (run : exec step start calls = some final) :
    related (observed step observe start calls) final := by
  have extended (sofar : List Call) (state : State) (call : Call) (next : State)
      (before : exec step start sofar = some state)
      (holds : related (observed step observe start sofar) state)
      (taken : step state call = some next) :
      related (observed step observe start (sofar ++ [call])) next := by
    rw [observed_concat _ before]
    exact preserved sofar state call next before holds taken
  exact exec_history extended first run

/-- A queue that each call takes from at the front and adds to at the back: what a run took, and
what is left, is what was there and what the run added. -/
theorem observed_append_eq {Output : Type*} {step : State → Call → Option State}
    {takes adds : State → Call → List Output} (queue : State → List Output)
    (balance : ∀ state call next, step state call = some next →
      takes state call ++ queue next = queue state ++ adds state call)
    {state final : State} {calls : List Call} (run : exec step state calls = some final) :
    observed step takes state calls ++ queue final =
      queue state ++ observed step adds state calls := by
  induction calls generalizing state with
  | nil =>
      obtain rfl : state = final := by simpa using run
      simp
  | cons call calls induction =>
      obtain ⟨next, taken, rest⟩ := exec_cons_eq_some.mp run
      rw [observed_cons_of_step taken, observed_cons_of_step taken, List.append_assoc,
        induction rest, ← List.append_assoc, balance state call next taken, List.append_assoc]

/-- A record that each call lengthens by some of what is observed at it, in order. -/
theorem sublist_observed {Output : Type*} {step : State → Call → Option State}
    {observe : State → Call → List Output} (record : State → List Output)
    (recorded : ∀ state call next, step state call = some next →
      ∃ part, part.Sublist (observe state call) ∧ record next = record state ++ part)
    {state final : State} {calls : List Call} (run : exec step state calls = some final) :
    (record final).Sublist (record state ++ observed step observe state calls) := by
  induction calls generalizing state with
  | nil =>
      obtain rfl : state = final := by simpa using run
      simp
  | cons call calls induction =>
      obtain ⟨next, taken, rest⟩ := exec_cons_eq_some.mp run
      obtain ⟨part, within, same⟩ := recorded state call next taken
      have later := induction rest
      rw [same, List.append_assoc] at later
      rw [observed_cons_of_step taken]
      exact later.trans ((List.Sublist.refl _).append (within.append (List.Sublist.refl _)))

/-- Exact conditions for two machines that must show the same.  Suppose that related states show
the same at a call precisely when a third state meets `condition`, and that the three are then
refused together or stay related. -/
theorem observed_eq_iff_along {Left Right Output : Type*} {left : Left → Call → Option Left}
    {right : Right → Call → Option Right} {watch : State → Call → Option State}
    {showLeft : Left → Call → List Output} {showRight : Right → Call → List Output}
    {condition : State → Call → Prop} (related : Left → Right → State → Prop)
    (aligned : ∀ one other call, (showLeft one call).length = (showRight other call).length)
    (exactly : ∀ one other state call, related one other state →
      (showLeft one call = showRight other call ↔ condition state call))
    (preserved : ∀ one other state call, related one other state → condition state call →
      left one call = none ∧ right other call = none ∧ watch state call = none ∨
      ∃ one' other' state', left one call = some one' ∧ right other call = some other' ∧
        watch state call = some state' ∧ related one' other' state')
    {one : Left} {other : Right} {state : State} (start : related one other state)
    (calls : List Call) :
    observed left showLeft one calls = observed right showRight other calls ↔
      Along watch condition state calls := by
  induction calls generalizing one other state with
  | nil => simp
  | cons call calls induction =>
      have now := exactly one other state call start
      by_cases met : condition state call
      · rcases preserved one other state call start met with
          ⟨leftNone, rightNone, watchNone⟩ |
            ⟨one', other', state', leftTaken, rightTaken, watchTaken, after⟩
        · simp [observed, Along, leftNone, rightNone, watchNone, now]
        · rw [observed_cons_of_step leftTaken, observed_cons_of_step rightTaken,
            along_cons_of_step watchTaken, now.mpr met, List.append_cancel_left_eq,
            induction after, and_iff_right met]
      · refine iff_of_false (fun same => met (now.mp ?_)) (fun along => met along.1)
        exact (List.append_inj same (aligned one other call)).1

/-- Exact conditions.  Suppose that in a good state a call keeps the machine good precisely when it
meets `condition`, and that a bad state stays bad.  Then a run ends well precisely when all its
calls meet the condition. -/
theorem good_exec_iff_along {step : State → Call → Option State}
    {condition : State → Call → Prop} (invariant good : State → Prop)
    (preserved : ∀ state call next, step state call = some next → invariant state →
      invariant next)
    (exactly : ∀ state call next, step state call = some next → invariant state → good state →
      (good next ↔ condition state call))
    (stuck : ∀ state call next, step state call = some next → invariant state → ¬good state →
      ¬good next)
    {state final : State} (start : invariant state) {calls : List Call}
    (run : exec step state calls = some final) :
    good final ↔ good state ∧ Along step condition state calls := by
  induction calls generalizing state with
  | nil =>
      obtain rfl : state = final := by simpa using run
      simp
  | cons call calls induction =>
      obtain ⟨next, taken, rest⟩ := exec_cons_eq_some.mp run
      rw [induction (preserved state call next taken start) rest, along_cons_of_step taken]
      by_cases well : good state
      · rw [exactly state call next taken start well]
        tauto
      · have bad := stuck state call next taken start well
        tauto

/-- Exact conditions for a run that must be answered to its end, and end well. -/
theorem answered_exec_iff_along {step : State → Call → Option State}
    {condition : State → Call → Prop} (invariant : State → Prop) {good : State → Prop}
    (preserved : ∀ state call next, step state call = some next → invariant state →
      invariant next)
    (exactly : ∀ state call, invariant state → good state →
      ((∃ next, step state call = some next ∧ good next) ↔ condition state call))
    (stuck : ∀ state call next, step state call = some next → invariant state → ¬good state →
      ¬good next)
    {state : State} (start : invariant state) (calls : List Call) :
    (∃ final, exec step state calls = some final ∧ good final) ↔
      good state ∧ Along step condition state calls := by
  induction calls generalizing state with
  | nil => simp
  | cons call calls induction =>
      have now := exactly state call start
      constructor
      · rintro ⟨final, run, ends⟩
        obtain ⟨next, taken, rest⟩ := exec_cons_eq_some.mp run
        have after := preserved state call next taken start
        obtain ⟨well, later⟩ := (induction after).mp ⟨final, rest, ends⟩
        have before : good state :=
          not_imp_not.mp (stuck state call next taken start) well
        exact ⟨before, (along_cons_of_step taken).mpr ⟨(now before).mp ⟨next, taken, well⟩, later⟩⟩
      · rintro ⟨before, met, later⟩
        obtain ⟨next, taken, well⟩ := (now before).mpr met
        obtain ⟨final, rest, ends⟩ :=
          (induction (preserved state call next taken start)).mpr ⟨well, later next taken⟩
        exact ⟨final, exec_cons_eq_some.mpr ⟨next, taken, rest⟩, ends⟩

end Runs
