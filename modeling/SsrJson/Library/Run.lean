import Mathlib.Data.List.Basic

/-!
# Runs of an event-driven system

A system is a partial step function `step : Event → State → Option State`; `none` means that the
event is impossible in the state. `Run step guard s es s'` says the events `es` lead from `s` to
`s'` and every event meets `guard` in the state it happens in. `Run.invariant` packages the
induction over a run once.
-/

namespace SsrJson

variable {Event State : Type*}

/-- Execute the events from left to right. -/
def exec (step : Event → State → Option State) : List Event → State → Option State
  | [], state => some state
  | event :: events, state => do
      let next ← step event state
      exec step events next

/-- What holds at the start and is preserved by every event holds after an execution. -/
theorem exec_invariant {step : Event → State → Option State} {I : State → Prop}
    (hstep : ∀ event state next, step event state = some next → I state → I next)
    {start final : State} {events : List Event} (hexec : exec step events start = some final)
    (hstart : I start) : I final := by
  induction events generalizing start with
  | nil => exact Option.some.inj hexec ▸ hstart
  | cons event events ih =>
      simp only [exec, Option.bind_eq_bind, Option.bind_eq_some_iff] at hexec
      obtain ⟨next, hnext, hrest⟩ := hexec
      exact ih hrest (hstep _ _ _ hnext hstart)

/-- `Run step guard s es s'` says the events `es` lead from `s` to `s'`, each meeting `guard`. -/
inductive Run (step : Event → State → Option State) (guard : Event → State → Prop) :
    State → List Event → State → Prop where
  | nil (state) : Run step guard state [] state
  | cons {state next final event events} :
      guard event state → step event state = some next →
      Run step guard next events final → Run step guard state (event :: events) final

namespace Run

variable {step : Event → State → Option State} {guard : Event → State → Prop}

/-- What holds at the start and is preserved by every guarded step holds at the end of a run. -/
theorem invariant {I : State → Prop}
    (hstep : ∀ event state next, guard event state → step event state = some next →
      I state → I next)
    {start final : State} {events : List Event} (hrun : Run step guard start events final)
    (hstart : I start) : I final := by
  induction hrun with
  | nil => exact hstart
  | cons hguard hnext _ ih => exact ih (hstep _ _ _ hguard hnext hstart)

/-- One more guarded step extends a run. -/
theorem snoc {start state next : State} {events : List Event} {event : Event}
    (hrun : Run step guard start events state) (hguard : guard event state)
    (hnext : step event state = some next) : Run step guard start (events ++ [event]) next := by
  induction hrun with
  | nil => exact .cons hguard hnext (.nil _)
  | cons hg hs _ ih => exact .cons hg hs (ih hguard hnext)

end Run

end SsrJson
