import Dcpu.Assembly.Event

/-!
# Outcomes

What a call on a stateful object leaves behind: the state, which may have changed even if the call
failed, the events in their order, and the result.
-/

namespace Dcpu

/-- What a call leaves behind. -/
structure Outcome (σ ε α : Type) where
  state : σ
  events : List Event := []
  result : Except ε α

namespace Outcome

variable {σ τ ε ε' α β : Type}

/-- Goes on from the state and the value of a call that succeeded. -/
def andThen (o : Outcome σ ε α) (next : σ → α → Outcome σ ε β) : Outcome σ ε β :=
  match o.result with
  | .error e => { state := o.state, events := o.events, result := .error e }
  | .ok a =>
    let n := next o.state a
    { state := n.state, events := o.events ++ n.events, result := n.result }

/-- After a call that failed nothing happens. -/
theorem andThen_of_error {o : Outcome σ ε α} {next : σ → α → Outcome σ ε β} {e : ε}
    (failed : o.result = .error e) : o.andThen next = ⟨o.state, o.events, .error e⟩ := by
  rw [andThen, failed]

/-- After a call that succeeded its events come first. -/
theorem andThen_of_ok {o : Outcome σ ε α} {next : σ → α → Outcome σ ε β} {a : α}
    (ok : o.result = .ok a) :
    o.andThen next = ⟨(next o.state a).state, o.events ++ (next o.state a).events,
      (next o.state a).result⟩ := by
  rw [andThen, ok]

/-- Puts the state into a larger one and the error into a larger type. -/
def lift (o : Outcome σ ε α) (state : σ → τ) (error : ε → ε') : Outcome τ ε' α :=
  { state := state o.state, events := o.events, result := o.result.mapError error }

end Outcome

end Dcpu
