import PccGateway.Lib.Thread

namespace Method
variable {σ τ ε α β : Type}

/-- Made on related objects, the two calls return or raise the same and leave related objects. -/
def Simulates (R : σ → τ → Prop) (call : Method σ ε α) (other : Method τ ε α) : Prop :=
  ∀ s t, R s t → R (call s).1 (other t).1 ∧ (call s).2 = (other t).2

namespace Simulates
variable {R : σ → τ → Prop}

theorem pure (a : α) :
    Simulates R (Pure.pure a : Method σ ε α) (Pure.pure a : Method τ ε α) := fun _ _ related =>
  ⟨related, rfl⟩

theorem raise (error : ε) :
    Simulates R (Method.raise error : Method σ ε α) (Method.raise error) := fun _ _ related =>
  ⟨related, rfl⟩

theorem bind {call : Method σ ε β} {other : Method τ ε β} {next : β → Method σ ε α}
    {next' : β → Method τ ε α}
    (first : Simulates R call other) (later : ∀ b, Simulates R (next b) (next' b)) :
    Simulates R (call >>= next) (other >>= next') := by
  intro s t related
  have step := first s t related
  rw [bind_run, bind_run]
  revert step
  rcases call s with ⟨s', error | b⟩ <;> rcases other t with ⟨t', error' | b'⟩ <;> rintro ⟨related', same⟩
  · cases same
    exact ⟨related', rfl⟩
  · cases same
  · cases same
  · cases same
    exact later b s' t' related'

theorem ite {p : Prop} [Decidable p] {call second : Method σ ε α} {other second' : Method τ ε α}
    (yes : Simulates R call other) (no : Simulates R second second') :
    Simulates R (if p then call else second) (if p then other else second') := by
  split
  · exact yes
  · exact no

theorem loop {ε : Type} {pass : β → Thread σ ε (Thread.Pass β α)} {pass' : β → Thread τ ε (Thread.Pass β α)}
    (each : ∀ state, Simulates R (pass state) (pass' state)) (fuel : Nat) (state : β) :
    Simulates R (Thread.loop pass fuel state) (Thread.loop pass' fuel state) := by
  induction fuel generalizing state with
  | zero => exact .raise _
  | succ fuel ih =>
    refine .bind (each state) fun next => ?_
    cases next with
    | again state' => exact ih state'
    | done result => exact .pure result

end Simulates
end Method
