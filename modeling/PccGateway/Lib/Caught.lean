import PccGateway.Lib.Thread

namespace Thread
open Method (Ends)
variable {σ ε α β : Type}

/-- No exception leaves the call. -/
def Caught (call : Thread σ ε α) : Prop :=
  ∀ s, Ends call s (fun _ _ => True) (fun halt _ => ∀ error, halt ≠ .raised error)

namespace Caught

theorem pure (a : α) : Caught (Pure.pure a : Thread σ ε α) := fun _ => trivial

theorem get : Caught (Method.get : Thread σ ε σ) := fun _ => trivial

theorem modify (change : σ → σ) : Caught (Method.modify change : Thread σ ε Unit) := fun _ => trivial

theorem bind {call : Thread σ ε β} {next : β → Thread σ ε α} (first : Caught call)
    (second : ∀ b, Caught (next b)) :
    Caught (call >>= next) := fun s =>
  Method.ends_bind.mpr ((first s).mono (fun b s' _ => second b s') fun _ _ uncaught => uncaught)

theorem ite {p : Prop} [Decidable p] {first second : Thread σ ε α} (yes : Caught first)
    (no : Caught second) :
    Caught (if p then first else second) := by
  split
  · exact yes
  · exact no

theorem when {condition : Prop} [Decidable condition] {body : Thread σ ε Unit} (caught : Caught body) :
    Caught (Thread.when condition body) := .ite caught (.pure ())

theorem attempt (body : Thread σ ε α) : Caught (Thread.attempt body) := by
  intro s
  rw [ends_attempt]
  unfold Ends
  rcases body s with ⟨s', (error | _ | _) | a⟩ <;> simp

theorem settle (steps : List (Thread σ ε Unit)) :
    Caught (Thread.settle steps) := fun s => ends_settle_caught steps s

theorem loop {pass : β → Thread σ ε (Pass β α)} (caught : ∀ state, Caught (pass state)) (fuel : Nat)
    (state : β) :
    Caught (Thread.loop pass fuel state) := by
  induction fuel generalizing state with
  | zero =>
    intro s error raised
    cases raised
  | succ fuel ih =>
    refine .bind (caught state) fun next => ?_
    cases next with
    | again state' => exact ih state'
    | done result => exact .pure result

end Caught
end Thread
