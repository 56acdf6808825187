import PccGateway.Errors
import PccGateway.Lib.Interleaving

namespace PccGateway
namespace Web

/-- A call of a lifespan callback, by the place of its pair, and what it raised. -/
inductive LifespanEvent where
  | startup (index : Nat) (raised : Option Exn)
  | shutdown (index : Nat) (raised : Option Exn)
  deriving DecidableEq

structure Lifespan where
  started : Bool := false
  trace : List LifespanEvent := []

namespace Lifespan
-- `raises tick` is what the callback raises that is called when `tick` callbacks have been called before
variable (raises : Nat → Option Exn)

def callStartup (index : Nat) (lifespan : Lifespan) : Lifespan × Option Exn :=
  let raised := raises lifespan.trace.length
  ({ lifespan with trace := lifespan.trace ++ [.startup index raised] }, raised)

def callShutdown (index : Nat) (lifespan : Lifespan) : Lifespan × Option Exn :=
  let raised := raises lifespan.trace.length
  ({ lifespan with trace := lifespan.trace ++ [.shutdown index raised] }, raised)

/-- The loop that undoes what completed. What a callback raises here is dropped. -/
def rollback : Nat → Lifespan → Lifespan
  | 0, lifespan => lifespan
  | index + 1, lifespan => rollback index (callShutdown raises index lifespan).1

def startCallbacks : Nat → Nat → Lifespan → Lifespan × Option Exn
  | 0, _, lifespan => ({ lifespan with started := true }, none)
  | remaining + 1, completed, lifespan =>
    match callStartup raises completed lifespan with
    | (lifespan, none) => startCallbacks remaining (completed + 1) lifespan
    | (lifespan, some error) => (rollback raises completed lifespan, some error)

/-- `App.startup` with `pairs` pairs of callbacks: the application then, and what it raises. -/
def startup (pairs : Nat) (lifespan : Lifespan) : Lifespan × Option Exn :=
  if lifespan.started then (lifespan, some (.runtime "application already started"))
  else startCallbacks raises pairs 0 lifespan

def stopCallbacks : Nat → Option Exn → Lifespan → Lifespan × Option Exn
  | 0, firstError, lifespan => ({ lifespan with started := false }, firstError)
  | index + 1, firstError, lifespan =>
    let (lifespan, raised) := callShutdown raises index lifespan
    stopCallbacks index (firstError.or raised) lifespan

def shutdown (pairs : Nat) (lifespan : Lifespan) : Lifespan × Option Exn :=
  if lifespan.started then stopCallbacks raises pairs none lifespan else (lifespan, none)

inductive Action where
  | startup
  | shutdown

def step (pairs : Nat) (lifespan : Lifespan) : Action → Lifespan
  | .startup => (startup raises pairs lifespan).1
  | .shutdown => (shutdown raises pairs lifespan).1

end Lifespan

/-- The pairs that are open after the event, the last one first; `none` when a callback undoes what is
not the last. -/
def LifespanEvent.replay (opened : List Nat) : LifespanEvent → Option (List Nat)
  | .startup index none => some (index :: opened)
  | .startup _ (some _) => some opened
  | .shutdown index _ => if opened.head? = some index then some opened.tail else none

def replay (trace : List LifespanEvent) : Option (List Nat) := trace.foldlM LifespanEvent.replay []

namespace Lifespan
variable {raises : Nat → Option Exn} {lifespan : Lifespan}

/-- The pairs below `count`, the last one first. -/
def below (count : Nat) : List Nat := (List.range count).reverse

theorem below_succ (count : Nat) : below (count + 1) = count :: below count := by
  rw [below, List.range_succ, List.reverse_append]
  rfl

theorem replay_concat (trace : List LifespanEvent) (event : LifespanEvent) :
    replay (trace ++ [event]) = (replay trace).bind fun opened => event.replay opened := by
  simp [replay, List.foldlM_append, bind, pure]

theorem callShutdown_replay {index : Nat} (opened : replay lifespan.trace = some (below (index + 1))) :
    replay (callShutdown raises index lifespan).1.trace = some (below index) := by
  unfold callShutdown
  rw [replay_concat, opened, below_succ]
  simp [LifespanEvent.replay]

theorem rollback_replay {completed : Nat} (opened : replay lifespan.trace = some (below completed)) :
    replay (rollback raises completed lifespan).trace = some [] ∧
    (rollback raises completed lifespan).started = lifespan.started := by
  induction completed generalizing lifespan with
  | zero => exact ⟨opened, rfl⟩
  | succ index ih => exact ih (callShutdown_replay opened)

theorem startCallbacks_replay {remaining completed : Nat} (unstarted : lifespan.started = false)
    (opened : replay lifespan.trace = some (below completed)) :
    replay (startCallbacks raises remaining completed lifespan).1.trace =
      some (if (startCallbacks raises remaining completed lifespan).1.started then
        below (completed + remaining) else []) := by
  induction remaining generalizing completed lifespan with
  | zero => exact opened
  | succ remaining ih =>
    unfold startCallbacks callStartup
    cases raised : raises lifespan.trace.length with
    | none =>
      have further : replay (lifespan.trace ++ [.startup completed none]) =
          some (below (completed + 1)) := by
        rw [replay_concat, opened, below_succ]
        rfl
      have later := @ih { lifespan with trace := lifespan.trace ++ [.startup completed none] }
        (completed + 1) unstarted further
      rwa [Nat.add_right_comm, Nat.add_assoc] at later
    | some error =>
      have same : replay (lifespan.trace ++ [.startup completed (some error)]) =
          some (below completed) := by
        rw [replay_concat, opened]
        rfl
      obtain ⟨closed, kept⟩ := @rollback_replay raises
        { lifespan with trace := lifespan.trace ++ [.startup completed (some error)] } completed same
      simp only
      rw [closed, kept, if_neg (by simp [unstarted])]

theorem stopCallbacks_replay {count : Nat} (first : Option Exn)
    (opened : replay lifespan.trace = some (below count)) :
    replay (stopCallbacks raises count first lifespan).1.trace = some [] ∧
      (stopCallbacks raises count first lifespan).1.started = false := by
  induction count generalizing lifespan first with
  | zero => exact ⟨opened, rfl⟩
  | succ index ih => exact ih _ (callShutdown_replay opened)

/-- The pairs that have been started and not been stopped are all of them or none. -/
def Balanced (pairs : Nat) (lifespan : Lifespan) : Prop :=
  replay lifespan.trace = some (if lifespan.started then below pairs else [])

theorem step_balanced {pairs : Nat} (balanced : Balanced pairs lifespan) (action : Action) :
    Balanced pairs (step raises pairs lifespan action) := by
  unfold Balanced at *
  cases started : lifespan.started with
  | false =>
    rw [started] at balanced
    cases action with
    | startup =>
      simp only [step, startup, started, Bool.false_eq_true, if_false]
      have run := @startCallbacks_replay raises lifespan pairs 0 started balanced
      rwa [Nat.zero_add] at run
    | shutdown =>
      simp only [step, shutdown, started, Bool.false_eq_true, if_false]
      exact balanced
  | true =>
    rw [started] at balanced
    cases action with
    | startup =>
      simp only [step, startup, started, if_true]
      exact balanced
    | shutdown =>
      simp only [step, shutdown, started, if_true]
      obtain ⟨closed, stopped⟩ := @stopCallbacks_replay raises lifespan pairs none balanced
      rw [closed, stopped]
      rfl

/-- What the callbacks of the pairs below `count` raised when they were undone. -/
def undone (count : Nat) (results : List (Option Exn)) : List LifespanEvent :=
  List.zipWith .shutdown (below count) results

theorem rollback_calls (count : Nat) (lifespan : Lifespan) : ∃ results, results.length = count ∧
    (rollback raises count lifespan).trace = lifespan.trace ++ undone count results := by
  induction count generalizing lifespan with
  | zero => exact ⟨[], rfl, (List.append_nil _).symm⟩
  | succ index ih =>
    obtain ⟨results, size, grown⟩ := ih (callShutdown raises index lifespan).1
    refine ⟨raises lifespan.trace.length :: results, by simp [size], ?_⟩
    rw [rollback, grown, callShutdown, undone, undone, below_succ, List.zipWith_cons_cons]
    simp

theorem stopCallbacks_calls (count : Nat) (first : Option Exn) (lifespan : Lifespan) :
    ∃ results, results.length = count ∧
    (stopCallbacks raises count first lifespan).1.trace = lifespan.trace ++ undone count results ∧
    (stopCallbacks raises count first lifespan).2 = first.or (results.findSome? id) := by
  induction count generalizing lifespan first with
  | zero => exact ⟨[], rfl, (List.append_nil _).symm, by simp [stopCallbacks]⟩
  | succ index ih =>
    obtain ⟨results, size, grown, raised⟩ :=
      ih (first.or (raises lifespan.trace.length)) (callShutdown raises index lifespan).1
    refine ⟨raises lifespan.trace.length :: results, by simp [size], ?_, ?_⟩
    · rw [stopCallbacks]
      simp only
      rw [show (callShutdown raises index lifespan).2 = raises lifespan.trace.length from rfl, grown,
        callShutdown, undone, undone, below_succ, List.zipWith_cons_cons]
      simp
    · rw [stopCallbacks]
      simp only
      rw [show (callShutdown raises index lifespan).2 = raises lifespan.trace.length from rfl, raised]
      cases first <;> cases raises lifespan.trace.length <;> simp

theorem startCallbacks_calls (remaining completed : Nat) (lifespan : Lifespan) :
    (startCallbacks raises remaining completed lifespan).2 = none ∧
        (startCallbacks raises remaining completed lifespan).1.trace =
          lifespan.trace ++ (List.range' completed remaining).map (.startup · none) ∨
      ∃ done < remaining, ∃ error results, (startCallbacks raises remaining completed lifespan).2 =
        some error ∧
        results.length = completed + done ∧ (startCallbacks raises remaining completed lifespan).1.trace =
          lifespan.trace ++ (List.range' completed done).map (.startup · none) ++
            .startup (completed + done) (some error) :: undone (completed + done) results := by
  induction remaining generalizing completed lifespan with
  | zero => exact .inl ⟨rfl, by simp [startCallbacks]⟩
  | succ remaining ih =>
    unfold startCallbacks callStartup
    cases raised : raises lifespan.trace.length with
    | none =>
      rcases ih (completed + 1) { lifespan with trace := lifespan.trace ++ [.startup completed none] } with
        ⟨clean, grown⟩ | ⟨done, less, error, results, fails, size, grown⟩
      · refine .inl ⟨clean, ?_⟩
        rw [grown, List.range'_succ]
        simp
      · refine .inr ⟨done + 1, by omega, error, results, fails, by omega, ?_⟩
        rw [grown, List.range'_succ, show completed + (done + 1) = completed + 1 + done by omega]
        simp
    | some error =>
      obtain ⟨results, size, grown⟩ := @rollback_calls raises completed
        { lifespan with trace := lifespan.trace ++ [.startup completed (some error)] }
      refine .inr ⟨0, by omega, error, results, rfl, size, ?_⟩
      simp only [grown]
      simp

/-- Over every sequence of calls and whatever Exceptions the callbacks raise, each callback that has
completed its start is undone once, by its own pair, the last one first. A start that fails raises
what its callback raised, a stop calls all and raises what was raised first. What is no Exception is
not caught by the source, and is not spoken of. Nothing is assumed about the number of the pairs or
about the order of the calls. -/
theorem lifespan_balanced (raises : Nat → Option Exn) (pairs : Nat) (actions : List Action) :
    let lifespan := actions.foldl (step raises pairs) {}
    replay lifespan.trace = some (if lifespan.started then below pairs else []) ∧
    (lifespan.started = true →
      startup raises pairs lifespan = (lifespan, some (.runtime "application already started")) ∧
      ∃ results, results.length = pairs ∧ (shutdown raises pairs lifespan).2 = results.findSome? id ∧
        (shutdown raises pairs lifespan).1.trace = lifespan.trace ++ undone pairs results) ∧
    (lifespan.started = false → shutdown raises pairs lifespan = (lifespan, none) ∧
      ((startup raises pairs lifespan).2 = none ∧
          (startup raises pairs lifespan).1.trace =
            lifespan.trace ++ (List.range pairs).map (.startup · none) ∨
        ∃ done < pairs, ∃ error results, (startup raises pairs lifespan).2 = some error ∧
        results.length = done ∧
          (startup raises pairs lifespan).1.trace = lifespan.trace ++ (List.range done).map
            (.startup · none) ++ .startup done (some error) :: undone done results)) := by
  intro lifespan
  refine ⟨?_, fun started => ⟨?_, ?_⟩, fun unstarted => ⟨?_, ?_⟩⟩
  · exact @Interleaving.invariant _ _ (step raises pairs) {} (Balanced pairs)
      (fun _ action balanced => step_balanced balanced action) actions rfl
  · rw [startup, if_pos started]
  · obtain ⟨results, size, grown, raised⟩ := @stopCallbacks_calls raises pairs none lifespan
    rw [shutdown, if_pos started]
    exact ⟨results, size, raised.trans (by simp), grown⟩
  · rw [shutdown, if_neg (by simp [unstarted])]
  · rw [startup, if_neg (by simp [unstarted])]
    have calls := @startCallbacks_calls raises pairs 0 lifespan
    simp only [Nat.zero_add, ← List.range_eq_range'] at calls
    exact calls

end Lifespan
end Web
end PccGateway
