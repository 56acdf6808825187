import Mathlib.Data.List.Nodup
import PccGateway.Lifecycle.GenerationLedger

namespace PccGateway
namespace Generations
namespace Lifetime

section Step
variable {run : Lifetime}

theorem Kept.constructing {generationId config : Nat} {resources : List Nat} {retained : List Retained}
    (kept : (run.goes (.constructing generationId config resources retained)).Kept) :
    (run.proceed (.constructing generationId config resources retained)).Kept := by
  cases resources with
  | cons resource rest =>
    refine kept.turn rfl ?_
    have tokens : Tokens _ _ _ (retained ++ run.calls.flatMap Call.retained) _ := kept.tokens
    refine (tokens.retain resource).reorder ?_ fun _ waiting => waiting
    simp only [Call.retained, List.append_assoc]
    exact List.perm_middle
  | nil =>
    by_cases running : run.store.lifecycle.state = .running
    · have after := kept.install running (run.store.retiredGenerations ++ [run.store.current])
      simpa [proceed, Generations.install, Method.bind_run, running, goes] using after
    · simpa [proceed, Generations.install, Method.bind_run, running, goes] using kept.lose

theorem Kept.releasing {resources : List Retained} {publishes : Bool}
    (kept : (run.goes (.releasing resources publishes)).Kept) :
    (run.proceed (.releasing resources publishes)).Kept := by
  cases resources with
  | cons resource rest =>
    refine kept.turn ?_ ?_
    · cases publishes <;> rfl
    · have tokens : Tokens _ _ _ (resource :: (rest ++ run.calls.flatMap Call.retained)) _ := kept.tokens
      refine tokens.release fun other waiting => ?_
      simpa [goes, Call.dropping, or_assoc] using waiting
  | nil =>
    cases publishes with
    | false => exact kept.ends rfl kept.tokens
    | true =>
      -- the flag goes with the call that had it
      have ordered := kept.ordered
      simp only [goes, ids, List.countP_cons, Call.publishing, if_true] at ordered
      exact ⟨kept.referenced, kept.held, kept.roles, ordered.finish, kept.tokens⟩

theorem Kept.attached {id : Nat} {retained : Retained} (kept : (run.goes (.attached id retained)).Kept) :
    (run.proceed (.attached id retained)).Kept := by
  have rejected : (run.goes (.rejecting retained)).Kept := kept.turn rfl kept.tokens
  cases found : run.store.generations[id]? with
  | none =>
    simp only [proceed, Generations.attach, found]
    exact rejected
  | some generation =>
    cases attachable : generation.attachable with
    | false =>
      simp only [proceed, Generations.attach, found, attachable, Bool.false_eq_true, if_false]
      exact rejected
    | true =>
      simp only [proceed, Generations.attach, found, attachable, if_true]
      simp only [GatewayGeneration.attachable, Bool.and_eq_true, Bool.not_eq_true',
        decide_eq_true_eq] at attachable
      have live := attachable.1.2
      refine kept.put found (by rfl) (by rfl)
        ((kept.referenced id generation found).attach live retained) (fun _ _ => rfl)
        kept.held rfl rfl (by simp [goes, Call.publishing])
        (kept.tokens.replace found ?_ (fun gone => ?_) fun _ waiting => waiting)
      · simp [goes, Call.retained]
      · rw [live] at gone
        cases gone

theorem Kept.proceed {call : Call} (kept : (run.goes call).Kept) : (run.proceed call).Kept := by
  cases call with
  | constructing generationId config resources retained => exact kept.constructing
  | retiring id retirer =>
    obtain ⟨generation, found, unretired, live, positive, after⟩ := kept.retire
    have open_ : ¬ (generation.released = true ∨ generation.references ≤ 0) := by simp [live, positive]
    simp only [Lifetime.proceed, Generations.retire, found, unretired, Bool.false_eq_true, if_false,
      if_neg open_]
    exact after
  | releasing resources publishes => exact kept.releasing
  | collecting =>
    have ended : run.Kept := kept.ends rfl kept.tokens
    exact ended.collect _
  | attaching id resource =>
    refine kept.turn rfl ?_
    exact kept.tokens.retain resource
  | attached id retained => exact kept.attached
  | rejecting retained =>
    refine kept.ends rfl ?_
    have tokens : Tokens _ _ _ (retained :: run.calls.flatMap Call.retained) _ := kept.tokens
    exact tokens.release fun other waiting => .inr waiting

theorem Kept.finishDrain (kept : run.Kept) (force : Bool) : (run.finishDrain force).Kept := by
  rcases GatewayLifecycle.finishDrain_cases force run.store.lifecycle with
    ⟨draining, lifecycle, ends, stopped⟩ | ⟨result, same, no⟩
  · have isOpen : run.store.lifecycle.state.rank < GatewayState.stopped.rank := by
      rw [draining]
      decide
    simp only [Lifetime.finishDrain, Generations.finishDrain, onLifecycle, Method.on, Method.bind_run,
      ends, Method.get_run, Method.pure_run, if_true]
    refine ⟨kept.referenced, kept.held, ?_, kept.ordered, kept.tokens⟩
    refine (kept.roles.drain isOpen).close fun after => ?_
    simp only [goes, stopped] at after
    exact Nat.lt_irrefl _ after
  · cases result with
    | error =>
      simp only [Lifetime.finishDrain, Generations.finishDrain, onLifecycle, Method.on,
        Method.bind_run, same]
      exact kept
    | ok finished =>
      have unfinished : finished = false := by simpa using no
      simp only [Lifetime.finishDrain, Generations.finishDrain, onLifecycle, Method.on,
        Method.bind_run, same, unfinished,
        Method.get_run, Method.pure_run, Bool.false_eq_true, if_false]
      exact kept

theorem Kept.retained (kept : run.Kept) {id : Nat} (shown : id ∈ run.currents) :
    (∃ store, Generations.retain id run.store = (store, .ok ()) ∧
      Kept { run with store, holders := run.holders ++ [id] }) ∨
      ∃ error, Generations.retain id run.store = (run.store, .error error) := by
  have inRange := kept.roles.ranged id shown
  rw [List.length_map] at inRange
  have found := List.getElem?_eq_getElem inRange
  generalize run.store.generations[id] = generation at found
  simp only [Generations.retain, found]
  cases live : generation.released with
  | true =>
    rw [if_pos rfl]
    exact .inr ⟨_, rfl⟩
  | false =>
    rw [if_neg nofun]
    have after := kept.retain shown found live
    rw [live] at after
    exact .inl ⟨_, rfl, after⟩

theorem Kept.step (kept : run.Kept) (action : Action) : (run.step action).Kept := by
  cases action with
  | lifecycle action =>
    have forward := (GatewayLifecycle.Admitting.step_forward ⟨run.store.lifecycle, []⟩ action).rank_le
    have turned := kept.lifecycle forward
    cases action with
    | finishDrain => exact kept.finishDrain false
    | start | started | grant | release | beginDrain | fail => exact turned
  | finishDrain force => exact kept.finishDrain force
  | acquireGeneration =>
    have shown : run.store.current ∈ run.currents := List.mem_of_getLast? kept.roles.last
    simp only [Lifetime.step, Generations.acquireGeneration, Method.bind_run, Method.get_run]
    by_cases running : run.store.lifecycle.state ≠ .running
    · rw [if_pos running]
      exact kept
    · rw [if_neg running]
      rcases kept.retained shown with ⟨store, returns, after⟩ | ⟨error, raises⟩
      · simp only [Method.bind_run, returns, Method.pure_run]
        exact after
      · simp only [Method.bind_run, raises]
        exact kept
  | retain id =>
    simp only [Lifetime.step]
    split
    · rename_i shown
      rcases kept.retained shown with ⟨store, returns, after⟩ | ⟨error, raises⟩
      · rw [returns]
        exact after
      · rw [raises]
        exact kept
    · exact kept
  | release id =>
    simp only [Lifetime.step]
    split
    · rename_i holder
      have inRange := kept.roles.ranged id (kept.held id holder)
      rw [List.length_map] at inRange
      obtain ⟨live, positive, after⟩ := kept.release holder (List.getElem?_eq_getElem inRange)
      have open_ : ¬ (run.store.generations[id].released = true ∨
          run.store.generations[id].references ≤ 0) := by
        simp [live, positive]
      simp only [Generations.release, List.getElem?_eq_getElem inRange, if_neg open_]
      exact after
    · exact kept
  | attachResource id resource =>
    simp only [Lifetime.step]
    split
    · have begun : (run.goes (.attaching id resource)).Kept := by
        refine ⟨kept.referenced, kept.held, kept.roles, ?_, kept.tokens⟩
        have ordered := kept.ordered
        simpa [goes, ids, List.filterMap_cons, Call.building, Call.publishing] using ordered
      simp only [attachCheck]
      cases run.store.generations[id]? with
      | none => exact begun
      | some generation =>
        cases attachable : generation.attachable with
        | false =>
          simp only [attachable, Bool.false_eq_true, if_false]
          exact kept
        | true =>
          simp only [attachable, if_true]
          exact begun
    · exact kept
  | publish config resources =>
    simp only [Lifetime.step, publishStart, Method.bind_run, Method.get_run]
    by_cases running : run.store.lifecycle.state ≠ .running
    · rw [if_pos running]
      exact kept
    · rw [if_neg running]
      cases publishing : run.store.publishing with
      | true => exact kept
      | false =>
        have ordered := kept.ordered
        rw [publishing] at ordered
        simp only [Bool.false_eq_true, if_false, Method.bind_run, Method.modify_run, Method.pure_run]
        refine ⟨kept.referenced, kept.held, kept.roles, ?_, kept.tokens⟩
        have begun := ordered.begin
        simpa [goes, ids, List.filterMap_cons, List.countP_cons, Call.building, Call.publishing] using begun
  | collectRetired => exact kept.collect _
  | proceed place =>
    simp only [Lifetime.step]
    split
    · exact kept
    · rename_i call found
      exact Kept.proceed (kept.takes_up found)

end Step

/-- A lifecycle that no call was made on. -/
def init (config : Nat) (limits : AdmissionLimits) : Lifetime where
  store := Generations.init config limits

theorem init_kept (config : Nat) (limits : AdmissionLimits) : (init config limits).Kept := by
  refine ⟨fun id generation is => ?_, by simp [init], ⟨by simp [init, Generations.init], rfl,
    by simp [init], by simp [init], fun id => ?_,
    by
    simp [init], by
      simp [init], by
        simp [init], by simp [init]⟩, ⟨rfl, ?_, ?_, by simp [init]⟩, ⟨by simp [init, Generations.init], ?_⟩⟩
  · rcases id with _ | id
    · cases is
      exact ⟨rfl, by simp, rfl⟩
    · cases is
  · rcases id with _ | id <;> simp [init, Generations.init]
  · simp [init, Generations.init, ids]
  · simp [init, Generations.init, ids]
  · simp [init, Generations.init]

section Lifetime
variable {run : Lifetime} (kept : run.Kept) {id : Nat} {generation : GatewayGeneration}
  (found : run.store.generations[id]? = some generation)
include kept

/-- No retain is released twice. -/
theorem Kept.releases_nodup : ((run.releases.map Retained.call)).Nodup := by
  have all := kept.tokens.places.nodup_iff.mpr List.nodup_range
  simp only [List.map_append] at all
  exact List.Nodup.of_append_left (List.Nodup.of_append_left all)

include found

/-- A resource that a generation recorded is released after the last reference went. -/
theorem Kept.released_of_mem {entry : Retained} (recorded : entry ∈ generation.recorded)
    (done : entry ∈ run.releases) :
    generation.retired = true ∧ id ∉ run.holders := by
  obtain ⟨references, released, resources⟩ := kept.referenced id generation found
  have gone : generation.released = true := by
    by_contra live
    have has : entry ∈ generation.resources := by
      rw [resources, if_neg live]
      exact recorded
    have all := kept.tokens.places.nodup_iff.mpr List.nodup_range
    simp only [List.map_append] at all
    have apart := (List.nodup_append.mp (List.Nodup.of_append_left all)).2.2
    refine apart entry.call (List.mem_map_of_mem done) entry.call (List.mem_map_of_mem ?_) rfl
    exact List.mem_flatMap.mpr ⟨generation, List.mem_of_getElem? found, has⟩
  have zero := released.mp gone
  rw [zero] at references
  have none_ : run.holders.count id = 0 := by split at references <;> omega
  refine ⟨?_, List.count_eq_zero.mp none_⟩
  by_contra unretired
  rw [if_neg unretired] at references
  omega

/-- When no call is under way, a generation that is retired and that nobody holds has released what it
recorded. -/
theorem Kept.releases_of_retired (quiet : run.calls = []) (retired : generation.retired = true)
    (free : id ∉ run.holders)
    {entry : Retained} (recorded : entry ∈ generation.recorded) : entry ∈ run.releases := by
  obtain ⟨references, released, -⟩ := kept.referenced id generation found
  rw [List.count_eq_zero.mpr free, if_pos retired] at references
  have gone :=
    kept.tokens.dropped generation (List.mem_of_getElem? found) (released.mpr (by omega)) entry recorded
  simpa [quiet] using gone

end Lifetime

end Lifetime
end Generations
end PccGateway
