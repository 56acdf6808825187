import PccGateway.Server.AddressLookupRun
import PccGateway.Dns.QueryIds

namespace PccGateway
open Dns
namespace AddressLookup

/-- The drivers of a lookup have its limit. -/
structure Timed (limit : Int) (lookup : AddressLookup) : Prop where
  last : lookup.limit = limit
  drivers : ∀ driver ∈ lookup.asking, Dns.Sound driver ∧ driver.operation.deadlineMs = limit

/-- A lookup has returned, or goes on for addresses of a family. -/
def Goes (limit queryType : Int) (lookup : AddressLookup) : Prop :=
  lookup.outcome.isSome ∨ (lookup.outcome = none ∧ Timed limit lookup ∧ lookup.queryType = queryType)

section Turns
variable {lookup : AddressLookup} {round : LookupTurn} {case : CaseMapping} {limit : Int}

theorem fail_returned (report failure : String) : (lookup.fail round report failure).outcome.isSome := by
  unfold AddressLookup.fail
  dsimp only
  split
  · rfl
  · rfl

theorem complete_returned (result : DnsDriveResult) :
    (lookup.complete case round result).outcome.isSome := by
  unfold AddressLookup.complete
  split
  · exact fail_returned _ _
  split
  · rfl
  split
  · rfl
  dsimp only
  split
  · rfl
  · rfl

theorem beginDriver_goes (same : lookup.limit = limit) (running : lookup.outcome = none) (nowMs : Int) :
    Goes limit lookup.queryType (lookup.beginDriver case nowMs) := by
  unfold AddressLookup.beginDriver
  split
  · exact .inl rfl
  · rename_i driver resolver begun
    refine .inr ⟨running, ⟨same, fun other member => ?_⟩, rfl⟩
    cases driver with
    | answered driver => cases member
    | asking driver =>
      obtain rfl := List.mem_singleton.mp member
      obtain ⟨operation, config, startServer, terminalError, rfl, deadline⟩ :=
        beginDriver_begins (congrArg Prod.fst begun)
      refine ⟨newDriver_sound .., ?_⟩
      rw [newDriver_operation, deadline, same]

theorem failed_goes (same : lookup.limit = limit) (running : lookup.outcome = none) (error : String) :
    (lookup.failed case round error).outcome.isSome ∨
    (lookup.queryType = dnsA ∧ Goes limit dnsAaaa (lookup.failed case round error)) := by
  unfold AddressLookup.failed
  split
  · rename_i other
    exact .inr ⟨other.1, @beginDriver_goes { lookup with queryType := dnsAaaa } case limit same running _⟩
  split
  · exact .inl (fail_returned _ _)
  dsimp only
  split
  · exact .inl rfl
  · exact .inl rfl

theorem Timed.wait (timed : Timed limit lookup) (running : lookup.outcome = none) (handle : Int)
    (writing : Bool) (remaining : Int) :
    Goes limit lookup.queryType (lookup.wait round handle writing remaining) := by
  unfold AddressLookup.wait
  split
  · exact .inl (fail_returned _ _)
  dsimp only
  split
  · exact .inl rfl
  split
  · exact .inl rfl
  split
  · exact .inl (fail_returned _ _)
  · exact .inr ⟨running, ⟨timed.last, timed.drivers⟩, rfl⟩

theorem Timed.step (timed : Timed limit lookup) : Timed limit (lookup.step case round).2 ∧
    (lookup.step case round).2.outcome = lookup.outcome ∧ (lookup.step case round).2.queryType =
    lookup.queryType ∧
    ∀ result, (lookup.step case round).1 = some result → limit ≤ round.nowMs →
      result.kind = .complete ∨ result.kind = .error := by
  unfold AddressLookup.step
  split
  · exact ⟨timed, rfl, rfl, by rintro _ ⟨⟩⟩
  · refine ⟨timed, rfl, rfl, ?_⟩
    rintro _ ⟨⟩ -
    exact answered_kind _
  · rename_i driver asks
    obtain ⟨sound, deadline⟩ := timed.drivers driver (by rw [asking_eq asks]; exact List.mem_cons_self)
    have shares : (lookup.resolver.share driver.operation).deadlineMs = driver.operation.deadlineMs := rfl
    have stepped := (sound.operation shares).step case round.nowMs
      (lookup.transport.answers driver (driver.server.getD ⟨[], 53⟩) round.platform)
    refine ⟨⟨timed.last, fun other member => ?_⟩, rfl, rfl, fun result given late => ?_⟩
    · obtain rfl := List.mem_singleton.mp member
      exact ⟨stepped.sound, stepped.deadline.trans deadline⟩
    · obtain ⟨last, same, kind⟩ :=
        @step_late { driver with operation := lookup.resolver.share driver.operation } case round.nowMs
        (deadline.trans_le late) (lookup.transport.answers driver (driver.server.getD ⟨[], 53⟩) round.platform)
      cases same.symm.trans (ok_of_toOption given)
      exact kind

/-- A turn goes on for the same addresses, or for those of the other family; behind the limit it only
does the latter. -/
theorem Timed.turn (timed : Timed limit lookup) (running : lookup.outcome = none) :
    (Goes limit lookup.queryType (lookup.turn case round) ∧
      (limit ≤ round.nowMs → (lookup.turn case round).outcome.isSome)) ∨
      (lookup.queryType = dnsA ∧ Goes limit dnsAaaa (lookup.turn case round)) := by
  obtain ⟨next, still, family, kinds⟩ := @Timed.step lookup round case limit timed
  unfold AddressLookup.turn
  split
  · exact .inl ⟨.inl (fail_returned _ _), fun _ => fail_returned _ _⟩
  generalize lookup.step case round = stepped at next still family kinds
  obtain ⟨_ | result, after⟩ := stepped
  · exact .inl ⟨.inl rfl, fun _ => rfl⟩
  dsimp only at next still family kinds ⊢
  rw [← family]
  unfold AddressLookup.settle
  cases kind : result.kind with
  | complete => exact .inl ⟨.inl (complete_returned _), fun _ => complete_returned _⟩
  | error =>
    rcases failed_goes next.last (still.trans running) result.error with returned | ⟨first, goes⟩
    · exact .inl ⟨.inl returned, fun _ => returned⟩
    · exact .inr ⟨first, goes⟩
  | waitRead | waitWrite | ignored =>
    exact .inl ⟨next.wait (still.trans running) _ _ _, fun late => by simp [kind] at kinds; omega⟩
  | progress | retry =>
    exact .inl ⟨.inr ⟨still.trans running, next, rfl⟩, fun late => by simp [kind] at kinds; omega⟩

/-- How many turns behind its limit a lookup can still have. -/
def turnsLeft (lookup : AddressLookup) : Nat :=
  if lookup.outcome.isSome then 0 else if lookup.queryType = dnsA then 2 else 1

theorem Goes.turnsLeft_le {queryType : Int} (goes : Goes limit queryType lookup) :
    lookup.turnsLeft ≤ if queryType = dnsA then 2 else 1 := by
  unfold turnsLeft
  rcases goes with returned | ⟨running, -, rfl⟩
  · rw [if_pos returned]
    split <;> omega
  · rw [if_neg (by simp [running])]

/-- Behind its limit a lookup has two turns at most. -/
theorem Timed.late {turns : List LookupTurn} (timed : lookup.outcome.isSome ∨ Timed limit lookup)
    (late : lookup.turnsLeft ≤ turns.countP (limit ≤ ·.nowMs)) :
    ((turns.map .turn).foldl (AddressLookup.act case) lookup).outcome.isSome := by
  induction turns generalizing lookup with
  | nil =>
    unfold turnsLeft at late
    split at late
    · rename_i returned
      exact returned
    · split at late <;> simp at late
  | cons round turns ih =>
    rw [List.countP_cons] at late
    rw [List.map_cons, List.foldl_cons]
    by_cases returned : lookup.outcome.isSome
    · rw [AddressLookup.act, if_pos returned]
      exact ih (.inl returned) (by simp [turnsLeft, returned])
    have running : lookup.outcome = none := by simpa using returned
    have timed := timed.resolve_left returned
    rw [AddressLookup.act, if_neg returned]
    have goes : ∀ {queryType}, Goes limit queryType (lookup.turn case round) →
        (lookup.turn case round).outcome.isSome ∨
        Timed limit (lookup.turn case round) := fun goes => goes.imp_right fun on => on.2.1
    unfold turnsLeft at late
    rw [if_neg returned] at late
    rcases @Timed.turn lookup round case limit timed running with ⟨same, ends⟩ | ⟨first, other⟩
    · refine ih (goes same) ?_
      by_cases behind : limit ≤ round.nowMs
      · simp [turnsLeft, ends behind]
      · have less := same.turnsLeft_le
        simp only [behind, decide_false, Bool.false_eq_true, if_false] at late
        omega
    · refine ih (goes other) ?_
      have less := other.turnsLeft_le
      rw [if_neg (by decide)] at less
      rw [if_pos first] at late
      split at late <;> omega

theorem returned_stays {turns : List LookupTurn} (returned : lookup.outcome.isSome) :
    ((turns.map .turn).foldl (AddressLookup.act case) lookup) = lookup := by
  induction turns with
  | nil => rfl
  | cons round turns ih =>
    rw [List.map_cons, List.foldl_cons, AddressLookup.act, if_pos returned]
    exact ih

theorem cancelled_returns {turns : List LookupTurn} (cancelled : ∃ round ∈ turns, round.cancelled = true) :
    ((turns.map .turn).foldl (AddressLookup.act case) lookup).outcome.isSome := by
  induction turns generalizing lookup with
  | nil =>
    obtain ⟨_, ⟨⟩, -⟩ := cancelled
  | cons round turns ih =>
    obtain ⟨found, member, isCancelled⟩ := cancelled
    rcases List.mem_cons.mp member with rfl | later
    · rw [List.map_cons, List.foldl_cons]
      have returned : (lookup.act case (.turn found)).outcome.isSome := by
        unfold AddressLookup.act
        dsimp only
        split
        · rename_i returned
          exact returned
        · rw [AddressLookup.turn, if_pos isCancelled]
          exact fail_returned _ _
      rw [returned_stays returned]
      exact returned
    · exact ih ⟨found, later, isCancelled⟩

theorem call_timed (call : LookupCall) :
    (lookup.call case call).outcome.isSome ∨ Timed call.deadline (lookup.call case call) := by
  unfold AddressLookup.call
  dsimp only
  split
  · exact .inl rfl
  split
  · exact .inl rfl
  split
  · exact .inl rfl
  split
  · exact .inl rfl
  · exact (@beginDriver_goes _ case call.deadline rfl rfl call.nowMs).imp_right fun on => on.2.1

end Turns

end AddressLookup

/-- A lookup returns at the first turn that finds its request cancelled, and at the second behind
its deadline at the latest, whatever the network, the clock, the pool and the hooks do. What is
assumed is one of these two, about the turns alone. That turns come is the loop of the source, which
has no other exit but a return. -/
theorem lookup_ends (case : CaseMapping) (before : AddressLookup) (call : LookupCall)
    (turns : List LookupTurn)
    (ends : (∃ round ∈ turns, round.cancelled = true) ∨ 2 ≤ turns.countP (call.deadline ≤ ·.nowMs)) :
    ((turns.map .turn).foldl (AddressLookup.act case) (before.call case call)).outcome.isSome := by
  rcases ends with cancelled | late
  · exact AddressLookup.cancelled_returns cancelled
  · refine AddressLookup.Timed.late (AddressLookup.call_timed call) (Nat.le_trans ?_ late)
    unfold AddressLookup.turnsLeft
    split
    · exact Nat.zero_le _
    split
    · exact Nat.le_refl _
    · exact Nat.le_succ _

/-- The clock passes the deadline between two turns, while the driver waits for its socket. -/
theorem lookup_ends_late :
    (([{ nowMs := 1, platform := { openOutcome := 1, openHandle := 5 } }, { nowMs := 100 },
      { nowMs := 101 }].map .turn).foldl
      (AddressLookup.act latin1Mapping)
      ((AddressLookup.idle oneServerResolver).call latin1Mapping
        { host := "ab".toList, limit := 100, nowMs := 0 })).outcome.isSome :=
  lookup_ends latin1Mapping _ _ _ (.inr (by decide))

end PccGateway
