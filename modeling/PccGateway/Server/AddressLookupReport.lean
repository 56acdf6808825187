import PccGateway.Server.AddressLookupRun

namespace PccGateway
open Dns

/-- Hooks and counters, but no waits. -/
def LookupEvent.isReport : LookupEvent → Bool
  | .wait .. => false
  | _ => true

/-- The call comes to its query: the host is no address, there is a resolver, and there is time. -/
def LookupCall.Asks (call : LookupCall) : Prop :=
  normalizeNumericAddress call.host = none ∧ call.available = true ∧ call.nowMs < call.deadline

/-- What a lookup reports, by what it has returned. A call that does not come to its query reports
nothing. -/
inductive LookupReport (call : LookupCall) : Option LookupOutcome → List LookupEvent → Prop
  | numeric {address : Text} (is : normalizeNumericAddress call.host = some address) :
      LookupReport call (some ⟨[address], ""⟩) []
  | unavailable (name : normalizeNumericAddress call.host = none) (missing : call.available = false) :
      LookupReport call (some ⟨[], "dns"⟩) []
  | expired (name : normalizeNumericAddress call.host = none) (available : call.available = true)
      (late : call.deadline ≤ call.nowMs) : LookupReport call (some ⟨[], "dns-timeout"⟩) []
  | running (asks : call.Asks) : LookupReport call none [.started, .query]
  | resolved {addresses : List Text} {hits : List LookupEvent} (asks : call.Asks)
      (hit : hits = [] ∨ hits = [.cacheHit]) :
      LookupReport call (some ⟨addresses, ""⟩)
        ([.started, .query] ++ hits ++ [.finished addresses.length ""])
  | failed {failure error : String} {last : List LookupEvent} (asks : call.Asks)
      (known : failure ≠ "") (named : error ≠ "")
      (once : last = [.failure, .finished 0 error] ∨ last = [.finished 0 error, .failure]) :
      LookupReport call (some ⟨[], failure⟩) ([.started, .query] ++ last)

/-- A failure comes without addresses. Addresses are the one that the host is, or of those that a
policy lets through. -/
def LookupOutcome.Valid (policies : List DnsAddressPolicy) (host : Text) (queryType : Int)
    (outcome : LookupOutcome) : Prop :=
  (outcome.failure ≠ "" ∧ outcome.addresses = []) ∨
    (outcome.failure = "" ∧ outcome.addresses ≠ [] ∧
      ((∃ policy ∈ policies, Approved policy queryType outcome.addresses) ∨
      ∃ numeric, normalizeNumericAddress host = some numeric ∧ outcome.addresses = [numeric]))

section Addresses
variable {case : CaseMapping}

theorem accept_nonempty {policy : DnsAddressPolicy} {call : AcceptCall} {accepted : List Text}
    (given : call.values ≠ [])
    (accepts : (policy.accept case call).1 = .ok accepted) : accepted ≠ [] := by
  rcases accept_cases case policy call with ⟨error, refused⟩ | ⟨kinds, collected, -⟩ |
    ⟨canonical, kinds, -, some, same, -⟩
  · rw [refused] at accepts
    cases accepts
  · obtain ⟨⟨normals, same, none⟩, -⟩ := collect_addresses collected
    cases normals with
    | nil => exact (given (List.map_eq_nil_iff.mp same)).elim
    | cons normal normals =>
      have member : normal ∈ (normal :: normals).eraseDups := List.mem_eraseDups.mpr List.mem_cons_self
      rw [← none] at member
      cases member
  · rw [same] at accepts
    cases accepts
    exact some

theorem orderedAddresses_perm (values : List Text) (rotation : AddressRotation Text) :
    (rotation.orderedAddresses values).2.Perm values := by
  by_cases given : values = []
  · rw [AddressRotation.orderedAddresses, if_pos given, given]
  · obtain ⟨answer, serves, answers⟩ := AddressRotation.serve_opening .ordered given rotation
    cases answers
    have same : (rotation.orderedAddresses values).2 =
        (AddressRotation.sorted values).rotate (rotation.opening values) := by
      simpa [AddressRotation.serve] using congrArg Prod.snd serves
    rw [same]
    exact (List.rotate_perm _ _).trans (AddressRotation.sorted_perm values)

/-- What the pool makes of addresses that were found. -/
theorem accepted_addresses {call : AcceptCall} {endpoint : DnsAddressPolicy × AddressRotation Text}
    {addresses : List Text} (given : call.values ≠ [])
    (accepts : (AddressRotation.acceptAndOrderAddresses case call endpoint).2 = .ok addresses) :
    addresses ≠ [] ∧ Approved endpoint.1 call.qtype addresses := by
  obtain ⟨policy, rotation⟩ := endpoint
  unfold AddressRotation.acceptAndOrderAddresses at accepts
  cases accepted : policy.accept case call with
  | mk outcome next =>
    cases outcome with
    | error error =>
      simp only [accepted] at accepts
      cases accepts
    | ok values =>
      simp only [accepted, Except.ok.injEq] at accepts
      have perm := orderedAddresses_perm values rotation
      rw [accepts] at perm
      have accepts : (policy.accept case call).1 = .ok values := by rw [accepted]
      have some := accept_nonempty given accepts
      have approved := accept_approved (fun _ => Iff.rfl) accepts
      refine ⟨fun none => some ?_, fun address member => approved address (perm.mem_iff.mp member)⟩
      rw [none] at perm
      exact perm.nil_eq.symm

end Addresses

namespace AddressLookup

/-- What a lookup has told, given that its hooks return. -/
structure Told (policies : List DnsAddressPolicy) (call : LookupCall) (hooks : Prop)
    (lookup : AddressLookup) : Prop where
  valid : ∀ outcome, lookup.outcome = some outcome → outcome.Valid policies call.host lookup.queryType
  asks : lookup.outcome = none → call.Asks
  report : hooks → LookupReport call lookup.outcome (lookup.events.filter LookupEvent.isReport)

/-- A lookup that is running has reported its start. -/
structure Running (call : LookupCall) (hooks : Prop) (lookup : AddressLookup) : Prop where
  asks : call.Asks
  outcome : lookup.outcome = none
  report : hooks → lookup.events.filter LookupEvent.isReport = [.started, .query]

section Turns
variable {policies : List DnsAddressPolicy} {call : LookupCall} {hooks : Prop}
  {lookup : AddressLookup} {round : LookupTurn} {case : CaseMapping}

theorem Running.told (running : Running call hooks lookup) : Told policies call hooks lookup := by
  refine ⟨fun outcome returned => ?_, fun _ => running.asks, fun hook => ?_⟩
  · rw [running.outcome] at returned
    cases returned
  · rw [running.outcome, running.report hook]
    exact .running running.asks

theorem cancelDriver_events : lookup.cancelDriver.events = lookup.events := by
  unfold AddressLookup.cancelDriver
  split
  · rfl
  · rfl

theorem raised_valid (lookup : AddressLookup) (outcome : LookupOutcome)
    (returned : lookup.raised.outcome = some outcome) :
    outcome.Valid policies call.host lookup.raised.queryType := by
  cases returned
  exact .inl ⟨by simp, rfl⟩

theorem failure_report {failure error : String} {first : List LookupEvent} (asks : call.Asks)
    (known : failure ≠ "") (named : error ≠ "")
    (start : first.filter LookupEvent.isReport = [.started, .query]) :
    LookupReport call (some ⟨[], failure⟩)
      (List.filter LookupEvent.isReport (first ++ [.failure] ++ [.finished 0 error])) := by
  rw [List.append_assoc, List.filter_append, start]
  exact .failed asks known named (.inl rfl)

theorem Running.raised (running : Running call hooks lookup) : Told policies call hooks lookup.raised := by
  refine ⟨raised_valid lookup, by rintro ⟨⟩, fun hook => ?_⟩
  change LookupReport call (some ⟨[], "dns"⟩)
    (List.filter LookupEvent.isReport
      (lookup.cancelDriver.events ++ [.failure] ++ [.finished 0 "resolver-error"]))
  rw [cancelDriver_events]
  exact failure_report running.asks (by simp) (by simp) (running.report hook)

theorem Running.fail (running : Running call hooks lookup) (hook : hooks → round.hook = true)
    {report failure : String} (known : failure ≠ "")
    (named : report ≠ "") : Told policies call hooks (lookup.fail round report failure) := by
  unfold AddressLookup.fail
  dsimp only
  split
  · refine ⟨?_, by rintro ⟨⟩, fun hook => failure_report running.asks known named (running.report hook)⟩
    rintro _ ⟨⟩
    exact .inl ⟨known, rfl⟩
  · rename_i raises
    exact ⟨raised_valid _, by rintro ⟨⟩, fun hooks => (raises (hook hooks)).elim⟩

theorem Running.cancelDriver (running : Running call hooks lookup) :
    Running call hooks lookup.cancelDriver := by
  refine ⟨running.asks, ?_, fun hook => ?_⟩
  · unfold AddressLookup.cancelDriver
    split
    · exact running.outcome
    · exact running.outcome
  · rw [cancelDriver_events]
    exact running.report hook

theorem Running.abandon (running : Running call hooks lookup) (hook : hooks → round.hook = true)
    {report failure : String} (known : failure ≠ "") (named : report ≠ "") :
    Told policies call hooks (lookup.abandon round report failure) :=
  running.cancelDriver.fail hook known named

theorem Running.beginDriver (running : Running call hooks lookup) (nowMs : Int) :
    Running call hooks (lookup.beginDriver case nowMs) ∨
      Told policies call hooks (lookup.beginDriver case nowMs) := by
  unfold AddressLookup.beginDriver
  split
  · rename_i error resolver begun
    exact .inr (@Running.raised policies call hooks { lookup with resolver }
      ⟨running.asks, running.outcome, running.report⟩)
  · exact .inl ⟨running.asks, running.outcome, running.report⟩

theorem Running.complete (running : Running call hooks lookup) (hook : hooks → round.hook = true)
    (listed : round.endpoint.1 ∈ policies)
    (result : DnsDriveResult) : Told policies call hooks (lookup.complete case round result) := by
  unfold AddressLookup.complete
  split
  · exact running.fail hook (by simp) (by simp)
  rename_i given
  split
  · exact running.raised
  split
  · exact running.raised
  rename_i addresses accepts
  obtain ⟨some, approved⟩ := accepted_addresses given accepts
  have counted : ∃ hits, (hits = [] ∨ hits = [.cacheHit]) ∧
      (if result.source = "cache" ∨ result.source = "hosts" then lookup.note .cacheHit else lookup) =
        { lookup with events := lookup.events ++ hits } := by
    split
    · exact ⟨[.cacheHit], .inr rfl, rfl⟩
    · exact ⟨[], .inl rfl, by rw [List.append_nil]⟩
  obtain ⟨hits, hit, same⟩ := counted
  rw [same]
  dsimp only
  split
  · refine ⟨?_, by rintro ⟨⟩, fun hooks => ?_⟩
    · rintro _ ⟨⟩
      exact .inr ⟨rfl, some, .inl ⟨_, listed, approved⟩⟩
    · change LookupReport call _
        (List.filter LookupEvent.isReport (lookup.events ++ hits ++ [.finished addresses.length ""]))
      have all : hits.filter LookupEvent.isReport = hits := by
        rcases hit with rfl | rfl
        · rfl
        · rfl
      rw [List.filter_append, List.filter_append, running.report hooks, all]
      exact .resolved running.asks hit
  · rename_i raises
    exact ⟨raised_valid _, by rintro ⟨⟩, fun hooks => (raises (hook hooks)).elim⟩

theorem Running.failed (running : Running call hooks lookup) (hook : hooks → round.hook = true)
    {error : String} (named : error ≠ "") :
    Running call hooks (lookup.failed case round error) ∨
      Told policies call hooks (lookup.failed case round error) := by
  unfold AddressLookup.failed
  split
  · exact @Running.beginDriver policies call hooks { lookup with queryType := dnsAaaa }
      case ⟨running.asks, running.outcome, running.report⟩ _
  split
  · exact .inr (running.fail hook (by simp) (by simp))
  dsimp only
  split
  · refine .inr ⟨?_, by rintro ⟨⟩, fun hook => ?_⟩
    · rintro _ ⟨⟩
      exact .inl ⟨by simp, rfl⟩
    · change LookupReport call (some ⟨[], "dns"⟩)
        (List.filter LookupEvent.isReport (lookup.events ++ [.finished 0 error] ++ [.failure]))
      rw [List.append_assoc, List.filter_append, running.report hook]
      exact .failed running.asks (by simp) named (.inr rfl)
  · rename_i raises
    exact .inr ⟨raised_valid _, by rintro ⟨⟩, fun hooks => (raises (hook hooks)).elim⟩

theorem Running.wait (running : Running call hooks lookup) (hook : hooks → round.hook = true)
    (handle : Int) (writing : Bool) (remaining : Int) :
    Running call hooks (lookup.wait round handle writing remaining) ∨
      Told policies call hooks (lookup.wait round handle writing remaining) := by
  have noted (waitMs : Int) : Running call hooks (lookup.note (.wait handle writing waitMs)) := by
    refine ⟨running.asks, running.outcome, fun hook => ?_⟩
    change List.filter LookupEvent.isReport (lookup.events ++ [.wait handle writing waitMs]) = _
    rw [List.filter_append, running.report hook]
    rfl
  unfold AddressLookup.wait
  split
  · exact .inr (running.abandon hook (by simp) (by simp))
  dsimp only
  split
  · exact .inr (noted _).raised
  split
  · exact .inr (noted _).raised
  split
  · rename_i failure _ known
    exact .inr ((noted _).abandon hook known (by simp))
  · exact .inl (noted _)

theorem Running.step (running : Running call hooks lookup) : Running call hooks (lookup.step case round).2 ∧
    ∀ result, (lookup.step case round).1 = some result → result.kind = .error → result.error ≠ "" := by
  unfold AddressLookup.step
  split
  · exact ⟨running, by rintro _ ⟨⟩⟩
  · rename_i driver _
    refine ⟨running, ?_⟩
    rintro _ ⟨⟩ kind
    unfold AnsweredDriver.result at kind ⊢
    split at kind
    · rename_i failed
      rw [if_pos failed]
      exact failed
    · cases kind
  · refine ⟨⟨running.asks, running.outcome, running.report⟩, fun result given => ?_⟩
    exact (step_telling case round.nowMs _ result (ok_of_toOption given)).error

theorem Running.turn (running : Running call hooks lookup) (hook : hooks → round.hook = true)
    (listed : round.endpoint.1 ∈ policies) :
    Running call hooks (lookup.turn case round) ∨ Told policies call hooks (lookup.turn case round) := by
  obtain ⟨next, named⟩ := @Running.step call hooks lookup round case running
  unfold AddressLookup.turn
  split
  · exact .inr (running.abandon hook (by simp) (by simp))
  generalize lookup.step case round = stepped at next named
  obtain ⟨_ | result, after⟩ := stepped
  · exact .inr next.raised
  dsimp only at next named ⊢
  unfold AddressLookup.settle
  cases kind : result.kind with
  | complete => exact .inr (next.complete hook listed _)
  | error => exact next.failed hook (named result rfl kind)
  | waitRead | waitWrite | ignored => exact next.wait hook _ _ _
  | progress | retry => exact .inl next

theorem Told.running (told : Told policies call hooks lookup) (running : lookup.outcome = none) :
    Running call hooks lookup := by
  refine ⟨told.asks running, running, fun hook => ?_⟩
  have report := told.report hook
  rw [running] at report
  generalize lookup.events.filter LookupEvent.isReport = events at report
  cases report
  rfl

theorem told_turns {turns : List LookupTurn} (told : Told policies call hooks lookup)
    (listed : ∀ round ∈ turns, round.endpoint.1 ∈ policies)
    (hook : hooks → ∀ round ∈ turns, round.hook = true) :
    Told policies call hooks ((turns.map .turn).foldl (AddressLookup.act case) lookup) := by
  induction turns generalizing lookup with
  | nil => exact told
  | cons round turns ih =>
    rw [List.map_cons, List.foldl_cons]
    refine ih ?_ (fun other member => listed other (List.mem_cons_of_mem _ member))
      (fun hooks other member => hook hooks other (List.mem_cons_of_mem _ member))
    unfold AddressLookup.act
    dsimp only
    split
    · exact told
    · rename_i running
      have running : lookup.outcome = none := by simpa using running
      rcases (told.running running).turn (fun hooks => hook hooks round List.mem_cons_self)
          (listed round List.mem_cons_self) with
        running | told
      · exact running.told
      · exact told

theorem call_told (hook : hooks → call.hook = true) : Told policies call hooks (lookup.call case call) := by
  unfold AddressLookup.call
  dsimp only
  split
  · rename_i numeric isNumeric
    refine ⟨?_, by rintro ⟨⟩, fun _ => .numeric isNumeric⟩
    rintro _ ⟨⟩
    exact .inr ⟨rfl, by simp, .inr ⟨numeric, isNumeric, rfl⟩⟩
  rename_i name
  split
  · rename_i missing
    refine ⟨?_, by rintro ⟨⟩, fun _ => .unavailable name missing⟩
    rintro _ ⟨⟩
    exact .inl ⟨by simp, rfl⟩
  rename_i available
  have available : call.available = true := Bool.not_eq_false _ ▸ available
  split
  · rename_i late
    refine ⟨?_, by rintro ⟨⟩, fun _ => .expired name available late⟩
    rintro _ ⟨⟩
    exact .inl ⟨by simp, rfl⟩
  rename_i early
  split
  · rename_i raises
    refine ⟨raised_valid _, by rintro ⟨⟩, fun hooks => ?_⟩
    rw [hook hooks] at raises
    cases raises
  · have running : Running call hooks ((AddressLookup.note
        { lookup with
          host := call.host, limit := call.deadline, queryType := dnsA, driver := none, events := []
          outcome := none }
        .started).note .query) := ⟨⟨name, available, Int.not_le.mp early⟩, rfl, fun _ => rfl⟩
    rcases @Running.beginDriver policies call hooks _ case running call.nowMs with running | told
    · exact running.told
    · exact told

end Turns
end AddressLookup

/-- A lookup that has returned addresses has some, and they are the host itself or canonical
addresses of its family that the policy of the endpoint lets through; one that has failed has a
failure and none. Where the host is an address, where there is no resolver and where the deadline
has passed it reports nothing. Otherwise, when its hooks return, it reports its start once, and its
end once and as it has returned. Nothing is assumed about the network, the clock, the pool and the
waits; of hooks that raise only what is returned is said. -/
theorem lookup_reports (case : CaseMapping) (before : AddressLookup) (call : LookupCall)
    (turns : List LookupTurn) :
    let lookup := (turns.map .turn).foldl (AddressLookup.act case) (before.call case call)
    (∀ outcome, lookup.outcome = some outcome → outcome.Valid (turns.map (·.endpoint.1)) call.host
      lookup.queryType) ∧ (call.hook = true → (∀ round ∈ turns, round.hook = true) →
        LookupReport call lookup.outcome (lookup.events.filter LookupEvent.isReport)) := by
  intro lookup
  have told : AddressLookup.Told (turns.map (·.endpoint.1)) call
      (call.hook = true ∧ ∀ round ∈ turns, round.hook = true) lookup :=
    AddressLookup.told_turns (AddressLookup.call_told And.left) (fun round member =>
      List.mem_map_of_mem member) And.right
  exact ⟨told.valid, fun first rest => told.report ⟨first, rest⟩⟩

/-- The request is cancelled while the driver has a socket. -/
theorem lookup_reports_cancelled :
    let turns : List LookupTurn := [
      { nowMs := 1, platform := { openOutcome := 3, openHandle := 5 } },
      { nowMs := 2, cancelled := true }]
    let call : LookupCall := { host := "ab".toList, limit := 100, nowMs := 0 }
    let lookup := (turns.map .turn).foldl (AddressLookup.act latin1Mapping)
      ((AddressLookup.idle oneServerResolver).call latin1Mapping call)
    lookup.events.filter LookupEvent.isReport = [.started, .query, .failure, .finished 0 "cancelled"] ∧
      LookupReport call lookup.outcome (lookup.events.filter LookupEvent.isReport) :=
  ⟨by decide, (lookup_reports latin1Mapping (.idle oneServerResolver) _ _).2 rfl (by decide)⟩

end PccGateway
