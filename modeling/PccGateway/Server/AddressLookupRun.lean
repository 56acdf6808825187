import PccGateway.Server.AddressLookup
import PccGateway.Dns.NativeRun
import PccGateway.Dns.ResolverPolicy

namespace PccGateway
open Dns Interleaving

/-- What a result of a step says about the driver. -/
structure Tells (result : DnsDriveResult) (next : DnsResolveDriver) : Prop where
  final : result.kind = .complete ∨ result.kind = .error → next.done = true
  error : result.kind = .error → result.error ≠ ""
  waits : result.kind = .waitRead ∨ result.kind = .waitWrite → result.handle = next.handle ∧
    next.done = false ∧ next.state ≠ .opening
  ignored : result.kind = .ignored → next.done = false ∧ next.state ≠ .opening

def Telling (outcome : Except StepExn DnsDriveResult × DnsResolveDriver) : Prop :=
  ∀ result, outcome.1 = .ok result → Tells result outcome.2

section Steps
variable {driver : DnsResolveDriver}

theorem finished_tells (done : driver.done = true) : Tells driver.finished driver := by
  unfold DnsResolveDriver.finished
  split
  · rename_i failed
    exact ⟨fun _ => done, fun _ => failed, by simp, by simp⟩
  · exact ⟨fun _ => done, by simp, by simp, by simp⟩

theorem terminal_tells (error : String) : Tells (driver.terminal error).1 (driver.terminal error).2 :=
  finished_tells (terminate_parts error).2.2.1

theorem retry_tells (error : String) (nowMs : Int) :
    Tells (driver.retry error nowMs).1 (driver.retry error nowMs).2 := by
  unfold DnsResolveDriver.retry
  dsimp only
  split
  · exact terminal_tells _
  split
  · exact terminal_tells _
  · exact ⟨by simp, by simp, by simp, by simp⟩

theorem progress_tells : Tells driver.progress.1 driver.progress.2 := by
  unfold DnsResolveDriver.progress
  exact ⟨by simp, by simp, by simp, by simp⟩

theorem wait_tells (active : driver.done = false) (opened : driver.state ≠ .opening) {kind : DriveKind}
    (waits : kind = .waitRead ∨ kind = .waitWrite) : Tells (driver.wait kind).1 (driver.wait kind).2 := by
  unfold DnsResolveDriver.wait
  rcases waits with rfl | rfl
  · exact ⟨by simp, by simp, fun _ => ⟨rfl, active, opened⟩, by simp⟩
  · exact ⟨by simp, by simp, fun _ => ⟨rfl, active, opened⟩, by simp⟩

theorem invalid_tells (active : driver.done = false) (opened : driver.state ≠ .opening)
    (code : String) (nowMs : Int) (tcp : Bool) :
    Tells (driver.invalid code nowMs tcp).1 (driver.invalid code nowMs tcp).2 := by
  unfold DnsResolveDriver.invalid
  dsimp only
  split
  · exact retry_tells _ _
  · exact ⟨by simp, by simp, by simp, fun _ => ⟨active, opened⟩⟩

theorem telling_returning {outcome : DnsDriveResult × DnsResolveDriver}
    (tells : Tells outcome.1 outcome.2) :
    Telling (DnsResolveDriver.returning outcome) := by
  rintro result ⟨⟩
  exact tells

theorem received_telling (active : driver.done = false) (opened : driver.state ≠ .opening)
    (nowMs : Int) (tcp : Bool) (outcome : Except DnsExn (Option Bytes) × ResolveOperation) :
    Telling (driver.received nowMs tcp outcome) := by
  unfold DnsResolveDriver.received
  dsimp only
  split
  · exact telling_returning (@invalid_tells { driver with operation := outcome.2 } active opened _ _ _)
  · rintro _ ⟨⟩
  · split
    · exact telling_returning progress_tells
    · exact telling_returning (terminal_tells _)

theorem stepReceive_telling (active : driver.done = false) (opened : driver.state ≠ .opening)
    (case : CaseMapping) (nowMs : Int)
    (observed : DnsIoResult) : Telling (driver.stepReceive case nowMs observed) := by
  unfold DnsResolveDriver.stepReceive
  split
  · exact telling_returning (wait_tells active opened (.inl rfl))
  · exact telling_returning (retry_tells _ _)
  · exact telling_returning (retry_tells _ _)
  split
  · exact telling_returning (retry_tells _ _)
  split
  · exact telling_returning (retry_tells _ _)
  split
  · unfold DnsResolveDriver.receiveUdp
    split
    · exact telling_returning (invalid_tells active opened _ _ _)
    · exact received_telling active opened _ _ _
  · unfold DnsResolveDriver.receiveTcp
    split
    · exact telling_returning (invalid_tells active opened _ _ _)
    dsimp only
    split
    · exact telling_returning (retry_tells _ _)
    split
    · exact telling_returning (retry_tells _ _)
    split
    · exact telling_returning progress_tells
    · exact received_telling (by exact active) (by exact opened) _ _ _

theorem stepConnect_tells (active : driver.done = false) (opened : driver.state ≠ .opening)
    (nowMs : Int) (observed : DnsIoResult) :
    Tells (driver.stepConnect nowMs observed).1 (driver.stepConnect nowMs observed).2 := by
  unfold DnsResolveDriver.stepConnect
  split
  · exact wait_tells active opened (.inr rfl)
  · exact progress_tells
  · exact retry_tells _ _
  · exact retry_tells _ _

theorem stepSend_tells (active : driver.done = false) (opened : driver.state ≠ .opening) (nowMs : Int)
    (observed : DnsIoResult) :
    Tells (driver.stepSend nowMs observed).1 (driver.stepSend nowMs observed).2 := by
  unfold DnsResolveDriver.stepSend
  split
  · exact wait_tells active opened (.inr rfl)
  · exact retry_tells _ _
  · exact retry_tells _ _
  dsimp only
  split
  · exact retry_tells _ _
  split
  · exact retry_tells _ _
  split
  · exact progress_tells
  · exact progress_tells

theorem stepOpen_tells (nowMs : Int) (observed : DnsIoResult) :
    Tells (driver.stepOpen nowMs observed).1 (driver.stepOpen nowMs observed).2 := by
  unfold DnsResolveDriver.stepOpen
  dsimp only
  split
  · exact retry_tells _ _
  · exact progress_tells

theorem observe_telling {call : TransportCall} {observed : Option DnsIoResult}
    {next : DnsResolveDriver → DnsIoResult → Except StepExn DnsDriveResult × DnsResolveDriver}
    (goes : ∀ observed, Telling (next (driver.called call) observed)) :
    Telling (driver.observe call observed next) := by
  unfold DnsResolveDriver.observe
  split
  · rintro _ ⟨⟩
  · exact goes _

theorem step_telling (case : CaseMapping) (nowMs : Int) (transport : Transport) :
    Telling (driver.step case nowMs transport) := by
  unfold DnsResolveDriver.step
  split
  · rename_i done
    rintro _ ⟨⟩
    exact finished_tells done
  rename_i running
  have active : driver.done = false := by simpa using running
  split
  · exact telling_returning (terminal_tells _)
  split
  · exact telling_returning (terminal_tells _)
  split
  · exact telling_returning (retry_tells _ _)
  unfold DnsResolveDriver.stepState
  split
  · exact telling_returning (stepOpen_tells _ _)
  · rename_i connecting
    have opened : driver.state ≠ .opening := by simp [connecting]
    exact observe_telling fun observed =>
      telling_returning (@stepConnect_tells (driver.called _) active opened nowMs observed)
  · rename_i sending
    have opened : driver.state ≠ .opening := by simp [sending]
    exact observe_telling fun observed =>
      telling_returning (@stepSend_tells (driver.called _) active opened nowMs observed)
  · rename_i receiving
    have opened : driver.state ≠ .opening := by simp [receiving]
    exact observe_telling fun observed =>
      @stepReceive_telling (driver.called _) active opened case nowMs observed

theorem ok_of_toOption {ε α : Type} {outcome : Except ε α} {result : α}
    (given : outcome.toOption = some result) : outcome = .ok result := by
  cases outcome with
  | error error => cases given
  | ok value => rw [Option.some.inj given]

/-- A step behind the deadline is the last one. -/
theorem step_late {case : CaseMapping} {nowMs : Int} (late : driver.operation.deadlineMs ≤ nowMs)
    (transport : Transport) :
    ∃ result, (driver.step case nowMs transport).1 = .ok result ∧
    (result.kind = .complete ∨ result.kind = .error) := by
  have ends (driver : DnsResolveDriver) :
      driver.finished.kind = .complete ∨ driver.finished.kind = .error := by
    unfold DnsResolveDriver.finished
    split
    · exact .inr rfl
    · exact .inl rfl
  unfold DnsResolveDriver.step
  split
  · exact ⟨_, rfl, ends _⟩
  split
  · exact ⟨_, rfl, ends _⟩
  · exact ⟨_, rfl, ends _⟩

theorem cancel_done (driver : DnsResolveDriver) : driver.cancel.2.done = true := by
  unfold DnsResolveDriver.cancel
  split
  · exact (terminate_parts _).2.2.1
  · exact (terminate_parts _).2.2.1

end Steps

section Begun
variable {case : CaseMapping} {resolver : Resolver} {name : Text} {qtype nowMs deadlineMs : Int}
  {driver : DnsResolveDriver}

/-- A driver that `begin_driver` returns is new, and has the deadline of the call. -/
def Begins (nowMs deadlineMs : Int) (driver : DnsResolveDriver) : Prop :=
  ∃ operation config startServer terminalError, driver =
    newDriver operation config nowMs startServer terminalError ∧ operation.deadlineMs = deadlineMs

theorem startQuery_begins
    (begun : (resolver.startQuery case name qtype nowMs deadlineMs).1 = .ok (.asking driver)) :
    Begins nowMs deadlineMs driver := by
  unfold Resolver.startQuery Resolver.allocateOperation at begun
  dsimp only at begun
  cases made : newOperation case resolver.nextQueryId name qtype deadlineMs resolver.cache
    resolver.policy with
  | error error => simp [made] at begun
  | ok operation =>
    simp only [made, Except.ok.injEq, ResolverDriver.asking.injEq] at begun
    exact ⟨operation, _, _, _, begun.symm, (newOperation_fields made).2⟩

theorem startExpired_begins
    (begun : (resolver.startExpired case name qtype nowMs deadlineMs).1 = .ok (.asking driver)) :
    Begins nowMs deadlineMs driver := by
  unfold Resolver.startExpired Resolver.allocateOperation at begun
  dsimp only at begun
  cases made : newOperation case resolver.nextQueryId name qtype deadlineMs resolver.cache
    resolver.policy with
  | error error => simp [made, Except.map] at begun
  | ok operation =>
    simp only [made, Except.map, Except.ok.injEq, ResolverDriver.asking.injEq] at begun
    refine ⟨operation.checkDeadline nowMs, _, _, _, begun.symm, ?_⟩
    rw [← (newOperation_fields made).2]
    unfold ResolveOperation.checkDeadline
    split <;> rfl

theorem beginDriver_begins
    (begun : (resolver.beginDriver case name qtype nowMs deadlineMs).1 = .ok (.asking driver)) :
    Begins nowMs deadlineMs driver := by
  have known {values : List Text} {source : String} {P : Prop}
      (begun : (resolver.acceptKnown case name qtype values source).1 = .ok (.asking driver)) : P := by
    unfold Resolver.acceptKnown at begun
    dsimp only at begun
    cases accepted : (resolver.policy.accept case { name, values, qtype }).1 <;>
      simp [accepted, Except.map] at begun
  unfold Resolver.beginDriver at begun
  split at begun
  · cases begun
  split at begun
  · exact startExpired_begins begun
  split at begun
  · exact known begun
  split at begun
  · exact known begun
  split at begun
  · cases begun
  · exact startQuery_begins begun

end Begun

theorem opened_of_open {uses : List HandleUse} {handle : Int} (isOpen : handle ∈ openHandles uses) :
    .opened handle ∈ uses := by
  induction uses using List.reverseRecOn with
  | nil => cases isOpen
  | append_singleton uses use ih =>
    cases use with
    | opened other =>
      rw [openHandles_opened] at isOpen
      rcases List.mem_cons.mp isOpen with rfl | old
      · simp
      · exact List.mem_append_left _ (ih old)
    | closed other =>
      rw [openHandles_closed] at isOpen
      exact List.mem_append_left _ (ih (List.mem_of_mem_erase isOpen))

theorem Dns.Move.keeps {before after : NativeDnsTransport} {driver next : DnsResolveDriver}
    (move : Move before driver after next)
    {use : HandleUse} (there : use ∈ before.platform) : use ∈ after.platform := by
  cases move with
  | still keys platform handle => rwa [platform]
  | closed held keys platform handle =>
    rw [platform]
    exact List.mem_append_left _ there
  | opened free given fresh keys platform =>
    rw [platform]
    exact List.mem_append_left _ there
  | dropped free fresh keys platform handle =>
    rw [platform]
    exact List.mem_append_left _ (List.mem_append_left _ there)

namespace AddressLookup

/-- The driver of a lookup, if it asks. -/
def asking (lookup : AddressLookup) : List DnsResolveDriver :=
  match lookup.driver with
  | some (.asking driver) => [driver]
  | _ => []

/-- No driver holds anything. -/
def Quiet (lookup : AddressLookup) : Prop := ∀ driver ∈ lookup.asking, driver.done = true

/-- What holds between two actions: the descriptors are those of the driver, every wait was for a
descriptor that the platform gave, and nothing is left of a lookup that has returned. -/
structure Kept (lookup : AddressLookup) : Prop where
  host : HostSound ⟨lookup.transport, lookup.asking⟩
  waited : ∀ handle writing waitMs, .wait handle writing waitMs ∈ lookup.events →
    .opened handle ∈ lookup.transport.platform ∧ 0 < waitMs ∧ waitMs ≤ proxyClientObserveSliceMs
  returned : lookup.outcome.isSome → lookup.Quiet

section Parts
variable {lookup : AddressLookup} {round : LookupTurn} {case : CaseMapping}

theorem Kept.note (kept : lookup.Kept) {event : LookupEvent}
    (other : ∀ handle writing waitMs, event ≠ .wait handle writing waitMs) :
    (lookup.note event).Kept := by
  refine ⟨kept.host, fun handle writing waitMs member => ?_, kept.returned⟩
  rcases List.mem_append.mp member with old | new
  · exact kept.waited handle writing waitMs old
  · exact (other _ _ _ (List.mem_singleton.mp new).symm).elim

theorem Kept.returns (kept : lookup.Kept) (quiet : lookup.Quiet) (addresses : List Text)
    (failure : String) :
    (lookup.returns addresses failure).Kept := ⟨kept.host, kept.waited, fun _ => quiet⟩

theorem asking_eq {driver : DnsResolveDriver} (asks : lookup.driver = some (.asking driver)) :
    lookup.asking = [driver] := by
  rw [asking, asks]

theorem asking_handles (lookup : AddressLookup) :
    liveHandles lookup.asking = if lookup.attempt.1 = -1 then [] else [lookup.attempt.1] := by
  unfold asking attempt
  rcases lookup.driver with _ | ⟨driver⟩ | driver
  · rfl
  · rfl
  · by_cases free : driver.handle = -1
    · simp [liveHandles, free]
    · simp [liveHandles, free]

/-- The driver is served by the transport. -/
theorem Kept.served (kept : lookup.Kept) {driver next : DnsResolveDriver} {platform : Platform}
    (host : HostSound ⟨lookup.transport, [driver]⟩)
    (served : Served lookup.transport driver
      (lookup.transport.serve (driver.server.getD ⟨[], 53⟩) platform driver next) next)
    (quiet : lookup.outcome.isSome → next.done = true) : (lookup.served driver next platform).Kept := by
  refine ⟨@HostSound.serve _ driver next [] [] ⟨lookup.transport, [driver]⟩ host rfl served,
    fun handle writing waitMs member => ?_, fun isOver => ?_⟩
  · obtain ⟨opened, bounds⟩ := kept.waited handle writing waitMs member
    exact ⟨served.move.keeps opened, bounds⟩
  · rintro other member
    obtain rfl := List.mem_singleton.mp member
    exact quiet isOver

theorem Kept.cancelDriver (kept : lookup.Kept) : lookup.cancelDriver.Kept ∧ lookup.cancelDriver.Quiet := by
  have bare (none : lookup.asking = []) : lookup.Quiet := by
    rw [Quiet, none]
    rintro _ ⟨⟩
  unfold AddressLookup.cancelDriver
  split
  · rename_i driver asks
    have host := kept.host
    rw [asking_eq asks] at host
    have served := @released_served lookup.transport driver driver.cancel.2 (driver.server.getD ⟨[], 53⟩) {}
      (host.drivers driver List.mem_cons_self) (cancel_released driver)
    refine ⟨kept.served host served fun _ => cancel_done driver, ?_⟩
    rintro other member
    obtain rfl := List.mem_singleton.mp member
    exact cancel_done driver
  · rename_i notAsking
    refine ⟨kept, bare ?_⟩
    unfold asking
    split
    · rename_i driver asks
      exact (notAsking driver asks).elim
    · rfl

theorem Kept.raised (kept : lookup.Kept) : lookup.raised.Kept := by
  obtain ⟨kept, quiet⟩ := kept.cancelDriver
  exact ((kept.note (by simp)).note (by simp)).returns quiet _ _

theorem Kept.fail (kept : lookup.Kept) (quiet : lookup.Quiet) (report failure : String) :
    (lookup.fail round report failure).Kept := by
  have noted : ((lookup.note .failure).note (.finished 0 report)).Kept :=
    (kept.note (by simp)).note (by simp)
  unfold AddressLookup.fail
  dsimp only
  split
  · exact noted.returns quiet _ _
  · exact noted.raised

theorem Kept.abandon (kept : lookup.Kept) (report failure : String) :
    (lookup.abandon round report failure).Kept :=
  kept.cancelDriver.1.fail kept.cancelDriver.2 _ _

theorem quiet_host (kept : lookup.Kept) (quiet : lookup.Quiet) : HostSound ⟨lookup.transport, []⟩ := by
  have idle : ∀ driver ∈ lookup.asking, driver.handle = -1 := by
    intro driver member
    rcases (kept.host.drivers driver member).handle with ⟨free, -⟩ | held
    · exact free
    · cases (quiet driver member).symm.trans held.active
  have none : liveHandles lookup.asking = [] := by
    refine List.filter_eq_nil_iff.mpr fun handle member => ?_
    obtain ⟨driver, listed, rfl⟩ := List.mem_map.mp member
    simp [idle driver listed]
  have keys := kept.host.keys
  rw [none] at keys
  exact ⟨by rintro _ ⟨⟩, keys, kept.host.open_, kept.host.uses⟩

theorem Kept.beginDriver (kept : lookup.Kept) (quiet : lookup.Quiet) (running : lookup.outcome = none)
    (nowMs : Int) :
    (lookup.beginDriver case nowMs).Kept := by
  unfold AddressLookup.beginDriver
  split
  · rename_i error resolver begun
    have same : { lookup with resolver }.Kept := ⟨kept.host, kept.waited, kept.returned⟩
    exact same.raised
  · rename_i driver resolver begun
    have idle := quiet_host kept quiet
    refine ⟨?_, kept.waited, fun isOver => ?_⟩
    · cases driver with
      | answered driver => exact idle
      | asking driver =>
        obtain ⟨operation, config, startServer, terminalError, rfl, -⟩ :=
          beginDriver_begins (congrArg Prod.fst begun)
        exact idle.act case (.start operation config nowMs startServer terminalError) trivial
    · rw [running] at isOver
      cases isOver

theorem held_opened {transport : NativeDnsTransport} {driver : DnsResolveDriver}
    (host : HostSound ⟨transport, [driver]⟩)
    (active : driver.done = false) (opened : driver.state ≠ .opening) :
    .opened driver.handle ∈ transport.platform := by
  rcases (host.drivers driver List.mem_cons_self).handle with ⟨-, done | opening⟩ | held
  · cases active.symm.trans done
  · exact (opened opening).elim
  · exact opened_of_open (host.open_.mem_iff.mpr (AList.mem_keys.mp held.mem))

/-- What a step of a lookup gives. -/
structure Steps (lookup : AddressLookup) (result : DnsDriveResult) : Prop where
  final : result.kind = .complete ∨ result.kind = .error → lookup.Quiet
  waits : result.kind = .waitRead ∨ result.kind = .waitWrite →
    .opened result.handle ∈ lookup.transport.platform
  ignored : result.kind = .ignored → .opened lookup.attempt.1 ∈ lookup.transport.platform

theorem answered_kind (driver : AnsweredDriver) :
    driver.result.kind = .complete ∨ driver.result.kind = .error := by
  unfold AnsweredDriver.result
  split
  · exact .inr rfl
  · exact .inl rfl

theorem Kept.step (kept : lookup.Kept) (running : lookup.outcome = none)
    (fresh : 0 ≤ round.platform.openHandle →
      round.platform.openHandle ∉ openHandles lookup.transport.platform) :
    (lookup.step case round).2.Kept ∧ (lookup.step case round).2.outcome = none ∧
      ∀ result, (lookup.step case round).1 = some result → Steps (lookup.step case round).2 result := by
  unfold AddressLookup.step
  split
  · exact ⟨kept, running, by rintro _ ⟨⟩⟩
  · rename_i driver answers
    refine ⟨kept, running, ?_⟩
    rintro _ ⟨⟩
    have quiet : lookup.Quiet := by
      rw [Quiet, asking, answers]
      rintro _ ⟨⟩
    rcases answered_kind driver with kind | kind
    · exact ⟨fun _ => quiet, by simp [kind], by simp [kind]⟩
    · exact ⟨fun _ => quiet, by simp [kind], by simp [kind]⟩
  · rename_i driver asks
    have host := kept.host
    rw [asking_eq asks] at host
    have attached := host.drivers driver List.mem_cons_self
    -- The step is made with the cache and the policy of the resolver, which are no part of what the
    -- transport serves.
    have attached' : Attached lookup.transport
        { driver with operation := lookup.resolver.share driver.operation } :=
      ⟨fun active => ⟨(attached.living active).server, (attached.living active).servers,
          (attached.living active).bounded⟩,
        attached.handle.imp_right fun held => ⟨held.active, held.given, held.state, held.owner⟩⟩
    have host' : HostSound
        ⟨lookup.transport, [{ driver with operation := lookup.resolver.share driver.operation }]⟩ :=
      ⟨by simpa using attached', host.keys, host.open_, host.uses⟩
    have served := step_served attached' host.open_ fresh case round.nowMs
    have tells := @step_telling { driver with operation := lookup.resolver.share driver.operation }
      case round.nowMs
      (lookup.transport.answers driver (driver.server.getD ⟨[], 53⟩) round.platform)
    have next := kept.served host' served (by simp [running])
    refine ⟨⟨next.host, next.waited, next.returned⟩, running, fun result given => ?_⟩
    obtain ⟨final, -, waits, ignored⟩ := tells result (ok_of_toOption given)
    refine ⟨fun kind other member => ?_, fun kind => ?_, fun kind => ?_⟩
    · obtain rfl := List.mem_singleton.mp member
      exact final kind
    · obtain ⟨handle, active, opened⟩ := waits kind
      rw [handle]
      exact held_opened next.host active opened
    · obtain ⟨active, opened⟩ := ignored kind
      exact held_opened next.host active opened

theorem Kept.wait (kept : lookup.Kept) {handle : Int}
    (opened : .opened handle ∈ lookup.transport.platform) (writing : Bool)
    (remaining : Int) : (lookup.wait round handle writing remaining).Kept := by
  unfold AddressLookup.wait
  split
  · exact kept.abandon _ _
  rename_i positive
  dsimp only
  have noted : (lookup.note (.wait handle writing
      (if proxyClientObserveSliceMs < remaining then proxyClientObserveSliceMs else remaining))).Kept := by
    refine ⟨kept.host, fun other writing' waitMs member => ?_, kept.returned⟩
    rcases List.mem_append.mp member with old | new
    · exact kept.waited other writing' waitMs old
    · obtain ⟨rfl, rfl, rfl⟩ := by simpa using new
      refine ⟨opened, ?_⟩
      unfold proxyClientObserveSliceMs
      split <;> omega
  split
  · exact noted.raised
  split
  · exact noted.raised
  split
  · exact noted.abandon _ _
  · exact noted

theorem Kept.complete (kept : lookup.Kept) (quiet : lookup.Quiet) (result : DnsDriveResult) :
    (lookup.complete case round result).Kept := by
  unfold AddressLookup.complete
  split
  · exact kept.fail quiet _ _
  split
  · exact kept.raised
  split
  · exact kept.raised
  rename_i addresses accepted
  dsimp only
  have counted : (if result.source = "cache" ∨ result.source = "hosts" then lookup.note .cacheHit
      else lookup).Kept ∧
      (if result.source = "cache" ∨ result.source = "hosts" then lookup.note .cacheHit
        else lookup).Quiet := by
    split
    · exact ⟨kept.note (by simp), quiet⟩
    · exact ⟨kept, quiet⟩
  have noted := @Kept.note _ counted.1 (.finished addresses.length "") (by simp)
  split
  · exact noted.returns counted.2 _ _
  · exact noted.raised

theorem Kept.failed (kept : lookup.Kept) (quiet : lookup.Quiet) (running : lookup.outcome = none)
    (error : String) :
    (lookup.failed case round error).Kept := by
  unfold AddressLookup.failed
  split
  · have again : { lookup with queryType := dnsAaaa }.Kept := ⟨kept.host, kept.waited, kept.returned⟩
    exact again.beginDriver quiet running _
  split
  · exact kept.fail quiet _ _
  dsimp only
  have noted : (lookup.note (.finished 0 error)).Kept := kept.note (by simp)
  split
  · exact (noted.note (by simp)).returns quiet _ _
  · exact noted.raised

theorem Kept.settle (kept : lookup.Kept) (running : lookup.outcome = none) {result : DnsDriveResult}
    (steps : Steps lookup result) :
    (lookup.settle case round result).Kept := by
  unfold AddressLookup.settle
  cases kind : result.kind with
  | complete => exact kept.complete (steps.final (.inl kind)) _
  | error => exact kept.failed (steps.final (.inr kind)) running _
  | waitRead => exact kept.wait (steps.waits (.inl kind)) _ _
  | waitWrite => exact kept.wait (steps.waits (.inr kind)) _ _
  | ignored => exact kept.wait (steps.ignored kind) _ _
  | progress => exact kept
  | retry => exact kept

theorem Kept.turn (kept : lookup.Kept) (running : lookup.outcome = none)
    (fresh : 0 ≤ round.platform.openHandle →
      round.platform.openHandle ∉ openHandles lookup.transport.platform) :
    (lookup.turn case round).Kept := by
  obtain ⟨next, still, steps⟩ := @Kept.step lookup round case kept running fresh
  unfold AddressLookup.turn
  split
  · exact kept.abandon _ _
  generalize lookup.step case round = stepped at next still steps
  obtain ⟨_ | result, lookup⟩ := stepped
  · exact next.raised
  · exact next.settle still (steps result rfl)

theorem Kept.call (kept : lookup.Kept) (returned : lookup.outcome.isSome) (call : LookupCall) :
    (lookup.call case call).Kept := by
  have quiet := quiet_host kept (kept.returned returned)
  unfold AddressLookup.call
  dsimp only
  split
  · exact ⟨quiet, by simp [AddressLookup.returns], fun _ => by rintro _ ⟨⟩⟩
  split
  · exact ⟨quiet, by simp [AddressLookup.returns], fun _ => by rintro _ ⟨⟩⟩
  split
  · exact ⟨quiet, by simp [AddressLookup.returns], fun _ => by rintro _ ⟨⟩⟩
  split
  · exact Kept.raised ⟨quiet, by simp [AddressLookup.note], by rintro ⟨⟩⟩
  · exact Kept.beginDriver ⟨quiet, by simp [AddressLookup.note], by rintro ⟨⟩⟩ (by rintro _ ⟨⟩) rfl _

theorem Kept.act (kept : lookup.Kept) (action : LookupAction) (fresh : action.Fresh lookup) :
    (lookup.act case action).Kept := by
  cases action with
  | call call =>
    unfold AddressLookup.act
    dsimp only
    split
    · rename_i returned
      exact kept.call returned call
    · exact kept
  | turn round =>
    unfold AddressLookup.act
    dsimp only
    split
    · exact kept
    · rename_i running
      exact kept.turn (by simpa using running) fresh

end Parts
end AddressLookup

/-- Over all lookups of a connection, however they end: a descriptor is open only while a lookup is
running, it is the one that its driver has, and each is closed exactly once. Every wait is for a
descriptor that the platform gave, and no longer than a slice. What is assumed of the platform is
that it does not give out a descriptor that is open. Hooks, the pool and the waits may raise at
every turn, and the request may be cancelled at any of them. -/
theorem lookup_descriptors (case : CaseMapping) (resolver : Resolver) (actions : List LookupAction)
    (fresh : Along (AddressLookup.act case) (fun lookup action => action.Fresh lookup) actions
      (.idle resolver)) :
    let lookup := actions.foldl (AddressLookup.act case) (.idle resolver)
    Exact lookup.transport.platform ∧ (lookup.outcome.isSome → openHandles lookup.transport.platform = []) ∧
      openHandles lookup.transport.platform = (if lookup.attempt.1 = -1 then [] else [lookup.attempt.1]) ∧
      ∀ handle writing waitMs, .wait handle writing waitMs ∈ lookup.events →
        .opened handle ∈ lookup.transport.platform ∧ 0 < waitMs ∧ waitMs ≤ proxyClientObserveSliceMs := by
  intro lookup
  have start : (AddressLookup.idle resolver).Kept :=
    ⟨⟨by rintro _ ⟨⟩, .refl _, .refl _, exact_nil⟩, by rintro _ _ _ ⟨⟩, fun _ => by rintro _ ⟨⟩⟩
  have kept : lookup.Kept :=
    invariant_along (fun lookup action fresh kept => kept.act action fresh) fresh start
  have handles := kept.host.open_.trans kept.host.keys
  refine ⟨kept.host.uses, fun returned => ?_, ?_, kept.waited⟩
  · have quiet := AddressLookup.quiet_host kept (kept.returned returned)
    exact (quiet.open_.trans quiet.keys).eq_nil
  · have handles : (openHandles lookup.transport.platform).Perm (liveHandles lookup.asking) := handles
    rw [AddressLookup.asking_handles] at handles
    split at handles
    · rename_i free
      rw [if_pos free]
      exact handles.eq_nil
    · rename_i taken
      rw [if_neg taken]
      exact List.perm_singleton.mp handles

/-- A lookup whose request is cancelled while its driver has a socket, and one that is answered by the
name itself. -/
def cancelledLookup : List LookupAction :=
  [.call { host := "ab".toList, limit := 100, nowMs := 0 },
    .turn { nowMs := 1, platform := { openOutcome := 3, openHandle := 5 } },
    .turn { nowMs := 2, cancelled := true }, .call { host := "9.9.9.9".toList, limit := 100, nowMs := 3 }]

theorem lookup_descriptors_cancelledLookup :
    let lookup := cancelledLookup.foldl (AddressLookup.act latin1Mapping) (.idle oneServerResolver)
    lookup.transport.platform = [.opened 5, .closed 5] ∧ openHandles lookup.transport.platform = [] :=
  ⟨by decide, (lookup_descriptors latin1Mapping oneServerResolver cancelledLookup
    (by decide)).2.1 (by decide)⟩

end PccGateway
