import PccGateway.Dns.DriverRun

namespace PccGateway
namespace Dns

/-- The two objects that keep the framing have the same. -/
def Agrees (driver : DnsResolveDriver) : Prop := driver.operation.useTcp = true ↔ driver.protocol = .tcp

/-- An operation that waits for its reply. -/
structure Waiting (operation : ResolveOperation) : Prop where
  active : operation.done = false
  uncancelled : operation.cancelled = false
  clean : operation.error = ""

/-- What `receive` can do in time: refuse the payload, go over to TCP, or end the operation. -/
theorem receive_cases (case : CaseMapping) {operation : ResolveOperation}
    (waiting : Waiting operation) {nowMs : Int}
    (early : nowMs < operation.deadlineMs) (payload : Bytes) :
    (∃ error policy, operation.receive case payload nowMs = (.error error, { operation with policy })) ∨
    (operation.useTcp = false ∧
      operation.receive case payload nowMs =
        (.ok (some (frame operation.query)), { operation with useTcp := true })) ∨
    ∃ after, operation.receive case payload nowMs = (.ok none, after) ∧ after.done = true := by
  unfold ResolveOperation.receive
  rw [if_neg (by simp [waiting.active, waiting.uncancelled]), if_neg (by omega)]
  split
  · exact .inl ⟨_, operation.policy, rfl⟩
  split
  · exact .inl ⟨_, operation.policy, rfl⟩
  unfold ResolveOperation.receiveResponse
  split
  · rename_i truncated
    exact .inr (.inl ⟨by simpa using truncated.2, rfl⟩)
  split
  · exact .inr (.inr ⟨_, rfl, rfl⟩)
  split
  · exact .inl ⟨_, operation.policy, rfl⟩
  unfold ResolveOperation.receiveAnswers
  split
  · exact .inl ⟨_, operation.policy, rfl⟩
  split
  · exact .inr (.inr ⟨_, rfl, rfl⟩)
  split
  · exact .inl ⟨_, _, rfl⟩
  · exact .inr (.inr ⟨_, rfl, rfl⟩)

/-- What a step does to the framing of a driver that goes on: nothing, a new attempt, or the change to
TCP. -/
inductive Shift (driver after : DnsResolveDriver) : Prop
  | stays : after.operation.useTcp = driver.operation.useTcp → after.protocol = driver.protocol →
      after.attempt = driver.attempt → Shift driver after
  | retries : after.operation.useTcp = driver.operation.useTcp → after.protocol = driver.config.protocol →
      after.attempt = driver.attempt + 1 → Shift driver after
  | switches : driver.protocol = .udp → driver.operation.useTcp = false →
      after.operation.useTcp = true → after.protocol = .tcp →
      after.attempt = driver.attempt → Shift driver after

/-- A driver that goes on after a step has an operation that waits, and nothing expected of a reply of
which nothing has come. -/
structure Going (driver after : DnsResolveDriver) : Prop where
  waiting : Waiting after.operation
  config : after.config = driver.config
  shift : Shift driver after
  fresh : after.tcpBuffer = [] → after.tcpExpected = -1

section Parts

variable {driver : DnsResolveDriver}

/-- Only the framing, the attempt and the configuration of the driver before the step matter. -/
theorem Going.before {other after : DnsResolveDriver} (going : Going other after)
    (useTcp : other.operation.useTcp = driver.operation.useTcp)
    (protocol : other.protocol = driver.protocol) (attempt : other.attempt = driver.attempt)
    (config : other.config = driver.config) :
    Going driver after := by
  refine ⟨going.waiting, going.config.trans config, ?_, going.fresh⟩
  cases going.shift with
  | stays one two three => exact .stays (one.trans useTcp) (two.trans protocol) (three.trans attempt)
  | retries one two three => exact .retries (one.trans useTcp) (config ▸ two) (by omega)
  | switches one two three four five =>
    exact .switches (protocol ▸ one) (useTcp ▸ two) three four (five.trans attempt)

theorem retry_going (waiting : Waiting driver.operation) (error : String) (nowMs : Int)
    (active : (driver.retry error nowMs).2.done = false) : Going driver (driver.retry error nowMs).2 := by
  unfold DnsResolveDriver.retry at active ⊢
  dsimp only at active ⊢
  split at active
  · cases (terminate_parts "timeout").2.2.1.symm.trans active
  split at active
  · cases (terminate_parts _).2.2.1.symm.trans active
  · rename_i soon more
    rw [if_neg soon, if_neg more]
    refine ⟨?_, close_config, .retries ?_ ?_ rfl, fun _ => rfl⟩
    · change Waiting driver.close.operation
      rw [close_operation]
      exact waiting
    · change driver.close.operation.useTcp = _
      rw [close_operation]
    · change driver.close.config.protocol = _
      rw [close_config]

theorem invalid_going (waiting : Waiting driver.operation)
    (fresh : driver.tcpBuffer = [] → driver.tcpExpected = -1) (code : String)
    (nowMs : Int) (tcp : Bool) (active : (driver.invalid code nowMs tcp).2.done = false) :
    Going driver (driver.invalid code nowMs tcp).2 := by
  unfold DnsResolveDriver.invalid at active ⊢
  dsimp only at active ⊢
  split at active
  · rename_i again
    rw [if_pos again]
    exact (@retry_going { driver with invalidReplies := driver.invalidReplies + 1 } waiting code nowMs
      active).before rfl rfl rfl rfl
  · rename_i ignored
    rw [if_neg ignored]
    exact ⟨waiting, rfl, .stays rfl rfl rfl, fresh⟩

theorem switchToTcp_going (waiting : Waiting driver.operation) {before : DnsResolveDriver}
    (config : driver.config = before.config)
    (udp : before.protocol = .udp) (still : before.operation.useTcp = false)
    (switched : driver.operation.useTcp = true)
    (attempt : driver.attempt = before.attempt) (framedQuery : Bytes) (nowMs : Int) :
    Going before (driver.switchToTcp framedQuery nowMs).2 := by
  refine ⟨?_, close_config.trans config, .switches udp still ?_ rfl (close_attempt.trans attempt),
    fun _ => rfl⟩
  · change Waiting driver.close.operation
    rw [close_operation]
    exact waiting
  · change driver.close.operation.useTcp = true
    rw [close_operation]
    exact switched

theorem received_going (case : CaseMapping) (waiting : Waiting driver.operation)
    (fresh : driver.tcpBuffer = [] → driver.tcpExpected = -1)
    {nowMs : Int} (early : nowMs < driver.operation.deadlineMs) {tcp : Bool}
    (protocol : tcp = false → driver.protocol = .udp)
    (payload : Bytes) (active : (driver.received nowMs tcp
      (driver.operation.receive case payload nowMs)).2.done = false) :
    Going driver (driver.received nowMs tcp (driver.operation.receive case payload nowMs)).2 := by
  have ends : ∀ operation : ResolveOperation,
      (DnsResolveDriver.returning ({ driver with operation }.terminal "")).2.done = true := fun _ =>
        (terminate_parts "").2.2.1
  obtain ⟨error, policy, outcome⟩ | ⟨still, outcome⟩ | ⟨after, outcome, isOver⟩ :=
    receive_cases case waiting early payload
  · have waiting' : Waiting { driver.operation with policy } :=
      ⟨waiting.active, waiting.uncancelled, waiting.clean⟩
    rw [outcome] at active ⊢
    unfold DnsResolveDriver.received at active ⊢
    dsimp only at active ⊢
    cases error with
    | dns code message =>
      exact (@invalid_going { driver with operation := { driver.operation with policy } } waiting'
        fresh code nowMs tcp active).before
        rfl rfl rfl rfl
    | value message => exact ⟨waiting', rfl, .stays rfl rfl rfl, fresh⟩
    | index => exact ⟨waiting', rfl, .stays rfl rfl rfl, fresh⟩
    | unfinished => exact ⟨waiting', rfl, .stays rfl rfl rfl, fresh⟩
  · rw [outcome] at active ⊢
    unfold DnsResolveDriver.received at active ⊢
    cases tcp with
    | true => cases (ends _).symm.trans active
    | false =>
      exact @switchToTcp_going { driver with operation := { driver.operation with useTcp := true } }
        ⟨waiting.active, waiting.uncancelled, waiting.clean⟩ driver rfl (protocol rfl) still rfl rfl _ _
  · rw [outcome] at active
    unfold DnsResolveDriver.received at active
    cases (ends _).symm.trans active

theorem stepReceive_going (case : CaseMapping) (waiting : Waiting driver.operation)
    (fresh : driver.tcpBuffer = [] → driver.tcpExpected = -1)
    {nowMs : Int} (early : nowMs < driver.operation.deadlineMs) (observed : DnsIoResult)
    (active : (driver.stepReceive case nowMs observed).2.done = false) :
    Going driver (driver.stepReceive case nowMs observed).2 := by
  unfold DnsResolveDriver.stepReceive at active ⊢
  split at active
  · exact ⟨waiting, rfl, .stays rfl rfl rfl, fresh⟩
  · exact retry_going waiting _ _ active
  · exact retry_going waiting _ _ active
  split at active
  · rename_i empty
    rw [if_pos empty]
    exact retry_going waiting _ _ active
  rename_i some
  rw [if_neg some]
  split at active
  · rename_i large
    rw [if_pos large]
    exact retry_going waiting _ _ active
  rename_i fits
  rw [if_neg fits]
  split at active
  · rename_i udp
    unfold DnsResolveDriver.receiveUdp at active ⊢
    split at active
    · rename_i stranger
      rw [if_pos stranger]
      exact invalid_going waiting fresh _ _ _ active
    · rename_i known
      rw [if_neg known]
      exact received_going case waiting fresh early (fun _ => udp) _ active
  · unfold DnsResolveDriver.receiveTcp at active ⊢
    split at active
    · rename_i stranger
      rw [if_pos stranger]
      exact invalid_going waiting fresh _ _ _ active
    rename_i known
    rw [if_neg known]
    dsimp only at active ⊢
    have grown : ∀ {P : Prop}, driver.tcpBuffer ++ observed.data = [] → P := fun none =>
      absurd (List.append_eq_nil_iff.mp none).2 some
    split at active
    · rename_i much
      rw [if_pos much]
      exact (@retry_going { driver with tcpBuffer := driver.tcpBuffer ++ observed.data } waiting _ _
        active).before rfl rfl rfl rfl
    rename_i bounded
    rw [if_neg bounded]
    split at active
    · rename_i bad
      rw [if_pos bad]
      exact (@retry_going { driver with tcpBuffer := driver.tcpBuffer ++ observed.data, tcpExpected := _ }
        waiting _ _ active).before rfl rfl rfl rfl
    rename_i good
    rw [if_neg good]
    split at active
    · rename_i partly
      rw [if_pos partly]
      exact ⟨waiting, rfl, .stays rfl rfl rfl, grown⟩
    · rename_i whole
      rw [if_neg whole]
      exact (@received_going { driver with tcpBuffer := driver.tcpBuffer ++ observed.data, tcpExpected := _ }
        case waiting grown nowMs early
        true nofun _ active).before rfl rfl rfl rfl

theorem stepOpen_going (waiting : Waiting driver.operation)
    (fresh : driver.tcpBuffer = [] → driver.tcpExpected = -1) (nowMs : Int)
    (observed : DnsIoResult) (active : (driver.stepOpen nowMs observed).2.done = false) :
    Going driver (driver.stepOpen nowMs observed).2 := by
  unfold DnsResolveDriver.stepOpen at active ⊢
  dsimp only at active ⊢
  split at active
  · rename_i failed
    rw [if_pos failed]
    exact (@retry_going (driver.called _) waiting _ _ active).before rfl rfl rfl rfl
  · rename_i succeeded
    rw [if_neg succeeded]
    exact ⟨waiting, rfl, .stays rfl rfl rfl, fresh⟩

theorem stepConnect_going (waiting : Waiting driver.operation)
    (fresh : driver.tcpBuffer = [] → driver.tcpExpected = -1) (nowMs : Int)
    (observed : DnsIoResult) (active : (driver.stepConnect nowMs observed).2.done = false) :
    Going driver (driver.stepConnect nowMs observed).2 := by
  unfold DnsResolveDriver.stepConnect at active ⊢
  split at active
  · exact ⟨waiting, rfl, .stays rfl rfl rfl, fresh⟩
  · exact ⟨waiting, rfl, .stays rfl rfl rfl, fresh⟩
  · exact retry_going waiting _ _ active
  · exact retry_going waiting _ _ active

theorem stepSend_going (waiting : Waiting driver.operation)
    (fresh : driver.tcpBuffer = [] → driver.tcpExpected = -1) (nowMs : Int)
    (observed : DnsIoResult) (active : (driver.stepSend nowMs observed).2.done = false) :
    Going driver (driver.stepSend nowMs observed).2 := by
  unfold DnsResolveDriver.stepSend at active ⊢
  split at active
  · exact ⟨waiting, rfl, .stays rfl rfl rfl, fresh⟩
  · exact retry_going waiting _ _ active
  · exact retry_going waiting _ _ active
  · dsimp only at active ⊢
    split at active
    · rename_i bad
      rw [if_pos bad]
      exact retry_going waiting _ _ active
    rename_i good
    rw [if_neg good]
    split at active
    · rename_i short
      rw [if_pos short]
      exact retry_going waiting _ _ active
    rename_i whole
    rw [if_neg whole]
    split
    · exact ⟨waiting, rfl, .stays rfl rfl rfl, fresh⟩
    · exact ⟨waiting, rfl, .stays rfl rfl rfl, fresh⟩

theorem observe_going (waiting : Waiting driver.operation)
    (fresh : driver.tcpBuffer = [] → driver.tcpExpected = -1) {call : TransportCall}
    {observed : Option DnsIoResult}
    {next : DnsResolveDriver → DnsIoResult → Except StepExn DnsDriveResult × DnsResolveDriver}
    (goes : ∀ seen, (next (driver.called call) seen).2.done = false →
      Going (driver.called call) (next (driver.called call) seen).2)
    (active : (driver.observe call observed next).2.done = false) :
    Going driver (driver.observe call observed next).2 := by
  cases observed with
  | none => exact ⟨waiting, rfl, .stays rfl rfl rfl, fresh⟩
  | some seen => exact (goes seen active).before rfl rfl rfl rfl

/-- What a step does to a driver that goes on after it. -/
theorem step_going (case : CaseMapping) (waiting : Waiting driver.operation)
    (fresh : driver.tcpBuffer = [] → driver.tcpExpected = -1)
    (nowMs : Int) (transport : Transport) (active : (driver.step case nowMs transport).2.done = false) :
    Going driver (driver.step case nowMs transport).2 := by
  unfold DnsResolveDriver.step at active ⊢
  split at active
  · rename_i done
    cases done.symm.trans active
  rename_i running
  rw [if_neg running]
  split at active
  · cases (terminate_parts "cancelled").2.2.1.symm.trans active
  rename_i uncancelled
  rw [if_neg uncancelled]
  split at active
  · cases (terminate_parts "timeout").2.2.1.symm.trans active
  rename_i early
  rw [if_neg early]
  split at active
  · rename_i late
    rw [if_pos late]
    exact retry_going waiting _ _ active
  rename_i timely
  rw [if_neg timely]
  have early : nowMs < driver.operation.deadlineMs := Int.not_le.mp early
  unfold DnsResolveDriver.stepState at active ⊢
  split at active
  · exact stepOpen_going waiting fresh nowMs _ active
  · exact observe_going waiting fresh
      (fun seen => @stepConnect_going (driver.called _) waiting fresh nowMs seen) active
  · exact observe_going waiting fresh
      (fun seen => @stepSend_going (driver.called _) waiting fresh nowMs seen) active
  · exact observe_going waiting fresh
      (fun seen => @stepReceive_going (driver.called _) case waiting fresh nowMs early seen) active

/-- A driver that goes on, with the drivers of the run until then. -/
structure Tracking (config : DnsResolverConfig) (history : List DnsResolveDriver)
    (driver : DnsResolveDriver) : Prop where
  waiting : Waiting driver.operation
  fresh : driver.tcpBuffer = [] → driver.tcpExpected = -1
  config_eq : driver.config = config
  useTcp : config.useTcp = true → driver.operation.useTcp = false ∧ driver.protocol = .tcp
  kept : ∀ earlier ∈ history, earlier.operation.useTcp = true → driver.operation.useTcp = true
  tcp : config.useTcp = false → driver.protocol = .tcp → driver.operation.useTcp = true ∧
    ∀ earlier ∈ history, earlier.operation.useTcp = true → earlier.attempt = driver.attempt
  udp : driver.protocol = .udp → driver.operation.useTcp = true →
    ∃ earlier ∈ history, earlier.operation.useTcp = true ∧ earlier.attempt < driver.attempt

/-- When the two agree. -/
theorem Tracking.agrees {config : DnsResolverConfig} {history : List DnsResolveDriver}
    (tracking : Tracking config history driver) :
    Agrees driver ↔ config.useTcp = false ∧ ∀ earlier ∈ history, earlier.operation.useTcp = true →
    earlier.attempt = driver.attempt := by
  unfold Agrees
  cases configured : config.useTcp with
  | true =>
    obtain ⟨useTcp, protocol⟩ := tracking.useTcp configured
    simp [useTcp, protocol]
  | false =>
    cases protocol : driver.protocol with
    | tcp =>
      obtain ⟨useTcp, same⟩ := tracking.tcp configured protocol
      simp only [useTcp, true_and]
      exact ⟨fun _ => same, fun _ => by simp⟩
    | udp =>
      cases useTcp : driver.operation.useTcp with
      | true =>
        obtain ⟨earlier, member, set, less⟩ := tracking.udp protocol useTcp
        refine ⟨fun same => by simp at same, fun same => ?_⟩
        have equal := same.2 earlier member set
        omega
      | false =>
        refine ⟨fun _ => ⟨rfl, fun earlier member set => ?_⟩, fun _ => by simp⟩
        have set' := tracking.kept earlier member set
        rw [useTcp] at set'
        cases set'

/-- The history of a driver with a step more. -/
theorem Tracking.next {config : DnsResolverConfig} {history : List DnsResolveDriver}
    (tracking : Tracking config history driver)
    {after : DnsResolveDriver} (going : Going driver after) :
    Tracking config (history ++ [driver]) after := by
  have members {P : DnsResolveDriver → Prop} (old : ∀ earlier ∈ history, P earlier) (last : P driver) :
      ∀ earlier ∈ history ++ [driver], P earlier := by
    intro earlier member
    rcases List.mem_append.mp member with member | member
    · exact old earlier member
    · exact List.mem_singleton.mp member ▸ last
  refine ⟨going.waiting, going.fresh, going.config.trans tracking.config_eq, ?_, ?_, ?_, ?_⟩
  · intro configured
    obtain ⟨useTcp, protocol⟩ := tracking.useTcp configured
    cases going.shift with
    | stays one two three => exact ⟨one.trans useTcp, two.trans protocol⟩
    | retries one two three =>
      exact ⟨one.trans useTcp,
        by rw [two, tracking.config_eq]; simp [DnsResolverConfig.protocol, configured]⟩
    | switches one two three four five => cases protocol.symm.trans one
  · cases going.shift with
    | stays one two three =>
      exact members (fun earlier member set => one.trans (tracking.kept earlier member set))
        fun set => one.trans set
    | retries one two three =>
      exact members (fun earlier member set => one.trans (tracking.kept earlier member set))
        fun set => one.trans set
    | switches one two three four five => exact fun _ _ _ => three
  · intro configured protocol
    cases going.shift with
    | stays one two three =>
      obtain ⟨useTcp, same⟩ := tracking.tcp configured (two.symm.trans protocol)
      exact ⟨one.trans useTcp, members
        (fun earlier member set => (same earlier member set).trans three.symm) fun _ => three.symm⟩
    | retries one two three =>
      rw [tracking.config_eq] at two
      have isOver := two.symm.trans protocol
      simp [DnsResolverConfig.protocol, configured] at isOver
    | switches one two three four five =>
      refine ⟨three, members (fun earlier member set => ?_) fun set => nomatch two.symm.trans set⟩
      cases two.symm.trans (tracking.kept earlier member set)
  · intro protocol useTcp
    cases going.shift with
    | stays one two three =>
      obtain ⟨earlier, member, set, less⟩ := tracking.udp (two.symm.trans protocol) (one.symm.trans useTcp)
      exact ⟨earlier, List.mem_append_left _ member, set, by omega⟩
    | retries one two three => exact ⟨driver, by simp, one.symm.trans useTcp, by omega⟩
    | switches one two three four five => cases four.symm.trans protocol

theorem Tracking.apply {config : DnsResolverConfig} {history : List DnsResolveDriver}
    (tracking : Tracking config history driver)
    {case : CaseMapping} {event : DriverEvent} (active : (event.apply case driver).done = false) :
    Tracking config (history ++ [driver]) (event.apply case driver) := by
  cases event with
  | step nowMs transport =>
    exact tracking.next (step_going case tracking.waiting tracking.fresh nowMs transport active)
  | cancel =>
    simp only [DriverEvent.apply, DnsResolveDriver.cancel] at active
    split at active
    · cases (terminate_parts _).2.2.1.symm.trans active
    · cases (terminate_parts _).2.2.1.symm.trans active
  | share cache policy =>
    exact tracking.next ⟨⟨tracking.waiting.active, tracking.waiting.uncancelled,
      tracking.waiting.clean⟩, rfl, .stays rfl rfl rfl, tracking.fresh⟩

end Parts

/-- The drivers of a run before each event. -/
def driversOf (case : CaseMapping) (driver : DnsResolveDriver) : List DriverEvent → List DnsResolveDriver
  | [] => []
  | event :: events => driver :: driversOf case (event.apply case driver) events

theorem Tracking.runs {config : DnsResolverConfig} {history : List DnsResolveDriver}
    {driver : DnsResolveDriver} {case : CaseMapping}
    (sound : Sound driver) (tracking : driver.done = false → Tracking config history driver)
    (events : List DriverEvent) (active : (runDriver case driver events).done = false) :
    Tracking config (history ++ driversOf case driver events) (runDriver case driver events) := by
  induction events generalizing driver history with
  | nil => simpa [driversOf, runDriver] using tracking active
  | cons event events ih =>
    have going : driver.done = false := by
      cases done : driver.done with
      | false => rfl
      | true => exact absurd ((done_runs sound done (event :: events)).1.symm.trans active) (by decide)
    have final := ih (sound.apply event).1 (tracking going).apply active
    simpa [driversOf, runDriver] using final

end Dns
end PccGateway
