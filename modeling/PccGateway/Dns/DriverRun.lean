import PccGateway.Dns.Driver

namespace PccGateway
namespace Dns

/-- What becomes of the handles. -/
inductive HandleUse where
  | opened (handle : Int)
  | closed (handle : Int)
  deriving DecidableEq

/-- The handle that a call gives or takes; -1 is no handle. -/
def TransportCall.use : TransportCall → Option HandleUse
  | .opens _ .ok handle => if handle = -1 then none else some (.opened handle)
  | .closes handle => some (.closed handle)
  | _ => none

def handleUses (calls : List TransportCall) : List HandleUse := calls.filterMap TransportCall.use

def TransportCall.isOpen : TransportCall → Bool
  | .opens .. => true
  | _ => false

def openCount (calls : List TransportCall) : Nat := (calls.filter TransportCall.isOpen).length

/-- Each handle that was opened is closed before the next one is opened, except for the one that the
driver still has. -/
def Paired (calls : List TransportCall) (handle : Int) : Prop :=
  ∃ handles : List Int,
    handleUses calls = handles.flatMap (fun handle => [.opened handle, .closed handle]) ++
    if handle = -1 then [] else [.opened handle]

/-- A driver in an attempt that it may give up. -/
structure Attempting (driver : DnsResolveDriver) : Prop where
  paired : Paired driver.calls driver.handle
  attempts : (driver.attempt : Int) < driver.config.maxAttempts
  opens : openCount driver.calls ≤ 2 * driver.attempt + 2

/-- The state of a driver between two steps. -/
structure Sound (driver : DnsResolveDriver) : Prop where
  paired : Paired driver.calls driver.handle
  attempts : (driver.attempt : Int) ≤ driver.config.maxAttempts
  opens : (openCount driver.calls : Int) ≤ 2 * driver.config.maxAttempts
  closed : driver.done ∨ driver.state = .opening → driver.handle = -1
  deadline : driver.done = false → driver.attemptDeadlineMs ≤ driver.operation.deadlineMs
  budget : driver.done = false → (driver.attempt : Int) < driver.config.maxAttempts ∧
    openCount driver.calls ≤ 2 * driver.attempt + (if driver.protocol = .tcp then
      1 else 0) + if driver.state = .opening then 0 else 1

/-- A result that lets the caller wait does so no longer than the operation may last. -/
def Timely (deadlineMs : Int) (result : DnsDriveResult) : Prop :=
  result.kind = .waitRead ∨ result.kind = .waitWrite → result.deadlineMs ≤ deadlineMs

/-- What a step leaves and gives. -/
structure Stepped (driver : DnsResolveDriver)
    (outcome : Except StepExn DnsDriveResult × DnsResolveDriver) : Prop where
  sound : Sound outcome.2
  config : outcome.2.config = driver.config
  deadline : outcome.2.operation.deadlineMs = driver.operation.deadlineMs
  timely : ∀ result, outcome.1 = .ok result → Timely driver.operation.deadlineMs result

section Parts

variable {driver : DnsResolveDriver}

theorem Sound.attempting (sound : Sound driver) (active : driver.done = false) : Attempting driver := by
  obtain ⟨attempts, opens⟩ := sound.budget active
  refine ⟨sound.paired, attempts, opens.trans ?_⟩
  split <;> split <;> omega

theorem Paired.close (paired : Paired driver.calls driver.handle) : Paired driver.close.calls (-1) := by
  unfold DnsResolveDriver.close
  split
  · rename_i free
    rwa [free] at paired
  · rename_i held
    obtain ⟨handles, uses⟩ := paired
    rw [if_neg held] at uses
    refine ⟨handles ++ [driver.handle], ?_⟩
    simp only [handleUses, List.filterMap_append] at uses ⊢
    rw [uses]
    simp [TransportCall.use]

@[simp] theorem close_handle : driver.close.handle = -1 := by
  unfold DnsResolveDriver.close
  split
  · assumption
  · rfl

@[simp] theorem close_openCount : openCount driver.close.calls = openCount driver.calls := by
  unfold DnsResolveDriver.close
  split
  · rfl
  · simp [openCount, TransportCall.isOpen]

@[simp] theorem close_config : driver.close.config = driver.config := by
  unfold DnsResolveDriver.close
  split <;> rfl

@[simp] theorem close_operation : driver.close.operation = driver.operation := by
  unfold DnsResolveDriver.close
  split <;> rfl

@[simp] theorem close_attempt : driver.close.attempt = driver.attempt := by
  unfold DnsResolveDriver.close
  split <;> rfl

@[simp] theorem close_done : driver.close.done = driver.done := by
  unfold DnsResolveDriver.close
  split <;> rfl

theorem finished_timely (deadlineMs : Int) : Timely deadlineMs driver.finished := by
  unfold DnsResolveDriver.finished Timely
  split <;> simp

/-- The parts of `terminate` that do not depend on the error. -/
theorem terminate_parts (error : String) :
    (driver.terminate error).calls = driver.close.calls ∧ (driver.terminate error).handle = -1 ∧
    (driver.terminate error).done = true ∧
      (driver.terminate error).config = driver.config ∧ (driver.terminate error).attempt = driver.attempt ∧
      (driver.terminate error).operation.deadlineMs = driver.operation.deadlineMs := by
  unfold DnsResolveDriver.terminate
  dsimp only
  split
  · refine ⟨rfl, close_handle, rfl, close_config, close_attempt, ?_⟩
    dsimp only
    rw [close_operation]
    split <;> rfl
  · exact ⟨rfl, close_handle, rfl, close_config, close_attempt, by simp⟩

theorem terminal_stepped (paired : Paired driver.calls driver.handle)
    (attempts : (driver.attempt : Int) ≤ driver.config.maxAttempts)
    (opens : (openCount driver.calls : Int) ≤ 2 * driver.config.maxAttempts) (error : String) :
    Stepped driver (DnsResolveDriver.returning (driver.terminal error)) := by
  obtain ⟨calls, handle, done, config, attempt, deadline⟩ := @terminate_parts driver error
  refine ⟨⟨?_, ?_, ?_, fun _ => handle, ?_, ?_⟩, config, deadline, ?_⟩
  · change Paired (driver.terminate error).calls (driver.terminate error).handle
    rw [calls, handle]
    exact paired.close
  · change ((driver.terminate error).attempt : Int) ≤ (driver.terminate error).config.maxAttempts
    rw [attempt, config]
    exact attempts
  · change (openCount (driver.terminate error).calls : Int) ≤
      2 * (driver.terminate error).config.maxAttempts
    rw [calls, config, close_openCount]
    exact opens
  · intro active
    cases done.symm.trans active
  · intro active
    cases done.symm.trans active
  · rintro result ⟨⟩
    exact finished_timely _

theorem Attempting.terminal (attempting : Attempting driver) (error : String) :
    Stepped driver (DnsResolveDriver.returning (driver.terminal error)) := by
  have attempts := attempting.attempts
  have opens := attempting.opens
  exact terminal_stepped attempting.paired (by omega) (by omega) error

theorem attemptDeadline_le (nowMs : Int) : driver.attemptDeadline nowMs ≤ driver.operation.deadlineMs := by
  unfold DnsResolveDriver.attemptDeadline
  dsimp only
  split <;> omega

theorem Attempting.retry (attempting : Attempting driver) (error : String) (nowMs : Int) :
    Stepped driver (DnsResolveDriver.returning (driver.retry error nowMs)) := by
  have attempts := attempting.attempts
  have opens := attempting.opens
  have paired := attempting.paired.close
  have ends : ∀ text, Stepped driver (DnsResolveDriver.returning
      ({ driver.close with lastError := error, attempt := driver.attempt + 1 }.terminal text)) := by
    intro text
    have stepped := @terminal_stepped { driver.close with lastError := error, attempt :=
      driver.attempt + 1 }
      (by simpa using paired) (by simp; omega) (by simp; omega) text
    exact ⟨stepped.sound, by simpa using stepped.config, by simpa using stepped.deadline,
      by simpa using stepped.timely⟩
  unfold DnsResolveDriver.retry
  dsimp only
  split
  · exact ends _
  split
  · exact ends _
  · rename_i more
    have next : ((driver.attempt + 1 : Nat) : Int) < driver.config.maxAttempts := by simpa using more
    have spent : openCount driver.close.calls ≤ 2 * (driver.attempt + 1) := by
      rw [close_openCount]
      omega
    refine ⟨⟨paired, ?_, ?_, fun _ => rfl, fun _ => attemptDeadline_le _, fun _ => ⟨?_, ?_⟩⟩,
      close_config, ?_, ?_⟩
    · change ((driver.attempt + 1 : Nat) : Int) ≤ driver.close.config.maxAttempts
      rw [close_config]
      omega
    · change (openCount driver.close.calls : Int) ≤ 2 * driver.close.config.maxAttempts
      rw [close_config]
      omega
    · change ((driver.attempt + 1 : Nat) : Int) < driver.close.config.maxAttempts
      rw [close_config]
      exact next
    · exact Nat.le_trans spent (Nat.le_trans (Nat.le_add_right ..) (Nat.le_add_right ..))
    · change driver.close.operation.deadlineMs = driver.operation.deadlineMs
      rw [close_operation]
    · rintro result ⟨⟩ waits
      simp at waits

/-- A driver that differs from one in an attempt only in what the handles and the deadline do not
depend on. -/
theorem Attempting.invalid (attempting : Attempting driver) (sound : Sound driver) (code : String)
    (nowMs : Int) (tcp : Bool) :
    Stepped driver (DnsResolveDriver.returning (driver.invalid code nowMs tcp)) := by
  unfold DnsResolveDriver.invalid
  dsimp only
  split
  · have stepped := @Attempting.retry { driver with invalidReplies := driver.invalidReplies + 1 }
      ⟨attempting.paired, attempting.attempts, attempting.opens⟩ code nowMs
    exact ⟨stepped.sound, stepped.config, stepped.deadline, stepped.timely⟩
  · refine ⟨⟨sound.paired, sound.attempts, sound.opens, sound.closed, sound.deadline, sound.budget⟩,
      rfl, rfl, ?_⟩
    rintro result ⟨⟩ waits
    simp at waits

theorem Sound.wait (sound : Sound driver) (active : driver.done = false) (kind : DriveKind) :
    Stepped driver (DnsResolveDriver.returning (driver.wait kind)) := by
  refine ⟨sound, rfl, rfl, ?_⟩
  rintro result ⟨⟩ -
  exact sound.deadline active

theorem progress_stepped {before : DnsResolveDriver} (sound : Sound driver)
    (config : driver.config = before.config)
    (deadline : driver.operation.deadlineMs = before.operation.deadlineMs) :
    Stepped before (DnsResolveDriver.returning driver.progress) := by
  refine ⟨sound, config, deadline, ?_⟩
  rintro result ⟨⟩ waits
  simp [DnsResolveDriver.progress] at waits

/-- An attempt over UDP goes over to TCP. -/
theorem Sound.switchToTcp (sound : Sound driver) (active : driver.done = false)
    (udp : driver.protocol = .udp) (framedQuery : Bytes) (nowMs : Int) :
    Stepped driver (DnsResolveDriver.returning (driver.switchToTcp framedQuery nowMs)) := by
  obtain ⟨attempts, opens⟩ := sound.budget active
  have total := sound.opens
  refine progress_stepped ⟨?_, ?_, ?_, fun _ => close_handle, fun _ => attemptDeadline_le _, fun _ =>
    ⟨?_, ?_⟩⟩ close_config ?_
  · change Paired driver.close.calls driver.close.handle
    rw [close_handle]
    exact sound.paired.close
  · change (driver.close.attempt : Int) ≤ driver.close.config.maxAttempts
    rw [close_config, close_attempt]
    exact sound.attempts
  · change (openCount driver.close.calls : Int) ≤ 2 * driver.close.config.maxAttempts
    rw [close_config, close_openCount]
    exact total
  · change (driver.close.attempt : Int) < driver.close.config.maxAttempts
    rw [close_config, close_attempt]
    exact attempts
  · change openCount driver.close.calls ≤ 2 * driver.close.attempt + 1 + 0
    rw [close_openCount, close_attempt]
    rw [udp] at opens
    simp only [reduceCtorEq, if_false] at opens
    refine opens.trans ?_
    split <;> omega
  · change driver.close.operation.deadlineMs = driver.operation.deadlineMs
    rw [close_operation]

/-- A call that gives no handle and takes none. -/
theorem Sound.called (sound : Sound driver) {call : TransportCall} (unused : call.use = none)
    (other : call.isOpen = false) :
    Sound (driver.called call) := by
  have opens : openCount (driver.called call).calls = openCount driver.calls := by
    simp [DnsResolveDriver.called, openCount, other]
  have uses : handleUses (driver.called call).calls = handleUses driver.calls := by
    simp [DnsResolveDriver.called, handleUses, unused]
  refine ⟨?_, sound.attempts, ?_, sound.closed, sound.deadline, ?_⟩
  · unfold Paired
    rw [uses]
    exact sound.paired
  · rw [opens]
    exact sound.opens
  · rw [opens]
    exact sound.budget

theorem Stepped.of_called {call : TransportCall}
    {outcome : Except StepExn DnsDriveResult × DnsResolveDriver}
    (stepped : Stepped (driver.called call) outcome) : Stepped driver outcome :=
  ⟨stepped.sound, stepped.config, stepped.deadline, stepped.timely⟩

theorem Sound.stepOpen (sound : Sound driver) (active : driver.done = false)
    (opening : driver.state = .opening) (nowMs : Int)
    {observed : DnsIoResult} (unopened : observed.status ≠ .ok → observed.handle = -1) :
    Stepped driver (DnsResolveDriver.returning (driver.stepOpen nowMs observed)) := by
  obtain ⟨attempts, opens⟩ := sound.budget active
  have free : driver.handle = -1 := sound.closed (.inr opening)
  obtain ⟨handles, uses⟩ := sound.paired
  rw [free, if_pos rfl, List.append_nil] at uses
  have count : openCount (driver.calls ++ [.opens driver.protocol observed.status observed.handle]) =
      openCount driver.calls + 1 := by
    rw [openCount, List.filter_append, List.length_append]
    rfl
  rw [opening, if_pos rfl] at opens
  have spent : openCount driver.calls ≤ 2 * driver.attempt + 1 := opens.trans (by split <;> omega)
  unfold DnsResolveDriver.stepOpen
  dsimp only
  split
  · rename_i failed
    have none : observed.handle = -1 := failed.elim unopened id
    have attempting : Attempting
        (driver.called (.opens driver.protocol observed.status observed.handle)) := by
      refine ⟨⟨handles, ?_⟩, attempts, ?_⟩
      · change handleUses (driver.calls ++ [_]) = _ ++ if driver.handle = -1 then _ else _
        rw [free, if_pos rfl, List.append_nil, ← uses]
        cases status : observed.status <;> simp [handleUses, TransportCall.use, none]
      · change openCount (driver.calls ++ [_]) ≤ 2 * driver.attempt + 2
        rw [count]
        omega
    exact (attempting.retry _ _).of_called
  · rename_i succeeded
    obtain ⟨ok, given⟩ := not_or.mp succeeded
    have ok := not_not.mp ok
    refine progress_stepped ⟨?_, sound.attempts, ?_, ?_, sound.deadline, fun _ => ⟨attempts, ?_⟩⟩ rfl rfl
    · refine ⟨handles, ?_⟩
      change handleUses (driver.calls ++ [_]) = _ ++ if observed.handle = -1 then _ else _
      rw [if_neg given, ← uses]
      simp [handleUses, TransportCall.use, ok, given]
    · change (openCount (driver.calls ++ [_]) : Int) ≤ 2 * driver.config.maxAttempts
      rw [count]
      omega
    · rintro (done | state)
      · cases active.symm.trans done
      · cases state
    · change openCount (driver.calls ++ [_]) ≤ _
      rw [count]
      exact Nat.add_le_add_right opens 1

theorem Sound.stepConnect (sound : Sound driver) (active : driver.done = false)
    (connecting : driver.state = .connecting) (nowMs : Int) (observed : DnsIoResult) :
    Stepped driver (DnsResolveDriver.returning (driver.stepConnect nowMs observed)) := by
  have budget := sound.budget active
  rw [connecting] at budget
  unfold DnsResolveDriver.stepConnect
  split
  · exact sound.wait active _
  · refine progress_stepped ⟨sound.paired, sound.attempts, sound.opens, ?_, sound.deadline, fun _ =>
      budget⟩ rfl rfl
    rintro (done | state)
    · exact sound.closed (.inl done)
    · cases state
  · exact (sound.attempting active).retry _ _
  · exact (sound.attempting active).retry _ _

theorem Sound.stepSend (sound : Sound driver) (active : driver.done = false)
    (sending : driver.state = .sending) (nowMs : Int) (observed : DnsIoResult) :
    Stepped driver (DnsResolveDriver.returning (driver.stepSend nowMs observed)) := by
  have budget := sound.budget active
  unfold DnsResolveDriver.stepSend
  split
  · exact sound.wait active _
  · exact (sound.attempting active).retry _ _
  · exact (sound.attempting active).retry _ _
  · dsimp only
    split
    · exact (sound.attempting active).retry _ _
    split
    · exact (sound.attempting active).retry _ _
    split
    · rw [sending] at budget
      refine progress_stepped ⟨sound.paired, sound.attempts, sound.opens, ?_, sound.deadline, fun _ =>
        budget⟩ rfl rfl
      rintro (done | state)
      · exact sound.closed (.inl done)
      · cases state
    · exact progress_stepped ⟨sound.paired, sound.attempts, sound.opens, sound.closed, sound.deadline,
        sound.budget⟩ rfl rfl

theorem receive_deadline (case : CaseMapping) (operation : ResolveOperation) (payload : Bytes)
    (nowMs : Int) :
    (operation.receive case payload nowMs).2.deadlineMs = operation.deadlineMs := by
  unfold ResolveOperation.receive
  split
  · rfl
  split
  · unfold ResolveOperation.checkDeadline
    split <;> rfl
  split
  · rfl
  split
  · rfl
  unfold ResolveOperation.receiveResponse
  split
  · rfl
  split
  · rfl
  split
  · rfl
  unfold ResolveOperation.receiveAnswers
  split
  · rfl
  split
  · rfl
  split <;> rfl

theorem Sound.operation (sound : Sound driver) {operation : ResolveOperation}
    (deadline : operation.deadlineMs = driver.operation.deadlineMs) :
    Sound { driver with operation } :=
  ⟨sound.paired, sound.attempts, sound.opens, sound.closed,
    fun active => by dsimp only; rw [deadline]; exact sound.deadline active, sound.budget⟩

theorem Sound.received (sound : Sound driver) (active : driver.done = false) (nowMs : Int) {tcp : Bool}
    (protocol : tcp = false → driver.protocol = .udp)
    {outcome : Except DnsExn (Option Bytes) × ResolveOperation}
    (deadline : outcome.2.deadlineMs = driver.operation.deadlineMs) :
    Stepped driver (driver.received nowMs tcp outcome) := by
  have next := sound.operation deadline
  have back : ∀ {result : Except StepExn DnsDriveResult × DnsResolveDriver},
      Stepped { driver with operation := outcome.2 } result → Stepped driver result := fun stepped =>
    ⟨stepped.sound, stepped.config, stepped.deadline.trans deadline, fun result given =>
      deadline ▸ stepped.timely result given⟩
  unfold DnsResolveDriver.received
  dsimp only
  split
  · exact back ((next.attempting active).invalid next _ _ _)
  · exact ⟨next, rfl, deadline, nofun⟩
  · split
    · exact back (next.switchToTcp active (protocol rfl) _ _)
    · exact back ((next.attempting active).terminal _)

theorem Sound.receiveUdp (sound : Sound driver) (active : driver.done = false)
    (udp : driver.protocol = .udp) (case : CaseMapping)
    (nowMs : Int) (observed : DnsIoResult) : Stepped driver (driver.receiveUdp case nowMs observed) := by
  unfold DnsResolveDriver.receiveUdp
  split
  · exact (sound.attempting active).invalid sound _ _ _
  · exact sound.received active nowMs (fun _ => udp) (receive_deadline ..)

theorem Sound.receiveTcp (sound : Sound driver) (active : driver.done = false) (case : CaseMapping)
    (nowMs : Int) (observed : DnsIoResult) : Stepped driver (driver.receiveTcp case nowMs observed) := by
  -- The buffer and what is expected do not matter for the handles and the deadlines.
  have buffered : ∀ tcpBuffer tcpExpected, Sound { driver with tcpBuffer, tcpExpected } := fun _ _ =>
    ⟨sound.paired, sound.attempts, sound.opens, sound.closed, sound.deadline, sound.budget⟩
  have back : ∀ {tcpBuffer tcpExpected} {result : Except StepExn DnsDriveResult × DnsResolveDriver},
      Stepped { driver with tcpBuffer, tcpExpected } result → Stepped driver result := fun stepped =>
    ⟨stepped.sound, stepped.config, stepped.deadline, stepped.timely⟩
  have again : ∀ tcpBuffer tcpExpected error,
      Stepped driver (DnsResolveDriver.returning ({ driver with tcpBuffer, tcpExpected }.retry error
        nowMs)) := fun tcpBuffer tcpExpected error =>
    back (((buffered tcpBuffer tcpExpected).attempting active).retry error nowMs)
  have takes : ∀ tcpBuffer tcpExpected reply,
      Stepped driver ({ driver with tcpBuffer, tcpExpected }.received nowMs true
        (driver.operation.receive case reply nowMs)) := fun tcpBuffer tcpExpected _ =>
    back ((buffered tcpBuffer tcpExpected).received active nowMs (by simp) (receive_deadline ..))
  unfold DnsResolveDriver.receiveTcp
  split
  · exact (sound.attempting active).invalid sound _ _ _
  dsimp only
  split
  · exact again _ _ _
  split
  · exact again _ _ _
  split
  · exact progress_stepped ⟨sound.paired, sound.attempts, sound.opens, sound.closed, fun _ =>
      attemptDeadline_le _, sound.budget⟩ rfl rfl
  · exact takes _ _ _

theorem Sound.stepReceive (sound : Sound driver) (active : driver.done = false) (case : CaseMapping)
    (nowMs : Int) (observed : DnsIoResult) :
    Stepped driver (driver.stepReceive case nowMs observed) := by
  unfold DnsResolveDriver.stepReceive
  split
  · exact sound.wait active _
  · exact (sound.attempting active).retry _ _
  · exact (sound.attempting active).retry _ _
  split
  · exact (sound.attempting active).retry _ _
  split
  · exact (sound.attempting active).retry _ _
  split
  · rename_i udp
    exact sound.receiveUdp active udp case nowMs observed
  · exact sound.receiveTcp active case nowMs observed

theorem Sound.observe (sound : Sound driver) {call : TransportCall} (unused : call.use = none)
    (other : call.isOpen = false)
    {observed : Option DnsIoResult}
    {next : DnsResolveDriver → DnsIoResult → Except StepExn DnsDriveResult × DnsResolveDriver}
    (goes : ∀ seen, Sound (driver.called call) →
      Stepped (driver.called call) (next (driver.called call) seen)) :
    Stepped driver (driver.observe call observed next) := by
  have called := sound.called unused other
  unfold DnsResolveDriver.observe
  split
  · exact ⟨called, rfl, rfl, nofun⟩
  · exact (goes _ called).of_called

theorem Sound.step (sound : Sound driver) (case : CaseMapping) (nowMs : Int) (transport : Transport) :
    Stepped driver (driver.step case nowMs transport) := by
  unfold DnsResolveDriver.step
  split
  · refine ⟨sound, rfl, rfl, ?_⟩
    rintro result ⟨⟩
    exact finished_timely _
  rename_i running
  have active : driver.done = false := by simpa using running
  split
  · exact (sound.attempting active).terminal _
  split
  · exact (sound.attempting active).terminal _
  split
  · exact (sound.attempting active).retry _ _
  unfold DnsResolveDriver.stepState
  split
  · rename_i opening
    exact sound.stepOpen active opening nowMs transport.unopened
  · rename_i connecting
    exact sound.observe rfl rfl fun observed called => called.stepConnect active connecting nowMs observed
  · rename_i sending
    exact sound.observe rfl rfl fun observed called => called.stepSend active sending nowMs observed
  · exact sound.observe rfl rfl fun observed called => called.stepReceive active case nowMs observed

theorem Sound.cancel (sound : Sound driver) :
    Sound driver.cancel.2 ∧ driver.cancel.2.config = driver.config ∧
    driver.cancel.2.operation.deadlineMs = driver.operation.deadlineMs := by
  unfold DnsResolveDriver.cancel
  split
  · have stepped := terminal_stepped sound.paired sound.attempts sound.opens driver.error
    exact ⟨stepped.sound, stepped.config, stepped.deadline⟩
  · have deadline : driver.operation.cancel.deadlineMs = driver.operation.deadlineMs := by
      unfold ResolveOperation.cancel
      split <;> rfl
    have stepped := @terminal_stepped { driver with operation := driver.operation.cancel }
      sound.paired sound.attempts sound.opens "cancelled"
    exact ⟨stepped.sound, stepped.config, stepped.deadline.trans deadline⟩

end Parts

/-- What happens to a driver: a step, a cancellation, or another operation that uses the cache and the
policy. -/
inductive DriverEvent where
  | step (nowMs : Int) (transport : Transport)
  | cancel
  | share (cache : DnsCache) (policy : DnsAddressPolicy)

def DriverEvent.apply (case : CaseMapping) (driver : DnsResolveDriver) : DriverEvent → DnsResolveDriver
  | .step nowMs transport => (driver.step case nowMs transport).2
  | .cancel => driver.cancel.2
  | .share cache policy => { driver with operation := { driver.operation with cache, policy } }

def runDriver (case : CaseMapping) (driver : DnsResolveDriver) (events : List DriverEvent) :
    DnsResolveDriver :=
  events.foldl (DriverEvent.apply case) driver

section Run

variable {driver : DnsResolveDriver} {case : CaseMapping}

theorem Sound.apply (sound : Sound driver) (event : DriverEvent) :
    Sound (event.apply case driver) ∧ (event.apply case driver).config = driver.config ∧
      (event.apply case driver).operation.deadlineMs = driver.operation.deadlineMs := by
  cases event with
  | step nowMs transport =>
    have stepped := sound.step case nowMs transport
    exact ⟨stepped.sound, stepped.config, stepped.deadline⟩
  | cancel => exact sound.cancel
  | share cache policy => exact ⟨sound.operation rfl, rfl, rfl⟩

theorem Sound.runs (sound : Sound driver) (events : List DriverEvent) :
    Sound (runDriver case driver events) ∧ (runDriver case driver events).config = driver.config ∧
      (runDriver case driver events).operation.deadlineMs = driver.operation.deadlineMs := by
  induction events generalizing driver with
  | nil => exact ⟨sound, rfl, rfl⟩
  | cons event events ih =>
    obtain ⟨next, config, deadline⟩ := @Sound.apply _ case sound event
    obtain ⟨final, config', deadline'⟩ := ih next
    exact ⟨final, config'.trans config, deadline'.trans deadline⟩

/-- A driver that is done stays so, and makes no call of the transport. -/
theorem done_apply (sound : Sound driver) (done : driver.done = true) (event : DriverEvent) :
    (event.apply case driver).done = true ∧ (event.apply case driver).calls = driver.calls := by
  cases event with
  | step nowMs transport => simp [DriverEvent.apply, DnsResolveDriver.step, done]
  | cancel =>
    have free := sound.closed (.inl done)
    obtain ⟨calls, -, ended, -⟩ := @terminate_parts driver driver.error
    simp only [DriverEvent.apply, DnsResolveDriver.cancel, if_pos done, DnsResolveDriver.terminal]
    exact ⟨ended, by rw [calls, DnsResolveDriver.close, if_pos free]⟩
  | share cache policy => exact ⟨done, rfl⟩

theorem done_runs (sound : Sound driver) (done : driver.done = true) (events : List DriverEvent) :
    (runDriver case driver events).done = true ∧ (runDriver case driver events).calls = driver.calls := by
  induction events generalizing driver with
  | nil => exact ⟨done, rfl⟩
  | cons event events ih =>
    obtain ⟨next, calls⟩ := done_apply sound done event
    obtain ⟨final, calls'⟩ := ih (sound.apply event).1 next
    exact ⟨final, calls'.trans calls⟩

theorem step_expired {nowMs : Int} (expired : driver.operation.deadlineMs ≤ nowMs) (transport : Transport) :
    (driver.step case nowMs transport).2.done = true := by
  unfold DnsResolveDriver.step
  split
  · rename_i done
    exact done
  split
  · exact (terminate_parts "cancelled").2.2.1
  · exact (terminate_parts "timeout").2.2.1

theorem newDriver_sound (operation : ResolveOperation) (config : DnsResolverConfig)
    (nowMs startServer : Int) (terminalError : String) :
    Sound (newDriver operation config nowMs startServer terminalError) := by
  have accepted := config.accepted
  have attempts : 0 ≤ config.maxAttempts := Int.mul_nonneg (by omega) (by omega)
  have opens : 0 ≤ 2 * config.maxAttempts := by omega
  have unopened : Paired [] (-1) := ⟨[], rfl⟩
  unfold newDriver
  dsimp only
  split
  · rename_i done
    have isOver {P : Prop} (active : decide (terminalError ≠ "") = false) : P := by
      cases done.symm.trans active
    exact ⟨unopened, attempts, opens, fun _ => rfl, isOver, isOver⟩
  split
  · exact ⟨unopened, attempts, opens, fun _ => rfl, nofun, nofun⟩
  · rename_i servers
    refine ⟨unopened, attempts, opens, fun _ => rfl, fun _ => attemptDeadline_le _, fun _ =>
      ⟨?_, Nat.zero_le _⟩⟩
    change (0 : Int) < config.maxAttempts
    omega

end Run

/-- The resources of a driver over any run, whatever the network and the clock do. A handle is open
at most one at a time, each that was opened is closed once, and none is open when the driver is
done. It makes no more attempts than the configuration allows, and its waits end by the deadline of
the operation; the first step behind that deadline ends it, and a driver that is done calls the
transport no more. Nothing is assumed about the configuration, which may have no servers, nor about
the operation. -/
theorem driver_resources (case : CaseMapping) (operation : ResolveOperation)
    (config : DnsResolverConfig) (nowMs startServer : Int)
    (terminalError : String) (events : List DriverEvent) :
    let driver := runDriver case (newDriver operation config nowMs startServer terminalError) events
    (∃ handles : List Int, handleUses driver.calls =
      handles.flatMap (fun handle => [.opened handle, .closed handle]) ++
      if driver.handle = -1 then [] else [.opened driver.handle]) ∧
    (driver.done = true → driver.handle = -1) ∧
    (driver.attempt : Int) ≤ config.servers.length * config.attemptsPerServer ∧
    (openCount driver.calls : Int) ≤ 2 * (config.servers.length * config.attemptsPerServer) ∧
    driver.operation.deadlineMs = operation.deadlineMs ∧
    (∀ nowMs transport result, (driver.step case nowMs transport).1 = .ok result →
      result.kind = .waitRead ∨ result.kind = .waitWrite → result.deadlineMs ≤ operation.deadlineMs) ∧
    (∀ nowMs transport, operation.deadlineMs ≤ nowMs → (driver.step case nowMs transport).2.done = true) ∧
    (driver.done = true → ∀ more, (runDriver case driver more).done = true ∧
      (runDriver case driver more).calls = driver.calls) := by
  intro driver
  have start : (newDriver operation config nowMs startServer terminalError).config = config ∧
      (newDriver operation config nowMs startServer terminalError).operation.deadlineMs =
        operation.deadlineMs := by
    unfold newDriver
    dsimp only
    split
    · exact ⟨rfl, rfl⟩
    · split <;> exact ⟨rfl, rfl⟩
  obtain ⟨sound, sameConfig, sameDeadline⟩ :=
    @Sound.runs _ case (newDriver_sound operation config nowMs startServer terminalError) events
  rw [start.1] at sameConfig
  rw [start.2] at sameDeadline
  have attempts := sound.attempts
  have opens := sound.opens
  rw [sameConfig] at attempts opens
  refine ⟨sound.paired, fun done => sound.closed (.inl done), attempts, opens, sameDeadline,
    fun now transport result given => ?_,
    fun now transport expired => step_expired (sameDeadline ▸ expired) transport, fun done more =>
      done_runs sound done more⟩
  rw [← sameDeadline]
  exact (sound.step case now transport).timely result given

end Dns
end PccGateway
