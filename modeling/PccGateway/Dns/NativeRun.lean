import PccGateway.Dns.Delivery
import PccGateway.Dns.NativeTransport

namespace PccGateway
namespace Dns
open Interleaving

/-- What a driver that is not done has besides its handle. -/
structure Living (driver : DnsResolveDriver) : Prop where
  server : driver.server.isSome
  servers : driver.config.servers ≠ []
  bounded : driver.sendOffset ≤ driver.sendData.length

/-- The handle is given back, and the driver is done or begins again. -/
structure Released (before after : DnsResolveDriver) : Prop where
  calls : after.calls = before.close.calls
  handle : after.handle = -1
  rest : after.done = true ∨ (after.state = .opening ∧ Living after)

/-- The handle is kept. -/
structure Kept (before after : DnsResolveDriver) : Prop where
  calls : after.calls = before.calls
  handle : after.handle = before.handle
  server : after.server = before.server
  living : Living after
  active : after.done = false

section Effects
variable {driver : DnsResolveDriver}

theorem selectAttempt_living (servers : driver.config.servers ≠ []) (nowMs : Int) :
    Living (driver.selectAttempt nowMs) := by
  refine ⟨?_, servers, Nat.zero_le _⟩
  have positive : (0 : Int) < driver.config.servers.length := by
    have := List.length_pos_iff.mpr servers
    omega
  have low := Int.emod_nonneg (driver.startServer + driver.attempt / driver.config.attemptsPerServer)
    (Int.ne_of_gt positive)
  have high :=
    Int.emod_lt_of_pos (driver.startServer + driver.attempt / driver.config.attemptsPerServer) positive
  change (driver.config.servers[_]?).isSome
  rw [List.getElem?_eq_getElem (by omega)]
  rfl

theorem terminal_released (before : DnsResolveDriver) (same : driver.close.calls = before.close.calls)
    (error : String) :
    Released before (driver.terminal error).2 := by
  obtain ⟨calls, handle, done, -⟩ := @terminate_parts driver error
  exact ⟨calls.trans same, handle, .inl done⟩

theorem Living.close (living : Living driver) : Living driver.close := by
  unfold DnsResolveDriver.close
  split
  · exact living
  · exact ⟨living.server, living.servers, living.bounded⟩

theorem Living.retry (living : Living driver) (error : String) (nowMs : Int) :
    Released driver (driver.retry error nowMs).2 := by
  have closed : Living { driver.close with lastError := error, attempt := driver.attempt + 1 } :=
    ⟨living.close.server, living.close.servers, living.close.bounded⟩
  have same : DnsResolveDriver.close { driver.close with lastError := error, attempt :=
      driver.attempt + 1 } =
      { driver.close with lastError := error, attempt := driver.attempt + 1 } := by
    rw [DnsResolveDriver.close, if_pos close_handle]
  have ends := @terminal_released { driver.close with lastError := error, attempt :=
    driver.attempt + 1 } driver (by rw [same])
  unfold DnsResolveDriver.retry
  dsimp only
  split
  · exact ends _
  split
  · exact ends _
  · exact ⟨rfl, rfl, .inr ⟨rfl, selectAttempt_living closed.servers nowMs⟩⟩

/-- How a function of the driver can leave it in the middle of an attempt. -/
def Settled (before : DnsResolveDriver) (state : DriveState) (after : DnsResolveDriver) : Prop :=
  Released before after ∨ (Kept before after ∧ after.state = state)

theorem Living.keep (living : Living driver) (active : driver.done = false) :
    Settled driver driver.state driver :=
  .inr ⟨⟨rfl, rfl, rfl, living, active⟩, rfl⟩

theorem Living.invalid (living : Living driver) (active : driver.done = false) (code : String)
    (nowMs : Int) (tcp : Bool) :
    Settled driver driver.state (driver.invalid code nowMs tcp).2 := by
  have counted : Living { driver with invalidReplies := driver.invalidReplies + 1 } :=
    ⟨living.server, living.servers, living.bounded⟩
  unfold DnsResolveDriver.invalid
  dsimp only
  split
  · have retried := counted.retry code nowMs
    refine .inl ⟨retried.calls.trans ?_, retried.handle, retried.rest⟩
    unfold DnsResolveDriver.close
    dsimp only
    split <;> rfl
  · exact .inr ⟨⟨rfl, rfl, rfl, counted, active⟩, rfl⟩

/-- Released from a driver that has the same calls and handle. -/
theorem Released.from {other after : DnsResolveDriver} (released : Released other after)
    (calls : other.calls = driver.calls)
    (handle : other.handle = driver.handle) : Released driver after := by
  refine ⟨released.calls.trans ?_, released.handle, released.rest⟩
  unfold DnsResolveDriver.close
  rw [handle]
  split
  · exact calls
  · dsimp only
    rw [calls]

theorem Living.switchToTcp (living : Living driver) (framedQuery : Bytes) (nowMs : Int) :
    Released driver (driver.switchToTcp framedQuery nowMs).2 :=
  ⟨rfl, close_handle, .inr ⟨rfl, living.close.server, living.close.servers, Nat.zero_le _⟩⟩

theorem Living.received (living : Living driver) (active : driver.done = false) (nowMs : Int) (tcp : Bool)
    (outcome : Except DnsExn (Option Bytes) × ResolveOperation) :
    Settled driver driver.state (driver.received nowMs tcp outcome).2 := by
  have next : Living { driver with operation := outcome.2 } :=
    ⟨living.server, living.servers, living.bounded⟩
  have back {after : DnsResolveDriver}
    (settled : Settled { driver with operation := outcome.2 } driver.state after) :
      Settled driver driver.state after := by
    rcases settled with released | ⟨kept, state⟩
    · exact .inl (released.from rfl rfl)
    · exact .inr ⟨⟨kept.calls, kept.handle, kept.server, kept.living, kept.active⟩, state⟩
  unfold DnsResolveDriver.received
  dsimp only
  split
  · exact back (next.invalid active _ _ _)
  · exact back (next.keep active)
  · split
    · exact back (.inl (next.switchToTcp _ _))
    · exact back (.inl (@terminal_released { driver with operation := outcome.2 } _ rfl ""))

theorem Living.stepConnect (living : Living driver) (active : driver.done = false)
    (connecting : driver.state = .connecting) (nowMs : Int)
    (observed : DnsIoResult) : Settled driver .connecting (driver.stepConnect nowMs observed).2 ∨
      (observed.status = .ok ∧ Settled driver .sending (driver.stepConnect nowMs observed).2) := by
  unfold DnsResolveDriver.stepConnect
  split
  · exact .inl (connecting ▸ living.keep active)
  · rename_i ok
    exact .inr ⟨ok, .inr ⟨⟨rfl, rfl, rfl, ⟨living.server, living.servers, living.bounded⟩, active⟩, rfl⟩⟩
  · exact .inl (.inl (living.retry _ _))
  · exact .inl (.inl (living.retry _ _))

theorem Living.stepSend (living : Living driver) (active : driver.done = false)
    (sending : driver.state = .sending) (nowMs : Int)
    (observed : DnsIoResult) : Settled driver .sending (driver.stepSend nowMs observed).2 ∨
      Settled driver .receiving (driver.stepSend nowMs observed).2 := by
  unfold DnsResolveDriver.stepSend
  split
  · exact .inl (sending ▸ living.keep active)
  · exact .inl (.inl (living.retry _ _))
  · exact .inl (.inl (living.retry _ _))
  · dsimp only
    split
    · exact .inl (.inl (living.retry _ _))
    split
    · exact .inl (.inl (living.retry _ _))
    rename_i taken _
    have bounded : driver.sendOffset + observed.count.toNat ≤ driver.sendData.length := by omega
    split
    · exact .inr (.inr ⟨⟨rfl, rfl, rfl, ⟨living.server, living.servers, bounded⟩, active⟩, rfl⟩)
    · exact .inl (.inr ⟨⟨rfl, rfl, rfl, ⟨living.server, living.servers, bounded⟩, active⟩, sending⟩)

theorem Living.stepReceive (living : Living driver) (active : driver.done = false)
    (case : CaseMapping) (nowMs : Int)
    (observed : DnsIoResult) : Settled driver driver.state (driver.stepReceive case nowMs observed).2 := by
  have buffered (tcpBuffer : Bytes) (tcpExpected : Int) : Living { driver with tcpBuffer, tcpExpected } :=
    ⟨living.server, living.servers, living.bounded⟩
  have takes (tcpBuffer : Bytes) (tcpExpected : Int)
    (outcome : Except DnsExn (Option Bytes) × ResolveOperation) :
      Settled driver driver.state
        (DnsResolveDriver.received { driver with tcpBuffer, tcpExpected } nowMs true outcome).2 := by
    rcases (buffered tcpBuffer tcpExpected).received active nowMs true outcome with released | ⟨kept, state⟩
    · exact .inl (released.from rfl rfl)
    · exact .inr ⟨⟨kept.calls, kept.handle, kept.server, kept.living, kept.active⟩, state⟩
  unfold DnsResolveDriver.stepReceive
  split
  · exact living.keep active
  · exact .inl (living.retry _ _)
  · exact .inl (living.retry _ _)
  split
  · exact .inl (living.retry _ _)
  split
  · exact .inl (living.retry _ _)
  split
  · unfold DnsResolveDriver.receiveUdp
    split
    · exact living.invalid active _ _ _
    · exact living.received active _ _ _
  · unfold DnsResolveDriver.receiveTcp
    split
    · exact living.invalid active _ _ _
    dsimp only
    split
    · exact .inl (((buffered _ driver.tcpExpected).retry _ _).from rfl rfl)
    split
    · exact .inl (((buffered _ _).retry _ _).from rfl rfl)
    split
    · exact .inr ⟨⟨rfl, rfl, rfl, ⟨living.server, living.servers, living.bounded⟩, active⟩, rfl⟩
    · exact takes _ _ _

/-- What a step does with the handle and the calls of a driver. -/
inductive Effect (driver : DnsResolveDriver) (transport : Transport) : DnsResolveDriver → Prop
  | finished (done : driver.done = true) : Effect driver transport driver
  | released {after : DnsResolveDriver} (released : Released driver after) : Effect driver transport after
  | refused {after : DnsResolveDriver} (opening : driver.state = .opening)
      (failed : transport.opens.status ≠ .ok ∨ transport.opens.handle = -1)
      (released : Released (driver.called (.opens driver.protocol transport.opens.status
        transport.opens.handle)) after) :
      Effect driver transport after
  | opened {after : DnsResolveDriver} (opening : driver.state = .opening)
      (ok : transport.opens.status = .ok)
      (given : transport.opens.handle ≠ -1) (handle : after.handle = transport.opens.handle)
      (calls : after.calls = driver.calls ++
        [.opens driver.protocol transport.opens.status transport.opens.handle])
      (server : after.server = driver.server) (living : Living after)
      (state : after.state = .connecting) (active : after.done = false) :
      Effect driver transport after
  | connects {after : DnsResolveDriver} (active : driver.done = false)
      (connecting : driver.state = .connecting)
      (settled : Settled (driver.called (.connects driver.handle)) .connecting after ∨
        ((∀ observed, transport.connects = some observed → observed.status = .ok) ∧
          Settled (driver.called (.connects driver.handle)) .sending after)) : Effect driver transport after
  | exchanges {after : DnsResolveDriver} {call : TransportCall} {state : DriveState}
      (active : driver.done = false)
      (isExchange : call = .sends driver.handle ∨ call = .receives driver.handle)
      (before : driver.state = .sending ∨ driver.state = .receiving)
      (behind : state = .sending ∨ state = .receiving)
      (settled : Settled (driver.called call) state after) : Effect driver transport after

theorem Living.called (living : Living driver) (call : TransportCall) : Living (driver.called call) :=
  ⟨living.server, living.servers, living.bounded⟩

theorem step_effect (living : driver.done = false → Living driver) (case : CaseMapping) (nowMs : Int)
    (transport : Transport) :
    Effect driver transport (driver.step case nowMs transport).2 := by
  unfold DnsResolveDriver.step
  split
  · rename_i done
    exact .finished done
  rename_i running
  have active : driver.done = false := by simpa using running
  have living := living active
  split
  · exact .released (terminal_released driver rfl "cancelled")
  split
  · exact .released (terminal_released driver rfl "timeout")
  split
  · exact .released (living.retry _ _)
  unfold DnsResolveDriver.stepState
  split
  · rename_i opening
    unfold DnsResolveDriver.stepOpen
    dsimp only
    split
    · rename_i failed
      exact .refused opening failed ((living.called _).retry _ _)
    · rename_i succeeded
      obtain ⟨ok, given⟩ := not_or.mp succeeded
      exact .opened opening (not_not.mp ok) given rfl rfl rfl
        ⟨living.server, living.servers, living.bounded⟩ rfl active
  · rename_i connecting
    have called := living.called (.connects driver.handle)
    unfold DnsResolveDriver.observe
    split
    · have kept := called.keep active
      rw [show (driver.called (.connects driver.handle)).state = .connecting from connecting] at kept
      exact .connects active connecting (.inl kept)
    · rename_i observed seen
      refine .connects active connecting ((called.stepConnect active connecting nowMs
        observed).imp_right fun sends => ⟨fun other same => ?_, sends.2⟩)
      rw [seen] at same
      cases same
      exact sends.1
  · rename_i sending
    have called := living.called (.sends driver.handle)
    unfold DnsResolveDriver.observe
    split
    · exact .exchanges active (.inl rfl) (.inl sending) (.inl sending) (called.keep active)
    · rename_i observed seen
      rcases called.stepSend active sending nowMs observed with stays | goes
      · exact .exchanges active (.inl rfl) (.inl sending) (.inl rfl) stays
      · exact .exchanges active (.inl rfl) (.inl sending) (.inr rfl) goes
  · rename_i receiving
    have called := living.called (.receives driver.handle)
    unfold DnsResolveDriver.observe
    split
    · exact .exchanges active (.inr rfl) (.inr receiving) (.inr receiving) (called.keep active)
    · rename_i observed seen
      exact .exchanges active (.inr rfl) (.inr receiving) (.inr receiving)
        (called.stepReceive active case nowMs observed)

end Effects

section Handles

theorem openHandles_opened (uses : List HandleUse) (handle : Int) :
    openHandles (uses ++ [.opened handle]) = handle :: openHandles uses := by
  simp [openHandles]

theorem openHandles_closed (uses : List HandleUse) (handle : Int) :
    openHandles (uses ++ [.closed handle]) = (openHandles uses).erase handle := by
  simp [openHandles]

/-- A descriptor is given out only when it is not open, and closed only when it is. -/
def Exact (uses : List HandleUse) : Prop :=
  ∀ before after handle, (uses = before ++ .opened handle :: after → handle ∉ openHandles before) ∧
    (uses = before ++ .closed handle :: after → handle ∈ openHandles before)

theorem exact_nil : Exact [] := by
  intro before after handle
  constructor <;> intro split <;> simp at split

theorem snoc_split {α : Type} {front before after : List α} {last x : α}
    (split : front ++ [last] = before ++ x :: after) :
    (before = front ∧ x = last) ∨ ∃ rest, front = before ++ x :: rest := by
  cases after using List.reverseRecOn with
  | nil =>
    obtain ⟨rfl, same⟩ := List.append_inj' split rfl
    exact .inl ⟨rfl, (List.singleton_inj.mp same).symm⟩
  | append_singleton after other =>
    rw [← List.cons_append, ← List.append_assoc] at split
    exact .inr ⟨after, (List.append_inj' split rfl).1⟩

theorem Exact.opened {uses : List HandleUse} (exact_ : Exact uses) {handle : Int}
    (fresh : handle ∉ openHandles uses) :
    Exact (uses ++ [.opened handle]) := by
  intro before after other
  refine ⟨fun split => ?_, fun split => ?_⟩
  · rcases snoc_split split with ⟨rfl, same⟩ | ⟨rest, earlier⟩
    · cases same
      exact fresh
    · exact (exact_ before rest other).1 earlier
  · rcases snoc_split split with ⟨-, same⟩ | ⟨rest, earlier⟩
    · cases same
    · exact (exact_ before rest other).2 earlier

theorem Exact.closed {uses : List HandleUse} (exact_ : Exact uses) {handle : Int}
    (isOpen : handle ∈ openHandles uses) :
    Exact (uses ++ [.closed handle]) := by
  intro before after other
  refine ⟨fun split => ?_, fun split => ?_⟩
  · rcases snoc_split split with ⟨-, same⟩ | ⟨rest, earlier⟩
    · cases same
    · exact (exact_ before rest other).1 earlier
  · rcases snoc_split split with ⟨rfl, same⟩ | ⟨rest, earlier⟩
    · cases same
      exact isOpen
    · exact (exact_ before rest other).2 earlier

end Handles

/-- The transport has the driver's handle for its server, and knows it as connected once bytes are
exchanged. -/
structure Held (transport : NativeDnsTransport) (driver : DnsResolveDriver) : Prop where
  active : driver.done = false
  given : 0 ≤ driver.handle
  state : driver.state ≠ .opening
  owner : ∃ owner, transport.owned.lookup driver.handle = some owner ∧ driver.server = some owner.server ∧
    (driver.state = .sending ∨ driver.state = .receiving → owner.connect = socketConnected)

structure Attached (transport : NativeDnsTransport) (driver : DnsResolveDriver) : Prop where
  living : driver.done = false → Living driver
  handle : (driver.handle = -1 ∧ (driver.done = true ∨ driver.state = .opening)) ∨ Held transport driver

/-- What becomes of the handles when a driver makes a step. -/
inductive Move (before : NativeDnsTransport) (driver : DnsResolveDriver) (after : NativeDnsTransport)
    (next : DnsResolveDriver) : Prop
  | still (keys : after.owned.keys.Perm before.owned.keys)
      (platform : after.platform = before.platform) (handle : next.handle = driver.handle)
  | closed (held : driver.handle ≠ -1)
      (keys : after.owned.keys.Perm (before.owned.keys.erase driver.handle))
      (platform : after.platform = before.platform ++ [.closed driver.handle]) (handle : next.handle = -1)
  | opened (free : driver.handle = -1) (given : 0 ≤ next.handle)
      (fresh : next.handle ∉ openHandles before.platform)
      (keys : after.owned.keys.Perm (next.handle :: before.owned.keys))
      (platform : after.platform = before.platform ++ [.opened next.handle])
  | dropped {handle : Int} (free : driver.handle = -1) (fresh : handle ∉ openHandles before.platform)
      (keys : after.owned.keys.Perm before.owned.keys)
      (platform : after.platform = before.platform ++ [.opened handle] ++ [.closed handle])
      (handle_ : next.handle = -1)

structure Served (before : NativeDnsTransport) (driver : DnsResolveDriver)
    (after : NativeDnsTransport) (next : DnsResolveDriver) : Prop where
  move : Move before driver after next
  others : ∀ handle ≠ driver.handle, handle ≠ next.handle →
    after.owned.lookup handle = before.owned.lookup handle
  attached : Attached after next

section Serve
variable {transport : NativeDnsTransport} {driver next : DnsResolveDriver} {server : DnsServer}
  {platform : Platform}

/-- The transport after the calls that a driver has made since. -/
def NativeDnsTransport.serve (transport : NativeDnsTransport) (server : DnsServer)
    (platform : Platform) (before after : DnsResolveDriver) :
    NativeDnsTransport :=
  (after.calls.drop before.calls.length).foldl
  (fun transport call => transport.after server platform call) transport

theorem serve_calls {calls : List TransportCall} (added : next.calls = driver.calls ++ calls) :
    transport.serve server platform driver next =
      calls.foldl (fun transport call => transport.after server platform call) transport := by
  rw [NativeDnsTransport.serve, added, List.drop_left]

theorem close_calls (driver : DnsResolveDriver) :
    driver.close.calls = driver.calls ++ if driver.handle = -1 then [] else [.closes driver.handle] := by
  unfold DnsResolveDriver.close
  split
  · rw [List.append_nil]
  · rfl

theorem Released.attached (released : Released driver next) : Attached transport next := by
  refine ⟨fun active => ?_, .inl ⟨released.handle, released.rest.imp_right And.left⟩⟩
  rcases released.rest with done | ⟨-, living⟩
  · rw [active] at done
    cases done
  · exact living

theorem Held.mem (held : Held transport driver) : driver.handle ∈ transport.owned := by
  obtain ⟨owner, found, -⟩ := held.owner
  exact AList.lookup_isSome.mp (by rw [found]; rfl)

/-- The handle is closed by a transport that knows it. -/
theorem close_served {between : NativeDnsTransport} {other : DnsResolveDriver}
    (held : Held transport driver) (keys : between.owned.keys.Perm transport.owned.keys)
    (platform_ : between.platform = transport.platform)
    (others : ∀ handle ≠ driver.handle, between.owned.lookup handle = transport.owned.lookup handle)
    (released : Released other next) :
    Served transport driver (between.close driver.handle) next := by
  have known : driver.handle ∈ between.owned :=
    AList.mem_keys.mpr (keys.mem_iff.mpr (AList.mem_keys.mp held.mem))
  have given := held.given
  unfold NativeDnsTransport.close
  rw [if_pos known]
  refine ⟨.closed (by omega) ?_ (by rw [platform_]) released.handle, fun handle other _ => ?_,
    released.attached⟩
  · dsimp only
    rw [AList.keys_erase]
    exact keys.erase _
  · dsimp only
    rw [AList.lookup_erase_ne other]
    exact others handle other

/-- A driver that has no handle, and makes no call that could give it one. -/
theorem idle_served (handle : driver.handle = -1) (next_handle : next.handle = -1)
    (attached : Attached transport next) :
    Served transport driver transport next :=
  ⟨.still (.refl _) rfl (next_handle.trans handle.symm), fun _ _ _ => rfl, attached⟩

/-- What `open` of the transport does. -/
theorem opens_cases (transport : NativeDnsTransport) (protocol : Protocol) (server : DnsServer)
    (platform : Platform) :
    ((transport.opens protocol server platform).1.status = .error ∧
      (transport.opens protocol server platform).2.owned = transport.owned ∧
      ((platform.openHandle < 0 ∧ (transport.opens protocol server platform).2.platform =
        transport.platform) ∨
        (0 ≤ platform.openHandle ∧ (transport.opens protocol server platform).2.platform =
          transport.platform ++ [.opened platform.openHandle] ++ [.closed platform.openHandle]))) ∨
    (0 ≤ platform.openHandle ∧ (transport.opens protocol server platform).1.status = .ok ∧
      (transport.opens protocol server platform).1.handle = platform.openHandle ∧
      (transport.opens protocol server platform).2 =
        { owned := transport.owned.insert platform.openHandle ⟨server, protocol, platform.openOutcome⟩
          platform := transport.platform ++ [.opened platform.openHandle] }) := by
  unfold NativeDnsTransport.opens
  dsimp only
  split
  · refine .inl ⟨rfl, rfl, ?_⟩
    by_cases given : 0 ≤ platform.openHandle
    · exact .inr ⟨given, by simp [given]⟩
    · exact .inl ⟨by omega, by simp [given]⟩
  · rename_i accepted
    have given : 0 ≤ platform.openHandle := by
      have := (not_or.mp accepted).1
      omega
    exact .inr ⟨given, rfl, rfl, by simp [given]⟩

/-- What `connect` of the transport does with a handle that it has for the server. -/
theorem connect_cases {handle : Int} {owner : NativeOwner}
    (found : transport.owned.lookup handle = some owner) (same : owner.server = server) :
    ∃ owner', (transport.connect handle server platform).2.owned.lookup handle = some owner' ∧
    owner'.server = server ∧
      ((transport.connect handle server platform).1.status = .ok → owner'.connect = socketConnected) ∧
      (transport.connect handle server platform).2.owned.keys.Perm transport.owned.keys ∧
      (transport.connect handle server platform).2.platform = transport.platform ∧
      ∀ other ≠ handle, (transport.connect handle server platform).2.owned.lookup other =
        transport.owned.lookup other := by
  unfold NativeDnsTransport.connect
  simp only [found]
  rw [if_neg (not_not.mpr same)]
  split
  · rename_i connected
    exact ⟨owner, found, same, fun _ => connected, .refl _, rfl, fun _ _ => rfl⟩
  · dsimp only
    split
    · refine ⟨{ owner with connect := socketConnected }, AList.lookup_insert _, same, fun _ => rfl,
        ?_, rfl, fun other ne => ?_⟩
      · dsimp only
        have known : handle ∈ transport.owned.keys :=
          AList.mem_keys.mp (AList.lookup_isSome.mp (by rw [found]; rfl))
        rw [AList.keys_insert]
        exact (List.perm_cons_erase known).symm
      · exact AList.lookup_insert_ne ne
    · rename_i failed
      exact ⟨owner, found, same, fun ok => (failed ok).elim, .refl _, rfl, fun _ _ => rfl⟩

theorem Held.serves (held : Held transport driver) :
    ∃ owner, transport.owned.lookup driver.handle = some owner ∧
    owner.server = driver.server.getD ⟨[], 53⟩ := by
  obtain ⟨owner, found, server, -⟩ := held.owner
  exact ⟨owner, found, by rw [server]; rfl⟩

/-- A driver that has made a call with its handle. -/
theorem settled_served {between : NativeDnsTransport} {state : DriveState} {call : TransportCall}
    (held : Held transport driver)
    (after : transport.after (driver.server.getD ⟨[], 53⟩) platform call = between)
    (keys : between.owned.keys.Perm transport.owned.keys)
    (platform_ : between.platform = transport.platform)
    (others : ∀ handle ≠ driver.handle, between.owned.lookup handle = transport.owned.lookup handle)
    (opened : state ≠ .opening)
    (owner : ∃ owner, between.owned.lookup driver.handle = some owner ∧ driver.server = some owner.server ∧
      (state = .sending ∨ state = .receiving → owner.connect = socketConnected))
    (settled : Settled (driver.called call) state next) :
    Served transport driver (transport.serve (driver.server.getD ⟨[], 53⟩) platform driver next) next := by
  rcases settled with released | ⟨kept, isState⟩
  · have calls : next.calls = driver.calls ++ [call, .closes driver.handle] := by
      have given := held.given
      rw [released.calls, close_calls,
        if_neg (show (driver.called call).handle ≠ -1 by change driver.handle ≠ -1; omega)]
      simp [DnsResolveDriver.called]
    rw [serve_calls calls]
    change Served transport driver
      ((transport.after (driver.server.getD ⟨[], 53⟩) platform call).close driver.handle) next
    rw [after]
    exact close_served held keys platform_ others released
  · have calls : next.calls = driver.calls ++ [call] := kept.calls
    rw [serve_calls calls]
    change Served transport driver (transport.after (driver.server.getD ⟨[], 53⟩) platform call) next
    rw [after]
    have handle : next.handle = driver.handle := kept.handle
    refine ⟨.still keys platform_ handle, fun other ne _ => others other ne, fun _ => kept.living,
      .inr ⟨kept.active, ?_, ?_, ?_⟩⟩
    · rw [handle]
      exact held.given
    · rw [isState]
      exact opened
    · obtain ⟨owner, found, server, connected⟩ := owner
      have server' : next.server = driver.server := kept.server
      exact ⟨owner, by rw [handle]; exact found, by rw [server']; exact server,
        by rw [isState]; exact connected⟩

/-- One step of a driver whose transport has its handle. -/
theorem step_served (attached : Attached transport driver)
    (known : (openHandles transport.platform).Perm transport.owned.keys)
    (fresh : 0 ≤ platform.openHandle → platform.openHandle ∉ openHandles transport.platform)
    (case : CaseMapping) (nowMs : Int) :
    let next := (driver.step case nowMs (transport.answers driver (driver.server.getD ⟨[], 53⟩) platform)).2
    Served transport driver (transport.serve (driver.server.getD ⟨[], 53⟩) platform driver next) next := by
  intro next
  have effect : Effect driver (transport.answers driver (driver.server.getD ⟨[], 53⟩) platform) next :=
    step_effect attached.living case nowMs _
  generalize next = next at effect
  cases effect with
  | finished done =>
    have none : driver.calls = driver.calls ++ [] := (List.append_nil _).symm
    rw [serve_calls none]
    rcases attached.handle with ⟨free, -⟩ | held
    · exact idle_served free free attached
    · rw [held.active] at done
      cases done
  | released released =>
    have calls := released.calls
    rw [close_calls] at calls
    rcases attached.handle with ⟨free, -⟩ | held
    · rw [if_pos free] at calls
      rw [serve_calls calls]
      exact idle_served free released.handle released.attached
    · have given := held.given
      rw [if_neg (by omega)] at calls
      rw [serve_calls calls]
      exact close_served held (.refl _) rfl (fun _ _ => rfl) released
  | refused opening failed released =>
    have free : driver.handle = -1 := by
      rcases attached.handle with ⟨free, -⟩ | held
      · exact free
      · exact (held.state opening).elim
    have calls := released.calls
    rw [close_calls, if_pos (show (driver.called _).handle = -1 from free), List.append_nil] at calls
    rw [serve_calls calls]
    change Served transport driver
      (transport.opens driver.protocol (driver.server.getD ⟨[], 53⟩) platform).2 next
    rcases opens_cases transport driver.protocol (driver.server.getD ⟨[], 53⟩) platform with
      ⟨-, owned, unused⟩ | ⟨given, ok, handle, -⟩
    · refine ⟨?_, fun _ _ _ => by rw [owned], released.attached⟩
      rcases unused with ⟨-, same⟩ | ⟨given, used⟩
      · exact .still (by rw [owned]) same (released.handle.trans free.symm)
      · exact .dropped free (fresh given) (by rw [owned]) used released.handle
    · exfalso
      rcases failed with notOk | none
      · exact notOk ok
      · have : platform.openHandle = -1 := handle.symm.trans none
        omega
  | opened opening ok given handle calls server living state active =>
    have free : driver.handle = -1 := by
      rcases attached.handle with ⟨free, -⟩ | held
      · exact free
      · exact (held.state opening).elim
    rw [serve_calls calls]
    change Served transport driver
      (transport.opens driver.protocol (driver.server.getD ⟨[], 53⟩) platform).2 next
    rcases opens_cases transport driver.protocol (driver.server.getD ⟨[], 53⟩) platform with
      ⟨failed, -⟩ | ⟨positive, -, given', after⟩
    · have ok : (transport.opens driver.protocol (driver.server.getD ⟨[], 53⟩) platform).1.status =
          .ok := ok
      rw [failed] at ok
      cases ok
    · have handle : next.handle = platform.openHandle := handle.trans given'
      have unknown : platform.openHandle ∉ transport.owned.keys :=
        fun member => fresh positive (known.mem_iff.mpr member)
      rw [after]
      refine ⟨.opened free (by rw [handle]; exact positive) (by rw [handle]; exact fresh positive) ?_
        (by rw [handle]), fun other _ ne => ?_,
        fun _ => living, .inr ⟨active, by rw [handle]; exact positive, by rw [state]; simp, ?_⟩⟩
      · dsimp only
        rw [AList.keys_insert, List.erase_of_not_mem unknown, handle]
      · rw [handle] at ne
        exact AList.lookup_insert_ne ne
      · refine ⟨⟨driver.server.getD ⟨[], 53⟩, driver.protocol, platform.openOutcome⟩,
          by rw [handle]; exact AList.lookup_insert _, ?_, ?_⟩
        · obtain ⟨isServer, same⟩ := Option.isSome_iff_exists.mp living.server
          rw [same, ← server, same]
          rfl
        · rw [state]
          simp
  | connects active connecting settled =>
    have held : Held transport driver := by
      rcases attached.handle with ⟨-, done | opening⟩ | held
      · rw [active] at done
        cases done
      · rw [connecting] at opening
        cases opening
      · exact held
    obtain ⟨owner, found, same⟩ := held.serves
    obtain ⟨owner', found', same', connected, keys, platform', others⟩ :=
      @connect_cases transport (driver.server.getD ⟨[], 53⟩) platform driver.handle owner found same
    have server : driver.server = some owner'.server := by
      obtain ⟨_, _, server, -⟩ := held.owner
      rw [same', server]
      rfl
    have after : transport.after (driver.server.getD ⟨[], 53⟩) platform (.connects driver.handle) =
      (transport.connect driver.handle (driver.server.getD ⟨[], 53⟩) platform).2 := rfl
    rcases settled with settled | ⟨ok, settled⟩
    · exact settled_served held after keys platform' others (by simp)
        ⟨owner', found', server, by simp⟩ settled
    · exact settled_served held after keys platform' others (by simp)
        ⟨owner', found', server, fun _ => connected (ok _ rfl)⟩ settled
  | @exchanges _ call state active isExchange before behind settled =>
    have held : Held transport driver := by
      rcases attached.handle with ⟨-, done | opening⟩ | held
      · rw [active] at done
        cases done
      · rw [opening] at before
        simp at before
      · exact held
    obtain ⟨owner, found, server, connected⟩ := held.owner
    have opened : state ≠ .opening := by
      rcases behind with rfl | rfl <;> simp
    refine settled_served held ?_ (.refl _) rfl (fun _ _ => rfl) opened
      ⟨owner, found, server, fun _ => connected before⟩ settled
    rcases isExchange with rfl | rfl <;> rfl

end Serve

/-- The handles that the drivers have. -/
def liveHandles (drivers : List DnsResolveDriver) : List Int := (drivers.map (·.handle)).filter (· ≠ -1)

/-- Every descriptor that is open is the handle of one driver, for its server. -/
structure HostSound (host : NativeHost) : Prop where
  drivers : ∀ driver ∈ host.drivers, Attached host.transport driver
  keys : host.transport.owned.keys.Perm (liveHandles host.drivers)
  open_ : (openHandles host.transport.platform).Perm host.transport.owned.keys
  uses : Exact host.transport.platform

section Host
variable {transport after : NativeDnsTransport} {driver next : DnsResolveDriver}
  {before behind : List DnsResolveDriver}

theorem liveHandles_middle (driver : DnsResolveDriver) (before behind : List DnsResolveDriver) :
    (liveHandles (before ++ driver :: behind)).Perm
    ((if driver.handle = -1 then [] else [driver.handle]) ++ liveHandles (before ++ behind)) := by
  unfold liveHandles
  have moved : ((before ++ driver :: behind).map (·.handle)).Perm
      (driver.handle :: (before ++ behind).map (·.handle)) :=
    (@List.perm_middle _ driver before behind).map _
  refine (moved.filter _).trans ?_
  rw [List.filter_cons]
  by_cases free : driver.handle = -1
  · simp [free]
  · simp [free]

/-- The handles after a step, and what the platform has seen. -/
theorem Move.handles (move : Move transport driver after next)
    (keys : transport.owned.keys.Perm (liveHandles (before ++ driver :: behind)))
    (known : (openHandles transport.platform).Perm transport.owned.keys) (uses : Exact transport.platform) :
    after.owned.keys.Perm (liveHandles (before ++ next :: behind)) ∧
      (openHandles after.platform).Perm after.owned.keys ∧ Exact after.platform := by
  have old := keys.trans (liveHandles_middle driver before behind)
  have new := (liveHandles_middle next before behind).symm
  cases move with
  | still keys' platform handle =>
    rw [platform]
    rw [handle] at new
    exact ⟨(keys'.trans old).trans new, known.trans keys'.symm, uses⟩
  | closed held keys' platform handle =>
    rw [if_neg held, List.singleton_append] at old
    rw [if_pos handle, List.nil_append] at new
    have isOpen : driver.handle ∈ openHandles transport.platform :=
      known.mem_iff.mpr (old.mem_iff.mpr (by simp))
    refine ⟨?_, ?_, ?_⟩
    · refine keys'.trans ((old.erase driver.handle).trans ?_)
      rw [List.erase_cons_head]
      exact new
    · rw [platform, openHandles_closed]
      exact (known.erase _).trans keys'.symm
    · rw [platform]
      exact uses.closed isOpen
  | opened free given fresh keys' platform =>
    rw [if_pos free, List.nil_append] at old
    rw [if_neg (by omega), List.singleton_append] at new
    refine ⟨?_, ?_, ?_⟩
    · exact keys'.trans ((old.cons _).trans new)
    · rw [platform, openHandles_opened]
      exact (known.cons _).trans keys'.symm
    · rw [platform]
      exact uses.opened fresh
  | @dropped handle free fresh keys' platform handle_ =>
    rw [if_pos free, List.nil_append] at old
    rw [if_pos handle_, List.nil_append] at new
    refine ⟨keys'.trans (old.trans new), ?_, ?_⟩
    · rw [platform, openHandles_closed, openHandles_opened, List.erase_cons_head]
      exact known.trans keys'.symm
    · rw [platform]
      refine (uses.opened fresh).closed ?_
      rw [openHandles_opened]
      exact List.mem_cons_self

theorem Attached.other {other : DnsResolveDriver} (attached : Attached transport other)
    (same : 0 ≤ other.handle → after.owned.lookup other.handle =
      transport.owned.lookup other.handle) : Attached after other := by
  refine ⟨attached.living, attached.handle.imp_right fun held => ?_⟩
  obtain ⟨owner, found, rest⟩ := held.owner
  exact ⟨held.active, held.given, held.state, owner, (same held.given).trans found, rest⟩

/-- A driver of a host is replaced by what a step makes of it. -/
theorem HostSound.serve {host : NativeHost} (sound : HostSound host)
    (split : host.drivers = before ++ driver :: behind)
    (served : Served host.transport driver after next) : HostSound ⟨after, before ++ next :: behind⟩ := by
  have keys := sound.keys
  rw [split] at keys
  obtain ⟨keys', open', uses'⟩ := served.move.handles keys sound.open_ sound.uses
  have distinct : (liveHandles (before ++ next :: behind)).Nodup :=
    keys'.nodup_iff.mp after.owned.keys_nodup
  have distinct' : (liveHandles (before ++ driver :: behind)).Nodup :=
    keys.nodup_iff.mp host.transport.owned.keys_nodup
  rw [(liveHandles_middle _ before behind).nodup_iff] at distinct distinct'
  -- Another driver with the handle of this one, before or after the step, would have it twice.
  have apart {one : DnsResolveDriver}
    (nodup : ((if one.handle = -1 then [] else [one.handle]) ++ liveHandles (before ++ behind)).Nodup)
      {other : DnsResolveDriver} (member : other ∈ before ++ behind) (given : 0 ≤ other.handle) :
        other.handle ≠ one.handle := by
    intro same
    have live : other.handle ∈ liveHandles (before ++ behind) :=
      List.mem_filter.mpr ⟨List.mem_map_of_mem member, by simp; omega⟩
    rw [if_neg (by omega), List.singleton_append, List.nodup_cons, ← same] at nodup
    exact nodup.1 live
  refine ⟨fun other member => ?_, keys', open', uses'⟩
  rcases List.mem_append.mp member with front | back
  · refine Attached.other (sound.drivers other (by rw [split]; simp [front])) fun given => ?_
    exact served.others _ (apart distinct' (by simp [front]) given) (apart distinct (by simp [front]) given)
  · rcases List.mem_cons.mp back with rfl | back
    · exact served.attached
    · refine Attached.other (sound.drivers other (by rw [split]; simp [back])) fun given => ?_
      exact served.others _ (apart distinct' (by simp [back]) given) (apart distinct (by simp [back]) given)

theorem newDriver_attached (operation : ResolveOperation) (config : DnsResolverConfig)
    (nowMs startServer : Int) (terminalError : String) :
    Attached transport (newDriver operation config nowMs startServer terminalError) := by
  unfold newDriver
  dsimp only
  split
  · rename_i done
    refine ⟨fun active => ?_, .inl ⟨rfl, .inl done⟩⟩
    cases done.symm.trans active
  split
  · exact ⟨by rintro ⟨⟩, .inl ⟨rfl, .inl rfl⟩⟩
  · rename_i some
    have servers : config.servers ≠ [] := by
      rintro none
      exact some (by rw [DnsResolverConfig.maxAttempts, none]; exact Int.zero_mul _)
    exact ⟨fun _ => selectAttempt_living servers nowMs, .inl ⟨rfl, .inr rfl⟩⟩

theorem cancel_released (driver : DnsResolveDriver) : Released driver driver.cancel.2 := by
  unfold DnsResolveDriver.cancel
  split
  · exact terminal_released driver rfl _
  · exact (@terminal_released { driver with operation := driver.operation.cancel } _ rfl _).from rfl rfl

/-- A driver that gives up its handle. -/
theorem released_served {server : DnsServer} {platform : Platform}
    (attached : Attached transport driver) (released : Released driver next) :
    Served transport driver (transport.serve server platform driver next) next := by
  have calls := released.calls
  rw [close_calls] at calls
  rcases attached.handle with ⟨free, -⟩ | held
  · rw [if_pos free] at calls
    rw [serve_calls calls]
    exact idle_served free released.handle released.attached
  · have given := held.given
    rw [if_neg (by omega)] at calls
    rw [serve_calls calls]
    exact close_served held (.refl _) rfl (fun _ _ => rfl) released

theorem set_middle {drivers : List DnsResolveDriver} {index : Nat}
    (found : drivers[index]? = some driver) (next : DnsResolveDriver) :
    ∃ before behind, drivers = before ++ driver :: behind ∧ drivers.set index next = before ++ next ::
      behind := by
  obtain ⟨bound, rfl⟩ := List.getElem?_eq_some_iff.mp found
  refine ⟨drivers.take index, drivers.drop (index + 1), ?_,
    List.set_eq_take_append_cons_drop.trans (if_pos bound)⟩
  rw [← List.drop_eq_getElem_cons bound, List.take_append_drop]

theorem HostSound.act {host : NativeHost} (sound : HostSound host) (case : CaseMapping)
    (action : HostAction) (fresh : action.Fresh host) :
    HostSound (host.act case action) := by
  cases action with
  | start operation config nowMs startServer terminalError =>
    have attached : Attached host.transport (newDriver operation config nowMs startServer terminalError) :=
      newDriver_attached operation config nowMs startServer terminalError
    have free : (newDriver operation config nowMs startServer terminalError).handle = -1 := by
      unfold newDriver
      dsimp only
      split
      · rfl
      split <;> rfl
    refine ⟨fun driver member => ?_, ?_, sound.open_, sound.uses⟩
    · rcases List.mem_append.mp member with old | new
      · exact sound.drivers driver old
      · obtain rfl := List.mem_singleton.mp new
        exact attached
    · have same : liveHandles (host.act case (.start operation config nowMs startServer
          terminalError)).drivers = liveHandles host.drivers := by
        simp [liveHandles, NativeHost.act, free]
      rw [same]
      exact sound.keys
  | step index nowMs platform =>
    unfold NativeHost.act
    dsimp only
    split
    · exact sound
    · rename_i driver found
      have served :=
        step_served (sound.drivers driver (List.mem_of_getElem? found)) sound.open_ fresh case nowMs
      obtain ⟨before, behind, split, set⟩ := set_middle found
        (driver.step case nowMs (host.transport.answers driver (driver.server.getD ⟨[], 53⟩) platform)).2
      unfold NativeHost.served
      rw [set]
      exact sound.serve split served
  | cancel index =>
    unfold NativeHost.act
    dsimp only
    split
    · exact sound
    · rename_i driver found
      have served := @released_served host.transport driver driver.cancel.2 (driver.server.getD ⟨[], 53⟩) {}
        (sound.drivers driver (List.mem_of_getElem? found)) (cancel_released driver)
      obtain ⟨before, behind, split, set⟩ := set_middle found driver.cancel.2
      unfold NativeHost.served
      rw [set]
      exact sound.serve split served

end Host

/-- The transport serves a driver: its checks let the call of the driver through to the platform. -/
structure Provided (transport : NativeDnsTransport) (driver : DnsResolveDriver) (server : DnsServer)
    (platform : Platform) : Prop where
  connect : driver.state = .connecting → (transport.connect driver.handle server platform).1.status = .ok ∨
    (transport.connect driver.handle server platform).1.status = mapSocketOutcome platform.connectOutcome
  send : driver.state = .sending → (transport.send driver.handle driver.sendData driver.sendOffset
    platform).status = mapSocketOutcome platform.writeOutcome
  receive : driver.state = .receiving →
    (transport.receive driver.handle driver.receiveLimit platform).status =
      mapSocketOutcome platform.readOutcome ∧
    server.matchesPeer (transport.receive driver.handle driver.receiveLimit platform).peer

theorem receiveLimit_positive (driver : DnsResolveDriver) : 0 < driver.receiveLimit := by
  have accepted := driver.config.accepted
  unfold DnsResolveDriver.receiveLimit
  split <;> omega

theorem Held.provided {transport : NativeDnsTransport} {driver : DnsResolveDriver}
    (held : Held transport driver) (living : Living driver) :
    ∃ server, driver.server = some server ∧ ∀ platform, Provided transport driver server platform := by
  obtain ⟨owner, found, server, connected⟩ := held.owner
  refine ⟨owner.server, server, fun platform => ⟨fun _ => ?_, fun sending => ?_, fun receiving => ?_⟩⟩
  · unfold NativeDnsTransport.connect
    simp only [found]
    rw [if_neg (not_not.mpr rfl)]
    split
    · exact .inl rfl
    · exact .inr rfl
  · have bounded := living.bounded
    have ready := connected (.inl sending)
    unfold NativeDnsTransport.send
    simp only [found]
    rw [if_neg (not_not.mpr ready), if_neg (by omega)]
  · have ready := connected (.inr receiving)
    have limit := receiveLimit_positive driver
    unfold NativeDnsTransport.receive
    simp only [found]
    rw [if_neg (not_not.mpr ready), if_neg (by omega)]
    exact ⟨rfl, by simp [DnsServer.matchesPeer]⟩

/-- Drivers that share a transport, in any order of their steps and whatever the platform answers: a
descriptor is closed exactly once, by the driver that has it, and none is open that no driver has,
so that nothing is open when the drivers are done. No check of the transport ever refuses a driver,
and what it reads for one is from the server that the driver asked. What is assumed of the platform
is that it does not give out a descriptor that is open. It may answer anything else, and any number
of drivers may come and go. -/
theorem native_descriptors (case : CaseMapping) (actions : List HostAction)
    (fresh : Along (NativeHost.act case) (fun host action => action.Fresh host) actions {}) :
    let host := actions.foldl (NativeHost.act case) {}
    Exact host.transport.platform ∧ (openHandles host.transport.platform).Perm (liveHandles host.drivers) ∧
      (liveHandles host.drivers).Nodup ∧ ((∀ driver ∈ host.drivers, driver.done = true) →
        openHandles host.transport.platform = []) ∧ ∀ driver ∈ host.drivers, driver.handle ≠ -1 →
        ∃ server, driver.server = some server ∧ ∀ platform,
          Provided host.transport driver server platform := by
  intro host
  have start : HostSound ({} : NativeHost) := ⟨by rintro _ ⟨⟩, .refl _, .refl _, exact_nil⟩
  have sound : HostSound host := invariant_along (fun host action fresh sound =>
    sound.act case action fresh) fresh start
  have idle : ∀ driver ∈ host.drivers, driver.done = true → driver.handle = -1 := by
    intro driver member done
    rcases (sound.drivers driver member).handle with ⟨free, -⟩ | held
    · exact free
    · cases done.symm.trans held.active
  refine ⟨sound.uses, sound.open_.trans sound.keys, sound.keys.nodup_iff.mp
    host.transport.owned.keys_nodup, fun done => ?_, fun driver member taken => ?_⟩
  · have none : liveHandles host.drivers = [] := by
      refine List.filter_eq_nil_iff.mpr fun handle member => ?_
      obtain ⟨driver, listed, rfl⟩ := List.mem_map.mp member
      simp [idle driver listed (done driver listed)]
    have empty := sound.open_.trans sound.keys
    rw [none] at empty
    exact empty.eq_nil
  · rcases (sound.drivers driver member).handle with ⟨free, -⟩ | held
    · exact (taken free).elim
    · exact held.provided ((sound.drivers driver member).living held.active)

/-- Two drivers share a transport. The first one's socket connects; the second one's first socket is
of no use, and its next one is given up when the driver is cancelled. -/
def twoDrivers : List HostAction :=
  [.start askAb (oneServer false) 0 0 "", .start askAb (oneServer false) 0 0 "",
    .step 0 1 { openOutcome := 3, openHandle := 5 },
    .step 1 1 { openOutcome := 2, openHandle := 6 }, .step 1 2 { openOutcome := 1, openHandle := 6 },
    .step 0 2 {}, .cancel 1]

theorem native_descriptors_twoDrivers :
    let host := twoDrivers.foldl (NativeHost.act latin1Mapping) {}
    host.transport.platform = [.opened 5, .opened 6, .closed 6, .opened 6, .closed 6] ∧
      (openHandles host.transport.platform).Perm (liveHandles host.drivers) :=
  ⟨by decide, (native_descriptors latin1Mapping twoDrivers (by decide)).2.1⟩

end Dns
end PccGateway
