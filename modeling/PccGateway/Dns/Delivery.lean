import PccGateway.Dns.Framing
import PccGateway.Dns.NameCodec

namespace PccGateway
namespace Dns

/-- A message that answers an operation: it parses, it reports no error, and the policy accepts some
of its addresses. A truncated one is an answer over TCP only. -/
structure Answered (case : CaseMapping) (operation : ResolveOperation) (message : Bytes)
    (addresses : List Text) : Prop where
  reply : ∃ response values ttl,
    parseResponse case message operation.queryId operation.name operation.qtype = .ok response ∧
    response.rcode = 0 ∧ (response.truncated = true → operation.useTcp = true) ∧
    answerValues case response.answers operation.name operation.qtype = .ok (values, ttl) ∧
    (operation.policy.accept case { name := operation.name, values, qtype := operation.qtype }).1 =
      .ok addresses
  nonempty : addresses ≠ []

/-- A driver that is done, with an operation that is resolved to the addresses. -/
structure Resolved (driver : DnsResolveDriver) (addresses : List Text) : Prop where
  done : driver.done = true
  error : driver.error = ""
  values : driver.values = addresses
  operation_done : driver.operation.done = true
  operation_error : driver.operation.error = ""
  operation_values : driver.operation.values = addresses

theorem accept_empty (case : CaseMapping) (policy : DnsAddressPolicy) (name : Text) (qtype : Int) :
    (policy.accept case { name, values := [], qtype }).1 = .ok [] := rfl

/-- An operation that is given its answer in its own framing is resolved. -/
theorem receive_answered (case : CaseMapping) {operation : ResolveOperation}
    (waiting : Waiting operation) {nowMs : Int}
    (early : nowMs < operation.deadlineMs) {payload message : Bytes}
    (framing : operation.unframe payload = .ok message)
    {addresses : List Text} (answered : Answered case operation message addresses) :
    ∃ after, operation.receive case payload nowMs = (.ok none, after) ∧ after.done = true ∧
    after.values = addresses ∧ after.error = "" := by
  obtain ⟨response, values, ttl, parsed, noError, truncated, found, accepted⟩ := answered.reply
  have some : values ≠ [] := by
    rintro rfl
    rw [accept_empty] at accepted
    cases accepted
    exact answered.nonempty rfl
  have final : ¬ (response.truncated = true ∧ ¬ operation.useTcp = true) := fun both =>
    both.2 (truncated both.1)
  cases outcome :
    operation.policy.accept case { name := operation.name, values, qtype := operation.qtype } with
  | mk result policy =>
    rw [outcome] at accepted
    cases accepted
    refine ⟨{ operation with
      policy, values := addresses, done := true
      cache := (operation.cache.put case
        { name := operation.name, qtype := operation.qtype, values := addresses,
          ttlMs := ttl * 1000, nowMs }).2 },
      ?_, rfl, rfl, waiting.clean⟩
    simp only [ResolveOperation.receive, waiting.active, waiting.uncancelled, Bool.false_eq_true,
      or_self, if_false, if_neg (Int.not_le.mpr early),
      framing, parsed, ResolveOperation.receiveResponse, if_neg final, noError,
      ResolveOperation.receiveAnswers, found, some, outcome]
    simp

theorem terminal_resolved {driver : DnsResolveDriver} {addresses : List Text}
    (done : driver.operation.done = true)
    (values : driver.operation.values = addresses) (error : driver.operation.error = "") :
    Resolved (driver.terminal "").2 addresses := by
  unfold DnsResolveDriver.terminal DnsResolveDriver.terminate
  simp only [ne_eq, not_true_eq_false, if_false, close_operation]
  exact ⟨rfl, error, values, by simpa using done, by simpa using error, by simpa using values⟩

/-- A part of a reply that a driver takes when its transport gives it. -/
def Brings (driver : DnsResolveDriver) (transport : Transport) (part : Bytes) : Prop :=
  ∃ observed, transport.receives = some observed ∧ observed.status = .ok ∧ observed.data = part ∧
    part ≠ [] ∧ (part.length : Int) ≤ driver.receiveLimit ∧
    (driver.server.any (·.matchesPeer observed.peer) = true ∨
      (driver.protocol = .tcp ∧ observed.peer = .none))

/-- The steps of a driver that bring it parts of a reply, each before the deadline of the attempt; in
between the transport may have nothing yet. -/
inductive Delivered (case : CaseMapping) : DnsResolveDriver → List (Int × Transport) → List Bytes → Prop
  | none {driver} : Delivered case driver [] []
  | waits {driver nowMs transport rest parts} : nowMs < driver.attemptDeadlineMs →
      (∃ observed, transport.receives = some observed ∧ observed.status = .wouldBlock) →
      Delivered case (driver.step case nowMs transport).2 rest parts →
      Delivered case driver ((nowMs, transport) :: rest) parts
  | brings {driver nowMs transport part rest parts} :
      nowMs < driver.attemptDeadlineMs → Brings driver transport part →
      Delivered case (driver.step case nowMs transport).2 rest parts →
      Delivered case driver ((nowMs, transport) :: rest) (part :: parts)

def stepEvents (steps : List (Int × Transport)) : List DriverEvent :=
  steps.map fun step => .step step.1 step.2

/-- A reply in the framing of the protocol that the driver uses: one datagram, or the parts of a frame
of which nothing has come yet. -/
def InFraming (driver : DnsResolveDriver) (message : Bytes) (parts : List Bytes) : Prop :=
  match driver.protocol with
  | .udp => parts = [message]
  | .tcp =>
    driver.tcpBuffer = [] ∧ parts.flatten = frame message ∧ 0 < message.length ∧
      (message.length : Int) ≤ driver.config.maxTcpBytes

/-- Every answer that comes in the framing of the driver resolves the operation. -/
def Completes (case : CaseMapping) (driver : DnsResolveDriver) : Prop :=
  ∀ message addresses steps parts, Answered case driver.operation message addresses →
    InFraming driver message parts →
    Delivered case driver steps parts → Resolved (runDriver case driver (stepEvents steps)) addresses

section Steps

variable {case : CaseMapping} {driver : DnsResolveDriver}

/-- A driver that receives. -/
structure Receiving (driver : DnsResolveDriver) : Prop where
  waiting : Waiting driver.operation
  active : driver.done = false
  state : driver.state = .receiving
  deadline : driver.attemptDeadlineMs ≤ driver.operation.deadlineMs

theorem Receiving.step (receiving : Receiving driver) {nowMs : Int}
    (early : nowMs < driver.attemptDeadlineMs) {transport : Transport}
    {observed : DnsIoResult} (given : transport.receives = some observed) :
    driver.step case nowMs transport =
      (driver.called (.receives driver.handle)).stepReceive case nowMs observed := by
  have deadline := receiving.deadline
  unfold DnsResolveDriver.step DnsResolveDriver.stepState
  simp only [receiving.active, receiving.waiting.uncancelled, receiving.state, Bool.false_eq_true,
    if_false, if_neg (show ¬ driver.operation.deadlineMs ≤ nowMs by omega),
    if_neg (show ¬ driver.attemptDeadlineMs ≤ nowMs by omega), given]
  rfl

theorem Receiving.waits (receiving : Receiving driver) {nowMs : Int}
    (early : nowMs < driver.attemptDeadlineMs) {transport : Transport}
    (nothing : ∃ observed, transport.receives = some observed ∧ observed.status = .wouldBlock) :
    (driver.step case nowMs transport).2 = driver.called (.receives driver.handle) := by
  obtain ⟨observed, given, status⟩ := nothing
  rw [receiving.step early given]
  simp only [DnsResolveDriver.stepReceive, status]
  rfl

theorem Receiving.brings (receiving : Receiving driver) {nowMs : Int}
    (early : nowMs < driver.attemptDeadlineMs) {transport : Transport}
    {part : Bytes} (brings : Brings driver transport part) :
    ∃ observed, observed.data = part ∧
      (driver.server.any (·.matchesPeer observed.peer) = true ∨
        (driver.protocol = .tcp ∧ observed.peer = .none)) ∧ driver.step case nowMs transport =
        match driver.protocol with
        | .udp => (driver.called (.receives driver.handle)).receiveUdp case nowMs observed
        | .tcp => (driver.called (.receives driver.handle)).receiveTcp case nowMs observed := by
  obtain ⟨observed, given, status, rfl, nonempty, fits, peer⟩ := brings
  refine ⟨observed, rfl, peer, ?_⟩
  rw [receiving.step early given]
  unfold DnsResolveDriver.stepReceive
  simp only [status, if_neg nonempty]
  rw [if_neg (show ¬ (driver.called (.receives driver.handle)).receiveLimit < observed.data.length
    from Int.not_lt.mpr fits)]
  rfl

theorem Receiving.called (receiving : Receiving driver) (call : TransportCall) :
    Receiving (driver.called call) :=
  ⟨receiving.waiting, receiving.active, receiving.state, receiving.deadline⟩

theorem steps_done (done : driver.done = true) (steps : List (Int × Transport)) :
    runDriver case driver (stepEvents steps) = driver := by
  induction steps with
  | nil => rfl
  | cons step steps ih =>
    have same : (driver.step case step.1 step.2).2 = driver := by simp [DnsResolveDriver.step, done]
    change runDriver case (driver.step case step.1 step.2).2 (stepEvents steps) = driver
    rw [same, ih]

/-- The end of a step whose operation has got its answer. -/
theorem received_answered (receiving : Receiving driver) {nowMs : Int}
    (early : nowMs < driver.attemptDeadlineMs) {payload message : Bytes}
    (framing : driver.operation.unframe payload = .ok message) {addresses : List Text}
    (answered : Answered case driver.operation message addresses) (tcp : Bool) :
    Resolved (driver.received nowMs tcp (driver.operation.receive case payload nowMs)).2 addresses := by
  have soon : nowMs < driver.operation.deadlineMs := Int.lt_of_lt_of_le early receiving.deadline
  obtain ⟨after, outcome, done, values, error⟩ :=
    receive_answered case receiving.waiting soon framing answered
  rw [outcome]
  exact @terminal_resolved { driver with operation := after } _ done values error

theorem Receiving.datagram (receiving : Receiving driver) (udp : driver.protocol = .udp)
    (plain : driver.operation.useTcp = false) {message : Bytes} {addresses : List Text}
    (answered : Answered case driver.operation message addresses) {steps : List (Int × Transport)}
    (delivered : Delivered case driver steps [message]) :
    Resolved (runDriver case driver (stepEvents steps)) addresses := by
  generalize one : [message] = parts at delivered
  induction delivered with
  | none => cases one
  | @waits driver nowMs transport rest parts early nothing later ih =>
    have same := @Receiving.waits case _ receiving _ early _ nothing
    change Resolved (runDriver case (driver.step case nowMs transport).2 (stepEvents rest)) addresses
    rw [same] at ih ⊢
    exact ih (receiving.called _) udp plain answered one
  | @brings driver nowMs transport part rest parts early brings later ih =>
    cases one
    obtain ⟨observed, data, peer, step⟩ := @Receiving.brings case _ receiving _ early _ _ brings
    have known : driver.server.any (·.matchesPeer observed.peer) = true :=
      peer.resolve_right fun other => by simp [udp] at other
    have resolved : Resolved (driver.step case nowMs transport).2 addresses := by
      rw [step, udp]
      simp only [DnsResolveDriver.receiveUdp]
      rw [if_neg (by simpa [DnsResolveDriver.called] using known)]
      refine received_answered (receiving.called _) early ?_ answered false
      rw [data]
      exact if_neg (by simp [DnsResolveDriver.called, plain])
    change Resolved (runDriver case (driver.step case nowMs transport).2 (stepEvents rest)) addresses
    rwa [steps_done resolved.done]

/-- The length that the first two bytes of a frame give. -/
theorem frame_length {message buffer rest : Bytes} (small : message.length < 65536)
    (shape : buffer ++ rest = frame message)
    (enough : 2 ≤ buffer.length) : u16 buffer 0 = .ok message.length := by
  have first : buffer.take 2 = putU16 message.length := by
    rw [← List.take_append_of_le_length enough, shape]
    rfl
  refine @u16_at [] (buffer.drop 2) _ _ _ ?_ rfl small
  rw [List.nil_append, ← first, List.take_append_drop]

/-- A driver that has got the front of a frame. -/
structure Midway (driver : DnsResolveDriver) (message : Bytes) : Prop where
  receiving : Receiving driver
  tcp : driver.protocol = .tcp
  framed : driver.operation.useTcp = true
  short : driver.tcpBuffer.length < message.length + 2
  expected : driver.tcpExpected = if 2 ≤ driver.tcpBuffer.length then (message.length : Int) else -1
  sized : 0 < message.length ∧ (message.length : Int) ≤ driver.config.maxTcpBytes

theorem unframe_frame {operation : ResolveOperation} (framed : operation.useTcp = true)
    {message : Bytes} (small : message.length < 65536) :
    operation.unframe (frame message) = .ok message := by
  have length : (frame message).length = message.length + 2 := by simp [frame, Nat.add_comm]
  have first : u16 (frame message) 0 = .ok message.length :=
    frame_length small (List.append_nil _) (by omega)
  have rest : (frame message).drop 2 = message := rfl
  simp [ResolveOperation.unframe, framed, length, first, rest, bind, Except.bind, pure, Except.pure]

/-- A part of a frame comes: the driver is still midway, or the operation has its answer. -/
theorem Midway.part {message : Bytes} (midway : Midway driver message) {nowMs : Int}
    (early : nowMs < driver.attemptDeadlineMs) {observed : DnsIoResult}
    (peer : driver.server.any (·.matchesPeer observed.peer) = true ∨ observed.peer = .none)
    {rest : Bytes} (shape : driver.tcpBuffer ++ observed.data ++ rest = frame message)
    {addresses : List Text} (answered : Answered case driver.operation message addresses) :
    (rest = [] ∧ Resolved (driver.receiveTcp case nowMs observed).2 addresses) ∨
    (rest ≠ [] ∧ Midway (driver.receiveTcp case nowMs observed).2 message ∧
      (driver.receiveTcp case nowMs observed).2.operation = driver.operation ∧
      (driver.receiveTcp case nowMs observed).2.tcpBuffer = driver.tcpBuffer ++ observed.data) := by
  have accepted := driver.config.accepted
  obtain ⟨positive, sized⟩ := midway.sized
  have small : message.length < 65536 := by omega
  have total : (driver.tcpBuffer ++ observed.data).length + rest.length = message.length + 2 := by
    rw [← List.length_append, shape]
    simp [frame, Nat.add_comm]
  have known : ¬ (observed.peer ≠ .none ∧ ¬ driver.server.any (·.matchesPeer observed.peer) = true) := by
    rintro ⟨named, stranger⟩
    exact peer.elim stranger named
  have expects : DnsResolveDriver.expected { driver with tcpBuffer := driver.tcpBuffer ++ observed.data } =
      if 2 ≤ (driver.tcpBuffer ++ observed.data).length then (message.length : Int) else -1 := by
    unfold DnsResolveDriver.expected
    dsimp only
    rw [midway.expected]
    by_cases before : 2 ≤ driver.tcpBuffer.length
    · rw [if_pos before, if_neg (by omega), if_pos (by rw [List.length_append]; omega)]
    · rw [if_neg before]
      by_cases after : 2 ≤ (driver.tcpBuffer ++ observed.data).length
      · rw [if_pos ⟨by omega, after⟩, if_pos after, frame_length small shape after]
      · rw [if_neg fun both => after both.2, if_neg after]
  unfold DnsResolveDriver.receiveTcp
  rw [if_neg known]
  dsimp only
  rw [if_neg (by omega), expects, if_neg]
  swap
  · rintro ⟨⟨-, enough⟩, bad⟩
    rw [if_pos enough] at bad
    omega
  by_cases whole : rest = []
  · subst whole
    rw [List.append_nil] at shape
    have enough : 2 ≤ (driver.tcpBuffer ++ observed.data).length := by
      simp only [List.length_nil] at total; omega
    rw [if_pos enough, if_neg (by simp only [List.length_nil] at total; omega)]
    have receiving : Receiving { driver with
        tcpBuffer := driver.tcpBuffer ++ observed.data, tcpExpected := (message.length : Int) } :=
      ⟨midway.receiving.waiting, midway.receiving.active, midway.receiving.state, midway.receiving.deadline⟩
    refine .inl ⟨rfl, received_answered receiving early ?_ answered true⟩
    rw [shape, List.take_of_length_le (by simp [Dns.frame]; omega)]
    exact unframe_frame midway.framed small
  · have more : 0 < rest.length := List.length_pos_iff.mpr whole
    rw [if_pos]
    swap
    · split
      · right
        omega
      · left
        omega
    refine .inr ⟨whole, ⟨⟨midway.receiving.waiting, midway.receiving.active, midway.receiving.state,
      attemptDeadline_le _⟩, midway.tcp, midway.framed, ?_, rfl, midway.sized⟩, rfl, rfl⟩
    change (driver.tcpBuffer ++ observed.data).length < message.length + 2
    omega

theorem Midway.frame {message : Bytes} (midway : Midway driver message) {addresses : List Text}
    (answered : Answered case driver.operation message addresses) {steps : List (Int × Transport)}
    {parts : List Bytes} (delivered : Delivered case driver steps parts)
    (shape : driver.tcpBuffer ++ parts.flatten = Dns.frame message) :
    Resolved (runDriver case driver (stepEvents steps)) addresses := by
  induction delivered with
  | @none driver =>
    have length := congrArg List.length shape
    have short := midway.short
    simp [Dns.frame] at length
    omega
  | @waits driver nowMs transport rest parts early nothing later ih =>
    have same := @Receiving.waits case _ midway.receiving _ early _ nothing
    change Resolved (runDriver case (driver.step case nowMs transport).2 (stepEvents rest)) addresses
    rw [same] at ih ⊢
    exact ih ⟨midway.receiving.called _, midway.tcp, midway.framed, midway.short, midway.expected,
      midway.sized⟩ answered shape
  | @brings driver nowMs transport part rest parts early brings later ih =>
    obtain ⟨observed, rfl, peer, step⟩ := @Receiving.brings case _ midway.receiving _ early _ _ brings
    rw [midway.tcp] at step
    dsimp only at step
    change Resolved (runDriver case (driver.step case nowMs transport).2 (stepEvents rest)) addresses
    rw [List.flatten_cons, ← List.append_assoc] at shape
    have midway' : Midway (driver.called (.receives driver.handle)) message :=
      ⟨midway.receiving.called _, midway.tcp, midway.framed, midway.short, midway.expected, midway.sized⟩
    obtain ⟨-, resolved⟩ | ⟨-, next, operation, buffer⟩ :=
      @Midway.part case _ _ midway' _ early _ (peer.imp id And.right) _ shape _ answered
    · rw [← step] at resolved
      rwa [steps_done resolved.done]
    · rw [← step] at next operation buffer
      refine ih next ?_ ?_
      · rw [operation]
        exact answered
      · rw [buffer]
        exact shape

/-- A driver and an operation that agree. -/
theorem Agrees.completes (agrees : Agrees driver) (receiving : Receiving driver)
    (fresh : driver.tcpBuffer = [] → driver.tcpExpected = -1) :
    Completes case driver := by
  intro message addresses steps parts answered framing delivered
  unfold Agrees at agrees
  unfold InFraming at framing
  cases protocol : driver.protocol with
  | udp =>
    rw [protocol] at framing agrees
    cases framing
    have plain : driver.operation.useTcp = false := by simpa using agrees
    exact receiving.datagram protocol plain answered delivered
  | tcp =>
    rw [protocol] at framing agrees
    obtain ⟨empty, shape, sized⟩ := framing
    have midway : Midway driver message :=
      ⟨receiving, protocol, agrees.mpr rfl, by simp [empty], by simp [empty, fresh], sized⟩
    exact midway.frame answered delivered (by rw [empty, List.nil_append, shape])

end Steps

theorem newOperation_waiting {case : CaseMapping} {queryId : Int} {name : Text}
    {qtype deadlineMs : Int} {cache : DnsCache}
    {policy : DnsAddressPolicy} {operation : ResolveOperation}
    (created : newOperation case queryId name qtype deadlineMs cache policy = .ok operation) :
    Waiting operation ∧ operation.useTcp = false := by
  unfold newOperation at created
  dsimp only at created
  cases built : buildQuery case queryId (case.canonical name) qtype with
  | error error =>
    rw [built] at created
    cases created
  | ok query =>
    rw [built] at created
    cases created
    exact ⟨⟨rfl, rfl, rfl⟩, rfl⟩

theorem newDriver_tracking {operation : ResolveOperation} (waiting : Waiting operation)
    (plain : operation.useTcp = false) (config : DnsResolverConfig) (nowMs startServer : Int)
    (active : (newDriver operation config nowMs startServer "").done = false) :
    Tracking config [] (newDriver operation config nowMs startServer "") := by
  unfold newDriver at active ⊢
  dsimp only at active ⊢
  rw [if_neg (by decide)] at active ⊢
  split at active
  · cases active
  · rename_i servers
    rw [if_neg servers]
    refine ⟨waiting, fun _ => rfl, rfl, fun configured => ⟨plain, ?_⟩, by simp,
      fun configured protocol => ?_, fun _ useTcp => ?_⟩
    · change config.protocol = .tcp
      simp [DnsResolverConfig.protocol, configured]
    · change config.protocol = .tcp at protocol
      simp [DnsResolverConfig.protocol, configured] at protocol
    · cases plain.symm.trans useTcp

/-- A driver in its receive state agrees with its operation on the framing, so that an answer
resolves the operation, exactly when the configuration does not ask for TCP and no attempt has been
begun since a truncated reply made the operation go over to TCP. The condition is on the
configuration and on the states that the driver went through, not on the reply. Nothing is assumed
about the network, the clock, the policy or the cache. What is assumed is that the operation was
created. -/
theorem framing_agrees (case : CaseMapping) (queryId : Int) (name : Text) (qtype deadlineMs : Int)
    (cache : DnsCache)
    (policy : DnsAddressPolicy) (operation : ResolveOperation) (config : DnsResolverConfig)
    (nowMs startServer : Int) (events : List DriverEvent)
    (created : newOperation case queryId name qtype deadlineMs cache policy = .ok operation) :
    let start := newDriver operation config nowMs startServer ""
    let driver := runDriver case start events
    driver.done = false → driver.state = .receiving →
      (Agrees driver ∧ Completes case driver ↔
        config.useTcp = false ∧
          ∀ earlier ∈ driversOf case start events, earlier.operation.useTcp = true →
            earlier.attempt = driver.attempt) := by
  intro start driver active state
  obtain ⟨waiting, plain⟩ := newOperation_waiting created
  have sound := newDriver_sound operation config nowMs startServer ""
  have tracking : Tracking config (driversOf case start events) driver :=
    Tracking.runs sound (newDriver_tracking waiting plain config nowMs startServer) events active
  have final : Sound driver := (sound.runs events).1
  have receiving : Receiving driver := ⟨tracking.waiting, active, state, final.deadline active⟩
  constructor
  · rintro ⟨agrees, -⟩
    exact tracking.agrees.mp agrees
  · intro condition
    have agrees := tracking.agrees.mpr condition
    exact ⟨agrees, agrees.completes receiving tracking.fresh⟩

/-- A resolver with one server. -/
def oneServer (useTcp : Bool) : DnsResolverConfig :=
  { servers := [⟨"9.9.9.9".toList, 53⟩], useTcp, accepted := by decide }

/-- The operation that asks for the address of `a.b` with the identifier 7. -/
def askAb : ResolveOperation where
  queryId := 7
  name := "a.b".toList
  qtype := 1
  deadlineMs := 5000
  cache := { limits := { accepted := by decide } }
  policy := {}
  query := [0, 7, 1, 0, 0, 1, 0, 0, 0, 0, 0, 0, 1, 97, 1, 98, 0, 0, 1, 0, 1]

/-- A transport that does what it is asked for, and has the given bytes of the server. -/
def ready (data : Bytes) (count : Int) : Transport where
  opens := { status := .ok, handle := 5 }
  connects := some { status := .ok }
  sends := some { status := .ok, count }
  receives := some { status := .ok, data, peer := .server ⟨"9.9.9.9".toList, 53⟩ }
  unopened := by simp

/-- The steps that bring a driver into its receive state. -/
def askSteps (count : Int) : List DriverEvent :=
  [.step 1 (ready [] count), .step 2 (ready [] count), .step 3 (ready [] count)]

/-- The answer of the server: `a.b` is 8.8.8.8. -/
def abReply : Bytes :=
  [0, 7, 0x81, 0x80, 0, 1, 0, 1, 0, 0, 0, 0, 1, 97, 1, 98, 0, 0, 1, 0, 1, 192, 12, 0, 1, 0, 1, 0, 0,
    0, 60, 0, 4, 8, 8, 8, 8]

def abAnswer : DnsAnswer where
  name := "a.b".toList
  qtype := 1
  data := "8.8.8.8".toList
  ttl := 60
  owner := ["a".toList, "b".toList]

theorem abReply_answers : Answered latin1Mapping askAb abReply ["8.8.8.8".toList] := by
  refine ⟨⟨{ queryId := 7, truncated := false, rcode := 0, answers := [abAnswer] },
    ["8.8.8.8".toList], 60, ?_, rfl, nofun, ?_, ?_⟩, by simp⟩
  · decide
  · decide
  · decide

/-- Over UDP the answer resolves the operation. -/
theorem framing_agrees_udp :
    let driver := runDriver latin1Mapping (newDriver askAb (oneServer false) 0 0 "") (askSteps 21)
    Agrees driver ∧ Completes latin1Mapping driver := by
  refine (framing_agrees latin1Mapping 7 "a.b".toList 1 5000 { limits := { accepted := by decide } }
    {} askAb (oneServer false) 0 0 (askSteps 21)
    rfl (by decide) (by decide)).mpr ⟨rfl, ?_⟩
  decide

/-- A driver that is configured for TCP gets the answer in a frame, and does not take it. -/
theorem framed_reply_refused :
    let driver := runDriver latin1Mapping (newDriver askAb (oneServer true) 0 0 "") (askSteps 23)
    driver.done = false ∧ driver.state = .receiving ∧ ¬ Agrees driver ∧
      ¬ Completes latin1Mapping driver := by
  intro driver
  refine ⟨by decide, by decide, ?_, fun completes => ?_⟩
  · have useTcp : driver.operation.useTcp = false := by decide
    have protocol : driver.protocol = .tcp := by decide
    simp [Agrees, useTcp, protocol]
  · have delivered : Delivered latin1Mapping driver [(4, ready (frame abReply) 0)] [frame abReply] := by
      refine .brings (by decide) ⟨_, rfl, rfl, rfl, by decide, by decide,
        .inl (by decide)⟩ .none
    have resolved := completes abReply ["8.8.8.8".toList] _ _ abReply_answers ⟨by decide,
      by decide, by decide, by decide⟩ delivered
    have done : (runDriver latin1Mapping driver (stepEvents [(4, ready (frame abReply) 0)])).done =
        false := by decide
    cases done.symm.trans resolved.done

end Dns
end PccGateway
