import PccGateway.Server.RunFrame

namespace PccGateway
namespace GatewayConnection
open Thread Method

/-- Reservations that the pool gave to an attempt, fresh or with an idle connection. -/
def leases (added : List Entry) : Nat := added.countP fun entry => entry matches .leased _

/-- Connections that went to the idle list, with their lease. -/
def idles (added : List Entry) : Nat := added.countP fun entry => entry matches .idle _

/-- What an attempt still has to give back after the entries `added`: its upstream admissions, the
reservation that it holds, and a handle that is not the pool's yet, `true` while its connect loop
runs. -/
structure Owes (added : List Entry) (admissions : Nat) (pooled : Option Int)
    (hand : Option (Int × Bool)) : Prop where
  admitted : added.count (.admitted .upstream) = added.count (.released .upstream) + admissions
  handles : ∀ handle, 0 ≤ handle → added.count (.opened handle) + added.count (.leased handle) =
    added.count (.closed handle) + added.count (.idle handle) + (if pooled = some handle then 1 else 0) +
      if hand.map (·.1) = some handle then 1 else 0
  connects : ∀ handle, added.count (.opened handle) =
    added.count (.connectOver handle) + if hand = some (handle, true) then 1 else 0
  returned : leases added = added.count .returned + if pooled.isSome then 1 else 0
  leased : leases added = added.count .unleased + idles added + if pooled.isSome then 1 else 0
  valid : ∀ handle connecting, hand = some (handle, connecting) → 0 ≤ handle

/-- What an attempt can do about that, and the entries it writes. -/
inductive Deal : Nat → Option Int → Option (Int × Bool) → List Entry → Nat → Option Int →
    Option (Int × Bool) → Prop
  | grant {admissions pooled hand} :
      Deal admissions pooled hand [.admitted .upstream] (admissions + 1) pooled hand
  | release {admissions pooled hand} :
      Deal (admissions + 1) pooled hand [.released .upstream] admissions pooled hand
  | lease {admissions hand handle} :
      Deal admissions none hand [.leased handle] admissions (some handle) hand
  | connect {admissions pooled handle} (valid : 0 ≤ handle) :
      Deal admissions pooled none [.opened handle] admissions pooled (some (handle, true))
  | connectOver {admissions pooled handle} :
      Deal admissions pooled (some (handle, true)) [.connectOver handle] admissions pooled
        (some (handle, false))
  | close {admissions pooled handle} :
      Deal admissions pooled (some (handle, false)) [.closed handle] admissions pooled none
  | opened {admissions reserved handle} (fresh : reserved < 0) :
      Deal admissions (some reserved) (some (handle, false)) [] admissions (some handle) none
  | refuse {admissions reserved hand} (fresh : reserved < 0) :
      Deal admissions (some reserved) hand [.returned, .unleased] admissions none hand
  | idle {admissions handle hand} :
      Deal admissions (some handle) hand [.returned, .idle handle] admissions none hand
  | discard {admissions handle hand} :
      Deal admissions (some handle) hand [.returned, .unleased, .closed handle] admissions none hand

/-- The entries that count. -/
def leaseLog (added : List Entry) : List Entry :=
  added.filter fun entry => entry.kind = .lease ∨ entry.kind = .reuse

@[simp] theorem leaseLog_append (added more : List Entry) :
    leaseLog (added ++ more) = leaseLog added ++ leaseLog more :=
  List.filter_append ..

theorem leaseLog_quiet {more : List Entry}
    (kinds : ∀ entry ∈ more, ¬ (entry.kind = .lease ∨ entry.kind = .reuse)) :
    leaseLog more = [] :=
  List.filter_eq_nil_iff.mpr fun entry member lease => kinds entry member (by simpa using lease)

theorem count_leaseLog (added : List Entry) {entry : Entry}
    (lease : entry.kind = .lease ∨ entry.kind = .reuse) :
    (leaseLog added).count entry = added.count entry := List.count_filter (by simpa using lease)

theorem leases_leaseLog (added : List Entry) : leases (leaseLog added) = leases added := by
  unfold leases leaseLog
  rw [List.countP_filter]
  refine List.countP_congr fun entry _ => ?_
  cases entry <;> simp [Entry.kind]

theorem idles_leaseLog (added : List Entry) : idles (leaseLog added) = idles added := by
  unfold idles leaseLog
  rw [List.countP_filter]
  refine List.countP_congr fun entry _ => ?_
  cases entry <;> simp [Entry.kind]

theorem Owes.deal {added more : List Entry} {admissions admissions' : Nat} {pooled pooled' : Option Int}
    {hand hand' : Option (Int × Bool)} (owes : Owes added admissions pooled hand)
    (deal : Deal admissions pooled hand more admissions' pooled' hand') :
    Owes (added ++ more) admissions' pooled' hand' := by
  obtain ⟨admitted, handles, connects, returned, leased, valid⟩ := owes
  cases deal <;> refine ⟨?_, ?_, ?_, ?_, ?_, ?_⟩ <;>
    simp only [leases, idles, List.count_append, List.countP_append, List.count_cons, List.count_nil,
      List.countP_cons, List.countP_nil] at * <;> grind

/-- The effects that neither take an upstream nor give one back. -/
def unleasing (effect : Effect) : Prop := effect ≠ .pooled ∧ effect ≠ .entry .lease ∧ effect ≠ .entry .reuse

theorem serving_le_unleasing : serving ≤ unleasing := by
  intro effect allowed
  refine ⟨?_, ?_, ?_⟩ <;>
  · rintro rfl
    exact allowed

theorem relaying_le_unleasing : relaying ≤ unleasing := by
  intro effect allowed
  refine ⟨?_, ?_, ?_⟩ <;>
  · rintro rfl
    exact allowed

/-- What an attempt owes for the entries since `start`. -/
def Owing (start : List Entry) (admissions : Nat) (pooled : Option Int) (hand : Option (Int × Bool))
    (connection : GatewayConnection) : Prop :=
  ∃ added, connection.trace = start ++ added ∧ Owes (leaseLog added) admissions pooled hand

theorem Owing.of_trace {start : List Entry} {admissions : Nat} {pooled : Option Int}
    {hand : Option (Int × Bool)}
    {before after : GatewayConnection} (owing : Owing start admissions pooled hand before)
    (more : List Entry)
    (grown : after.trace = before.trace ++ more) {admissions' : Nat} {pooled' : Option Int}
    {hand' : Option (Int × Bool)}
    (deal : Deal admissions pooled hand (leaseLog more) admissions' pooled' hand' ∨
      leaseLog more = [] ∧ admissions' = admissions ∧ pooled' = pooled ∧ hand' = hand) :
    Owing start admissions' pooled' hand' after := by
  obtain ⟨added, trace, owes⟩ := owing
  refine ⟨added ++ more, by rw [grown, trace, List.append_assoc], ?_⟩
  rw [leaseLog_append]
  rcases deal with deal | ⟨none, rfl, rfl, rfl⟩
  · exact owes.deal deal
  · rw [none, List.append_nil]
    exact owes

theorem Owing.of_moves {start : List Entry} {admissions : Nat} {pooled : Option Int}
    {hand : Option (Int × Bool)} {before after : GatewayConnection} {E : Effect → Prop}
    (quiet : ¬ E (.entry .lease) ∧ ¬ E (.entry .reuse)) (moves : Moves E before after)
    (owing : Owing start admissions pooled hand before) : Owing start admissions pooled hand after := by
  obtain ⟨more, grown, kinds⟩ := moves.trace
  refine owing.of_trace more grown (.inr ⟨leaseLog_quiet fun entry member counts => ?_, rfl, rfl, rfl⟩)
  rcases counts with lease | reuse
  · exact quiet.1 (lease ▸ kinds entry member)
  · exact quiet.2 (reuse ▸ kinds entry member)

/-- What a running attempt owes: an admission, its reservation, and the handle in its hand. -/
structure Leasing (start : List Entry) (hand : Option (Int × Bool)) (connection : GatewayConnection) :
    Prop where
  owing : Owing start 1 (connection.pooled.map (·.handle)) hand connection
  usable : ∀ pooled, connection.pooled = some pooled → pooled.released = false

theorem Leasing.of_moves {start : List Entry} {hand : Option (Int × Bool)}
    {before after : GatewayConnection}
    (moves : Moves unleasing before after) (leasing : Leasing start hand before) :
    Leasing start hand after := by
  have same := moves.pooled.resolve_left (by simp [unleasing])
  exact ⟨same ▸ leasing.owing.of_moves (by simp [unleasing]) moves, same ▸ leasing.usable⟩

/-- An exception: the handle in hand, if any, was in its connect loop. -/
def Unsettled (start : List Entry) (connection : GatewayConnection) : Prop :=
  ∃ hand, Leasing start hand connection ∧ ∀ handle, hand ≠ some (handle, false)

section Acquiring
variable (world : World) (fuel : Nat) {start : List Entry} {connection : GatewayConnection}

/-- A call between two deals. -/
theorem leasing_bind {α β : Type} {hand : Option (Int × Bool)} {call : Call β} {next : β → Call α}
    {ok : α → GatewayConnection → Prop} (moves : Evolves (Moves unleasing) call)
    (leasing : Leasing start hand connection) (connecting : ∀ handle, hand ≠ some (handle, false))
    (later : ∀ b after, Moves unleasing connection after → Leasing start hand after →
      Ends (next b) after ok (fun _ => Unsettled start)) :
    Ends (call >>= next) connection ok (fun _ => Unsettled start) := by
  rw [ends_bind]
  refine moves.ends.mono (fun b after moved => later b after moved (leasing.of_moves moved)) fun _
    after moved => ?_
  exact ⟨hand, leasing.of_moves moved, connecting⟩

/-- An entry is written, and the reservation stays. -/
theorem leasing_note {α : Type} {hand hand' : Option (Int × Bool)} {entry : Entry} {next : Unit → Call α}
    {ok : α → GatewayConnection → Prop} {bad : Halt Exn → GatewayConnection → Prop}
    (leasing : Leasing start hand connection)
    (deal : Deal 1 (connection.pooled.map (·.handle)) hand (leaseLog [entry]) 1
      (connection.pooled.map (·.handle)) hand')
    (later : ∀ after, after.pooled = connection.pooled → Leasing start hand' after →
      Ends (next ()) after ok bad) :
    Ends (note entry >>= next) connection ok bad := by
  refine later _ rfl ⟨leasing.owing.of_trace [entry] rfl (.inl deal), leasing.usable⟩

theorem carries_unleasing :
    Carries world unleasing (Moves unleasing) := carries_moves world serving_le_unleasing

theorem closeUpstream_leasing {handle : Int} (leasing : Leasing start (some (handle, false)) connection) :
    Ends (closeUpstream world handle) connection
      (fun _ after => after.pooled = connection.pooled ∧ Leasing start none after)
      (fun _ => Unsettled start) := by
  refine leasing_note leasing .close fun c kept leasing => ?_
  refine (ask_moves world World.close).ends.mono (fun _ after moved => ⟨?_, leasing.of_moves moved⟩)
    fun _ after moved => ?_
  · exact (moved.pooled.resolve_left (by simp [unleasing])).trans kept
  · exact ⟨none, leasing.of_moves moved, nofun⟩

/-- The handle that the address loop gives is in hand, and it is nobody else's. -/
theorem openAddresses_leasing (id : Nat) (addresses : List Text) (leasing : Leasing start none connection) :
    Ends (openAddresses world fuel id addresses) connection
      (fun opened after => after.pooled = connection.pooled ∧ (opened.2.isSome → opened.1 < 0) ∧
        Leasing start (if 0 ≤ opened.1 then some (opened.1, false) else none) after)
      (fun _ => Unsettled start) := by
  induction addresses generalizing connection with
  | nil => exact ⟨rfl, fun _ => by decide, leasing⟩
  | cons address rest ih =>
    refine leasing_bind (proxyDeadlineFailure_moves id) leasing nofun fun failure c moved leasing => ?_
    have kept {middle : GatewayConnection} (moves : Moves unleasing connection middle) :
        middle.pooled = connection.pooled :=
      moves.pooled.resolve_left (by simp [unleasing])
    cases failure with
    | some failure => exact ⟨kept moved, fun _ => by simp, leasing⟩
    | none =>
      refine leasing_bind (ask_moves world _) leasing nofun fun handle c' moved' leasing => ?_
      have same := kept (moved.trans moved')
      have again {c : GatewayConnection} (same : c.pooled = connection.pooled)
          (leasing : Leasing start none c) :
          Ends (openAddresses world fuel id rest) c
            (fun opened after => after.pooled = connection.pooled ∧ (opened.2.isSome → opened.1 < 0) ∧
              Leasing start (if 0 ≤ opened.1 then some (opened.1, false) else none) after)
            (fun _ => Unsettled start) := same ▸ ih leasing
      refine .ite (fun _ => again same leasing) fun valid => ?_
      refine leasing_note leasing (.connect (Int.not_lt.mp valid)) fun c kept' leasing => ?_
      refine leasing_bind (connectLoop_carried (carries_unleasing world)
        (observing_le_relaying.trans relaying_le_unleasing) fuel id) leasing nofun
        fun connected c' moved' leasing => ?_
      have same := ((moved'.pooled.resolve_left (by simp [unleasing])).trans kept').trans same
      refine leasing_note leasing .connectOver fun c kept' leasing => ?_
      refine .ite (fun _ => ⟨kept'.trans same, nofun, ?_⟩) fun _ => ?_
      · rw [if_pos (Int.not_lt.mp valid)]
        exact leasing
      · rw [ends_bind]
        refine (closeUpstream_leasing world leasing).mono (fun _ last closed => ?_) fun _ _ owed => owed
        obtain ⟨kept'', leasing⟩ := closed
        have same := (kept''.trans kept').trans same
        cases failed : connected.2 with
        | some failure => exact ⟨same, fun _ => by simp, leasing⟩
        | none => exact again same leasing

theorem openReservation_leasing (id : Nat) {pooled : PooledUpstreamConnection}
    (reserved : connection.pooled = some pooled)
    (fresh : pooled.handle < 0) (leasing : Leasing start none connection) :
    Ends (openReservation world fuel pooled id) connection (fun _ => Leasing start none)
      (fun _ => Unsettled start) := by
  have usable : pooled.released = false := leasing.usable pooled reserved
  refine leasing_bind (candidateAddresses_carried (carries_unleasing world)
    (observing_le_relaying.trans relaying_le_unleasing) fuel _ id) leasing nofun
    fun found c moved leasing => ?_
  have held := (moved.pooled.resolve_left (by simp [unleasing])).trans reserved
  obtain ⟨addresses, failure⟩ := found
  cases failure with
  | some failure => exact leasing
  | none =>
    rw [ends_bind]
    refine (openAddresses_leasing world fuel id addresses leasing).mono (fun opened c' facts => ?_)
      fun _ _ owed => owed
    obtain ⟨kept, refused, leasing⟩ := facts
    have held := kept.trans held
    obtain ⟨handle, failure⟩ := opened
    cases failure with
    | some failure =>
      rw [if_neg (Int.not_le.mpr (refused rfl))] at leasing
      exact leasing
    | none =>
      have owing := leasing.owing
      rw [held] at owing
      show Ends (poolOpened world pooled handle >>= _) c' _ _
      unfold poolOpened
      by_cases failed : handle < 0
      · rw [if_pos failed]
        rw [if_neg (Int.not_le.mpr failed)] at owing
        exact ⟨owing.of_trace [.returned, .unleased] (List.append_assoc ..) (.inl (.refuse fresh)), nofun⟩
      · rw [if_neg failed, if_neg (by simp [usable, fresh])]
        rw [if_pos (Int.not_lt.mp failed)] at owing
        refine ⟨owing.of_trace [] (List.append_nil _).symm (.inl (.opened fresh)), ?_⟩
        rintro _ ⟨⟩
        exact usable

theorem awaitConnected_leasing (id : Nat) {pooled : PooledUpstreamConnection}
    (reserved : connection.pooled = some pooled) (leasing : Leasing start none connection) :
    Ends (awaitConnected world fuel pooled id) connection (fun _ => Leasing start none)
      (fun _ => Unsettled start) := by
  refine .ite (fun _ => leasing) fun _ => ?_
  refine leasing_bind (connectLoop_carried (carries_unleasing world)
    (observing_le_relaying.trans relaying_le_unleasing) fuel id) leasing nofun
    fun connected c moved leasing => ?_
  have held := (moved.pooled.resolve_left (by simp [unleasing])).trans reserved
  obtain ⟨outcome, failure⟩ := connected
  cases failure with
  | some failure => exact leasing
  | none =>
    refine .ite (fun _ => leasing) fun _ => ?_
    have owing := leasing.owing
    rw [held] at owing
    refine ⟨owing, ?_⟩
    rintro _ ⟨⟩
    exact leasing.usable pooled held

theorem acquireUpstream_leasing (id : Nat) (unreserved : connection.pooled = none)
    (leasing : Leasing start none connection) :
    Ends (acquireUpstream world fuel id) connection (fun _ => Leasing start none)
      (fun _ => Unsettled start) := by
  refine leasing_bind (ask_moves world _) leasing nofun fun saturated c moved leasing => ?_
  refine leasing_bind (nowMs_moves world) leasing nofun fun now c' moved' leasing => ?_
  refine leasing_bind (ask_moves world _) leasing nofun fun reserved c'' moved'' leasing => ?_
  have idle :=
    (((moved.trans moved').trans moved'').pooled.resolve_left (by simp [unleasing])).trans unreserved
  cases reserved with
  | none => exact leasing
  | some reserved =>
    have owing := leasing.owing
    rw [idle] at owing
    have taken : Leasing start none { c'' with
        trace := c''.trace ++ [.leased reserved.handle]
        pooled := some { reserved with released := false } } := by
      refine ⟨owing.of_trace [_] rfl (.inl .lease), ?_⟩
      rintro _ ⟨⟩
      rfl
    refine .ite (fun fresh => ?_) fun _ => ?_
    · exact openReservation_leasing world fuel id rfl fresh taken
    · exact awaitConnected_leasing world fuel id rfl taken

theorem exchangeOnce_leasing (plan : ProxyPlan) (id : Nat) (unreserved : connection.pooled = none)
    (leasing : Leasing start none connection) :
    Ends (exchangeOnce world fuel plan id) connection (fun _ => Leasing start none)
      (fun _ => Unsettled start) := by
  have carries := carries_unleasing world
  have body : unleasing (.entry .body) := by simp [unleasing]
  have response : unleasing .response := by simp [unleasing]
  have entries : unleasing (.entry .response) := by simp [unleasing]
  have timed {change : GatewayConnection → ProxyDeadline} : Evolves (Moves unleasing)
      (modify fun connection => { connection with deadline := change connection }) :=
    .modify fun connection => { Moves.still connection with deadline := .inl (by simp [unleasing]) }
  unfold exchangeOnce
  rw [ends_bind]
  refine (acquireUpstream_leasing world fuel id unreserved leasing).mono
    (fun acquired c leasing => ?_) fun _ _ owed => owed
  cases acquired with
  | error failure => exact leasing
  | ok pooled =>
    have receives : Evolves (Moves unleasing)
        (loop (fun _ => receivePass world fuel pooled.handle id) fuel ()) :=
      .loop (fun _ => receivePass_carried carries (delivering_le_relaying.trans relaying_le_unleasing)
        fuel response entries _ id)
        fuel ()
    refine Ends.mono (Evolves.ends (R := Moves unleasing) ?_) (fun _ after moved => leasing.of_moves moved)
      fun _ after moved => ⟨none, leasing.of_moves moved, by simp⟩
    refine .bind (sendRequest_carried carries relaying_le_unleasing body fuel response plan pooled id)
      fun failure => ?_
    split
    · exact .bind exchangeView_moves fun _ => .pure _
    · refine .bind (nowMs_moves world) fun now => .bind timed fun _ => .bind receives fun result => ?_
      split
      · exact .pure _
      · exact .bind timed fun _ => .bind exchangeView_moves fun _ => .pure _

theorem ask_trace {α : Type} (answer : World → Nat → Except Exn α) :
    Evolves (fun before after => after.trace = before.trace) (ask world answer) := fun connection => by
  unfold ask
  cases answer world connection.tick <;> rfl

/-- The reservation goes back, unless the clock raises before. -/
theorem releasePooled_owing {hand : Option (Int × Bool)} (reusable : Bool)
    (leasing : Leasing start hand connection) :
    Ends (releasePooled world reusable) connection
      (fun _ after => ∃ pooled, Owing start 1 pooled hand after)
      (fun _ after => ∃ pooled, Owing start 1 pooled hand after) := by
  unfold releasePooled
  rw [get_bind]
  have owing := leasing.owing
  cases held : connection.pooled with
  | none => exact ⟨_, owing⟩
  | some pooled =>
    rw [held] at owing
    refine .ite (fun _ => ⟨_, owing⟩) fun _ => ?_
    rw [ends_bind]
    have quiet : ¬ unleasing (.entry .lease) ∧ ¬ unleasing (.entry .reuse) := by simp [unleasing]
    refine (nowMs_moves world).ends.mono (fun _ c moved => ?_) fun _ c moved =>
      ⟨_, owing.of_moves quiet moved⟩
    have owing := owing.of_moves quiet moved
    rw [note, modify_bind, ends_bind]
    show Ends _ (ask world (fun world tick => .ok (world.poolRoom tick)) _).1 _ _
    have asked := ask_trace world (fun world tick => .ok (world.poolRoom tick))
      { c with trace := c.trace ++ [.returned] }
    revert asked
    generalize (ask world (fun world tick => .ok (world.poolRoom tick))
      { c with trace := c.trace ++ [.returned] }).1 = c'
    intro asked
    refine .ite (fun _ => ⟨none, ?_⟩) fun _ => ?_
    · exact owing.of_trace [.returned, .idle pooled.handle] (by simp [asked]) (.inl .idle)
    · rw [setPooled, modify_bind, note, modify_bind]
      refine ends_when (fun valid => ?_) fun negative => ⟨none, ?_⟩
      · have closed {after : GatewayConnection}
          (same : after.trace = c'.trace ++ [.unleased] ++ [.closed pooled.handle]) :
            ∃ pooled, Owing start 1 pooled hand after :=
          ⟨none, owing.of_trace [.returned, .unleased, .closed pooled.handle] (by simp [same, asked])
            (.inl .discard)⟩
        unfold closeUpstream
        rw [note, modify_bind]
        exact (ask_trace world World.close).ends.mono (fun _ _ same => closed same) fun _ _ same =>
          closed same
      · exact owing.of_trace [.returned, .unleased] (by simp [asked])
          (.inl (.refuse (Int.not_le.mp negative)))

/-- What may be left when an attempt is over: a reservation, and a handle in its connect loop. -/
def Remains (start : List Entry) (admissions : Nat) (connection : GatewayConnection) : Prop :=
  ∃ pooled hand, Owing start admissions pooled hand connection ∧ ∀ handle, hand ≠ some (handle, false)

theorem recoverProtocol_yields (outcome : Except Exn (AttemptResult × Bool)) :
    Yields (recoverProtocol outcome) connection (· = connection) := by
  unfold recoverProtocol
  split <;> exact rfl

/-- The `finally` of an attempt. -/
theorem releaseAttempt_remains (reusable : Bool) (unsettled : Unsettled start connection) :
    Concludes (settle [
      when connection.exchange.isSome (onExchange world (ProxyExchange.cancel "attempt complete")),
      releasePooled world reusable,
      release .upstream]) connection (Remains start 0) := by
  have cancels : Evolves (Moves unleasing)
      (when connection.exchange.isSome (onExchange world (ProxyExchange.cancel "attempt complete"))) :=
    .when (onExchange_moves (by simp [unleasing]) (by simp [unleasing])
      (.inr (ProxyExchange.cancel_reception _)))
  have unsettled' {after : GatewayConnection} (moves : Moves unleasing connection after) :
      Unsettled start after := by
    obtain ⟨hand, leasing, connecting⟩ := unsettled
    exact ⟨hand, leasing.of_moves moves, connecting⟩
  refine concludes_settle_cons (cancels.concludes.mono fun _ => unsettled') fun c unsettled => ?_
  refine concludes_settle_cons (P := Remains start 1) ?_ fun c remains => ?_
  · obtain ⟨hand, leasing, connecting⟩ := unsettled
    have kept {after : GatewayConnection} (owed : ∃ pooled, Owing start 1 pooled hand after) :
        Remains start 1 after :=
      owed.elim fun pooled owing => ⟨pooled, hand, owing, connecting⟩
    exact (releasePooled_owing world reusable leasing).mono (fun _ _ owed => kept owed) fun _ _
      owed _ _ => kept owed
  · obtain ⟨pooled, hand, owing, connecting⟩ := remains
    refine concludes_settle_cons (P := Remains start 0) ?_ fun _ => concludes_settle_nil
    exact ⟨pooled, hand, owing.of_trace [.released .upstream] rfl (.inl .release), connecting⟩

theorem admitUpstream_owing {pooled : Option Int} {hand : Option (Int × Bool)}
    (owing : Owing start 0 pooled hand connection) :
    Ends (grant world World.admitUpstream .upstream) connection
      (fun admitted after => after.pooled = connection.pooled ∧
      Owing start (if admitted then 1 else 0) pooled hand after) (fun _ _ => False) := by
  unfold grant
  have moved : Moves unleasing connection (ask world (fun world tick =>
      .ok (world.admitUpstream tick)) connection).1 :=
    ask_moves world _ connection
  rw [ends_bind]
  show Ends _ (ask world (fun world tick => .ok (world.admitUpstream tick)) connection).1 _ _
  have owing := owing.of_moves (by simp [unleasing]) moved
  have same := moved.pooled.resolve_left (by simp [unleasing])
  cases world.admitUpstream connection.tick with
  | false => exact ⟨same, owing⟩
  | true => exact ⟨same, owing.of_trace [.admitted .upstream] rfl (.inl .grant)⟩

theorem proxyExchangeAttempt_remains (plan : ProxyPlan) (id number : Nat) (connection : GatewayConnection) :
    Concludes (proxyExchangeAttempt world fuel plan id number) connection (Remains connection.trace 0) := by
  unfold proxyExchangeAttempt
  have fresh : Owing connection.trace 0 none none
      { connection with trace := connection.trace ++ [.attempt number] } :=
    ⟨[.attempt number], rfl, rfl, fun _ _ => rfl, fun _ => rfl, rfl, rfl, (by simp)⟩
  have quiet : ¬ unleasing (.entry .lease) ∧ ¬ unleasing (.entry .reuse) := by simp [unleasing]
  rw [concludes_bind]
  show Concludes (nowMs world >>= _) _ _
  rw [concludes_bind]
  refine (nowMs_moves world).ends.mono (fun now c moved => ?_) fun _ c moved _ _ =>
    ⟨none, none, fresh.of_moves quiet moved, (by simp)⟩
  have fresh := fresh.of_moves quiet moved
  rw [concludes_bind]
  show Concludes (grant world World.admitUpstream .upstream >>= _) _ _
  rw [concludes_bind]
  have started : Owing connection.trace 0 none none
      { c with deadline := ProxyDeadline.init plan.spec.timeouts now, pooled := none, exchange :=
        none } := fresh
  refine (admitUpstream_owing world started).mono (fun admitted c' facts => ?_) fun _ _ => False.elim
  obtain ⟨unreserved, owing⟩ := facts
  cases admitted with
  | false => exact ⟨none, none, owing, (by simp)⟩
  | true =>
    have leasing : Leasing connection.trace none c' := by
      refine ⟨?_, fun pooled held => ?_⟩
      · rw [unreserved]
        exact owing
      · rw [unreserved] at held
        cases held
    have cleanup {c : GatewayConnection} (outcome : Except Exn (AttemptResult × Bool))
        (unsettled : Unsettled connection.trace c) :
        Concludes (concludeAttempt world outcome) c (Remains connection.trace 0) := by
      unfold concludeAttempt
      refine (recoverProtocol_yields outcome).bind fun outcome c same => ?_
      subst same
      refine concludes_settle_bind (releaseAttempt_remains world _ unsettled) fun error c remains => ?_
      cases outcome with
      | error primary => exact fun _ _ => remains
      | ok result =>
        cases error with
        | none => exact remains
        | some error => exact fun _ _ => remains
    show Concludes (attempt _ >>= _) _ _
    rw [concludes_bind, ends_attempt]
    refine (exchangeOnce_leasing world fuel plan id unreserved leasing).mono
      (fun result c leasing => cleanup _ ⟨none, leasing, (by simp)⟩) fun halt c unsettled => ?_
    cases halt with
    | raised error => exact cleanup _ unsettled
    | parked => exact fun _ => by simp
    | unfinished => exact fun _ => by simp

end Acquiring

/-- Every handle was closed or is idle, once, and so it is with the lease; the admission was released. -/
def Restored (added : List Entry) : Prop :=
  (∀ handle, 0 ≤ handle →
    added.count (.opened handle) + added.count (.leased handle) = added.count (.closed handle) +
      added.count (.idle handle)) ∧
  leases added = added.count .unleased + idles added ∧
  added.count (.admitted .upstream) = added.count (.released .upstream)

/-- What is left over is the reservation and the handle that an exception took out of the attempt's
hands. -/
theorem Owes.restored_iff {added : List Entry} {pooled : Option Int} {hand : Option (Int × Bool)}
    (owes : Owes added 0 pooled hand) (connecting : ∀ handle, hand ≠ some (handle, false)) :
    Restored added ↔ (∀ handle, added.count (.opened handle) = added.count (.connectOver handle)) ∧
      leases added = added.count .returned := by
  obtain ⟨admitted, handles, connects, returned, leased, valid⟩ := owes
  constructor
  · rintro ⟨handles', leased', -⟩
    have unreserved : pooled.isSome = false := by
      by_contra reserved
      rw [leased', if_pos (eq_true_of_ne_false reserved)] at leased
      omega
    refine ⟨fun handle => ?_, ?_⟩
    · rw [connects handle]
      by_cases hangs : hand = some (handle, true)
      · have one := handles handle (valid handle true hangs)
        have none : pooled ≠ some handle := fun held => by simp [held] at unreserved
        have balanced := handles' handle (valid handle true hangs)
        rw [if_neg none, hangs] at one
        simp only [Option.map_some, if_true] at one
        omega
      · rw [if_neg hangs]
        rfl
    · rw [returned, if_neg (by simp [unreserved])]
      rfl
  · rintro ⟨connected, returned'⟩
    have unreserved : pooled = none := by
      by_contra reserved
      rw [returned', if_pos (Option.isSome_iff_ne_none.mpr reserved)] at returned
      omega
    have idle : hand = none := by
      rcases hand with _ | ⟨handle, _ | _⟩
      · rfl
      · exact absurd rfl (connecting handle)
      · have one := connects handle
        rw [connected handle, if_pos rfl] at one
        omega
    subst unreserved idle
    exact ⟨handles, leased, admitted⟩

theorem Owes.of_leaseLog {added : List Entry} {admissions : Nat} {pooled : Option Int}
    {hand : Option (Int × Bool)}
    (owes : Owes (leaseLog added) admissions pooled hand) : Owes added admissions pooled hand := by
  have counts {entry : Entry} (lease : entry.kind = .lease ∨ entry.kind = .reuse) :
      added.count entry = (leaseLog added).count entry := (count_leaseLog added lease).symm
  refine ⟨?_, fun handle valid => ?_, fun handle => ?_, ?_, ?_, owes.valid⟩
  · rw [counts (.inl rfl), counts (.inl rfl)]
    exact owes.admitted
  · rw [counts (.inl rfl), counts (.inl rfl), counts (.inl rfl), counts (.inr rfl)]
    exact owes.handles handle valid
  · rw [counts (.inl rfl), counts (.inl rfl)]
    exact owes.connects handle
  · rw [← leases_leaseLog, counts (.inl rfl)]
    exact owes.returned
  · rw [← leases_leaseLog, ← idles_leaseLog, counts (.inl rfl)]
    exact owes.leased

/-- An attempt gives back what it took exactly when no exception left a connect loop, and none kept
the reservation from the pool's `release`. Both sides of the equivalence are read off the trace of
the attempt, whatever it ends with. Nothing is assumed about the state in which it begins, the
world, the pool or the plan. Only an attempt whose fuel runs out is left aside. -/
theorem upstream_restored_iff (world : World) (fuel : Nat) (plan : ProxyPlan) (id number : Nat)
    (connection : GatewayConnection) :
    Concludes (proxyExchangeAttempt world fuel plan id number) connection (fun after =>
      ∃ added, after.trace = connection.trace ++ added ∧
        (Restored added ↔ (∀ handle, added.count (.opened handle) = added.count (.connectOver handle)) ∧
          leases added = added.count .returned)) := by
  refine (proxyExchangeAttempt_remains world fuel plan id number connection).mono fun after remains => ?_
  obtain ⟨pooled, hand, ⟨added, grown, owes⟩, connecting⟩ := remains
  exact ⟨added, grown, owes.of_leaseLog.restored_iff connecting⟩

/-- A TLS client whose channel fails while its upstream connects. -/
def channelFails : World where
  dispatchProxyHead := fun _ => .ok (some { upstream := "app".toList })
  poolReserve := fun _ => .ok (some { handle := -1, endpoint := ⟨"app".toList, 80⟩ })
  openUpstream := fun _ => .ok 7
  connectObserve := fun _ => .ok .wouldBlock
  tlsRead := fun _ => .ok (.failed "bad record")

/-- The connection has a request to proxy, and its attempt raises with handle 7 open. -/
theorem upstream_not_restored :
    let connection := (feedData channelFails (ascii "GET / HTTP/1.1\r\nHost: a\r\n\r\n") 1
      { init {} with tls := true }).1
    let ended := proxyExchangeAttempt channelFails 1 { upstream := "app".toList } 0 1 connection
    let added := ended.1.trace.drop connection.trace.length
    connection.pendingProxy.map (·.2) = some 0 ∧ (ended.2 matches .error (.raised (.transport _))) ∧
      added.count (.opened 7) = 1 ∧
      added.count (.closed 7) = 0 ∧ added.count (.idle 7) = 0 ∧ ¬ Restored added := by
  intro connection ended added
  have opened : added.count (.opened 7) = 1 := by decide +kernel
  have closed : added.count (.closed 7) = 0 := by decide +kernel
  have idle : added.count (.idle 7) = 0 := by decide +kernel
  refine ⟨by decide +kernel, by decide +kernel, opened, closed, idle, fun restored => ?_⟩
  have even := restored.1 7 (by decide)
  omega

end GatewayConnection
end PccGateway
