import Mathlib.Algebra.Order.BigOperators.Group.List
import Mathlib.Algebra.Order.Group.Nat
import Mathlib.Logic.Relation
import PccGateway.Lib.Counting
import PccGateway.Server.Accounting

namespace PccGateway
open Thread Method Counting

/-- The part of a lifecycle that its connections and exchanges share: the gauge of buffered bytes. -/
structure Gateway where
  maxBufferedBytes : Nat
  buffered : Nat := 0
  connections : List GatewayConnection := []
  exchanges : List ProxyExchange := []

/-- The operations on the output of a connection. -/
inductive OutputCall where
  | queueBytes (data : Bytes)
  | consumeOutput (count : Int)
  | takeOutput (limit : Int)
  | close (reason : String)

def OutputCall.run (world : World) : OutputCall → GatewayConnection.Call Unit
  | .queueBytes data => GatewayConnection.queueBytes world data
  | .consumeOutput count => GatewayConnection.consumeOutput world count
  | .takeOutput limit => do
    let _ ← GatewayConnection.takeOutput world limit
    return ()
  | .close reason => GatewayConnection.close world reason

/-- The operations of an exchange. -/
inductive ExchangeCall where
  | feedRequestBody (data : Bytes) (isView : Bool)
  | finishRequest (trailers : List Header)
  | takeUpstream (limit : Int)
  | feedUpstream (data : Bytes)
  | upstreamEof
  | takeDownstream (limit : Int)
  | cancel (reason : String)

def ExchangeCall.run (call : ExchangeCall) (exchange : ProxyExchange) : ProxyExchange :=
  match call with
  | .feedRequestBody data isView => (ProxyExchange.feedRequestBody data isView exchange).1
  | .finishRequest trailers => (ProxyExchange.finishRequest trailers exchange).1
  | .takeUpstream limit => (ProxyExchange.takeUpstream limit exchange).1
  | .feedUpstream data => (ProxyExchange.feedUpstream data exchange).1
  | .upstreamEof => (ProxyExchange.upstreamEof exchange).1
  | .takeDownstream limit => (ProxyExchange.takeDownstream limit exchange).1
  | .cancel reason => (ProxyExchange.cancel reason exchange).1

namespace Gateway

def ledger (gateway : Gateway) : Ledger := ⟨gateway.buffered, gateway.maxBufferedBytes⟩

/-- An operation of one connection, on the shared gauge. -/
def onConnection (gateway : Gateway) (index : Nat) (connection : GatewayConnection)
    (call : GatewayConnection.Call Unit) : Gateway :=
  let next := (call { connection with buffered := gateway.buffered }).1
  { gateway with buffered := next.buffered, connections := gateway.connections.set index next }

/-- An exchange comes back with the gauge. -/
def settled (gateway : Gateway) (exchange : ProxyExchange) (exchanges : List ProxyExchange) : Gateway :=
  { gateway with
    buffered := exchange.accounting.elim gateway.buffered (·.buffered)
    exchanges := exchanges }

def onExchange (gateway : Gateway) (index : Nat) (exchange : ProxyExchange) (call : ExchangeCall) :
    Gateway :=
  let next := call.run { exchange with accounting := some gateway.ledger }
  gateway.settled next (gateway.exchanges.set index next)

/-- A call that has come back, be it with an exception. -/
def Over {α : Type} (result : Except (Halt Exn) α) : Prop :=
  ∀ halt, result = .error halt → ∃ error, halt = .raised error

/-- One operation on the gauge, or anything else that a thread does with its connection. -/
inductive Step : Gateway → Gateway → Prop
  | accept (gateway : Gateway) (connection : GatewayConnection)
      (budget : connection.config.maxBufferedBytes = gateway.maxBufferedBytes)
        (live : connection.closed = false)
      (fresh : connection.output = (GatewayConnection.init connection.config).output) :
      Step gateway { gateway with connections := gateway.connections ++ [connection] }
  | output (gateway : Gateway) (index : Nat) (connection : GatewayConnection) (world : World)
      (call : OutputCall) (found : gateway.connections[index]? = some connection)
      (alone : ∀ tick, world.othersBuffered tick = 0)
      (isOver : Over (call.run world { connection with buffered := gateway.buffered }).2) :
      Step gateway (gateway.onConnection index connection (call.run world))
  | elsewhere (gateway : Gateway) (index : Nat) (connection next : GatewayConnection)
      (found : gateway.connections[index]? = some connection) (config : next.config = connection.config)
      (output : next.output = connection.output) (closed : next.closed = connection.closed) :
      Step gateway { gateway with connections := gateway.connections.set index next }
  | start (gateway : Gateway) (request : ExchangeRequest) (limits : ExchangeLimits)
      (exchange : ProxyExchange)
      (started : ProxyExchange.init request limits (some gateway.ledger) = .ok exchange) :
      Step gateway (gateway.settled exchange (gateway.exchanges ++ [exchange]))
  /-- A constructor that raises leaves its accounting and no exchange. -/
  | unstarted (gateway : Gateway) (request : ExchangeRequest) (limits : ExchangeLimits)
      (accounting : Option Ledger) (error : Exn)
      (raises : ProxyExchange.construct request limits (some gateway.ledger) = (accounting, .error error)) :
      Step gateway { gateway with buffered := accounting.elim gateway.buffered (·.buffered) }
  | exchange (gateway : Gateway) (index : Nat) (exchange : ProxyExchange) (call : ExchangeCall)
      (found : gateway.exchanges[index]? = some exchange) :
      Step gateway (gateway.onExchange index exchange call)

/-- A state that a gateway with this limit can get to. -/
def Reachable (limit : Nat) (gateway : Gateway) : Prop :=
  Relation.ReflTransGen Step { maxBufferedBytes := limit } gateway

/-- What is queued in all the outputs and exchanges that are still live. -/
def queuedBytes (gateway : Gateway) : Nat :=
  ((gateway.connections.filter fun connection => !connection.closed).map (·.output.queuedBytes)).sum +
    ((gateway.exchanges.filter fun exchange => !exchange.cancelled).map ProxyExchange.held).sum

/-- What an exchange keeps besides its share of the gauge. -/
structure Tidy (exchange : ProxyExchange) : Prop where
  upstream : exchange.toUpstream.Sound
  downstream : exchange.toDownstream.Sound
  isOver : exchange.cancelled = true → exchange.toUpstream.closed = true ∧
    exchange.toDownstream.closed = true

/-- The same for the output of a connection. -/
structure Owned (limit : Nat) (connection : GatewayConnection) : Prop where
  budget : connection.config.maxBufferedBytes = limit
  sound : connection.output.Sound
  isOver : connection.closed = true → connection.output.closed = true

def outputBytes (gateway : Gateway) : Nat := (gateway.connections.map (·.output.queuedBytes)).sum

def exchangeBytes (gateway : Gateway) : Nat := (gateway.exchanges.map ProxyExchange.held).sum

structure Balanced (limit : Nat) (gateway : Gateway) : Prop where
  budget : gateway.maxBufferedBytes = limit
  connections : ∀ connection ∈ gateway.connections, Owned limit connection
  exchanges : ∀ exchange ∈ gateway.exchanges, Tidy exchange
  buffered : gateway.buffered = gateway.outputBytes + gateway.exchangeBytes
  within : gateway.buffered ≤ limit

/-- A `close` of a live connection that has come back. -/
theorem closed_drained {limit rest : Nat} {connection : GatewayConnection} {world : World} {reason : String}
    (alone : ∀ tick, world.othersBuffered tick = 0) (funded : connection.Funded limit rest)
    (live : connection.closed = false)
    (isOver : Over (GatewayConnection.close world reason connection).2) :
    (GatewayConnection.close world reason connection).1.Drained limit rest := by
  have ends := GatewayConnection.close_drained alone funded live reason
  unfold Concludes Ends at ends
  revert ends isOver
  rcases GatewayConnection.close world reason connection with ⟨next, halt | _⟩
  · intro isOver ends
    obtain ⟨error, raised⟩ := isOver halt rfl
    exact ends error raised
  · exact fun _ ends => ends

/-- Terms that are zero may be left out. -/
theorem sum_map_filter {α : Type} (size : α → Nat) (kept : α → Bool) {items : List α}
    (zero : ∀ item ∈ items, kept item = false → size item = 0) :
    ((items.filter kept).map size).sum = (items.map size).sum := by
  induction items with
  | nil => rfl
  | cons item rest ih =>
    have later := ih fun other member => zero other (List.mem_cons_of_mem _ member)
    cases keep : kept item with
    | true => simp [keep, later]
    | false => simp [keep, later, zero item List.mem_cons_self keep]

section Balanced
variable {limit : Nat} {gateway : Gateway} (balanced : gateway.Balanced limit)
include balanced

theorem Balanced.live : gateway.queuedBytes = gateway.outputBytes + gateway.exchangeBytes := by
  unfold queuedBytes outputBytes exchangeBytes
  rw [sum_map_filter, sum_map_filter]
  · intro exchange member cancelled
    have tidy := balanced.exchanges exchange member
    obtain ⟨up, down⟩ := tidy.isOver (by simpa using cancelled)
    simp only [ProxyExchange.held, tidy.upstream.drained up, tidy.downstream.drained down]
  · intro connection member closed
    have owned := balanced.connections connection member
    exact owned.sound.drained (owned.isOver (by simpa using closed))

/-- What a connection finds when it runs an operation. -/
theorem Balanced.funded {index : Nat} {connection : GatewayConnection}
    (found : gateway.connections[index]? = some connection) :
    GatewayConnection.Funded limit (gateway.buffered - connection.output.queuedBytes)
      { connection with buffered := gateway.buffered } := by
  have owned := balanced.connections connection (List.mem_of_getElem? found)
  have total := balanced.buffered
  have part : connection.output.queuedBytes ≤ gateway.outputBytes :=
    List.single_le_sum (by simp) _ (List.mem_map_of_mem (List.mem_of_getElem? found))
  exact ⟨owned.budget, owned.sound, by simp only; omega, balanced.within, owned.isOver⟩

/-- What an exchange finds when it runs an operation. -/
theorem Balanced.solvent {index : Nat} {exchange : ProxyExchange}
    (found : gateway.exchanges[index]? = some exchange) :
    { exchange with accounting := some gateway.ledger }.Solvent gateway.ledger := by
  have tidy := balanced.exchanges exchange (List.mem_of_getElem? found)
  have part : exchange.held ≤ gateway.exchangeBytes :=
    List.single_le_sum (by simp) _ (List.mem_map_of_mem (List.mem_of_getElem? found))
  have total := balanced.buffered
  refine ⟨rfl, tidy.upstream, tidy.downstream, ?_, ?_, tidy.isOver⟩
  · show exchange.held ≤ gateway.buffered
    omega
  · have := balanced.within
    have := balanced.budget
    simp only [ledger]
    omega

/-- A connection comes back from an operation. -/
theorem Balanced.setConnection {index : Nat} {connection next : GatewayConnection}
    (found : gateway.connections[index]? = some connection)
    (funded : GatewayConnection.Funded limit (gateway.buffered - connection.output.queuedBytes) next) :
    { gateway with
      buffered := next.buffered, connections := gateway.connections.set index next }.Balanced limit := by
  have moved := sum_map_set (·.output.queuedBytes) found next
  have part : connection.output.queuedBytes ≤ gateway.outputBytes :=
    List.single_le_sum (by simp) _ (List.mem_map_of_mem (List.mem_of_getElem? found))
  have total := balanced.buffered
  have held := funded.buffered
  refine ⟨balanced.budget, fun other member => ?_, balanced.exchanges, ?_, funded.within⟩
  · rcases List.mem_or_eq_of_mem_set member with old | rfl
    · exact balanced.connections other old
    · exact ⟨funded.budget, funded.sound, funded.isOver⟩
  · simp only [outputBytes, exchangeBytes] at *
    omega

/-- An exchange comes back from an operation, or for the first time. -/
theorem Balanced.setExchange {next : ProxyExchange} {after : Ledger} {exchanges : List ProxyExchange}
    (solvent : next.Solvent after) (limit' : after.maxBuffered = gateway.ledger.maxBuffered)
    (tidy : ∀ exchange ∈ exchanges, exchange = next ∨ Tidy exchange)
    (moved : after.buffered = gateway.outputBytes + (exchanges.map ProxyExchange.held).sum) :
    (gateway.settled next exchanges).Balanced limit := by
  have buffered : (gateway.settled next exchanges).buffered = after.buffered := by
    simp [settled, solvent.accounting]
  refine ⟨balanced.budget, balanced.connections, fun exchange member => ?_, buffered.trans moved, ?_⟩
  · rcases tidy exchange member with rfl | old
    · exact ⟨solvent.upstream, solvent.downstream, solvent.isOver⟩
    · exact old
  · have := solvent.within
    have := balanced.budget
    simp only [ledger] at limit'
    omega

/-- An operation of a live connection, or of any that is not a `close`, leaves it funded. -/
theorem Balanced.output {index : Nat} {connection : GatewayConnection} {world : World} {call : OutputCall}
    (found : gateway.connections[index]? = some connection) (alone : ∀ tick, world.othersBuffered tick = 0)
    (isOver : Over (call.run world { connection with buffered := gateway.buffered }).2) :
    GatewayConnection.Funded limit (gateway.buffered - connection.output.queuedBytes)
      (call.run world { connection with buffered := gateway.buffered }).1 := by
  have funded := balanced.funded found
  cases call with
  | queueBytes data => exact GatewayConnection.queueBytes_funded alone data _ funded
  | consumeOutput count => exact GatewayConnection.consumeOutput_funded alone count _ funded
  | takeOutput limit' =>
    exact (Evolves.bind (GatewayConnection.takeOutput_funded alone limit') fun _ => .pure ()) _ funded
  | close reason =>
    by_cases closed : connection.closed = true
    · have again : GatewayConnection.close world reason { connection with
          buffered := gateway.buffered } = _ :=
        GatewayConnection.close_again world { connection with buffered := gateway.buffered } closed reason
      rw [OutputCall.run, again]
      exact funded
    · exact (closed_drained alone funded (by simpa using closed) isOver).toFunded

/-- An operation of an exchange moves the gauge as its queues. -/
theorem Balanced.exchange {index : Nat} {exchange : ProxyExchange}
    (found : gateway.exchanges[index]? = some exchange) (call : ExchangeCall) : ∃ after,
      (call.run { exchange with accounting := some gateway.ledger }).Solvent after ∧
      after.maxBuffered = gateway.ledger.maxBuffered ∧
      after.buffered + exchange.held =
        gateway.buffered + (call.run { exchange with accounting := some gateway.ledger }).held := by
  have solvent := balanced.solvent found
  have moves : ProxyExchange.Balances { exchange with accounting := some gateway.ledger }
      (call.run { exchange with accounting := some gateway.ledger }) := by
    cases call with
    | feedRequestBody data isView => exact ProxyExchange.feedRequestBody_balances data isView _
    | finishRequest trailers => exact ProxyExchange.finishRequest_balances trailers _
    | takeUpstream limit' => exact ProxyExchange.takeUpstream_balances limit' _
    | feedUpstream data => exact ProxyExchange.feedUpstream_balances data _
    | upstreamEof => exact ProxyExchange.upstreamEof_balances _
    | takeDownstream limit' => exact ProxyExchange.takeDownstream_balances limit' _
    | cancel reason => exact ProxyExchange.cancel_balances reason _
  exact moves gateway.ledger solvent

/-- No operation breaks the balance, whether it returned or raised. -/
theorem Balanced.step {next : Gateway} (step : Step gateway next) : next.Balanced limit := by
  have total := balanced.buffered
  have funded : (gateway.ledger.buffered : Int) ≤ gateway.ledger.maxBuffered := by
    have := balanced.within
    have := balanced.budget
    simp only [ledger]
    omega
  cases step with
  | accept connection budget live fresh =>
    have empty : connection.output.queuedBytes = 0 := by rw [fresh]; rfl
    refine ⟨balanced.budget, fun other member => ?_, balanced.exchanges, ?_, balanced.within⟩
    · rcases List.mem_append.mp member with old | new
      · exact balanced.connections other old
      · rw [List.mem_singleton.mp new]
        refine ⟨budget.trans balanced.budget, ⟨?_, fun _ => empty⟩, fun closed => by simp [live] at closed⟩
        rw [fresh]
        exact ⟨rfl, .inl rfl, le_rfl⟩
    · simp only [outputBytes, exchangeBytes, List.map_append, List.map_cons, List.map_nil,
        List.sum_append, List.sum_cons,
        List.sum_nil, empty] at total ⊢
      omega
  | output index connection world call found alone isOver =>
    exact balanced.setConnection found (balanced.output found alone isOver)
  | elsewhere index connection other found config output closed =>
    have owned := balanced.connections connection (List.mem_of_getElem? found)
    have moved := sum_map_set (·.output.queuedBytes) found other
    refine ⟨balanced.budget, fun item member => ?_, balanced.exchanges, ?_, balanced.within⟩
    · rcases List.mem_or_eq_of_mem_set member with old | rfl
      · exact balanced.connections item old
      · exact ⟨config ▸ owned.budget, output ▸ owned.sound, by rw [closed, output]; exact owned.isOver⟩
    · simp only [outputBytes, exchangeBytes, output] at *
      omega
  | unstarted request limits accounting error raises =>
    obtain rfl := ProxyExchange.construct_raises funded raises
    exact ⟨balanced.budget, balanced.connections, balanced.exchanges, total, balanced.within⟩
  | start request limits exchange started =>
    obtain ⟨after, solvent, limit', grown⟩ := ProxyExchange.init_solvent funded started
    refine balanced.setExchange solvent limit' (fun other member => ?_) ?_
    · rcases List.mem_append.mp member with old | new
      · exact .inr (balanced.exchanges other old)
      · exact .inl (List.mem_singleton.mp new)
    · simp only [ledger, outputBytes, exchangeBytes, List.map_append, List.map_cons, List.map_nil,
          List.sum_append,
        List.sum_cons, List.sum_nil] at grown total ⊢
      omega
  | exchange index exchange call found =>
    obtain ⟨after, solvent, limit', moved⟩ := balanced.exchange found call
    have changed :=
      sum_map_set ProxyExchange.held found (call.run { exchange with accounting := some gateway.ledger })
    refine balanced.setExchange solvent limit' (fun other member => ?_) ?_
    · rcases List.mem_or_eq_of_mem_set member with old | new
      · exact .inr (balanced.exchanges other old)
      · exact .inl new
    · simp only [outputBytes, exchangeBytes] at total ⊢
      omega

end Balanced

theorem Reachable.balanced {limit : Nat} {gateway : Gateway} (reached : Reachable limit gateway) :
    gateway.Balanced limit := by
  induction reached with
  | refl => exact ⟨rfl, by simp, by simp, rfl, Nat.zero_le _⟩
  | tail _ step ih => exact ih.step step

theorem set_found {α : Type} {items : List α} {index : Nat} {item : α} (found : items[index]? = some item) :
    items.set index item = items := by
  obtain ⟨inside, rfl⟩ := List.getElem?_eq_some_iff.mp found
  exact List.set_getElem_self inside

/-- A closed connection that is closed again leaves the gateway as it is. -/
theorem onConnection_close_again {gateway : Gateway} {index : Nat} {connection : GatewayConnection}
    (found : gateway.connections[index]? = some connection) (closed : connection.closed = true)
    (gauge : connection.buffered = gateway.buffered) (world : World) (reason : String) :
    gateway.onConnection index connection (GatewayConnection.close world reason) = gateway := by
  have same : { connection with buffered := gateway.buffered } = connection := by rw [← gauge]
  unfold onConnection
  rw [same, GatewayConnection.close_again world connection closed]
  simp only [gauge, set_found found]

theorem onExchange_cancel_again {gateway : Gateway} {index : Nat} {exchange : ProxyExchange}
    (found : gateway.exchanges[index]? = some exchange) (cancelled : exchange.cancelled = true)
    (gauge : exchange.accounting = some gateway.ledger) (reason : String) :
    gateway.onExchange index exchange (.cancel reason) = gateway := by
  have same : { exchange with accounting := some gateway.ledger } = exchange := by rw [← gauge]
  unfold onExchange
  rw [same, ExchangeCall.run, ProxyExchange.cancel_again cancelled]
  simp only [settled, gauge, Option.elim, ledger, set_found found]

/-- In every state of a gateway the gauge is what its live outputs and exchanges have queued, within
the limit. To close a connection or to cancel an exchange takes off exactly what it still had
queued; to do so again changes nothing. The states are those that any interleaving of the calls of
any number of connections and exchanges can reach, failing calls and constructors that raise
included. What is assumed of a call on an output is that it has come back, with a value or with an
exception. -/
theorem buffered_accounting {limit : Nat} {gateway : Gateway} (reached : Reachable limit gateway) :
    gateway.buffered = gateway.queuedBytes ∧ gateway.buffered ≤ limit ∧
    (∀ index connection world reason, gateway.connections[index]? = some connection →
      connection.closed = false → (∀ tick, world.othersBuffered tick = 0) →
      Over (GatewayConnection.close world reason { connection with buffered := gateway.buffered }).2 →
      let after := gateway.onConnection index connection (GatewayConnection.close world reason)
      after.buffered + connection.output.queuedBytes = gateway.buffered ∧
        ∃ next, after.connections[index]? = some next ∧ next.closed = true ∧
          ∀ world' reason', after.onConnection index next (GatewayConnection.close world' reason') =
            after) ∧
    (∀ index exchange reason, gateway.exchanges[index]? = some exchange → exchange.cancelled = false →
      let after := gateway.onExchange index exchange (.cancel reason)
      after.buffered + exchange.held = gateway.buffered ∧
        ∃ next, after.exchanges[index]? = some next ∧ next.cancelled = true ∧
          ∀ reason', after.onExchange index next (.cancel reason') = after) := by
  have balanced := reached.balanced
  refine ⟨balanced.live ▸ balanced.buffered, balanced.within, ?_, ?_⟩
  · intro index connection world reason found live alone isOver
    have drained := closed_drained alone (balanced.funded found) live isOver
    have part := (balanced.funded found).buffered
    have inside := (List.getElem?_eq_some_iff.mp found).1
    refine ⟨?_, _, List.getElem?_set_self inside, drained.isClosed, ?_⟩
    · have held := drained.buffered
      have empty := drained.empty
      simp only [onConnection] at part ⊢
      omega
    · intro world' reason'
      exact onConnection_close_again (List.getElem?_set_self inside) drained.isClosed rfl world' reason'
  · intro index exchange reason found live
    obtain ⟨next, after, run, solvent, limit', less, -, cancelled⟩ :=
      ProxyExchange.cancel_live (balanced.solvent found) live reason
    have inside := (List.getElem?_eq_some_iff.mp found).1
    have covered : exchange.held ≤ gateway.buffered := (balanced.solvent found).covered
    have result : gateway.onExchange index exchange (.cancel reason) =
        gateway.settled next (gateway.exchanges.set index next) := by
      rw [onExchange, ExchangeCall.run, run]
    rw [result]
    have gauge : next.accounting =
        some (gateway.settled next (gateway.exchanges.set index next)).ledger := by
      obtain ⟨buffered, maximum⟩ := after
      rw [solvent.accounting, show maximum = gateway.maxBufferedBytes from limit']
      simp [settled, ledger, solvent.accounting]
    refine ⟨?_, next, List.getElem?_set_self inside, cancelled, ?_⟩
    · simp only [settled, solvent.accounting, Option.elim, less, ledger]
      exact Nat.sub_add_cancel covered
    · exact fun reason' => onExchange_cancel_again (List.getElem?_set_self inside) cancelled gauge reason'

/-- One connection, with three bytes queued. -/
theorem buffered_accounting_queued :
    let connection := GatewayConnection.init { maxBufferedBytes := 10 }
    let gateway := ({ maxBufferedBytes := 10, connections := [connection] } : Gateway).onConnection 0
      connection
      (GatewayConnection.queueBytes {} [1, 2, 3])
    Reachable 10 gateway ∧ gateway.buffered = 3 ∧ gateway.queuedBytes = 3 := by
  intro connection gateway
  have accepted : Step { maxBufferedBytes := 10 } { maxBufferedBytes := 10, connections := [connection] } :=
    .accept { maxBufferedBytes := 10 } connection rfl rfl rfl
  have queued : Step { maxBufferedBytes := 10, connections := [connection] } gateway :=
    .output _ 0 connection {} (.queueBytes [1, 2, 3]) rfl (fun _ => rfl) (fun _ failed => by cases failed)
  have reached : Reachable 10 gateway := .tail (.single accepted) queued
  have gauge : gateway.buffered = 3 := by rfl
  exact ⟨reached, gauge, (buffered_accounting reached).1 ▸ gauge⟩

end Gateway
end PccGateway
