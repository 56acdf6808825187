import PccGateway.Proxy.ExchangeAccounting
import PccGateway.Server.ServingFrame

namespace PccGateway
namespace GatewayConnection
open Thread Method

/-- The gauge is what others hold, `rest`, and what this connection has queued; it is within the limit,
and a closed connection has nothing queued. -/
structure Funded (limit rest : Nat) (connection : GatewayConnection) : Prop where
  budget : connection.config.maxBufferedBytes = limit
  sound : connection.output.Sound
  buffered : connection.buffered = rest + connection.output.queuedBytes
  within : connection.buffered ≤ limit
  isOver : connection.closed = true → connection.output.closed = true

variable {limit rest : Nat}

/-- Effects that have nothing to do with the output. -/
def Unaccounted (E : Effect → Prop) : Prop := ¬ E .output ∧ ¬ E .buffered ∧ ¬ E .closed

theorem Funded.of_moves {E : Effect → Prop} (other : Unaccounted E) {before after : GatewayConnection}
    (moves : Moves E before after) : Keeps (Funded limit rest) before after := by
  intro funded
  have output := moves.output.resolve_left other.1
  have buffered := moves.buffered.resolve_left other.2.1
  have closed := moves.closed.resolve_left other.2.2
  exact ⟨moves.config ▸ funded.budget, output ▸ funded.sound,
    by rw [buffered, output]; exact funded.buffered,
    buffered ▸ funded.within, by rw [closed, output]; exact funded.isOver⟩

/-- Only an entry of the record is written. -/
def recording : Effect → Prop
  | .entry _ => True
  | _ => False

theorem recording_unaccounted : Unaccounted recording := ⟨id, id, id⟩

section Alone
variable {world : World} (alone : ∀ tick, world.othersBuffered tick = 0)
include alone

theorem reserveBuffered_alone (count : Nat) (connection : GatewayConnection) :
    reserveBuffered world count connection =
      if connection.buffered + count ≤ connection.config.maxBufferedBytes then
        ({ connection with buffered := connection.buffered + count }, .ok true)
      else (connection, .ok false) := by
  unfold reserveBuffered
  rw [alone, Nat.add_zero]

theorem releaseBuffered_alone {count : Nat} {connection : GatewayConnection}
    (covered : count ≤ connection.buffered) :
    releaseBuffered world count connection =
      ({ connection with buffered := connection.buffered - count }, .ok ()) := by
  unfold releaseBuffered
  rw [alone, Nat.add_zero, if_neg (Nat.not_lt.mpr covered)]

/-- Bytes are queued and accounted for, or neither. -/
theorem queueBytes_funded (data : Bytes) : Evolves (Keeps (Funded limit rest)) (queueBytes world data) := by
  refine .ite (.pure _) ?_
  intro connection funded
  rw [bind_run, reserveBuffered_alone alone]
  by_cases room : connection.buffered + data.length ≤ connection.config.maxBufferedBytes
  · rw [if_pos room]
    simp only [Bool.true_eq_false, if_false, bind_run, attempt, onOutput, Thread.call, Method.on]
    rcases ChannelBuffer.append_cases funded.sound data false with ⟨error, append⟩ |
      ⟨next, transition, append, nextSound, queued, same⟩
    · simp only [Bool.false_eq_true, if_false] at append
      have undone : releaseBuffered world data.length
          { connection with buffered := connection.buffered + data.length } = _ :=
        releaseBuffered_alone alone (Nat.le_add_left _ _)
      rw [append]
      simp only [bind_run]
      rw [undone]
      simpa [Thread.raise] using funded
    · simp only [Bool.false_eq_true, if_false] at append
      rw [append]
      have grown : Funded limit rest
          { connection with buffered := connection.buffered + data.length, output := next } := by
        refine ⟨funded.budget, nextSound, ?_, funded.budget ▸ room,
          fun closed => same.trans (funded.isOver closed)⟩
        have := funded.buffered
        simp only
        omega
      have later : Evolves (Moves recording) (do
          note (.queued data)
          let connection ← get
          when (connection.writeDeadlineMs < 0) (restartWriteDeadline world)
          when (transition = .high) (hook world) : Call Unit) :=
        .bind (note_moves trivial) fun _ => .bind .get fun _ =>
          .bind (.when (restartWriteDeadline_moves world)) fun _ => .when (hook_moves world)
      exact Funded.of_moves recording_unaccounted (later _) grown
  · rw [if_neg room]
    exact funded

theorem consumeOutput_funded (count : Int) :
    Evolves (Keeps (Funded limit rest)) (consumeOutput world count) := by
  unfold consumeOutput
  split
  · exact .pure _
  · rename_i positive
    intro connection funded
    simp only [bind_run, onOutput, Thread.call, Method.on]
    by_cases fits : (connection.output.queuedBytes : Int) < count
    · have refused : connection.output.consume count =
          (connection.output, .error (.value "consume length exceeds queued bytes")) :=
        if_pos (.inr fits)
      rw [refused]
      exact funded
    · obtain ⟨next, transition, run, valid, contents⟩ := ChannelBuffer.consume_wellFormed funded.sound.valid
        (show count.toNat ≤ connection.output.queuedBytes by omega)
      have closed :=
        ChannelBuffer.closed_of_settings (ChannelBuffer.consume_settings count.toNat connection.output)
      rw [Int.toNat_of_nonneg (by omega)] at run closed
      rw [run] at closed ⊢
      have left : next.queuedBytes + count.toNat = connection.output.queuedBytes := by
        rw [valid.queued, contents, List.length_drop, funded.sound.valid.queued]
        have := funded.sound.valid.queued
        omega
      have covered := funded.buffered
      have within := funded.within
      simp only
      rw [releaseBuffered_alone alone (by simp only; omega)]
      have drained : Funded limit rest { connection with
          output := next, buffered := connection.buffered - count.toNat } := by
        refine ⟨funded.budget, ⟨valid, fun isOver => ?_⟩, ?_, ?_, fun isOver =>
          closed.trans (funded.isOver isOver)⟩
        · have := funded.sound.drained (closed ▸ isOver)
          omega
        · simp only
          omega
        · simp only
          omega
      have later : Evolves (Moves recording) (do
          when (transition = .low) (hook world)
          let connection ← get
          if connection.output.queuedBytes = 0 then
            modify fun connection => { connection with writeDeadlineMs := -1 }
          else restartWriteDeadline world : Call Unit) := by
        refine .bind (.when (hook_moves world)) fun _ => .bind .get fun _ =>
          .ite ?_ (restartWriteDeadline_moves world)
        exact .modify fun connection => { Moves.still connection with }
      exact Funded.of_moves recording_unaccounted (later _) drained

theorem takeOutput_funded (limit' : Int) : Evolves (Keeps (Funded limit rest)) (takeOutput world limit') :=
  .bind .get fun _ => .bind (consumeOutput_funded alone _) fun _ => .pure _

/-- What `close` leaves: nothing is queued, and the gauge has lost what was. -/
structure Drained (limit rest : Nat) (connection : GatewayConnection) :
    Prop extends Funded limit rest connection where
  empty : connection.output.queuedBytes = 0
  isClosed : connection.closed = true

omit alone in
theorem Drained.of_moves {E : Effect → Prop} (other : Unaccounted E) {before after : GatewayConnection}
    (moves : Moves E before after) : Keeps (Drained limit rest) before after := by
  intro drained
  refine ⟨Funded.of_moves other moves drained.toFunded, ?_, ?_⟩
  · rw [moves.output.resolve_left other.1]
    exact drained.empty
  · rw [moves.closed.resolve_left other.2.2]
    exact drained.isClosed

/-- The effects of giving up what a connection holds, its output apart. -/
def abandoning : Effect → Prop
  | .owners | .flow | .deferred | .entry _ => True
  | _ => False

omit alone in
theorem settling_le_abandoning : settling ≤ abandoning := by
  intro effect allowed
  cases effect with
  | entry kind => cases kind <;> first | exact allowed | trivial
  | _ => first | exact allowed | trivial

omit alone in
theorem Drained.keeps {α : Type} {call : Call α} (evolves : Evolves (Moves recording) call) :
    Evolves (Keeps (Drained limit rest)) call :=
  evolves.mono fun _ _ => Drained.of_moves recording_unaccounted

/-- The cleanups of `close` behind its owners: the output is closed, and what it held is released. -/
theorem closeOutput_drained {connection settled : GatewayConnection} {tail : List (Call Unit)}
    (funded : Funded limit rest connection)
    (moves : Moves abandoning { connection with closed := true } settled)
    (others : Evolves (Keeps (Drained limit rest)) (settle tail)) :
    Concludes (settle (
      (modify fun connection => { connection with output := connection.output.close }) ::
      releaseBuffered world connection.output.queuedBytes ::
        tail) : Call (Option Exn)) settled (Drained limit rest) := by
  have output : settled.output = connection.output := moves.output.resolve_left id
  have buffered : settled.buffered = connection.buffered := moves.buffered.resolve_left id
  have closed : settled.closed = true := moves.closed.resolve_left id
  obtain ⟨sound, empty, isOver⟩ := funded.sound.close
  have held := funded.buffered
  have within := funded.within
  have shut : Concludes (modify fun connection =>
      { connection with output := connection.output.close } : Call Unit) settled
      (· = { settled with output := settled.output.close }) := Eq.refl _
  refine concludes_settle_cons shut ?_
  rintro _ rfl
  have released : releaseBuffered world connection.output.queuedBytes { settled with
      output := settled.output.close } = _ :=
    releaseBuffered_alone alone (by simp only [buffered]; omega)
  refine concludes_settle_cons (P := Drained limit rest) ?_ fun s' drained => ?_
  · unfold Concludes Ends
    rw [released]
    refine ⟨⟨moves.config ▸ funded.budget, ?_, ?_, ?_, fun _ => ?_⟩, ?_, closed⟩
    · exact output ▸ sound
    · simp only [output, empty]
      omega
    · simp only
      omega
    · exact output ▸ isOver
    · exact output ▸ empty
  · exact others.concludes.mono fun _ kept => kept drained

theorem close_drained {connection : GatewayConnection} (funded : Funded limit rest connection)
    (live : connection.closed = false) (reason : String) :
    Concludes (close world reason) connection (Drained limit rest) := by
  have owners : Evolves (Moves abandoning)
      (settle [abortCurrentRequest reason, signalPendingLocal world reason,
      cancelPendingProxy reason, cancelPendingStream reason] : Call (Option Exn)) :=
    .settle_cons (abortCurrentRequest_moves settling_le_abandoning reason)
      (.settle_cons (signalPendingLocal_moves world reason)
        (.settle_cons (cancelPendingProxy_moves settling_le_abandoning reason)
          (.settle_cons (cancelPendingStream_moves settling_le_abandoning reason) .settle_nil)))
  have others : Evolves (Keeps (Drained limit rest)) (settle [
      when connection.tls (ask world World.close),
      when (0 ≤ connection.fd) (ask world World.close),
      when (0 ≤ connection.fd) (ask world World.close),
      hook world] : Call (Option Exn)) :=
    Drained.keeps (.settle_cons (.when (ask_moves world _)) (.settle_cons (.when (ask_moves world _))
      (.settle_cons (.when (ask_moves world _)) (.settle_cons (hook_moves world) .settle_nil))))
  unfold close
  simp only [concludes_bind]
  show Ends (if connection.closed = true then _ else _) connection _ _
  rw [if_neg (by simp [live])]
  show Concludes (settle _ >>= _) _ _
  refine concludes_settle_bind owners.concludes fun error settled moves => ?_
  have moved : Moves abandoning { connection with closed := true } settled :=
    { moves with deferred := .inl trivial }
  have dropped : Concludes (settle ((dropEvents true connection.deferredEvents) ::
      (modify fun connection => { connection with output := connection.output.close }) ::
      releaseBuffered world connection.output.queuedBytes :: [
        when connection.tls (ask world World.close),
        when (0 ≤ connection.fd) (ask world World.close),
        when (0 ≤ connection.fd) (ask world World.close),
        hook world]) : Call (Option Exn)) settled (Drained limit rest) :=
    concludes_settle_cons (dropEvents_moves trivial _ _).concludes fun later steps =>
      closeOutput_drained alone funded (moved.trans steps) others
  rw [concludes_bind]
  refine concludes_settle_bind (P := Drained limit rest) ?_ fun later s' drained =>
    (Evolves.raiseFirst (R := Keeps (Drained limit rest)) _).concludes.mono fun _ kept => kept drained
  by_cases unsettled : settled.pendingLocal.isSome
  · simp only [unsettled, if_true]
    exact concludes_settle_cons (P := (· = settled)) (fun _ _ => rfl) fun s' same => same ▸ dropped
  · simp only [unsettled]
    exact dropped

end Alone

theorem close_again (world : World) (connection : GatewayConnection)
    (isOver : connection.closed = true) (reason : String) :
    close world reason connection = (connection, .ok ()) := by
  unfold close
  show (if connection.closed = true then _ else _ : Call Unit) connection = _
  rw [if_pos isOver]
  rfl

end GatewayConnection
end PccGateway
