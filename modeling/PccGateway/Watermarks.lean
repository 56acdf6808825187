import Mathlib.Data.Int.Order.Basic
import PccGateway.Buffer
import PccGateway.Lib.Hysteresis
import PccGateway.Server.BodyStream

namespace PccGateway

open Hysteresis (Edge)

def Transition.of : Option Edge → Transition
  | Option.none => .none
  | some .rise => .high
  | some .fall => .low

namespace ChannelBuffer

def marks (buffer : ChannelBuffer) : Hysteresis Nat :=
  ⟨buffer.lowWatermark, buffer.highWatermark, buffer.watermarks⟩

/-- The flag of a buffer is right for what it holds. -/
def Settled (buffer : ChannelBuffer) : Prop := buffer.marks.Settled buffer.backpressured buffer.queuedBytes

/-- An operation moves the flag as the marks ask for the bytes that are queued after it. -/
structure Follows (buffer next : ChannelBuffer) (edge : Option Edge) : Prop where
  marks : next.marks = buffer.marks
  step : buffer.marks.step buffer.backpressured next.queuedBytes = (next.backpressured, edge)

variable {buffer next : ChannelBuffer} {edge : Option Edge}

theorem Follows.settled (follows : buffer.Follows next edge) : next.Settled := by
  have settled := buffer.marks.step_settled buffer.backpressured next.queuedBytes
  rw [follows.step] at settled
  rw [Settled, follows.marks]
  exact settled

theorem Settled.stays (settled : buffer.Settled) :
    buffer.Follows buffer .none := ⟨rfl, Hysteresis.Settled.step_same settled⟩

theorem marks_eq (same : next.settings = buffer.settings) : next.marks = buffer.marks := by
  have low : next.lowWatermark = buffer.lowWatermark := congrArg (·.2.1) same
  have high : next.highWatermark = buffer.highWatermark := congrArg (·.2.2.1) same
  simp only [marks, low, high]

/-- What a call that reports a transition did: it followed the marks and reported just that, or it
raised. -/
def Reported (buffer : ChannelBuffer) (result : ChannelBuffer × Except Exn Transition) : Prop :=
  ∃ edge, buffer.Follows result.1 edge ∧ result.2.toOption.getD .none = .of edge

theorem Settled.grow (settled : buffer.Settled) (same : next.settings = buffer.settings)
    (flag : next.backpressured = buffer.backpressured) (grows : buffer.queuedBytes ≤ next.queuedBytes) :
    buffer.Reported next.transitionAfterGrowth := by
  have marks := marks_eq same
  have high : next.highWatermark = buffer.marks.high := congrArg Hysteresis.high marks
  have step := Hysteresis.Settled.step_grow settled grows
  rw [← high] at step
  unfold transitionAfterGrowth
  split
  · rename_i up
    rw [if_pos (flag ▸ up)] at step
    exact ⟨_, ⟨marks, step⟩, rfl⟩
  · rename_i stays
    rw [if_neg (flag ▸ stays)] at step
    exact ⟨Option.none, ⟨marks, step.trans (by rw [flag])⟩, rfl⟩

theorem Settled.drain (settled : buffer.Settled) (same : next.settings = buffer.settings)
    (flag : next.backpressured = buffer.backpressured) (drains : next.queuedBytes ≤ buffer.queuedBytes) :
    buffer.Reported next.transitionAfterDrain := by
  have marks := marks_eq same
  have low : next.lowWatermark = buffer.marks.low := congrArg Hysteresis.low marks
  have step := Hysteresis.Settled.step_drain settled drains
  rw [← low] at step
  unfold transitionAfterDrain
  split
  · rename_i down
    rw [if_pos (flag ▸ down)] at step
    exact ⟨_, ⟨marks, step⟩, rfl⟩
  · rename_i stays
    rw [if_neg (flag ▸ stays)] at step
    exact ⟨Option.none, ⟨marks, step.trans (by rw [flag])⟩, rfl⟩

theorem Settled.append (settled : buffer.Settled) (source : Bytes) :
    buffer.Reported (buffer.append source) := by
  unfold ChannelBuffer.append
  split
  · exact ⟨_, settled.stays, rfl⟩
  · split
    · exact ⟨_, settled.stays, rfl⟩
    · exact settled.grow rfl rfl (Nat.le_add_right _ _)

theorem Settled.appendView (settled : buffer.Settled) (view : Bytes) :
    buffer.Reported (buffer.appendView view) := by
  unfold ChannelBuffer.appendView
  split
  · exact ⟨_, settled.stays, rfl⟩
  · split
    · exact ⟨_, settled.stays, rfl⟩
    · exact settled.grow rfl rfl (Nat.le_add_right _ _)

theorem Settled.consume (settled : buffer.Settled) (length : Int) :
    buffer.Reported (buffer.consume length) := by
  obtain ⟨settings, queued, flag⟩ := consumeLoop_frame buffer.views.length length.toNat buffer
  unfold ChannelBuffer.consume
  split
  · exact ⟨_, settled.stays, rfl⟩
  · split
    · rename_i run
      rw [run] at settings queued flag
      refine ⟨Option.none, ⟨marks_eq settings, ?_⟩, rfl⟩
      simp only at queued flag ⊢
      rw [queued, flag]
      exact settled.stays.step
    · rename_i run
      rw [run] at settings queued flag
      simp only at settings queued flag
      refine settled.drain ?_ ?_ ?_
      · split <;> exact settings
      · split <;> exact flag
      · split <;> simp only <;> omega

theorem transitionAfterDrain_queuedBytes (buffer : ChannelBuffer) :
    buffer.transitionAfterDrain.1.queuedBytes = buffer.queuedBytes := by
  unfold transitionAfterDrain
  split <;> rfl

theorem consume_queuedBytes_le (length : Int) :
    (buffer.consume length).1.queuedBytes ≤ buffer.queuedBytes := by
  obtain ⟨-, queued, -⟩ := consumeLoop_frame buffer.views.length length.toNat buffer
  unfold ChannelBuffer.consume
  split
  · exact le_rfl
  · split
    · rename_i run
      rw [run] at queued
      exact queued.le
    · rename_i run
      rw [run] at queued
      simp only at queued
      rw [transitionAfterDrain_queuedBytes]
      split <;> simp only <;> omega

theorem Follows.not_rise (follows : buffer.Follows next edge) (settled : buffer.Settled)
    (drains : next.queuedBytes ≤ buffer.queuedBytes) : edge ≠ some .rise := by
  have step := follows.step
  rw [Hysteresis.Settled.step_drain settled drains] at step
  have edge_eq := congrArg Prod.snd step
  simp only at edge_eq
  rw [← edge_eq]
  split <;> simp

/-- `read` drains the buffer as `consume` does, and reports nothing. -/
theorem Settled.read (settled : buffer.Settled) (limit : Int) :
    ∃ edge, buffer.Follows (buffer.read limit).1 edge ∧ edge ≠ some .rise := by
  have same : ∃ length, (buffer.read limit).1 = (buffer.consume length).1 := by
    refine ⟨if limit < 0 ∨ (buffer.queuedBytes : Int) < limit then (buffer.queuedBytes : Int)
      else limit, ?_⟩
    unfold ChannelBuffer.read
    simp only
    split <;> rename_i run <;> rw [run]
  obtain ⟨length, same⟩ := same
  obtain ⟨edge, follows, -⟩ := settled.consume length
  rw [same]
  exact ⟨edge, follows, follows.not_rise settled (consume_queuedBytes_le length)⟩

theorem Settled.close (settled : buffer.Settled) :
    ∃ edge, buffer.Follows buffer.close edge ∧ edge ≠ some .rise := by
  unfold ChannelBuffer.close
  split
  · exact ⟨_, settled.stays, by simp⟩
  · have step := Hysteresis.Settled.step_drain settled (Nat.zero_le buffer.queuedBytes)
    cases flag : buffer.backpressured with
    | true =>
      rw [flag, if_pos ⟨rfl, Nat.zero_le _⟩] at step
      exact ⟨some .fall, ⟨rfl, flag ▸ step⟩, by simp⟩
    | false =>
      rw [flag, if_neg (by simp)] at step
      exact ⟨Option.none, ⟨rfl, flag ▸ step⟩, by simp⟩

theorem init_settled {segmentSize lowWatermark highWatermark maxBytes : Int}
    (start : init segmentSize lowWatermark highWatermark maxBytes = .ok buffer) :
    buffer.Settled ∧ buffer.backpressured = false := by
  unfold init at start
  split at start
  · cases start
  · split at start
    · cases start
    · split at start
      · cases start
      · cases start
        exact ⟨⟨(by simp), fun _ => by simp only [marks]; omega⟩, rfl⟩

inductive Op where
  | append (source : Bytes)
  | appendView (view : Bytes)
  | peek (limit : Int)
  | consume (length : Int)
  | read (limit : Int)
  | close

/-- One operation, with the transition it returned; it returned none if it raised. -/
def perform (buffer : ChannelBuffer) : Op → ChannelBuffer × Option Transition
  | .append source => (buffer.append source).map id Except.toOption
  | .appendView view => (buffer.appendView view).map id Except.toOption
  | .peek _ => (buffer, Option.none)
  | .consume length => (buffer.consume length).map id Except.toOption
  | .read limit => ((buffer.read limit).1, Option.none)
  | .close => (buffer.close, Option.none)

/-- What can be seen of an operation: the bytes that are queued after it and the transition it returned. -/
structure Observation where
  op : Op
  queuedBytes : Nat
  returned : Option Transition

def observe : List Op → ChannelBuffer → ChannelBuffer × List Observation
  | [], buffer => (buffer, [])
  | op :: ops, buffer =>
    let (next, returned) := buffer.perform op
    let (last, seen) := observe ops next
    (last, ⟨op, next.queuedBytes, returned⟩ :: seen)

/-- An append or a consume returns the transition that the marks ask for. A read or a close can pass
the low mark, and says nothing. -/
def Observation.Reports (seen : Observation) (edge : Option Edge) : Prop :=
  match seen.op with
  | .append _ | .appendView _ | .consume _ => seen.returned.getD .none = .of edge
  | .peek _ => seen.returned = Option.none ∧ edge = Option.none
  | .read _ | .close => seen.returned = Option.none ∧ edge ≠ some .rise

theorem Settled.perform (settled : buffer.Settled) (op : Op) :
    ∃ edge, buffer.Follows (buffer.perform op).1 edge ∧
    Observation.Reports ⟨op, (buffer.perform op).1.queuedBytes, (buffer.perform op).2⟩ edge := by
  cases op with
  | append source => exact settled.append source
  | appendView view => exact settled.appendView view
  | peek limit => exact ⟨Option.none, settled.stays, rfl, rfl⟩
  | consume length => exact settled.consume length
  | read limit =>
    obtain ⟨edge, follows, falls⟩ := settled.read limit
    exact ⟨edge, follows, rfl, falls⟩
  | close =>
    obtain ⟨edge, follows, falls⟩ := settled.close
    exact ⟨edge, follows, rfl, falls⟩

theorem Settled.observe (settled : buffer.Settled) (ops : List Op) :
    let (last, seen) := buffer.observe ops
    let (flag, edges) := buffer.marks.steps buffer.backpressured (seen.map Observation.queuedBytes)
    last.Settled ∧ last.marks = buffer.marks ∧ last.backpressured = flag ∧
      List.Forall₂ Observation.Reports seen edges := by
  induction ops generalizing buffer with
  | nil => exact ⟨settled, rfl, rfl, .nil⟩
  | cons op ops ih =>
    obtain ⟨edge, follows, reports⟩ := settled.perform op
    obtain ⟨last, marks, flag, rest⟩ := ih follows.settled
    rw [follows.marks] at marks flag rest
    simp only [ChannelBuffer.observe, List.map_cons, Hysteresis.steps, follows.step]
    exact ⟨last, marks, flag, .cons reports rest⟩

/-- The operations that return a transition or make none. -/
def Op.reports : Op → Bool
  | .read _ | .close => false
  | _ => true

def reported (seen : List Observation) : List Transition :=
  (seen.filterMap Observation.returned).filter (· ≠ .none)

/-- Without a read and a close, every edge is reported. -/
theorem reported_eq {seen : List Observation} {edges : List (Option Edge)}
    (reports : List.Forall₂ Observation.Reports seen edges)
    (all : ∀ observation ∈ seen, observation.op.reports = true) :
    reported seen = edges.reduceOption.map fun edge => .of (some edge) := by
  induction reports with
  | nil => rfl
  | @cons observation edge seen edges first rest ih =>
    rw [List.forall_mem_cons] at all
    have rest := ih all.2
    have returned : observation.returned.getD .none = .of edge := by
      unfold Observation.Reports at first
      split at first
      · exact first
      · exact first
      · exact first
      · rw [first.1, first.2]
        rfl
      · rename_i read
        simp [read, Op.reports] at all
      · rename_i close
        simp [close, Op.reports] at all
    unfold reported at rest ⊢
    cases found : observation.returned with
    | none =>
      rw [found] at returned
      rw [List.filterMap_cons_none found, rest]
      cases edge with
      | none => rw [List.reduceOption_cons_of_none]
      | some edge => cases edge <;> cases returned
    | some transition =>
      rw [found] at returned
      rw [List.filterMap_cons_some found, show transition = .of edge from returned]
      cases edge with
      | none =>
        rw [List.reduceOption_cons_of_none, ← rest]
        rfl
      | some edge =>
        rw [List.reduceOption_cons_of_some, List.map_cons, ← rest]
        cases edge <;> rfl

end ChannelBuffer

namespace BodyStream

inductive Op where
  | feed (data : Bytes)
  | readChunk
  | finish
  | cancel
  | close

def perform (body : BodyStream) : Op → BodyStream
  | .feed data => (feed data body).1
  | .readChunk => (readChunk body).1
  | .finish => body.finish
  | .cancel => body.cancel
  | .close => body.close

/-- The flag of a stream is right for its unread chunks. -/
structure Watched (body : BodyStream) : Prop where
  low_nonneg : 0 ≤ body.lowWatermark
  marks : body.lowWatermark < body.highWatermark
  settled : Hysteresis.Settled ⟨body.lowWatermark, body.highWatermark, marks⟩ body.backpressured
    (body.queuedBytes : Int)
  queued : body.queuedBytes = ((body.chunks.drop body.readIndex).map List.length).sum
  inside : body.readIndex ≤ body.chunks.length

theorem init_watched {maxBytes lowWatermark highWatermark : Int} {streaming : Bool} {body : BodyStream}
    (start : init maxBytes lowWatermark highWatermark streaming = .ok body) : body.Watched := by
  unfold init at start
  split at start
  · cases start
  · simp only at start
    generalize (if highWatermark ≤ 0 then (if 0 < maxBytes then maxBytes else 1) else highWatermark) =
      high at start
    split at start
    · cases start
    · split at start
      · cases start
      · rename_i nonneg below
        cases start
        have marks := not_le.mp below
        exact ⟨not_lt.mp nonneg, marks, ⟨nofun, fun _ => lt_of_le_of_lt (not_lt.mp nonneg) marks⟩,
          rfl, le_rfl⟩

variable {body : BodyStream}

theorem Watched.feed (watched : body.Watched) (data : Bytes) : (feed data body).1.Watched := by
  obtain ⟨nonneg, marks, settled, queued, inside⟩ := watched
  unfold BodyStream.feed
  split
  · exact ⟨nonneg, marks, settled, queued, inside⟩
  · split
    · exact ⟨nonneg, marks, settled, queued, inside⟩
    · split
      · exact ⟨nonneg, marks, settled, queued, inside⟩
      · refine ⟨nonneg, marks, settled.grow
          (show (body.queuedBytes : Int) ≤ (body.queuedBytes + data.length : Nat) by omega), ?_, ?_⟩
        · simp only
          rw [List.drop_append_of_le_length inside]
          simp [queued]
        · simp only [List.length_append]
          omega

theorem Watched.take (watched : body.Watched) {chunk : Bytes}
    (found : body.chunks[body.readIndex]? = some chunk) :
    (body.take chunk).Watched := by
  obtain ⟨nonneg, marks, settled, queued, inside⟩ := watched
  obtain ⟨more, is⟩ := List.getElem?_eq_some_iff.mp found
  refine ⟨nonneg, marks, settled.drain
    (show ((body.queuedBytes - chunk.length : Nat) : Int) ≤ body.queuedBytes by omega), ?_, ?_⟩
  · have rest : body.queuedBytes - chunk.length =
        ((body.chunks.drop (body.readIndex + 1)).map List.length).sum := by
      rw [queued, List.drop_eq_getElem_cons more, is]
      simp
    simp only [BodyStream.take]
    split
    · exact rest
    · exact rest
  · simp only [BodyStream.take]
    split
    · exact Nat.zero_le _
    · exact more

theorem Watched.readChunk (watched : body.Watched) : (readChunk body).1.Watched := by
  unfold BodyStream.readChunk
  split
  · exact watched
  · split
    · rename_i found
      exact watched.take found
    · split
      · exact watched
      · split <;> exact watched

/-- `cancel` and `close` leave an empty stream. -/
theorem Watched.empty (watched : body.Watched) {next : BodyStream}
    (low : next.lowWatermark = body.lowWatermark)
    (high : next.highWatermark = body.highWatermark) (flag : next.backpressured = false)
    (queued : next.queuedBytes = 0)
    (chunks : next.chunks = []) (index : next.readIndex = 0) : next.Watched := by
  have marks : next.lowWatermark < next.highWatermark := by
    rw [low, high]
    exact watched.marks
  have nonneg : 0 ≤ next.lowWatermark := low ▸ watched.low_nonneg
  refine ⟨nonneg, marks, ⟨by simp [flag], fun _ => ?_⟩, by simp [queued, chunks], by simp [chunks, index]⟩
  rw [queued]
  exact lt_of_le_of_lt nonneg marks

theorem Watched.perform (watched : body.Watched) (op : Op) : (body.perform op).Watched := by
  cases op with
  | feed data => exact watched.feed data
  | readChunk => exact watched.readChunk
  | finish => exact ⟨watched.low_nonneg, watched.marks, watched.settled, watched.queued, watched.inside⟩
  | cancel => exact watched.empty rfl rfl rfl rfl rfl rfl
  | close =>
    show body.close.Watched
    unfold close
    split
    · exact watched
    · exact watched.empty rfl rfl rfl rfl rfl rfl

theorem Watched.foldl (watched : body.Watched) (ops : List Op) :
    (ops.foldl BodyStream.perform body).Watched := by
  induction ops generalizing body with
  | nil => exact watched
  | cons op ops ih => exact ih (watched.perform op)

end BodyStream

/-- Whatever is done with a channel buffer, its flag is that of a hysteresis on the bytes that are
queued after each operation: its edges alternate, beginning with a rise, and the flag tells whether
the last edge was a rise. An append or a consume returns its edge. A read returns bytes, so that its
edge is not reported, and neither is that of a close; without them the reported transitions are the
edges. The flag of a body stream keeps the same marks. What is assumed is that the constructors have
accepted their arguments. The operations are any sequence, those that raise included; they leave the
flag as it is. -/
theorem watermark_hysteresis :
    (∀ (segmentSize lowWatermark highWatermark maxBytes : Int) (buffer : ChannelBuffer)
      (ops : List ChannelBuffer.Op),
      ChannelBuffer.init segmentSize lowWatermark highWatermark maxBytes = .ok buffer →
        let (last, seen) := buffer.observe ops
        let edges := (buffer.marks.steps false (seen.map ChannelBuffer.Observation.queuedBytes)).2
        (last.backpressured = true → last.lowWatermark < last.queuedBytes) ∧
          (last.backpressured = false → last.queuedBytes < last.highWatermark) ∧
          Edge.Alternate false edges.reduceOption ∧
          last.backpressured = (edges.reduceOption.getLast?.map Edge.flag).getD false ∧
          List.Forall₂ ChannelBuffer.Observation.Reports seen edges ∧
          ((∀ observation ∈ seen, observation.op.reports = true) →
            ChannelBuffer.reported seen = edges.reduceOption.map fun edge => .of (some edge))) ∧
    ∀ (maxBytes lowWatermark highWatermark : Int) (streaming : Bool) (body : BodyStream)
      (ops : List BodyStream.Op),
      BodyStream.init maxBytes lowWatermark highWatermark streaming = .ok body →
        let last := ops.foldl BodyStream.perform body
        (last.backpressured = true → last.lowWatermark < last.queuedBytes) ∧
          (last.backpressured = false → (last.queuedBytes : Int) < last.highWatermark) := by
  constructor
  · intro segmentSize lowWatermark highWatermark maxBytes buffer ops start
    obtain ⟨settled, low⟩ := ChannelBuffer.init_settled start
    have run := settled.observe ops
    rw [low] at run
    obtain ⟨last, -, flag, reports⟩ := run
    exact ⟨last.above, last.below, Hysteresis.steps_alternate _ _,
      flag.trans (Hysteresis.steps_last _ _), reports, ChannelBuffer.reported_eq reports⟩
  · intro maxBytes lowWatermark highWatermark streaming body ops start
    have watched := (BodyStream.init_watched start).foldl ops
    exact ⟨watched.settled.above, watched.settled.below⟩

theorem watermark_hysteresis_narrow :
    (∃ buffer, ChannelBuffer.init 4 1 4 8 = .ok buffer ∧
      ChannelBuffer.reported (buffer.observe [.append [1, 2, 3, 4, 5], .appendView [6], .consume 3,
        .consume 2, .append [7]]).2 = [.high, .low]) ∧
    ∃ body, BodyStream.init 8 1 4 true = .ok body ∧
      let last := [BodyStream.Op.feed [1, 2, 3, 4], .feed [5], .readChunk].foldl BodyStream.perform body
      last.backpressured = false ∧ (last.queuedBytes : Int) < last.highWatermark := by
  constructor
  · refine ⟨_, rfl, ?_⟩
    exact ((watermark_hysteresis.1 4 1 4 8 _ _ rfl).2.2.2.2.2 (by decide +kernel)).trans (by decide +kernel)
  · refine ⟨_, rfl, by decide, ?_⟩
    exact (watermark_hysteresis.2 8 1 4 true _ _ rfl).2 (by decide)

/-- A read in between: the second append reports the high mark again. -/
theorem read_unreported : ∃ buffer, ChannelBuffer.init 4 1 4 8 = .ok buffer ∧
    ChannelBuffer.reported (buffer.observe [.append [1, 2, 3, 4], .read (-1)]).2 = [.high] ∧
    (buffer.observe [.append [1, 2, 3, 4], .read (-1)]).1.backpressured = false ∧
    ChannelBuffer.reported
      (buffer.observe [.append [1, 2, 3, 4], .read (-1), .append [1, 2, 3, 4]]).2 = [.high, .high] := by
  refine ⟨_, rfl, ?_, ?_, ?_⟩ <;> decide

end PccGateway
