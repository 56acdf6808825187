import PccGateway.BodyRefinement
import PccGateway.Lib.Interleaving

namespace PccGateway
namespace Handover

/-- Where the thread is that calls `feed`, `finish` and `wait_writable(-1)`. -/
inductive Producer where
  | idle
  /-- `feed` has accepted a chunk and will set the data event. -/
  | fed
  /-- `finish` will set the data event, and then the space event. -/
  | finishing
  | finished
  /-- In `_space_ready.wait()`. -/
  | waiting
  | woken
  deriving DecidableEq

/-- Where the thread is that calls `read_chunk`. -/
inductive Reader where
  | idle
  /-- In `_data_ready.wait()`. -/
  | waiting
  | woken
  /-- A chunk was taken, and the space event will be set. -/
  | waking (chunk : BodyChunk)
  /-- The chunk's `to_bytes` is next. -/
  | converting (chunk : BodyChunk)
  /-- The view's `release` is next. -/
  | releasing (view : Nat) (result : Bytes)
  deriving DecidableEq

/-- Where the thread is that calls `cancel` and `close`, with the chunks it has still to release. -/
inductive Controller where
  | idle
  | signalling (chunks : List BodyChunk)
  | waking (chunks : List BodyChunk)
  | releasing (chunks : List BodyChunk)
  deriving DecidableEq

/-- The view that the reader has taken and not released. -/
def Reader.held : Reader → Option Nat
  | .waking chunk | .converting chunk => chunk.viewed
  | .releasing view _ => some view
  | .idle | .waiting | .woken => none

def Controller.chunks : Controller → List BodyChunk
  | .idle => []
  | .signalling chunks | .waking chunks | .releasing chunks => chunks

end Handover

open Handover in
/-- A body stream that is fed, read and cancelled at the same time. Each locked section is one step,
and so is every event that is set and every `to_bytes` and `release` behind it. The chunks that were
accepted, those that were taken and those that were returned are recorded, and the exceptions of
`to_bytes` and `release`. -/
structure Handover where
  body : RetainedBody
  holders : List (Nat × Bool) := []
  retained : List Nat := []
  fed : List Bytes := []
  taken : List Bytes := []
  returned : List Bytes := []
  failures : List Exn := []
  dataReady : Bool := false
  spaceReady : Bool := true
  producer : Producer := .idle
  reader : Reader := .idle
  controller : Controller := .idle

namespace Handover

inductive Action where
  | outside (op : Holding.Op)
  | feed (data : BodyChunk)
  | finish
  | waitWritable
  | readChunk
  | cancel
  | close
  /-- A party goes on with the call it has begun. -/
  | producer
  | reader
  | controller

def holding (s : Handover) : Holding := ⟨s.body.heap, s.holders⟩

def onHeap (heap : Heap) (s : Handover) : Handover := { s with body := { s.body with heap := heap } }

/-- The locked section of `feed`. The space event is cleared in it at the high mark. -/
def feedSection (data : BodyChunk) (s : Handover) : Handover :=
  match RetainedBody.feedLocked data s.body with
  | (body, .ok true) =>
    { s with
      body := body
      retained := s.retained ++ (body.chunks.drop s.body.chunks.length).filterMap BodyChunk.viewed
      fed := s.fed ++ [data.content s.body.heap]
      spaceReady := s.spaceReady && !decide (body.highWatermark ≤ (body.queuedBytes : Int))
      producer := .fed }
  | (body, _) => { s with body := body }

/-- The locked section of `wait_writable`. -/
def waitSection (s : Handover) : Handover :=
  if s.body.streaming = false ∨ s.body.isOver = true ∨ s.body.backpressured = false then
    { s with producer := .idle }
  else { s with spaceReady := false, producer := .waiting }

def producerStep (s : Handover) : Handover :=
  match s.producer with
  | .idle => s
  | .fed => { s with dataReady := true, producer := .idle }
  | .finishing => { s with dataReady := true, producer := .finished }
  | .finished => { s with spaceReady := true, producer := .idle }
  | .waiting => if s.spaceReady then { s with producer := .woken } else s
  | .woken => s.waitSection

/-- The locked section of a pass of `read_chunk`. -/
def readSection (s : Handover) : Handover :=
  match s.body.readLocked with
  | (body, .taken chunk wakeSpace) =>
    { s with
      body := body
      taken := s.taken ++ [chunk.content s.body.heap]
      reader := if wakeSpace then .waking chunk else .converting chunk }
  | (body, .wait) => { s with body := body, dataReady := false, reader := .waiting }
  | (body, _) => { s with body := body, reader := .idle }

def readerStep (s : Handover) : Handover :=
  match s.reader with
  | .idle => s
  | .waiting => if s.dataReady then { s with reader := .woken } else s
  | .woken => s.readSection
  | .waking chunk => { s with spaceReady := true, reader := .converting chunk }
  | .converting (.bytes data) => { s with returned := s.returned ++ [data], reader := .idle }
  | .converting (.view id) =>
    match s.body.heap.toBytes id with
    | .ok data => { s with reader := .releasing id data }
    | .error error => { s with failures := s.failures ++ [error], reader := .idle }
  | .releasing id data =>
    match Heap.releaseView id s.body.heap with
    | (heap, .ok _) => { s.onHeap heap with returned := s.returned ++ [data], reader := .idle }
    | (heap, .error error) => { s.onHeap heap with failures := s.failures ++ [error], reader := .idle }

def cancelSection (s : Handover) : Handover :=
  let (body, chunks) := s.body.cancelLocked
  { s with body := body, controller := .signalling chunks }

def closeSection (s : Handover) : Handover :=
  match s.body.closeLocked with
  | none => s
  | some (body, chunks) => { s with body := body, controller := .signalling chunks }

def controllerStep (s : Handover) : Handover :=
  match s.controller with
  | .idle => s
  | .signalling chunks => { s with dataReady := true, controller := .waking chunks }
  | .waking chunks => { s with spaceReady := true, controller := .releasing chunks }
  | .releasing [] => { s with controller := .idle }
  | .releasing (chunk :: chunks) =>
    match chunk.drop s.body.heap with
    | (heap, .ok _) => { s.onHeap heap with controller := .releasing chunks }
    | (heap, .error error) => { s.onHeap heap with failures := s.failures ++ [error], controller := .idle }

/-- What other code does with segments and views. It does not have the views that the stream made for
itself. -/
def interfere (op : Holding.Op) (s : Handover) : Handover :=
  let next := s.holding.perform op
  { s.onHeap next.heap with holders := next.holders }

/-- A call is begun by a party that has ended its last one. -/
def step (s : Handover) : Action → Handover
  | .outside (.releaseView view) => if view ∈ s.retained then s else s.interfere (.releaseView view)
  | .outside op => s.interfere op
  | .feed data => if s.producer = .idle then s.feedSection data else s
  | .finish =>
    if s.producer = .idle then { s with body := s.body.finishLocked, producer := .finishing } else s
  | .waitWritable => if s.producer = .idle then s.waitSection else s
  | .readChunk => if s.reader = .idle then s.readSection else s
  | .cancel => if s.controller = .idle then s.cancelSection else s
  | .close => if s.controller = .idle then s.closeSection else s
  | .producer => s.producerStep
  | .reader => s.readerStep
  | .controller => s.controllerStep

/-- The stream is in order, whatever its parties are about to do: the views that the reader holds and
those that the controller has still to release are not queued any more, and the chunks are taken in
the order in which they were fed. -/
structure Kept (s : Handover) (datas : List Bytes) : Prop where
  represents : s.body.Represents s.holding.direct datas
  listed : ∀ id ∈ s.body.chunks.filterMap BodyChunk.viewed, id ∈ s.retained
  known : ∀ id ∈ s.retained, id < s.body.heap.views.length
  held : ∀ id, s.reader.held = some id → id ∈ s.retained ∧ id ∉ s.body.pending
  carried : ∀ id ∈ s.controller.chunks.filterMap BodyChunk.viewed, id ∈ s.retained ∧ id ∉ s.body.pending
  given : s.body.cancelled = true ∨ s.body.closed = true → s.body.unread = []
  ordered : s.taken <+: s.fed ∧ (s.body.cancelled = false → s.body.closed = false →
    s.fed = s.taken ++ datas.drop s.body.readIndex)

section Kept
variable {s : Handover} {datas : List Bytes}

theorem Kept.pending (kept : s.Kept datas) {id : Nat} (is : id ∈ s.body.pending) : id ∈ s.retained := by
  obtain ⟨chunk, among, is⟩ := List.mem_filterMap.mp is
  exact kept.listed id (List.mem_filterMap.mpr ⟨chunk, List.mem_of_mem_drop among, is⟩)

/-- Views that are not queued may be released, and other code may act. -/
theorem Kept.heap (kept : s.Kept datas) {gone : Nat → Prop} {heap : Heap} {holders : List (Nat × Bool)}
    (sound : Holding.Sound ⟨heap, holders⟩) (keeps : s.body.heap.Keeps gone heap)
    (grows : s.body.heap.views.length ≤ heap.views.length) (apart : ∀ id ∈ s.body.pending, ¬ gone id) :
    Kept { s.onHeap heap with holders := holders } datas := by
  have rep := kept.represents
  exact ⟨⟨sound, rep.watched, rep.length, BodyChunk.holds_keeps rep.holds keeps apart, rep.nodup⟩,
    kept.listed,
    fun id member => Nat.lt_of_lt_of_le (kept.known id member) grows, kept.held, kept.carried,
    kept.given, kept.ordered⟩

/-- What the parties do next is not part of it, but for the views they have. -/
theorem Kept.moves (kept : s.Kept datas) {next : Handover} (body : next.body = s.body)
    (same : (next.holders, next.retained, next.fed, next.taken) = (s.holders, s.retained, s.fed, s.taken))
    (held : ∀ id, next.reader.held = some id → s.reader.held = some id)
    (carried : ∀ id ∈ next.controller.chunks.filterMap BodyChunk.viewed,
      id ∈ s.controller.chunks.filterMap BodyChunk.viewed) : next.Kept datas := by
  simp only [Prod.mk.injEq] at same
  obtain ⟨holders, retained, fed, taken⟩ := same
  obtain ⟨rep, listed, known, held', carried', given, ordered⟩ := kept
  rw [← body] at listed known given ordered
  rw [← retained] at listed known
  rw [← fed, ← taken] at ordered
  refine ⟨?_, listed, known, fun id is => ?_, fun id is => ?_, given, ordered⟩
  · rw [holding, body, holders]
    exact rep
  · rw [retained, body]
    exact held' id (held id is)
  · rw [retained, body]
    exact carried' id (carried id is)

theorem Kept.feedSection (kept : s.Kept datas) (data : BodyChunk) :
    ∃ datas', (s.feedSection data).Kept datas' := by
  rcases RetainedBody.feedLocked_cases kept.represents data with ⟨error, here, -⟩ | ⟨-, here, -⟩ |
    ⟨filled, opened, -, next, own, here, -, represents, pushed, unread, held, keeps, fresh⟩
  · simp only [Handover.feedSection, here]
    exact ⟨datas, kept⟩
  · simp only [Handover.feedSection, here]
    exact ⟨datas, kept⟩
  · simp only [Handover.feedSection, here]
    obtain ⟨chunks, index, added⟩ := RetainedBody.push_added pushed
    have inside : s.body.readIndex ≤ datas.length := kept.represents.watched.inside
    have grows := (keeps fun _ => False).grows
    have pending {id : Nat} (old : id ∈ s.retained) (gone : id ∉ s.body.pending) : id ∉ next.pending := by
      rw [RetainedBody.pending, unread, List.filterMap_append, List.mem_append]
      rintro (is | new)
      · exact gone is
      · obtain ⟨chunk, among, is⟩ := List.mem_filterMap.mp new
        have at_ := fresh id (List.mem_singleton.mp among ▸ is)
        have below := kept.known id old
        omega
    have flags : next.cancelled = false ∧ next.closed = false := by
      rw [pushed]
      simp only [RetainedBody.isOver, Bool.or_eq_false_iff] at opened
      exact ⟨opened.1.2, opened.2⟩
    rw [added]
    refine ⟨datas ++ [data.content s.body.heap], represents, ?_, ?_, ?_, ?_, ?_, ?_⟩
    · simp only [chunks, List.filterMap_append, List.mem_append]
      exact fun id => Or.imp_left (kept.listed id)
    · intro id member
      rcases List.mem_append.mp member with old | new
      · exact Nat.lt_of_lt_of_le (kept.known id old) grows
      · obtain ⟨chunk, among, is⟩ := List.mem_filterMap.mp new
        exact (held.shows (List.mem_singleton.mp among ▸ is)).lt
    · intro id is
      obtain ⟨old, gone⟩ := kept.held id is
      exact ⟨List.mem_append_left _ old, pending old gone⟩
    · intro id is
      obtain ⟨old, gone⟩ := kept.carried id is
      exact ⟨List.mem_append_left _ old, pending old gone⟩
    · simp [flags]
    · have fed :=
        kept.ordered.2 (by rw [pushed] at flags; exact flags.1) (by rw [pushed] at flags; exact flags.2)
      have more : s.fed ++ [data.content s.body.heap] =
          s.taken ++ (datas ++ [data.content s.body.heap]).drop next.readIndex := by
        rw [fed, index, List.drop_append_of_le_length inside, List.append_assoc]
      exact ⟨⟨_, more.symm⟩, fun _ _ => more⟩

theorem Kept.waitSection (kept : s.Kept datas) : s.waitSection.Kept datas := by
  unfold Handover.waitSection
  split <;> exact kept.moves rfl rfl (fun _ is => is) fun _ is => is

theorem Kept.producerStep (kept : s.Kept datas) : s.producerStep.Kept datas := by
  unfold Handover.producerStep
  split
  · exact kept
  · exact kept.moves rfl rfl (fun _ is => is) fun _ is => is
  · exact kept.moves rfl rfl (fun _ is => is) fun _ is => is
  · exact kept.moves rfl rfl (fun _ is => is) fun _ is => is
  · split
    · exact kept.moves rfl rfl (fun _ is => is) fun _ is => is
    · exact kept
  · exact kept.waitSection

theorem Kept.readSection (kept : s.Kept datas) : ∃ datas', s.readSection.Kept datas' := by
  rcases RetainedBody.readLocked_cases kept.represents with ⟨-, here, -⟩ |
    ⟨running, chunk, rest, data, left, front, here, -, held, queue, represents, behind⟩ |
      ⟨-, -, -, here, -⟩ | ⟨-, -, -, here, -⟩ | ⟨-, -, -, here, -⟩
  · simp only [Handover.readSection, here]
    exact ⟨datas, kept.moves rfl rfl (by rintro _ ⟨⟩) fun _ is => is⟩
  · simp only [Handover.readSection, here]
    have nodup := kept.represents.nodup
    have before : s.body.pending = (chunk :: rest).filterMap BodyChunk.viewed := by
      rw [RetainedBody.pending, front]
    have after : (s.body.take chunk).pending = rest.filterMap BodyChunk.viewed := by
      rw [RetainedBody.pending, behind]
    have opened : s.body.closed = false := by
      cases closed : s.body.closed with
      | false => rfl
      | true =>
        have none := kept.given (.inr closed)
        rw [front] at none
        cases none
    refine ⟨left, represents, ?_, kept.known, ?_, ?_, ?_, ?_⟩
    · intro id member
      obtain ⟨other, among, is⟩ := List.mem_filterMap.mp member
      exact kept.listed id (List.mem_filterMap.mpr ⟨other, RetainedBody.take_chunks chunk among, is⟩)
    · intro id is
      have viewed : chunk.viewed = some id := by
        revert is
        split <;> exact fun is => is
      rw [after]
      rw [before, List.filterMap_cons_some viewed] at nodup
      exact ⟨kept.pending (by rw [before, List.filterMap_cons_some viewed]; exact List.mem_cons_self),
        (List.nodup_cons.mp nodup).1⟩
    · intro id is
      obtain ⟨old, gone⟩ := kept.carried id is
      refine ⟨old, fun among => gone ?_⟩
      rw [after] at among
      obtain ⟨other, queued, viewed⟩ := List.mem_filterMap.mp among
      rw [before]
      exact List.mem_filterMap.mpr ⟨other, List.mem_cons_of_mem _ queued, viewed⟩
    · intro isOver
      have none := kept.given isOver
      rw [front] at none
      cases none
    · have fed := kept.ordered.2 running opened
      have more : s.fed =
          s.taken ++ [chunk.content s.body.heap] ++ left.drop (s.body.take chunk).readIndex := by
        rw [fed, queue, held.content kept.represents.sound, List.append_assoc]
        rfl
      exact ⟨⟨_, more.symm⟩, fun _ _ => more⟩
  · simp only [Handover.readSection, here]
    exact ⟨datas, kept.moves rfl rfl (by rintro _ ⟨⟩) fun _ is => is⟩
  · simp only [Handover.readSection, here]
    exact ⟨datas, kept.moves rfl rfl (by rintro _ ⟨⟩) fun _ is => is⟩
  · simp only [Handover.readSection, here]
    exact ⟨datas, kept.moves rfl rfl (by rintro _ ⟨⟩) fun _ is => is⟩

theorem Kept.readerStep (kept : s.Kept datas) : ∃ datas', s.readerStep.Kept datas' := by
  have held := kept.held
  unfold Handover.readerStep
  split
  · exact ⟨datas, kept⟩
  · split
    · exact ⟨datas, kept.moves rfl rfl nofun fun _ is => is⟩
    · exact ⟨datas, kept⟩
  · exact kept.readSection
  · rename_i at_
    exact ⟨datas, kept.moves rfl rfl (fun _ is => by rw [at_]; exact is) fun _ is => is⟩
  · exact ⟨datas, kept.moves rfl rfl nofun fun _ is => is⟩
  · rename_i at_
    split
    · exact ⟨datas, kept.moves rfl rfl (fun _ is => by rw [at_]; exact is) fun _ is => is⟩
    · exact ⟨datas, kept.moves rfl rfl nofun fun _ is => is⟩
  · rename_i id data at_
    have step := Holding.releaseView_advances (show s.holding.Sound from kept.represents.sound) id
    have after := kept.heap step.sound step.keeps step.grows fun other is same =>
      (held id (by rw [at_]; rfl)).2 ((show other = id from same) ▸ is)
    split <;> rename_i run <;> rw [show Heap.releaseView id s.holding.heap = _ from run] at after
    · exact ⟨datas, after.moves rfl rfl nofun fun _ is => is⟩
    · exact ⟨datas, after.moves rfl rfl nofun fun _ is => is⟩

/-- `cancel` and `close` take chunks of the list and leave an empty queue. -/
theorem Kept.emptied (kept : s.Kept datas) {next : RetainedBody} {chunks : List BodyChunk}
    (represents : next.Represents s.holding.direct []) (heap : next.heap = s.body.heap)
    (empty : next.chunks = []) (isOver : next.cancelled = true ∨ next.closed = true)
    (given : ∀ chunk ∈ chunks, chunk ∈ s.body.chunks) :
    Kept { s with body := next, controller := .signalling chunks } [] := by
  have none (id : Nat) : id ∉ next.pending := by simp [RetainedBody.pending, RetainedBody.unread, empty]
  refine ⟨represents, by simp [empty], heap ▸ kept.known, fun id is => ⟨(kept.held id is).1, none id⟩, ?_,
    fun _ => by simp [RetainedBody.unread, empty], kept.ordered.1, fun running open_ => ?_⟩
  · intro id member
    obtain ⟨chunk, among, is⟩ := List.mem_filterMap.mp member
    exact ⟨kept.listed id (List.mem_filterMap.mpr ⟨chunk, given chunk among, is⟩), none id⟩
  · rcases isOver with cancelled | closed
    · exact absurd cancelled (by simp [show next.cancelled = false from running])
    · exact absurd closed (by simp [show next.closed = false from open_])

theorem Kept.cancelSection (kept : s.Kept datas) : s.cancelSection.Kept [] :=
  kept.emptied (kept.represents.emptied rfl rfl rfl rfl rfl rfl rfl) rfl rfl (.inl rfl) fun _ => id

theorem Kept.closeSection (kept : s.Kept datas) : ∃ datas', s.closeSection.Kept datas' := by
  unfold Handover.closeSection RetainedBody.closeLocked
  split
  · exact ⟨datas, kept⟩
  · rename_i found
    split at found
    · cases found
    · cases found
      exact ⟨[], kept.emptied (kept.represents.emptied rfl rfl rfl rfl rfl rfl rfl) rfl rfl
          (.inr rfl) fun _ =>
        List.mem_of_mem_drop⟩

theorem Kept.controllerStep (kept : s.Kept datas) : s.controllerStep.Kept datas := by
  have carried := kept.carried
  unfold Handover.controllerStep
  split
  · exact kept
  · rename_i at_
    exact kept.moves rfl rfl (fun _ is => is) fun _ is => by rw [at_]; exact is
  · rename_i at_
    exact kept.moves rfl rfl (fun _ is => is) fun _ is => by rw [at_]; exact is
  · exact kept.moves rfl rfl (fun _ is => is) (by simp [Controller.chunks])
  · rename_i chunk chunks at_
    have among {id : Nat} (is : chunk.viewed = some id) :
        id ∈ s.controller.chunks.filterMap BodyChunk.viewed := by
      rw [at_]
      exact List.mem_filterMap.mpr ⟨chunk, List.mem_cons_self, is⟩
    obtain ⟨heap, run, sound, keeps, length, -⟩ := @BodyChunk.drop_spec s.holding.direct s.body.heap chunk
      kept.represents.sound fun id is => kept.known id (carried id (among is)).1
    rw [run]
    have after := @Kept.heap s datas kept _ heap s.holders sound keeps length.ge fun id is viewed =>
      (carried id (among viewed)).2 is
    refine after.moves rfl rfl (fun _ is => is) fun id member => ?_
    obtain ⟨other, queued, viewed⟩ := List.mem_filterMap.mp member
    exact List.mem_filterMap.mpr
      ⟨other, by simp only [onHeap, at_]; exact List.mem_cons_of_mem _ queued, viewed⟩

theorem Kept.interfere (kept : s.Kept datas) {op : Holding.Op}
    (private_ : ∀ id ∈ s.retained, ¬ op.gone id) :
    (s.interfere op).Kept datas := by
  have step := Holding.Sound.perform (show s.holding.Sound from kept.represents.sound) op
  exact kept.heap step.sound step.keeps step.grows fun id is => private_ id (kept.pending is)

theorem Kept.step (kept : s.Kept datas) (action : Action) : ∃ datas', (s.step action).Kept datas' := by
  cases action with
  | outside op =>
    cases op with
    | releaseView view =>
      unfold Handover.step
      simp only
      split
      · exact ⟨datas, kept⟩
      · rename_i other
        exact ⟨datas, kept.interfere fun id member gone => other ((show id = view from gone) ▸ member)⟩
    | _ => exact ⟨datas, kept.interfere fun _ _ => not_false⟩
  | feed data =>
    unfold Handover.step
    simp only
    split
    · exact kept.feedSection data
    · exact ⟨datas, kept⟩
  | finish =>
    unfold Handover.step
    simp only
    split
    · have rep := kept.represents
      exact ⟨datas, ⟨rep.sound, rep.watched.perform .finish, rep.length, rep.holds, rep.nodup⟩,
        kept.listed, kept.known, kept.held, kept.carried, kept.given, kept.ordered⟩
    · exact ⟨datas, kept⟩
  | waitWritable =>
    unfold Handover.step
    simp only
    split
    · exact ⟨datas, kept.waitSection⟩
    · exact ⟨datas, kept⟩
  | readChunk =>
    unfold Handover.step
    simp only
    split
    · exact kept.readSection
    · exact ⟨datas, kept⟩
  | cancel =>
    unfold Handover.step
    simp only
    split
    · exact ⟨[], kept.cancelSection⟩
    · exact ⟨datas, kept⟩
  | close =>
    unfold Handover.step
    simp only
    split
    · exact kept.closeSection
    · exact ⟨datas, kept⟩
  | producer => exact ⟨datas, kept.producerStep⟩
  | reader => exact kept.readerStep
  | controller => exact ⟨datas, kept.controllerStep⟩

/-- A new stream. -/
theorem Kept.fresh {maxBytes lowWatermark highWatermark : Int} {streaming : Bool} {body : RetainedBody}
    (start : RetainedBody.init {} maxBytes lowWatermark highWatermark streaming = .ok body) :
    Kept { body := body } [] := by
  obtain ⟨rep, empty, running, open_⟩ := RetainedBody.init_represents start
  refine ⟨rep, by simp [empty], by simp, nofun, by simp [Controller.chunks], by simp [running, open_],
    ⟨[], rfl⟩, ?_⟩
  exact fun _ _ => List.drop_nil.symm

end Kept
end Handover
end PccGateway
