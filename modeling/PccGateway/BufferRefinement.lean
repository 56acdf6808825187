import Mathlib.Data.List.Forall2
import Mathlib.Data.List.Nodup
import PccGateway.SegmentedBuffer

namespace PccGateway
namespace Heap

/-- A live view and its bytes. -/
def Shows (heap : Heap) (id : Nat) (data : Bytes) : Prop :=
  ∃ view, heap.views[id]? = some view ∧ view.released = false ∧ heap.shown view = data

section Shows
variable {direct : Nat → Nat} {gone : Nat → Prop} {heap next : Heap} {id : Nat} {data : Bytes}

theorem Shows.lt (shows : heap.Shows id data) : id < heap.views.length := by
  obtain ⟨_, found, -⟩ := shows
  exact (List.getElem?_eq_some_iff.mp found).1

theorem Shows.keeps (shows : heap.Shows id data) (keeps : heap.Keeps gone next) (kept : ¬ gone id) :
    next.Shows id data := by
  obtain ⟨view, found, live, rfl⟩ := shows
  exact ⟨view, keeps.views id view found kept, live, keeps.shown id view found kept live⟩

theorem Keeps.fresh {more : Nat → Prop} (keeps : heap.Keeps gone next)
    (le : ∀ id < heap.views.length, gone id → more id) :
    heap.Keeps more next where
  views := fun id view found kept =>
    keeps.views id view found fun is => kept (le id (List.getElem?_eq_some_iff.mp found).1 is)
  shown := fun id view found kept =>
    keeps.shown id view found fun is => kept (le id (List.getElem?_eq_some_iff.mp found).1 is)
  dropped := keeps.dropped

theorem shows_keeps {ids : List Nat} {datas : List Bytes} (shows : List.Forall₂ heap.Shows ids datas)
    (keeps : heap.Keeps gone next) (kept : ∀ id ∈ ids, ¬ gone id) : List.Forall₂ next.Shows ids datas := by
  induction shows with
  | nil => exact .nil
  | cons first rest ih =>
    rw [List.forall_mem_cons] at kept
    exact .cons (first.keeps keeps kept.1) (ih kept.2)

theorem shows_mem {ids : List Nat} {datas : List Bytes} (shows : List.Forall₂ heap.Shows ids datas) :
    ∀ id ∈ ids, ∃ data, heap.Shows id data := by
  induction shows with
  | nil => simp
  | cons first rest ih =>
    rw [List.forall_mem_cons]
    exact ⟨⟨_, first⟩, ih⟩

theorem shows_lt {ids : List Nat} {datas : List Bytes} (shows : List.Forall₂ heap.Shows ids datas) :
    ∀ id ∈ ids, id < heap.views.length := by
  intro id member
  obtain ⟨_, shown⟩ := shows_mem shows id member
  exact shown.lt

theorem Shows.toBytes (sound : heap.Sound direct) (shows : heap.Shows id data) :
    heap.toBytes id = .ok data := by
  obtain ⟨view, found, live, rfl⟩ := shows
  exact sound.toBytes found live

theorem shows_of_toBytes (read : heap.toBytes id = .ok data) : heap.Shows id data := by
  unfold Heap.toBytes at read
  split at read
  · cases read
  · rename_i view found
    split at read
    · cases read
    · rename_i live
      split at read
      · cases read
      · rename_i segment is
        cases read
        exact ⟨view, found, by simpa using live, shown_of_segment is⟩

theorem Shows.viewLength (sound : heap.Sound direct) (shows : heap.Shows id data) :
    heap.viewLength id = data.length := by
  obtain ⟨view, found, live, rfl⟩ := shows
  obtain ⟨segment, is, held, inside⟩ := sound.owner_live (List.mem_of_getElem? found) live
  obtain ⟨-, size, -, -, stop⟩ := (sound.shaped _ _ is).held held
  simp only [Heap.viewLength, found, live, shown_of_segment is, BufferSegment.range, List.length_take,
    List.length_drop, Bool.false_eq_true, if_false]
  omega

theorem shows_toBytes (sound : heap.Sound direct) {ids : List Nat} {datas : List Bytes}
    (shows : List.Forall₂ heap.Shows ids datas) : ids.mapM heap.toBytes = .ok datas := by
  induction shows with
  | nil => rfl
  | cons first rest ih =>
    rw [List.mapM_cons, first.toBytes sound, ih]
    rfl

/-- A slice of a live view shows the part. -/
theorem Shows.slice (sound : heap.Sound direct) (shows : heap.Shows id data) {offset length : Nat}
    (inside : offset + length ≤ data.length) :
    ∃ next, Heap.slice id offset length heap = (next, .ok heap.views.length) ∧
      next.Sound direct ∧ heap.Keeps gone next ∧ next.views.length = heap.views.length + 1 ∧
      next.Shows heap.views.length ((data.drop offset).take length) := by
  have size := shows.viewLength sound
  obtain ⟨view, found, live, rfl⟩ := shows
  obtain ⟨segment, is, held, within⟩ := sound.owner_live (List.mem_of_getElem? found) live
  have length_eq : view.length = (heap.shown view).length := by
    simpa [Heap.viewLength, found, live] using size
  obtain ⟨next, made, nextSound, keeps, views, shown⟩ :=
    @newView_valid direct gone heap segment sound view.owner
    (view.start + offset) length is held (by omega) (by omega)
  refine ⟨next, ?_, nextSound, keeps, by rw [views, List.length_append]; rfl, ?_⟩
  · unfold Heap.slice
    simp only [found, live, Bool.false_eq_true, if_false]
    rw [if_neg (by omega), if_neg (by omega : ¬ (length : Int) < 0), if_neg (by omega)]
    exact made
  · refine ⟨_, by rw [views]; exact List.getElem?_concat_length .., rfl, ?_⟩
    rw [shown, shown_of_segment is, BufferSegment.range, BufferSegment.range, List.drop_take,
      List.take_take, List.drop_drop]
    have first : ((view.start : Int) + (offset : Int)).toNat = view.start + offset := by omega
    have last : min length (view.length - offset) = length := by omega
    rw [first, Int.toNat_natCast, last]

/-- `slice()` of a live view shows all of it. -/
theorem Shows.slice_all (sound : heap.Sound direct) (shows : heap.Shows id data) :
    ∃ next, Heap.slice id 0 (-1) heap = (next, .ok heap.views.length) ∧ next.Sound direct ∧
    heap.Keeps gone next ∧
      next.views.length = heap.views.length + 1 ∧ next.Shows heap.views.length data := by
  have size := shows.viewLength sound
  obtain ⟨next, made, rest⟩ := @Shows.slice direct gone heap id data sound shows 0 data.length (by omega)
  refine ⟨next, ?_, by simpa using rest⟩
  rw [← made]
  obtain ⟨view, found, live, rfl⟩ := shows
  have length_eq : view.length = (heap.shown view).length := by
    simpa [Heap.viewLength, found, live] using size
  unfold Heap.slice
  simp only [found, live, Bool.false_eq_true, if_false, ← length_eq]
  simp

/-- A live view can be released. -/
theorem Shows.release (sound : heap.Sound direct) (shows : heap.Shows id data) :
    ∃ next count, releaseView id heap = (next, .ok count) ∧ next.Sound direct ∧ heap.Keeps (· = id) next ∧
      next.views.length = heap.views.length ∧ ∃ view, next.views[id]? = some view ∧
      view.released = true := by
  obtain ⟨view, found, live, rfl⟩ := shows
  have inRange := (List.getElem?_eq_some_iff.mp found).1
  obtain ⟨next, run, nextSound, keeps, views⟩ := releaseView_sound sound found live
  refine ⟨next, _, run, nextSound, keeps, by rw [views, List.length_set],
    { view with released := true, length := 0 }, ?_, rfl⟩
  rw [views]
  simp [inRange]

end Shows
end Heap

/-- A fresh segment takes as much of the source as it holds. -/
theorem BufferSegment.write_fresh {capacity offset remaining : Nat} {source : Bytes}
    {segment : BufferSegment}
    (made : BufferSegment.init capacity = .ok segment) (full : capacity ≤ remaining)
    (fits : offset + remaining ≤ source.length) :
    ∃ written, BufferSegment.write source offset remaining segment =
      (written, .ok capacity) ∧ written.released = false ∧ written.start = 0 ∧ written.stop = capacity ∧
      written.range 0 capacity = (source.drop offset).take capacity := by
  obtain ⟨-, -, live, size, start, stop⟩ := BufferSegment.init_shaped made
  have count : min remaining segment.writableBytes = capacity := by
    simp only [BufferSegment.writableBytes, live, size, stop, Bool.false_eq_true, if_false]
    omega
  have storage : segment.data.length = capacity := by
    unfold BufferSegment.init at made
    split at made
    · cases made
    · cases made
      simp
  have taken : ((source.drop offset).take capacity).length = capacity := by
    rw [List.length_take, List.length_drop]
    omega
  refine ⟨{ segment with
    data := BufferSegment.copyInto segment.data segment.stop ((source.drop offset).take capacity)
    stop := segment.stop + capacity }, ?_, live, start, by simp only [stop]; omega, ?_⟩
  · unfold BufferSegment.write
    simp only [live, Bool.false_eq_true, if_false]
    rw [if_neg (by omega), if_neg (by omega : ¬ (remaining : Int) < 0), if_neg (by omega)]
    simp only [Int.toNat_natCast, count]
  · have copied :=
      BufferSegment.copyInto_range segment.data 0 ((source.drop offset).take capacity) (by omega)
    rw [taken] at copied
    simp only [BufferSegment.range, stop]
    exact copied

namespace SegmentedBuffer
variable {direct : Nat → Nat} {gone : Nat → Prop}

/-- One pass of `append` leaves one new view, which shows its part of the source. -/
theorem storeSegment_spec {heap : Heap} (sound : heap.Sound direct) {source : Bytes}
    {offset capacity remaining : Nat}
    (positive : 0 < capacity) (full : capacity ≤ remaining) (fits : offset + remaining ≤ source.length) :
    ∃ next, storeSegment source offset capacity remaining heap = (next, .ok (heap.views.length, capacity)) ∧
      next.Sound direct ∧ heap.Keeps gone next ∧ next.views.length = heap.views.length + 1 ∧
      next.Shows heap.views.length ((source.drop offset).take capacity) := by
  obtain ⟨segment, made⟩ : ∃ segment, BufferSegment.init capacity = .ok segment := by
    unfold BufferSegment.init
    rw [if_neg (by omega)]
    exact ⟨_, rfl⟩
  obtain ⟨written, wrote, live, start, stop, range⟩ := BufferSegment.write_fresh made full fits
  -- the creator holds the segment until the view does
  let held : Nat → Nat := fun other => if other = heap.segments.length then 1 else direct other
  obtain ⟨createdSound, createdKeeps⟩ :=
    @Heap.newSegment_sound direct held (fun _ => False) heap segment sound capacity made
    (if_pos rfl) fun other differ => if_neg differ
  have at_ : (heap.segments ++ [segment])[heap.segments.length]? = some segment :=
    List.getElem?_concat_length ..
  obtain ⟨writtenSound, writtenKeeps⟩ := @Heap.onSegment_grows held (fun _ => False) _
    heap.segments.length _ (BufferSegment.write source offset remaining)
    createdSound fun _ => BufferSegment.write_grows
  have wroteHeap : Heap.onSegment heap.segments.length (BufferSegment.write source offset remaining)
      { heap with segments := heap.segments ++ [segment] } =
      ({ heap with segments := (heap.segments ++ [segment]).set heap.segments.length written },
        .ok capacity) := by
    simp only [Heap.onSegment, at_, wrote]
  rw [wroteHeap] at writtenSound writtenKeeps
  have is : ((heap.segments ++ [segment]).set heap.segments.length written)[heap.segments.length]? =
      some written := by simp
  obtain ⟨viewed, view, viewedSound, viewedKeeps, views, shown⟩ := @Heap.newView_valid held (fun _ =>
    False) _ written writtenSound
    heap.segments.length 0 capacity is live (by omega) (by omega)
  obtain ⟨owner, found, -⟩ := viewedSound.owned
    { owner := heap.segments.length, start := 0, length := capacity }
    (by rw [views]; simp)
  obtain ⟨next, released, nextSound, nextKeeps, nextViews⟩ :=
    @Heap.release_sound held direct (fun _ => False) viewed
    heap.segments.length owner viewedSound found (by simp [held])
      (by simp [held]; exact sound.absent _ (Nat.le_refl _)) fun other differ => by simp [held, differ]
  have keeps := createdKeeps.trans (writtenKeeps.trans (viewedKeeps.trans nextKeeps))
  refine ⟨next, ?_, nextSound, keeps.mono (by simp), ?_, ?_⟩
  · have viewing : Heap.view heap.segments.length 0 capacity
        { heap with segments := (heap.segments ++ [segment]).set heap.segments.length written } =
        (viewed, .ok heap.views.length) := by
      rw [← view]
      unfold Heap.view
      simp only [is, live, Bool.false_eq_true, if_false, BufferSegment.readableBytes, start, stop]
      rw [if_neg (by omega), if_neg (by omega : ¬ (capacity : Int) < 0), if_neg (by omega)]
      rfl
    unfold storeSegment
    simp only [Method.bind_run, Heap.newSegment, made, wroteHeap, viewing, released, Method.pure_run]
  · rw [nextViews, views]
    simp
  · have shows : viewed.Shows heap.views.length ((source.drop offset).take capacity) := by
      refine ⟨_, by rw [views]; exact List.getElem?_concat_length .., rfl, ?_⟩
      rw [shown, Int.toNat_natCast]
      exact range
    exact shows.keeps nextKeeps not_false

/-- The views that are queued. -/
def pending (buffer : SegmentedBuffer) : List Nat := buffer.views.drop buffer.head

/-- A buffer and its bytes: every queued view shows the bytes in its place, and no view is queued twice. -/
structure Represents (direct : Nat → Nat) (buffer : SegmentedBuffer) (bytes : ChannelBuffer) : Prop where
  sound : buffer.heap.Sound direct
  settings : (buffer.segmentSize, buffer.lowWatermark, buffer.highWatermark, buffer.maxBytes,
    buffer.closed) = bytes.settings
  head : buffer.head = bytes.head
  headOffset : buffer.headOffset = bytes.headOffset
  queuedBytes : buffer.queuedBytes = bytes.queuedBytes
  backpressured : buffer.backpressured = bytes.backpressured
  length : buffer.views.length = bytes.views.length
  shows : List.Forall₂ buffer.heap.Shows buffer.pending (bytes.views.drop bytes.head)
  nodup : buffer.pending.Nodup

/-- What an operation did with the views: those it passed are released, those it added are new. -/
structure Moved (buffer next : SegmentedBuffer) (passed added : List Nat) : Prop where
  keeps : buffer.heap.Keeps (· ∈ passed) next.heap
  grows : buffer.heap.views.length ≤ next.heap.views.length
  pending : buffer.pending ++ added = passed ++ next.pending
  isOver : ∀ id ∈ passed, ∃ view, next.heap.views[id]? = some view ∧ view.released = true
  fresh : ∀ id ∈ added, buffer.heap.views.length ≤ id

theorem Moved.still (buffer : SegmentedBuffer) : Moved buffer buffer [] [] :=
  ⟨.refl _, Nat.le_refl _, by simp, by simp, by simp⟩

/-- A change of neither the heap nor the queued views. -/
theorem Moved.of_eq {buffer next last : SegmentedBuffer} {passed added : List Nat}
    (moved : Moved buffer next passed added)
    (heap : last.heap = next.heap) (pending : last.pending = next.pending) :
    Moved buffer last passed added :=
  ⟨heap ▸ moved.keeps, heap ▸ moved.grows, pending ▸ moved.pending, heap ▸ moved.isOver, moved.fresh⟩

theorem Moved.trans {buffer next last : SegmentedBuffer} {first second : List Nat}
    (before : Moved buffer next first [])
    (after : Moved next last second []) : Moved buffer last (first ++ second) [] where
  keeps := (before.keeps.mono fun _ is => List.mem_append_left _ is).trans
    (after.keeps.mono fun _ is => List.mem_append_right _ is)
  grows := before.grows.trans after.grows
  pending := by
    have one := before.pending
    have two := after.pending
    rw [List.append_nil] at one two ⊢
    rw [one, two, List.append_assoc]
  isOver := by
    intro id member
    by_cases later : id ∈ second
    · exact after.isOver id later
    · obtain ⟨view, found, isOver⟩ := before.isOver id ((List.mem_append.mp member).resolve_right later)
      exact ⟨view, after.keeps.views id view found later, isOver⟩
  fresh := by simp

theorem appendLoop_spec {source : Bytes} {fuel offset : Nat} {buffer : SegmentedBuffer}
    (sound : buffer.heap.Sound direct) (positive : 0 < buffer.segmentSize) :
    ∃ next added, appendLoop source fuel offset buffer =
        ({ buffer with heap := next, views := buffer.views ++ added }, .ok ()) ∧
      next.Sound direct ∧ buffer.heap.Keeps (fun _ => False) next ∧ buffer.heap.views.length ≤
        next.views.length ∧
      List.Forall₂ next.Shows added (ChannelBuffer.segments buffer.segmentSize fuel (source.drop offset)) ∧
      added.Nodup ∧ ∀ id ∈ added, buffer.heap.views.length ≤ id := by
  induction fuel generalizing offset buffer with
  | zero =>
    exact ⟨buffer.heap, [], by simp [appendLoop], sound, .refl _, Nat.le_refl _, .nil, .nil, by simp⟩
  | succ fuel ih =>
    unfold appendLoop ChannelBuffer.segments
    by_cases done : source.length ≤ offset
    · rw [if_pos done, if_pos (List.drop_eq_nil_iff.mpr done)]
      exact ⟨buffer.heap, [], by simp, sound, .refl _, Nat.le_refl _, .nil, .nil, by simp⟩
    · rw [if_neg done, if_neg (fun empty => done (List.drop_eq_nil_iff.mp empty))]
      have size : (source.drop offset).length = source.length - offset := List.length_drop ..
      obtain ⟨stored, store, storedSound, storedKeeps, storedLength, shows⟩ :=
        @storeSegment_spec direct (fun _ => False)
        buffer.heap sound source offset (min buffer.segmentSize (source.length - offset))
          (source.length - offset) (by omega)
        (by omega) (by omega)
      obtain ⟨next, added, run, nextSound, keeps, grows, more, nodup, fresh⟩ :=
        @ih (offset + min buffer.segmentSize (source.length - offset))
        { buffer with heap := stored, views := buffer.views ++ [buffer.heap.views.length] }
          storedSound positive
      have cut : (source.drop offset).take (min buffer.segmentSize (source.length - offset)) =
          (source.drop offset).take buffer.segmentSize := by
        rw [← size]
        rcases Nat.le_total buffer.segmentSize (source.drop offset).length with less | all
        · rw [Nat.min_eq_left less]
        · rw [Nat.min_eq_right all, List.take_length, List.take_of_length_le all]
      have rest : source.drop (offset + min buffer.segmentSize (source.length - offset)) =
          (source.drop offset).drop buffer.segmentSize := by
        rw [← size, ← List.drop_drop]
        rcases Nat.le_total buffer.segmentSize (source.drop offset).length with less | all
        · rw [Nat.min_eq_left less]
        · rw [Nat.min_eq_right all, List.drop_length, List.drop_of_length_le all]
      rw [cut] at shows
      simp only [rest, storedLength] at more fresh grows
      refine ⟨next, buffer.heap.views.length :: added, ?_, nextSound, storedKeeps.trans keeps, by omega,
        .cons (shows.keeps keeps not_false) more, List.nodup_cons.mpr ⟨fun member => ?_, nodup⟩, ?_⟩
      · simp only [Method.bind_run, Method.get_run, onHeap, Method.on, store, Method.modify_run]
        rw [run]
        simp
      · have := fresh _ member
        omega
      · rw [List.forall_mem_cons]
        exact ⟨Nat.le_refl _, fun id member => by have := fresh id member; omega⟩

theorem transitionAfterGrowth_eq {buffer : SegmentedBuffer} {bytes : ChannelBuffer}
    (rep : Represents direct buffer bytes) :
    ∃ transition next bytes', buffer.transitionAfterGrowth = (next, .ok transition) ∧
      bytes.transitionAfterGrowth = (bytes', .ok transition) ∧ Represents direct next bytes' ∧
      next.heap = buffer.heap ∧ next.pending = buffer.pending ∧ next.views = buffer.views := by
  have high : buffer.highWatermark = bytes.highWatermark := congrArg (·.2.2.1) rep.settings
  have same : buffer.backpressured = false ∧ buffer.highWatermark ≤ buffer.queuedBytes ↔
      bytes.backpressured = false ∧ bytes.highWatermark ≤ bytes.queuedBytes := by
    rw [rep.backpressured, rep.queuedBytes, high]
  unfold transitionAfterGrowth ChannelBuffer.transitionAfterGrowth
  by_cases crosses : bytes.backpressured = false ∧ bytes.highWatermark ≤ bytes.queuedBytes
  · rw [if_pos crosses, if_pos (same.mpr crosses)]
    exact ⟨_, _, _, rfl, rfl, ⟨rep.sound, rep.settings, rep.head, rep.headOffset, rep.queuedBytes,
      rfl, rep.length, rep.shows, rep.nodup⟩, rfl, rfl, rfl⟩
  · rw [if_neg crosses, if_neg fun is => crosses (same.mp is)]
    exact ⟨_, _, _, rfl, rfl, rep, rfl, rfl, rfl⟩

theorem transitionAfterDrain_eq {buffer : SegmentedBuffer} {bytes : ChannelBuffer}
    (rep : Represents direct buffer bytes) :
    ∃ transition next bytes', buffer.transitionAfterDrain = (next, .ok transition) ∧
      bytes.transitionAfterDrain = (bytes', .ok transition) ∧ Represents direct next bytes' ∧
      next.heap = buffer.heap ∧ next.pending = buffer.pending := by
  have low : buffer.lowWatermark = bytes.lowWatermark := congrArg (·.2.1) rep.settings
  have same : buffer.backpressured = true ∧ buffer.queuedBytes ≤ buffer.lowWatermark ↔
      bytes.backpressured = true ∧ bytes.queuedBytes ≤ bytes.lowWatermark := by
    rw [rep.backpressured, rep.queuedBytes, low]
  unfold transitionAfterDrain ChannelBuffer.transitionAfterDrain
  by_cases crosses : bytes.backpressured = true ∧ bytes.queuedBytes ≤ bytes.lowWatermark
  · rw [if_pos crosses, if_pos (same.mpr crosses)]
    exact ⟨_, _, _, rfl, rfl, ⟨rep.sound, rep.settings, rep.head, rep.headOffset, rep.queuedBytes,
      rfl, rep.length, rep.shows, rep.nodup⟩, rfl, rfl⟩
  · rw [if_neg crosses, if_neg fun is => crosses (same.mp is)]
    exact ⟨_, _, _, rfl, rfl, rep, rfl, rfl⟩

/-- Growth by views that are new. -/
theorem Represents.grow {buffer : SegmentedBuffer} {bytes : ChannelBuffer}
    (rep : Represents direct buffer bytes)
    (head_le : bytes.head ≤ bytes.views.length) {heap : Heap} (sound : heap.Sound direct)
    (keeps : buffer.heap.Keeps (fun _ => False) heap) (grows : buffer.heap.views.length ≤ heap.views.length)
    {added : List Nat} {datas : List Bytes} (shows : List.Forall₂ heap.Shows added datas)
    (nodup : added.Nodup) (fresh : ∀ id ∈ added, buffer.heap.views.length ≤ id) (length : Nat) :
    ∃ next bytes' transition,
      transitionAfterGrowth { buffer with
        heap := heap, views := buffer.views ++ added,
          queuedBytes := buffer.queuedBytes + length } = (next, .ok transition) ∧
      ChannelBuffer.transitionAfterGrowth { bytes with
        views := bytes.views ++ datas,
          queuedBytes := bytes.queuedBytes + length } = (bytes', .ok transition) ∧
      Represents direct next bytes' ∧ Moved buffer next [] added ∧ next.views = buffer.views ++ added := by
  have head_le' : buffer.head ≤ buffer.views.length := by rw [rep.head, rep.length]; exact head_le
  have pending : ({ buffer with
      heap := heap, views := buffer.views ++ added, queuedBytes := buffer.queuedBytes + length } :
        SegmentedBuffer).pending = buffer.pending ++ added := by
    simp only [SegmentedBuffer.pending]
    exact List.drop_append_of_le_length head_le'
  have grown : Represents direct { buffer with
      heap := heap, views := buffer.views ++ added, queuedBytes := buffer.queuedBytes + length }
      { bytes with views := bytes.views ++ datas, queuedBytes := bytes.queuedBytes + length } := by
    refine ⟨sound, rep.settings, rep.head, rep.headOffset, by simp only [rep.queuedBytes],
      rep.backpressured, ?_, ?_, ?_⟩
    · simp only [List.length_append, rep.length, shows.length_eq]
    · rw [pending, List.drop_append_of_le_length head_le]
      exact List.rel_append (Heap.shows_keeps rep.shows keeps fun _ _ => not_false) shows
    · rw [pending, List.nodup_append]
      refine ⟨rep.nodup, nodup, ?_⟩
      rintro old member _ new rfl
      have := Heap.shows_lt rep.shows old member
      have := fresh old new
      omega
  obtain ⟨transition, next, bytes', run, run', represents, sameHeap, samePending, sameViews⟩ :=
    transitionAfterGrowth_eq grown
  refine ⟨next, bytes', transition, run, run', represents, ⟨?_, ?_, ?_, by simp, fresh⟩, sameViews⟩
  · rw [sameHeap]
    exact keeps.mono nofun
  · rw [sameHeap]
    exact grows
  · rw [samePending, pending]
    rfl

theorem append_simulates {buffer : SegmentedBuffer} {bytes : ChannelBuffer}
    (rep : Represents direct buffer bytes)
    (head_le : bytes.head ≤ bytes.views.length) (source : Bytes) : ∃ next bytes' result added,
      append source buffer = (next, result) ∧ bytes.append source = (bytes', result) ∧
      Represents direct next bytes' ∧
      Moved buffer next [] added ∧ next.views = buffer.views ++ added := by
  have settings := rep.settings
  simp only [ChannelBuffer.settings, Prod.mk.injEq] at settings
  obtain ⟨segmentSize, -, -, maxBytes, closed⟩ := settings
  unfold append ChannelBuffer.append
  simp only [Method.bind_run, Method.get_run]
  rw [closed, maxBytes, rep.queuedBytes]
  by_cases isOver : bytes.closed = true
  · rw [if_pos isOver, if_pos isOver]
    exact ⟨buffer, bytes, _, [], rfl, rfl, rep, .still buffer, by simp⟩
  · rw [if_neg isOver, if_neg isOver]
    by_cases full : bytes.maxBytes < bytes.queuedBytes + source.length
    · rw [if_pos full, if_pos full]
      exact ⟨buffer, bytes, _, [], rfl, rfl, rep, .still buffer, by simp⟩
    · rw [if_neg full, if_neg full]
      obtain ⟨heap, added, run, sound, keeps, grows, shows, nodup, fresh⟩ :=
        @appendLoop_spec direct source source.length 0
        buffer rep.sound (segmentSize ▸ bytes.segment_pos)
      obtain ⟨next, bytes', transition, grown, grown', represents, moved⟩ :=
        rep.grow head_le sound keeps grows shows nodup fresh source.length
      refine ⟨next, bytes', .ok transition, added, ?_, ?_, represents, moved⟩
      · simp only [Method.bind_run, run, Method.modify_run]
        exact grown
      · rw [List.drop_zero, segmentSize] at grown'
        exact grown'

theorem appendView_simulates {buffer : SegmentedBuffer} {bytes : ChannelBuffer}
    (rep : Represents direct buffer bytes)
    (head_le : bytes.head ≤ bytes.views.length) {view : Nat} {data : Bytes}
    (shows : buffer.heap.Shows view data) :
    ∃ next bytes' result added,
      appendView view buffer = (next, result) ∧ bytes.appendView data = (bytes', result) ∧
      Represents direct next bytes' ∧
      Moved buffer next [] added ∧ next.views = buffer.views ++ added := by
  have settings := rep.settings
  simp only [ChannelBuffer.settings, Prod.mk.injEq] at settings
  obtain ⟨-, -, -, maxBytes, closed⟩ := settings
  unfold appendView ChannelBuffer.appendView
  simp only [Method.bind_run, Method.get_run]
  rw [closed, maxBytes, rep.queuedBytes, shows.viewLength rep.sound]
  by_cases isOver : bytes.closed = true
  · rw [if_pos isOver, if_pos isOver]
    exact ⟨buffer, bytes, _, [], rfl, rfl, rep, .still buffer, by simp⟩
  · rw [if_neg isOver, if_neg isOver]
    by_cases full : bytes.maxBytes < bytes.queuedBytes + data.length
    · rw [if_pos full, if_pos full]
      exact ⟨buffer, bytes, _, [], rfl, rfl, rep, .still buffer, by simp⟩
    · rw [if_neg full, if_neg full]
      obtain ⟨heap, made, sound, keeps, length, kept⟩ :=
        @Heap.Shows.slice_all direct (fun _ => False) buffer.heap view data
        rep.sound shows
      obtain ⟨next, bytes', transition, grown, grown', represents, moved⟩ :=
        rep.grow head_le sound keeps (by omega)
        (.cons kept .nil) (List.nodup_singleton _) (by simp) data.length
      refine ⟨next, bytes', .ok transition, _, ?_, grown', represents, moved⟩
      simp only [Method.bind_run, onHeap, Method.on, made, Method.modify_run]
      exact grown

/-- The view at the head and its bytes. -/
theorem Represents.at_head {buffer : SegmentedBuffer} {bytes : ChannelBuffer}
    (rep : Represents direct buffer bytes) :
    (buffer.views[buffer.head]? = none ∧ bytes.views[bytes.head]? = none) ∨
      ∃ view data, buffer.views[buffer.head]? = some view ∧ bytes.views[bytes.head]? = some data ∧
        buffer.heap.Shows view data ∧ buffer.pending = view :: buffer.views.drop (buffer.head + 1) ∧
        bytes.views.drop bytes.head = data :: bytes.views.drop (bytes.head + 1) := by
  by_cases more : bytes.head < bytes.views.length
  · have more' : buffer.head < buffer.views.length := by rw [rep.head, rep.length]; exact more
    have front := List.drop_eq_getElem_cons more
    have front' : buffer.pending = buffer.views[buffer.head] :: buffer.views.drop (buffer.head + 1) :=
      List.drop_eq_getElem_cons more'
    have shows := rep.shows
    rw [front, front'] at shows
    cases shows with
    | cons first rest =>
      exact .inr ⟨_, _, List.getElem?_eq_getElem more', List.getElem?_eq_getElem more, first, front', front⟩
  · have beyond : bytes.views.length ≤ bytes.head := Nat.le_of_not_lt more
    exact .inl ⟨List.getElem?_eq_none (by rw [rep.head, rep.length]; exact beyond),
      List.getElem?_eq_none beyond⟩

theorem consumeLoop_simulates {fuel remaining : Nat} {buffer : SegmentedBuffer} {bytes : ChannelBuffer}
    (rep : Represents direct buffer bytes) : ∃ next bytes' result passed,
      consumeLoop fuel remaining buffer = (next, result) ∧
      ChannelBuffer.consumeLoop fuel remaining bytes = (bytes', result) ∧ Represents direct next bytes' ∧
      Moved buffer next passed [] := by
  induction fuel generalizing remaining buffer bytes with
  | zero =>
    unfold consumeLoop ChannelBuffer.consumeLoop
    by_cases zero : remaining = 0
    · rw [if_pos zero, if_pos zero]
      exact ⟨buffer, bytes, _, [], rfl, rfl, rep, .still buffer⟩
    · rw [if_neg zero, if_neg zero]
      simp only [Method.bind_run, Method.get_run]
      rcases rep.at_head with ⟨none, none'⟩ | ⟨view, data, found, found', shows, -⟩
      · rw [none, none']
        exact ⟨buffer, bytes, _, [], rfl, rfl, rep, .still buffer⟩
      · simp only [found, found', shows.viewLength rep.sound, rep.headOffset]
        by_cases part : remaining < data.length - bytes.headOffset
        · rw [if_pos part, if_pos part]
          exact ⟨_, _, _, [], rfl, rfl,
            ⟨rep.sound, rep.settings, rep.head, by simp only [rep.headOffset], rep.queuedBytes,
            rep.backpressured, rep.length, rep.shows, rep.nodup⟩, (Moved.still buffer).of_eq rfl rfl⟩
        · rw [if_neg part, if_neg part]
          exact ⟨buffer, bytes, _, [], rfl, rfl, rep, .still buffer⟩
  | succ fuel ih =>
    unfold consumeLoop ChannelBuffer.consumeLoop
    by_cases zero : remaining = 0
    · rw [if_pos zero, if_pos zero]
      exact ⟨buffer, bytes, _, [], rfl, rfl, rep, .still buffer⟩
    · rw [if_neg zero, if_neg zero]
      simp only [Method.bind_run, Method.get_run]
      rcases rep.at_head with ⟨none, none'⟩ | ⟨view, data, found, found', shows, front, front'⟩
      · rw [none, none']
        exact ⟨buffer, bytes, _, [], rfl, rfl, rep, .still buffer⟩
      · simp only [found, found', shows.viewLength rep.sound, rep.headOffset]
        by_cases part : remaining < data.length - bytes.headOffset
        · rw [if_pos part, if_pos part]
          exact ⟨_, _, _, [], rfl, rfl,
            ⟨rep.sound, rep.settings, rep.head, by simp only [rep.headOffset], rep.queuedBytes,
            rep.backpressured, rep.length, rep.shows, rep.nodup⟩, (Moved.still buffer).of_eq rfl rfl⟩
        · rw [if_neg part, if_neg part]
          obtain ⟨heap, count, run, sound, keeps, length, isOver⟩ := shows.release rep.sound
          have allShown := rep.shows
          have distinct := rep.nodup
          rw [front, front'] at allShown
          rw [front] at distinct
          obtain ⟨absent, distinct⟩ := List.nodup_cons.mp distinct
          have later : Represents direct
              { buffer with heap := heap, head := buffer.head + 1, headOffset := 0 }
              { bytes with head := bytes.head + 1, headOffset := 0 } := by
            refine ⟨sound, rep.settings, by simp only [rep.head], rfl, rep.queuedBytes,
              rep.backpressured, rep.length, ?_, distinct⟩
            cases allShown with
            | cons _ rest => exact Heap.shows_keeps rest keeps fun id member same => absent (same ▸ member)
          have step : Moved buffer { buffer with heap := heap, head := buffer.head + 1, headOffset :=
              0 } [view] [] := by
            refine ⟨keeps.mono fun _ is => by simp [is], by simp only [length]; exact Nat.le_refl _,
              ?_, by simpa using isOver,
              by simp⟩
            rw [List.append_nil, front]
            rfl
          obtain ⟨next, bytes', result, passed, looped, looped', represents, moved⟩ :=
            @ih (remaining - (data.length - bytes.headOffset)) _ _ later
          refine ⟨next, bytes', result, [view] ++ passed, ?_, looped', represents, step.trans moved⟩
          simp only [Method.bind_run, onHeap, Method.on, run, Method.modify_run]
          exact looped

/-- Compaction drops views that were passed, and nothing else. -/
theorem Represents.compact {buffer : SegmentedBuffer} {bytes : ChannelBuffer}
    (rep : Represents direct buffer bytes) :
    Represents direct
      (if 32 < buffer.head ∧ buffer.views.length ≤ buffer.head * 2 then
        { buffer with views := buffer.views.drop buffer.head, head := 0 } else buffer)
      (if 32 < bytes.head ∧ bytes.views.length ≤ bytes.head * 2 then
        { bytes with views := bytes.views.drop bytes.head, head := 0 } else bytes) ∧
      (if 32 < buffer.head ∧ buffer.views.length ≤ buffer.head * 2 then
        { buffer with views := buffer.views.drop buffer.head, head := 0 } else buffer).heap = buffer.heap ∧
      (if 32 < buffer.head ∧ buffer.views.length ≤ buffer.head * 2 then
        { buffer with views := buffer.views.drop buffer.head, head := 0 } else buffer).pending =
          buffer.pending := by
  have same : 32 < buffer.head ∧ buffer.views.length ≤ buffer.head * 2 ↔
      32 < bytes.head ∧ bytes.views.length ≤ bytes.head * 2 := by rw [rep.head, rep.length]
  by_cases long : 32 < bytes.head ∧ bytes.views.length ≤ bytes.head * 2
  · rw [if_pos long, if_pos (same.mpr long)]
    refine ⟨⟨rep.sound, rep.settings, rfl, rep.headOffset, rep.queuedBytes, rep.backpressured, ?_, ?_,
      ?_⟩, rfl, rfl⟩
    · simp only [List.length_drop, rep.length, rep.head]
    · exact rep.shows
    · exact rep.nodup
  · rw [if_neg long, if_neg fun is => long (same.mp is)]
    exact ⟨rep, rfl, rfl⟩

theorem consume_simulates {buffer : SegmentedBuffer} {bytes : ChannelBuffer}
    (rep : Represents direct buffer bytes) (length : Int) : ∃ next bytes' result passed,
      consume length buffer = (next, result) ∧ bytes.consume length = (bytes', result) ∧
      Represents direct next bytes' ∧ Moved buffer next passed [] := by
  unfold consume ChannelBuffer.consume
  simp only [Method.bind_run, Method.get_run]
  rw [rep.queuedBytes]
  by_cases invalid : length < 0 ∨ (bytes.queuedBytes : Int) < length
  · rw [if_pos invalid, if_pos invalid]
    exact ⟨buffer, bytes, _, [], rfl, rfl, rep, .still buffer⟩
  · rw [if_neg invalid, if_neg invalid, rep.length]
    obtain ⟨next, bytes', result, passed, looped, looped', represents, moved⟩ :=
      @consumeLoop_simulates direct bytes.views.length length.toNat buffer bytes rep
    simp only [Method.bind_run, looped, looped']
    cases result with
    | error error => exact ⟨next, bytes', _, passed, rfl, rfl, represents, moved⟩
    | ok _ =>
      have drained : Represents direct { next with queuedBytes := next.queuedBytes - length.toNat }
          { bytes' with queuedBytes := bytes'.queuedBytes - length.toNat } :=
        ⟨represents.sound, represents.settings, represents.head, represents.headOffset,
          by simp only [represents.queuedBytes],
          represents.backpressured, represents.length, represents.shows, represents.nodup⟩
      obtain ⟨compacted, sameHeap, samePending⟩ := drained.compact
      obtain ⟨transition, last, bytes'', run, run', final, lastHeap, lastPending⟩ :=
        transitionAfterDrain_eq compacted
      refine ⟨last, bytes'', .ok transition, passed, run, run', final, moved.of_eq ?_ ?_⟩
      · rw [lastHeap, sameHeap]
      · rw [lastPending, samePending]
        rfl

/-- The slices that `peek_views` makes show what the bytes of the views give. -/
theorem peekLoop_spec {heap : Heap} (sound : heap.Sound direct) {ids : List Nat} {datas : List Bytes}
    (shows : List.Forall₂ heap.Shows ids datas) {localOffset remaining : Nat}
    (inside : ∀ data ∈ datas.head?, localOffset ≤ data.length) :
    ∃ next parts, peekLoop ids localOffset remaining heap = (next, .ok parts) ∧ next.Sound direct ∧
      heap.Keeps (fun _ => False) next ∧ heap.views.length ≤ next.views.length ∧
      List.Forall₂ next.Shows parts (ChannelBuffer.peekLoop datas localOffset remaining) ∧ parts.Nodup ∧
      ∀ id ∈ parts, heap.views.length ≤ id := by
  induction ids generalizing heap datas localOffset remaining with
  | nil =>
    cases shows
    exact ⟨heap, [], rfl, sound, .refl _, Nat.le_refl _, .nil, .nil, by simp⟩
  | cons id ids ih =>
    cases shows with
    | @cons _ data _ datas first rest =>
      unfold peekLoop ChannelBuffer.peekLoop
      by_cases zero : remaining = 0
      · rw [if_pos zero, if_pos zero]
        exact ⟨heap, [], rfl, sound, .refl _, Nat.le_refl _, .nil, .nil, by simp⟩
      · rw [if_neg zero, if_neg zero]
        have fits : localOffset ≤ data.length := inside data (by simp)
        simp only [Method.bind_run, Method.get_run, first.viewLength sound]
        obtain ⟨sliced, slice, slicedSound, slicedKeeps, slicedLength, shown⟩ :=
          @Heap.Shows.slice direct (fun _ => False)
          heap id data sound first localOffset (min (data.length - localOffset) remaining) (by omega)
        obtain ⟨next, parts, run, nextSound, keeps, grows, more, nodup, fresh⟩ :=
          @ih sliced slicedSound datas
          (Heap.shows_keeps rest slicedKeeps fun _ _ => not_false) 0
          (remaining - min (data.length - localOffset) remaining)
          (fun _ _ => Nat.zero_le _)
        refine ⟨next, heap.views.length :: parts, ?_, nextSound, slicedKeeps.trans keeps, by omega,
          .cons (shown.keeps keeps not_false) more, List.nodup_cons.mpr ⟨fun member => ?_, nodup⟩, ?_⟩
        · simp only [slice, run, Method.pure_run]
        · have := fresh _ member
          omega
        · rw [List.forall_mem_cons]
          exact ⟨Nat.le_refl _, fun part member => by have := fresh part member; omega⟩

/-- The offset lies inside the first queued view. -/
theorem headOffset_le {bytes : ChannelBuffer} (valid : bytes.WellFormed) :
    ∀ data ∈ (bytes.views.drop bytes.head).head?, bytes.headOffset ≤ data.length := by
  intro data first
  rw [List.head?_drop] at first
  rcases valid.inside with start | ⟨other, same, less⟩
  · omega
  · rw [show bytes.views[bytes.head]? = some data from first] at same
    cases same
    omega

theorem peekViews_simulates {buffer : SegmentedBuffer} {bytes : ChannelBuffer}
    (rep : Represents direct buffer bytes) (valid : bytes.WellFormed) (limit : Int) : ∃ heap parts,
      peekViews limit buffer = ({ buffer with heap := heap }, .ok parts) ∧
      Represents direct { buffer with heap := heap } bytes ∧ buffer.heap.Keeps (fun _ => False) heap ∧
      buffer.heap.views.length ≤ heap.views.length ∧ List.Forall₂ heap.Shows parts
        (bytes.peekViews limit) ∧ parts.Nodup ∧ ∀ id ∈ parts, buffer.heap.views.length ≤ id := by
  obtain ⟨heap, parts, run, sound, keeps, grows, shows, nodup, fresh⟩ :=
    @peekLoop_spec direct buffer.heap rep.sound _ _
    rep.shows bytes.headOffset (if 0 ≤ limit ∧ limit < bytes.queuedBytes then
      limit.toNat else bytes.queuedBytes)
    (headOffset_le valid)
  have peeked : peekViews limit buffer = ({ buffer with heap := heap }, .ok parts) := by
    unfold peekViews
    simp only [Method.bind_run, Method.get_run, onHeap, Method.on]
    rw [← rep.queuedBytes, ← rep.headOffset] at run
    rw [show peekLoop (buffer.views.drop buffer.head) _ _ _ = _ from run]
  exact ⟨heap, parts, peeked,
    ⟨sound, rep.settings, rep.head, rep.headOffset, rep.queuedBytes, rep.backpressured, rep.length,
    Heap.shows_keeps rep.shows keeps fun _ _ => not_false, rep.nodup⟩, keeps, grows, shows, nodup, fresh⟩

/-- Copying live parts out releases them. -/
theorem readLoop_spec {heap : Heap} (sound : heap.Sound direct) {parts : List Nat} {datas : List Bytes}
    (shows : List.Forall₂ heap.Shows parts datas) (nodup : parts.Nodup) :
    ∃ next, readLoop parts heap = (next, .ok datas.flatten) ∧ next.Sound direct ∧
    heap.Keeps (· ∈ parts) next ∧ next.views.length = heap.views.length := by
  induction parts generalizing heap datas with
  | nil =>
    cases shows
    exact ⟨heap, rfl, sound, .refl _, rfl⟩
  | cons part parts ih =>
    cases shows with
    | @cons _ data _ datas first rest =>
      obtain ⟨absent, nodup⟩ := List.nodup_cons.mp nodup
      obtain ⟨released, count, run, releasedSound, releasedKeeps, length, -⟩ := first.release sound
      obtain ⟨next, more, nextSound, keeps, nextLength⟩ := ih releasedSound
        (Heap.shows_keeps rest releasedKeeps fun id member same => absent (same ▸ member)) nodup
      refine ⟨next, ?_, nextSound, ?_, nextLength.trans length⟩
      · simp only [readLoop, Method.bind_run, Method.get_run, first.toBytes sound,
          Method.lift_run, run, more, Method.pure_run, List.flatten_cons]
      · exact (releasedKeeps.mono fun _ is => is ▸ List.mem_cons_self ..).trans
          (keeps.mono fun _ is => List.mem_cons_of_mem _ is)

theorem read_simulates {buffer : SegmentedBuffer} {bytes : ChannelBuffer}
    (rep : Represents direct buffer bytes)
    (valid : bytes.WellFormed) (limit : Int) : ∃ next bytes' result passed,
      read limit buffer = (next, result) ∧ bytes.read limit = (bytes', result) ∧
      Represents direct next bytes' ∧ Moved buffer next passed [] := by
  unfold read ChannelBuffer.read
  simp only [Method.bind_run, Method.get_run, rep.queuedBytes]
  generalize (if limit < 0 ∨ (bytes.queuedBytes : Int) < limit then (bytes.queuedBytes : Int)
    else limit) = count
  obtain ⟨heap, parts, peeked, peekedRep, keeps, grows, shows, nodup, fresh⟩ :=
    peekViews_simulates rep valid count
  obtain ⟨copied, run, sound, copiedKeeps, length⟩ := readLoop_spec peekedRep.sound shows nodup
  -- the parts are new, so the queued views are still there
  have kept : buffer.heap.Keeps (fun _ => False) copied :=
    ((keeps.mono nofun).trans copiedKeeps).fresh fun id old member => by have := fresh id member; omega
  have copiedRep : Represents direct { buffer with heap := copied } bytes :=
    ⟨sound, rep.settings, rep.head, rep.headOffset, rep.queuedBytes, rep.backpressured, rep.length,
      Heap.shows_keeps rep.shows kept fun _ _ => not_false, rep.nodup⟩
  have before : Moved buffer { buffer with heap := copied } [] [] :=
    ⟨kept.mono nofun, by simp only at length ⊢; omega, by rw [List.append_nil]; rfl, by simp, by simp⟩
  obtain ⟨next, bytes', result, passed, consumed, consumed', represents, moved⟩ :=
    consume_simulates copiedRep count
  simp only [peeked, onHeap, Method.on, run, consumed, consumed']
  have all := before.trans moved
  cases result with
  | error error => exact ⟨next, bytes', _, _, rfl, rfl, represents, all⟩
  | ok transition => exact ⟨next, bytes', _, _, rfl, rfl, represents, all⟩

/-- Closing releases every queued view. -/
theorem closeLoop_spec {heap : Heap} (sound : heap.Sound direct) {ids : List Nat} {datas : List Bytes}
    (shows : List.Forall₂ heap.Shows ids datas) (nodup : ids.Nodup) :
    ∃ next, closeLoop ids heap = (next, .ok ids.length) ∧ next.Sound direct ∧ heap.Keeps (· ∈ ids) next ∧
      next.views.length = heap.views.length ∧ ∀ id ∈ ids, ∃ view, next.views[id]? = some view ∧
      view.released = true := by
  induction ids generalizing heap datas with
  | nil =>
    cases shows
    exact ⟨heap, rfl, sound, .refl _, rfl, by simp⟩
  | cons id ids ih =>
    cases shows with
    | @cons _ data _ datas first rest =>
      obtain ⟨absent, nodup⟩ := List.nodup_cons.mp nodup
      obtain ⟨released, count, run, releasedSound, releasedKeeps, length, view, found, isOver⟩ :=
        first.release sound
      obtain ⟨next, more, nextSound, keeps, nextLength, nextOver⟩ := ih releasedSound
        (Heap.shows_keeps rest releasedKeeps fun other member same => absent (same ▸ member)) nodup
      have live : heap.views[id]?.any BufferView.released = false := by
        obtain ⟨view, found, live, -⟩ := first
        simp [found, live]
      refine ⟨next, ?_, nextSound, ?_, nextLength.trans length, ?_⟩
      · simp only [closeLoop, Method.bind_run, Method.get_run, live, if_true, run, more,
          Method.pure_run, List.length_cons]
      · exact (releasedKeeps.mono fun _ is => is ▸ List.mem_cons_self ..).trans
          (keeps.mono fun _ is => List.mem_cons_of_mem _ is)
      · rw [List.forall_mem_cons]
        exact ⟨⟨view, keeps.views id view found absent, isOver⟩, nextOver⟩

theorem close_simulates {buffer : SegmentedBuffer} {bytes : ChannelBuffer}
    (rep : Represents direct buffer bytes) :
    ∃ next count passed, close buffer = (next, .ok count) ∧ Represents direct next bytes.close ∧
      Moved buffer next passed [] := by
  have closed : buffer.closed = bytes.closed := congrArg (·.2.2.2.2) rep.settings
  unfold close ChannelBuffer.close
  simp only [Method.bind_run, Method.get_run]
  rw [closed]
  by_cases isOver : bytes.closed = true
  · rw [if_pos isOver, if_pos isOver]
    exact ⟨buffer, 0, [], rfl, rep, .still buffer⟩
  · rw [if_neg isOver, if_neg isOver]
    obtain ⟨heap, run, sound, keeps, length, gone⟩ := closeLoop_spec rep.sound rep.shows rep.nodup
    have settings := rep.settings
    simp only [ChannelBuffer.settings, Prod.mk.injEq] at settings
    refine ⟨{ buffer with
        heap := heap, views := [], head := 0, headOffset := 0, queuedBytes := 0,
          backpressured := false, closed := true },
      buffer.pending.length, buffer.pending, ?_, ?_, ?_⟩
    · simp only [Method.bind_run, onHeap, Method.on, Method.modify_run, Method.pure_run]
      rw [show closeLoop (buffer.views.drop buffer.head) buffer.heap = _ from run]
    · exact ⟨sound, by simp only [ChannelBuffer.settings, settings], rfl, rfl, rfl, rfl, rfl, .nil, .nil⟩
    · exact ⟨keeps, by simp only [length]; exact Nat.le_refl _, rfl, gone, by simp⟩

end SegmentedBuffer
end PccGateway
