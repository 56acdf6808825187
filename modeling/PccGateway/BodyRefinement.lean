import PccGateway.Lib.Simulation
import PccGateway.RetainedBody
import PccGateway.Watermarks

namespace PccGateway
namespace Heap

/-- Of the views that were `retained` exactly those are released that are not `pending` any more. -/
structure Tracks (heap : Heap) (retained : List Nat) (pending : Nat → Prop) : Prop where
  kept : ∀ id, pending id → id ∈ retained
  released : ∀ id ∈ retained, ∃ view, heap.views[id]? = some view ∧ (view.released = true ↔ ¬ pending id)

section Tracks
variable {direct : Nat → Nat} {heap next : Heap} {retained : List Nat} {pending : Nat → Prop}
  {gone : Nat → Prop} {id : Nat}

theorem Keeps.grows (keeps : heap.Keeps (fun _ => False) next) : heap.views.length ≤ next.views.length := by
  refine Nat.le_of_not_lt fun fewer => ?_
  have found := keeps.views _ _ (List.getElem?_eq_getElem fewer) not_false
  exact Nat.lt_irrefl _ (List.getElem?_eq_some_iff.mp found).1

theorem Tracks.congr {pending' : Nat → Prop} (tracks : heap.Tracks retained pending)
    (same : ∀ id, pending' id ↔ pending id) :
    heap.Tracks retained pending' := by
  have equal : pending' = pending := funext fun id => propext (same id)
  rw [equal]
  exact tracks

/-- A new view is retained. -/
theorem Tracks.retain {data : Bytes} (tracks : heap.Tracks retained pending)
    (keeps : heap.Keeps (fun _ => False) next) (shows : next.Shows heap.views.length data) :
    next.Tracks (retained ++ [heap.views.length]) (fun id => pending id ∨ id = heap.views.length) where
  kept := fun id is => by
    rw [List.mem_append, List.mem_singleton]
    exact is.imp_left (tracks.kept id)
  released := fun id member => by
    rcases List.mem_append.mp member with old | new
    · obtain ⟨view, found, iff⟩ := tracks.released id old
      have differs : id ≠ heap.views.length := Nat.ne_of_lt (List.getElem?_eq_some_iff.mp found).1
      exact ⟨view, keeps.views id view found not_false, by simpa [differs] using iff⟩
    · rw [List.mem_singleton] at new
      subst new
      obtain ⟨view, found, live, -⟩ := shows
      exact ⟨view, found, by simp [live]⟩

/-- Nothing that is pending was released, and what was released is not pending. -/
theorem Tracks.keeps (tracks : heap.Tracks retained pending) (keeps : heap.Keeps gone next)
    (kept : ∀ id, pending id → ¬ gone id)
    (isOver : ∀ id ∈ retained, gone id → ∃ view, next.views[id]? = some view ∧ view.released = true) :
    next.Tracks retained pending where
  kept := tracks.kept
  released := fun id member => by
    by_cases is : gone id
    · obtain ⟨view, found, released⟩ := isOver id member is
      exact ⟨view, found, iff_of_true released fun among => kept id among is⟩
    · obtain ⟨view, found, iff⟩ := tracks.released id member
      exact ⟨view, keeps.views id view found is, iff⟩

/-- One view is released. -/
theorem Tracks.release (tracks : heap.Tracks retained pending) (keeps : heap.Keeps (· = id) next)
    (isOver : ∃ view, next.views[id]? = some view ∧ view.released = true) :
    next.Tracks retained (fun other => pending other ∧ other ≠ id) where
  kept := fun other is => tracks.kept other is.1
  released := fun other member => by
    by_cases same : other = id
    · subst same
      obtain ⟨view, found, released⟩ := isOver
      exact ⟨view, found, by simp [released]⟩
    · obtain ⟨view, found, iff⟩ := tracks.released other member
      exact ⟨view, keeps.views other view found same, by simpa [same] using iff⟩

/-- A view that is not pending any more was released once, a pending one not yet. -/
theorem Tracks.releases (tracks : heap.Tracks retained pending) (sound : heap.Sound direct)
    [DecidablePred pending]
    (member : id ∈ retained) : heap.releases.count id = if pending id then 0 else 1 := by
  obtain ⟨view, found, iff⟩ := tracks.released id member
  rw [sound.logged id, found]
  by_cases among : pending id
  · have live : view.released = false := by simpa [among] using iff
    simp [among, live]
  · simp [among, iff.mpr among]

end Tracks
end Heap

namespace BodyChunk

/-- The bytes that a retained chunk stands for. -/
def Holds (heap : Heap) : BodyChunk → Bytes → Prop
  | .bytes own, data => own = data
  | .view id, data => heap.Shows id data

section Holds
variable {direct : Nat → Nat} {heap next : Heap} {gone : Nat → Prop} {chunk : BodyChunk} {data : Bytes}

theorem Holds.content (holds : chunk.Holds heap data) (sound : heap.Sound direct) :
    chunk.content heap = data := by
  cases chunk with
  | bytes own => exact holds
  | view id => simp [BodyChunk.content, Heap.Shows.toBytes sound holds, Except.toOption]

theorem Holds.length (holds : chunk.Holds heap data) (sound : heap.Sound direct) :
    chunk.length heap = data.length := by
  cases chunk with
  | bytes own => exact congrArg List.length holds
  | view id => exact Heap.Shows.viewLength sound holds

theorem Holds.keeps (holds : chunk.Holds heap data) (keeps : heap.Keeps gone next)
    (kept : ∀ id, chunk.viewed = some id → ¬ gone id) : chunk.Holds next data := by
  cases chunk with
  | bytes own => exact holds
  | view id => exact Heap.Shows.keeps holds keeps (kept id rfl)

theorem Holds.shows (holds : chunk.Holds heap data) {id : Nat} (is : chunk.viewed = some id) :
    heap.Shows id data := by
  cases chunk with
  | bytes own => cases is
  | view other =>
    cases is
    exact holds

theorem content_length (sound : heap.Sound direct) (chunk : BodyChunk) :
    chunk.length heap = (chunk.content heap).length := by
  cases chunk with
  | bytes data => rfl
  | view id =>
    simp only [BodyChunk.length, BodyChunk.content]
    cases read : heap.toBytes id with
    | ok data => exact (Heap.shows_of_toBytes read).viewLength sound
    | error error =>
      simp only [Except.toOption, Option.getD_none, List.length_nil, Heap.viewLength]
      cases found : heap.views[id]? with
      | none => rfl
      | some view =>
        cases live : view.released with
        | true => simp [live]
        | false => simp [sound.toBytes found live] at read

/-- A chunk with bytes can be retained, and it keeps them. -/
theorem retained_spec (sound : heap.Sound direct) (some_ : chunk.content heap ≠ []) : ∃ next own,
    chunk.retained heap = (next, .ok own) ∧ next.Sound direct ∧ (∀ gone, heap.Keeps gone next) ∧
      heap.views.length ≤ next.views.length ∧ own.Holds next (chunk.content heap) ∧
      ∀ id, own.viewed = some id → id = heap.views.length := by
  cases chunk with
  | bytes data => exact ⟨heap, .bytes data, rfl, sound, fun _ => .refl heap, Nat.le_refl _, rfl, nofun⟩
  | view id =>
    cases read : heap.toBytes id with
    | error error => simp [BodyChunk.content, read, Except.toOption] at some_
    | ok data =>
      have shows := Heap.shows_of_toBytes read
      have sliced (gone : Nat → Prop) := @Heap.Shows.slice_all direct gone heap id data sound shows
      obtain ⟨next, made, nextSound, -, grows, shown⟩ := sliced fun _ => False
      refine ⟨next, .view heap.views.length, ?_, nextSound, fun gone => ?_, by omega, ?_, ?_⟩
      · simp only [BodyChunk.retained, Method.bind_run, made, Method.pure_run]
      · obtain ⟨_, again, -, keeps, -⟩ := sliced gone
        rw [made] at again
        cases again
        exact keeps
      · simpa [BodyChunk.content, read, Except.toOption, BodyChunk.Holds] using shown
      · intro other is
        exact (Option.some.inj is).symm

theorem holds_keeps {chunks : List BodyChunk} {datas : List Bytes}
    (holds : List.Forall₂ (Holds heap) chunks datas)
    (keeps : heap.Keeps gone next) (kept : ∀ id ∈ chunks.filterMap viewed, ¬ gone id) :
    List.Forall₂ (Holds next) chunks datas := by
  induction holds with
  | nil => exact .nil
  | @cons chunk data chunks datas first rest ih =>
    refine .cons (first.keeps keeps fun id is =>
      kept id (List.mem_filterMap.mpr ⟨chunk, List.mem_cons_self, is⟩)) (ih ?_)
    intro id member
    obtain ⟨other, among, is⟩ := List.mem_filterMap.mp member
    exact kept id (List.mem_filterMap.mpr ⟨other, List.mem_cons_of_mem _ among, is⟩)

theorem holds_contents (sound : heap.Sound direct) {chunks : List BodyChunk} {datas : List Bytes}
    (holds : List.Forall₂ (Holds heap) chunks datas) : chunks.map (content heap) = datas := by
  induction holds with
  | nil => rfl
  | cons first rest ih => rw [List.map_cons, ih, first.content sound]

theorem holds_shows {chunks : List BodyChunk} {datas : List Bytes}
    (holds : List.Forall₂ (Holds heap) chunks datas) {id : Nat}
    (member : id ∈ chunks.filterMap viewed) : ∃ data, heap.Shows id data := by
  obtain ⟨chunk, among, is⟩ := List.mem_filterMap.mp member
  obtain ⟨index, bound, rfl⟩ := List.getElem_of_mem among
  exact ⟨_, Holds.shows (holds.get bound (holds.length_eq ▸ bound)) is⟩

/-- A live view can be read and released. -/
theorem Holds.handOver (holds : chunk.Holds heap data) (sound : heap.Sound direct) : ∃ next,
    chunk.handOver heap = (next, .ok data) ∧ next.Sound direct ∧
    heap.Keeps (fun id => chunk.viewed = some id) next ∧
      ∀ id, chunk.viewed = some id → ∃ view, next.views[id]? = some view ∧ view.released = true := by
  cases chunk with
  | bytes own =>
    cases holds
    exact ⟨heap, rfl, sound, .refl heap, nofun⟩
  | view id =>
    obtain ⟨next, count, released, nextSound, keeps, -, isOver⟩ := Heap.Shows.release sound holds
    refine ⟨next, ?_, nextSound, keeps.mono fun other same => by rw [same]; rfl, fun other is =>
      Option.some.inj is ▸ isOver⟩
    simp only [BodyChunk.handOver, Method.bind_run, Method.get_run, Heap.Shows.toBytes sound holds,
      Method.lift_run, released, Method.pure_run]

/-- A chunk that is dropped has no live view any more. -/
theorem drop_spec (sound : heap.Sound direct)
    (known : ∀ id, chunk.viewed = some id → id < heap.views.length) : ∃ next,
    chunk.drop heap = (next, .ok ()) ∧ next.Sound direct ∧
    heap.Keeps (fun id => chunk.viewed = some id) next ∧ next.views.length = heap.views.length ∧
      ∀ id, chunk.viewed = some id → ∃ view, next.views[id]? = some view ∧ view.released = true := by
  cases chunk with
  | bytes own => exact ⟨heap, rfl, sound, .refl heap, rfl, nofun⟩
  | view id =>
    have found := List.getElem?_eq_getElem (known id rfl)
    cases live : heap.views[id]?.any BufferView.released with
    | true =>
      refine ⟨heap, ?_, sound, .refl heap, rfl, ?_⟩
      · simp only [BodyChunk.drop, Method.bind_run, Method.get_run, live, if_true, Method.pure_run]
      · intro other is
        rw [← Option.some.inj is]
        exact ⟨_, found, by simpa [found] using live⟩
    | false =>
      have shows : heap.Shows id _ := ⟨_, found, by simpa [found] using live, rfl⟩
      obtain ⟨next, count, released, nextSound, keeps, grows, isOver⟩ := shows.release sound
      refine ⟨next, ?_, nextSound, keeps.mono fun other same => by rw [same]; rfl, grows,
        fun other is => Option.some.inj is ▸ isOver⟩
      simp only [BodyChunk.drop, Method.bind_run, Method.get_run, live, Bool.false_eq_true, if_false,
        released, Method.pure_run]

theorem drop_all_spec {chunks : List BodyChunk} (sound : heap.Sound direct)
    (known : ∀ id ∈ chunks.filterMap viewed, id < heap.views.length) : ∃ next,
    Method.each BodyChunk.drop chunks heap = (next, .ok ()) ∧ next.Sound direct ∧
      heap.Keeps (· ∈ chunks.filterMap viewed) next ∧ next.views.length = heap.views.length ∧
      ∀ id ∈ chunks.filterMap viewed, ∃ view, next.views[id]? = some view ∧ view.released = true := by
  induction chunks generalizing heap with
  | nil => exact ⟨heap, rfl, sound, .refl heap, rfl, by simp⟩
  | cons chunk chunks ih =>
    have first : ∀ id, chunk.viewed = some id → id ∈ (chunk :: chunks).filterMap viewed := fun id is =>
      List.mem_filterMap.mpr ⟨chunk, List.mem_cons_self, is⟩
    have rest : ∀ id ∈ chunks.filterMap viewed, id ∈ (chunk :: chunks).filterMap viewed :=
      fun id member => by
      obtain ⟨other, among, is⟩ := List.mem_filterMap.mp member
      exact List.mem_filterMap.mpr ⟨other, List.mem_cons_of_mem _ among, is⟩
    obtain ⟨dropped, run, droppedSound, keeps, length, gone⟩ := drop_spec sound fun id is =>
      known id (first id is)
    obtain ⟨next, more, nextSound, nextKeeps, nextLength, isOver⟩ := ih droppedSound fun id member => by
      rw [length]
      exact known id (rest id member)
    refine ⟨next, ?_, nextSound, (keeps.mono first).trans (nextKeeps.mono rest),
      nextLength.trans length, ?_⟩
    · simp only [Method.each, Method.bind_run, run, more]
    · intro id member
      by_cases later : id ∈ chunks.filterMap viewed
      · exact isOver id later
      · obtain ⟨other, among, is⟩ := List.mem_filterMap.mp member
        rcases List.mem_cons.mp among with rfl | among
        · obtain ⟨view, found, released⟩ := gone id is
          exact ⟨view, nextKeeps.views id view found later, released⟩
        · exact absurd (List.mem_filterMap.mpr ⟨other, among, is⟩) later

/-- The chunk in front was handed over, the others are still pending. -/
theorem tracks_first {retained : List Nat} {rest : List BodyChunk}
    (nodup : ((chunk :: rest).filterMap viewed).Nodup)
    (tracks : heap.Tracks retained (· ∈ (chunk :: rest).filterMap viewed))
    (keeps : heap.Keeps (fun id => chunk.viewed = some id) next)
    (isOver : ∀ id, chunk.viewed = some id → ∃ view, next.views[id]? = some view ∧ view.released = true) :
    next.Tracks retained (· ∈ rest.filterMap viewed) := by
  cases chunk with
  | bytes own => exact tracks.keeps keeps nofun fun _ _ => nofun
  | view id =>
    have split : (BodyChunk.view id :: rest).filterMap viewed = id :: rest.filterMap viewed := rfl
    rw [split] at nodup tracks
    have released := tracks.release (keeps.mono fun other is => (Option.some.inj is).symm) (isOver id rfl)
    refine released.congr fun other => ?_
    have absent := (List.nodup_cons.mp nodup).1
    rw [List.mem_cons]
    constructor
    · intro member
      exact ⟨.inr member, fun same => absent (same ▸ member)⟩
    · rintro ⟨same | member, differs⟩
      · exact absurd same differs
      · exact member

end Holds
end BodyChunk

namespace RetainedBody

/-- The stream of bytes with the same counters, flags and places. -/
def bytewise (chunks : List Bytes) (body : RetainedBody) : BodyStream := {
  maxBytes := body.maxBytes, lowWatermark := body.lowWatermark, highWatermark := body.highWatermark
  streaming := body.streaming, chunks := chunks, received := body.received, readIndex := body.readIndex
  consumedBytes := body.consumedBytes, queuedBytes := body.queuedBytes, backpressured := body.backpressured
  ended := body.ended, cancelled := body.cancelled, closed := body.closed }

/-- The unread views. -/
def pending (body : RetainedBody) : List Nat := body.unread.filterMap BodyChunk.viewed

/-- A stream and its bytes: every unread chunk holds the bytes in its place, and no view is queued twice. -/
structure Represents (direct : Nat → Nat) (body : RetainedBody) (datas : List Bytes) : Prop where
  sound : body.heap.Sound direct
  watched : (body.bytewise datas).Watched
  length : body.chunks.length = datas.length
  holds : List.Forall₂ (BodyChunk.Holds body.heap) body.unread (datas.drop body.readIndex)
  nodup : body.pending.Nodup

variable {direct : Nat → Nat} {body : RetainedBody} {datas : List Bytes}

/-- The views among the chunks that were pushed. -/
theorem push_added {next : RetainedBody} {heap : Heap} {own : BodyChunk} {length : Nat}
    (pushed : next = { body with heap := heap }.push own length) :
    next.chunks = body.chunks ++ [own] ∧ next.readIndex = body.readIndex ∧
      (next.chunks.drop body.chunks.length).filterMap BodyChunk.viewed =
      [own].filterMap BodyChunk.viewed := by
  subst pushed
  refine ⟨rfl, rfl, ?_⟩
  simp only [push, List.drop_left]

/-- `feed` raises and changes nothing, or it keeps nothing of an empty chunk, or it retains the chunk
as the byte stream does. -/
theorem feedLocked_cases (rep : Represents direct body datas) (data : BodyChunk) :
    let wanted := data.content body.heap
    (∃ error, feedLocked data body = (body, .error error) ∧
      BodyStream.feed wanted (body.bytewise datas) = (body.bytewise datas, .error error)) ∨
    (wanted = [] ∧ feedLocked data body = (body, .ok false) ∧
      BodyStream.feed wanted (body.bytewise datas) = (body.bytewise datas, .ok body.backpressured)) ∨
    (wanted ≠ [] ∧ body.isOver = false ∧ (body.received + wanted.length : Nat) ≤ body.maxBytes ∧ ∃ next own,
      feedLocked data body = (next, .ok true) ∧
      BodyStream.feed wanted (body.bytewise datas) =
        (next.bytewise (datas ++ [wanted]), .ok next.backpressured) ∧
      Represents direct next (datas ++ [wanted]) ∧ next = { body with heap := next.heap }.push own
        wanted.length ∧ next.unread = body.unread ++ [own] ∧ own.Holds next.heap wanted ∧
      (∀ gone, body.heap.Keeps gone next.heap) ∧ ∀ id, own.viewed = some id →
        id = body.heap.views.length) := by
  intro wanted
  obtain ⟨sound, watched, length, holds, nodup⟩ := rep
  have size : data.length body.heap = wanted.length := BodyChunk.content_length sound data
  by_cases closed : body.isOver = true
  · have also : body.ended = true ∨ body.cancelled = true ∨ body.closed = true := by
      simpa [isOver, or_assoc] using closed
    refine .inl ⟨.runtime "body stream is not accepting data", ?_, if_pos also⟩
    simp only [feedLocked, closed, if_true]
  · have also : ¬ (body.ended = true ∨ body.cancelled = true ∨ body.closed = true) := by
      simpa [isOver, or_assoc] using closed
    by_cases full : body.maxBytes < (body.received + wanted.length : Nat)
    · refine .inl ⟨.value "request body limit exceeded", ?_, (if_neg also).trans (if_pos full)⟩
      simp only [feedLocked, closed, size, full, Bool.false_eq_true, if_false, if_true]
    · by_cases empty : wanted = []
      · refine .inr (.inl ⟨empty, ?_, (if_neg also).trans ((if_neg full).trans (if_pos empty))⟩)
        have none : wanted.length = 0 := by rw [empty]; rfl
        rw [none] at full
        simp only [feedLocked, closed, size, full, none, Bool.false_eq_true, if_false, if_true]
      · obtain ⟨heap, own, made, heapSound, keeps, grows, held, fresh⟩ :=
          BodyChunk.retained_spec sound empty
        have positive : wanted.length ≠ 0 := fun zero => empty (List.eq_nil_of_length_eq_zero zero)
        have bound : body.readIndex ≤ body.chunks.length := length ▸ watched.inside
        have grown : ({ body with heap := heap }.push own wanted.length).unread = body.unread ++ [own] :=
          List.drop_append_of_le_length bound
        have fed : BodyStream.feed wanted (body.bytewise datas) =
            (({ body with heap := heap }.push own wanted.length).bytewise (datas ++ [wanted]),
              .ok ({ body with heap := heap }.push own wanted.length).backpressured) :=
          (if_neg also).trans ((if_neg full).trans (if_neg empty))
        have watched' := watched.feed wanted
        rw [fed] at watched'
        refine .inr (.inr ⟨empty, by simpa using closed, by omega, { body with heap := heap }.push own
          wanted.length, own,
          ?_, fed, ⟨heapSound, watched', ?_, ?_, ?_⟩, rfl, grown, held, keeps, fresh⟩)
        · simp only [feedLocked, closed, size, full, positive, made, Bool.false_eq_true, if_false]
        · simp [push, length]
        · rw [grown]
          have more : (datas ++ [wanted]).drop body.readIndex = datas.drop body.readIndex ++ [wanted] :=
            List.drop_append_of_le_length watched.inside
          have old := BodyChunk.holds_keeps holds (keeps fun _ => False) fun _ _ => not_false
          exact more ▸ List.rel_append old (.cons held .nil)
        · rw [pending, grown, List.filterMap_append, List.nodup_append]
          refine ⟨nodup, ?_, ?_⟩
          · cases own with
            | bytes own => exact List.nodup_nil
            | view own => exact List.nodup_singleton own
          · rintro id old other new rfl
            obtain ⟨_, shows⟩ := BodyChunk.holds_shows holds old
            have below := shows.lt
            obtain ⟨chunk, among, is⟩ := List.mem_filterMap.mp new
            have at_ := fresh id (List.mem_singleton.mp among ▸ is)
            omega

theorem take_chunks (taken : BodyChunk) {chunk : BodyChunk}
    (among : chunk ∈ (body.take taken).chunks) : chunk ∈ body.chunks := by
  simp only [take] at among
  split at among
  · exact List.mem_of_mem_drop among
  · exact among

/-- The chunk in front is taken, here and in the byte stream. -/
theorem Represents.take (rep : Represents direct body datas) {chunk : BodyChunk} {rest : List BodyChunk}
    (first : body.unread = chunk :: rest) : ∃ data left, chunk.Holds body.heap data ∧
      datas.drop body.readIndex = data :: left.drop (body.take chunk).readIndex ∧
      (body.bytewise datas).take data = (body.take chunk).bytewise left ∧
      Represents direct (body.take chunk) left ∧ (body.take chunk).unread = rest := by
  obtain ⟨sound, watched, length, holds, nodup⟩ := rep
  have front {α : Type} {chunks : List α} {place : Nat} {head : α} {tail : List α}
      (is : chunks.drop place = head :: tail) :
      chunks[place]? = some head ∧ chunks.drop (place + 1) = tail := by
    refine ⟨by rw [← List.head?_drop, is]; rfl, ?_⟩
    rw [← List.tail_drop, is]
    rfl
  rw [first] at holds
  generalize queued : datas.drop body.readIndex = datas' at holds
  cases holds with
  | @cons _ data _ left held later =>
    obtain ⟨found, behind⟩ := front queued
    have size : chunk.length body.heap = data.length := held.length sound
    have rest_eq : body.chunks.drop (body.readIndex + 1) = rest := (front first).2
    have watched' := watched.take found
    -- the chunks are compacted here exactly when they are there
    generalize compact : decide (64 ≤ body.readIndex + 1 ∧ datas.length ≤ (body.readIndex + 1) * 2) = flag
    have there : (body.bytewise datas).take data =
        (body.take chunk).bytewise (if flag then datas.drop (body.readIndex + 1) else datas) := by
      simp only [BodyStream.take, bytewise, RetainedBody.take, size, length, ← compact]
      rfl
    have after : (body.take chunk).unread = rest := by
      simp only [unread, RetainedBody.take, length, compact]
      cases flag
      · exact rest_eq
      · exact rest_eq
    have left_eq : (if flag then datas.drop (body.readIndex + 1) else datas).drop
        (body.take chunk).readIndex = left := by
      simp only [RetainedBody.take, length, compact]
      cases flag
      · exact behind
      · exact behind
    rw [there] at watched'
    refine ⟨data, _, held, by rw [left_eq], there, ⟨sound, watched', ?_, ?_, ?_⟩, after⟩
    · simp only [RetainedBody.take, length, compact]
      cases flag
      · exact length
      · simp only [if_true, List.length_drop, length]
    · rw [after, left_eq]
      exact later
    · rw [pending, after]
      rw [pending, first, List.filterMap_cons] at nodup
      split at nodup
      · exact nodup
      · exact nodup.of_cons

/-- What a pass of `read_chunk` finds is what the byte stream gives. -/
theorem readLocked_cases (rep : Represents direct body datas) :
    (body.cancelled = true ∧ body.readLocked = (body, .cancelled) ∧
      BodyStream.readChunk (body.bytewise datas) =
      (body.bytewise datas, .error (.raised (.runtime "request body was cancelled")))) ∨
    (body.cancelled = false ∧ ∃ chunk rest data left, body.unread = chunk :: rest ∧
      body.readLocked =
        (body.take chunk, .taken chunk (body.backpressured && !(body.take chunk).backpressured)) ∧
      BodyStream.readChunk (body.bytewise datas) = ((body.take chunk).bytewise left, .ok (some data)) ∧
      chunk.Holds body.heap data ∧ datas.drop body.readIndex =
        data :: left.drop (body.take chunk).readIndex ∧
      Represents direct (body.take chunk) left ∧ (body.take chunk).unread = rest) ∨
    (body.cancelled = false ∧ body.unread = [] ∧ (body.ended = true ∨ body.closed = true) ∧
      body.readLocked = (body, .isOver) ∧ BodyStream.readChunk (body.bytewise datas) =
        (body.bytewise datas, .ok none)) ∨
    (body.isOver = false ∧ body.unread = [] ∧ body.streaming = false ∧ body.readLocked = (body, .polled) ∧
      BodyStream.readChunk (body.bytewise datas) = (body.bytewise datas, .ok (some []))) ∨
    (body.isOver = false ∧ body.unread = [] ∧ body.streaming = true ∧ body.readLocked = (body, .wait) ∧
      BodyStream.readChunk (body.bytewise datas) = (body.bytewise datas, .error .parked)) := by
  by_cases cancelled : body.cancelled = true
  · exact .inl ⟨cancelled, if_pos cancelled, if_pos cancelled⟩
  · have here : body.readLocked = _ := if_neg cancelled
    have there : BodyStream.readChunk (body.bytewise datas) = _ := if_neg cancelled
    have cancelled : body.cancelled = false := by simpa using cancelled
    cases queue : body.unread with
    | cons chunk rest =>
      obtain ⟨data, left, held, datas_eq, taken, represents, after⟩ := rep.take queue
      have found : datas[body.readIndex]? = some data := by
        rw [← List.head?_drop, datas_eq]
        rfl
      have front : body.chunks[body.readIndex]? = some chunk := by
        rw [← List.head?_drop, show body.chunks.drop body.readIndex = _ from queue]
        rfl
      refine .inr (.inl ⟨cancelled, chunk, rest, data, left, rfl, ?_, ?_, held, datas_eq,
        represents, after⟩)
      · rw [here, front]
      · rw [there]
        simp only [bytewise] at taken ⊢
        rw [found]
        simp only [taken]
    | nil =>
      have short : body.chunks.length ≤ body.readIndex := List.drop_eq_nil_iff.mp queue
      have none : body.chunks[body.readIndex]? = none := List.getElem?_eq_none short
      have none' : (body.bytewise datas).chunks[(body.bytewise datas).readIndex]? = Option.none :=
        List.getElem?_eq_none (show datas.length ≤ body.readIndex from rep.length ▸ short)
      rw [none] at here
      rw [none'] at there
      by_cases isOver : body.ended = true ∨ body.closed = true
      · exact .inr (.inr (.inl ⟨cancelled, rfl, isOver, here.trans (if_pos isOver),
          there.trans (if_pos isOver)⟩))
      · have open_ : body.isOver = false := by simp_all [RetainedBody.isOver]
        by_cases polls : body.streaming = false
        · exact .inr (.inr (.inr (.inl ⟨open_, rfl, polls,
            here.trans ((if_neg isOver).trans (if_pos polls)),
            there.trans ((if_neg isOver).trans (if_pos polls))⟩)))
        · exact .inr (.inr (.inr (.inr ⟨open_, rfl, by simpa using polls,
            here.trans ((if_neg isOver).trans (if_neg polls)),
            there.trans ((if_neg isOver).trans (if_neg polls))⟩)))

/-- Other views may go. -/
theorem Represents.keeps {heap : Heap} {gone : Nat → Prop} (rep : Represents direct body datas)
    (sound : heap.Sound direct)
    (keeps : body.heap.Keeps gone heap) (kept : ∀ id ∈ body.pending, ¬ gone id) :
    Represents direct { body with heap := heap } datas :=
  ⟨sound, rep.watched, rep.length, BodyChunk.holds_keeps rep.holds keeps kept, rep.nodup⟩

/-- `cancel` and `close` leave an empty queue. -/
theorem Represents.emptied (rep : Represents direct body datas) {next : RetainedBody}
    (heap : next.heap = body.heap) (low : next.lowWatermark = body.lowWatermark)
    (high : next.highWatermark = body.highWatermark)
    (flag : next.backpressured = false) (queued : next.queuedBytes = 0) (chunks : next.chunks = [])
    (index : next.readIndex = 0) :
    Represents direct next [] := by
  refine ⟨heap ▸ rep.sound, rep.watched.empty low high flag queued rfl index, by simp [chunks], ?_, ?_⟩
  · simp [unread, chunks]
  · simp [pending, unread, chunks]

theorem init_represents {maxBytes lowWatermark highWatermark : Int} {streaming : Bool}
    (start : init {} maxBytes lowWatermark highWatermark streaming = .ok body) :
    Represents ({} : Holding).direct body [] ∧ body.chunks = [] ∧ body.cancelled = false ∧
    body.closed = false := by
  unfold init at start
  split at start
  · cases start
  · simp only at start
    generalize (if highWatermark ≤ 0 then (if 0 < maxBytes then maxBytes else 1) else highWatermark) =
      high at start
    split at start
    · cases start
    · rename_i low
      split at start
      · cases start
      · rename_i below
        cases start
        have marks := not_le.mp below
        exact ⟨⟨Holding.empty_sound, ⟨not_lt.mp low, marks, ⟨nofun, fun _ =>
          lt_of_le_of_lt (not_lt.mp low) marks⟩, rfl, le_rfl⟩, rfl, .nil, .nil⟩, rfl, rfl, rfl⟩

end RetainedBody
end PccGateway
