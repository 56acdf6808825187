import PccGateway.Errors
import PccGateway.Lib.Method

namespace PccGateway

/-- One storage owner. `stop` is the source's `end`. -/
structure BufferSegment where
  capacity : Nat
  data : Bytes
  start : Nat := 0
  stop : Nat := 0
  references : Int := 1
  released : Bool := false

/-- A range of a segment, which is named by its place in the heap. -/
structure BufferView where
  owner : Nat
  start : Nat
  length : Nat
  released : Bool := false

namespace BufferSegment

def init (capacity : Int) : Except Exn BufferSegment :=
  if capacity ≤ 0 then .error (.value "buffer segment capacity must be positive")
  else .ok { capacity := capacity.toNat, data := List.replicate capacity.toNat 0 }

def retain : Method BufferSegment Exn Unit := fun segment =>
  if segment.released then (segment, .error (.bufferReleased "cannot retain a released segment"))
  else ({ segment with references := segment.references + 1 }, .ok ())

/-- `release`: 1 when the storage was dropped. -/
def release : Method BufferSegment Exn Nat := fun segment =>
  if segment.released then (segment, .error (.bufferReleased "segment released more than once"))
  else
    let left := { segment with references := segment.references - 1 }
    if left.references < 0 then (left, .error (.bufferReleased "negative segment reference count"))
    else if left.references = 0 then
      ({ left with released := true, data := [], start := 0, stop := 0 }, .ok 1)
    else (left, .ok 0)

def readableBytes (segment : BufferSegment) : Nat :=
  if segment.released then 0 else segment.stop - segment.start

def writableBytes (segment : BufferSegment) : Nat :=
  if segment.released then 0 else segment.capacity - segment.stop

/-- The copying loop of `write`. -/
def copyInto (data : Bytes) (index : Nat) : Bytes → Bytes
  | [] => data
  | value :: rest => copyInto (data.set index value) (index + 1) rest

def write (source : Bytes) (offset : Int := 0) (length : Int := -1) :
    Method BufferSegment Exn Nat := fun segment =>
  if segment.released then (segment, .error (.bufferReleased "cannot write a released segment"))
  else if offset < 0 ∨ (source.length : Int) < offset then
    (segment, .error (.value "source offset is out of range"))
  else
    let length := if length < 0 then (source.length : Int) - offset else length
    if length < 0 ∨ (source.length : Int) < offset + length then
      (segment, .error (.value "source length is out of range"))
    else
      let count := min length.toNat segment.writableBytes
      ({ segment with
          data := copyInto segment.data segment.stop ((source.drop offset.toNat).take count)
          stop := segment.stop + count }, .ok count)

def consume (length : Int) : Method BufferSegment Exn Nat := fun segment =>
  if segment.released then (segment, .error (.bufferReleased "cannot consume a released segment"))
  else if length < 0 then (segment, .error (.value "consume length must not be negative"))
  else
    let count := min length.toNat segment.readableBytes
    ({ segment with start := segment.start + count }, .ok count)

/-- `data[start:start + length]`. -/
def range (segment : BufferSegment) (start length : Nat) : Bytes := (segment.data.drop start).take length

/-- A segment either has dropped its storage, or it is held and its offsets lie inside the storage. -/
structure Shaped (segment : BufferSegment) : Prop where
  dropped : segment.released = true → segment.references = 0 ∧ segment.data = [] ∧ segment.start = 0 ∧
    segment.stop = 0
  held : segment.released = false → 0 < segment.references ∧ segment.data.length = segment.capacity ∧
    0 < segment.capacity ∧ segment.start ≤ segment.stop ∧ segment.stop ≤ segment.capacity

theorem init_shaped {capacity : Int} {segment : BufferSegment} (start : init capacity = .ok segment) :
    segment.Shaped ∧ segment.references = 1 ∧ segment.released = false ∧ segment.capacity = capacity.toNat ∧
      segment.start = 0 ∧ segment.stop = 0 := by
  unfold init at start
  split at start
  · cases start
  · cases start
    exact ⟨⟨nofun, fun _ => ⟨by simp, by simp, by simp only; omega, Nat.le_refl _, Nat.zero_le _⟩⟩,
      rfl, rfl, rfl, rfl, rfl⟩

theorem copyInto_length (data : Bytes) (index : Nat) (source : Bytes) :
    (copyInto data index source).length = data.length := by
  induction source generalizing data index with
  | nil => rfl
  | cons value rest ih => rw [copyInto, ih, List.length_set]

/-- The loop writes at `index` and behind it only. -/
theorem copyInto_take (data : Bytes) (index : Nat) (source : Bytes) :
    (copyInto data index source).take index = data.take index := by
  induction source generalizing data index with
  | nil => rfl
  | cons value rest ih =>
    have later := ih (data.set index value) (index + 1)
    calc (copyInto (data.set index value) (index + 1) rest).take index
        = ((copyInto (data.set index value) (index + 1) rest).take (index + 1)).take index := by
          rw [List.take_take, Nat.min_eq_left (Nat.le_succ index)]
      _ = ((data.set index value).take (index + 1)).take index := by rw [later]
      _ = (data.set index value).take index := by rw [List.take_take, Nat.min_eq_left (Nat.le_succ index)]
      _ = data.take index := List.take_set_of_le (Nat.le_refl index)

/-- It leaves the source there. -/
theorem copyInto_range (data : Bytes) (index : Nat) (source : Bytes)
    (fits : index + source.length ≤ data.length) :
    ((copyInto data index source).drop index).take source.length = source := by
  induction source generalizing data index with
  | nil => simp
  | cons value rest ih =>
    rw [List.length_cons] at fits ⊢
    have later := ih (data.set index value) (index + 1) (by rw [List.length_set]; omega)
    have first : (copyInto (data.set index value) (index + 1) rest)[index]? = some value := by
      have kept := congrArg (·[index]?) (copyInto_take (data.set index value) (index + 1) rest)
      simpa [List.getElem?_take, List.getElem?_set, show index < data.length by omega] using kept
    rw [copyInto, List.drop_eq_getElem?_toList_append, first]
    simpa using later

/-- What is in front of `stop` stays, and `stop` does not move back. -/
structure Grows (segment next : BufferSegment) : Prop where
  references : next.references = segment.references
  released : next.released = segment.released
  stop_le : segment.stop ≤ next.stop
  range : ∀ start length, start + length ≤ segment.stop →
    next.range start length = segment.range start length

theorem Grows.refl (segment : BufferSegment) :
    segment.Grows segment := ⟨rfl, rfl, Nat.le_refl _, fun _ _ _ => rfl⟩

theorem range_of_take {first second : BufferSegment} {stop start length : Nat}
    (same : first.data.take stop = second.data.take stop) (inside : start + length ≤ stop) :
    first.range start length = second.range start length := by
  have cut (segment : BufferSegment) :
      segment.range start length = ((segment.data.take stop).drop start).take length := by
    rw [range, List.drop_take, List.take_take, Nat.min_eq_left (by omega)]
  rw [cut, cut, same]

theorem write_grows {source : Bytes} {offset length : Int} {segment : BufferSegment}
    (shaped : segment.Shaped) :
    (write source offset length segment).1.Shaped ∧
    segment.Grows (write source offset length segment).1 := by
  unfold write
  split
  · exact ⟨shaped, .refl segment⟩
  · rename_i live
    have live : segment.released = false := by simpa using live
    obtain ⟨references, size, positive, start, stop⟩ := shaped.held live
    split
    · exact ⟨shaped, .refl segment⟩
    · simp only
      generalize (if length < 0 then (source.length : Int) - offset else length) = wanted
      split
      · exact ⟨shaped, .refl segment⟩
      · have room : segment.writableBytes = segment.capacity - segment.stop := by simp [writableBytes, live]
        refine ⟨⟨fun isOver => absurd (live.symm.trans isOver) (by simp), fun _ => ?_⟩, rfl, rfl,
          Nat.le_add_right _ _, ?_⟩
        · refine ⟨references, (copyInto_length _ _ _).trans size, positive, ?_, ?_⟩ <;> simp only <;> omega
        · exact fun at_ count inside => range_of_take (copyInto_take _ _ _) inside

theorem consume_grows {length : Int} {segment : BufferSegment} (shaped : segment.Shaped) :
    (consume length segment).1.Shaped ∧ segment.Grows (consume length segment).1 := by
  unfold consume
  split
  · exact ⟨shaped, .refl segment⟩
  · rename_i live
    have live : segment.released = false := by simpa using live
    obtain ⟨references, size, positive, start, stop⟩ := shaped.held live
    split
    · exact ⟨shaped, .refl segment⟩
    · have some_ : segment.readableBytes = segment.stop - segment.start := by simp [readableBytes, live]
      refine ⟨⟨fun isOver => absurd (live.symm.trans isOver) (by simp), fun _ => ?_⟩, rfl, rfl,
        Nat.le_refl _, fun _ _ _ => rfl⟩
      refine ⟨references, size, positive, ?_, stop⟩
      simp only
      omega

/-- A release by one of several holders, or by the last one. -/
theorem release_cases {segment : BufferSegment} (shaped : segment.Shaped)
    (live : segment.released = false) :
    (1 < segment.references ∧ release segment =
      ({ segment with references := segment.references - 1 }, .ok 0)) ∨
      segment.references = 1 ∧ release segment =
        ({ segment with references := 0, released := true, data := [], start := 0, stop := 0 }, .ok 1) := by
  have positive := (shaped.held live).1
  unfold release
  rw [if_neg (by simp [live])]
  simp only
  rw [if_neg (by omega)]
  by_cases last : segment.references = 1
  · exact .inr ⟨last, by rw [if_pos (by omega), last]; rfl⟩
  · exact .inl ⟨by omega, if_neg (by omega)⟩

end BufferSegment

/-- The segments and views of a run, and the views that were released, in this order. Nothing reads
that record. -/
structure Heap where
  segments : List BufferSegment := []
  views : List BufferView := []
  releases : List Nat := []

namespace Heap

abbrev Call (α : Type) : Type := Method Heap Exn α

def onSegment {α : Type} (id : Nat) (call : Method BufferSegment Exn α) : Call α := fun heap =>
  match heap.segments[id]? with
  | none => (heap, .error (.lookup "no such segment"))
  | some segment =>
    let (next, result) := call segment
    ({ heap with segments := heap.segments.set id next }, result)

/-- `BufferSegment(capacity)`, with its place in the heap. -/
def newSegment (capacity : Int) : Call Nat := fun heap =>
  match BufferSegment.init capacity with
  | .error error => (heap, .error error)
  | .ok segment => ({ heap with segments := heap.segments ++ [segment] }, .ok heap.segments.length)

/-- `BufferView(owner, start, length)`, with its place in the heap. -/
def newView (owner : Nat) (start length : Int) : Call Nat := fun heap =>
  match heap.segments[owner]? with
  | none => (heap, .error (.lookup "no such segment"))
  | some segment =>
    if segment.released then (heap, .error (.bufferReleased "cannot create a view of released storage"))
    else if start < 0 ∨ length < 0 ∨ (segment.stop : Int) < start + length then
      (heap, .error (.value "buffer view range is invalid"))
    else
      match onSegment owner BufferSegment.retain heap with
      | (heap, .error error) => (heap, .error error)
      | (heap, .ok _) =>
        let view : BufferView := { owner := owner, start := start.toNat, length := length.toNat }
        ({ heap with views := heap.views ++ [view] }, .ok heap.views.length)

/-- `BufferSegment.view`. -/
def view (id : Nat) (offset : Int := 0) (length : Int := -1) : Call Nat := fun heap =>
  match heap.segments[id]? with
  | none => (heap, .error (.lookup "no such segment"))
  | some segment =>
    if segment.released then (heap, .error (.bufferReleased "cannot view a released segment"))
    else if offset < 0 ∨ (segment.readableBytes : Int) < offset then
      (heap, .error (.value "view offset is out of range"))
    else
      let length := if length < 0 then (segment.readableBytes : Int) - offset else length
      if length < 0 ∨ (segment.readableBytes : Int) < offset + length then
        (heap, .error (.value "view length is out of range"))
      else newView id (segment.start + offset) length heap

/-- `BufferView.slice`. -/
def slice (id : Nat) (offset : Int := 0) (length : Int := -1) : Call Nat := fun heap =>
  match heap.views[id]? with
  | none => (heap, .error (.lookup "no such view"))
  | some view =>
    if view.released then (heap, .error (.bufferReleased "cannot slice a released view"))
    else if offset < 0 ∨ (view.length : Int) < offset then
      (heap, .error (.value "view slice offset is out of range"))
    else
      let length := if length < 0 then (view.length : Int) - offset else length
      if length < 0 ∨ (view.length : Int) < offset + length then
        (heap, .error (.value "view slice length is out of range"))
      else newView view.owner (view.start + offset) length heap

/-- `BufferView.release`. -/
def releaseView (id : Nat) : Call Nat := fun heap =>
  match heap.views[id]? with
  | none => (heap, .error (.lookup "no such view"))
  | some view =>
    if view.released then (heap, .error (.bufferReleased "buffer view released more than once"))
    else
      onSegment view.owner BufferSegment.release
        { heap with
          views := heap.views.set id { view with released := true, length := 0 }
          releases := heap.releases ++ [id] }

/-- `BufferView.to_bytes`. -/
def toBytes (id : Nat) (heap : Heap) : Except Exn Bytes :=
  match heap.views[id]? with
  | none => .error (.lookup "no such view")
  | some view =>
    if view.released then .error (.bufferReleased "cannot read a released view")
    else
      match heap.segments[view.owner]? with
      | none => .error (.lookup "no such segment")
      | some segment => .ok (segment.range view.start view.length)

/-- `len(view)`. -/
def viewLength (id : Nat) (heap : Heap) : Nat :=
  match heap.views[id]? with
  | none => 0
  | some view => if view.released then 0 else view.length

end Heap
end PccGateway
