import PccGateway.Http1.ServerFeed
import PccGateway.Http1.ChunkGrammar
import PccGateway.Http1.FieldSection
import PccGateway.Segment

namespace PccGateway
open Incremental Search

/-- A `BodyChunk` object of the codec: the view that it holds, and its own mark. -/
structure OwnedChunk where
  view : Nat
  released : Bool := false

/-- The storage of a process and the chunk objects, which are named by their places. -/
structure ChunkStore where
  heap : Heap := {}
  chunks : List OwnedChunk := []

namespace ChunkStore

abbrev Call (α : Type) : Type := Method ChunkStore Exn α

def onHeap {α : Type} (call : Heap.Call α) : Call α :=
  Method.on heap (fun heap store => { store with heap := heap }) call

/-- `BodyChunk(data)`. Bytes have no `to_bytes`, so they get a segment and a view of their own. -/
def create (data : Bytes) : Call Nat := do
  let segment ← onHeap (Heap.newSegment (if 0 < data.length then data.length else 1))
  let _ ← onHeap (Heap.onSegment segment (BufferSegment.write data))
  let view ← onHeap (Heap.view segment 0 data.length)
  let _ ← onHeap (Heap.onSegment segment BufferSegment.release)
  let store ← Method.get
  Method.modify fun store => { store with chunks := store.chunks ++ [{ view := view }] }
  return store.chunks.length

/-- `BodyChunk.release`. -/
def release (id : Nat) : Call Nat := fun store =>
  match store.chunks[id]? with
  | none => (store, .error (.lookup "no such chunk"))
  | some chunk =>
    if chunk.released then (store, .ok 0)
    else onHeap (Heap.releaseView chunk.view) { store with chunks := store.chunks.set id { chunk with
      released := true } }

end ChunkStore

/-- An event as the caller gets it. -/
inductive OwnedEvent where
  | requestHead (head : RequestHead)
  | bodyChunk (id : Nat)
  | requestEnd (trailers : List Header)

/-- What `_feed_pending` leaves: the list of events is filled also where it raises. -/
structure Fed where
  codec : Http1ServerCodec
  events : List OwnedEvent
  store : ChunkStore
  raised : Option Exn

/-- `events.append` for the events of one turn. -/
def appendEvents : List Event → List OwnedEvent → ChunkStore → List OwnedEvent × ChunkStore × Option Exn
  | [], events, store => (events, store, none)
  | .requestHead head :: rest, events, store => appendEvents rest (events ++ [.requestHead head]) store
  | .requestEnd trailers :: rest, events, store =>
    appendEvents rest (events ++ [.requestEnd trailers]) store
  | .bodyChunk data :: rest, events, store =>
    match ChunkStore.create data store with
    | (store, .ok id) => appendEvents rest (events ++ [.bodyChunk id]) store
    | (store, .error error) => (events, store, some error)

namespace Http1ServerCodec

/-- The loop of `_feed_pending`. It needs no fuel, as every turn that goes on makes the codec smaller. -/
def feedLoop (maxMessages : Nat) (codec : Http1ServerCodec) (completed : Nat)
    (events : List OwnedEvent) (store : ChunkStore) : Fed :=
  match _turn : codec.turn with
  | .wait => ⟨codec, events, store, none⟩
  | .fail error next => ⟨next, events, store, some error⟩
  | .emit next new complete =>
    match appendEvents new events store with
    | (events, store, some error) => ⟨next, events, store, some error⟩
    | (events, store, none) =>
      if complete ∧ 0 < maxMessages ∧ maxMessages ≤ completed + complete.toNat then
        ⟨next, events, store, none⟩
      else feedLoop maxMessages next (completed + complete.toNat) events store
termination_by codec.size
decreasing_by exact decoder.size_lt _turn

/-- `_feed_pending` for a quota that is not negative. -/
def feedPendingOwned (codec : Http1ServerCodec) (data : Bytes) (maxMessages : Nat)
    (store : ChunkStore) : Fed :=
  if codec.closed then
    ⟨codec, [], store, some (.http1 ⟨400, "connection-closed", "bytes received after close"⟩)⟩
  else feedLoop maxMessages (codec.push data) 0 [] store

/-- The loop of the handler in `feed`. -/
def releaseEvents : List OwnedEvent → ChunkStore.Call Unit :=
  Method.each fun event =>
    match event with
    | .bodyChunk id => do
      let store ← Method.get
      if store.chunks[id]?.any OwnedChunk.released then return ()
      else let _ ← ChunkStore.release id
    | _ => pure ()

/-- `feed`. Only an `Http1Error` is handled. -/
def feedOwned (codec : Http1ServerCodec) (data : Bytes) (maxMessages : Nat) (store : ChunkStore) :
    Http1ServerCodec × ChunkStore × Except Exn (List OwnedEvent) :=
  let fed := codec.feedPendingOwned data maxMessages store
  match fed.raised with
  | none => (fed.codec, fed.store, .ok fed.events)
  | some (.http1 error) =>
    match releaseEvents fed.events fed.store with
    | (store, .ok ()) => (fed.codec, store, .error (.http1 error))
    | (store, .error other) => (fed.codec, store, .error other)
  | some error => (fed.codec, fed.store, .error error)

end Http1ServerCodec

/-- A head whose one `Content-Length` is a run of more decimal digits than `int` converts. Everything
before it is right. -/
def OverlongLength (limits : CodecLimits) (block : Bytes) : Prop :=
  ∃ method target version headers raw, parseRequestLine limits.maxRequestLine
    ((splitCrlf block).headD []) = .ok (method, target, version) ∧
    parseHeaders (splitCrlf block).tail limits.maxHeaderCount = .ok headers ∧
    checkHost version headers = .ok () ∧
    fieldValues headers "content-length" = [raw] ∧ 4300 < raw.length ∧ ∀ c ∈ raw, '0' ≤ c ∧ c ≤ '9'

namespace Http1ServerCodec

/-- The turn is about to convert such a length. -/
def MeetsOverlong (codec : Http1ServerCodec) : Prop :=
  codec.state = .head ∧ ∃ block rest, codec.buffer = block ++ doubleCrlf ++ rest ∧
    Delimited doubleCrlf block ∧
    ((block.length + 4 : Nat) : Int) ≤ codec.limits.maxHeaderBytes ∧ OverlongLength codec.limits block

end Http1ServerCodec

/-- The chunks among events. -/
def chunkIds (events : List OwnedEvent) : List Nat :=
  events.filterMap fun event =>
    match event with
    | .bodyChunk id => some id
    | _ => none

/-- The call returned events, with every chunk that it created once among them and not released, or it
raised `Http1Error` and had released every chunk that it created once. -/
def Disciplined (before : ChunkStore)
    (result : Http1ServerCodec × ChunkStore × Except Exn (List OwnedEvent)) : Prop :=
  let after := result.2.1
  match result.2.2 with
  | .ok events => ∀ id, before.chunks.length ≤ id → id < after.chunks.length →
      (chunkIds events).count id = 1 ∧ ∃ chunk, after.chunks[id]? = some chunk ∧ chunk.released = false ∧
        ∃ view, after.heap.views[chunk.view]? = some view ∧ view.released = false
  | .error error =>
    (∃ raised, error = .http1 raised) ∧ ∀ id, before.chunks.length ≤ id → id < after.chunks.length →
      ∃ chunk, after.chunks[id]? = some chunk ∧ chunk.released = true ∧
        (after.heap.releases.drop before.heap.releases.length).count chunk.view = 1

section Errors
variable {error : Exn}

theorem ite_raiseHttp1_eq_error {α : Type} {p : Prop} [Decidable p] {status : Nat}
    {code message : String} {x : Except Exn α}
    (run : (if p then raiseHttp1 status code message else x) = .error error) :
    (∃ raised, error = .http1 raised) ∨ ¬ p ∧ x = .error error := by
  split at run
  · exact .inl ⟨_, (Except.error.inj run).symm⟩
  · rename_i other
    exact .inr ⟨other, run⟩

theorem parseRequestLine_error {maxRequestLine : Int} {line : Bytes}
    (run : parseRequestLine maxRequestLine line = .error error) :
    ∃ raised, error = .http1 raised := by
  revert run
  fun_cases parseRequestLine maxRequestLine line <;> intro run
  all_goals first
    | exact ⟨_, (Except.error.inj run).symm⟩
    | cases run

theorem parseHeaderLines_error {maxCount : Int} {lines : List Bytes} {before : List Header}
    (run : parseHeaderLines maxCount lines before = .error error) : ∃ raised, error = .http1 raised := by
  induction lines generalizing before with
  | nil => cases run
  | cons line lines ih =>
    cases line with
    | nil => exact ih run
    | cons first more =>
      unfold parseHeaderLines at run
      rcases ite_raiseHttp1_eq_error run with raised | ⟨-, run⟩
      · exact raised
      split at run
      · exact ⟨_, (Except.error.inj run).symm⟩
      · exact ⟨_, (Except.error.inj run).symm⟩
      · rcases ite_raiseHttp1_eq_error run with raised | ⟨-, run⟩
        · exact raised
        rcases ite_raiseHttp1_eq_error run with raised | ⟨-, run⟩
        · exact raised
        rcases ite_raiseHttp1_eq_error run with raised | ⟨-, run⟩
        · exact raised
        exact ih run

theorem checkHost_error {version : Version} {headers : List Header}
    (run : checkHost version headers = .error error) :
    ∃ raised, error = .http1 raised := by
  rcases ite_raiseHttp1_eq_error run with raised | ⟨-, run⟩
  · exact raised
  rcases ite_raiseHttp1_eq_error run with raised | ⟨-, run⟩
  · exact raised
  · cases run

theorem requestChunked_error {contentLength : Int} {headers : List Header}
    (run : requestChunked contentLength headers = .error error) :
    ∃ raised, error = .http1 raised := by
  unfold requestChunked at run
  split at run
  · cases run
  rcases ite_raiseHttp1_eq_error run with raised | ⟨-, run⟩
  · exact raised
  rcases ite_raiseHttp1_eq_error run with raised | ⟨-, run⟩
  · exact raised
  · cases run

theorem requestExpectContinue_error {headers : List Header}
    (run : requestExpectContinue headers = .error error) :
    ∃ raised, error = .http1 raised := by
  unfold requestExpectContinue at run
  split at run
  · cases run
  rcases ite_raiseHttp1_eq_error run with raised | ⟨-, run⟩
  · exact raised
  · cases run

/-- The one conversion that raises something else. -/
theorem requestContentLength_error {maxBodyBytes : Int} {headers : List Header}
    (run : requestContentLength maxBodyBytes headers = .error error) : (∃ raised, error = .http1 raised) ∨
      ∃ raw, fieldValues headers "content-length" = [raw] ∧ 4300 < raw.length ∧ ∀ c ∈ raw, '0' ≤ c ∧
      c ≤ '9' := by
  unfold requestContentLength at run
  split at run
  · cases run
  · rename_i raw values
    rcases ite_raiseHttp1_eq_error run with raised | ⟨-, run⟩
    · exact .inl raised
    rcases ite_raiseHttp1_eq_error run with raised | ⟨-, run⟩
    · exact .inl raised
    rcases ite_raiseHttp1_eq_error run with raised | ⟨digits, run⟩
    · exact .inl raised
    rcases bind_eq_error.mp run with refused | ⟨length, -, run⟩
    · unfold parseDecimal at refused
      split at refused
      · rename_i long
        refine .inr ⟨raw, values, long, fun c member => ?_⟩
        simp only [List.any_eq_true, not_exists, not_and, Bool.or_eq_true, decide_eq_true_eq, not_or,
          Char.not_lt] at digits
        exact digits c member
      · cases refused
    · rcases ite_raiseHttp1_eq_error run with raised | ⟨-, run⟩
      · exact .inl raised
      · cases run
  · exact .inl ⟨_, (Except.error.inj run).symm⟩

theorem parseRequestHead_error {limits : CodecLimits} {block : Bytes}
    (run : parseRequestHead limits block = .error error) :
    (∃ raised, error = .http1 raised) ∨ OverlongLength limits block := by
  unfold parseRequestHead at run
  rcases bind_eq_error.mp run with refused | ⟨⟨method, target, version⟩, line, run⟩
  · exact .inl (parseRequestLine_error refused)
  rcases bind_eq_error.mp run with refused | ⟨headers, fields, run⟩
  · exact .inl (parseHeaderLines_error refused)
  rcases bind_eq_error.mp run with refused | ⟨⟨⟩, host, run⟩
  · exact .inl (checkHost_error refused)
  rcases bind_eq_error.mp run with refused | ⟨contentLength, -, run⟩
  · rcases requestContentLength_error refused with raised | ⟨raw, values, long, digits⟩
    · exact .inl raised
    · exact .inr ⟨method, target, version, headers, raw, line, fields, host, values, long, digits⟩
  rcases bind_eq_error.mp run with refused | ⟨chunked, -, run⟩
  · exact .inl (requestChunked_error refused)
  rcases bind_eq_error.mp run with refused | ⟨expectContinue, -, run⟩
  · exact .inl (requestExpectContinue_error refused)
  · cases run

theorem OverlongLength.refused {limits : CodecLimits} {block : Bytes}
    (overlong : OverlongLength limits block) :
    parseRequestHead limits block = .error (.value "Exceeds the limit for integer string conversion") := by
  obtain ⟨method, target, version, headers, raw, line, fields, host, values, long, digits⟩ := overlong
  have noComma : raw.contains ',' = false := by
    simp only [List.contains_eq_mem, decide_eq_false_iff_not]
    exact fun member => absurd (digits ',' member).1 (by decide)
  have nonempty : raw ≠ [] := by
    rintro rfl
    cases long
  have decimal : raw.any (fun c => c < '0' || '9' < c) = false := by
    simp only [List.any_eq_false, Bool.or_eq_true, decide_eq_true_eq, not_or, Char.not_lt]
    exact digits
  have length : requestContentLength limits.maxBodyBytes headers =
      .error (.value "Exceeds the limit for integer string conversion") := by
    unfold requestContentLength
    rw [values]
    simp only [noComma, nonempty, decimal, parseDecimal, long, if_true, if_false, Bool.false_eq_true]
    rfl
  unfold parseRequestHead
  simp only [line, fields, host, length, bind, Except.bind]

end Errors

namespace Http1ServerCodec

theorem headTurn_error {codec next : Http1ServerCodec} {error : Exn} (state : codec.state = .head)
    (turn : codec.headTurn = .fail error next) :
    (∃ raised, error = .http1 raised) ∨ codec.MeetsOverlong := by
  unfold headTurn at turn
  simp only [failTurn] at turn
  split at turn
  · split at turn
    · cases turn
      exact .inl ⟨_, rfl⟩
    split at turn
    · cases turn
      exact .inl ⟨_, rfl⟩
    · cases turn
  · rename_i marker found
    obtain ⟨block, rest, buffer, rfl, delimited⟩ := findSub_eq_some_iff_exists.mp found
    have given : codec.buffer.take block.length = block := by simp [buffer]
    split at turn
    · cases turn
      exact .inl ⟨_, rfl⟩
    rename_i bound
    rw [given] at turn
    split at turn
    · rename_i refused
      cases turn
      rcases bind_eq_error.mp refused with refused | ⟨head, -, refused⟩
      · refine (parseRequestHead_error refused).imp_right fun overlong => ?_
        exact ⟨state, block, rest, buffer, delimited, by omega, overlong⟩
      · cases refused
    · cases turn
    · cases turn

theorem turn_error {codec next : Http1ServerCodec} {error : Exn} (turn : codec.turn = .fail error next) :
    (∃ raised, error = .http1 raised) ∨ codec.MeetsOverlong := by
  unfold Http1ServerCodec.turn at turn
  split at turn <;> rename_i state
  · exact headTurn_error state turn
  · left
    unfold fixedBodyTurn at turn
    split at turn
    · cases turn
    dsimp only at turn
    split at turn <;> cases turn
  · left
    unfold chunkSizeTurn at turn
    simp only [failTurn] at turn
    split at turn
    · split at turn
      · cases turn
        exact ⟨_, rfl⟩
      · cases turn
    split at turn
    · cases turn
      exact ⟨_, rfl⟩
    split at turn
    · rename_i refused
      cases turn
      exact parseChunkSizeLine_error refused
    split at turn
    · cases turn
      exact ⟨_, rfl⟩
    split at turn
    · cases turn
      exact ⟨_, rfl⟩
    split at turn <;> cases turn
  · left
    unfold chunkDataTurn at turn
    simp only [failTurn] at turn
    split at turn
    · cases turn
    split at turn
    · cases turn
      exact ⟨_, rfl⟩
    · cases turn
  · left
    unfold trailersTurn at turn
    simp only [failTurn] at turn
    split at turn
    · cases turn
    split at turn
    · split at turn
      · cases turn
        exact ⟨_, rfl⟩
      · cases turn
    split at turn
    · cases turn
      exact ⟨_, rfl⟩
    split at turn
    · rename_i refused
      cases turn
      exact parseHeaderLines_error refused
    split at turn
    · cases turn
      exact ⟨_, rfl⟩
    · cases turn

theorem MeetsOverlong.fails {codec : Http1ServerCodec} (meets : codec.MeetsOverlong) :
    ∃ next, codec.turn = .fail (.value "Exceeds the limit for integer string conversion") next := by
  obtain ⟨state, block, rest, buffer, delimited, bound, overlong⟩ := meets
  have found : findDoubleCrlf codec.buffer = some block.length :=
    findSub_eq_some_iff_exists.mpr ⟨block, rest, buffer, rfl, delimited⟩
  have given : codec.buffer.take block.length = block := by simp [buffer]
  have entered : codec.turn = codec.headTurn := by simp only [turn, state]
  refine ⟨{ codec with buffer := codec.buffer.drop (block.length + 4) }, ?_⟩
  rw [entered, headTurn, found]
  simp only
  rw [if_neg (by omega), given, parseHead, overlong.refused]
  rfl

section Loop
variable {maxMessages completed : Nat} {codec next last : Http1ServerCodec} {events : List OwnedEvent}
  {store : ChunkStore}

theorem feedLoop_wait (turn : codec.turn = .wait) :
    feedLoop maxMessages codec completed events store = ⟨codec, events, store, none⟩ := by
  rw [feedLoop]
  split <;> simp_all

theorem feedLoop_fail {error : Exn} (turn : codec.turn = .fail error next) :
    feedLoop maxMessages codec completed events store = ⟨next, events, store, some error⟩ := by
  rw [feedLoop]
  split <;> simp_all

theorem feedLoop_emit {new : List Event} {complete : Bool} {events' : List OwnedEvent} {store' : ChunkStore}
    (turn : codec.turn = .emit next new complete)
    (appended : appendEvents new events store = (events', store', none)) :
    feedLoop maxMessages codec completed events store =
      if complete = true ∧ 0 < maxMessages ∧ maxMessages ≤ completed + complete.toNat then
        ⟨next, events', store', none⟩
      else feedLoop maxMessages next (completed + complete.toNat) events' store' := by
  rw [feedLoop]
  split
  · simp_all
  · simp_all
  · rename_i same
    rw [turn] at same
    cases same
    rw [appended]

end Loop

end Http1ServerCodec

namespace Heap

theorem onSegment_last {α : Type} (heap : Heap) (segment : BufferSegment) (views : List BufferView)
    (call : Method BufferSegment Exn α) :
    onSegment heap.segments.length call
      { heap with segments := heap.segments ++ [segment], views := views } =
      ({ heap with segments := heap.segments ++ [(call segment).1], views := views },
        (call segment).2) := by
  simp [onSegment]

end Heap

namespace ChunkStore

/-- The storage of a fresh chunk. -/
theorem write_fresh (data : Bytes) : ∃ segment : BufferSegment,
    BufferSegment.init (if 0 < data.length then data.length else 1) = .ok segment ∧
    BufferSegment.write data 0 (-1) segment =
      ({ segment with data := BufferSegment.copyInto segment.data 0 data, stop := data.length },
        .ok data.length) ∧
    segment.released = false ∧ segment.references = 1 ∧ segment.start = 0 ∧ data.length ≤
      segment.data.length := by
  have positive : ¬ (if 0 < data.length then (data.length : Int) else 1) ≤ 0 := by split <;> omega
  have room : data.length ≤ (if 0 < data.length then (data.length : Int) else 1).toNat := by split <;> omega
  refine ⟨_, by rw [BufferSegment.init, if_neg positive], ?_, rfl, rfl, rfl, by simpa using room⟩
  unfold BufferSegment.write
  simp only [BufferSegment.writableBytes, Bool.false_eq_true, if_false, Nat.sub_zero, Nat.zero_add]
  have wanted : (if (-1 : Int) < 0 then (data.length : Int) - 0 else -1) = data.length := by simp
  rw [if_neg (by omega), wanted, if_neg (by omega), Int.toNat_natCast, Nat.min_eq_left room,
    Int.toNat_zero, List.drop_zero, List.take_length]

/-- A view of the whole of a segment that nobody else holds. -/
theorem view_fresh (heap : Heap) {stored : BufferSegment} (live : stored.released = false)
    (start : stored.start = 0) :
    Heap.view heap.segments.length 0 stored.stop { heap with segments := heap.segments ++ [stored] } =
      ({ heap with
          segments := heap.segments ++ [{ stored with references := stored.references + 1 }]
          views := heap.views ++
            [{ owner := heap.segments.length, start := 0, length := stored.stop }] },
            .ok heap.views.length) := by
  have found : (heap.segments ++ [stored])[heap.segments.length]? = some stored := by simp
  have readable : stored.readableBytes = stored.stop := by simp [BufferSegment.readableBytes, live, start]
  have retained : BufferSegment.retain stored =
      ({ stored with references := stored.references + 1 }, .ok ()) := by
    simp [BufferSegment.retain, live]
  have held := Heap.onSegment_last heap stored heap.views BufferSegment.retain
  unfold Heap.view
  simp only [found, live, readable, start, Bool.false_eq_true, if_false]
  rw [if_neg (by omega), if_neg (by omega : ¬ (stored.stop : Int) < 0), if_neg (by omega)]
  unfold Heap.newView
  simp only [found, live, Bool.false_eq_true, if_false]
  rw [if_neg (by omega), held, retained]
  simp [start, live]

theorem create_run (data : Bytes) (store : ChunkStore) : ∃ stored : BufferSegment,
    stored.released = false ∧ stored.references = 1 ∧ stored.range 0 data.length = data ∧
      create data store = ({
        heap := {
          segments := store.heap.segments ++ [stored]
          views := store.heap.views ++
            [{ owner := store.heap.segments.length, start := 0, length := data.length }]
          releases := store.heap.releases }
        chunks := store.chunks ++ [{ view := store.heap.views.length }] }, .ok store.chunks.length) := by
  obtain ⟨heap, chunks⟩ := store
  obtain ⟨segment, made, written, live, once, start, room⟩ := write_fresh data
  let stored : BufferSegment :=
    { segment with data := BufferSegment.copyInto segment.data 0 data, stop := data.length }
  refine ⟨stored, live, once, BufferSegment.copyInto_range segment.data 0 data (by omega), ?_⟩
  have newRun : Heap.newSegment (if 0 < data.length then data.length else 1) heap =
      ({ heap with segments := heap.segments ++ [segment] }, .ok heap.segments.length) := by
    simp only [Heap.newSegment, made]
  have writeRun : Heap.onSegment heap.segments.length (BufferSegment.write data)
      { heap with segments := heap.segments ++ [segment] } =
      ({ heap with segments := heap.segments ++ [stored] }, .ok data.length) := by
    rw [Heap.onSegment_last heap segment heap.views, written]
  have viewRun : Heap.view heap.segments.length 0 data.length
      { heap with segments := heap.segments ++ [stored] } = _ :=
    view_fresh heap (show stored.released = false from live) start
  have dropped : BufferSegment.release { stored with references := stored.references + 1 } =
      (stored, .ok 0) := by
    unfold BufferSegment.release
    rw [if_neg (by simp [stored, live])]
    simp [stored, once]
  have releaseRun (views : List BufferView) : Heap.onSegment heap.segments.length BufferSegment.release
      { heap with segments := heap.segments ++
        [{ stored with references := stored.references + 1 }], views := views } =
        ({ heap with segments := heap.segments ++ [stored], views := views }, .ok 0) := by
    rw [Heap.onSegment_last heap _ views, dropped]
  simp only [create, Method.bind_run, onHeap, Method.on, newRun, writeRun, viewRun, releaseRun]
  rfl

end ChunkStore

/-- The bytes of the chunks among the decoder's events. -/
def bodies : List Event → List Bytes
  | [] => []
  | .requestHead _ :: rest => bodies rest
  | .requestEnd _ :: rest => bodies rest
  | .bodyChunk data :: rest => data :: bodies rest

/-- The events with the chunk objects, numbered from `first` on, in the place of their bytes. -/
def numbered (first : Nat) : List Event → List OwnedEvent
  | [] => []
  | .requestHead head :: rest => .requestHead head :: numbered first rest
  | .requestEnd trailers :: rest => .requestEnd trailers :: numbered first rest
  | .bodyChunk _ :: rest => .bodyChunk first :: numbered (first + 1) rest

/-- A chunk that nobody has released, which is the only holder of its segment. -/
structure ChunkStore.Holds (store : ChunkStore) (segment view id : Nat) (data : Bytes) : Prop where
  chunk : store.chunks[id]? = some { view := view }
  view : store.heap.views[view]? = some { owner := segment, start := 0, length := data.length }
  segment : ∃ stored : BufferSegment, store.heap.segments[segment]? = some stored ∧
    stored.released = false ∧ stored.references = 1 ∧ stored.range 0 data.length = data

/-- What a call has created so far are the chunks of its events, and it has released nothing. -/
structure Collected (before store : ChunkStore) (events : List Event) : Prop where
  chunks : store.chunks.length = before.chunks.length + (bodies events).length
  views : store.heap.views.length = before.heap.views.length + (bodies events).length
  segments : store.heap.segments.length = before.heap.segments.length + (bodies events).length
  releases : store.heap.releases = before.heap.releases
  holds : ∀ (index : Nat) (data : Bytes), (bodies events)[index]? = some data →
    store.Holds (before.heap.segments.length + index)
    (before.heap.views.length + index) (before.chunks.length + index) data

theorem bodies_append (first second : List Event) :
    bodies (first ++ second) = bodies first ++ bodies second := by
  fun_induction bodies first <;> simp_all [bodies]

theorem numbered_append (start : Nat) (first second : List Event) :
    numbered start (first ++ second) =
      numbered start first ++ numbered (start + (bodies first).length) second := by
  induction first generalizing start with
  | nil => rfl
  | cons event first ih =>
    cases event with
    | requestHead head => exact congrArg (.requestHead head :: ·) (ih start)
    | requestEnd trailers => exact congrArg (.requestEnd trailers :: ·) (ih start)
    | bodyChunk data =>
      rw [List.cons_append, numbered, ih (start + 1), numbered, bodies, List.length_cons,
        Nat.add_right_comm]
      rfl

theorem chunkIds_numbered (start : Nat) (events : List Event) :
    chunkIds (numbered start events) = List.range' start (bodies events).length := by
  induction events generalizing start with
  | nil => rfl
  | cons event events ih =>
    cases event with
    | requestHead head => exact ih start
    | requestEnd trailers => exact ih start
    | bodyChunk data => exact congrArg (start :: ·) (ih (start + 1))

theorem Collected.start (store : ChunkStore) : Collected store store [] :=
  ⟨rfl, rfl, rfl, rfl, nofun⟩

theorem ChunkStore.Holds.later {store store' : ChunkStore} {segment view id : Nat} {data : Bytes}
    (holds : store.Holds segment view id data)
    (chunks : ∀ chunk, store.chunks[id]? = some chunk → store'.chunks[id]? = some chunk)
    (views : ∀ shown, store.heap.views[view]? = some shown → store'.heap.views[view]? = some shown)
    (segments : ∀ stored, store.heap.segments[segment]? = some stored →
      store'.heap.segments[segment]? = some stored) :
    store'.Holds segment view id data := by
  obtain ⟨stored, found, rest⟩ := holds.segment
  exact ⟨chunks _ holds.chunk, views _ holds.view, stored, segments stored found, rest⟩

theorem Collected.create {before store : ChunkStore} {events : List Event}
    (collected : Collected before store events) (data : Bytes) :
    ∃ store', ChunkStore.create data store = (store', .ok store.chunks.length) ∧
    Collected before store' (events ++ [.bodyChunk data]) := by
  obtain ⟨stored, live, once, content, run⟩ := ChunkStore.create_run data store
  have longer : bodies (events ++ [.bodyChunk data]) = bodies events ++ [data] := bodies_append events _
  refine ⟨_, run, ?_, ?_, ?_, collected.releases, ?_⟩
  · simp only [longer, List.length_append, List.length_singleton, collected.chunks]
    omega
  · simp only [longer, List.length_append, List.length_singleton, collected.views]
    omega
  · simp only [longer, List.length_append, List.length_singleton, collected.segments]
    omega
  · intro index shown found
    rw [longer] at found
    rcases Nat.lt_or_ge index (bodies events).length with old | new
    · rw [List.getElem?_append_left old] at found
      refine (collected.holds index shown found).later (fun chunk found => ?_) (fun view found => ?_)
        fun segment found => ?_
      · exact (List.getElem?_append_left (List.getElem?_eq_some_iff.mp found).1).trans found
      · exact (List.getElem?_append_left (List.getElem?_eq_some_iff.mp found).1).trans found
      · exact (List.getElem?_append_left (List.getElem?_eq_some_iff.mp found).1).trans found
    · have last : index = (bodies events).length := by
        have inside := (List.getElem?_eq_some_iff.mp found).1
        rw [List.length_append, List.length_singleton] at inside
        omega
      subst last
      rw [List.getElem?_concat_length] at found
      cases found
      rw [← collected.chunks, ← collected.views, ← collected.segments]
      exact ⟨List.getElem?_concat_length, List.getElem?_concat_length, stored,
        List.getElem?_concat_length, live, once, content⟩

theorem Collected.plain {before store : ChunkStore} {events : List Event}
    (collected : Collected before store events) {event : Event}
    (none : bodies [event] = []) : Collected before store (events ++ [event]) := by
  have same : bodies (events ++ [event]) = bodies events := by rw [bodies_append, none, List.append_nil]
  obtain ⟨chunks, views, segments, releases, holds⟩ := collected
  rw [← same] at chunks views segments holds
  exact ⟨chunks, views, segments, releases, holds⟩

theorem Collected.append {before store : ChunkStore} {past : List Event}
    (collected : Collected before store past) (new : List Event) :
    ∃ store', appendEvents new (numbered before.chunks.length past) store =
      (numbered before.chunks.length (past ++ new), store', none) ∧ Collected before store'
      (past ++ new) := by
  induction new generalizing past store with
  | nil => exact ⟨store, by rw [List.append_nil, appendEvents], by rwa [List.append_nil]⟩
  | cons event new ih =>
    have last := numbered_append before.chunks.length past [event]
    rw [List.append_cons past event new]
    cases event with
    | requestHead head =>
      rw [appendEvents]
      have appended := ih (@Collected.plain _ _ _ collected (.requestHead head) rfl)
      rwa [last] at appended
    | requestEnd trailers =>
      rw [appendEvents]
      have appended := ih (@Collected.plain _ _ _ collected (.requestEnd trailers) rfl)
      rwa [last] at appended
    | bodyChunk data =>
      obtain ⟨store', run, created⟩ := collected.create data
      rw [appendEvents, run]
      have appended := ih created
      rw [last, ← collected.chunks] at appended
      exact appended

namespace Http1ServerCodec

/-- The loop with its objects does what the decoder does with bytes. -/
theorem feedLoop_drain {before store : ChunkStore} {past : List Event}
    {maxMessages completed fuel : Nat} {codec : Http1ServerCodec}
    (collected : Collected before store past) (enough : codec.size < fuel) :
    ∃ store', feedLoop maxMessages codec completed (numbered before.chunks.length past) store =
        ⟨(decoder.drain maxMessages fuel codec completed past).1,
          numbered before.chunks.length (decoder.drain maxMessages fuel codec completed past).2.1, store',
          (decoder.drain maxMessages fuel codec completed past).2.2⟩ ∧
      Collected before store' (decoder.drain maxMessages fuel codec completed past).2.1 := by
  induction fuel generalizing codec completed past store with
  | zero => omega
  | succ fuel ih =>
    rw [Decoder.drain]
    cases turn : codec.turn with
    | wait =>
      have waits : decoder.turn codec = .wait := turn
      rw [feedLoop_wait turn, waits]
      exact ⟨store, rfl, collected⟩
    | fail error next =>
      have fails : decoder.turn codec = .fail error next := turn
      rw [feedLoop_fail turn, fails]
      exact ⟨store, rfl, collected⟩
    | emit next new complete =>
      have emits : decoder.turn codec = .emit next new complete := turn
      have smaller : next.size < codec.size := decoder.size_lt emits
      obtain ⟨store', appended, collected'⟩ := collected.append new
      rw [feedLoop_emit turn appended, emits]
      dsimp only
      split
      · exact ⟨store', rfl, collected'⟩
      · exact ih collected' (by omega)

end Http1ServerCodec

theorem ChunkStore.Holds.release {store : ChunkStore} {segment view id : Nat} {data : Bytes}
    (holds : store.Holds segment view id data) :
    ∃ store', ChunkStore.release id store = (store', .ok 1) ∧
      store'.chunks = store.chunks.set id { view := view, released := true } ∧ store'.heap.releases =
        store.heap.releases ++ [view] ∧
      ∀ {segment' view' id' : Nat} {data' : Bytes}, segment ≠ segment' → view ≠ view' → id ≠ id' →
        store.Holds segment' view' id' data' → store'.Holds segment' view' id' data' := by
  obtain ⟨stored, found, live, once, -⟩ := holds.segment
  have released : BufferSegment.release stored =
      ({ stored with references := 0, released := true, data := [], start := 0, stop := 0 }, .ok 1) := by
    unfold BufferSegment.release
    rw [if_neg (by simp [live])]
    simp [once]
  refine ⟨{
    heap := {
      segments := store.heap.segments.set segment
        { stored with references := 0, released := true, data := [], start := 0, stop := 0 }
      views := store.heap.views.set view { owner := segment, start := 0, length := 0, released := true }
      releases := store.heap.releases ++ [view] }
    chunks := store.chunks.set id { view := view, released := true } }, ?_, rfl, rfl, ?_⟩
  · unfold ChunkStore.release
    rw [holds.chunk]
    simp only [Bool.false_eq_true, if_false, ChunkStore.onHeap, Method.on, Heap.releaseView,
      holds.view, Heap.onSegment, found, released]
  · intro segment' view' id' data' otherSegment otherView otherChunk other
    refine other.later (fun chunk found => ?_) (fun shown found => ?_) fun stored found => ?_
    · exact (List.getElem?_set_ne otherChunk).trans found
    · exact (List.getElem?_set_ne otherView).trans found
    · exact (List.getElem?_set_ne otherSegment).trans found

/-- The handler releases each chunk of the events that it is given. -/
theorem releaseEvents_run {events : List Event} {segment view id : Nat} {store : ChunkStore}
    (holds : ∀ (index : Nat) (data : Bytes), (bodies events)[index]? = some data →
      store.Holds (segment + index) (view + index) (id + index) data) :
    ∃ store', Http1ServerCodec.releaseEvents (numbered id events) store = (store', .ok ()) ∧
      store'.chunks.length = store.chunks.length ∧
      store'.heap.releases = store.heap.releases ++ List.range' view (bodies events).length ∧
      (∀ index < (bodies events).length,
        store'.chunks[id + index]? = some { view := view + index, released := true }) ∧
      ∀ other < id, store'.chunks[other]? = store.chunks[other]? := by
  induction events generalizing segment view id store with
  | nil => exact ⟨store, rfl, rfl, by simp [bodies], nofun, fun _ _ => rfl⟩
  | cons event events ih =>
    cases event with
    | requestHead head =>
      obtain ⟨store', run, rest⟩ := ih holds
      exact ⟨store', run, rest⟩
    | requestEnd trailers =>
      obtain ⟨store', run, rest⟩ := ih holds
      exact ⟨store', run, rest⟩
    | bodyChunk data =>
      have first : store.Holds segment view id data := holds 0 data rfl
      obtain ⟨store₁, released, chunks, releases₁, others⟩ := first.release
      have unmarked : store.chunks[id]?.any OwnedChunk.released = false := by
        rw [first.chunk]
        rfl
      have inside := (List.getElem?_eq_some_iff.mp first.chunk).1
      obtain ⟨store', run, length, releases, marked, kept⟩ :=
        @ih (segment + 1) (view + 1) (id + 1) store₁ fun index data found => by
        rw [Nat.add_assoc, Nat.add_assoc, Nat.add_assoc, Nat.add_comm 1]
        exact others (by omega) (by omega) (by omega) (holds (index + 1) data found)
      refine ⟨store', ?_, ?_, ?_, ?_, ?_⟩
      · rw [numbered, Http1ServerCodec.releaseEvents, Method.each, Method.bind_run]
        simp only [Method.bind_run, Method.get_run, unmarked, Bool.false_eq_true, if_false, released,
          Method.pure_run]
        exact run
      · rw [length, chunks, List.length_set]
      · rw [releases, releases₁, bodies, List.length_cons, List.range'_succ, List.append_assoc]
        rfl
      · intro index bound
        cases index with
        | zero =>
          rw [Nat.add_zero, Nat.add_zero, kept id (Nat.lt_succ_self id), chunks]
          exact List.getElem?_set_self inside
        | succ index =>
          rw [bodies, List.length_cons] at bound
          have later := marked index (by omega)
          rwa [Nat.add_right_comm id, Nat.add_right_comm view] at later
      · intro other below
        rw [kept other (by omega), chunks]
        exact List.getElem?_set_ne (by omega)

/-- The chunks that a call has created, each of them released once. -/
def ReleasedAll (before after : ChunkStore) : Prop :=
  ∃ created, after.chunks.length = before.chunks.length + created ∧
    after.heap.releases = before.heap.releases ++ List.range' before.heap.views.length created ∧
    ∀ index < created, after.chunks[before.chunks.length + index]? =
      some { view := before.heap.views.length + index, released := true }

theorem count_range' {start length value : Nat} (above : start ≤ value) (below : value < start + length) :
    (List.range' start length).count value = 1 :=
  List.count_eq_one_of_mem List.nodup_range' (List.mem_range'_1.mpr ⟨above, below⟩)

theorem Collected.disciplined {before after : ChunkStore} {events : List Event}
    (collected : Collected before after events) (codec : Http1ServerCodec) :
    Disciplined before (codec, after, .ok (numbered before.chunks.length events)) := by
  intro id old new
  replace new : id < after.chunks.length := new
  rw [collected.chunks] at new
  obtain ⟨index, rfl⟩ := Nat.exists_eq_add_of_le old
  have inside : index < (bodies events).length := by omega
  have holds := collected.holds index _ (List.getElem?_eq_getElem inside)
  refine ⟨?_, _, holds.chunk, rfl, _, holds.view, rfl⟩
  rw [chunkIds_numbered]
  exact count_range' old new

theorem ReleasedAll.disciplined {before after : ChunkStore} (released : ReleasedAll before after)
    (codec : Http1ServerCodec)
    (raised : Http1Error) : Disciplined before (codec, after, .error (.http1 raised)) := by
  obtain ⟨created, length, releases, marked⟩ := released
  refine ⟨⟨raised, rfl⟩, fun id old new => ?_⟩
  replace new : id < after.chunks.length := new
  obtain ⟨index, rfl⟩ := Nat.exists_eq_add_of_le old
  refine ⟨_, marked index (by omega), rfl, ?_⟩
  dsimp only
  rw [releases, List.drop_left]
  exact count_range' (Nat.le_add_right _ _) (by omega)

namespace Http1ServerCodec

theorem feedPending_quota (codec : Http1ServerCodec) (data : Bytes) (maxMessages : Nat) :
    codec.feedPending data maxMessages =
    if codec.closed then (codec, [], some (.http1 ⟨400, "connection-closed", "bytes received after close"⟩))
    else decoder.feed maxMessages codec data := by
  unfold feedPending
  rw [if_neg (by omega : ¬ (maxMessages : Int) < 0), Int.toNat_natCast]

theorem feedPendingOwned_run (codec : Http1ServerCodec) (data : Bytes) (maxMessages : Nat)
    (store : ChunkStore) :
    ∃ store', codec.feedPendingOwned data maxMessages store =
        ⟨(codec.feedPending data maxMessages).1, numbered store.chunks.length (codec.feedPending data
          maxMessages).2.1, store', (codec.feedPending data maxMessages).2.2⟩ ∧
      Collected store store' (codec.feedPending data maxMessages).2.1 := by
  rw [feedPending_quota, feedPendingOwned]
  split
  · exact ⟨store, rfl, .start store⟩
  · exact @feedLoop_drain store store [] maxMessages 0 (size (codec.push data) + 1) (codec.push data)
      (.start store) (Nat.lt_succ_self _)

/-- The call with its objects does what `feed` does with bytes. What it returns are the events of
`feed` with a fresh chunk in the place of the bytes of each. -/
theorem feedOwned_run (codec : Http1ServerCodec) (data : Bytes) (maxMessages : Nat) (store : ChunkStore) :
    ∃ store', codec.feedOwned data maxMessages store =
      ((codec.feed data maxMessages).1, store',
        (codec.feed data maxMessages).2.map (numbered store.chunks.length)) ∧
      (∀ events, (codec.feed data maxMessages).2 = .ok events → Collected store store' events) ∧
      ∀ raised, (codec.feed data maxMessages).2 = .error (.http1 raised) → ReleasedAll store store' := by
  obtain ⟨store', run, collected⟩ := feedPendingOwned_run codec data maxMessages store
  unfold feedOwned feed
  rw [run]
  rcases pending : codec.feedPending data maxMessages with ⟨next, events, _ | error⟩
  · rw [pending] at collected
    refine ⟨store', rfl, ?_, nofun⟩
    rintro _ ⟨⟩
    exact collected
  · rw [pending] at collected
    cases error with
    | http1 raised =>
      obtain ⟨after, released, length, releases, marked, -⟩ := releaseEvents_run collected.holds
      dsimp only
      rw [released]
      refine ⟨after, rfl, nofun, fun _ _ => ⟨(bodies events).length, ?_, ?_, marked⟩⟩
      · rw [length, collected.chunks]
      · rw [releases, collected.releases]
    | _ => exact ⟨store', rfl, nofun, nofun⟩

theorem disciplined_feedOwned_iff (codec : Http1ServerCodec) (data : Bytes) (maxMessages : Nat)
    (store : ChunkStore) :
    Disciplined store (codec.feedOwned data maxMessages store) ↔
      ∀ error, (codec.feed data maxMessages).2 = .error error → ∃ raised, error = .http1 raised := by
  obtain ⟨store', run, collected, released⟩ := feedOwned_run codec data maxMessages store
  rw [run]
  rcases result : codec.feed data maxMessages with ⟨next, error | events⟩
  · rw [result] at released
    constructor
    · rintro ⟨isHttp1, -⟩ _ ⟨⟩
      exact isHttp1
    · intro http1
      obtain ⟨raised, rfl⟩ := http1 error rfl
      exact (released raised rfl).disciplined next raised
  · rw [result] at collected
    exact ⟨fun _ _ => nofun, fun _ => (collected events rfl).disciplined next⟩

/-- The call gets to such a length within its quota. -/
def Overlong (codec : Http1ServerCodec) (data : Bytes) (maxMessages : Nat) : Prop :=
  codec.closed = false ∧ ∃ last, decoder.Reaches maxMessages (codec.push data) 0 last ∧ last.MeetsOverlong

theorem feed_error_http1_iff (codec : Http1ServerCodec) (data : Bytes) (maxMessages : Nat) :
    (∀ error, (codec.feed data maxMessages).2 = .error error → ∃ raised, error = .http1 raised) ↔
    ¬ codec.Overlong data maxMessages := by
  have pending := feedPending_quota codec data maxMessages
  cases closed : codec.closed with
  | true =>
    rw [closed, if_pos rfl] at pending
    constructor
    · rintro - ⟨opened, -⟩
      rw [closed] at opened
      cases opened
    · intro _ error raised
      simp only [feed, pending, Except.error.injEq] at raised
      exact ⟨_, raised.symm⟩
  | false =>
    rw [closed, if_neg (by decide)] at pending
    constructor
    · rintro http1 ⟨-, last, reaches, meets⟩
      obtain ⟨stopped, fails⟩ := meets.fails
      obtain ⟨events, failed⟩ :=
        @Decoder.Reaches.error _ _ _ _ decoder _ _ _ _ _ _ [] _ reaches fails (Nat.lt_succ_self _)
      rw [show decoder.feed maxMessages codec data = _ from failed] at pending
      obtain ⟨raised, other⟩ := http1 (.value "Exceeds the limit for integer string conversion")
        (by simp only [feed, pending])
      cases other
    · intro within error raised
      rcases run : decoder.feed maxMessages codec data with ⟨next, events, _ | other⟩
      · simp only [feed, pending, run] at raised
        cases raised
      · simp only [feed, pending, run, Except.error.injEq] at raised
        subst raised
        obtain ⟨last, reaches, fails⟩ := Decoder.Reaches.of_error run
        exact (turn_error fails).resolve_right fun meets => within ⟨closed, last, reaches, meets⟩

/-- A call of `feed` with a quota that is not negative is disciplined unless it gets to a
`Content-Length` that `int` refuses. The codec is in any state, the data are any bytes and the store
holds any views. The condition is on what is in front of the codec and not on what it does with
it. -/
theorem error_discipline_iff (codec : Http1ServerCodec) (data : Bytes) (maxMessages : Nat)
    (store : ChunkStore) :
    Disciplined store (codec.feedOwned data maxMessages store) ↔ ¬ codec.Overlong data maxMessages := by
  rw [disciplined_feedOwned_iff, feed_error_http1_iff]

/-- A head with a `Content-Length` of 4301 digits. -/
def overlongHead : Bytes :=
  crlf.intercalate [ascii "POST / HTTP/1.1", fieldLine (ascii "Host") (ascii "a"),
    fieldLine (ascii "Content-Length") (List.replicate 4301 49)]

def chunkedHead : Bytes :=
  crlf.intercalate [ascii "POST / HTTP/1.1", ascii "Host: a", ascii "Transfer-Encoding: chunked"]

theorem ones_clean (count : Nat) : containsBadValueByte (List.replicate count 49) = false ∧
    stripOws (latin1Text (List.replicate count 49)) = List.replicate count '1' := by
  have text : latin1Text (List.replicate count 49) = List.replicate count '1' := by
    rw [latin1Text, List.map_replicate]
    rfl
  refine ⟨?_, ?_⟩
  · simp only [containsBadValueByte, List.any_eq_false]
    intro b member
    rw [List.eq_of_mem_replicate member]
    decide
  · rw [text]
    refine stripOws_trimmed ⟨fun c first => ?_, fun c last => ?_⟩
    · rw [List.eq_of_mem_replicate (List.mem_of_mem_head? first)]
      rfl
    · rw [List.eq_of_mem_replicate (List.mem_of_getLast? last)]
      rfl

theorem overlongHead_clean :
    CleanLines [ascii "POST / HTTP/1.1", fieldLine (ascii "Host") (ascii "a"),
      fieldLine (ascii "Content-Length") (List.replicate 4301 49)] := by
  have host := @fieldLine_clean (ascii "Host") (ascii "a") (by decide) (by decide)
  have length :=
    @fieldLine_clean (ascii "Content-Length") (List.replicate 4301 49) (by decide) (ones_clean 4301).1
  exact .cons (by decide) (by decide) (.cons host.1 host.2 (.cons length.1 length.2 ⟨nofun, nofun⟩))

theorem overlongHead_fields :
    parseHeaders [fieldLine (ascii "Host") (ascii "a"),
      fieldLine (ascii "Content-Length") (List.replicate 4301 49)] 100 =
      .ok [("host".toList, "a".toList), ("content-length".toList, List.replicate 4301 '1')] := by
  have host : lower (latin1Text (ascii "Host")) = "host".toList := by decide
  have value : stripOws (latin1Text (ascii "a")) = "a".toList := by decide
  have length : lower (latin1Text (ascii "Content-Length")) = "content-length".toList := by decide
  rw [parseHeaders, parseHeaderLines_fieldLine (by decide) (by decide) (by decide),
    parseHeaderLines_fieldLine (by decide) (ones_clean 4301).1 (by decide), parseHeaderLines,
    (ones_clean 4301).2, host, value, length]
  rfl

theorem overlongHead_length : OverlongLength {} overlongHead := by
  have lines := splitCrlf_lines (List.cons_ne_nil _ _) overlongHead_clean.noReturn
  have values : fieldValues [("host".toList, "a".toList), ("content-length".toList,
      List.replicate 4301 '1')] "content-length" = [List.replicate 4301 '1'] := rfl
  have host : checkHost .http11 [("host".toList, "a".toList),
      ("content-length".toList, List.replicate 4301 '1')] = .ok () := rfl
  refine ⟨ascii "POST", ascii "/", .http11, _, _, ?_, ?_, host, values, ?_, ?_⟩
  · rw [overlongHead, lines]
    decide
  · rw [overlongHead, lines]
    exact overlongHead_fields
  · rw [List.length_replicate]
    decide
  · intro c member
    rw [List.eq_of_mem_replicate member]
    decide

/-- What is left of a chunked request behind its head. -/
def chunkedBody : Bytes := ascii "1" ++ crlf ++ (ascii "x" ++ crlf ++ (ascii "0" ++ crlf ++ crlf))

theorem chunkedHead_parsed : parseRequestHead {} chunkedHead = .ok {
    method := "POST".toList, target := "/".toList, version := .http11
    headers := [("host".toList, "a".toList), ("transfer-encoding".toList, "chunked".toList)]
    keepAlive := true, expectContinue := false, contentLength := -1, chunked := true } := by decide +kernel

theorem chunkedHead_turn (rest : Bytes) :
    ∃ events, ({ limits := {}, buffer := chunkedHead ++ doubleCrlf ++ rest } : Http1ServerCodec).turn =
    .emit { limits := {}, buffer := rest, state := .chunkSize } events false := by
  have clean : CleanLines [ascii "POST / HTTP/1.1", ascii "Host: a", ascii "Transfer-Encoding: chunked"] :=
    ⟨by decide, by decide⟩
  have bound : ((chunkedHead.length + 4 : Nat) : Int) ≤ 32768 := by decide
  exact ⟨_, turn_eq_emit_iff.mpr (.headWithBody rfl rfl (delimited_lines clean) bound
    (parseHead_eq_ok_iff.mpr ⟨chunkedHead_parsed, rfl⟩))⟩

/-- The size line, the chunk, the last chunk and the blank line behind it. -/
theorem chunkedBody_reaches {rest : Bytes} {last : Http1ServerCodec}
    (later : decoder.Reaches 0 ({ limits := {}, buffer := rest } : Http1ServerCodec) 1 last) :
    decoder.Reaches 0
      ({ limits := {}, buffer := chunkedBody ++ rest, state := .chunkSize } : Http1ServerCodec) 0 last := by
  have plain {line : Bytes} (absent : 13 ∉ line) : Delimited crlf line := delimited_of_not_mem absent
  have onward {completed : Nat} {complete : Bool} :
      ¬ (complete = true ∧ 0 < 0 ∧ 0 ≤ completed + complete.toNat) := by simp
  have size := @Step.chunkSize { limits := {}, buffer := chunkedBody ++ rest, state := .chunkSize }
    (ascii "1")
    (ascii "x" ++ crlf ++ (ascii "0" ++ crlf ++ (crlf ++ rest))) 1 rfl (by simp [chunkedBody])
      (plain (by decide)) (by decide)
    (by decide) (by decide) (by simp) (by simp)
  have chunk := @Step.chunkData
    { limits := {}, buffer := ascii "x" ++ crlf ++ (ascii "0" ++ crlf ++ (crlf ++ rest)), state :=
      .chunkData, remaining := 1 }
    (ascii "x") (ascii "0" ++ crlf ++ (crlf ++ rest)) rfl rfl rfl
  have lastSize := @Step.lastChunk
    { limits := {}, buffer := ascii "0" ++ crlf ++ (crlf ++ rest), state := .chunkSize, bodyReceived := 1 }
    (ascii "0") (crlf ++ rest) rfl rfl (plain (by decide)) (by decide) (by decide) (by simp) (by simp)
  have blank := @Step.noTrailers
    { limits := {}, buffer := crlf ++ rest, state := .trailers, bodyReceived := 1 } rest rfl rfl
  refine .next (turn_eq_emit_iff.mpr size) onward ?_
  refine .next (turn_eq_emit_iff.mpr chunk) onward ?_
  refine .next (turn_eq_emit_iff.mpr lastSize) onward ?_
  exact .next (turn_eq_emit_iff.mpr blank) onward later

/-- Behind the chunk of one request the length of the next one is refused by `int`. -/
theorem chunk_kept_after_overlong : ¬ Disciplined {} (feedOwned { limits := {} }
    (chunkedHead ++ doubleCrlf ++ (chunkedBody ++ (overlongHead ++ doubleCrlf))) 0 {}) := by
  rw [disciplined_feedOwned_iff, feed_error_http1_iff, not_not]
  obtain ⟨events, head⟩ := chunkedHead_turn (chunkedBody ++ (overlongHead ++ doubleCrlf))
  have bound : ((overlongHead.length + 4 : Nat) : Int) ≤ 32768 := by
    simp only [overlongHead, List.intercalate_cons_cons, List.intercalate_singleton, fieldLine,
      List.length_append, List.length_replicate]
    decide
  refine ⟨rfl, _, .next head (by simp) (chunkedBody_reaches .here), rfl, overlongHead, [], ?_,
    delimited_lines overlongHead_clean, bound, overlongHead_length⟩
  rw [List.append_nil]

end Http1ServerCodec

end PccGateway
