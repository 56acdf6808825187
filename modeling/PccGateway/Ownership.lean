import PccGateway.Segment

namespace PccGateway
namespace Heap

/-- The bytes of a view that is not released. -/
def shown (view : BufferView) (heap : Heap) : Bytes :=
  match heap.segments[view.owner]? with
  | none => []
  | some segment => segment.range view.start view.length

/-- The number of views that hold a segment. -/
def viewers (id : Nat) (heap : Heap) : Nat :=
  heap.views.countP fun view => decide (view.owner = id ∧ view.released = false)

/-- Every segment counts its holders: `direct id` of them hold it without a view. -/
structure Sound (direct : Nat → Nat) (heap : Heap) : Prop where
  shaped : ∀ (id : Nat) (segment : BufferSegment), heap.segments[id]? = some segment → segment.Shaped
  counted : ∀ (id : Nat) (segment : BufferSegment), heap.segments[id]? = some segment →
    segment.references = ((direct id + heap.viewers id : Nat) : Int)
  absent : ∀ id : Nat, heap.segments.length ≤ id → direct id = 0
  owned : ∀ view ∈ heap.views, ∃ segment : BufferSegment, heap.segments[view.owner]? = some segment ∧
    (view.released = false → view.start + view.length ≤ segment.stop)
  logged : ∀ id : Nat, heap.releases.count id = (heap.views[id]?.any BufferView.released).toNat

/-- Views that are not `gone` are as they were and show what they showed; dropped storage stays dropped. -/
structure Keeps (gone : Nat → Prop) (heap next : Heap) : Prop where
  views : ∀ (id : Nat) (view : BufferView), heap.views[id]? = some view → ¬ gone id →
    next.views[id]? = some view
  shown : ∀ (id : Nat) (view : BufferView), heap.views[id]? = some view → ¬ gone id →
    view.released = false → next.shown view = heap.shown view
  dropped : ∀ (id : Nat) (segment : BufferSegment), heap.segments[id]? = some segment →
    segment.released = true →
    ∃ segment' : BufferSegment, next.segments[id]? = some segment' ∧ segment'.released = true

section Rules
variable {direct direct' : Nat → Nat} {gone : Nat → Prop} {heap next : Heap} {id : Nat}
  {segment : BufferSegment}

theorem Keeps.refl (heap : Heap) : heap.Keeps gone heap :=
  ⟨fun _ _ found _ => found, fun _ _ _ _ _ => rfl, fun _ segment found released =>
    ⟨segment, found, released⟩⟩

theorem Keeps.trans {last : Heap} (first : heap.Keeps gone next) (second : next.Keeps gone last) :
    heap.Keeps gone last where
  views := fun id view found kept => second.views id view (first.views id view found kept) kept
  shown := fun id view found kept live =>
    (second.shown id view (first.views id view found kept) kept live).trans
      (first.shown id view found kept live)
  dropped := fun id segment found released => by
    obtain ⟨_, found, released⟩ := first.dropped id segment found released
    exact second.dropped id _ found released

theorem Keeps.mono {more : Nat → Prop} (keeps : heap.Keeps gone next) (le : ∀ id, gone id → more id) :
    heap.Keeps more next where
  views := fun id view found kept => keeps.views id view found fun is => kept (le id is)
  shown := fun id view found kept => keeps.shown id view found fun is => kept (le id is)
  dropped := keeps.dropped

theorem shown_of_segment {view : BufferView} (found : heap.segments[view.owner]? = some segment) :
    heap.shown view = segment.range view.start view.length := by
  simp only [shown, found]

theorem viewers_pos {view : BufferView} (member : view ∈ heap.views) (live : view.released = false) :
    0 < heap.viewers view.owner :=
  List.countP_pos_iff.mpr ⟨view, member, by simp [live]⟩

/-- The owner of a live view has its storage. -/
theorem Sound.owner_live (sound : heap.Sound direct) {view : BufferView} (member : view ∈ heap.views)
    (live : view.released = false) : ∃ segment : BufferSegment,
      heap.segments[view.owner]? = some segment ∧ segment.released = false ∧
      view.start + view.length ≤ segment.stop := by
  obtain ⟨segment, found, inside⟩ := sound.owned view member
  refine ⟨segment, found, ?_, inside live⟩
  have viewed := viewers_pos member live
  have counted := sound.counted _ _ found
  cases released : segment.released with
  | false => rfl
  | true =>
    have none := ((sound.shaped _ _ found).dropped released).1
    omega

/-- One segment is replaced. -/
theorem Sound.put (sound : heap.Sound direct) (found : heap.segments[id]? = some segment)
    {replaced : BufferSegment} (shaped : replaced.Shaped)
    (counted : replaced.references = ((direct' id + heap.viewers id : Nat) : Int))
    (others : ∀ other, other ≠ id → direct' other = direct other)
    (covers : ∀ view ∈ heap.views, view.owner = id → view.released = false →
      view.start + view.length ≤ replaced.stop ∧
      replaced.range view.start view.length = segment.range view.start view.length)
    (stays : segment.released = true → replaced.released = true) :
    Sound direct' { heap with segments := heap.segments.set id replaced } ∧
      heap.Keeps gone { heap with segments := heap.segments.set id replaced } := by
  have inRange := (List.getElem?_eq_some_iff.mp found).1
  have at_ (other : Nat) : (heap.segments.set id replaced)[other]? =
      if id = other then some replaced else heap.segments[other]? := by
    simp [List.getElem?_set, inRange]
  refine ⟨⟨?_, ?_, ?_, ?_, sound.logged⟩, fun _ _ is _ => is, ?_, ?_⟩
  · intro other next at_next
    simp only [at_] at at_next
    split at at_next
    · cases at_next
      exact shaped
    · exact sound.shaped other next at_next
  · intro other next at_next
    simp only [at_] at at_next
    split at at_next
    · rename_i same
      subst same
      cases at_next
      exact counted
    · rename_i differ
      rw [others other (Ne.symm differ)]
      exact sound.counted other next at_next
  · intro other beyond
    simp only [List.length_set] at beyond
    rw [others other (by omega)]
    exact sound.absent other beyond
  · intro view member
    obtain ⟨owner, is, inside⟩ := sound.owned view member
    by_cases same : id = view.owner
    · exact ⟨replaced, by rw [at_, if_pos same], fun live => (covers view member same.symm live).1⟩
    · exact ⟨owner, by rw [at_, if_neg same, is], inside⟩
  · intro place view is _ live
    have member := List.mem_of_getElem? is
    by_cases same : id = view.owner
    · rw [shown_of_segment ((at_ _).trans (if_pos same)), (covers view member same.symm live).2,
        shown_of_segment (same ▸ found)]
    · simp only [Heap.shown]
      rw [at_, if_neg same]
  · intro other owner is released
    by_cases same : id = other
    · subst same
      rw [found] at is
      cases is
      exact ⟨replaced, (at_ id).trans (if_pos rfl), stays released⟩
    · exact ⟨owner, ((at_ other).trans (if_neg same)).trans is, released⟩

end Rules

section Operations
variable {direct direct' : Nat → Nat} {gone : Nat → Prop} {heap : Heap} {id : Nat} {segment : BufferSegment}

/-- A new segment is held by its creator. -/
theorem newSegment_sound (sound : heap.Sound direct) {capacity : Int}
    (made : BufferSegment.init capacity = .ok segment)
    (new : direct' heap.segments.length = 1)
    (others : ∀ other, other ≠ heap.segments.length → direct' other = direct other) :
    Sound direct' { heap with segments := heap.segments ++ [segment] } ∧
      heap.Keeps gone { heap with segments := heap.segments ++ [segment] } := by
  obtain ⟨shaped, references, -⟩ := BufferSegment.init_shaped made
  have old {other : Nat} {found : BufferSegment} (is : heap.segments[other]? = some found) :
      (heap.segments ++ [segment])[other]? = some found := by
    rw [List.getElem?_append_left (List.getElem?_eq_some_iff.mp is).1, is]
  have unviewed : heap.viewers heap.segments.length = 0 := by
    refine List.countP_eq_zero.mpr fun view member => ?_
    obtain ⟨owner, is, -⟩ := sound.owned view member
    have := (List.getElem?_eq_some_iff.mp is).1
    simp
    omega
  have split {other : Nat} {found : BufferSegment}
    (is : (heap.segments ++ [segment])[other]? = some found) :
      heap.segments[other]? = some found ∨ other = heap.segments.length ∧ found = segment := by
    rw [List.getElem?_append] at is
    split at is
    · exact .inl is
    · rename_i beyond
      have index := (List.getElem?_eq_some_iff.mp is).1
      simp only [List.length_singleton] at index
      have last : other = heap.segments.length := by omega
      subst last
      exact .inr ⟨rfl, by simpa using is.symm⟩
  refine ⟨⟨?_, ?_, ?_, ?_, sound.logged⟩, fun _ _ is _ => is, ?_, fun other found is released =>
    ⟨found, old is, released⟩⟩
  · intro other found is
    rcases split is with is | ⟨rfl, rfl⟩
    · exact sound.shaped other found is
    · exact shaped
  · intro other found is
    rcases split is with is | ⟨rfl, rfl⟩
    · rw [others other (Nat.ne_of_lt (List.getElem?_eq_some_iff.mp is).1)]
      exact sound.counted other found is
    · rw [references, new]
      simp only [viewers] at unviewed ⊢
      rw [unviewed]
      rfl
  · intro other beyond
    rw [List.length_append, List.length_singleton] at beyond
    rw [others other (by omega)]
    exact sound.absent other (by omega)
  · intro view member
    obtain ⟨owner, is, inside⟩ := sound.owned view member
    exact ⟨owner, old is, inside⟩
  · intro place view is _ _
    obtain ⟨owner, found, -⟩ := sound.owned view (List.mem_of_getElem? is)
    rw [shown_of_segment (old found), shown_of_segment found]

/-- `write` and `consume` change neither a holder nor what a view shows. -/
theorem onSegment_grows {α : Type} {call : Method BufferSegment Exn α} (sound : heap.Sound direct)
    (grows : ∀ segment : BufferSegment, segment.Shaped → (call segment).1.Shaped ∧
      segment.Grows (call segment).1) :
    Sound direct (onSegment id call heap).1 ∧ heap.Keeps gone (onSegment id call heap).1 := by
  unfold onSegment
  split
  · exact ⟨sound, .refl heap⟩
  · rename_i segment found
    obtain ⟨shaped, grown⟩ := grows segment (sound.shaped id segment found)
    refine sound.put found shaped ?_ (fun _ _ => rfl) ?_ fun released => grown.released.trans released
    · rw [grown.references]
      exact sound.counted id segment found
    · intro view member owner live
      obtain ⟨other, is, inside⟩ := sound.owned view member
      rw [owner, found] at is
      cases is
      exact ⟨(inside live).trans grown.stop_le, grown.range _ _ (inside live)⟩

theorem onSegment_views {α : Type} (id : Nat) (call : Method BufferSegment Exn α) (heap : Heap) :
    (onSegment id call heap).1.views = heap.views := by
  unfold onSegment
  split <;> rfl

/-- `retain` succeeds on every segment that has its storage. -/
theorem retain_sound (sound : heap.Sound direct) (found : heap.segments[id]? = some segment)
    (live : segment.released = false) (more : direct' id = direct id + 1)
    (others : ∀ other, other ≠ id → direct' other = direct other) :
    ∃ next, onSegment id BufferSegment.retain heap = (next, .ok ()) ∧ next.Sound direct' ∧
    heap.Keeps gone next ∧
      next.views = heap.views ∧ next.segments[id]? =
        some { segment with references := segment.references + 1 } := by
  have counted := sound.counted id segment found
  obtain ⟨references, size, rest⟩ := (sound.shaped id segment found).held live
  have inRange := (List.getElem?_eq_some_iff.mp found).1
  refine ⟨{ heap with segments := heap.segments.set id { segment with
    references := segment.references + 1 } }, ?_, ?_⟩
  · simp [onSegment, found, BufferSegment.retain, live]
  · have put := @Sound.put direct direct' gone heap id segment sound found
      { segment with references := segment.references + 1 }
      ⟨fun isOver => absurd (live.symm.trans isOver) (by simp), fun _ => ⟨by simp only; omega, size, rest⟩⟩
      (by simp only; omega) others
      (fun view member owner living => by
        obtain ⟨other, is, inside⟩ := sound.owned view member
        rw [owner, found] at is
        cases is
        exact ⟨inside living, rfl⟩)
      fun isOver => isOver
    exact ⟨put.1, put.2, rfl, by simp [inRange]⟩

/-- A holder's release drops the storage exactly when it was the last one. -/
theorem release_sound (sound : heap.Sound direct) (found : heap.segments[id]? = some segment)
    (holds : 0 < direct id)
    (less : direct' id + 1 = direct id) (others : ∀ other, other ≠ id → direct' other = direct other) :
    ∃ next, onSegment id BufferSegment.release heap =
        (next, .ok (if direct' id + heap.viewers id = 0 then 1 else 0)) ∧ next.Sound direct' ∧
        heap.Keeps gone next ∧
      next.views = heap.views := by
  have counted := sound.counted id segment found
  have shaped := sound.shaped id segment found
  have live : segment.released = false := by
    cases released : segment.released with
    | false => rfl
    | true =>
      have none := (shaped.dropped released).1
      omega
  obtain ⟨references, size, rest⟩ := shaped.held live
  rcases BufferSegment.release_cases shaped live with ⟨many, run⟩ | ⟨one, run⟩
  · have left : direct' id + heap.viewers id ≠ 0 := by omega
    refine ⟨{ heap with segments := heap.segments.set id { segment with
      references := segment.references - 1 } }, ?_, ?_⟩
    · simp only [onSegment, found, run, left, if_false]
    · have put := @Sound.put direct direct' gone heap id segment sound found
        { segment with references := segment.references - 1 }
        ⟨fun isOver => absurd (live.symm.trans isOver) (by simp), fun _ => ⟨by simp only; omega,
          size, rest⟩⟩
        (by simp only; omega) others
        (fun view member owner living => by
          obtain ⟨other, is, inside⟩ := sound.owned view member
          rw [owner, found] at is
          cases is
          exact ⟨inside living, rfl⟩)
        fun isOver => isOver
      exact ⟨put.1, put.2, rfl⟩
  · have left : direct' id + heap.viewers id = 0 := by omega
    have unviewed : heap.viewers id = 0 := by omega
    refine ⟨{ heap with
      segments := heap.segments.set id
        { segment with references := 0, released := true, data := [], start := 0, stop := 0 } }, ?_, ?_⟩
    · simp only [onSegment, found, run, left, if_true]
    · have put := @Sound.put direct direct' gone heap id segment sound found
        { segment with references := 0, released := true, data := [], start := 0, stop := 0 }
        ⟨fun _ => ⟨rfl, rfl, rfl, rfl⟩, nofun⟩ (by simp only [left]; rfl) others
        (fun view member owner living => by
          have viewed := viewers_pos member living
          rw [owner] at viewed
          omega)
        fun _ => rfl
      exact ⟨put.1, put.2, rfl⟩

/-- A direct hold becomes the hold of a new view. -/
theorem Sound.addView (sound : heap.Sound direct') {view : BufferView} (live : view.released = false)
    (found : heap.segments[view.owner]? = some segment) (inside : view.start + view.length ≤ segment.stop)
    (one : direct' view.owner = direct view.owner + 1)
    (others : ∀ other, other ≠ view.owner → direct' other = direct other) :
    Sound direct { heap with views := heap.views ++ [view] } ∧
    heap.Keeps gone { heap with views := heap.views ++ [view] } := by
  refine ⟨⟨sound.shaped, ?_, ?_, ?_, ?_⟩, ?_, fun _ _ _ _ _ => rfl, fun _ other is released =>
    ⟨other, is, released⟩⟩
  · intro other owner is
    have counted := sound.counted other owner is
    simp only [viewers, List.countP_append, List.countP_singleton] at counted ⊢
    by_cases same : view.owner = other
    · subst same
      simp only [live, and_self, decide_true, if_true]
      omega
    · simp only [same, false_and, decide_false, Bool.false_eq_true, if_false]
      rw [← others other (Ne.symm same)]
      exact counted
  · intro other beyond
    have none := sound.absent other beyond
    have index := (List.getElem?_eq_some_iff.mp found).1
    rw [← others other (by simp only at beyond; omega)]
    exact none
  · intro other member
    rcases List.mem_append.mp member with old | new
    · exact sound.owned other old
    · rw [List.mem_singleton] at new
      subst new
      exact ⟨segment, found, fun _ => inside⟩
  · intro place
    rw [sound.logged place]
    rcases Nat.lt_trichotomy place heap.views.length with old | new | beyond
    · rw [List.getElem?_append_left old]
    · rw [new, List.getElem?_eq_none (Nat.le_refl _), List.getElem?_concat_length]
      simp [live]
    · rw [List.getElem?_eq_none (by omega), List.getElem?_eq_none (by simp; omega)]
  · intro place other is _
    exact (List.getElem?_append_left (List.getElem?_eq_some_iff.mp is).1).trans is

/-- The hold of a view that is marked as released becomes a direct hold. -/
theorem Sound.dropView (sound : heap.Sound direct) {view : BufferView} (found : heap.views[id]? = some view)
    (live : view.released = false) (one : direct' view.owner = direct view.owner + 1)
    (others : ∀ other, other ≠ view.owner → direct' other = direct other) :
    Sound direct' { heap with
        views := heap.views.set id { view with released := true, length := 0 },
          releases := heap.releases ++ [id] } ∧
      heap.Keeps (· = id) { heap with
        views := heap.views.set id { view with released := true, length := 0 },
          releases := heap.releases ++ [id] } := by
  obtain ⟨inRange, is⟩ := List.getElem?_eq_some_iff.mp found
  have member : view ∈ heap.views := List.mem_of_getElem? found
  refine ⟨⟨sound.shaped, ?_, ?_, ?_, ?_⟩, ?_, fun _ _ _ _ _ => rfl, fun _ other at_ released =>
    ⟨other, at_, released⟩⟩
  · intro other owner at_
    have counted := sound.counted other owner at_
    simp only [viewers, List.countP_set inRange, is, live] at counted ⊢
    by_cases same : view.owner = other
    · subst same
      have viewed := viewers_pos member live
      simp only [viewers] at viewed
      simp only [and_true, decide_true, if_true, and_false, decide_false, Bool.false_eq_true,
        if_false, reduceCtorEq]
      omega
    · simp only [same, false_and, decide_false, Bool.false_eq_true, if_false]
      rw [others other (Ne.symm same)]
      omega
  · intro other beyond
    obtain ⟨owner, at_, -⟩ := sound.owned view member
    have index := (List.getElem?_eq_some_iff.mp at_).1
    rw [others other (by simp only at beyond; omega)]
    exact sound.absent other beyond
  · intro other among
    rcases List.mem_or_eq_of_mem_set among with old | rfl
    · exact sound.owned other old
    · obtain ⟨owner, at_, -⟩ := sound.owned view member
      exact ⟨owner, at_, nofun⟩
  · intro place
    have before := sound.logged place
    simp only [List.count_append, List.count_singleton, List.getElem?_set]
    by_cases same : id = place
    · subst same
      simp [before, is, live, inRange]
    · simp [same, before]
  · intro place other at_ differ
    exact (List.getElem?_set_ne (Ne.symm differ)).trans at_

/-- A view within the storage can be made, and it holds its owner. -/
theorem newView_valid (sound : heap.Sound direct) {owner : Nat} {start length : Int}
    (found : heap.segments[owner]? = some segment) (live : segment.released = false)
    (nonneg : 0 ≤ start ∧ 0 ≤ length) (inside : start + length ≤ segment.stop) :
    ∃ next, newView owner start length heap = (next, .ok heap.views.length) ∧
      next.Sound direct ∧ heap.Keeps gone next ∧
      next.views = heap.views ++ [{ owner := owner, start := start.toNat, length := length.toNat }] ∧
      next.shown { owner := owner, start := start.toNat, length := length.toNat } =
        segment.range start.toNat length.toNat := by
  obtain ⟨held, run, heldSound, keeps, views, is⟩ := @retain_sound direct
    (fun other => if other = owner then direct owner + 1 else direct other) gone heap owner segment
      sound found live
    (if_pos rfl) fun other differ => if_neg differ
  have added := @Sound.addView direct _ gone held _ heldSound
    { owner := owner, start := start.toNat, length := length.toNat } rfl is (by simp only; omega)
      (if_pos rfl)
    fun other differ => if_neg differ
  have shows := @shown_of_segment { held with
    views := held.views ++ [{ owner := owner, start := start.toNat, length := length.toNat }] } _
    { owner := owner, start := start.toNat, length := length.toNat } is
  refine ⟨_, ?_, added.1, keeps.trans added.2, by simp only [views], shows⟩
  unfold newView
  simp only [found, live, Bool.false_eq_true, if_false]
  rw [if_neg (by omega), run]
  simp only [views]

/-- A view is made, or nothing changes. -/
theorem newView_cases (sound : heap.Sound direct) (owner : Nat) (start length : Int) :
    (∃ error, newView owner start length heap = (heap, .error error)) ∨
      ∃ next view, newView owner start length heap = (next, .ok heap.views.length) ∧ next.Sound direct ∧
        heap.Keeps gone next ∧ next.views = heap.views ++ [view] := by
  cases found : heap.segments[owner]? with
  | none => exact .inl ⟨_, by unfold newView; rw [found]⟩
  | some segment =>
    by_cases isOver : segment.released = true
    · exact .inl ⟨_, by unfold newView; simp only [found]; exact if_pos isOver⟩
    · by_cases invalid : start < 0 ∨ length < 0 ∨ (segment.stop : Int) < start + length
      · exact .inl ⟨_, by unfold newView; simp only [found]; exact (if_neg isOver).trans (if_pos invalid)⟩
      · obtain ⟨next, made, nextSound, keeps, views, -⟩ :=
          @newView_valid direct gone heap segment sound owner start length
          found (by simpa using isOver) (by omega) (by omega)
        exact .inr ⟨next, _, made, nextSound, keeps, views⟩

/-- A live view is released, and its owner with it when it was the last holder. -/
theorem releaseView_sound (sound : heap.Sound direct) {view : BufferView}
    (found : heap.views[id]? = some view) (live : view.released = false) : ∃ next,
      releaseView id heap = (next, .ok (if direct view.owner + heap.viewers view.owner = 1 then 1 else 0)) ∧
      next.Sound direct ∧ heap.Keeps (· = id) next ∧
      next.views = heap.views.set id { view with released := true, length := 0 } := by
  obtain ⟨inRange, is⟩ := List.getElem?_eq_some_iff.mp found
  obtain ⟨owner, at_, -⟩ := sound.owned view (List.mem_of_getElem? found)
  have viewed := viewers_pos (List.mem_of_getElem? found) live
  obtain ⟨dropped, keeps⟩ := @Sound.dropView direct
    (fun other => if other = view.owner then direct view.owner + 1 else direct other) heap id sound
      view found live
    (if_pos rfl) fun other differ => if_neg differ
  obtain ⟨next, run, nextSound, nextKeeps, views⟩ :=
    @release_sound _ direct (· = id) _ view.owner owner dropped at_
    (by simp) (by simp) (by intro other differ; simp [differ])
  refine ⟨next, ?_, nextSound, keeps.trans nextKeeps, views⟩
  unfold releaseView
  rw [found]
  simp only [live, Bool.false_eq_true, if_false]
  rw [run]
  have count : viewers view.owner { heap with
      views := heap.views.set id { view with released := true, length := 0 },
        releases := heap.releases ++ [id] } + 1 = heap.viewers view.owner := by
    simp only [viewers] at viewed ⊢
    simp only [List.countP_set inRange, is, live, and_true, and_false, decide_true, decide_false, if_true,
      Bool.false_eq_true, if_false, reduceCtorEq]
    omega
  have last : direct view.owner + viewers view.owner { heap with
      views := heap.views.set id { view with released := true, length := 0 },
        releases := heap.releases ++ [id] } = 0 ↔
      direct view.owner + heap.viewers view.owner = 1 := by omega
  simp only [last]

/-- `view` raises, or it makes a view. -/
theorem view_cases (id : Nat) (offset length : Int) (heap : Heap) :
    (∃ error, view id offset length heap = (heap, .error error)) ∨
      ∃ start count, view id offset length heap = newView id start count heap := by
  unfold view
  split
  · exact .inl ⟨_, rfl⟩
  · simp only
    generalize (if length < 0 then _ else length) = wanted
    repeat' split
    · exact .inl ⟨_, rfl⟩
    · exact .inl ⟨_, rfl⟩
    · exact .inl ⟨_, rfl⟩
    · exact .inr ⟨_, _, rfl⟩

/-- `slice` raises, or it makes a view of the same owner. -/
theorem slice_cases (id : Nat) (offset length : Int) (heap : Heap) :
    (∃ error, slice id offset length heap = (heap, .error error)) ∨
      ∃ owner start count, slice id offset length heap = newView owner start count heap := by
  unfold slice
  split
  · exact .inl ⟨_, rfl⟩
  · simp only
    generalize (if length < 0 then _ else length) = wanted
    repeat' split
    · exact .inl ⟨_, rfl⟩
    · exact .inl ⟨_, rfl⟩
    · exact .inl ⟨_, rfl⟩
    · exact .inr ⟨_, _, _, rfl⟩

theorem Sound.toBytes (sound : heap.Sound direct) {view : BufferView} (found : heap.views[id]? = some view)
    (live : view.released = false) : heap.toBytes id = .ok (heap.shown view) := by
  obtain ⟨segment, is, -⟩ := sound.owned view (List.mem_of_getElem? found)
  simp [Heap.toBytes, found, live, is, shown_of_segment is]

end Operations
end Heap

/-- A run with segments and views: the heap, and the creators and retainers with the segment that each
holds and whether it has released it. -/
structure Holding where
  heap : Heap := {}
  holders : List (Nat × Bool) := []

namespace Holding

inductive Op where
  | create (capacity : Int)
  | write (segment : Nat) (source : Bytes) (offset length : Int)
  | consume (segment : Nat) (length : Int)
  | view (segment : Nat) (offset length : Int)
  | slice (view : Nat) (offset length : Int)
  | retain (segment : Nat)
  | release (holder : Nat)
  | releaseView (view : Nat)

/-- A segment that was created or retained gets a holder. -/
def held (segment : Nat) {α : Type} (result : Heap × Except Exn α) (run : Holding) : Holding :=
  match result with
  | (heap, .ok _) => { heap := heap, holders := run.holders ++ [(segment, false)] }
  | (heap, .error _) => { run with heap := heap }

/-- One operation, whether it raises or not. A holder releases once. -/
def perform (run : Holding) : Op → Holding
  | .create capacity => run.held run.heap.segments.length (Heap.newSegment capacity run.heap)
  | .write segment source offset length =>
    { run with heap := (Heap.onSegment segment (BufferSegment.write source offset length) run.heap).1 }
  | .consume segment length =>
    { run with heap := (Heap.onSegment segment (BufferSegment.consume length) run.heap).1 }
  | .view segment offset length => { run with heap := (Heap.view segment offset length run.heap).1 }
  | .slice view offset length => { run with heap := (Heap.slice view offset length run.heap).1 }
  | .retain segment => run.held segment (Heap.onSegment segment BufferSegment.retain run.heap)
  | .release holder =>
    match run.holders[holder]? with
    | some (segment, false) => {
        heap := (Heap.onSegment segment BufferSegment.release run.heap).1
        holders := run.holders.set holder (segment, true) }
    | _ => run
  | .releaseView view => { run with heap := (Heap.releaseView view run.heap).1 }

/-- The creator and the retainers of a segment that have not released it. -/
def direct (run : Holding) (segment : Nat) : Nat := run.holders.countP (· = (segment, false))

/-- All holders of a segment that have not released it. -/
def holding (run : Holding) (segment : Nat) : Nat := run.direct segment + run.heap.viewers segment

/-- The view that an operation releases. -/
def Op.gone : Op → Nat → Prop
  | .releaseView released, id => id = released
  | _, _ => False

def Sound (run : Holding) : Prop := run.heap.Sound run.direct

/-- What every operation keeps. -/
structure Advances (gone : Nat → Prop) (run next : Holding) : Prop where
  sound : next.Sound
  keeps : run.heap.Keeps gone next.heap
  grows : run.heap.views.length ≤ next.heap.views.length
  isOver : ∀ (id : Nat) (view : BufferView), gone id → next.heap.views[id]? = some view →
    view.released = true

section Perform
variable {run : Holding} {gone : Nat → Prop} {segment : Nat}

theorem direct_add (holders : List (Nat × Bool)) (segment other : Nat) :
    (holders ++ [(segment, false)]).countP (· = (other, false)) =
      holders.countP (· = (other, false)) + if other = segment then 1 else 0 := by
  rw [List.countP_append, List.countP_singleton]
  simp [eq_comm]

theorem direct_release {holders : List (Nat × Bool)} {holder : Nat}
    (found : holders[holder]? = some (segment, false))
    (other : Nat) : (holders.set holder (segment, true)).countP (· = (other, false)) +
      (if other = segment then 1 else 0) = holders.countP (· = (other, false)) := by
  obtain ⟨inRange, is⟩ := List.getElem?_eq_some_iff.mp found
  rw [List.countP_set inRange, is]
  by_cases same : other = segment
  · subst same
    have positive : 0 < holders.countP (· = (other, false)) :=
      List.countP_pos_iff.mpr ⟨_, List.mem_of_getElem? found, by simp⟩
    simp
    omega
  · simp [same, Ne.symm same]

theorem Sound.still (sound : run.Sound) : run.Advances (fun _ => False) run :=
  ⟨sound, .refl _, Nat.le_refl _, nofun⟩

theorem create_advances (sound : run.Sound) (capacity : Int) :
    run.Advances (fun _ => False) (run.perform (.create capacity)) := by
  simp only [perform, held, Heap.newSegment]
  cases made : BufferSegment.init capacity with
  | error error => exact sound.still
  | ok segment =>
    have fresh : run.direct run.heap.segments.length = 0 := sound.absent _ (Nat.le_refl _)
    obtain ⟨heapSound, keeps⟩ := @Heap.newSegment_sound run.direct
      ({ run with holders := run.holders ++ [(run.heap.segments.length, false)] } : Holding).direct
        (fun _ => False)
      run.heap segment sound capacity made
      (by simp only [direct] at fresh ⊢; rw [direct_add, fresh, if_pos rfl])
      (fun other differ => by simp only [direct]; rw [direct_add, if_neg differ, Nat.add_zero])
    exact ⟨heapSound, keeps, Nat.le_refl _, nofun⟩

theorem grow_advances {α : Type} {call : Method BufferSegment Exn α} (sound : run.Sound) (id : Nat)
    (grows : ∀ segment : BufferSegment, segment.Shaped → (call segment).1.Shaped ∧
      segment.Grows (call segment).1) :
    run.Advances (fun _ => False) { run with heap := (Heap.onSegment id call run.heap).1 } := by
  obtain ⟨heapSound, keeps⟩ :=
    @Heap.onSegment_grows run.direct (fun _ => False) run.heap id α call sound grows
  exact ⟨heapSound, keeps, by rw [Heap.onSegment_views], nofun⟩

theorem newView_advances (sound : run.Sound) (owner : Nat) (start length : Int) :
    run.Advances (fun _ => False) { run with heap := (Heap.newView owner start length run.heap).1 } := by
  rcases @Heap.newView_cases run.direct (fun _ => False) run.heap sound owner start length with
    ⟨error, raised⟩ | ⟨next, view, made, heapSound, keeps, views⟩
  · rw [raised]
    exact sound.still
  · rw [made]
    exact ⟨heapSound, keeps, by simp only [views, List.length_append]; omega, nofun⟩

theorem retain_advances (sound : run.Sound) (segment : Nat) :
    run.Advances (fun _ => False) (run.perform (.retain segment)) := by
  simp only [perform]
  cases found : run.heap.segments[segment]? with
  | none =>
    simp only [Heap.onSegment, found, held]
    exact sound.still
  | some owner =>
    cases live : owner.released with
    | true =>
      have same : run.heap.segments.set segment owner = run.heap.segments := by
        obtain ⟨inRange, rfl⟩ := List.getElem?_eq_some_iff.mp found
        exact List.set_getElem_self inRange
      simp only [Heap.onSegment, found, BufferSegment.retain, live, if_true, held, same]
      exact sound.still
    | false =>
      obtain ⟨next, ran, heapSound, keeps, views, -⟩ := @Heap.retain_sound run.direct
        ({ run with holders := run.holders ++ [(segment, false)] } : Holding).direct (fun _ => False)
          run.heap segment
        owner sound found live (by simp only [direct]; rw [direct_add, if_pos rfl])
        (fun other differ => by simp only [direct]; rw [direct_add, if_neg differ, Nat.add_zero])
      rw [ran]
      exact ⟨heapSound, keeps, by simp only [held, views]; exact Nat.le_refl _, nofun⟩

theorem release_advances (sound : run.Sound) (holder : Nat) :
    run.Advances (fun _ => False) (run.perform (.release holder)) := by
  simp only [perform]
  split
  · rename_i segment listed
    have less := direct_release listed
    have holds : 0 < run.direct segment := by
      have := less segment
      rw [if_pos rfl] at this
      simp only [direct]
      omega
    obtain ⟨owner, found⟩ : ∃ owner, run.heap.segments[segment]? = some owner := by
      have inRange : segment < run.heap.segments.length := Nat.lt_of_not_le fun beyond => by
        have := sound.absent segment beyond
        omega
      exact ⟨_, List.getElem?_eq_getElem inRange⟩
    obtain ⟨next, ran, heapSound, keeps, views⟩ := @Heap.release_sound run.direct
      ({ run with holders := run.holders.set holder (segment, true) } : Holding).direct (fun _ =>
        False) run.heap segment
      owner sound found holds
      (by have := less segment; rw [if_pos rfl] at this; exact this)
      (fun other differ => by have := less other; rw [if_neg differ] at this; exact this)
    rw [ran]
    exact ⟨heapSound, keeps, by simp only [views]; exact Nat.le_refl _, nofun⟩
  · exact sound.still

theorem releaseView_advances (sound : run.Sound) (id : Nat) :
    run.Advances (· = id) { run with heap := (Heap.releaseView id run.heap).1 } := by
  cases found : run.heap.views[id]? with
  | none =>
    simp only [Heap.releaseView, found]
    exact ⟨sound, .refl _, Nat.le_refl _, fun _ _ is at_ => by rw [is, found] at at_; cases at_⟩
  | some view =>
    cases live : view.released with
    | true =>
      simp only [Heap.releaseView, found, live, if_true]
      exact ⟨sound, .refl _, Nat.le_refl _,
        fun _ _ is at_ => by rw [is, found] at at_; cases at_; exact live⟩
    | false =>
      obtain ⟨next, ran, heapSound, keeps, views⟩ := Heap.releaseView_sound sound found live
      rw [ran]
      refine ⟨heapSound, keeps, by simp only [views, List.length_set]; exact Nat.le_refl _, ?_⟩
      rintro _ other rfl is
      have inRange := (List.getElem?_eq_some_iff.mp found).1
      have same : { view with released := true, length := 0 } = other := by simpa [views, inRange] using is
      rw [← same]

theorem Sound.perform (sound : run.Sound) (op : Op) : run.Advances op.gone (run.perform op) := by
  cases op with
  | create capacity => exact create_advances sound capacity
  | write segment source offset length =>
    exact grow_advances sound segment fun _ => BufferSegment.write_grows
  | consume segment length => exact grow_advances sound segment fun _ => BufferSegment.consume_grows
  | view segment offset length =>
    simp only [Holding.perform]
    rcases Heap.view_cases segment offset length run.heap with ⟨error, raised⟩ | ⟨start, count, made⟩
    · rw [raised]
      exact sound.still
    · rw [made]
      exact newView_advances sound _ _ _
  | slice view offset length =>
    simp only [Holding.perform]
    rcases Heap.slice_cases view offset length run.heap with ⟨error, raised⟩ | ⟨owner, start, count, made⟩
    · rw [raised]
      exact sound.still
    · rw [made]
      exact newView_advances sound _ _ _
  | retain segment => exact retain_advances sound segment
  | release holder => exact release_advances sound holder
  | releaseView view => exact releaseView_advances sound view

theorem Sound.counts (sound : run.Sound) {owner : BufferSegment}
    (found : run.heap.segments[segment]? = some owner) :
    owner.references = run.holding segment ∧ (owner.released = true ↔ run.holding segment = 0) ∧
      (owner.data = [] ↔ run.holding segment = 0) := by
  have counted : owner.references = (run.holding segment : Int) := sound.counted segment owner found
  have shaped := sound.shaped segment owner found
  cases isOver : owner.released with
  | true =>
    obtain ⟨none, empty, -⟩ := shaped.dropped isOver
    have zero : run.holding segment = 0 := by omega
    simp [counted, zero, empty]
  | false =>
    obtain ⟨some_, size, positive, -⟩ := shaped.held isOver
    have filled : owner.data ≠ [] := fun empty => by simp [empty] at size; omega
    have nonzero : run.holding segment ≠ 0 := by omega
    simp [counted, nonzero, filled]

theorem empty_sound : Sound {} := ⟨by simp, by simp, fun _ _ => rfl, by simp, by simp⟩

/-- Dropped storage stays dropped. -/
theorem Sound.dropped (sound : run.Sound) {owner : BufferSegment}
    (found : run.heap.segments[segment]? = some owner)
    (isOver : owner.released = true) (ops : List Op) :
    ∃ owner', (ops.foldl Holding.perform run).heap.segments[segment]? = some owner' ∧
    owner'.released = true := by
  induction ops generalizing run owner with
  | nil => exact ⟨owner, found, isOver⟩
  | cons op ops ih =>
    have step := sound.perform op
    obtain ⟨owner', found', isOver'⟩ := step.keeps.dropped segment owner found isOver
    exact ih step.sound found' isOver'

end Perform

/-- What every view's `to_bytes` returned right after the view was made. -/
def created : List Op → Holding → List (Except Exn Bytes)
  | [], _ => []
  | op :: ops, run =>
    let next := run.perform op
    (List.range' run.heap.views.length (next.heap.views.length - run.heap.views.length)).map
      next.heap.toBytes ++ created ops next

/-- Views that were made earlier show what they showed then. -/
theorem created_shown {run : Holding} (sound : run.Sound) {past : List (Except Exn Bytes)}
    (length : past.length = run.heap.views.length)
    (shown : ∀ (id : Nat) (view : BufferView), run.heap.views[id]? = some view → view.released = false →
      past[id]? = some (.ok (run.heap.shown view))) (ops : List Op) :
    (ops.foldl perform run).Sound ∧ ∀ (id : Nat) (view : BufferView),
      (ops.foldl perform run).heap.views[id]? = some view → view.released = false →
        (past ++ created ops run)[id]? = some (.ok ((ops.foldl perform run).heap.shown view)) := by
  induction ops generalizing run past with
  | nil => exact ⟨sound, by simpa [created] using shown⟩
  | cons op ops ih =>
    have step := sound.perform op
    have grows := step.grows
    rw [created, ← List.append_assoc]
    refine ih step.sound ?_ ?_
    · simp only [List.length_append, List.length_map, List.length_range', length]
      omega
    · intro id view found live
      rcases Nat.lt_or_ge id run.heap.views.length with old | new
      · have is := List.getElem?_eq_getElem old
        have kept : ¬ op.gone id := fun gone => by simp [step.isOver id view gone found] at live
        have same := (step.keeps.views id _ is kept).symm.trans found
        cases same
        rw [List.getElem?_append_left (length ▸ old), step.keeps.shown id _ is kept live]
        exact shown id _ is live
      · have index := (List.getElem?_eq_some_iff.mp found).1
        rw [List.getElem?_append_right (length ▸ new), List.getElem?_map,
          List.getElem?_range' (by omega), length]
        have place : run.heap.views.length + 1 * (id - run.heap.views.length) = id := by omega
        rw [Option.map_some, place, Heap.Sound.toBytes step.sound found live]

/-- In every run in which each holder releases at most once, a segment counts the holders that have
not released it, it has dropped its storage exactly when there is none left, every live view shows
what it showed when it was made, and nothing retains, writes or views a segment after its storage
was dropped. Nothing else is assumed: segments are made, written, viewed, retained and released in
any order and by any number of holders, and operations that raise are among them. -/
theorem reference_counting (ops : List Op) : let run := ops.foldl perform {}
    (∀ (id : Nat) (segment : BufferSegment), run.heap.segments[id]? = some segment →
      segment.references = run.holding id ∧ (segment.released = true ↔ run.holding id = 0) ∧
        (segment.data = [] ↔ run.holding id = 0)) ∧
    (∀ (id : Nat) (view : BufferView), run.heap.views[id]? = some view → view.released = false →
      (created ops {})[id]? = some (run.heap.toBytes id) ∧ ∃ bytes, run.heap.toBytes id = .ok bytes) ∧
    (∀ (id : Nat) (segment : BufferSegment), run.heap.segments[id]? = some segment →
      segment.released = true → ∀ more : List Op, let later := more.foldl perform run
        (∃ error, (Heap.onSegment id BufferSegment.retain later.heap).2 = .error error) ∧
        (∀ source offset length,
          ∃ error, (Heap.onSegment id (BufferSegment.write source offset length) later.heap).2 =
            .error error) ∧
        ∀ offset length, ∃ error, (Heap.view id offset length later.heap).2 = .error error) := by
  intro run
  obtain ⟨sound, shown⟩ : run.Sound ∧ _ := @created_shown {} empty_sound [] rfl (by simp) ops
  refine ⟨fun id segment found => sound.counts found, fun id view found live => ?_,
    fun id segment found isOver more => ?_⟩
  · have shows : run.heap.toBytes id = .ok (run.heap.shown view) := Heap.Sound.toBytes sound found live
    exact ⟨shows ▸ shown id view found live, _, shows⟩
  · obtain ⟨owner, is, dropped⟩ := sound.dropped found isOver more
    refine ⟨?_, fun source offset length => ?_, fun offset length => ?_⟩
    · simp [Heap.onSegment, is, BufferSegment.retain, dropped]
    · simp [Heap.onSegment, is, BufferSegment.write, dropped]
    · simp [Heap.view, is, dropped]

end Holding
end PccGateway
