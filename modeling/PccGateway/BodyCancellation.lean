import PccGateway.BodyHandover

namespace PccGateway
namespace Handover

/-- What the reader has in its hands: the chunk it took last, with its bytes. Everything before it was
returned. -/
def InHand (s : Handover) : Prop :=
  match s.reader with
  | .waking chunk | .converting chunk =>
    ∃ data, chunk.Holds s.body.heap data ∧ s.taken = s.returned ++ [data]
  | .releasing view data => s.body.heap.Shows view data ∧ s.taken = s.returned ++ [data]
  | .idle | .waiting | .woken => s.taken = s.returned

/-- The views that the controller has still to look at. -/
def Controller.views (controller : Controller) : List Nat := controller.chunks.filterMap BodyChunk.viewed

/-- No view has two owners, and none is lost: one that is not released is queued, or the reader has
it, or the controller will release it. -/
structure Intact (s : Handover) : Prop where
  live : ∀ id ∈ s.retained, ∃ view, s.body.heap.views[id]? = some view ∧
    (view.released = false → id ∈ s.body.pending ∨ s.reader.held = some id ∨ id ∈ s.controller.views)
  apart : ∀ id, s.reader.held = some id → id ∉ s.controller.views
  inHand : s.InHand
  failures : s.failures = []

/-- The snapshot of a `cancel` has no view that the reader has taken. -/
def Unheld (s : Handover) : Action → Prop
  | .cancel => s.controller = .idle → ∀ id ∈ s.reader.held, .view id ∉ s.body.chunks
  | _ => True

instance (s : Handover) : (action : Action) → Decidable (s.Unheld action)
  | .cancel =>
    inferInstanceAs (Decidable (s.controller = .idle → ∀ id ∈ s.reader.held, .view id ∉ s.body.chunks))
  | .outside _ | .feed _ | .finish | .waitWritable | .readChunk | .close | .producer | .reader |
      .controller => .isTrue trivial

section Intact
variable {s : Handover} {datas : List Bytes}

/-- Views that the reader does not have may be released, if the controller has no use for them any more. -/
theorem InHand.keeps (inHand : s.InHand) {gone : Nat → Prop} {next : Handover}
    (keeps : s.body.heap.Keeps gone next.body.heap) (kept : ∀ id, s.reader.held = some id → ¬ gone id)
    (same : (next.reader, next.taken, next.returned) = (s.reader, s.taken, s.returned)) : next.InHand := by
  simp only [Prod.mk.injEq] at same
  obtain ⟨reader, taken, returned⟩ := same
  unfold InHand at inHand ⊢
  rw [reader, taken, returned]
  cases at_ : s.reader with
  | idle | waiting | woken =>
    simp only [at_] at inHand ⊢
    exact inHand
  | waking chunk | converting chunk =>
    simp only [at_] at inHand ⊢
    obtain ⟨data, holds, order⟩ := inHand
    exact ⟨data, holds.keeps keeps fun id is => kept id (by rw [at_]; exact is), order⟩
  | releasing view data =>
    simp only [at_] at inHand ⊢
    exact ⟨inHand.1.keeps keeps (kept view (by rw [at_]; rfl)), inHand.2⟩

/-- The owners of the views have changed, not the views. -/
theorem Intact.moves (intact : s.Intact) {next : Handover} (heap : next.body.heap = s.body.heap)
    (retained : next.retained = s.retained) (failures : next.failures = s.failures)
    (owned : ∀ id ∈ s.retained, id ∈ s.body.pending ∨ s.reader.held = some id ∨ id ∈ s.controller.views →
      id ∈ next.body.pending ∨ next.reader.held = some id ∨ id ∈ next.controller.views)
    (apart : ∀ id, next.reader.held = some id → id ∉ next.controller.views) (inHand : next.InHand) :
      next.Intact := by
  refine ⟨?_, apart, inHand, failures.trans intact.failures⟩
  rw [heap, retained]
  intro id member
  obtain ⟨view, found, live⟩ := intact.live id member
  exact ⟨view, found, fun unreleased => owned id member (live unreleased)⟩

/-- A step of the producer, or of another party that has no view. -/
theorem Intact.same (intact : s.Intact) {next : Handover} (heap : next.body.heap = s.body.heap)
    (pending : next.body.pending = s.body.pending) (controller : next.controller = s.controller)
    (same : (next.retained, next.failures, next.reader, next.taken, next.returned) =
      (s.retained, s.failures, s.reader, s.taken, s.returned)) : next.Intact := by
  simp only [Prod.mk.injEq] at same
  obtain ⟨retained, failures, reader, taken, returned⟩ := same
  refine intact.moves heap retained failures ?_ ?_ ?_
  · rw [pending, controller, reader]
    exact fun _ _ => id
  · rw [controller, reader]
    exact intact.apart
  · exact intact.inHand.keeps (heap ▸ @Heap.Keeps.refl (fun _ => False) _) (fun _ _ => not_false)
      (by rw [reader, taken, returned])

theorem Intact.feedSection (intact : s.Intact) (kept : s.Kept datas) (data : BodyChunk) :
    (s.feedSection data).Intact := by
  rcases RetainedBody.feedLocked_cases kept.represents data with ⟨error, here, -⟩ | ⟨-, here, -⟩ |
    ⟨-, -, -, next, own, here, -, -, pushed, unread, held, keeps, fresh⟩
  · simp only [Handover.feedSection, here]
    exact intact
  · simp only [Handover.feedSection, here]
    exact intact
  · simp only [Handover.feedSection, here]
    obtain ⟨-, -, added⟩ := RetainedBody.push_added pushed
    have pending : next.pending = s.body.pending ++ [own].filterMap BodyChunk.viewed := by
      rw [RetainedBody.pending, unread, List.filterMap_append]
      rfl
    rw [added]
    refine ⟨fun id member => ?_, intact.apart, intact.inHand.keeps (keeps _) (fun _ _ =>
      not_false) rfl, intact.failures⟩
    rcases List.mem_append.mp member with old | new
    · obtain ⟨view, found, live⟩ := intact.live id old
      refine ⟨view, (keeps fun _ => False).views id view found not_false, fun unreleased => ?_⟩
      exact (live unreleased).imp_left fun is => by rw [pending]; exact List.mem_append_left _ is
    · obtain ⟨chunk, among, is⟩ := List.mem_filterMap.mp new
      have here : id < next.heap.views.length := (held.shows (List.mem_singleton.mp among ▸ is)).lt
      refine ⟨_, List.getElem?_eq_getElem here, fun _ => .inl ?_⟩
      rw [pending]
      exact List.mem_append_right _ new

theorem Intact.waitSection (intact : s.Intact) : s.waitSection.Intact := by
  unfold Handover.waitSection
  split <;> exact intact.same rfl rfl rfl rfl

theorem Intact.producerStep (intact : s.Intact) : s.producerStep.Intact := by
  unfold Handover.producerStep
  split
  · exact intact
  · exact intact.same rfl rfl rfl rfl
  · exact intact.same rfl rfl rfl rfl
  · exact intact.same rfl rfl rfl rfl
  · split
    · exact intact.same rfl rfl rfl rfl
    · exact intact
  · exact intact.waitSection

/-- The reader begins a pass with nothing in its hands. -/
theorem Intact.readSection (intact : s.Intact) (kept : s.Kept datas)
    (free : s.reader = .idle ∨ s.reader = .woken) :
    s.readSection.Intact := by
  have none : s.reader.held = none := by rcases free with is | is <;> rw [is] <;> rfl
  have order : s.taken = s.returned := by
    have inHand := intact.inHand
    unfold InHand at inHand
    rcases free with is | is <;> simpa only [is] using inHand
  -- without a chunk the reader has still nothing
  have empty {next : Handover} (body : next.body = s.body)
    (reader : next.reader = .idle ∨ next.reader = .waiting)
      (same : (next.retained, next.failures, next.taken, next.returned, next.controller) =
        (s.retained, s.failures, s.taken, s.returned, s.controller)) : next.Intact := by
    simp only [Prod.mk.injEq] at same
    obtain ⟨retained, failures, taken, returned, controller⟩ := same
    have none' : next.reader.held = Option.none := by rcases reader with is | is <;> rw [is] <;> rfl
    refine intact.moves (by rw [body]) retained failures ?_ (by simp [none']) ?_
    · rw [body, none, none', controller]
      exact fun _ _ => id
    · unfold InHand
      rcases reader with is | is <;> simp only [is, taken, returned, order]
  rcases RetainedBody.readLocked_cases kept.represents with ⟨-, here, -⟩ |
    ⟨-, chunk, rest, data, left, front, here, -, held, -, -, behind⟩ | ⟨-, -, -, here, -⟩ |
      ⟨-, -, -, here, -⟩ | ⟨-, -, -, here, -⟩
  · simp only [Handover.readSection, here]
    exact empty rfl (.inl rfl) rfl
  · simp only [Handover.readSection, here]
    have before : s.body.pending = (chunk :: rest).filterMap BodyChunk.viewed := by
      rw [RetainedBody.pending, front]
    have after : (s.body.take chunk).pending = rest.filterMap BodyChunk.viewed := by
      rw [RetainedBody.pending, behind]
    have content : chunk.content s.body.heap = data := held.content kept.represents.sound
    generalize wake : (s.body.backpressured && !(s.body.take chunk).backpressured) = flag
    have hand : (if flag = true then Reader.waking chunk else .converting chunk).held = chunk.viewed := by
      cases flag <;> rfl
    refine intact.moves rfl rfl rfl ?_ ?_ ?_
    · rw [none, before]
      simp only [after, hand]
      rintro id - (queued | held | carried)
      · obtain ⟨other, among, is⟩ := List.mem_filterMap.mp queued
        rcases List.mem_cons.mp among with rfl | among
        · exact .inr (.inl is)
        · exact .inl (List.mem_filterMap.mpr ⟨other, among, is⟩)
      · cases held
      · exact .inr (.inr carried)
    · intro id is carried
      rw [hand] at is
      refine (kept.carried id carried).2 ?_
      rw [before, List.filterMap_cons_some is]
      exact List.mem_cons_self
    · unfold InHand
      cases flag
      · exact ⟨data, held, by simp only [content, order]⟩
      · exact ⟨data, held, by simp only [content, order]⟩
  · simp only [Handover.readSection, here]
    exact empty rfl (.inl rfl) rfl
  · simp only [Handover.readSection, here]
    exact empty rfl (.inl rfl) rfl
  · simp only [Handover.readSection, here]
    exact empty rfl (.inr rfl) rfl

theorem Intact.readerStep (intact : s.Intact) (kept : s.Kept datas) : s.readerStep.Intact := by
  have inHand := intact.inHand
  unfold InHand at inHand
  unfold Handover.readerStep
  split
  · exact intact
  · rename_i at_
    split
    · refine intact.moves rfl rfl rfl ?_ nofun (by simpa [InHand, at_] using inHand)
      rw [at_]
      exact fun _ _ => id
    · exact intact
  · rename_i at_
    exact intact.readSection kept (.inr at_)
  · rename_i chunk at_
    refine intact.moves rfl rfl rfl ?_ (fun id is => intact.apart id (by rw [at_]; exact is))
      (by simpa [InHand, at_] using inHand)
    rw [at_]
    exact fun _ _ => id
  · rename_i data at_
    simp only [at_] at inHand
    obtain ⟨_, rfl, order⟩ := inHand
    refine intact.moves rfl rfl rfl ?_ nofun (by simpa [InHand] using order)
    rw [at_]
    exact fun _ _ => id
  · rename_i id at_
    simp only [at_] at inHand
    obtain ⟨data, shows, order⟩ := inHand
    rw [Heap.Shows.toBytes kept.represents.sound shows]
    refine intact.moves rfl rfl rfl ?_ (fun other is => intact.apart other (by rw [at_]; exact is))
      ⟨shows, order⟩
    rw [at_]
    exact fun _ _ is => is
  · rename_i id data at_
    simp only [at_] at inHand
    obtain ⟨shows, order⟩ := inHand
    obtain ⟨next, count, released, -, keeps, -, view, found, isOver⟩ := shows.release kept.represents.sound
    rw [released]
    refine ⟨fun other member => ?_, nofun, order, intact.failures⟩
    by_cases same : other = id
    · exact ⟨view, same ▸ found, fun unreleased => by simp [isOver] at unreleased⟩
    · obtain ⟨old, here, live⟩ := intact.live other member
      refine ⟨old, keeps.views other old here same, fun unreleased => ?_⟩
      rcases live unreleased with queued | held | carried
      · exact .inl queued
      · rw [at_] at held
        exact absurd (Option.some.inj held).symm same
      · exact .inr (.inr carried)

/-- `cancel` and `close` take over what is queued. -/
theorem Intact.emptied (intact : s.Intact) {next : RetainedBody} {chunks : List BodyChunk}
    (heap : next.heap = s.body.heap)
    (idle : s.controller = .idle) (all : ∀ chunk ∈ s.body.unread, chunk ∈ chunks)
    (apart : ∀ id, s.reader.held = some id → BodyChunk.view id ∉ chunks) :
    Intact { s with body := next, controller := .signalling chunks } := by
  refine intact.moves heap rfl rfl ?_ ?_ ?_
  · rw [idle]
    rintro id - (queued | held | carried)
    · obtain ⟨chunk, among, is⟩ := List.mem_filterMap.mp queued
      exact .inr (.inr (List.mem_filterMap.mpr ⟨chunk, all chunk among, is⟩))
    · exact .inr (.inl held)
    · simp [Controller.views, Controller.chunks] at carried
  · intro id held carried
    obtain ⟨chunk, among, is⟩ := List.mem_filterMap.mp carried
    cases chunk with
    | bytes data => cases is
    | view other =>
      cases is
      exact apart id held among
  · exact intact.inHand.keeps (heap ▸ @Heap.Keeps.refl (fun _ => False) _) (fun _ _ => not_false) rfl

theorem Intact.closeSection (intact : s.Intact) (kept : s.Kept datas) (idle : s.controller = .idle) :
    s.closeSection.Intact := by
  unfold Handover.closeSection RetainedBody.closeLocked
  split
  · exact intact
  · rename_i found
    split at found
    · cases found
    · cases found
      refine intact.emptied rfl idle (fun _ => id) fun id held among => (kept.held id held).2 ?_
      exact List.mem_filterMap.mpr ⟨_, among, rfl⟩

theorem Intact.controllerStep (intact : s.Intact) (kept : s.Kept datas) : s.controllerStep.Intact := by
  have same {next : Handover} (body : next.body = s.body)
    (views : next.controller.views = s.controller.views)
      (others : (next.retained, next.failures, next.reader, next.taken, next.returned) =
        (s.retained, s.failures, s.reader, s.taken, s.returned)) : next.Intact := by
    simp only [Prod.mk.injEq] at others
    obtain ⟨retained, failures, reader, taken, returned⟩ := others
    refine intact.moves (by rw [body]) retained failures ?_ ?_ ?_
    · rw [body, views, reader]
      exact fun _ _ => id
    · rw [views, reader]
      exact intact.apart
    · exact intact.inHand.keeps (body ▸ @Heap.Keeps.refl (fun _ => False) _) (fun _ _ => not_false)
        (by rw [reader, taken, returned])
  unfold Handover.controllerStep
  split
  · exact intact
  · rename_i at_
    exact same rfl (by rw [at_]; rfl) rfl
  · rename_i at_
    exact same rfl (by rw [at_]; rfl) rfl
  · rename_i at_
    exact same rfl (by rw [at_]; rfl) rfl
  · rename_i chunk chunks at_
    have first {id : Nat} (is : chunk.viewed = some id) : id ∈ s.controller.views := by
      rw [at_]
      exact List.mem_filterMap.mpr ⟨chunk, List.mem_cons_self, is⟩
    obtain ⟨heap, run, -, keeps, -, isOver⟩ :=
      @BodyChunk.drop_spec s.holding.direct s.body.heap chunk kept.represents.sound
      fun id is => kept.known id (kept.carried id (first is)).1
    rw [run]
    refine ⟨fun id member => ?_, fun id held carried => ?_, ?_, intact.failures⟩
    · by_cases is : chunk.viewed = some id
      · obtain ⟨view, found, released⟩ := isOver id is
        exact ⟨view, found, fun unreleased => by simp [released] at unreleased⟩
      · obtain ⟨view, found, live⟩ := intact.live id member
        refine ⟨view, keeps.views id view found is, fun unreleased =>
          (live unreleased).imp_right (Or.imp_right ?_)⟩
        rw [at_]
        intro carried
        obtain ⟨other, among, viewed⟩ := List.mem_filterMap.mp carried
        rcases List.mem_cons.mp among with rfl | among
        · exact absurd viewed is
        · exact List.mem_filterMap.mpr ⟨other, among, viewed⟩
    · refine intact.apart id held ?_
      obtain ⟨other, among, viewed⟩ := List.mem_filterMap.mp carried
      rw [at_]
      exact List.mem_filterMap.mpr ⟨other, List.mem_cons_of_mem _ among, viewed⟩
    · exact intact.inHand.keeps keeps (fun id held is => intact.apart id held (first is)) rfl

theorem Intact.interfere (intact : s.Intact) (kept : s.Kept datas) {op : Holding.Op}
    (private_ : ∀ id ∈ s.retained, ¬ op.gone id) :
    (s.interfere op).Intact := by
  have step := Holding.Sound.perform (show s.holding.Sound from kept.represents.sound) op
  refine ⟨fun id member => ?_, intact.apart, ?_, intact.failures⟩
  · obtain ⟨view, found, live⟩ := intact.live id member
    exact ⟨view, step.keeps.views id view found (private_ id member), live⟩
  · exact intact.inHand.keeps step.keeps (fun id is => private_ id (kept.held id is).1) rfl

theorem Intact.step (intact : s.Intact) (kept : s.Kept datas) {action : Action} (unheld : s.Unheld action) :
    (s.step action).Intact := by
  cases action with
  | outside op =>
    cases op with
    | releaseView view =>
      unfold Handover.step
      simp only
      split
      · exact intact
      · rename_i other
        exact intact.interfere kept fun id member gone => other ((show id = view from gone) ▸ member)
    | _ => exact intact.interfere kept fun _ _ => not_false
  | feed data =>
    unfold Handover.step
    simp only
    split
    · exact intact.feedSection kept data
    · exact intact
  | finish =>
    unfold Handover.step
    simp only
    split
    · exact intact.same rfl rfl rfl rfl
    · exact intact
  | waitWritable =>
    unfold Handover.step
    simp only
    split
    · exact intact.waitSection
    · exact intact
  | readChunk =>
    unfold Handover.step
    simp only
    split
    · rename_i idle
      exact intact.readSection kept (.inl idle)
    · exact intact
  | cancel =>
    unfold Handover.step
    simp only
    split
    · rename_i idle
      exact intact.emptied rfl idle (fun _ => List.mem_of_mem_drop) (unheld idle)
    · exact intact
  | close =>
    unfold Handover.step
    simp only
    split
    · rename_i idle
      exact intact.closeSection kept idle
    · exact intact
  | producer => exact intact.producerStep
  | reader => exact intact.readerStep kept
  | controller => exact intact.controllerStep kept

theorem InHand.shows (inHand : s.InHand) {id : Nat} (held : s.reader.held = some id) :
    ∃ data, s.body.heap.Shows id data := by
  unfold InHand at inHand
  cases at_ : s.reader with
  | idle | waiting | woken =>
    rw [at_] at held
    cases held
  | waking chunk | converting chunk =>
    rw [at_] at held
    simp only [at_] at inHand
    obtain ⟨data, holds, -⟩ := inHand
    exact ⟨data, holds.shows held⟩
  | releasing view data =>
    rw [at_] at held
    cases held
    simp only [at_] at inHand
    exact ⟨data, inHand.1⟩

/-- A view in use is not released, and every other one is released exactly once. -/
theorem Intact.releases (intact : s.Intact) (kept : s.Kept datas) {id : Nat} (member : id ∈ s.retained) :
    (id ∈ s.body.pending ∨ s.reader.held = some id → s.body.heap.releases.count id = 0) ∧
      s.body.heap.releases.count id ≤ 1 ∧
      (id ∉ s.body.pending → s.reader.held ≠ some id → id ∉ s.controller.views →
        s.body.heap.releases.count id = 1) := by
  obtain ⟨view, found, live⟩ := intact.live id member
  have count : s.body.heap.releases.count id = view.released.toNat := by
    rw [kept.represents.sound.logged id, found]
    rfl
  refine ⟨fun used => ?_, ?_, fun queued held carried => ?_⟩
  · have shown : ∃ data, s.body.heap.Shows id data :=
      used.elim (fun queued => BodyChunk.holds_shows kept.represents.holds queued) fun held =>
        intact.inHand.shows held
    obtain ⟨_, other, here, unreleased, -⟩ := shown
    rw [found] at here
    cases here
    rw [count, unreleased]
    rfl
  · rw [count]
    exact Bool.toNat_le _
  · cases isOver : view.released with
    | true =>
      rw [count, isOver]
      rfl
    | false => exact absurd (live isOver) (by simp [queued, held, carried])

end Intact

/-- However feeding, reading, cancelling and closing are interleaved: when no `cancel` takes its
snapshot while it has a view that the reader has taken and not released, every chunk that the reader
took is returned with its bytes, in the order in which the chunks were fed, no release raises and
none touches a view that the reader has, and every retained view is released exactly once, when
nobody has it any more. The steps are the atomic ones of the locked sections, in any order. The
condition is on the state in front of each `cancel`, and nothing else is assumed: not that the
producer stops, nor that the reader goes on. -/
theorem handover_survives (maxBytes lowWatermark highWatermark : Int) (streaming : Bool)
    (body : RetainedBody)
    (start : RetainedBody.init {} maxBytes lowWatermark highWatermark streaming = .ok body)
    (actions : List Action) (unheld : Interleaving.Along step Unheld actions { body := body }) :
    let s := actions.foldl step { body := body }
    s.taken <+: s.fed ∧ s.InHand ∧ s.failures = [] ∧
      (∀ id, s.reader.held = some id → id ∉ s.controller.views) ∧
      ∀ id ∈ s.retained, (id ∈ s.body.pending ∨ s.reader.held = some id →
        s.body.heap.releases.count id = 0) ∧ s.body.heap.releases.count id ≤ 1 ∧
        (id ∉ s.body.pending → s.reader.held ≠ some id → id ∉ s.controller.views →
          s.body.heap.releases.count id = 1) := by
  intro s
  obtain ⟨⟨datas, kept⟩, intact⟩ : (∃ datas, s.Kept datas) ∧ s.Intact :=
    @Interleaving.invariant_along Handover Action step { body := body } Unheld (fun s =>
      (∃ datas, s.Kept datas) ∧ s.Intact)
      (fun _ action unheld ⟨⟨_, kept⟩, intact⟩ => ⟨kept.step action, intact.step kept unheld⟩)
        actions unheld
      ⟨⟨[], Kept.fresh start⟩, by simp, nofun, rfl, rfl⟩
  exact ⟨kept.ordered.1, intact.inHand, intact.failures, intact.apart, fun id member =>
    intact.releases kept member⟩

/-- The reader is done with the first view before the stream is cancelled, and a second view is unread. -/
theorem handover_survives_cancelled :
    let actions : List Action := [
      .outside (.create 2), .outside (.write 0 [7, 8] 0 (-1)), .outside (.view 0 0 1),
      .feed (.view 0), .producer, .feed (.view 0), .producer, .readChunk, .reader, .reader, .cancel,
      .controller, .controller, .controller, .controller, .controller]
    ∃ body, RetainedBody.init {} 8 1 4 true = .ok body ∧
      let s := actions.foldl step { body := body }
      s.taken = [[7]] ∧ s.returned = [[7]] ∧ s.retained = [1, 2] ∧ s.failures = [] ∧
        ∀ id ∈ s.retained, id ∉ s.body.pending → s.reader.held ≠ some id → id ∉ s.controller.views →
          s.body.heap.releases.count id = 1 := by
  refine ⟨_, rfl, by decide, by decide, by decide, ?_⟩
  have survives := handover_survives 8 1 4 true _ rfl
    [.outside (.create 2), .outside (.write 0 [7, 8] 0 (-1)),
    .outside (.view 0 0 1), .feed (.view 0), .producer, .feed (.view 0), .producer, .readChunk,
    .reader, .reader, .cancel, .controller, .controller, .controller, .controller, .controller] ?_
  · exact ⟨survives.2.2.1, fun id member => (survives.2.2.2.2 id member).2.2⟩
  · decide

/-- The reader has taken a view, and the snapshot of `cancel` still has it: it is released under the
reader's hands. -/
theorem cancel_releases_taken :
    let actions : List Action := [
      .outside (.create 2), .outside (.write 0 [7, 8] 0 (-1)), .outside (.view 0 0 1),
      .feed (.view 0), .producer, .readChunk, .cancel, .controller, .controller, .controller, .reader]
    ∃ body, RetainedBody.init {} 8 1 4 true = .ok body ∧
      let s := actions.foldl step { body := body }
      s.reader = .idle ∧ s.taken = [[7]] ∧ s.returned = [] ∧
        s.failures = [.bufferReleased "cannot read a released view"] := by
  refine ⟨_, rfl, ?_, ?_, ?_, ?_⟩ <;> decide

end Handover
end PccGateway
