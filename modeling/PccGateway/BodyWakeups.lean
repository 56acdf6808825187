import PccGateway.BodyHandover

namespace PccGateway
namespace Handover

/-- A party is between a locked section that may have ended the reader's wait and its set of the data
event. -/
def dataPending (s : Handover) : Prop :=
  s.producer = .fed ∨ s.producer = .finishing ∨ ∃ chunks, s.controller = .signalling chunks

/-- A party other than the producer is between a locked section that may have ended the producer's
wait and its set of the space event. -/
def spacePending (s : Handover) : Prop :=
  (∃ chunk, s.reader = .waking chunk) ∨ (∃ chunks, s.controller = .signalling chunks) ∨
    ∃ chunks, s.controller = .waking chunks

/-- A party that waits has its event set, or it will be set, or there is nothing to wake up for. -/
structure Awake (s : Handover) : Prop where
  reader : s.reader = .waiting → s.dataReady = true ∨ s.dataPending ∨ s.body.unread = [] ∧
    s.body.isOver = false
  producer : s.producer = .waiting → s.spaceReady = true ∨ s.spacePending ∨
    s.body.backpressured = true ∧ s.body.isOver = false

variable {s : Handover} {datas : List Bytes}

/-- A step that changes nothing to wake up for. -/
theorem Awake.moves (awake : s.Awake) {next : Handover} (unread : next.body.unread = s.body.unread)
    (isOver : next.body.isOver = s.body.isOver) (flag : next.body.backpressured = s.body.backpressured)
    (reader : next.reader = .waiting → s.reader = .waiting ∧
      (s.dataReady = true ∨ s.dataPending → next.dataReady = true ∨ next.dataPending))
    (producer : next.producer = .waiting → s.producer = .waiting ∧ (s.spaceReady = true ∨ s.spacePending →
      next.spaceReady = true ∨ next.spacePending)) : next.Awake := by
  refine ⟨fun waits => ?_, fun waits => ?_⟩
  · obtain ⟨waited, ready⟩ := reader waits
    rw [unread, isOver]
    rcases awake.reader waited with set | pending | nothing
    · exact or_assoc.mp (.inl (ready (.inl set)))
    · exact or_assoc.mp (.inl (ready (.inr pending)))
    · exact .inr (.inr nothing)
  · obtain ⟨waited, ready⟩ := producer waits
    rw [flag, isOver]
    rcases awake.producer waited with set | pending | nothing
    · exact or_assoc.mp (.inl (ready (.inl set)))
    · exact or_assoc.mp (.inl (ready (.inr pending)))
    · exact .inr (.inr nothing)

theorem Awake.heap (awake : s.Awake) (heap : Heap) (holders : List (Nat × Bool)) :
    Awake { s.onHeap heap with holders := holders } :=
  awake.moves rfl rfl rfl (fun waits => ⟨waits, id⟩) fun waits => ⟨waits, id⟩

theorem Awake.feedSection (awake : s.Awake) (kept : s.Kept datas) (data : BodyChunk) :
    (s.feedSection data).Awake := by
  rcases RetainedBody.feedLocked_cases kept.represents data with ⟨error, here, -⟩ | ⟨-, here, -⟩ |
    ⟨-, -, -, next, own, here, -⟩
  · simp only [Handover.feedSection, here]
    exact awake
  · simp only [Handover.feedSection, here]
    exact awake
  · simp only [Handover.feedSection, here]
    exact ⟨fun _ => .inr (.inl (.inl rfl)), (by simp)⟩

theorem Awake.waitSection (awake : s.Awake) (asks : s.producer = .idle ∨ s.producer = .woken) :
    s.waitSection.Awake := by
  have reader {next : Producer} (pending : s.dataReady = true ∨ s.dataPending) :
      s.dataReady = true ∨ dataPending { s with producer := next } := by
    refine pending.imp_right ?_
    rintro (fed | finishing | signalling)
    · rcases asks with is | is <;> simp [is] at fed
    · rcases asks with is | is <;> simp [is] at finishing
    · exact .inr (.inr signalling)
  unfold Handover.waitSection
  split
  · exact awake.moves rfl rfl rfl (fun waits => ⟨waits, reader⟩) nofun
  · rename_i must
    refine ⟨fun waits => ?_, fun _ => .inr (.inr ?_)⟩
    · rcases awake.reader waits with set | pending | nothing
      · exact or_assoc.mp (.inl (reader (.inl set)))
      · exact or_assoc.mp (.inl (reader (.inr pending)))
      · exact .inr (.inr nothing)
    · simp only [not_or, Bool.not_eq_true, Bool.not_eq_false] at must
      exact ⟨must.2.2, must.2.1⟩

theorem Awake.producerStep (awake : s.Awake) : s.producerStep.Awake := by
  unfold Handover.producerStep
  split
  · exact awake
  · exact awake.moves rfl rfl rfl (fun waits => ⟨waits, fun _ => .inl rfl⟩) nofun
  · exact awake.moves rfl rfl rfl (fun waits => ⟨waits, fun _ => .inl rfl⟩) nofun
  · rename_i at_
    refine awake.moves rfl rfl rfl (fun waits => ⟨waits, Or.imp_right ?_⟩) nofun
    rintro (fed | finishing | signalling)
    · simp [at_] at fed
    · simp [at_] at finishing
    · exact .inr (.inr signalling)
  · rename_i at_
    split
    · refine awake.moves rfl rfl rfl (fun waits => ⟨waits, Or.imp_right ?_⟩) nofun
      rintro (fed | finishing | signalling)
      · simp [at_] at fed
      · simp [at_] at finishing
      · exact .inr (.inr signalling)
    · exact awake
  · rename_i at_
    exact awake.waitSection (.inr at_)

/-- The reader that begins a pass has nothing to set, so that another party does what is pending. -/
theorem spacePending_reader {reader : Reader} (free : ∀ chunk, s.reader ≠ .waking chunk)
    (pending : s.spacePending) :
    spacePending { s with reader := reader } := by
  rcases pending with ⟨chunk, waking⟩ | others
  · exact absurd waking (free chunk)
  · exact .inr others

theorem Awake.readSection (awake : s.Awake) (kept : s.Kept datas)
    (free : ∀ chunk, s.reader ≠ .waking chunk) :
    s.readSection.Awake := by
  have idle : Awake { s with reader := .idle } :=
    awake.moves rfl rfl rfl (by simp) fun waits => ⟨waits, Or.imp_right (spacePending_reader free)⟩
  rcases RetainedBody.readLocked_cases kept.represents with ⟨-, here, -⟩ |
    ⟨running, chunk, rest, data, left, front, here, -⟩ | ⟨-, -, -, here, -⟩ | ⟨-, -, -, here, -⟩ |
    ⟨opened, empty, -, here, -⟩
  · simp only [Handover.readSection, here]
    exact idle
  · simp only [Handover.readSection, here]
    cases wake : (s.body.backpressured && !(s.body.take chunk).backpressured) with
    | true => exact ⟨(by simp), fun _ => .inr (.inl (.inl ⟨chunk, rfl⟩))⟩
    | false =>
      refine ⟨(by simp), fun waits => ?_⟩
      rcases awake.producer waits with set | pending | ⟨full, opened⟩
      · exact .inl set
      · exact .inr (.inl (spacePending_reader free pending))
      · exact .inr (.inr ⟨by simpa [full] using wake, opened⟩)
  · simp only [Handover.readSection, here]
    exact idle
  · simp only [Handover.readSection, here]
    exact idle
  · simp only [Handover.readSection, here]
    refine ⟨fun _ => .inr (.inr ⟨empty, opened⟩), fun waits => ?_⟩
    exact (awake.producer waits).imp_right (Or.imp_left (spacePending_reader free))

theorem Awake.readerStep (awake : s.Awake) (kept : s.Kept datas) : s.readerStep.Awake := by
  unfold Handover.readerStep
  split
  · exact awake
  · rename_i at_
    split
    · exact awake.moves rfl rfl rfl nofun fun waits =>
        ⟨waits, Or.imp_right (spacePending_reader fun chunk is => by simp [at_] at is)⟩
    · exact awake
  · rename_i at_
    exact awake.readSection kept fun chunk is => by simp [at_] at is
  · exact awake.moves rfl rfl rfl nofun fun waits => ⟨waits, fun _ => .inl rfl⟩
  · rename_i at_
    exact awake.moves rfl rfl rfl nofun fun waits =>
      ⟨waits, Or.imp_right (spacePending_reader fun chunk is => by simp [at_] at is)⟩
  · rename_i at_
    split <;> exact awake.moves rfl rfl rfl nofun fun waits =>
      ⟨waits, Or.imp_right (spacePending_reader fun chunk is => by simp [at_] at is)⟩
  · rename_i at_
    split <;> exact awake.moves rfl rfl rfl nofun fun waits =>
      ⟨waits, Or.imp_right (spacePending_reader fun chunk is => by simp [at_] at is)⟩

theorem Awake.closeSection (awake : s.Awake) : s.closeSection.Awake := by
  unfold Handover.closeSection
  split
  · exact awake
  · exact ⟨fun _ => .inr (.inl (.inr (.inr ⟨_, rfl⟩))), fun _ => .inr (.inl (.inr (.inl ⟨_, rfl⟩)))⟩

theorem Awake.controllerStep (awake : s.Awake) : s.controllerStep.Awake := by
  -- what is pending when the controller only releases is pending without it
  have rest {chunks : List BodyChunk} (at_ : s.controller = .releasing chunks) {controller : Controller} :
      (s.dataPending → dataPending { s with controller := controller }) ∧
        (s.spacePending → spacePending { s with controller := controller }) := by
    constructor
    · rintro (fed | finishing | ⟨chunks, is⟩)
      · exact .inl fed
      · exact .inr (.inl finishing)
      · simp [at_] at is
    · rintro (waking | ⟨chunks, is⟩ | ⟨chunks, is⟩)
      · exact .inl waking
      · simp [at_] at is
      · simp [at_] at is
  unfold Handover.controllerStep
  split
  · exact awake
  · exact awake.moves rfl rfl rfl (fun waits => ⟨waits, fun _ => .inl rfl⟩) fun waits =>
      ⟨waits, fun _ => .inr (.inr (.inr ⟨_, rfl⟩))⟩
  · rename_i at_
    refine awake.moves rfl rfl rfl (fun waits => ⟨waits, Or.imp_right ?_⟩) fun waits =>
      ⟨waits, fun _ => .inl rfl⟩
    rintro (fed | finishing | ⟨chunks, is⟩)
    · exact .inl fed
    · exact .inr (.inl finishing)
    · simp [at_] at is
  · rename_i at_
    exact awake.moves rfl rfl rfl (fun waits => ⟨waits, Or.imp_right (rest at_).1⟩) fun waits =>
      ⟨waits, Or.imp_right (rest at_).2⟩
  · rename_i at_
    split <;> exact awake.moves rfl rfl rfl (fun waits => ⟨waits, Or.imp_right (rest at_).1⟩) fun waits =>
      ⟨waits, Or.imp_right (rest at_).2⟩

theorem Awake.step (awake : s.Awake) (kept : s.Kept datas) (action : Action) : (s.step action).Awake := by
  cases action with
  | outside op =>
    cases op with
    | releaseView view =>
      unfold Handover.step
      simp only
      split
      · exact awake
      · exact awake.heap _ _
    | _ => exact awake.heap _ _
  | feed data =>
    unfold Handover.step
    simp only
    split
    · exact awake.feedSection kept data
    · exact awake
  | finish =>
    unfold Handover.step
    simp only
    split
    · exact ⟨fun _ => .inr (.inl (.inr (.inl rfl))), nofun⟩
    · exact awake
  | waitWritable =>
    unfold Handover.step
    simp only
    split
    · rename_i idle
      exact awake.waitSection (.inl idle)
    · exact awake
  | readChunk =>
    unfold Handover.step
    simp only
    split
    · rename_i idle
      exact awake.readSection kept fun chunk is => by simp [idle] at is
    · exact awake
  | cancel =>
    unfold Handover.step
    simp only
    split
    · exact ⟨fun _ => .inr (.inl (.inr (.inr ⟨_, rfl⟩))), fun _ => .inr (.inl (.inr (.inl ⟨_, rfl⟩)))⟩
    · exact awake
  | close =>
    unfold Handover.step
    simp only
    split
    · exact awake.closeSection
    · exact awake
  | producer => exact awake.producerStep
  | reader => exact awake.readerStep kept
  | controller => exact awake.controllerStep

/-- A stream that is backpressured has something to read. -/
theorem Kept.backpressured (kept : s.Kept datas) (full : s.body.backpressured = true) :
    s.body.unread ≠ [] := by
  intro empty
  have watched := kept.represents.watched
  have above : s.body.lowWatermark < (s.body.queuedBytes : Int) := watched.settled.above full
  have nonneg : 0 ≤ s.body.lowWatermark := watched.low_nonneg
  have queued : s.body.queuedBytes = ((datas.drop s.body.readIndex).map List.length).sum := watched.queued
  have none : datas.drop s.body.readIndex = [] := by
    have length := kept.represents.holds.length_eq
    rw [empty] at length
    exact List.eq_nil_of_length_eq_zero length.symm
  rw [none] at queued
  simp only [List.map_nil, List.sum_nil] at queued
  omega

/-- However the parties of a body stream are interleaved: a reader that waits for an event that
nobody is about to set has nothing to read, and a producer that waits for an event that nobody is
about to set is held back by what is unread. So they do not wait for each other. The steps are those
of any interleaving, with `cancel` and `close` at any place. Nothing is assumed about fairness: the
statement is about the states that are reached, not about what is done next. -/
theorem no_lost_wakeup (maxBytes lowWatermark highWatermark : Int) (streaming : Bool) (body : RetainedBody)
    (start : RetainedBody.init {} maxBytes lowWatermark highWatermark streaming = .ok body)
    (actions : List Action) :
    let s := actions.foldl step { body := body }
    (s.reader = .waiting → s.dataReady = false → ¬ s.dataPending →
      s.body.unread = [] ∧ s.body.ended = false ∧ s.body.cancelled = false ∧ s.body.closed = false) ∧
    (s.producer = .waiting → s.spaceReady = false → ¬ s.spacePending →
      s.body.backpressured = true ∧ s.body.ended = false ∧ s.body.cancelled = false ∧
      s.body.closed = false) ∧
    ¬ (s.reader = .waiting ∧ s.dataReady = false ∧ ¬ s.dataPending ∧
      s.producer = .waiting ∧ s.spaceReady = false ∧ ¬ s.spacePending) := by
  intro s
  obtain ⟨⟨datas, kept⟩, awake⟩ : (∃ datas, s.Kept datas) ∧ s.Awake :=
    @Interleaving.invariant Handover Action step { body := body }
      (fun s => (∃ datas, s.Kept datas) ∧ s.Awake)
      (fun _ action ⟨⟨_, kept⟩, awake⟩ => ⟨kept.step action, awake.step kept action⟩) actions
      ⟨⟨[], Kept.fresh start⟩, nofun, nofun⟩
  have open_ (isOver : s.body.isOver = false) :
      s.body.ended = false ∧ s.body.cancelled = false ∧ s.body.closed = false := by
    simpa [RetainedBody.isOver, and_assoc] using isOver
  have reader (waits : s.reader = .waiting) (clear : s.dataReady = false) (none : ¬ s.dataPending) :
      s.body.unread = [] ∧ s.body.isOver = false :=
    ((awake.reader waits).resolve_left (by simp [clear])).resolve_left none
  have producer (waits : s.producer = .waiting) (clear : s.spaceReady = false) (none : ¬ s.spacePending) :
      s.body.backpressured = true ∧ s.body.isOver = false :=
    ((awake.producer waits).resolve_left (by simp [clear])).resolve_left none
  refine ⟨fun waits clear none => ?_, fun waits clear none => ?_, ?_⟩
  · obtain ⟨empty, isOver⟩ := reader waits clear none
    exact ⟨empty, open_ isOver⟩
  · obtain ⟨full, isOver⟩ := producer waits clear none
    exact ⟨full, open_ isOver⟩
  · rintro ⟨waits, clear, none, waits', clear', none'⟩
    exact kept.backpressured (producer waits' clear' none').1 (reader waits clear none).1

/-- A producer at the high mark waits while the reader is still busy with the chunk before. -/
theorem no_lost_wakeup_full : ∃ body, RetainedBody.init {} 8 1 4 true = .ok body ∧
    let s := [Action.readChunk, .feed (.bytes [1, 2]), .producer, .reader, .reader,
      .feed (.bytes [3, 4, 5, 6]), .producer, .waitWritable].foldl step { body := body }
    s.producer = .waiting ∧ s.body.backpressured = true ∧ s.body.ended = false ∧ s.body.cancelled = false ∧
      s.body.closed = false := by
  refine ⟨_, rfl, by decide, ?_⟩
  refine (no_lost_wakeup 8 1 4 true _ rfl _).2.1 (by decide) (by decide) ?_
  rintro (⟨chunk, waking⟩ | ⟨chunks, signalling⟩ | ⟨chunks, waking⟩)
  · exact nomatch (by decide : Reader.converting (.bytes [1, 2]) = _).trans waking
  · exact nomatch (by decide : Controller.idle = _).trans signalling
  · exact nomatch (by decide : Controller.idle = _).trans waking

end Handover
end PccGateway
