import PccGateway.Lib.Incremental

namespace Incremental

/-- A turn without its events: it waits, it fails, or it goes on in a state. -/
def Turn.outcome {σ ε β : Type} : Turn σ ε β → Option (Option σ)
  | .wait => none
  | .fail _ _ => some none
  | .emit state _ _ => some (some state)

namespace Decoder
variable {σ ε ι β : Type}

section Ends
variable (D : Decoder σ ε ι β)

/-- The turns from `s` on get to a state with the property `goal`. -/
def Gets (goal : σ → Prop) (s : σ) : Prop := ∃ t events, D.Steps s t events ∧ goal t

def Failing (s : σ) : Prop := (D.turn s).outcome = some none

/-- States in which the loop does not go on. -/
def Final (goal : σ → Prop) : Prop := ∀ s, goal s → ∀ s', (D.turn s).outcome ≠ some (some s')

/-- More input behind what is buffered does not turn acceptance into failure or back. A turn that
swallowed all its input may be taken again with the joined input. A failing turn fails with more input
too, unless it is `late`: the decoder gave up on input whose continuation it may have taken. -/
structure Coherent (late : σ → Prop) : Prop where
  late_fails : ∀ s, late s → D.Failing s
  fails : ∀ s, D.Failing s → ¬ late s → ∀ data, D.Failing (D.push s data)
  goes_on : ∀ s s' events complete, D.turn s = .emit s' events complete → ∀ data, data ≠ [] →
    (D.turn (D.push s data)).outcome = some (some (D.push s' data)) ∨
    D.turn s' = .wait ∧ (D.turn (D.push s data)).outcome = (D.turn (D.push s' data)).outcome ∧
      ¬ late (D.push s data) ∧ ¬ late (D.push s' data)

end Ends

variable {D : Decoder σ ε ι β} {goal late : σ → Prop}

theorem outcome_eq_some_iff {s s' : σ} : (D.turn s).outcome = some (some s') ↔
    ∃ events complete, D.turn s = .emit s' events complete := by
  cases turn : D.turn s <;> simp [Turn.outcome]

theorem failing_iff {s : σ} : D.Failing s ↔ ∃ error s', D.turn s = .fail error s' := by
  unfold Failing
  cases turn : D.turn s <;> simp [Turn.outcome]

theorem failing_final : D.Final D.Failing := fun s fails s' => by
  unfold Failing at fails
  simp [fails]

/-- The first turn of a run to a final state. -/
theorem gets_iff {s : σ} :
    D.Gets goal s ↔ goal s ∨ ∃ s', (D.turn s).outcome = some (some s') ∧ D.Gets goal s' := by
  constructor
  · rintro ⟨t, events, steps, there⟩
    rcases steps.inv with ⟨rfl, _⟩ | ⟨s', new, rest, complete, turn, more, _⟩
    · exact .inl there
    · refine .inr ⟨s', ?_, t, rest, more, there⟩
      rw [outcome_eq_some_iff]
      exact ⟨new, complete, turn⟩
  · rintro (here | ⟨s', first, t, rest, more, there⟩)
    · exact ⟨s, [], .refl s, here⟩
    · rw [outcome_eq_some_iff] at first
      obtain ⟨new, complete, turn⟩ := first
      exact ⟨t, new ++ rest, .head turn more, there⟩

/-- Whether a final state is reached does not depend on how far the loop was run before. -/
theorem Steps.gets_iff (final : D.Final goal) {s s' : σ} {events : List β} (steps : D.Steps s s' events) :
    D.Gets goal s ↔ D.Gets goal s' := by
  induction steps with
  | refl s => exact Iff.rfl
  | @head s mid t new events complete turn _ ih =>
    have first : (D.turn s).outcome = some (some mid) := by
      rw [outcome_eq_some_iff]
      exact ⟨new, complete, turn⟩
    rw [Decoder.gets_iff, ← ih]
    constructor
    · rintro (here | ⟨other, same, gets⟩)
      · exact absurd first (final s here mid)
      · rw [first] at same
        cases same
        exact gets
    · exact fun gets => .inr ⟨mid, first, gets⟩

theorem not_failing_of_wait {s : σ} (waits : D.turn s = .wait) : ¬ D.Failing s := by
  simp [Failing, waits, Turn.outcome]

theorem gets_of_wait {s : σ} (waits : D.turn s = .wait) (gets : D.Gets goal s) : goal s := by
  obtain ⟨t, events, steps, there⟩ := gets
  obtain ⟨rfl, _⟩ := steps.of_wait waits
  exact there

theorem drain_error_gets {quota fuel completed : Nat} {s t : σ} {past out : List β} {error : ε}
    (run : D.drain quota fuel s completed past = (t, out, some error)) : D.Gets D.Failing s := by
  induction fuel generalizing s completed past with
  | zero => simp [drain] at run
  | succ fuel ih =>
    rw [gets_iff]
    simp only [drain] at run
    split at run
    · simp at run
    · rename_i turn
      rw [failing_iff]
      exact .inl ⟨_, _, turn⟩
    · rename_i s' new complete turn
      split at run
      · simp at run
      · refine .inr ⟨s', ?_, ih run⟩
        rw [outcome_eq_some_iff]
        exact ⟨new, complete, turn⟩

/-- A call raises exactly when its turns get to a failing one. -/
theorem feed_raises_iff {s : σ} {data : List ι} :
    (D.feed 0 s data).2.2 ≠ none ↔ D.Gets D.Failing (D.push s data) := by
  constructor
  · intro raised
    obtain ⟨error, some⟩ := Option.ne_none_iff_exists'.mp raised
    exact drain_error_gets (Prod.ext rfl (Prod.ext rfl some))
  · rintro ⟨t, events, steps, fails⟩
    rw [failing_iff] at fails
    obtain ⟨error, u, turn⟩ := fails
    simp [feed_fail steps turn]

namespace Coherent
variable (coherent : D.Coherent late)
include coherent

theorem final : D.Final late := fun s there => failing_final s (coherent.late_fails s there)

/-- Input that arrives after the loop went idle might as well have been there from the start. -/
theorem push_iff {s s' : σ} {events : List β} (steps : D.Steps s s' events)
    (waits : D.turn s' = .wait) (data : List ι) :
    (D.Gets D.Failing (D.push s data) ↔ D.Gets D.Failing (D.push s' data)) ∧
      (D.Gets late (D.push s data) ↔ D.Gets late (D.push s' data)) := by
  by_cases empty : data = []
  · subst empty
    simp only [D.push_nil]
    exact ⟨steps.gets_iff failing_final, steps.gets_iff coherent.final⟩
  · induction steps with
    | refl s => exact ⟨Iff.rfl, Iff.rfl⟩
    | @head s mid t new rest complete turn steps ih =>
      rcases coherent.goes_on s mid new complete turn data empty with same | ⟨idle, same, prompt, prompt'⟩
      · rw [outcome_eq_some_iff] at same
        obtain ⟨events, complete', first⟩ := same
        have first := Steps.single first
        obtain ⟨fails, gets⟩ := ih waits
        exact ⟨(first.gets_iff failing_final).trans fails, (first.gets_iff coherent.final).trans gets⟩
      · -- the turn swallowed its input, so the loop went idle right after it
        obtain ⟨rfl, _⟩ := steps.of_wait idle
        constructor
        · rw [gets_iff, gets_iff, Failing, Failing, same]
        · rw [gets_iff, gets_iff, same]
          simp only [prompt, prompt', false_or]

/-- A failure stays one when more input follows, except where a late state is reached. -/
theorem fails_push {s : σ} (fails : D.Gets D.Failing s) (data : List ι) :
    D.Gets D.Failing (D.push s data) ∨ D.Gets late s := by
  by_cases empty : data = []
  · exact .inl (by rwa [empty, D.push_nil])
  · obtain ⟨t, events, steps, ends⟩ := fails
    induction steps with
    | refl s =>
      by_cases slow : late s
      · exact .inr ⟨s, [], .refl s, slow⟩
      · exact .inl ⟨_, [], .refl _, coherent.fails s ends slow data⟩
    | @head s mid t new rest complete turn steps ih =>
      have first := Steps.single turn
      rcases coherent.goes_on s mid new complete turn data empty with same | ⟨idle, _⟩
      · rw [outcome_eq_some_iff] at same
        obtain ⟨events, complete', pushed⟩ := same
        rw [(Steps.single pushed).gets_iff failing_final, first.gets_iff coherent.final]
        exact ih ends
      · exact absurd (gets_of_wait idle ⟨t, rest, steps, ends⟩) (not_failing_of_wait idle)

theorem not_gets_of_wait {s : σ} (waits : D.turn s = .wait) : ¬ D.Gets late s := fun gets =>
  not_failing_of_wait waits (coherent.late_fails s (gets_of_wait waits gets))

/-- No cut before the first piece is late. -/
theorem cut_cons_iff {s : σ} (waits : D.turn s = .wait) {data : List ι} {pieces : List (List ι)} :
    (∃ before, before <+: data :: pieces ∧ D.Gets late (D.push s before.flatten)) ↔
      ∃ before, before <+: pieces ∧ D.Gets late (D.push (D.push s data) before.flatten) := by
  constructor
  · rintro ⟨before, cut, gets⟩
    rcases List.prefix_cons_iff.mp cut with rfl | ⟨rest, rfl, inside⟩
    · exact absurd (by simpa [D.push_nil] using gets) (coherent.not_gets_of_wait waits)
    · exact ⟨rest, inside, by simpa [D.push_push] using gets⟩
  · rintro ⟨before, cut, gets⟩
    exact ⟨data :: before, List.prefix_cons_iff.mpr (.inr ⟨before, rfl, cut⟩),
      by simpa [D.push_push] using gets⟩

/-- Pieces are refused exactly when their concatenation is, or when one of the cuts between them finds
the decoder in a late state. -/
theorem feedAll_raises_iff {s : σ} (waits : D.turn s = .wait) (pieces : List (List ι)) :
    (D.feedAll s (pieces.map fun data => (data, 0))).2.2 ≠ none ↔
      D.Gets D.Failing (D.push s pieces.flatten) ∨ ∃ before, before <+: pieces ∧
      D.Gets late (D.push s before.flatten) := by
  induction pieces generalizing s with
  | nil =>
    have fine : ¬ D.Gets D.Failing s := fun gets => not_failing_of_wait waits (gets_of_wait waits gets)
    simp [feedAll, D.push_nil, fine, coherent.not_gets_of_wait waits]
  | cons data pieces ih =>
    rw [List.flatten_cons, ← D.push_push, coherent.cut_cons_iff waits]
    rcases run : D.feed 0 s data with ⟨s', first, error | _⟩
    · obtain ⟨steps, idle⟩ := feed_ok_iff.mp run
      have rest : (D.feedAll s ((data :: pieces).map fun data => (data, 0))).2.2 =
          (D.feedAll s' (pieces.map fun data => (data, 0))).2.2 := by simp [feedAll, run]
      rw [rest, ih idle, ← (coherent.push_iff steps idle _).1]
      simp only [← (coherent.push_iff steps idle _).2]
    · have raised : (D.feedAll s ((data :: pieces).map fun data => (data, 0))).2.2 ≠ none := by
        simp [feedAll, run]
      have fails : D.Gets D.Failing (D.push s data) := by
        rw [← feed_raises_iff]
        simp [run]
      refine iff_of_true raised ((coherent.fails_push fails pieces.flatten).imp_right fun gets => ?_)
      exact ⟨[], List.nil_prefix, by simpa [D.push_nil] using gets⟩

end Coherent
end Decoder
end Incremental
