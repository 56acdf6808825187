import Mathlib.Data.List.Basic

namespace Incremental

/-- What one turn of a decoder loop does with the input it has buffered. `complete` marks a turn
that ends a message, which is what a bounded call counts. -/
inductive Turn (σ ε β : Type) where
  | wait
  | fail (error : ε) (state : σ)
  | emit (state : σ) (events : List β) (complete : Bool)

/-- A decoder that is fed its input in pieces. The state owns the unread input: `push` appends to
it, `turn` is one pass of the loop, and `size` bounds the turns that are still possible. -/
structure Decoder (σ ε ι β : Type) where
  turn : σ → Turn σ ε β
  push : σ → List ι → σ
  size : σ → Nat
  push_nil : ∀ s, push s [] = s
  push_push : ∀ s a b, push (push s a) b = push s (a ++ b)
  size_lt : ∀ {s s' events complete}, turn s = .emit s' events complete → size s' < size s

namespace Decoder
variable {σ ε ι β : Type} (D : Decoder σ ε ι β)

/-- The loop of one call: the state it leaves, the events it collected, and the error if a turn
failed. A positive `quota` stops it after that many complete messages. -/
def drain (quota : Nat) : Nat → σ → Nat → List β → σ × List β × Option ε
  | 0, s, _, events => (s, events, none)
  | fuel + 1, s, completed, events =>
    match D.turn s with
    | .wait => (s, events, none)
    | .fail error s' => (s', events, some error)
    | .emit s' new complete =>
      let completed := completed + complete.toNat
      if complete ∧ 0 < quota ∧ quota ≤ completed then (s', events ++ new, none)
      else drain quota fuel s' completed (events ++ new)

def feed (quota : Nat) (s : σ) (data : List ι) : σ × List β × Option ε :=
  D.drain quota (D.size (D.push s data) + 1) (D.push s data) 0 []

/-- Calls one after another, each with its own quota. The first error ends the run. -/
def feedAll : σ → List (List ι × Nat) → σ × List β × Option ε
  | s, [] => (s, [], none)
  | s, (data, quota) :: calls =>
    match D.feed quota s data with
    | (s', events, some error) => (s', events, some error)
    | (s', events, none) =>
      let (t, more, error) := feedAll s' calls
      (t, events ++ more, error)

/-- Successful turns in a row, with the events they emit. -/
inductive Steps : σ → σ → List β → Prop
  | refl (s : σ) : Steps s s []
  | head {s s' t : σ} {new events : List β} {complete : Bool} :
      D.turn s = .emit s' new complete → Steps s' t events → Steps s t (new ++ events)

variable {D}

theorem Steps.single {s t : σ} {events : List β} {complete : Bool}
    (turn : D.turn s = .emit t events complete) :
    D.Steps s t events := by
  simpa using Steps.head turn (.refl t)

theorem Steps.trans {s t u : σ} {first second : List β} (before : D.Steps s t first)
    (after : D.Steps t u second) :
    D.Steps s u (first ++ second) := by
  induction before with
  | refl s => simpa using after
  | head turn _ ih =>
    rw [List.append_assoc]
    exact .head turn (ih after)

theorem Steps.inv {s t : σ} {events : List β} (steps : D.Steps s t events) :
    t = s ∧ events = [] ∨ ∃ s' new rest complete, D.turn s = .emit s' new complete ∧ D.Steps s' t rest ∧
      events = new ++ rest := by
  cases steps with
  | refl => exact .inl ⟨rfl, rfl⟩
  | head turn rest => exact .inr ⟨_, _, _, _, turn, rest, rfl⟩

theorem Steps.of_wait {s t : σ} {events : List β} (steps : D.Steps s t events)
    (waits : D.turn s = .wait) : t = s ∧ events = [] := by
  cases steps with
  | refl => exact ⟨rfl, rfl⟩
  | head turn _ => rw [waits] at turn; cases turn

/-- An invariant of single turns is an invariant of the whole loop. The events so far may be part
of it. -/
theorem Steps.invariant {P : σ → List β → Prop}
    (step : ∀ s s' past new complete, P s past → D.turn s = .emit s' new complete → P s' (past ++ new))
    {s t : σ} {events past : List β} (start : P s past) (steps : D.Steps s t events) :
    P t (past ++ events) := by
  induction steps generalizing past with
  | refl s => simpa using start
  | @head s s' t new events complete turn _ ih =>
    rw [← List.append_assoc]
    exact ih (step s s' past new complete start turn)

theorem Steps.preserves {P : σ → Prop}
    (step : ∀ s s' new complete, P s → D.turn s = .emit s' new complete → P s')
    {s t : σ} {events : List β} (start : P s) (steps : D.Steps s t events) : P t := by
  induction steps with
  | refl s => exact start
  | head turn _ ih => exact ih (step _ _ _ _ start turn)

theorem drain_ok_steps {quota fuel completed : Nat} {s t : σ} {past out : List β}
    (run : D.drain quota fuel s completed past = (t, out, none)) :
    ∃ events, D.Steps s t events ∧ out = past ++ events := by
  induction fuel generalizing s completed past with
  | zero =>
    simp only [drain, Prod.mk.injEq, and_true] at run
    obtain ⟨rfl, rfl⟩ := run
    exact ⟨[], .refl _, by simp⟩
  | succ fuel ih =>
    simp only [drain] at run
    split at run
    · simp only [Prod.mk.injEq, and_true] at run
      obtain ⟨rfl, rfl⟩ := run
      exact ⟨[], .refl _, by simp⟩
    · simp at run
    · rename_i s' new complete turn
      split at run
      · simp only [Prod.mk.injEq, and_true] at run
        obtain ⟨rfl, rfl⟩ := run
        exact ⟨new, .single turn, rfl⟩
      · obtain ⟨events, steps, rfl⟩ := ih run
        exact ⟨new ++ events, .head turn steps, by simp⟩

theorem feed_ok_steps {quota : Nat} {s t : σ} {data : List ι} {events : List β}
    (run : D.feed quota s data = (t, events, none)) : D.Steps (D.push s data) t events := by
  obtain ⟨out, steps, rfl⟩ := drain_ok_steps run
  simpa using steps

/-- Without a quota the loop stops only where a turn waits. The fuel never runs out. -/
theorem drain_ok_iff {fuel completed : Nat} {s t : σ} {past out : List β} (enough : D.size s < fuel) :
    D.drain 0 fuel s completed past = (t, out, none) ↔
      ∃ events, D.Steps s t events ∧ D.turn t = .wait ∧ out = past ++ events := by
  induction fuel generalizing s completed past with
  | zero => omega
  | succ fuel ih =>
    simp only [drain]
    split
    · rename_i waits
      simp only [Prod.mk.injEq, and_true]
      constructor
      · rintro ⟨rfl, rfl⟩
        exact ⟨[], .refl _, waits, by simp⟩
      · rintro ⟨events, steps, _, rfl⟩
        obtain ⟨rfl, rfl⟩ := steps.of_wait waits
        simp
    · rename_i error s' fails
      simp only [Prod.mk.injEq, reduceCtorEq, and_false, false_iff, not_exists, not_and]
      intro events steps waits
      cases steps with
      | refl => rw [fails] at waits; cases waits
      | head turn _ => rw [fails] at turn; cases turn
    · rename_i s' new complete turn
      have smaller := D.size_lt turn
      simp only [Nat.lt_irrefl, false_and, and_false, if_false]
      rw [ih (by omega)]
      constructor
      · rintro ⟨events, steps, waits, rfl⟩
        exact ⟨new ++ events, .head turn steps, waits, by simp⟩
      · rintro ⟨events, steps, waits, rfl⟩
        cases steps with
        | refl => rw [waits] at turn; cases turn
        | head turn' rest =>
          rw [turn] at turn'
          cases turn'
          exact ⟨_, rest, waits, by simp⟩

theorem feed_ok_iff {s t : σ} {data : List ι} {events : List β} :
    D.feed 0 s data = (t, events, none) ↔ D.Steps (D.push s data) t events ∧ D.turn t = .wait := by
  rw [feed, drain_ok_iff (Nat.lt_succ_self _)]
  simp

theorem drain_fail {fuel completed : Nat} {s t u : σ} {past events : List β} {error : ε}
    (enough : D.size s < fuel) (steps : D.Steps s t events) (fails : D.turn t = .fail error u) :
    D.drain 0 fuel s completed past = (u, past ++ events, some error) := by
  induction steps generalizing fuel completed past with
  | refl s =>
    cases fuel with
    | zero => omega
    | succ fuel => simp [drain, fails]
  | @head s s' t new events complete turn _ ih =>
    cases fuel with
    | zero => omega
    | succ fuel =>
      have smaller := D.size_lt turn
      simp only [drain, turn, Nat.lt_irrefl, false_and, and_false, if_false]
      rw [ih (by omega) fails, List.append_assoc]

/-- A call ends with the first error that its turns reach. -/
theorem feed_fail {s t u : σ} {data : List ι} {events : List β} {error : ε}
    (steps : D.Steps (D.push s data) t events) (fails : D.turn t = .fail error u) :
    D.feed 0 s data = (u, events, some error) := by
  rw [feed, drain_fail (Nat.lt_succ_self _) steps fails, List.nil_append]

theorem feedAll_cons_ok {s t : σ} {data : List ι} {quota : Nat} {calls : List (List ι × Nat)}
    {events : List β} (run : D.feedAll s ((data, quota) :: calls) = (t, events, none)) :
    ∃ s' first rest, D.feed quota s data = (s', first, none) ∧
      D.feedAll s' calls = (t, rest, none) ∧ events = first ++ rest := by
  simp only [feedAll] at run
  split at run
  · simp at run
  · rename_i s' first firstRun
    simp only [Prod.mk.injEq] at run
    obtain ⟨rfl, rfl, clean⟩ := run
    refine ⟨s', first, (D.feedAll s' calls).2.1, firstRun, ?_, rfl⟩
    rw [← clean]

/-- Later input never revises a decision: a turn that emits does the same with more input behind
it. The one exception is a turn that swallowed all its input; then one turn over the joined input
does what the two turns do, up to `same`. -/
def Stable (D : Decoder σ ε ι β) (same : List β → List β → Prop) : Prop :=
  ∀ s s' events complete, D.turn s = .emit s' events complete → ∀ data, data ≠ [] →
    D.turn (D.push s data) = .emit (D.push s' data) events complete ∨
    D.turn s' = .wait ∧ D.turn (D.push s' data) ≠ .wait ∧
      ∀ t new complete', D.turn (D.push s' data) = .emit t new complete' →
        ∃ all complete'', D.turn (D.push s data) = .emit t all complete'' ∧ same all (events ++ new)

/-- The same for the turns that lead to a state of `ok`, which no turn enters again once it was left. -/
structure StableOn (D : Decoder σ ε ι β) (ok : σ → Prop) (same : List β → List β → Prop) : Prop where
  back : ∀ {s s' events complete}, D.turn s = .emit s' events complete → ok s' → ok s
  push : ∀ s s' events complete, D.turn s = .emit s' events complete → ok s' → ∀ data, data ≠ [] →
    D.turn (D.push s data) = .emit (D.push s' data) events complete ∨
    D.turn s' = .wait ∧ D.turn (D.push s' data) ≠ .wait ∧
      ∀ t new complete', D.turn (D.push s' data) = .emit t new complete' →
        ∃ all complete'', D.turn (D.push s data) = .emit t all complete'' ∧ same all (events ++ new)

theorem Stable.on {same : List β → List β → Prop} (stable : D.Stable same) :
    D.StableOn (fun _ => True) same where
  back := fun _ _ => trivial
  push := fun s s' events complete turn _ => stable s s' events complete turn

theorem StableOn.steps {ok : σ → Prop} {same : List β → List β → Prop} (stable : D.StableOn ok same)
    {s t : σ} {events : List β} (steps : D.Steps s t events) (good : ok t) : ok s := by
  induction steps with
  | refl => exact good
  | head turn _ ih => exact stable.back turn (ih good)

/-- A relation on event lists under which a decoder may be compared: how the events were cut into
pieces is forgotten, their order is not. -/
structure Coalescing (same : List β → List β → Prop) : Prop where
  equivalence : Equivalence same
  append : ∀ {a b c d}, same a b → same c d → same (a ++ c) (b ++ d)

theorem Steps.push_run {ok : σ → Prop} {same : List β → List β → Prop} (coalescing : Coalescing same)
    (stable : D.StableOn ok same) {s s' t : σ} {first second : List β} {data : List ι}
    (before : D.Steps s s' first) (waits : D.turn s' = .wait) (good : ok s')
    (after : D.Steps (D.push s' data) t second) (ends : D.turn t = .wait) :
    ∃ events, D.Steps (D.push s data) t events ∧ same events (first ++ second) := by
  by_cases empty : data = []
  · subst empty
    rw [D.push_nil] at after ⊢
    obtain ⟨rfl, rfl⟩ := after.of_wait waits
    exact ⟨first, before, by simpa using coalescing.equivalence.refl first⟩
  · induction before with
    | refl s => exact ⟨second, after, by simpa using coalescing.equivalence.refl second⟩
    | @head s mid u new rest complete turn steps ih =>
      rcases stable.push s mid new complete turn (stable.steps steps good) data empty with same_turn |
        ⟨idle, moves, joined⟩
      · obtain ⟨events, run, agree⟩ := ih waits good after
        refine ⟨new ++ events, .head same_turn run, ?_⟩
        simpa using coalescing.append (coalescing.equivalence.refl new) agree
      · -- the turn swallowed its input, so the first call ended right after it
        obtain ⟨rfl, rfl⟩ := steps.of_wait idle
        cases after with
        | refl => exact absurd ends moves
        | @head _ v _ more later complete' turn' later_steps =>
          obtain ⟨all, complete'', whole, agree⟩ := joined v more complete' turn'
          refine ⟨all ++ later, .head whole later_steps, ?_⟩
          simpa using coalescing.append agree (coalescing.equivalence.refl later)

/-- Fragmentation: calls without a quota that all succeed do what one call with the joined input
does. -/
theorem feedAll_eq_feed {same : List β → List β → Prop} (coalescing : Coalescing same)
    (stable : D.Stable same) {s t : σ} {pieces : List (List ι)} {events : List β}
    (waits : D.turn s = .wait)
    (run : D.feedAll s (pieces.map fun data => (data, 0)) = (t, events, none)) :
    ∃ whole, D.feed 0 s pieces.flatten = (t, whole, none) ∧ same whole events := by
  induction pieces generalizing s events with
  | nil =>
    simp only [List.map_nil, feedAll, Prod.mk.injEq, and_true] at run
    obtain ⟨rfl, rfl⟩ := run
    refine ⟨[], ?_, coalescing.equivalence.refl _⟩
    rw [List.flatten_nil, feed_ok_iff, D.push_nil]
    exact ⟨.refl _, waits⟩
  | cons data pieces ih =>
    obtain ⟨s', first, more, firstRun, restRun, rfl⟩ := feedAll_cons_ok run
    obtain ⟨firstSteps, idle⟩ := feed_ok_iff.mp firstRun
    obtain ⟨rest, restFeed, restSame⟩ := ih idle restRun
    obtain ⟨restSteps, ends⟩ := feed_ok_iff.mp restFeed
    obtain ⟨whole, steps, agree⟩ := firstSteps.push_run coalescing stable.on idle trivial restSteps ends
    refine ⟨whole, feed_ok_iff.mpr ⟨?_, ends⟩, ?_⟩
    · rwa [D.push_push, ← List.flatten_cons] at steps
    · exact coalescing.equivalence.trans agree
        (coalescing.append (coalescing.equivalence.refl first) restSame)

/-- The states in which the loop of a call with a quota begins a turn. -/
inductive Reaches (D : Decoder σ ε ι β) (quota : Nat) : σ → Nat → σ → Prop
  | here {s : σ} {completed : Nat} : Reaches D quota s completed s
  | next {s s' t : σ} {completed : Nat} {new : List β} {complete : Bool} :
      D.turn s = .emit s' new complete →
      ¬ (complete = true ∧ 0 < quota ∧ quota ≤ completed + complete.toNat) →
      Reaches D quota s' (completed + complete.toNat) t → Reaches D quota s completed t

/-- The error of a call is that of a turn that it reaches. -/
theorem Reaches.of_error {quota fuel completed : Nat} {s t : σ} {past events : List β} {error : ε}
    (run : D.drain quota fuel s completed past = (t, events, some error)) :
    ∃ last, D.Reaches quota s completed last ∧ D.turn last = .fail error t := by
  induction fuel generalizing s completed past with
  | zero => cases run
  | succ fuel ih =>
    rw [drain] at run
    split at run
    · cases run
    · rename_i fails
      cases run
      exact ⟨s, .here, fails⟩
    · rename_i turn
      dsimp only at run
      split at run
      · cases run
      · rename_i onward
        obtain ⟨last, reaches, fails⟩ := ih run
        exact ⟨last, .next turn onward reaches, fails⟩

theorem Reaches.error {quota fuel completed : Nat} {s t last : σ} {past : List β} {error : ε}
    (reaches : D.Reaches quota s completed last)
    (fails : D.turn last = .fail error t) (enough : D.size s < fuel) :
    ∃ events, D.drain quota fuel s completed past = (t, events, some error) := by
  induction reaches generalizing fuel past with
  | here =>
    obtain ⟨fuel, rfl⟩ := Nat.exists_eq_add_one_of_ne_zero (Nat.ne_zero_of_lt enough)
    exact ⟨past, by rw [drain, fails]⟩
  | @next s s' _ completed new complete turn onward _ ih =>
    obtain ⟨fuel, rfl⟩ := Nat.exists_eq_add_one_of_ne_zero (Nat.ne_zero_of_lt enough)
    have smaller := D.size_lt turn
    obtain ⟨events, run⟩ := @ih fuel (past ++ new) fails (by omega)
    exact ⟨events, by rw [drain, turn]; simp only; rw [if_neg onward, run]⟩

end Decoder
end Incremental
