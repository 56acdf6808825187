import Mathlib.Data.List.Basic
import Mathlib.Logic.Function.Iterate

/-! Code that is not ours and that calls into ours. A program is what such code does from one call to
the next; a host says what a call does, and a coroutine keeps a stack of what is still to be done once
the call has returned. -/

/-- `σ` is what the program may change at will, `ι` what it may call, and `α` what a call and the
program itself return. -/
inductive Program (σ ι α : Type) where
  | finish (result : α)
  | act (change : σ → σ) (rest : σ → Program σ ι α)
  | call (target : ι) (rest : α → Program σ ι α)

inductive Control (σ ι α : Type) where
  | running (program : Program σ ι α)
  | returning (result : α)

inductive Frame (σ ι α φ : Type) where
  | resumed (rest : α → Program σ ι α)
  | host (frame : φ)

structure Coroutine (σ ι α φ : Type) where
  control : Control σ ι α
  frames : List (Frame σ ι α φ)

/-- `enter` is what a call does: what runs next, under frames of the host's own. `leave` is what such
a frame does with a result. -/
structure Host (η σ ι α φ : Type) where
  view : η → σ
  put : σ → η → η
  enter : ι → η → η × List φ × Control σ ι α
  leave : φ → α → η → η × Control σ ι α

namespace Host
variable {η σ ι α φ : Type} (host : Host η σ ι α φ)

/-- One step of one coroutine. -/
def advance : η × Coroutine σ ι α φ → η × Coroutine σ ι α φ
  | (h, ⟨.running (.finish result), frames⟩) => (h, ⟨.returning result, frames⟩)
  | (h, ⟨.running (.act change rest), frames⟩) =>
    (host.put (change (host.view h)) h, ⟨.running (rest (change (host.view h))), frames⟩)
  | (h, ⟨.running (.call target rest), frames⟩) =>
    let entered := host.enter target h
    (entered.1, ⟨entered.2.2, entered.2.1.map .host ++ .resumed rest :: frames⟩)
  | (h, ⟨.returning result, []⟩) => (h, ⟨.returning result, []⟩)
  | (h, ⟨.returning result, .resumed rest :: frames⟩) => (h, ⟨.running (rest result), frames⟩)
  | (h, ⟨.returning result, .host frame :: frames⟩) =>
    let left := host.leave frame result h
    (left.1, ⟨left.2, frames⟩)

/-- The coroutine runs alone from the first state to the second. -/
def Runs (first last : η × Coroutine σ ι α φ) : Prop := ∃ n, host.advance^[n] first = last

variable {host} {first middle last : η × Coroutine σ ι α φ}

theorem Runs.refl : host.Runs first first := ⟨0, rfl⟩

theorem Runs.trans (before : host.Runs first middle) (after : host.Runs middle last) :
    host.Runs first last := by
  obtain ⟨n, rfl⟩ := before
  obtain ⟨m, rfl⟩ := after
  exact ⟨m + n, Function.iterate_add_apply _ m n first⟩

theorem Runs.step (after : host.Runs (host.advance first) last) : host.Runs first last :=
  Runs.trans ⟨1, rfl⟩ after

/-- Every call spends some of a weight that nothing adds to, unless it returns at once. -/
structure Wanes (host : Host η σ ι α φ) (weight : η → Nat) : Prop where
  put : ∀ s h, weight (host.put s h) = weight h
  enter : ∀ target h, weight (host.enter target h).1 < weight h ∨
    weight (host.enter target h).1 ≤ weight h ∧ (host.enter target h).2.1 = [] ∧
      ∃ result, (host.enter target h).2.2 = .returning result
  leave : ∀ frame result h, weight (host.leave frame result h).1 ≤ weight h

section Halting
variable {weight : η → Nat} {bound : Nat}

/-- What runs comes to a result, under the frames that it started with. -/
def Settles (host : Host η σ ι α φ) (weight : η → Nat) (h : η) (control : Control σ ι α) : Prop :=
  ∀ frames, ∃ h' result, host.Runs (h, ⟨control, frames⟩) (h', ⟨.returning result, frames⟩) ∧
    weight h' ≤ weight h

theorem unwinds (wanes : host.Wanes weight)
    (settles : ∀ h control, weight h ≤ bound → Settles host weight h control)
    (own : List φ) (h : η) (control : Control σ ι α) (light : weight h ≤ bound)
    (frames : List (Frame σ ι α φ)) :
    ∃ h' result, host.Runs (h, ⟨control, own.map .host ++ frames⟩) (h', ⟨.returning result, frames⟩) ∧
    weight h' ≤ weight h := by
  induction own generalizing h control with
  | nil => exact settles h control light frames
  | cons frame own ih =>
    obtain ⟨h', result, runs, less⟩ := settles h control light (.host frame :: (own.map .host ++ frames))
    have leaves := wanes.leave frame result h'
    obtain ⟨h'', result', runs', less'⟩ :=
      ih (host.leave frame result h').1 (host.leave frame result h').2 (by omega)
    exact ⟨h'', result', runs.trans (.step runs'), by omega⟩

theorem settles (wanes : host.Wanes weight) (h : η) (control : Control σ ι α) (light : weight h ≤ bound) :
    Settles host weight h control := by
  induction bound using Nat.strongRecOn generalizing h control with
  | ind bound ih =>
    cases control with
    | returning result => exact fun frames => ⟨h, result, .refl, Nat.le_refl _⟩
    | running program =>
      induction program generalizing h with
      | finish result => exact fun frames => ⟨h, result, .step .refl, Nat.le_refl _⟩
      | act change rest later =>
        intro frames
        have same := wanes.put (change (host.view h)) h
        obtain ⟨h', result, runs, less⟩ :=
          later (change (host.view h)) (host.put (change (host.view h)) h) (by omega) frames
        exact ⟨h', result, .step runs, by omega⟩
      | call target rest later =>
        intro frames
        rcases wanes.enter target h with spent | ⟨kept, bare, result, returns⟩
        · -- the call has spent some weight, so whatever it and the rest of the program do settles
          have lighter := ih (weight (host.enter target h).1) (by omega)
          obtain ⟨h', result, runs, less⟩ :=
            unwinds wanes lighter (host.enter target h).2.1 (host.enter target h).1
            (host.enter target h).2.2 (Nat.le_refl _) (.resumed rest :: frames)
          obtain ⟨h'', result', runs', less'⟩ := lighter h' (.running (rest result)) less frames
          exact ⟨h'', result', .step (runs.trans (.step runs')), by omega⟩
        · obtain ⟨h', result', runs, less⟩ := later result (host.enter target h).1 (by omega) frames
          refine ⟨h', result', .step ?_, by omega⟩
          rw [advance, bare, returns]
          exact .step runs

/-- A coroutine that runs alone comes to an end. -/
theorem halts (wanes : host.Wanes weight) (h : η) (coroutine : Coroutine σ ι α φ) :
    ∃ h' result, host.Runs (h, coroutine) (h', ⟨.returning result, []⟩) := by
  obtain ⟨control, frames⟩ := coroutine
  induction frames generalizing h control with
  | nil =>
    obtain ⟨h', result, runs, -⟩ := settles wanes h control (Nat.le_refl _) []
    exact ⟨h', result, runs⟩
  | cons frame frames ih =>
    obtain ⟨h', result, runs, -⟩ := settles wanes h control (Nat.le_refl _) (frame :: frames)
    cases frame with
    | resumed rest =>
      obtain ⟨h'', result', runs'⟩ := ih h' (.running (rest result))
      exact ⟨h'', result', runs.trans (.step runs')⟩
    | host frame =>
      obtain ⟨h'', result', runs'⟩ := ih (host.leave frame result h').1 (host.leave frame result h').2
      exact ⟨h'', result', runs.trans (.step runs')⟩

end Halting

/-- Every result that the program can come to, whatever its calls return, is as `P` says. -/
inductive Finishes {σ ι α : Type} (P : α → Prop) : Program σ ι α → Prop where
  | finish {result : α} (good : P result) : Finishes P (.finish result)
  | act {change : σ → σ} {rest : σ → Program σ ι α} (later : ∀ s, Finishes P (rest s)) :
      Finishes P (.act change rest)
  | call {target : ι} {rest : α → Program σ ι α} (later : ∀ result, Finishes P (rest result)) :
      Finishes P (.call target rest)

def ControlGood (P : α → Prop) : Control σ ι α → Prop
  | .running program => Finishes P program
  | .returning result => P result

def FrameGood (P : α → Prop) (trusted : φ → Prop) : Frame σ ι α φ → Prop
  | .resumed rest => ∀ result, Finishes P (rest result)
  | .host frame => trusted frame

/-- What a coroutine comes to is as `P` says: its first frame sees to it, or there is none left and
its control does. -/
def Guarded (P : α → Prop) (trusted : φ → Prop) (coroutine : Coroutine σ ι α φ) : Prop :=
  coroutine.frames = [] ∧ ControlGood P coroutine.control ∨
    ∃ above last, coroutine.frames = above ++ [last] ∧ FrameGood P trusted last

/-- A trusted frame returns what `P` says, or runs a program that does. -/
theorem Guarded.advance {P : α → Prop} {trusted : φ → Prop}
    (leaves : ∀ frame result h, trusted frame → ControlGood P (host.leave frame result h).2)
    (guarded : Guarded P trusted first.2) : Guarded P trusted (host.advance first).2 := by
  obtain ⟨h, control, frames⟩ := first
  rcases guarded with ⟨bare, good⟩ | ⟨above, last, split, good⟩
  · simp only at bare good
    subst bare
    cases control with
    | returning result => exact .inl ⟨rfl, good⟩
    | running program =>
      cases good with
      | finish good => exact .inl ⟨rfl, good⟩
      | act later => exact .inl ⟨rfl, later _⟩
      | @call target rest later => exact .inr ⟨_, .resumed rest, rfl, later⟩
  · simp only at split
    subst split
    cases control with
    | running program =>
      cases program with
      | finish | act => exact .inr ⟨above, last, rfl, good⟩
      | call target rest =>
        refine .inr ⟨(host.enter target h).2.1.map .host ++ .resumed rest :: above, last, ?_, good⟩
        simp [Host.advance]
    | returning result =>
      cases above with
      | nil =>
        cases last with
        | resumed rest => exact .inl ⟨rfl, good result⟩
        | host frame => exact .inl ⟨rfl, leaves frame result h good⟩
      | cons frame above =>
        cases frame with
        | resumed | host => exact .inr ⟨above, last, rfl, good⟩

/-- What programs, calls and the host's own frames all keep. -/
structure Keeps (host : Host η σ ι α φ) (inv : η → Prop) : Prop where
  put : ∀ s h, inv h → inv (host.put s h)
  enter : ∀ target h, inv h → inv (host.enter target h).1
  leave : ∀ frame result h, inv h → inv (host.leave frame result h).1

theorem Keeps.advance {inv : η → Prop} (keeps : host.Keeps inv) (kept : inv first.1) :
    inv (host.advance first).1 := by
  obtain ⟨h, ⟨_ | _ | _⟩ | _, _ | ⟨_ | _, _⟩⟩ := first
  all_goals first
    | exact kept
    | exact keeps.put _ _ kept
    | exact keeps.enter _ _ kept
    | exact keeps.leave _ _ _ kept

end Host
