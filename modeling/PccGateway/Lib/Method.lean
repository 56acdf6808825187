import Mathlib.Data.List.Basic

/-- A method call on an object of type `σ`: it returns or raises, and what it changed before it raised
stays changed. -/
def Method (σ ε α : Type) : Type := σ → σ × Except ε α

namespace Method
variable {σ τ ε α β : Type}

instance : Monad (Method σ ε) where
  pure a := fun s => (s, .ok a)
  bind call next := fun s =>
    match call s with
    | (s', .ok a) => next a s'
    | (s', .error error) => (s', .error error)

def get : Method σ ε σ := fun s => (s, .ok s)

def modify (change : σ → σ) : Method σ ε Unit := fun s => (change s, .ok ())

def raise (error : ε) : Method σ ε α := fun s => (s, .error error)

/-- A computation that reads and changes nothing. -/
def lift (result : Except ε α) : Method σ ε α := fun s => (s, result)

/-- A call on a part of the object. -/
def on (part : σ → τ) (put : τ → σ → σ) (call : Method τ ε α) : Method σ ε α := fun s =>
  let (t, result) := call (part s)
  (put t s, result)

/-- `try: call; except Exception: cleanup; raise`. -/
def cleaning (call : Method σ ε α) (cleanup : Method σ ε Unit) : Method σ ε α := fun s =>
  match call s with
  | (s', .ok a) => (s', .ok a)
  | (s', .error error) =>
    match cleanup s' with
    | (s'', .ok ()) => (s'', .error error)
    | (s'', .error other) => (s'', .error other)

/-- `try: call; finally: cleanup`. -/
def finishing (call : Method σ ε α) (cleanup : Method σ ε Unit) : Method σ ε α := fun s =>
  match cleanup (call s).1 with
  | (s', .ok ()) => (s', (call s).2)
  | (s', .error error) => (s', .error error)

/-- Calls for one element after another, up to the first exception. -/
def each (call : α → Method σ ε Unit) : List α → Method σ ε Unit
  | [] => pure ()
  | a :: rest => do
    call a
    each call rest

@[simp] theorem pure_run (a : α) (s : σ) : (pure a : Method σ ε α) s = (s, .ok a) := rfl

@[simp] theorem get_run (s : σ) : (get : Method σ ε σ) s = (s, .ok s) := rfl

@[simp] theorem modify_run (change : σ → σ) (s : σ) :
    (modify change : Method σ ε Unit) s = (change s, .ok ()) := rfl

@[simp] theorem raise_run (error : ε) (s : σ) : (raise error : Method σ ε α) s = (s, .error error) := rfl

@[simp] theorem lift_run (result : Except ε α) (s : σ) : (lift result : Method σ ε α) s = (s, result) := rfl

theorem bind_run (call : Method σ ε α) (next : α → Method σ ε β) (s : σ) :
    (call >>= next) s =
      match call s with
      | (s', .ok a) => next a s'
      | (s', .error error) => (s', .error error) := rfl

theorem bind_assoc {γ : Type} (call : Method σ ε α) (next : α → Method σ ε β) (last : β → Method σ ε γ) :
    (call >>= next) >>= last = call >>= fun a => next a >>= last := by
  funext s
  simp only [bind_run]
  rcases call s with ⟨s', error | a⟩ <;> rfl

/-- A sequence returns exactly when both its parts do. -/
theorem bind_eq_ok_iff {call : Method σ ε α} {next : α → Method σ ε β} {s t : σ} {b : β} :
    (call >>= next) s = (t, .ok b) ↔ ∃ s' a, call s = (s', .ok a) ∧ next a s' = (t, .ok b) := by
  rw [bind_run]
  rcases call s with ⟨s', error | a⟩
  · simp
  · constructor
    · intro run
      exact ⟨s', a, rfl, run⟩
    · rintro ⟨s'', a', same, run⟩
      cases same
      exact run

theorem lift_eq_ok_iff {result : Except ε α} {s s' : σ} {a : α} :
    lift result s = (s', .ok a) ↔ s' = s ∧ result = .ok a := by
  rw [lift_run, Prod.mk.injEq, eq_comm (a := s)]

theorem on_eq_ok_iff {part : σ → τ} {put : τ → σ → σ} {call : Method τ ε α} {s s' : σ} {a : α} :
    on part put call s = (s', .ok a) ↔ ∃ t, call (part s) = (t, .ok a) ∧ s' = put t s := by
  unfold on
  constructor
  · intro run
    obtain ⟨rfl, result⟩ := Prod.mk.inj run
    exact ⟨(call (part s)).1, Prod.ext rfl result, rfl⟩
  · rintro ⟨t, run, rfl⟩
    simp [run]

theorem cleaning_eq_ok_iff {call : Method σ ε α} {cleanup : Method σ ε Unit} {s s' : σ} {a : α} :
    cleaning call cleanup s = (s', .ok a) ↔ call s = (s', .ok a) := by
  unfold cleaning
  split
  · rename_i run
    rw [run]
  · rename_i run
    rw [run]
    split <;> simp

/-- The part of the object that `view` shows is the same after the call, also when it raised. -/
def Leaves {ρ : Type} (view : σ → ρ) (call : Method σ ε α) : Prop := ∀ s, view (call s).1 = view s

namespace Leaves
variable {ρ : Type} {view : σ → ρ}

theorem pure (a : α) : Leaves view (Pure.pure a : Method σ ε α) := fun _ => rfl

theorem get : Leaves view (Method.get : Method σ ε σ) := fun _ => rfl

theorem raise (error : ε) : Leaves view (Method.raise error : Method σ ε α) := fun _ => rfl

theorem lift (result : Except ε α) : Leaves view (Method.lift result : Method σ ε α) := fun _ => rfl

theorem modify {change : σ → σ} (same : ∀ s, view (change s) = view s) :
    Leaves view (Method.modify change : Method σ ε Unit) := same

theorem on {part : σ → τ} {put : τ → σ → σ} (same : ∀ t s, view (put t s) = view s) (call : Method τ ε α) :
    Leaves view (Method.on part put call) := fun s => same _ s

theorem bind {call : Method σ ε α} {next : α → Method σ ε β} (first : Leaves view call)
    (second : ∀ a, Leaves view (next a)) : Leaves view (call >>= next) := by
  intro s
  have before := first s
  rw [bind_run]
  split
  · rename_i s' a run
    rw [run] at before
    exact (second a s').trans before
  · rename_i run
    rw [run] at before
    exact before

theorem cleaning {call : Method σ ε α} {cleanup : Method σ ε Unit} (first : Leaves view call)
    (second : Leaves view cleanup) : Leaves view (Method.cleaning call cleanup) := by
  intro s
  have before := first s
  unfold Method.cleaning
  split
  · rename_i run
    rw [run] at before
    exact before
  · rename_i s' error run
    rw [run] at before
    have after := second s'
    split <;> rename_i clean <;> rw [clean] at after <;> exact after.trans before

theorem finishing {call : Method σ ε α} {cleanup : Method σ ε Unit} (first : Leaves view call)
    (second : Leaves view cleanup) : Leaves view (Method.finishing call cleanup) := by
  intro s
  have after := (second (call s).1).trans (first s)
  unfold Method.finishing
  split <;> rename_i clean <;> rw [clean] at after <;> exact after

theorem ite {p : Prop} [Decidable p] {first second : Method σ ε α} (yes : Leaves view first)
    (no : Leaves view second) :
    Leaves view (if p then first else second) := by
  split
  · exact yes
  · exact no

theorem foldlM {call : β → α → Method σ ε β} (each : ∀ b a, Leaves view (call b a)) (items : List α)
    (start : β) :
    Leaves view (items.foldlM call start) := by
  induction items generalizing start with
  | nil => exact .pure start
  | cons item items ih => exact .bind (each start item) fun next => ih next

end Leaves

/-- The call, made on `s`, ends in `ok` if it returns and in `bad` if it raises. -/
def Ends (call : Method σ ε α) (s : σ) (ok : α → σ → Prop) (bad : ε → σ → Prop) : Prop :=
  match call s with
  | (s', .ok a) => ok a s'
  | (s', .error error) => bad error s'

section Ends
variable {s : σ} {ok : α → σ → Prop} {bad : ε → σ → Prop}

@[simp] theorem ends_pure (a : α) : Ends (pure a) s ok bad ↔ ok a s := Iff.rfl

@[simp] theorem ends_get {ok : σ → σ → Prop} : Ends get s ok bad ↔ ok s s := Iff.rfl

@[simp] theorem ends_modify {ok : Unit → σ → Prop} (change : σ → σ) :
    Ends (modify change) s ok bad ↔ ok () (change s) := Iff.rfl

@[simp] theorem ends_raise (error : ε) : Ends (raise error) s ok bad ↔ bad error s := Iff.rfl

@[simp] theorem ends_bind {call : Method σ ε β} {next : β → Method σ ε α} :
    Ends (call >>= next) s ok bad ↔ Ends call s (fun b s' => Ends (next b) s' ok bad) bad := by
  unfold Ends
  rw [bind_run]
  rcases call s with ⟨s', error | b⟩ <;> rfl

theorem ends_bind_run {call : Method σ ε β} {next : β → Method σ ε α} {s' : σ} {b : β}
    (run : call s = (s', .ok b)) :
    Ends (call >>= next) s ok bad ↔ Ends (next b) s' ok bad := by
  rw [ends_bind]
  unfold Ends
  rw [run]

theorem ends_on {part : σ → τ} {put : τ → σ → σ} {call : Method τ ε α} :
    Ends (on part put call) s ok bad ↔
      Ends call (part s) (fun a t => ok a (put t s)) (fun error t => bad error (put t s)) := by
  unfold Ends on
  rcases call (part s) with ⟨t, error | a⟩ <;> rfl

theorem Ends.mono {call : Method σ ε α} {ok' : α → σ → Prop} {bad' : ε → σ → Prop}
    (ends : Ends call s ok bad)
    (good : ∀ a s', ok a s' → ok' a s') (failed : ∀ error s', bad error s' → bad' error s') :
    Ends call s ok' bad' := by
  unfold Ends at *
  revert ends
  rcases call s with ⟨s', error | a⟩
  · exact failed error s'
  · exact good a s'

theorem Ends.returned {call : Method σ ε α} {s' : σ} {a : α} (ends : Ends call s ok bad)
    (returns : call s = (s', .ok a)) :
    ok a s' := by
  unfold Ends at ends
  rwa [returns] at ends

theorem Ends.raised {call : Method σ ε α} {s' : σ} {error : ε} (ends : Ends call s ok bad)
    (raises : call s = (s', .error error)) : bad error s' := by
  unfold Ends at ends
  rwa [raises] at ends

theorem Ends.and {call : Method σ ε α} {ok' : α → σ → Prop} {bad' : ε → σ → Prop}
    (ends : Ends call s ok bad) (also : Ends call s ok' bad') :
    Ends call s (fun a s' => ok a s' ∧ ok' a s') (fun error s' => bad error s' ∧ bad' error s') := by
  unfold Ends at *
  revert ends also
  rcases call s with ⟨s', error | a⟩ <;> exact And.intro

theorem Ends.ite {p : Prop} [Decidable p] {first second : Method σ ε α} (yes : p → Ends first s ok bad)
    (no : ¬ p → Ends second s ok bad) : Ends (if p then first else second) s ok bad := by
  split
  · exact yes ‹p›
  · exact no ‹¬ p›

/-- A loop over elements keeps what every pass keeps. -/
theorem ends_each {call : β → Method σ ε Unit} {inv : σ → Prop}
    (step : ∀ b s, inv s → Ends (call b) s (fun _ => inv) bad) (items : List β) (start : inv s) :
    Ends (each call items) s (fun _ => inv) bad := by
  induction items generalizing s with
  | nil => exact start
  | cons item items ih =>
    exact ends_bind.mpr ((step item s start).mono (fun _ _ => ih) fun _ _ raised => raised)

end Ends

/-- The call, made on `s`, returns, and leaves the object in `post`. -/
def Yields (call : Method σ ε α) (s : σ) (post : σ → Prop) : Prop :=
  Ends call s (fun _ => post) (fun _ _ => False)

theorem Yields.mono {call : Method σ ε α} {s : σ} {P Q : σ → Prop} (yields : Yields call s P)
    (weaker : ∀ s', P s' → Q s') : Yields call s Q :=
  Ends.mono yields (fun _ => weaker) fun _ _ => False.elim

theorem Yields.bind {call : Method σ ε β} {next : β → Method σ ε α} {s : σ} {P : σ → Prop}
    {ok : α → σ → Prop}
    {bad : ε → σ → Prop} (first : Yields call s P) (later : ∀ b s', P s' → Ends (next b) s' ok bad) :
    Ends (call >>= next) s ok bad :=
  ends_bind.mpr (Ends.mono first later fun _ _ => False.elim)

theorem Yields.ends {call : Method σ ε α} {s : σ} {P : σ → Prop} (yields : Yields call s P)
    {ok : α → σ → Prop} {bad : ε → σ → Prop} (good : ∀ a s', P s' → ok a s') : Ends call s ok bad :=
  Ends.mono yields good fun _ _ => False.elim

/-- Every call moves the object along `R`, whether it returns or raises. -/
def Evolves (R : σ → σ → Prop) (call : Method σ ε α) : Prop := ∀ s, R s (call s).1

theorem evolves_iff {R : σ → σ → Prop} {call : Method σ ε α} :
    Evolves R call ↔ ∀ s, Ends call s (fun _ s' => R s s') (fun _ s' => R s s') := by
  unfold Evolves Ends
  refine forall_congr' fun s => ?_
  rcases call s with ⟨s', error | a⟩ <;> rfl

/-- What held before holds after. -/
def Keeps (inv : σ → Prop) (before after : σ) : Prop := inv before → inv after

instance {inv : σ → Prop} : IsPreorder σ (Keeps inv) where
  refl := fun _ => id
  trans := fun _ _ _ before after holds => after (before holds)

theorem evolves_keeps_iff {inv : σ → Prop} {call : Method σ ε α} :
    Evolves (Keeps inv) call ↔ ∀ s, inv s → Ends call s (fun _ => inv) (fun _ => inv) := by
  unfold Evolves Keeps Ends
  refine forall_congr' fun s => ?_
  rcases call s with ⟨s', error | a⟩ <;> rfl

/-- The part of the object that `view` shows is the same. -/
def Fixes {ρ : Type} (view : σ → ρ) (before after : σ) : Prop := view after = view before

instance {ρ : Type} {view : σ → ρ} : IsPreorder σ (Fixes view) where
  refl := fun _ => rfl
  trans := fun _ _ _ before after => Eq.trans after before

theorem Evolves.ends {R : σ → σ → Prop} {call : Method σ ε α} (evolves : Evolves R call) {s : σ} :
    Ends call s (fun _ s' => R s s') (fun _ s' => R s s') := evolves_iff.mp evolves s

namespace Evolves
variable {R : σ → σ → Prop}

section Preorder
variable [IsPreorder σ R]

theorem pure (a : α) : Evolves R (Pure.pure a : Method σ ε α) := fun s => refl_of R s

theorem get : Evolves R (Method.get : Method σ ε σ) := fun s => refl_of R s

theorem raise (error : ε) : Evolves R (Method.raise error : Method σ ε α) := fun s => refl_of R s

theorem lift (result : Except ε α) : Evolves R (Method.lift result : Method σ ε α) := fun s => refl_of R s

theorem bind {call : Method σ ε β} {next : β → Method σ ε α} (first : Evolves R call)
    (second : ∀ b, Evolves R (next b)) : Evolves R (call >>= next) := by
  intro s
  have before := first s
  rw [bind_run]
  revert before
  rcases call s with ⟨s', error | b⟩
  · exact id
  · exact fun before => trans_of R before (second b s')

theorem foldlM {call : β → α → Method σ ε β} (each : ∀ b a, Evolves R (call b a)) (items : List α)
    (start : β) :
    Evolves R (items.foldlM call start) := by
  induction items generalizing start with
  | nil => exact .pure start
  | cons item items ih => exact .bind (each start item) fun next => ih next

end Preorder

theorem modify {change : σ → σ} (step : ∀ s, R s (change s)) :
    Evolves R (Method.modify change : Method σ ε Unit) :=
  step

theorem ite {p : Prop} [Decidable p] {first second : Method σ ε α} (yes : Evolves R first)
    (no : Evolves R second) :
    Evolves R (if p then first else second) := by
  split
  · exact yes
  · exact no

theorem mono {S : σ → σ → Prop} {call : Method σ ε α} (evolves : Evolves R call)
    (weaker : ∀ s t, R s t → S s t) :
    Evolves S call := fun s => weaker s _ (evolves s)

end Evolves

end Method
