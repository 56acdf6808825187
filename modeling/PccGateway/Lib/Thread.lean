import PccGateway.Lib.Method

/-- Why a thread does not return: an exception left it, it waits for an event that only it could
set, or it is still running when the observation ends. -/
inductive Halt (ε : Type) where
  | raised (error : ε)
  | parked
  | unfinished
  deriving DecidableEq, Repr

/-- The code of a virtual thread that owns an object of type `σ`. -/
abbrev Thread (σ ε α : Type) : Type := Method σ (Halt ε) α

namespace Thread
variable {σ τ ε α β : Type}

def raise (error : ε) : Thread σ ε α := Method.raise (.raised error)

/-- A call that does not wait. -/
def call (method : Method σ ε α) : Thread σ ε α := fun s =>
  match method s with
  | (s', .ok a) => (s', .ok a)
  | (s', .error error) => (s', .error (.raised error))

/-- `try: body; except Exception as error`: the exception is a value from here on. A thread that
waits or runs does not get here. -/
def attempt (body : Thread σ ε α) : Thread σ ε (Except ε α) := fun s =>
  match body s with
  | (s', .ok a) => (s', .ok (.ok a))
  | (s', .error (.raised error)) => (s', .ok (.error error))
  | (s', .error .parked) => (s', .error .parked)
  | (s', .error .unfinished) => (s', .error .unfinished)

def reraise : Except ε α → Thread σ ε α
  | .ok a => pure a
  | .error error => raise error

/-- `try: body; finally: cleanup`. -/
def ensuring (body : Thread σ ε α) (cleanup : Thread σ ε Unit) : Thread σ ε α := do
  let outcome ← attempt body
  cleanup
  reraise outcome

/-- Cleanups one after another. An exception of one does not keep the others from running; the first
one is the result. -/
def settle : List (Thread σ ε Unit) → Thread σ ε (Option ε)
  | [] => pure none
  | step :: rest => do
    let outcome ← attempt step
    let later ← settle rest
    match outcome with
    | .error error => return some error
    | .ok () => return later

/-- `if first_error is not None: raise first_error`. -/
def raiseFirst : Option ε → Thread σ ε Unit
  | none => pure ()
  | some error => raise error

/-- An `if` without an `else`. -/
def when (condition : Prop) [Decidable condition] (body : Thread σ ε Unit) : Thread σ ε Unit :=
  if condition then body else pure ()

/-- `if value is not None`. -/
def forSome (value : Option α) (body : α → Thread σ ε Unit) : Thread σ ε Unit :=
  match value with
  | none => pure ()
  | some a => body a

/-- How one pass of a loop ends. -/
inductive Pass (β α : Type) where
  | again (state : β)
  | done (result : α)

/-- A loop, up to `fuel` passes. What a pass hands on to the next one is `β`. -/
def loop (pass : β → Thread σ ε (Pass β α)) : Nat → β → Thread σ ε α
  | 0, _ => Method.raise .unfinished
  | fuel + 1, state => do
    match ← pass state with
    | .again next => loop pass fuel next
    | .done result => return result

open Method (Ends Evolves)

section Ends
variable {s : σ} {ok : α → σ → Prop} {bad : Halt ε → σ → Prop}

@[simp] theorem ends_raise (error : ε) : Ends (raise error) s ok bad ↔ bad (.raised error) s := Iff.rfl

@[simp] theorem ends_call {method : Method σ ε α} :
    Ends (call method) s ok bad ↔ Ends method s ok (fun error => bad (.raised error)) := by
  unfold Ends call
  rcases method s with ⟨s', error | a⟩ <;> rfl

/-- What is caught is a value; a thread that waits or runs on is not stopped. -/
@[simp] theorem ends_attempt {body : Thread σ ε β} {ok : Except ε β → σ → Prop} :
    Ends (attempt body) s ok bad ↔ Ends body s (fun b s' => ok (.ok b) s') (fun halt s' =>
      match halt with
      | .raised error => ok (.error error) s'
      | .parked => bad .parked s'
      | .unfinished => bad .unfinished s') := by
  unfold Ends attempt
  rcases body s with ⟨s', (error | _ | _) | b⟩ <;> rfl

theorem ends_reraise {result : Except ε α} (returned : ∀ a, result = .ok a → ok a s)
    (raised : ∀ error, bad (.raised error) s) : Ends (reraise result) s ok bad := by
  cases result with
  | ok a => exact returned a rfl
  | error error => exact raised error

theorem ends_when {ok : Unit → σ → Prop} {condition : Prop} [Decidable condition] {body : Thread σ ε Unit}
    (yes : condition → Ends body s ok bad) (no : ¬ condition → ok () s) :
    Ends (when condition body) s ok bad :=
  Ends.ite yes no

/-- A loop keeps `inv` from pass to pass. Its state is handed on, its result leaves it, and it may still
be running at the end. -/
theorem ends_loop {pass : β → Thread σ ε (Pass β α)} {inv : β → σ → Prop}
    (step : ∀ state s, inv state s → Ends (pass state) s (fun next s' =>
      match next with
      | .again state' => inv state' s'
      | .done result => ok result s') bad)
    (running : ∀ state s, inv state s → bad .unfinished s) {fuel : Nat} {state : β} (start : inv state s) :
    Ends (loop pass fuel state) s ok bad := by
  induction fuel generalizing state s with
  | zero => exact running state s start
  | succ fuel ih =>
    unfold loop
    rw [Method.ends_bind]
    refine (step state s start).mono (fun next s' outcome => ?_) fun _ _ failed => failed
    cases next with
    | again state' => exact ih outcome
    | done result => exact outcome

/-- One cleanup and then the others, also when it raised. -/
theorem ends_settle_cons {step : Thread σ ε Unit} {rest : List (Thread σ ε Unit)} {ok : Option ε → σ → Prop}
    (first : Ends step s (fun _ s' => Ends (settle rest) s' ok bad) (fun halt s' =>
      match halt with
      | .raised error => Ends (settle rest) s' (fun _ => ok (some error)) bad
      | .parked => bad .parked s'
      | .unfinished => bad .unfinished s')) : Ends (settle (step :: rest)) s ok bad := by
  simp only [settle, Method.ends_bind, ends_attempt]
  refine first.mono (fun _ s' later => later) fun halt s' later => ?_
  cases halt with
  | raised error => exact later
  | parked => exact later
  | unfinished => exact later

theorem yields_settle_nil {P : σ → Prop} (holds : P s) :
    Method.Yields (settle [] : Thread σ ε (Option ε)) s P := holds

theorem yields_settle_cons {step : Thread σ ε Unit} {rest : List (Thread σ ε Unit)} {P : σ → Prop}
    {ok : Option ε → σ → Prop} (first : Method.Yields step s P)
    (later : ∀ s', P s' → Ends (settle rest) s' ok bad) :
    Ends (settle (step :: rest)) s ok bad :=
  ends_settle_cons (first.ends fun _ => later)

/-- No exception leaves a row of cleanups. -/
theorem ends_settle_caught (steps : List (Thread σ ε Unit)) (s : σ) :
    Ends (settle steps) s (fun _ _ => True) (fun halt _ => ∀ error, halt ≠ .raised error) := by
  induction steps generalizing s with
  | nil => trivial
  | cons step rest ih =>
    refine ends_settle_cons ?_
    unfold Ends
    rcases step s with ⟨s', (error | _ | _) | _⟩
    · exact ih s'
    · exact fun _ => nofun
    · exact fun _ => nofun
    · exact ih s'

/-- When the call, made on `s`, is over, `post` holds, whether it returned or raised. -/
def Concludes (call : Thread σ ε α) (s : σ) (post : σ → Prop) : Prop :=
  Ends call s (fun _ => post) (fun halt s' => ∀ error, halt = .raised error → post s')

theorem concludes_settle_nil {post : σ → Prop} (holds : post s) :
    Concludes (settle [] : Thread σ ε (Option ε)) s post := holds

/-- One cleanup, and then the others. -/
theorem concludes_settle_cons {step : Thread σ ε Unit} {rest : List (Thread σ ε Unit)} {P Q : σ → Prop}
    (first : Concludes step s P) (later : ∀ s', P s' → Concludes (settle rest) s' Q) :
    Concludes (settle (step :: rest)) s Q := by
  refine ends_settle_cons (first.mono (fun _ s' moved => later s' moved) fun halt s' moved => ?_)
  cases halt with
  | raised error => exact later s' (moved error rfl)
  | parked => exact fun _ => nofun
  | unfinished => exact fun _ => nofun

theorem concludes_bind {call : Thread σ ε β} {next : β → Thread σ ε α} {Q : σ → Prop} :
    Concludes (call >>= next) s Q ↔ Ends call s (fun b s' => Concludes (next b) s' Q)
      (fun halt s' => ∀ error, halt = .raised error → Q s') := Method.ends_bind

theorem Concludes.mono {call : Thread σ ε α} {P Q : σ → Prop} (concludes : Concludes call s P)
    (weaker : ∀ s', P s' → Q s') : Concludes call s Q :=
  Ends.mono concludes (fun _ s' => weaker s') fun _ s' holds error raised => weaker s' (holds error raised)

theorem Concludes.returned {call : Thread σ ε α} {post : σ → Prop} (concludes : Concludes call s post)
    (ok : (call s).2.isOk = true) : post (call s).1 := by
  unfold Concludes Ends at concludes
  revert concludes ok
  rcases call s with ⟨s', halt | a⟩
  · exact nofun
  · exact fun holds _ => holds

/-- Behind a row of cleanups nothing else can have raised. -/
theorem concludes_settle_bind {steps : List (Thread σ ε Unit)} {next : Option ε → Thread σ ε α}
    {P Q : σ → Prop}
    (first : Concludes (settle steps) s P) (later : ∀ error s', P s' → Concludes (next error) s' Q) :
    Concludes (settle steps >>= next) s Q := by
  rw [concludes_bind]
  refine (Ends.and first (ends_settle_caught steps s)).mono (fun error s' reached =>
    later error s' reached.1) ?_
  exact fun halt s' reached error isRaised => absurd isRaised (reached.2 error)

/-- The call, made on `s`, ends in `post` if it returns or raises, and stops in `cut` if it does not end. -/
def Settles (call : Thread σ ε α) (s : σ) (post cut : σ → Prop) : Prop :=
  Ends call s (fun _ => post) (fun halt s' =>
    match halt with
    | .raised _ => post s'
    | .parked => cut s'
    | .unfinished => cut s')

theorem Settles.mono {call : Thread σ ε α} {post post' cut cut' : σ → Prop}
    (settles : Settles call s post cut)
    (isOver : ∀ s', post s' → post' s') (stopped : ∀ s', cut s' → cut' s') : Settles call s post' cut' := by
  refine Ends.mono settles (fun _ s' => isOver s') fun halt s' reached => ?_
  cases halt with
  | raised error => exact isOver s' reached
  | parked | unfinished => exact stopped s' reached

/-- What returns goes on, and what raises or stops ends here. -/
theorem Settles.bind {call : Thread σ ε β} {next : β → Thread σ ε α} {post mid cut : σ → Prop}
    (first : Settles call s mid cut)
    (raises : ∀ s', mid s' → post s') (later : ∀ b s', mid s' → Settles (next b) s' post cut) :
    Settles (call >>= next) s post cut := by
  refine Method.ends_bind.mpr (Ends.mono first later fun halt s' reached => ?_)
  cases halt with
  | raised error => exact raises s' reached
  | parked | unfinished => exact reached

/-- What is caught goes on as well. -/
theorem Settles.attempt {body : Thread σ ε β} {next : Except ε β → Thread σ ε α}
    {post mid cut : σ → Prop} (first : Settles body s mid cut)
    (later : ∀ b s', mid s' → Settles (next b) s' post cut) :
    Settles (Thread.attempt body >>= next) s post cut := by
  refine Method.ends_bind.mpr
    (ends_attempt.mpr (Ends.mono first (fun b s' => later (.ok b) s') fun halt s' reached => ?_))
  cases halt with
  | raised error => exact later (.error error) s' reached
  | parked | unfinished => exact reached

/-- Cleanups that each keep `inv`. -/
theorem settles_settle {inv cut : σ → Prop} {steps : List (Thread σ ε Unit)}
    (each : ∀ step ∈ steps, ∀ s, inv s → Settles step s inv cut) (start : inv s) :
    Settles (settle steps) s inv cut := by
  induction steps generalizing s with
  | nil => exact start
  | cons step rest ih =>
    refine Settles.attempt (each step List.mem_cons_self s start) fun outcome s' holds => ?_
    refine Settles.bind (ih (fun step member => each step (List.mem_cons_of_mem _ member)) holds)
      (fun _ holds => holds) fun error s' holds => ?_
    cases outcome <;> exact holds

end Ends

/-- A call that comes back: it returns or raises, and never waits. -/
def Prompt (call : Thread σ ε α) : Prop :=
  ∀ s, Ends call s (fun _ _ => True) (fun halt _ => ∃ error, halt = .raised error)

namespace Prompt

theorem pure (a : α) : Prompt (Pure.pure a : Thread σ ε α) := fun _ => trivial

theorem get : Prompt (Method.get : Thread σ ε σ) := fun _ => trivial

theorem modify (change : σ → σ) : Prompt (Method.modify change : Thread σ ε Unit) := fun _ => trivial

theorem raise (error : ε) : Prompt (Thread.raise error : Thread σ ε α) := fun _ => ⟨error, rfl⟩

theorem reraise (result : Except ε α) : Prompt (Thread.reraise result : Thread σ ε α) := by
  cases result with
  | ok a => exact .pure a
  | error error => exact .raise error

theorem call (method : Method σ ε α) : Prompt (Thread.call method) := fun s => by
  rw [ends_call]
  unfold Ends
  rcases method s with ⟨s', error | a⟩
  · exact ⟨error, rfl⟩
  · trivial

theorem bind {call : Thread σ ε β} {next : β → Thread σ ε α} (first : Prompt call)
    (second : ∀ b, Prompt (next b)) :
    Prompt (call >>= next) := fun s =>
  Method.ends_bind.mpr ((first s).mono (fun b s' _ => second b s') fun _ _ raised => raised)

theorem ite {p : Prop} [Decidable p] {first second : Thread σ ε α} (yes : Prompt first)
    (no : Prompt second) :
    Prompt (if p then first else second) := by
  split
  · exact yes
  · exact no

theorem when {condition : Prop} [Decidable condition] {body : Thread σ ε Unit} (prompt : Prompt body) :
    Prompt (Thread.when condition body) := .ite prompt (.pure ())

/-- What comes back is caught when it raised. -/
theorem attempt {body : Thread σ ε β} {ok : Except ε β → σ → Prop} {bad : Halt ε → σ → Prop} {s : σ}
    (prompt : Prompt body)
    (ends : Ends body s (fun b s' => ok (.ok b) s')
      (fun halt s' => ∀ error, halt = .raised error → ok (.error error) s')) :
    Ends (Thread.attempt body) s ok bad := by
  rw [ends_attempt]
  refine (ends.and (prompt s)).mono (fun _ _ both => both.1) fun halt s' both => ?_
  obtain ⟨caught, error, rfl⟩ := both
  exact caught error rfl

theorem attempted {body : Thread σ ε β} (prompt : Prompt body) : Prompt (Thread.attempt body) := fun _ =>
  attempt prompt (Ends.mono (prompt _) (fun _ _ _ => trivial) fun _ _ _ _ _ => trivial)

theorem settle {steps : List (Thread σ ε Unit)} (prompt : ∀ step ∈ steps, Prompt step) (s : σ) :
    Method.Yields (Thread.settle steps) s (fun _ => True) := by
  induction steps generalizing s with
  | nil => trivial
  | cons step rest ih =>
    have later (s' : σ) := ih (fun other member => prompt other (List.mem_cons_of_mem _ member)) s'
    refine ends_settle_cons
      ((prompt step List.mem_cons_self s).mono (fun _ s' _ => later s') fun halt s' raised => ?_)
    obtain ⟨error, rfl⟩ := raised
    exact later s'

end Prompt

end Thread

namespace Method.Evolves
variable {σ ε α β : Type} {R : σ → σ → Prop}

/-- What keeps `inv` everywhere keeps it also where it stops. -/
theorem settles {inv cut : σ → Prop} {call : Thread σ ε α} (evolves : Evolves (Method.Keeps inv) call)
    {s : σ} (holds : inv s) (weaker : ∀ s', inv s' → cut s') : Thread.Settles call s inv cut := by
  refine (Method.evolves_keeps_iff.mp evolves s holds).mono (fun _ _ kept => kept) fun halt s' kept => ?_
  cases halt with
  | raised error => exact kept
  | parked | unfinished => exact weaker s' kept

theorem concludes {call : Thread σ ε α} (evolves : Evolves R call) {s : σ} :
    Thread.Concludes call s (R s) :=
  evolves.ends.mono (fun _ _ moved => moved) fun _ _ moved _ _ => moved

theorem call {method : Method σ ε α} (evolves : Evolves R method) : Evolves R (Thread.call method) := by
  intro s
  have step := evolves s
  unfold Thread.call
  revert step
  rcases method s with ⟨s', error | a⟩ <;> exact id

theorem attempt {body : Thread σ ε α} (evolves : Evolves R body) : Evolves R (Thread.attempt body) := by
  intro s
  have step := evolves s
  unfold Thread.attempt
  revert step
  rcases body s with ⟨s', (error | _ | _) | a⟩ <;> exact id

section Preorder
variable [IsPreorder σ R]

theorem reraise (result : Except ε α) : Evolves R (Thread.reraise result : Thread σ ε α) := by
  cases result with
  | ok a => exact .pure a
  | error error => exact .raise _

theorem raiseFirst (first : Option ε) : Evolves R (Thread.raiseFirst first : Thread σ ε Unit) := by
  cases first with
  | none => exact .pure ()
  | some error => exact .raise _

theorem when {condition : Prop} [Decidable condition] {body : Thread σ ε Unit} (evolves : Evolves R body) :
    Evolves R (Thread.when condition body) := .ite evolves (.pure ())

theorem forSome {value : Option α} {body : α → Thread σ ε Unit} (evolves : ∀ a, Evolves R (body a)) :
    Evolves R (Thread.forSome value body) := by
  cases value with
  | none => exact .pure ()
  | some a => exact evolves a

theorem ensuring {body : Thread σ ε α} {cleanup : Thread σ ε Unit} (first : Evolves R body)
    (second : Evolves R cleanup) : Evolves R (Thread.ensuring body cleanup) :=
  .bind (attempt first) fun outcome => .bind second fun _ => reraise outcome

theorem settle_nil : Evolves R (Thread.settle [] : Thread σ ε (Option ε)) := .pure none

theorem settle_cons {step : Thread σ ε Unit} {rest : List (Thread σ ε Unit)} (first : Evolves R step)
    (later : Evolves R (Thread.settle rest)) : Evolves R (Thread.settle (step :: rest)) := by
  refine .bind (attempt first) fun outcome => .bind later fun error => ?_
  cases outcome <;> exact .pure _

theorem loop {pass : β → Thread σ ε (Thread.Pass β α)} (evolves : ∀ state, Evolves R (pass state))
    (fuel : Nat) (state : β) : Evolves R (Thread.loop pass fuel state) := by
  induction fuel generalizing state with
  | zero => exact .raise _
  | succ fuel ih =>
    refine .bind (evolves state) fun next => ?_
    cases next with
    | again state' => exact ih state'
    | done result => exact .pure result

end Preorder
end Method.Evolves
