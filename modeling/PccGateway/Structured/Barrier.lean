import PccGateway.Structured.ScopeCalls

namespace PccGateway
open Method

variable {Child World ε Value : Type} {threads : VirtualThreads Child World ε Value}

/-- The scope in `s`, behind the calls of `history`. -/
structure ScopeInv (threads : VirtualThreads Child World ε Value)
    (history : List (ScopeEntry Child World ε Value)) (s : ScopeState Child World ε) : Prop where
  joined : s.scope.joined = history.any ScopeEntry.barrier
  closed : s.scope.closed = history.any ScopeEntry.isClose
  healthy : history.any ScopeEntry.barrier = false → s.scope.failure = none
  children : history.any ScopeEntry.barrier = false → s.scope.children = forkedChildren history
  ended : history.any ScopeEntry.barrier = true → ∀ child ∈ forkedChildren history,
    threads.terminal child s.world

namespace ScopeInv
variable {history : List (ScopeEntry Child World ε Value)} {s t : ScopeState Child World ε}

theorem fresh (name : String) (world : World) :
    ScopeInv threads [] (ScopeState.fresh name world : ScopeState Child World ε) :=
  ⟨rfl, rfl, fun _ => rfl, fun _ => rfl, by simp⟩

theorem elapsed (inv : ScopeInv threads history s) (elapsed : Elapsed threads s t) :
    ScopeInv threads history t := by
  obtain ⟨same, kept⟩ := elapsed
  have scope : t.scope = s.scope := by rw [same]
  refine ⟨scope ▸ inv.joined, scope ▸ inv.closed, scope ▸ inv.healthy, scope ▸ inv.children, ?_⟩
  exact fun barred child member => kept child (inv.ended barred child member)

theorem barrier_of_isClose (closed : history.any ScopeEntry.isClose = true) :
    history.any ScopeEntry.barrier = true := by
  rw [List.any_eq_true] at closed ⊢
  obtain ⟨entry, member, close⟩ := closed
  refine ⟨entry, member, ?_⟩
  unfold ScopeEntry.isClose at close
  unfold ScopeEntry.barrier
  split at close <;> simp_all

theorem step {entry : ScopeEntry Child World ε Value} (inv : ScopeInv threads history entry.before)
    (effect : entry.Effect threads) : ScopeInv threads (history ++ [entry]) entry.after := by
  obtain ⟨call, before, after, reply⟩ := entry
  obtain ⟨joined, closed, healthy, children, ended⟩ := inv
  dsimp only at joined closed healthy children ended ⊢
  have closedJoined : before.scope.closed = true → before.scope.joined = true := fun shut => by
    rw [joined]
    exact barrier_of_isClose (closed ▸ shut)
  cases call with
  | fork child =>
    simp only [ScopeEntry.Effect] at effect
    split at effect
    · rename_i barred
      obtain ⟨scope, ending, kept⟩ := effect
      have barrier : history.any ScopeEntry.barrier = true := joined ▸ barred.elim closedJoined id
      refine ⟨by simpa [ScopeEntry.barrier, scope] using joined,
        by simpa [ScopeEntry.isClose, scope] using closed, ?_, ?_, ?_⟩
      · simp [barrier]
      · simp [barrier]
      · intro _ other member
        simp only [forkedChildren, List.filterMap_append, List.mem_append] at member
        rcases member with member | member
        · exact kept other (ended barrier other member)
        · obtain rfl : other = child := by simpa [ScopeEntry.forked] using member
          exact ending
    · rename_i opened
      simp only [not_or, Bool.not_eq_true] at opened
      have barrier : history.any ScopeEntry.barrier = false := joined ▸ opened.2
      subst effect
      refine ⟨by simpa [ScopeEntry.barrier] using joined, by simpa [ScopeEntry.isClose] using closed,
        ?_, ?_, ?_⟩
      · exact fun _ => healthy barrier
      · intro _
        rw [forkedChildren, List.filterMap_append, ← forkedChildren, ← children barrier]
        rfl
      · simp [barrier, ScopeEntry.barrier]
  | join =>
    have forked : forkedChildren (history ++ [⟨.join, before, after, reply⟩]) = forkedChildren history := by
      simp [forkedChildren, ScopeEntry.forked]
    simp only [ScopeEntry.Effect] at effect
    split at effect
    · rename_i barred
      obtain ⟨rfl, _⟩ := effect
      refine ⟨by simpa [ScopeEntry.barrier] using barred, by simpa [ScopeEntry.isClose] using closed,
        ?_, ?_, ?_⟩
      · simp [ScopeEntry.barrier]
      · simp [ScopeEntry.barrier]
      · rw [forked]
        exact fun _ => ended (joined ▸ barred)
    · rename_i opened
      obtain ⟨failure, ⟨_, ending, scope, _⟩, _⟩ := effect
      refine ⟨by simp [ScopeEntry.barrier, scope], by simpa [ScopeEntry.isClose, scope] using closed,
        ?_, ?_, ?_⟩
      · simp [ScopeEntry.barrier]
      · simp [ScopeEntry.barrier]
      · rw [forked, ← children (by rw [← joined]; simpa using opened)]
        exact fun _ => ending
  | close reason =>
    have forked : forkedChildren (history ++ [⟨.close reason, before, after, reply⟩]) =
        forkedChildren history := by
      simp [forkedChildren, ScopeEntry.forked]
    simp only [ScopeEntry.Effect] at effect
    obtain ⟨_, effect⟩ := effect
    refine ⟨?_, ?_, by simp [ScopeEntry.barrier], by simp [ScopeEntry.barrier], ?_⟩
    · simp only [List.any_append, List.any_cons, ScopeEntry.barrier, Bool.true_or, Bool.or_true]
      split at effect
      · rename_i shut
        exact effect ▸ closedJoined shut
      · split at effect
        · rename_i barred
          rw [effect]
          exact barred
        · rw [effect.1]
    · simp only [List.any_append, List.any_cons, ScopeEntry.isClose, Bool.true_or, Bool.or_true]
      split at effect
      · rename_i shut
        exact effect ▸ shut
      · split at effect
        · rw [effect]
        · rw [effect.1]
    · rw [forked]
      intro _
      split at effect
      · rename_i shut
        rw [effect]
        exact ended (joined ▸ closedJoined shut)
      · split at effect
        · rename_i barred
          rw [effect]
          exact ended (joined ▸ barred)
        · rename_i opened
          rw [← children (by rw [← joined]; simpa using opened)]
          exact effect.2.2
  | result child =>
    obtain ⟨same, _⟩ := effect
    dsimp only at same
    subst same
    have forked : forkedChildren (history ++ [⟨.result child, after, after, reply⟩]) =
        forkedChildren history := by
      simp [forkedChildren, ScopeEntry.forked]
    refine ⟨by simpa [ScopeEntry.barrier] using joined, by simpa [ScopeEntry.isClose] using closed,
      by simpa [ScopeEntry.barrier] using healthy, ?_, ?_⟩ <;> rw [forked]
    · simpa [ScopeEntry.barrier] using children
    · simpa [ScopeEntry.barrier] using ended

theorem not_joined_healthy (inv : ScopeInv threads history s) :
    s.scope.joined = false → s.scope.failure = none :=
  fun opened => inv.healthy (inv.joined ▸ opened)

/-- The state that a call finds, and the calls from it on. -/
theorem reached (lawful : threads.Lawful) {before rest : List (ScopeEntry Child World ε Value)}
    (inv : ScopeInv threads history s) (calls : Calls threads s (before ++ rest)) :
    ∃ t, ScopeInv threads (history ++ before) t ∧ Calls threads t rest := by
  induction before generalizing history s with
  | nil => exact ⟨s, by simpa using inv, calls⟩
  | cons entry before ih =>
    obtain ⟨between, ran, later⟩ := calls
    have found := inv.elapsed between
    obtain ⟨t, last, rest⟩ := ih (found.step (ScopeEntry.effect lawful found.not_joined_healthy ran)) later
    exact ⟨t, by simpa using last, rest⟩

end ScopeInv

/-- Behind a `join` or a `close` the failure of the scope is settled. -/
theorem Calls.failure_settled (lawful : threads.Lawful) {s : ScopeState Child World ε}
    {later : List (ScopeEntry Child World ε Value)}
    (calls : Calls threads s later) (joined : s.scope.joined = true) :
    ∀ entry ∈ later, entry.call = .join → entry.reply = match s.scope.failure with
      | some error => .error (.child error)
      | none => .ok .done := by
  induction later generalizing s with
  | nil => simp
  | cons entry later ih =>
    obtain ⟨⟨same, _⟩, ran, calls⟩ := calls
    have scope : entry.before.scope = s.scope := by rw [same]
    have effect := ScopeEntry.effect lawful (by simp [scope, joined]) ran
    obtain ⟨call, before, after, reply⟩ := entry
    dsimp only at scope calls
    have kept : after.scope.joined = true ∧ after.scope.failure = s.scope.failure := by
      cases call with
      | fork child =>
        simp only [ScopeEntry.Effect, scope, joined, or_true, if_true] at effect
        rw [effect.1]
        exact ⟨joined, rfl⟩
      | join =>
        simp only [ScopeEntry.Effect, scope, joined, if_true] at effect
        rw [effect.1, scope]
        exact ⟨joined, rfl⟩
      | close reason =>
        simp only [ScopeEntry.Effect, scope, joined, if_true] at effect
        obtain ⟨_, effect⟩ := effect
        split at effect <;> rw [effect]
        · rw [scope]
          exact ⟨joined, rfl⟩
        · exact ⟨rfl, rfl⟩
      | result child =>
        simp only [ScopeEntry.Effect] at effect
        rw [effect.1, scope]
        exact ⟨joined, rfl⟩
    intro other member made
    rcases List.mem_cons.mp member with rfl | member
    · dsimp only at made
      subst made
      simp only [ScopeEntry.Effect, scope, joined, if_true] at effect
      exact effect.2
    · have := ih calls kept.1 other member made
      rwa [kept.2] at this

/-- No child outlives its scope. `entry` is a call that came back, behind those of `before` and
before those of `after`. Behind a `join` or a `close` every thread passed to `fork` has ended. A
`join` that is the first of these two reports the first child in fork order that failed, retires the
children behind it, and is repeated by every later `join`; when a `close` is the first, what its
children raise is dropped. What is assumed of the threads is that they are lawful: a `join` that
came back, with a value or an exception, has ended its thread, and a thread that has ended stays so.
They may raise what they like. A call that does not come back is not spoken of, nor is what follows
it. -/
theorem task_scope_barrier (lawful : threads.Lawful) {name : String} {world : World}
    {before after : List (ScopeEntry Child World ε Value)} {entry : ScopeEntry Child World ε Value}
    (run : Calls threads (.fresh name world) (before ++ entry :: after)) :
    (entry.barrier = true → ∀ child ∈ forkedChildren before, threads.terminal child entry.after.world) ∧
    (entry.call = .join → before.any ScopeEntry.barrier = false →
      (entry.after.calls = entry.before.calls ++ returned (forkedChildren before) ∧
        entry.reply = .ok .done ∧ ∀ later ∈ after, later.call = .join → later.reply = .ok .done) ∨
      ∃ done failed rest error retired, forkedChildren before = done ++ failed :: rest ∧
      Retired rest retired ∧
        entry.after.calls = entry.before.calls ++ returned done ++ [.join failed (.error error)] ++
          retired ∧ entry.reply = .error (.child error) ∧
        ∀ later ∈ after, later.call = .join → later.reply = .error (.child error)) ∧
    (∀ child reply, entry.call = .result child → entry.reply = .ok reply →
      before.any ScopeEntry.barrier = true) ∧ (entry.isClose = true → entry.reply = .ok .done ∧
      (before.any ScopeEntry.isClose = true → entry.after = entry.before) ∧
      (before.any ScopeEntry.barrier = true → entry.after.calls = entry.before.calls) ∧
      (before.any ScopeEntry.barrier = false → ∀ later ∈ after, later.call = .join →
        later.reply = .ok .done)) := by
  obtain ⟨s, inv, between, ran, calls⟩ := ScopeInv.reached lawful (.fresh name world) run
  rw [List.nil_append] at inv
  replace inv := inv.elapsed between
  have effect := ScopeEntry.effect lawful inv.not_joined_healthy ran
  have reached := inv.step effect
  obtain ⟨call, found, left, reply⟩ := entry
  dsimp only at inv reached calls ⊢
  refine ⟨?_, ?_, ?_, ?_⟩
  · intro barrier child member
    refine reached.ended (by simp [barrier]) child ?_
    simp only [forkedChildren, List.filterMap_append, List.mem_append]
    exact .inl member
  · rintro rfl first
    have notJoined : ¬ found.scope.joined = true := by simp [inv.joined, first]
    simp only [ScopeEntry.Effect, if_neg notJoined] at effect
    obtain ⟨failure, ⟨_, _, scope, made⟩, rfl⟩ := effect
    have settled := calls.failure_settled lawful (by rw [scope])
    rw [scope] at settled
    rw [inv.children first] at made
    cases failure with
    | none => exact .inl ⟨made, rfl, settled⟩
    | some error =>
      obtain ⟨done, failed, rest, retired, split, retiring, made⟩ := made
      exact .inr ⟨done, failed, rest, error, retired, split, retiring, made, rfl, settled⟩
  · rintro child value rfl rfl
    rw [← inv.joined]
    by_contra early
    obtain ⟨_, refused⟩ := effect
    obtain ⟨message, impossible⟩ := refused (by simpa using early)
    simp at impossible
  · intro close
    cases call with
    | close reason =>
      obtain ⟨rfl, effect⟩ := effect
      dsimp only at effect
      refine ⟨rfl, ?_, ?_, ?_⟩
      · intro shut
        rwa [if_pos (inv.closed.trans shut)] at effect
      · intro barred
        rw [if_pos (inv.joined.trans barred)] at effect
        split at effect <;> rw [effect]
      · intro first
        have shut : ¬ found.scope.closed = true := fun shut => by
          rw [inv.closed] at shut
          simp [ScopeInv.barrier_of_isClose shut] at first
        rw [if_neg shut, if_neg (by simp [inv.joined, first])] at effect
        have settled := calls.failure_settled lawful (by rw [effect.1])
        rwa [effect.1, inv.healthy first] at settled
    | fork => cases close
    | join => cases close
    | result => cases close

/-- The entries of `calls`, one after another, up to one that does not come back. -/
def play (threads : VirtualThreads Child World ε Value) :
    ScopeState Child World ε → List (ScopeCall Child) → List (ScopeEntry Child World ε Value)
  | _, [] => []
  | s, call :: calls =>
    match call.perform threads s with
    | (t, .ok reply) => ⟨call, s, t, .ok reply⟩ :: play threads t calls
    | (t, .error (.raised error)) => ⟨call, s, t, .error error⟩ :: play threads t calls
    | (_, .error _) => []

theorem calls_play (s : ScopeState Child World ε) (calls : List (ScopeCall Child)) :
    Calls threads s (play threads s calls) := by
  induction calls generalizing s with
  | nil => trivial
  | cons call calls ih =>
    unfold play
    split
    · rename_i t reply run
      exact ⟨⟨rfl, fun _ => id⟩, run, ih t⟩
    · rename_i t error run
      exact ⟨⟨rfl, fun _ => id⟩, run, ih t⟩
    · trivial

/-- Threads that end when they are joined: 1 raises, the others return unless they were cancelled. The
world lists the threads that were cancelled and those that have ended. -/
def sampleThreads : VirtualThreads Nat (List Nat × List Nat) String Unit where
  terminal child world := child ∈ world.2
  cancel child world := (child :: world.1, world.2)
  join child := fun world =>
    ((world.1, child :: world.2), if child = 1 then .error (.raised "boom")
    else if child ∈ world.1 then .error (.raised "cancelled")
    else .ok ())
  result _ _ := .ok ()

theorem sampleThreads_lawful : sampleThreads.Lawful where
  cancel_keeps _ _ _ ended := ended
  join_keeps _ _ _ ended := List.mem_cons_of_mem _ ended
  join_terminal child world := by
    unfold Ends
    split <;> rename_i run <;> obtain ⟨rfl, _⟩ := Prod.mk.inj run
    · exact List.mem_cons_self
    · exact fun _ _ => List.mem_cons_self

def failingRun : List (ScopeEntry Nat (List Nat × List Nat) String Unit) :=
  play sampleThreads (.fresh "failing" ([], [])) [.fork 0, .fork 1, .fork 2, .join, .close "done"]

theorem task_scope_barrier_failing :
    ∃ entry, failingRun[3]? = some entry ∧ entry.reply = .error (.child "boom") ∧
      ∀ child ∈ [0, 1, 2], sampleThreads.terminal child entry.after.world := by
  have run : Calls sampleThreads (.fresh "failing" ([], [])) failingRun := calls_play _ _
  obtain ⟨first, second, third, entry, last, same, call, forked, reply⟩ :
      ∃ first second third entry last, failingRun = [first, second, third] ++ entry :: [last] ∧
      entry.barrier = true ∧
        forkedChildren [first, second, third] = [0, 1, 2] ∧ entry.reply = .error (.child "boom") :=
    ⟨_, _, _, _, _, rfl, rfl, rfl, rfl⟩
  rw [same] at run ⊢
  refine ⟨entry, rfl, reply, ?_⟩
  rw [← forked]
  exact (task_scope_barrier sampleThreads_lawful run).1 call

/-- A `join` raises the exception of the first child in fork order whose join raised by then. -/
def ReportsFirst (history : List (ScopeEntry Child World ε Value)) : Prop :=
  ∀ before entry after, history = before ++ entry :: after → entry.call = .join →
    ∀ done failed rest error, forkedChildren before = done ++ failed :: rest →
      (∀ child ∈ done, ∀ other, .join child (.error other) ∉ entry.after.calls) →
      .join failed (.error error) ∈ entry.after.calls → entry.reply = .error (.child error)

/-- A scope that was closed before it was joined: its child failed, and `join` returns. -/
theorem join_after_close :
    Calls sampleThreads (.fresh "aborted" ([], []))
      (play sampleThreads (.fresh "aborted" ([], [])) [.fork 1, .close "aborted", .join]) ∧
    ¬ ReportsFirst (play sampleThreads (.fresh "aborted" ([], [])) [.fork 1, .close "aborted", .join]) := by
  refine ⟨calls_play _ _, fun reports => ?_⟩
  obtain ⟨first, second, entry, same, call, forked, calls, reply⟩ :
      ∃ first second entry,
        play sampleThreads (.fresh "aborted" ([], [])) [.fork 1, .close "aborted", .join] =
        [first, second] ++ entry :: [] ∧ entry.call = .join ∧ forkedChildren [first, second] = [1] ∧
        entry.after.calls = [.cancel 1, .join 1 (.error "boom")] ∧ entry.reply = .ok .done :=
    ⟨_, _, _, rfl, rfl, rfl, rfl, rfl⟩
  have raised := reports _ _ _ same call [] 1 [] "boom" forked (by simp) (by simp [calls])
  rw [reply] at raised
  cases raised

end PccGateway
