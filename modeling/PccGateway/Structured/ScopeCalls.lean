import PccGateway.Structured.TaskScope

namespace PccGateway
open Method

variable {Child World ε Value : Type} {threads : VirtualThreads Child World ε Value}

/-- The calls that retire `children`, each cancelled and then joined. -/
inductive Retired : List Child → List (ThreadCall Child ε) → Prop
  | nil : Retired [] []
  | cons {child : Child} {outcome : Except ε Unit} {children : List Child}
      {calls : List (ThreadCall Child ε)} :
      Retired children calls → Retired (child :: children) (.cancel child :: .join child outcome :: calls)

/-- The calls of a loop over children that all returned. -/
def returned (children : List Child) : List (ThreadCall Child ε) := children.map (.join · (.ok ()))

/-- Threads that had ended before have ended after. -/
def KeepsEnded (threads : VirtualThreads Child World ε Value)
    (before after : ScopeState Child World ε) : Prop :=
  ∀ child, threads.terminal child before.world → threads.terminal child after.world

namespace TaskScope
variable {s : ScopeState Child World ε}

theorem ends_joinChild (lawful : threads.Lawful) (child : Child) :
    Ends (joinChild threads child) s
      (fun outcome t => t.scope = s.scope ∧ t.calls = s.calls ++ [.join child outcome] ∧
        threads.terminal child t.world ∧ KeepsEnded threads s t)
      (fun halt _ => ∀ error, halt ≠ .raised error) := by
  have ended := lawful.join_terminal child s.world
  have kept := fun other => lawful.join_keeps child other s.world
  unfold Ends joinChild at *
  revert ended kept
  rcases threads.join child s.world with ⟨world, (error | _ | _) | ⟨⟩⟩
  · exact fun ended kept => ⟨rfl, rfl, ended error rfl, kept⟩
  · exact fun _ _ => by simp
  · exact fun _ _ => by simp
  · exact fun ended kept => ⟨rfl, rfl, ended, kept⟩

theorem ends_retireChild (lawful : threads.Lawful) (child : Child) :
    Ends (retireChild threads child) s
      (fun _ t => t.scope = s.scope ∧ (∃ outcome, t.calls = s.calls ++ [.cancel child,
        .join child outcome]) ∧ threads.terminal child t.world ∧ KeepsEnded threads s t)
      (fun halt _ => ∀ error, halt ≠ .raised error) := by
  unfold retireChild cancelChild
  simp only [ends_bind, ends_modify]
  refine (ends_joinChild lawful child).mono ?_ fun _ _ => id
  rintro outcome t ⟨scope, calls, ended, kept⟩
  refine ⟨scope, ⟨outcome, by simpa using calls⟩, ended, fun other before => kept other ?_⟩
  exact lawful.cancel_keeps child other s.world before

theorem ends_retire (lawful : threads.Lawful) (children : List Child) :
    Ends (retire threads children) s
      (fun _ t => t.scope = s.scope ∧ (∃ calls, Retired children calls ∧ t.calls = s.calls ++ calls) ∧
        (∀ child ∈ children, threads.terminal child t.world) ∧ KeepsEnded threads s t)
      (fun halt _ => ∀ error, halt ≠ .raised error) := by
  induction children generalizing s with
  | nil => exact ⟨rfl, ⟨[], .nil, by simp⟩, by simp, fun _ => id⟩
  | cons child rest ih =>
    unfold retire
    rw [ends_bind]
    refine (ends_retireChild lawful child).mono ?_ fun _ _ => id
    rintro _ t ⟨scope, ⟨outcome, calls⟩, ended, kept⟩
    refine ih.mono ?_ fun _ _ => id
    rintro _ u ⟨sameScope, ⟨more, retired, later⟩, restEnded, restKept⟩
    refine ⟨sameScope.trans scope,
      ⟨_, @Retired.cons _ _ child outcome _ _ retired, by simp [later, calls]⟩, ?_, ?_⟩
    · intro other member
      rcases List.mem_cons.mp member with rfl | member
      · exact restKept other ended
      · exact restEnded other member
    · exact fun other before => restKept other (kept other before)

theorem ends_joinChildren (lawful : threads.Lawful) (children : List Child) :
    Ends (joinChildren threads children) s
      (fun left t => KeepsEnded threads s t ∧
        match left with
        | none => t.scope = s.scope ∧ t.calls = s.calls ++ returned children ∧
            ∀ child ∈ children, threads.terminal child t.world
        | some rest => ∃ done failed error, children = done ++ failed :: rest ∧
            t.scope = { s.scope with failure := some error } ∧
            t.calls = s.calls ++ returned done ++ [.join failed (.error error)] ∧
            ∀ child ∈ done ++ [failed], threads.terminal child t.world)
      (fun halt _ => ∀ error, halt ≠ .raised error) := by
  induction children generalizing s with
  | nil => exact ⟨fun _ => id, rfl, by simp [returned], by simp⟩
  | cons child rest ih =>
    unfold joinChildren
    rw [ends_bind]
    refine (ends_joinChild lawful child).mono ?_ fun _ _ => id
    rintro (error | ⟨⟩) t ⟨scope, calls, ended, kept⟩
    · exact ⟨kept, [], child, error, rfl, by simp [scope], by simp [calls, returned], by simpa using ended⟩
    · refine ih.mono ?_ fun _ _ => id
      rintro (_ | left) u ⟨laterKept, later⟩
      · obtain ⟨sameScope, laterCalls, restEnded⟩ := later
        refine ⟨fun other before => laterKept other (kept other before), sameScope.trans scope, ?_, ?_⟩
        · simp [laterCalls, calls, returned]
        · intro other member
          rcases List.mem_cons.mp member with rfl | member
          · exact laterKept other ended
          · exact restEnded other member
      · obtain ⟨done, failed, error, split, sameScope, laterCalls, restEnded⟩ := later
        refine ⟨fun other before => laterKept other (kept other before), child :: done, failed, error,
          ?_, ?_, ?_, ?_⟩
        · rw [split, List.cons_append]
        · rw [sameScope, scope]
        · simp [laterCalls, calls, returned]
        · intro other member
          rcases List.mem_cons.mp member with rfl | member
          · exact laterKept other ended
          · exact restEnded other member

/-- What the `join` of a scope that was not joined does: every child returned, or `failed` is the first
that did not and those behind it are retired. -/
def Joined (threads : VirtualThreads Child World ε Value) (s t : ScopeState Child World ε)
    (failure : Option ε) : Prop :=
  KeepsEnded threads s t ∧ (∀ child ∈ s.scope.children, threads.terminal child t.world) ∧
  t.scope = { s.scope with joined := true, failure := failure } ∧
  match failure with
  | none => t.calls = s.calls ++ returned s.scope.children
  | some error => ∃ done failed rest calls, s.scope.children = done ++ failed :: rest ∧ Retired rest calls ∧
      t.calls = s.calls ++ returned done ++ [.join failed (.error error)] ++ calls

theorem ends_join (lawful : threads.Lawful) (notJoined : s.scope.joined = false)
    (healthy : s.scope.failure = none) :
    Ends (join threads) s (fun _ t => Joined threads s t none)
      (fun halt t => ∀ error, halt = .raised error → ∃ failure, error = .child failure ∧
        Joined threads s t (some failure)) := by
  unfold join
  simp only [ends_bind, ends_get, notJoined, Bool.false_eq_true, if_false, ends_modify]
  refine (ends_joinChildren lawful s.scope.children).mono ?_ fun halt _ silent error same =>
    absurd same (silent error)
  rintro (_ | rest) t ⟨kept, after⟩
  · obtain ⟨scope, calls, ended⟩ := after
    exact ⟨kept, ended, by rw [scope, healthy], calls⟩
  · obtain ⟨done, failed, error, split, scope, calls, ended⟩ := after
    simp only [ends_bind]
    refine (ends_retire lawful rest).mono ?_ fun halt _ silent error same => absurd same (silent error)
    rintro _ u ⟨sameScope, ⟨more, retired, later⟩, restEnded, restKept⟩
    have raising : u.scope.failure = some error := by rw [sameScope, scope]
    simp only [raiseFailure, ends_bind, ends_get, raising, Thread.ends_raise]
    rintro _ ⟨⟩
    refine ⟨error, rfl, fun other before => restKept other (kept other before), ?_, ?_, done, failed,
      rest, more, split, retired, ?_⟩
    · intro child member
      rw [split, List.append_cons, List.mem_append] at member
      rcases member with member | member
      · exact restKept child (ended child member)
      · exact restEnded child member
    · rw [sameScope, scope]
    · rw [later, calls]

/-- A later `join` only raises the failure again. -/
theorem join_joined (joined : s.scope.joined = true) :
    join threads s = (s, match s.scope.failure with
      | some error => .error (.raised (.child error))
      | none => .ok ()) := by
  unfold join raiseFailure
  rw [bind_run, get_run]
  dsimp only
  rw [if_pos joined, bind_run, get_run]
  dsimp only
  cases failure : s.scope.failure <;> rfl

theorem close_closed (reason : String) (closed : s.scope.closed = true) :
    close threads reason s = (s, .ok ()) := by
  unfold close
  rw [bind_run, get_run]
  dsimp only
  rw [if_pos closed]
  rfl

theorem close_joined (reason : String) (opened : s.scope.closed = false) (joined : s.scope.joined = true) :
    close threads reason s =
      ({ s with scope := { s.scope with closed := true, closeReason := reason } }, .ok ()) := by
  unfold close
  rw [bind_run, get_run]
  dsimp only
  rw [if_neg (by simp [opened]), if_pos joined]
  rfl

theorem ends_close (lawful : threads.Lawful) (reason : String) (opened : s.scope.closed = false)
    (notJoined : s.scope.joined = false) :
    Ends (close threads reason) s
      (fun _ t => t.scope = { s.scope with joined := true, closed := true, closeReason := reason } ∧
        KeepsEnded threads s t ∧ (∀ child ∈ s.scope.children, threads.terminal child t.world))
      (fun halt _ => ∀ error, halt ≠ .raised error) := by
  unfold close closeUnjoined
  simp only [ends_bind, ends_get, opened, notJoined, Bool.false_eq_true, if_false, ends_modify,
    not_false_eq_true, if_true]
  refine (ends_retire lawful s.scope.children).mono ?_ fun _ _ => id
  rintro _ t ⟨scope, _, ended, kept⟩
  exact ⟨scope, kept, ended⟩

theorem fork_open (child : Child) (opened : s.scope.closed = false) (notJoined : s.scope.joined = false) :
    fork threads child s =
      ({ s with scope := { s.scope with children := s.scope.children ++ [child] } }, .ok child) := by
  unfold fork
  rw [bind_run, get_run]
  dsimp only
  rw [if_neg (by simp [opened, notJoined])]
  rfl

theorem ends_fork_rejected (lawful : threads.Lawful) (child : Child)
    (barred : s.scope.closed = true ∨ s.scope.joined = true) :
    Ends (fork threads child) s (fun _ _ => False)
      (fun halt t => ∀ error, halt = .raised error → t.scope = s.scope ∧
        threads.terminal child t.world ∧ KeepsEnded threads s t) := by
  unfold fork rejectScopeFork
  simp only [ends_bind, ends_get, barred, if_true]
  refine (ends_retireChild lawful child).mono ?_ fun halt _ silent error same => absurd same (silent error)
  rintro _ t ⟨scope, _, ended, kept⟩
  rw [scope]
  split
  · exact fun _ _ => ⟨scope, ended, kept⟩
  · rename_i opened
    rw [if_pos (barred.resolve_left opened)]
    exact fun _ _ => ⟨scope, ended, kept⟩

theorem result_run (child : Child) :
    (result threads child s).1 = s ∧ (s.scope.joined = false →
      ∃ message, (result threads child s).2 = .error (.raised (.taskScope message))) := by
  unfold result
  rw [bind_run, get_run]
  dsimp only
  split
  · exact ⟨rfl, fun _ => ⟨_, rfl⟩⟩
  · rename_i joined
    refine ⟨?_, fun notJoined => absurd notJoined (by simpa using joined)⟩
    cases threads.result child s.world <;> rfl

end TaskScope

inductive ScopeCall (Child : Type) where
  | fork (child : Child)
  | join
  | close (reason : String)
  | result (child : Child)
  deriving DecidableEq, Repr

inductive ScopeReply (Child Value : Type) where
  | child (child : Child)
  | value (value : Value)
  | done
  deriving DecidableEq, Repr

def ScopeCall.perform (threads : VirtualThreads Child World ε Value) :
    ScopeCall Child → ScopeM Child World ε (ScopeReply Child Value)
  | .fork child => do
    let handle ← TaskScope.fork threads child
    return .child handle
  | .join => do
    TaskScope.join threads
    return .done
  | .close reason => do
    TaskScope.close threads reason
    return .done
  | .result child => do
    let value ← TaskScope.result threads child
    return .value value

/-- One call of the parent that came back, with what it found and what it left. -/
structure ScopeEntry (Child World ε Value : Type) where
  call : ScopeCall Child
  before : ScopeState Child World ε
  after : ScopeState Child World ε
  reply : Except (ScopeError ε) (ScopeReply Child Value)

namespace ScopeEntry

/-- The call makes every child end: it is a `join` or a `close`. -/
def barrier (entry : ScopeEntry Child World ε Value) : Bool :=
  match entry.call with
  | .join | .close _ => true
  | _ => false

def forked (entry : ScopeEntry Child World ε Value) : Option Child :=
  match entry.call with
  | .fork child => some child
  | _ => none

def isClose (entry : ScopeEntry Child World ε Value) : Bool :=
  match entry.call with
  | .close _ => true
  | _ => false

end ScopeEntry

/-- Time between two calls: threads go on, and those that ended stay so. -/
def Elapsed (threads : VirtualThreads Child World ε Value) (before after : ScopeState Child World ε) :
    Prop :=
  after = { before with world := after.world } ∧
    ∀ child, threads.terminal child before.world → threads.terminal child after.world

/-- The entries are calls that the parent made one after another, the first one in `s` or later. -/
def Calls (threads : VirtualThreads Child World ε Value) :
    ScopeState Child World ε → List (ScopeEntry Child World ε Value) → Prop
  | _, [] => True
  | s, entry :: later =>
    Elapsed threads s entry.before ∧
    entry.call.perform threads entry.before = (entry.after, entry.reply.mapError .raised) ∧
    Calls threads entry.after later

/-- A new scope among threads that are as they may be. -/
def ScopeState.fresh (name : String) (world : World) : ScopeState Child World ε :=
  ⟨{ name := name }, world, []⟩

/-- The threads that were passed to `fork`, also those it rejected. -/
def forkedChildren (history : List (ScopeEntry Child World ε Value)) : List Child :=
  history.filterMap ScopeEntry.forked

/-- What a call that came back did to the scope, case by case. -/
def ScopeEntry.Effect (threads : VirtualThreads Child World ε Value)
    (entry : ScopeEntry Child World ε Value) : Prop :=
  match entry.call with
  | .fork child =>
    if entry.before.scope.closed ∨ entry.before.scope.joined then
      entry.after.scope = entry.before.scope ∧ threads.terminal child entry.after.world ∧
        KeepsEnded threads entry.before entry.after
    else entry.after =
      { entry.before with scope := { entry.before.scope with
        children := entry.before.scope.children ++ [child] } }
  | .join =>
    if entry.before.scope.joined then
      entry.after = entry.before ∧ entry.reply = match entry.before.scope.failure with
        | some error => .error (.child error)
        | none => .ok .done
    else ∃ failure, TaskScope.Joined threads entry.before entry.after failure ∧ entry.reply =
      match failure with
        | some error => .error (.child error)
        | none => .ok .done
  | .close reason => entry.reply = .ok .done ∧
    if entry.before.scope.closed then entry.after = entry.before
    else if entry.before.scope.joined then entry.after =
      { entry.before with scope := { entry.before.scope with closed := true, closeReason := reason } }
    else
      entry.after.scope = { entry.before.scope with
        joined := true, closed := true, closeReason := reason } ∧
        KeepsEnded threads entry.before entry.after ∧
        ∀ child ∈ entry.before.scope.children, threads.terminal child entry.after.world
  | .result _ => entry.after = entry.before ∧
    (entry.before.scope.joined = false → ∃ message, entry.reply = .error (.taskScope message))

/-- A call that came back returned, and so did the parent's call, or it raised what the parent's call
raised. -/
theorem ScopeEntry.replied {α : Type} {call : ScopeM Child World ε α} {wrap : α → ScopeReply Child Value}
    {before after : ScopeState Child World ε} {reply : Except (ScopeError ε) (ScopeReply Child Value)}
    (ran : (call >>= fun a => pure (wrap a)) before = (after, reply.mapError .raised)) :
    (∃ a, call before = (after, .ok a) ∧ reply = .ok (wrap a)) ∨
      ∃ error, call before = (after, .error (.raised error)) ∧ reply = .error error := by
  rw [bind_run] at ran
  revert ran
  rcases call before with ⟨t, halt | a⟩ <;> cases reply <;> simp [Except.mapError]
  all_goals grind

theorem ScopeEntry.effect (lawful : threads.Lawful) {entry : ScopeEntry Child World ε Value}
    (healthy : entry.before.scope.joined = false → entry.before.scope.failure = none)
    (ran : entry.call.perform threads entry.before = (entry.after, entry.reply.mapError .raised)) :
    entry.Effect threads := by
  obtain ⟨call, before, after, reply⟩ := entry
  cases call with
  | fork child =>
    simp only [ScopeEntry.Effect]
    split
    · rename_i barred
      have ends := TaskScope.ends_fork_rejected lawful child barred
      rcases ScopeEntry.replied ran with ⟨handle, run, _⟩ | ⟨error, run, _⟩
      · exact (ends.returned run).elim
      · exact ends.raised run error rfl
    · rename_i opened
      simp only [not_or, Bool.not_eq_true] at opened
      have run : TaskScope.fork threads child _ = _ := TaskScope.fork_open child opened.1 opened.2
      rcases ScopeEntry.replied ran with ⟨_, same, _⟩ | ⟨_, same, _⟩
      · exact (Prod.mk.inj (same.symm.trans run)).1
      · exact (Prod.mk.inj (same.symm.trans run)).1
  | join =>
    simp only [ScopeEntry.Effect]
    split
    · rename_i joined
      have run : TaskScope.join threads _ = _ := TaskScope.join_joined joined
      rcases ScopeEntry.replied ran with ⟨_, same, rfl⟩ | ⟨error, same, rfl⟩
      · obtain ⟨unchanged, outcome⟩ := Prod.mk.inj (same.symm.trans run)
        refine ⟨unchanged, ?_⟩
        split at outcome
        · cases outcome
        · rfl
      · obtain ⟨unchanged, outcome⟩ := Prod.mk.inj (same.symm.trans run)
        refine ⟨unchanged, ?_⟩
        split at outcome
        · cases outcome
          rfl
        · cases outcome
    · rename_i notJoined
      rw [Bool.not_eq_true] at notJoined
      have ends := TaskScope.ends_join lawful notJoined (healthy notJoined)
      rcases ScopeEntry.replied ran with ⟨_, run, rfl⟩ | ⟨error, run, rfl⟩
      · exact ⟨none, ends.returned run, rfl⟩
      · obtain ⟨failure, rfl, joined⟩ := ends.raised run error rfl
        exact ⟨some failure, joined, rfl⟩
  | close reason =>
    simp only [ScopeEntry.Effect]
    rcases ScopeEntry.replied ran with ⟨_, run, rfl⟩ | ⟨error, run, rfl⟩
    · refine ⟨rfl, ?_⟩
      split
      · rename_i closed
        exact (Prod.mk.inj (run.symm.trans (TaskScope.close_closed reason closed))).1
      · rename_i opened
        rw [Bool.not_eq_true] at opened
        split
        · rename_i joined
          exact (Prod.mk.inj (run.symm.trans (TaskScope.close_joined reason opened joined))).1
        · rename_i notJoined
          exact (TaskScope.ends_close lawful reason opened (by simpa using notJoined)).returned run
    · exfalso
      cases closed : before.scope.closed with
      | true => simpa using (Prod.mk.inj (run.symm.trans (TaskScope.close_closed reason closed))).2
      | false =>
        cases joined : before.scope.joined with
        | true => simpa using (Prod.mk.inj (run.symm.trans (TaskScope.close_joined reason closed joined))).2
        | false => exact (TaskScope.ends_close lawful reason closed joined).raised run error rfl
  | result child =>
    have run : (TaskScope.result threads child before).1 = before ∧ _ := TaskScope.result_run child
    simp only [ScopeEntry.Effect]
    rcases ScopeEntry.replied ran with ⟨value, same, rfl⟩ | ⟨error, same, rfl⟩
    · rw [same] at run
      refine ⟨run.1, fun notJoined => ?_⟩
      obtain ⟨message, impossible⟩ := run.2 notJoined
      simp at impossible
    · rw [same] at run
      refine ⟨run.1, fun notJoined => ?_⟩
      obtain ⟨message, raised⟩ := run.2 notJoined
      exact ⟨message, by simpa using raised⟩

end PccGateway
