import PccGateway.Tls.Publication

namespace PccGateway
namespace TlsLifetime

/-- The contexts live as long as somebody needs them. `freed` and `released` say when those of a
generation are freed, or are about to be by the call that dropped the last reference; `whole` and
`retired` say that none is forgotten. -/
structure Contract (run : TlsLifetime) : Prop where
  ordered : run.events.Pairwise fun earlier later => ∀ context, earlier = .freed context →
    later ≠ .used context ∧ later ≠ .freed context
  freed : ∀ generation ∈ run.generations, ∀ context ∈ generation.recorded,
    (context ∈ run.freed ∨ ∃ call ∈ run.calls, context ∈ call.drops) ↔ generation.references = 0
  released : ∀ id generation, run.generations[id]? = some generation →
    (generation.references = 0 ↔ generation.retired = true ∧ run.users id = 0)
  whole : ∀ context < run.created, context ∈ run.freed ∨ (∃ call ∈ run.calls, context ∈ call.contexts) ∨
    ∃ generation ∈ run.generations, context ∈ generation.recorded ∧ generation.references ≠ 0
  retired : ∀ id generation, run.generations[id]? = some generation →
    run.manager.active = some id ∨ generation.retired = true ∨ ∃ failed, .retiring id failed ∈ run.calls
  failures : ∀ failure ∈ run.failures, failure.after = failure.before ∧ ∀ context ∈ failure.created,
    context ∈ run.freed
  increasing : run.activeIds.Pairwise (· < ·)
  active : ∀ id, run.manager.active = some id →
    ∃ generation, run.generations[id]? = some generation ∧ run.activeIds.getLast? =
      some generation.generationId

variable {run : TlsLifetime}

theorem drops_contexts {call : TlsCall} {context : Nat} (member : context ∈ call.drops) :
    context ∈ call.contexts := by
  cases call <;> first | exact member | cases member

theorem contract (ledger : run.LedgerOf run.calls) (publication : run.PublicationOf run.calls) :
    run.Contract := by
  refine ⟨ledger.ordered, fun generation member context recorded => ⟨fun gone => ?_, fun none => ?_⟩,
    fun id generation found => ⟨fun none => ?_, fun ⟨retired, unused⟩ => ?_⟩, fun context made => ?_,
    publication.retiring, publication.failures, publication.increasing, publication.active⟩
  · obtain ⟨id, found⟩ := List.getElem?_of_mem member
    have referenced := ledger.counted id generation found
    by_contra more
    have kept : generation.destroyed = false := by
      by_contra destroyed
      exact more (referenced.destroyed.mp (by simpa using destroyed))
    have held : context ∈ run.generations.flatMap (·.contexts) :=
      List.mem_flatMap.mpr ⟨generation, member, by rwa [referenced.recorded_contexts kept]⟩
    rcases gone with freed | ⟨call, under, drops⟩
    · exact ledger.custody.held_not_spent held freed
    · exact ledger.custody.held_not_in_hand held (List.mem_flatMap.mpr ⟨call, under, drops_contexts drops⟩)
  · obtain ⟨id, found⟩ := List.getElem?_of_mem member
    have destroyed := (ledger.counted id generation found).destroyed.mpr none
    rcases List.mem_append.mp (ledger.given generation member destroyed context recorded) with
      freed | waiting
    · exact .inl freed
    · exact .inr (List.mem_flatMap.mp waiting)
  · have references := (ledger.counted id generation found).references
    rw [none] at references
    cases retired : generation.retired with
    | false =>
      simp only [retired, Bool.false_eq_true, if_false] at references
      omega
    | true =>
      simp only [retired, if_true] at references
      have unused : tlsUsers run.holders run.channels run.calls id = 0 := by omega
      exact ⟨rfl, unused⟩
  · have references := (ledger.counted id generation found).references
    rw [retired, if_pos rfl] at references
    rw [references]
    change tlsUsers _ _ _ id = 0 at unused
    rw [unused]
    rfl
  · have place := ledger.custody.mem_iff.mpr (List.mem_range.mpr made)
    rw [List.append_assoc, List.mem_append, List.mem_append] at place
    rcases place with freed | held | hand
    · exact .inl freed
    · obtain ⟨generation, member, has⟩ := List.mem_flatMap.mp held
      obtain ⟨id, found⟩ := List.getElem?_of_mem member
      have referenced := ledger.counted id generation found
      rw [referenced.contexts] at has
      refine .inr (.inr ⟨generation, member, ?_⟩)
      split at has
      · cases has
      · rename_i kept
        exact ⟨has, fun none => kept (referenced.destroyed.mpr none)⟩
    · exact .inr (.inl (List.mem_flatMap.mp hand))

theorem init_ledger (certificates : Nat) : (init certificates).LedgerOf (init certificates).calls := by
  have freed : freedContexts (init certificates).events = [] := by
    simp [init, freedContexts, ContextEvent.freed?, List.filterMap_map, Function.comp_def]
  refine ⟨fun id generation found => ?_, fun id _ => rfl, ?_, ?_, (by rintro _ ⟨⟩), ?_⟩
  · have first : generation = { generationId := 1, contexts := List.range (certificates + 1) } := by
      simpa [init, eq_comm] using List.mem_of_getElem? found
    subst first
    exact ⟨rfl, by simp, rfl⟩
  · rw [freed]
    simp [Custody, init]
  · intro generation member gone
    have first : generation = { generationId := 1, contexts := List.range (certificates + 1) } := by
      simpa [init] using member
    subst first
    cases gone
  · refine List.pairwise_of_forall_mem_list fun earlier member later _ context is => ?_
    obtain ⟨made, -, rfl⟩ := List.mem_map.mp member
    cases is

theorem init_publication (certificates : Nat) :
    (init certificates).PublicationOf (init certificates).calls := by
  refine ⟨rfl, nofun, nofun, nofun, nofun, List.pairwise_singleton _ _, ?_, fun id is => ?_,
    fun id generation found => ?_⟩
  · simp [init]
  · cases is
    exact ⟨_, rfl, rfl⟩
  · have inRange := (List.getElem?_eq_some_iff.mp found).1
    simp only [init, List.length_singleton, Nat.lt_one_iff] at inRange
    exact .inl (congrArg some inRange.symm)

/-- Certificate contexts outlive their users and are freed once, as long as no handshake is between
`select_context` and `set_server_context` when the last reference to its generation goes. The
condition is on the state in front of each step. Nothing is assumed about the provider, whose
creations may fail, nor about the number of reloads and of connections. -/
theorem contexts_outlive_users (certificates : Nat) (actions : List TlsAction)
    (allowed : Interleaving.Along step Allows actions (init certificates)) :
    (actions.foldl step (init certificates)).Contract := by
  have kept : (actions.foldl step (init certificates)).LedgerOf
      (actions.foldl step (init certificates)).calls ∧
      (actions.foldl step (init certificates)).PublicationOf
        (actions.foldl step (init certificates)).calls := by
    refine @Interleaving.invariant_along _ _ step _ _
      (fun run => run.LedgerOf run.calls ∧ run.PublicationOf run.calls)
      (fun run action allows kept => ?_) _ allowed ⟨init_ledger certificates, init_publication certificates⟩
    exact ⟨steps kept.1 allows, steps_publication kept.2 kept.1 action⟩
  exact contract kept.1 kept.2

/-- A channel selects a context in its handshake. -/
def sampleHandshake : List TlsAction :=
  [.newChannel none, .proceed 0 true, .proceed 0 true, .handshake 0 0, .proceed 0 true]

/-- A reload that succeeds. -/
def sampleReload : List TlsAction := .reload 0 :: List.replicate 5 (.proceed 0 true)

/-- The creation of the second context fails. -/
def sampleFailure : List TlsAction :=
  [.reload 1, .proceed 0 true, .proceed 0 true, .proceed 0 false, .proceed 0 true,
      .proceed 0 true]

/-- The channel closes. -/
def sampleClose : List TlsAction := .closeChannel 0 :: List.replicate 4 (.proceed 0 true)

theorem contexts_outlive_users_reload :
    (List.foldl step (init 0) (sampleHandshake ++ [.proceed 0 true] ++ sampleReload ++
      sampleFailure ++ sampleClose)).Contract :=
  contexts_outlive_users 0 _ (by decide)

/-- The channel closes after its generation was replaced, while its handshake is about to pass on the
context. -/
theorem context_used_after_free :
    (List.foldl step (init 0) (sampleHandshake ++ sampleReload ++ sampleClose ++
      [.proceed 0 true])).events = [.created 0, .used 0, .created 1, .freed 0, .used 0] ∧
      ¬ (List.foldl step (init 0)
        (sampleHandshake ++ sampleReload ++ sampleClose ++ [.proceed 0 true])).Contract := by
  have events : (List.foldl step (init 0)
      (sampleHandshake ++ sampleReload ++ sampleClose ++ [.proceed 0 true])).events =
      [.created 0, .used 0, .created 1, .freed 0, .used 0] := by decide
  refine ⟨events, fun contract => ?_⟩
  have ordered := contract.ordered
  rw [events] at ordered
  simp at ordered

end TlsLifetime
end PccGateway
