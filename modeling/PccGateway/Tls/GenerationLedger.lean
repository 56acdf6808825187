import PccGateway.Lib.Counting
import PccGateway.Lib.Custody
import PccGateway.Tls.Generations

namespace PccGateway

namespace TlsGeneration

/-- A generation is referenced by its users, and by its manager until it is retired. It has its
contexts until its last reference goes. -/
structure Referenced (users : Nat) (generation : TlsGeneration) : Prop where
  references : generation.references = (if generation.retired then 0 else 1) + users
  destroyed : generation.destroyed = true ↔ generation.references = 0
  contexts : generation.contexts = if generation.destroyed then [] else generation.recorded

/-- A reference went, and with the last one the contexts. -/
def Gave (before : TlsGeneration) (after : TlsGeneration × Option (List Nat)) : Prop :=
  after = ({ before with references := before.references - 1 }, none) ∧ before.references ≠ 1 ∨
    after = ({ before with references := 0, contexts := [], destroyed := true },
      some before.recorded) ∧ before.references = 1

namespace Referenced
variable {users : Nat} {generation next : TlsGeneration}

/-- Who has a reference finds the contexts. -/
theorem kept (referenced : Referenced (users + 1) generation) : generation.destroyed = false := by
  have references := referenced.references
  by_contra gone
  have := referenced.destroyed.mp (by simpa using gone)
  split at references <;> omega

theorem retain (referenced : Referenced users generation) (run : generation.retain = .ok next) :
    Referenced (users + 1) next ∧ generation.destroyed = false ∧
      next = { generation with references := generation.references + 1 } := by
  unfold TlsGeneration.retain at run
  split at run
  · cases run
  · rename_i alive
    simp only [not_or, Bool.not_eq_true] at alive
    cases run
    obtain ⟨references, destroyed, contexts⟩ := referenced
    refine ⟨⟨?_, ?_, contexts⟩, alive.2, rfl⟩
    · simp only [references]
      push_cast
      omega
    · simp only [alive.2, Bool.false_eq_true, false_iff]
      omega

theorem recorded_contexts (referenced : Referenced users generation) (kept : generation.destroyed = false) :
    generation.contexts = generation.recorded := by
  rw [referenced.contexts, kept]
  rfl

/-- What becomes of a generation whose reference goes. -/
theorem drop (kept : generation.destroyed = false) (contexts : generation.contexts = generation.recorded)
    (less : generation.references - 1 = (if generation.retired then 0 else 1) + users) :
    Referenced users generation.drop.1 ∧ Gave generation generation.drop := by
  unfold TlsGeneration.drop
  dsimp only
  split
  · rename_i last
    unfold TlsGeneration.takeContexts
    simp only [kept, Bool.false_eq_true, if_false, last]
    exact ⟨⟨last ▸ less, by simp, rfl⟩, .inr ⟨by rw [contexts], by omega⟩⟩
  · rename_i more
    refine ⟨⟨less, ?_, by simpa [kept] using contexts⟩, .inl ⟨rfl, by omega⟩⟩
    simp only [kept, Bool.false_eq_true, false_iff]
    exact more

/-- A holder's reference goes. -/
theorem release (referenced : Referenced (users + 1) generation) :
    generation.release = .ok generation.drop ∧ Referenced users generation.drop.1 ∧
    Gave generation generation.drop := by
  have kept := referenced.kept
  have references := referenced.references
  have positive : ¬ (generation.references ≤ 0 ∨ generation.destroyed = true) := by
    simp only [kept, Bool.false_eq_true, or_false]
    split at references <;> omega
  refine ⟨if_neg positive, drop kept (referenced.recorded_contexts kept) ?_⟩
  rw [references]
  push_cast
  omega

/-- The manager's reference goes. -/
theorem retire (referenced : Referenced users generation) (active : generation.retired = false) :
    generation.retire = .ok { generation with retired := true }.drop ∧
      Referenced users { generation with retired := true }.drop.1 ∧
      Gave { generation with retired := true } { generation with retired := true }.drop := by
  have references := referenced.references
  simp only [active, Bool.false_eq_true, if_false] at references
  have kept : generation.destroyed = false := by
    by_contra gone
    have := referenced.destroyed.mp (by simpa using gone)
    omega
  have positive : ¬ (generation.references ≤ 0 ∨ generation.destroyed = true) := by
    simp only [kept, Bool.false_eq_true, or_false]
    omega
  refine ⟨?_, @drop _ { generation with retired := true } kept (referenced.recorded_contexts kept) ?_⟩
  · unfold TlsGeneration.retire
    rw [if_neg (by simp [active]), if_neg positive]
  · simp only [if_true]
    omega

end Referenced
end TlsGeneration

/-- The context that the call is about to pass on is one of a generation that still has it. -/
def Sound (generations : List TlsGeneration) (call : TlsCall) : Prop :=
  match call with
  | .opening id context => ∃ generation, generations[id]? = some generation ∧ context ∈ generation.recorded
  | .installing id context =>
    ∃ generation, generations[id]? = some generation ∧ generation.destroyed = false ∧ context ∈
      generation.recorded
  | _ => True

/-- Generations, contexts and who has them. -/
structure TlsLedger (generations : List TlsGeneration) (holders : List Nat)
    (channels : List (Option Nat)) (created : Nat)
    (events : List ContextEvent) (calls : List TlsCall) : Prop where
  counted : ∀ id generation, generations[id]? = some generation →
    TlsGeneration.Referenced (tlsUsers holders channels calls id) generation
  ranged : ∀ id, generations[id]? = none → tlsUsers holders channels calls id = 0
  custody : Custody created (freedContexts events) (generations.flatMap (·.contexts))
    (calls.flatMap TlsCall.contexts)
  given : ∀ generation ∈ generations, generation.destroyed = true → ∀ context ∈ generation.recorded,
    context ∈ freedContexts events ++ calls.flatMap TlsCall.drops
  sound : ∀ call ∈ calls, Sound generations call
  ordered : events.Pairwise fun earlier later => ∀ context, earlier = .freed context →
    later ≠ .used context ∧ later ≠ .freed context

/-- A generation that gave its contexts away has no call that is about to pass one of them on. -/
theorem Sound.set {generations : List TlsGeneration} {call : TlsCall} {id : Nat}
    {generation next : TlsGeneration}
    (sound : Sound generations call) (found : generations[id]? = some generation)
    (same : next.recorded = generation.recorded)
    (quiet : next.destroyed = true → call.installs id = false) :
    Sound (generations.set id next) call := by
  have small : id < generations.length := (List.getElem?_eq_some_iff.mp found).1
  have there (other : Nat) (old : TlsGeneration) (known : generations[other]? = some old) :
      ∃ new, (generations.set id next)[other]? = some new ∧ new.recorded = old.recorded ∧
        (other ≠ id ∧ new = old ∨ other = id ∧ new = next) := by
    by_cases here : other = id
    · subst here
      rw [found] at known
      exact ⟨next, List.getElem?_set_self small, Option.some.inj known ▸ same, .inr ⟨rfl, rfl⟩⟩
    · exact ⟨old, (List.getElem?_set_ne (Ne.symm here)).trans known, rfl, .inl ⟨here, rfl⟩⟩
  unfold Sound at sound ⊢
  split at sound
  · obtain ⟨old, known, recorded⟩ := sound
    obtain ⟨new, found', same', -⟩ := there _ old known
    exact ⟨new, found', same' ▸ recorded⟩
  · obtain ⟨old, known, alive, recorded⟩ := sound
    obtain ⟨new, found', same', where_⟩ := there _ old known
    refine ⟨new, found', ?_, same' ▸ recorded⟩
    rcases where_ with ⟨-, rfl⟩ | ⟨rfl, rfl⟩
    · exact alive
    · by_contra gone
      simpa [TlsCall.installs] using quiet (by simpa using gone)
  · trivial

namespace TlsLedger
variable {generations : List TlsGeneration} {holders holders' : List Nat}
  {channels channels' : List (Option Nat)}
  {created : Nat} {events : List ContextEvent} {calls calls' : List TlsCall}
    {call call' : TlsCall} {id : Nat}
  {generation next : TlsGeneration}

/-- References and contexts change hands, but no generation changes. -/
theorem handOver (ledger : TlsLedger generations holders channels created events calls)
    (users : ∀ id, tlsUsers holders' channels' calls' id = tlsUsers holders channels calls id)
    (contexts : (calls'.flatMap TlsCall.contexts).Perm (calls.flatMap TlsCall.contexts))
    (drops : ∀ context ∈ calls.flatMap TlsCall.drops, context ∈ calls'.flatMap TlsCall.drops)
    (sound : ∀ call ∈ calls', Sound generations call) :
    TlsLedger generations holders' channels' created events calls' := by
  refine ⟨fun id generation found => users id ▸ ledger.counted id generation found,
    fun id missing => (users id).trans (ledger.ranged id missing),
    ledger.custody.move (contexts.append_left _),
    fun generation member gone context recorded => ?_, sound, ledger.ordered⟩
  rcases List.mem_append.mp (ledger.given generation member gone context recorded) with done | waiting
  · exact List.mem_append_left _ done
  · exact List.mem_append_right _ (drops context waiting)

theorem reorder (ledger : TlsLedger generations holders channels created events calls)
    (moved : calls'.Perm calls) :
    TlsLedger generations holders channels created events calls' := by
  refine ledger.handOver (fun id => ?_) (moved.flatMap_right _) (fun context member => ?_) fun call
    member => ?_
  · unfold tlsUsers
    rw [moved.countP_eq]
  · exact (moved.flatMap_right _).mem_iff.mpr member
  · exact ledger.sound call (moved.mem_iff.mp member)

/-- A call goes on with the contexts and the reference that it had. -/
theorem swap (ledger : TlsLedger generations holders channels created events (call :: calls))
    (holds : call'.holds = call.holds) (contexts : call'.contexts.Perm call.contexts)
    (drops : ∀ context ∈ call.drops, context ∈ call'.drops) (sound : Sound generations call') :
    TlsLedger generations holders channels created events (call' :: calls) := by
  refine ledger.handOver (fun id => by simp only [tlsUsers, List.countP_cons, holds])
    (contexts.append_right _)
    (fun context member => ?_) fun other member => ?_
  · rcases List.mem_append.mp member with mine | others
    · exact List.mem_append_left _ (drops context mine)
    · exact List.mem_append_right _ others
  · rcases List.mem_cons.mp member with rfl | old
    · exact sound
    · exact ledger.sound other (List.mem_cons_of_mem _ old)

/-- A call that has nothing ends. -/
theorem finish (ledger : TlsLedger generations holders channels created events (call :: calls))
    (holds : call.holds = none) (contexts : call.contexts = []) (drops : call.drops = []) :
    TlsLedger generations holders channels created events calls :=
  ledger.handOver (fun id => by simp [tlsUsers, holds]) (by simp [contexts]) (by simp [drops])
    fun other member => ledger.sound other (List.mem_cons_of_mem _ member)

/-- A call that has nothing begins. -/
theorem start (ledger : TlsLedger generations holders channels created events calls)
    (holds : call.holds = none) (contexts : call.contexts = []) (sound : Sound generations call) :
    TlsLedger generations holders channels created events (call :: calls) := by
  refine ledger.handOver (fun id => by simp [tlsUsers, holds]) (by simp [contexts])
    (fun context member => List.mem_append_right _ member) fun other member => ?_
  rcases List.mem_cons.mp member with rfl | old
  · exact sound
  · exact ledger.sound other old

/-- The provider makes a context for a reload. -/
theorem create {generationId left : Nat} {before : Option Nat} {contexts : List Nat}
    (ledger : TlsLedger generations holders channels created events
      (.building generationId before (left + 1) contexts :: calls)) :
    TlsLedger generations holders channels (created + 1) (events ++ [.created created])
      (.building generationId before left (contexts ++ [created]) :: calls) := by
  have freed : freedContexts (events ++ [.created created]) = freedContexts events := by
    simp [freedContexts, ContextEvent.freed?]
  refine ⟨ledger.counted, ledger.ranged, ?_, ?_, fun call member => ?_, ?_⟩
  · rw [freed]
    refine ledger.custody.make.move (List.Perm.append_left _ ?_)
    simp only [List.flatMap_cons, TlsCall.contexts, List.append_assoc, List.singleton_append]
    exact List.perm_middle
  · rw [freed]
    exact ledger.given
  · rcases List.mem_cons.mp member with rfl | old
    · trivial
    · exact ledger.sound call (List.mem_cons_of_mem _ old)
  · refine List.pairwise_append.mpr ⟨ledger.ordered, List.pairwise_singleton _ _, ?_⟩
    intro earlier _ later last context _
    rw [List.mem_singleton.mp last]
    exact ⟨nofun, nofun⟩

/-- What is freed or used now was not freed before. -/
theorem ordered_append {event : ContextEvent} {context : Nat}
    (ledger : TlsLedger generations holders channels created events calls)
    (about : event = .used context ∨ event = .freed context) (fresh : context ∉ freedContexts events) :
    (events ++ [event]).Pairwise fun earlier later => ∀ context, earlier = .freed context →
      later ≠ .used context ∧ later ≠ .freed context := by
  refine List.pairwise_append.mpr ⟨ledger.ordered, List.pairwise_singleton _ _, ?_⟩
  intro earlier member later last other gone
  rw [List.mem_singleton.mp last]
  have different : other ≠ context := by
    rintro rfl
    exact fresh (List.mem_filterMap.mpr ⟨earlier, member, by rw [gone]; rfl⟩)
  rcases about with rfl | rfl
  · exact ⟨fun same => different (ContextEvent.used.inj same).symm, nofun⟩
  · exact ⟨nofun, fun same => different (ContextEvent.freed.inj same).symm⟩

/-- A call frees the first of its contexts. -/
theorem free {context : Nat} {rest : List Nat}
    (ledger : TlsLedger generations holders channels created events (call :: calls))
    (holds : call'.holds = call.holds) (contexts : call.contexts = context :: rest)
    (drops : call.drops = context :: rest)
    (contexts' : call'.contexts = rest) (drops' : call'.drops = rest) (sound : Sound generations call') :
    TlsLedger generations holders channels created (events ++ [.freed context]) (call' :: calls) := by
  have freed : freedContexts (events ++ [.freed context]) = freedContexts events ++ [context] := by
    simp [freedContexts, ContextEvent.freed?]
  have custody := ledger.custody
  simp only [List.flatMap_cons, contexts, List.cons_append] at custody
  have users (id : Nat) : tlsUsers holders channels (call' :: calls) id =
      tlsUsers holders channels (call :: calls) id := by
    simp only [tlsUsers, List.countP_cons, holds]
  refine ⟨fun id generation found => users id ▸ ledger.counted id generation found,
    fun id missing => (users id).trans (ledger.ranged id missing), ?_,
      fun generation member gone other recorded => ?_,
    fun other member => ?_, ledger.ordered_append (.inr rfl) (custody.in_hand_not_spent List.mem_cons_self)⟩
  · rw [freed, List.flatMap_cons, contexts']
    exact custody.spend
  · have known := ledger.given generation member gone other recorded
    rw [freed]
    simp only [List.flatMap_cons, drops, drops', List.mem_append, List.mem_cons] at known ⊢
    rcases known with done | (rfl | mine) | others
    · exact .inl (.inl done)
    · exact .inl (.inr (.inl rfl))
    · exact .inr (.inl mine)
    · exact .inr (.inr others)
  · rcases List.mem_cons.mp member with rfl | old
    · exact sound
    · exact ledger.sound other (List.mem_cons_of_mem _ old)

/-- A context that a generation still has is passed to the provider. -/
theorem use {context : Nat} (ledger : TlsLedger generations holders channels created events calls)
    (found : generations[id]? = some generation) (alive : generation.destroyed = false)
    (recorded : context ∈ generation.recorded) :
    TlsLedger generations holders channels created (events ++ [.used context]) calls := by
  have freed : freedContexts (events ++ [.used context]) = freedContexts events := by
    simp [freedContexts, ContextEvent.freed?]
  have held : context ∈ generations.flatMap (·.contexts) := by
    refine List.mem_flatMap.mpr ⟨generation, List.mem_of_getElem? found, ?_⟩
    rwa [(ledger.counted id generation found).recorded_contexts alive]
  refine ⟨ledger.counted, ledger.ranged, freed ▸ ledger.custody, freed ▸ ledger.given, ledger.sound,
    ledger.ordered_append (.inl rfl) (ledger.custody.held_not_spent held)⟩

/-- A new generation has what its reload created. -/
theorem append {generationId left : Nat} {before : Option Nat} {contexts : List Nat}
    (ledger : TlsLedger generations holders channels created events
      (.building generationId before left contexts :: calls)) :
    TlsLedger (generations ++ [({ generationId, contexts } : TlsGeneration)]) holders channels created
      events calls := by
  have users (id : Nat) : tlsUsers holders channels calls id =
      tlsUsers holders channels (.building generationId before left contexts :: calls) id := by
    simp [tlsUsers, TlsCall.holds]
  refine ⟨fun id generation found => ?_, fun id missing => ?_, ?_, fun generation member gone => ?_,
    fun call member => ?_, ledger.ordered⟩
  · rw [users]
    rcases Counting.concat_at.mp found with old | ⟨rfl, rfl⟩
    · exact ledger.counted id generation old
    · rw [ledger.ranged generations.length (by simp)]
      exact ⟨rfl, by simp, rfl⟩
  · rw [users]
    refine ledger.ranged id (List.getElem?_eq_none ?_)
    have := List.getElem?_eq_none_iff.mp missing
    rw [List.length_append] at this
    omega
  · refine ledger.custody.move ?_
    simp only [List.flatMap_append, List.flatMap_cons, List.flatMap_nil, List.append_nil,
      List.append_assoc, TlsCall.contexts]
    exact .refl _
  · rcases List.mem_append.mp member with old | new
    · exact ledger.given generation old gone
    · rw [List.mem_singleton.mp new] at gone
      cases gone
  · have known := ledger.sound call (List.mem_cons_of_mem _ member)
    unfold Sound at known ⊢
    split
    · obtain ⟨generation, found, recorded⟩ := known
      exact ⟨generation, Counting.concat_at.mpr (.inl found), recorded⟩
    · obtain ⟨generation, found, alive, recorded⟩ := known
      exact ⟨generation, Counting.concat_at.mpr (.inl found), alive, recorded⟩
    · trivial

/-- One generation changes, with the references and the contexts of the calls. -/
theorem replace (ledger : TlsLedger generations holders channels created events calls)
    (found : generations[id]? = some generation)
    (users : ∀ other, other ≠ id →
      tlsUsers holders' channels' calls' other = tlsUsers holders channels calls other)
    (counted : TlsGeneration.Referenced (tlsUsers holders' channels' calls' id) next)
    (same : next.recorded = generation.recorded)
    (moved : (next.contexts ++ calls'.flatMap TlsCall.contexts).Perm
      (generation.contexts ++ calls.flatMap TlsCall.contexts))
    (given : next.destroyed = true → ∀ context ∈ next.recorded,
      context ∈ freedContexts events ++ calls'.flatMap TlsCall.drops)
    (drops : ∀ context ∈ calls.flatMap TlsCall.drops, context ∈ calls'.flatMap TlsCall.drops)
    (sound : ∀ call ∈ calls', Sound (generations.set id next) call) :
    TlsLedger (generations.set id next) holders' channels' created events calls' := by
  have small : id < generations.length := (List.getElem?_eq_some_iff.mp found).1
  refine ⟨fun other generation' found' => ?_, fun other missing => ?_, ?_,
    fun generation' member gone context recorded => ?_, sound, ledger.ordered⟩
  · by_cases here : other = id
    · subst here
      rw [List.getElem?_set_self small] at found'
      exact Option.some.inj found' ▸ counted
    · rw [List.getElem?_set_ne (Ne.symm here)] at found'
      exact users other here ▸ ledger.counted other generation' found'
  · have there : other ≠ id := by
      rintro rfl
      rw [List.getElem?_set_self small] at missing
      cases missing
    rw [List.getElem?_set_ne (Ne.symm there)] at missing
    exact (users other there).trans (ledger.ranged other missing)
  · obtain ⟨earlier, later, split, -, split'⟩ := @List.exists_of_set _ id next generations small
    rw [(List.getElem?_eq_some_iff.mp found).2] at split
    refine ledger.custody.move ?_
    rw [split', split]
    simp only [List.flatMap_append, List.flatMap_cons, List.append_assoc]
    refine List.Perm.append_left _ ?_
    have shuffle (front middle back : List Nat) :
        (front ++ (middle ++ back)).Perm (middle ++ (front ++ back)) :=
      List.perm_append_comm_assoc _ _ _
    exact (shuffle _ _ _).trans ((moved.append_left _).trans (shuffle _ _ _).symm)
  · rcases List.mem_or_eq_of_mem_set member with old | rfl
    · rcases List.mem_append.mp (ledger.given generation' old gone context recorded) with done | waiting
      · exact List.mem_append_left _ done
      · exact List.mem_append_right _ (drops context waiting)
    · exact given gone context recorded

/-- Somebody gets a reference. -/
theorem retain (ledger : TlsLedger generations holders channels created events calls)
    (found : generations[id]? = some generation) (run : generation.retain = .ok next) :
    TlsLedger (generations.set id next) (holders ++ [id]) channels created events calls := by
  obtain ⟨counted, alive, rfl⟩ := (ledger.counted id generation found).retain run
  have users (other : Nat) : tlsUsers (holders ++ [id]) channels calls other =
      tlsUsers holders channels calls other + if id = other then 1 else 0 := by
    simp only [tlsUsers, List.count_append, List.count_singleton, beq_iff_eq]
    omega
  refine ledger.replace found (fun other different => ?_) ?_ rfl (.refl _) (fun gone => ?_)
    (fun _ member => member)
    fun call member => (ledger.sound call member).set found rfl fun gone => ?_
  · rw [users, if_neg (Ne.symm different), Nat.add_zero]
  · rwa [users, if_pos rfl]
  · exact absurd gone (by simp [alive])
  · exact absurd gone (by simp [alive])

/-- A reference went, and the call that had it has the contexts if it was the last. -/
theorem give (next : TlsGeneration) {after : TlsGeneration × Option (List Nat)}
    {failed : Option FailedReload}
    (ledger : TlsLedger generations holders channels created events (call :: calls))
    (found : generations[id]? = some generation) (contexts : call.contexts = [])
    (same : next.recorded = generation.recorded) (same' : next.contexts = generation.contexts)
    (kept : generation.destroyed = false) (alive : next.destroyed = false)
    (users : ∀ other, other ≠ id →
      tlsUsers holders channels calls other = tlsUsers holders channels (call :: calls) other)
    (counted : TlsGeneration.Referenced (tlsUsers holders channels calls id) after.1)
    (gave : TlsGeneration.Gave next after) (drops : call.drops = [])
    (quiet : next.references = 1 → ∀ other ∈ calls, other.installs id = false) :
    TlsLedger (generations.set id after.1) holders channels created events
      (TlsLifetime.freeing after.2 failed :: calls) := by
  have holder (other : Nat) : tlsUsers holders channels (TlsLifetime.freeing after.2 failed ::
      calls) other = tlsUsers holders channels calls other := by
    simp [tlsUsers, TlsLifetime.freeing, TlsCall.holds]
  have hands (given : Option (List Nat)) :
      (TlsLifetime.freeing given failed).contexts = (given.getD []).reverse := rfl
  have whole : generation.contexts = generation.recorded :=
    (ledger.counted id generation found).recorded_contexts kept
  refine ledger.replace found (fun other different => (holder other).trans (users other different))
    (holder id ▸ counted) ?_ ?_
    ?_ ?_ ?_
  · rcases gave with ⟨rfl, -⟩ | ⟨rfl, -⟩
    · exact same
    · exact same
  · rcases gave with ⟨rfl, -⟩ | ⟨rfl, -⟩
    · simp [hands, contexts, same']
    · simp only [List.flatMap_cons, hands, contexts, whole, same, Option.getD_some, List.nil_append]
      exact (List.reverse_perm _).append_right _
  · intro gone context recorded
    rcases gave with ⟨rfl, -⟩ | ⟨rfl, -⟩
    · exact absurd gone (by simp [alive])
    · refine List.mem_append_right _ ?_
      simp only [List.flatMap_cons, TlsLifetime.freeing, TlsCall.drops, Option.getD_some]
      exact List.mem_append_left _ (List.mem_reverse.mpr recorded)
  · intro context member
    simp only [List.flatMap_cons, drops, List.nil_append] at member
    exact List.mem_append_right _ member
  · intro other member
    rcases List.mem_cons.mp member with rfl | old
    · trivial
    · refine (ledger.sound other (List.mem_cons_of_mem _ old)).set found ?_ fun gone => ?_
      · rcases gave with ⟨rfl, -⟩ | ⟨rfl, -⟩
        · exact same
        · exact same
      · rcases gave with ⟨rfl, -⟩ | ⟨rfl, last⟩
        · exact absurd gone (by simp [alive])
        · exact quiet last other old

end TlsLedger

end PccGateway
