import PccGateway.Lifecycle.GenerationRun

namespace PccGateway
namespace Generations

/-- Which generations are retired (`flags`), by whom, and which have been current. While the lifecycle
is `open_` the current one is nobody's to retire. -/
structure Roles (flags : List Bool) (current : Nat) (open_ : Prop)
    (pending retirements : List (Nat × Retirer)) (currents : List Nat) : Prop where
  ranged : ∀ id ∈ currents, id < flags.length
  last : currents.getLast? = some current
  once : ((pending ++ retirements).map Prod.fst).Nodup
  made : ∀ entry ∈ pending, entry.1 < flags.length
  retired : ∀ id, flags[id]? = some true ↔ id ∈ retirements.map Prod.fst
  live : open_ → current ∉ (pending ++ retirements).map Prod.fst
  replaced : ∀ id, (id, Retirer.replaced) ∈ pending ++ retirements → id ∈ currents ∧ id ≠ current
  lost : ∀ id, (id, Retirer.lost) ∈ pending ++ retirements → id ∉ currents
  drained : ∀ id, (id, Retirer.drained) ∈ pending ++ retirements → id = current ∧ ¬ open_

namespace Roles
variable {flags : List Bool} {current : Nat} {open_ open' : Prop}
  {pending pending' retirements : List (Nat × Retirer)} {currents : List Nat}

theorem reorder (roles : Roles flags current open_ pending retirements currents)
    (moved : pending'.Perm pending) :
    Roles flags current open_ pending' retirements currents := by
  have all := moved.append_right retirements
  refine ⟨roles.ranged, roles.last, (all.map _).nodup_iff.mpr roles.once, fun entry member =>
    roles.made entry (moved.mem_iff.mp member),
    roles.retired, fun isOpen member => roles.live isOpen ((all.map _).mem_iff.mp member),
    fun id member => ?_, fun id member => ?_, fun id member => ?_⟩
  · exact roles.replaced id (all.mem_iff.mp member)
  · exact roles.lost id (all.mem_iff.mp member)
  · exact roles.drained id (all.mem_iff.mp member)

/-- The lifecycle may close. -/
theorem close (roles : Roles flags current open_ pending retirements currents) (less : open' → open_) :
    Roles flags current open' pending retirements currents :=
  ⟨roles.ranged, roles.last, roles.once, roles.made, roles.retired, fun isOpen =>
    roles.live (less isOpen), roles.replaced,
    roles.lost, fun id member => ⟨(roles.drained id member).1, fun isOpen =>
      (roles.drained id member).2 (less isOpen)⟩⟩

/-- `finish_drain` takes the current generation. -/
theorem drain (roles : Roles flags current open_ pending retirements currents) (isOpen : open_) :
    Roles flags current False ((current, .drained) :: pending) retirements currents := by
  have fresh := roles.live isOpen
  have among : current ∈ currents := List.mem_of_getLast? roles.last
  refine ⟨roles.ranged, roles.last, ?_, ?_, roles.retired, False.elim, fun id member => ?_,
    fun id member => ?_, fun id member => ?_⟩
  · simp only [List.cons_append, List.map_cons, List.nodup_cons]
    exact ⟨fresh, roles.once⟩
  · intro entry member
    rcases List.mem_cons.mp member with rfl | old
    · exact roles.ranged current among
    · exact roles.made entry old
  · simp only [List.cons_append, List.mem_cons, Prod.mk.injEq, reduceCtorEq, and_false, false_or] at member
    exact roles.replaced id member
  · simp only [List.cons_append, List.mem_cons, Prod.mk.injEq, reduceCtorEq, and_false, false_or] at member
    exact roles.lost id member
  · simp only [List.cons_append, List.mem_cons, Prod.mk.injEq, and_true] at member
    rcases member with rfl | old
    · exact ⟨rfl, not_false⟩
    · exact ⟨(roles.drained id old).1, not_false⟩

theorem entry_lt (roles : Roles flags current open_ pending retirements currents) {entry : Nat × Retirer}
    (member : entry ∈ pending ++ retirements) : entry.1 < flags.length := by
  rcases List.mem_append.mp member with waiting | done
  · exact roles.made entry waiting
  · exact (List.getElem?_eq_some_iff.mp ((roles.retired entry.1).mpr (List.mem_map_of_mem done))).1

theorem retired_append (roles : Roles flags current open_ pending retirements currents) (id : Nat) :
    (flags ++ [false])[id]? = some true ↔ id ∈ retirements.map Prod.fst := by
  rw [Counting.concat_at, ← roles.retired]
  simp

/-- A new generation is current, and the old one is to be retired. -/
theorem install (roles : Roles flags current open_ pending retirements currents) (isOpen : open_) :
    Roles (flags ++ [false]) flags.length open_ ((current, .replaced) :: pending) retirements
      (currents ++ [flags.length]) := by
  have fresh := roles.live isOpen
  have among : current ∈ currents := List.mem_of_getLast? roles.last
  have inRange := roles.ranged current among
  refine ⟨?_, List.getLast?_concat, ?_, ?_, roles.retired_append, fun _ => ?_, fun id member => ?_,
    fun id member => ?_, fun id member => ?_⟩
  · intro id member
    simp only [List.mem_append, List.mem_singleton] at member
    simp only [List.length_append, List.length_singleton]
    rcases member with old | rfl
    · exact Nat.lt_succ_of_lt (roles.ranged id old)
    · exact Nat.lt_succ_self _
  · simp only [List.cons_append, List.map_cons, List.nodup_cons]
    exact ⟨fresh, roles.once⟩
  · intro entry member
    simp only [List.length_append, List.length_singleton]
    rcases List.mem_cons.mp member with rfl | old
    · exact Nat.lt_succ_of_lt inRange
    · exact Nat.lt_succ_of_lt (roles.made entry old)
  · simp only [List.cons_append, List.map_cons, List.mem_cons, not_or]
    refine ⟨Nat.ne_of_gt inRange, fun member => ?_⟩
    obtain ⟨entry, old, same⟩ := List.mem_map.mp member
    exact Nat.ne_of_lt (roles.entry_lt old) same
  · simp only [List.cons_append, List.mem_cons, Prod.mk.injEq, and_true] at member
    rcases member with rfl | old
    · exact ⟨List.mem_append_left _ among, Nat.ne_of_lt inRange⟩
    · exact ⟨List.mem_append_left _ (roles.replaced id old).1, Nat.ne_of_lt (roles.entry_lt old)⟩
  · simp only [List.cons_append, List.mem_cons, Prod.mk.injEq, reduceCtorEq, and_false, false_or] at member
    simp only [List.mem_append, List.mem_singleton, not_or]
    exact ⟨roles.lost id member, Nat.ne_of_lt (roles.entry_lt member)⟩
  · simp only [List.cons_append, List.mem_cons, Prod.mk.injEq, reduceCtorEq, and_false, false_or] at member
    exact absurd isOpen (roles.drained id member).2

/-- A new generation is not published, and is to be retired itself. -/
theorem lose (roles : Roles flags current open_ pending retirements currents) :
    Roles (flags ++ [false]) current open_ ((flags.length, .lost) :: pending) retirements currents := by
  have among : current ∈ currents := List.mem_of_getLast? roles.last
  have fresh : flags.length ∉ (pending ++ retirements).map Prod.fst := by
    intro member
    obtain ⟨entry, old, same⟩ := List.mem_map.mp member
    exact Nat.ne_of_lt (roles.entry_lt old) same
  refine ⟨?_, roles.last, ?_, ?_, roles.retired_append, fun isOpen => ?_, fun id member => ?_,
    fun id member => ?_, fun id member => ?_⟩
  · intro id member
    simp only [List.length_append, List.length_singleton]
    exact Nat.lt_succ_of_lt (roles.ranged id member)
  · simp only [List.cons_append, List.map_cons, List.nodup_cons]
    exact ⟨fresh, roles.once⟩
  · intro entry member
    simp only [List.length_append, List.length_singleton]
    rcases List.mem_cons.mp member with rfl | old
    · exact Nat.lt_succ_self _
    · exact Nat.lt_succ_of_lt (roles.made entry old)
  · simp only [List.cons_append, List.map_cons, List.mem_cons, not_or]
    exact ⟨Nat.ne_of_lt (roles.ranged current among), roles.live isOpen⟩
  · simp only [List.cons_append, List.mem_cons, Prod.mk.injEq, reduceCtorEq, and_false, false_or] at member
    exact roles.replaced id member
  · simp only [List.cons_append, List.mem_cons, Prod.mk.injEq, and_true] at member
    rcases member with rfl | old
    · exact fun shown => Nat.lt_irrefl _ (roles.ranged _ shown)
    · exact roles.lost id old
  · simp only [List.cons_append, List.mem_cons, Prod.mk.injEq, reduceCtorEq, and_false, false_or] at member
    exact roles.drained id member

/-- A generation that is to be retired is not retired yet. -/
theorem unretired {entry : Nat × Retirer}
    (roles : Roles flags current open_ (entry :: pending) retirements currents) :
    flags[entry.1]? = some false := by
  have inRange := roles.made entry List.mem_cons_self
  have once := roles.once
  simp only [List.cons_append, List.map_cons, List.nodup_cons, List.map_append, List.mem_append,
    not_or] at once
  have notYet := mt (roles.retired entry.1).mp once.1.2
  rw [List.getElem?_eq_getElem inRange] at notYet ⊢
  simpa using notYet

theorem retire {entry : Nat × Retirer}
    (roles : Roles flags current open_ (entry :: pending) retirements currents) :
    Roles (flags.set entry.1 true) current open_ pending (retirements ++ [entry]) currents := by
  have found := roles.unretired
  have all : (pending ++ (retirements ++ [entry])).Perm (entry :: pending ++ retirements) := by
    rw [← List.append_assoc]
    exact List.perm_append_comm.trans (.refl _)
  refine ⟨by simpa using roles.ranged, roles.last, (all.map _).nodup_iff.mpr roles.once,
    fun other member => ?_, fun id => ?_,
    fun isOpen member => roles.live isOpen ((all.map _).mem_iff.mp member), fun id member =>
      roles.replaced id (all.mem_iff.mp member),
    fun id member => roles.lost id (all.mem_iff.mp member), fun id member =>
      roles.drained id (all.mem_iff.mp member)⟩
  · rw [List.length_set]
    exact roles.made other (List.mem_cons_of_mem _ member)
  · rw [Counting.set_at found]
    simp only [List.map_append, List.map_singleton, List.mem_append, List.mem_singleton]
    rw [← roles.retired]
    by_cases mine : entry.1 = id
    · simp [mine]
    · simp [mine, Ne.symm mine]

end Roles
/-- One `publish` at a time makes a generation, and its identifier is above those of the generations
that were current. -/
structure Ordered (publishing : Bool) (nextId : Nat) (building : List Nat) (flagged : Nat)
    (ids : List Nat) : Prop where
  flag : flagged = if publishing then 1 else 0
  rising : ids.Pairwise (· < ·)
  below : ∀ id ∈ ids, id < nextId
  next : ∀ id ∈ building, id < nextId ∧ ∀ old ∈ ids, old < id

namespace Ordered
variable {publishing : Bool} {nextId flagged generationId : Nat} {building building' ids : List Nat}

theorem reorder (ordered : Ordered publishing nextId building flagged ids)
    (moved : building'.Perm building) :
    Ordered publishing nextId building' flagged ids :=
  ⟨ordered.flag, ordered.rising, ordered.below, fun id member => ordered.next id (moved.mem_iff.mp member)⟩

theorem begin (ordered : Ordered false nextId building flagged ids) :
    Ordered true (nextId + 1) (nextId :: building) (flagged + 1) ids := by
  have flag := ordered.flag
  simp only [Bool.false_eq_true, if_false] at flag
  refine ⟨by simp [flag], ordered.rising, fun id member => Nat.lt_succ_of_lt (ordered.below id member),
    fun id member => ?_⟩
  rcases List.mem_cons.mp member with rfl | old
  · exact ⟨Nat.lt_succ_self _, ordered.below⟩
  · exact ⟨Nat.lt_succ_of_lt (ordered.next id old).1, (ordered.next id old).2⟩

/-- The generation is published: nothing else is being made. -/
theorem install (ordered : Ordered publishing nextId (generationId :: building) flagged ids)
    (alone : building.length + 1 ≤ flagged) :
    Ordered publishing nextId building flagged (ids ++ [generationId]) := by
  have flag := ordered.flag
  obtain ⟨below, above⟩ := ordered.next generationId List.mem_cons_self
  have none_ : building = [] := by
    have few : flagged ≤ 1 := by
      rw [flag]
      split <;> omega
    exact List.eq_nil_of_length_eq_zero (by omega)
  refine ⟨flag, ?_, ?_, by simp [none_]⟩
  · rw [List.pairwise_append]
    exact ⟨ordered.rising, List.pairwise_singleton _ _, fun old member new last =>
      List.mem_singleton.mp last ▸ above old member⟩
  · intro id member
    simp only [List.mem_append, List.mem_singleton] at member
    rcases member with old | rfl
    · exact ordered.below id old
    · exact below

/-- A `publish` ends, or loses its generation. -/
theorem finish (ordered : Ordered publishing nextId building (flagged + 1) ids) :
    Ordered false nextId building flagged ids := by
  have flag := ordered.flag
  refine ⟨?_, ordered.rising, ordered.below, ordered.next⟩
  cases publishing with
  | false => simp at flag
  | true => simpa using flag

theorem drop (ordered : Ordered publishing nextId (generationId :: building) flagged ids) :
    Ordered publishing nextId building flagged ids :=
  ⟨ordered.flag, ordered.rising, ordered.below, fun id member =>
    ordered.next id (List.mem_cons_of_mem _ member)⟩

end Ordered

/-- A generation is referenced by its holders, and by the lifecycle until it is retired. It has its
resources until its last reference goes. -/
structure Referenced (holders : Nat) (generation : GatewayGeneration) : Prop where
  references : generation.references = (if generation.retired then 0 else 1) + holders
  released : generation.released = true ↔ generation.references = 0
  resources : generation.resources = if generation.released then [] else generation.recorded

namespace Referenced
variable {holders : Nat} {generation : GatewayGeneration}

theorem retain (referenced : Referenced holders generation) (kept : generation.released = false) :
    Referenced (holders + 1) { generation with references := generation.references + 1 } := by
  obtain ⟨references, released, resources⟩ := referenced
  refine ⟨?_, ?_, resources⟩
  · simp only [references]
    push_cast
    omega
  · simp only [kept, Bool.false_eq_true, false_iff]
    split at references <;> omega

theorem attach (referenced : Referenced holders generation) (kept : generation.released = false)
    (retained : Retained) :
    Referenced holders { generation with
      resources := generation.resources ++ [retained], recorded := generation.recorded ++ [retained] } := by
  obtain ⟨references, released, resources⟩ := referenced
  refine ⟨references, released, ?_⟩
  simp only [kept, Bool.false_eq_true, if_false] at resources ⊢
  rw [resources]

/-- A reference goes: the holder's, or the lifecycle's. -/
theorem drop (kept : generation.released = false) (resources : generation.resources = generation.recorded)
    (less : generation.references - 1 = (if generation.retired then 0 else 1) + holders) :
    Referenced holders generation.drop.1 := by
  unfold GatewayGeneration.drop
  split
  · rename_i last
    refine ⟨less, ?_, rfl⟩
    simpa using last
  · rename_i more
    refine ⟨less, ?_, ?_⟩
    · simp only [kept, Bool.false_eq_true, false_iff]
      exact more
    · simpa [kept] using resources

end Referenced

/-- Every retain has one place: it was released, a generation has it, or a call does. A generation
that is released has released what was recorded, or a call does so. -/
structure Tokens (retains : Nat) (releases : List Retained) (generations : List GatewayGeneration)
    (hands dropping : List Retained) : Prop where
  places : ((releases ++ generations.flatMap (fun generation => generation.resources) ++ hands).map
    Retained.call).Perm
    (List.range retains)
  dropped : ∀ generation ∈ generations, generation.released = true → ∀ entry ∈ generation.recorded,
    entry ∈ releases ++ dropping

namespace Tokens
variable {retains : Nat} {releases hands hands' dropping dropping' : List Retained}
  {generations : List GatewayGeneration}

theorem reorder (tokens : Tokens retains releases generations hands dropping) (moved : hands'.Perm hands)
    (drops : ∀ entry ∈ dropping, entry ∈ dropping') :
    Tokens retains releases generations hands' dropping' := by
  refine ⟨((moved.append_left _).map _).trans tokens.places,
    fun generation member released entry recorded => ?_⟩
  rcases List.mem_append.mp (tokens.dropped generation member released entry recorded) with done | waiting
  · exact List.mem_append_left _ done
  · exact List.mem_append_right _ (drops entry waiting)

/-- A generation gets resources from a call, or gives them up to it. -/
theorem replace (tokens : Tokens retains releases generations hands dropping) {id : Nat}
    {old next : GatewayGeneration}
    (found : generations[id]? = some old) (moved : (next.resources ++ hands').Perm (old.resources ++ hands))
    (drops : next.released = true → ∀ entry ∈ next.recorded, entry ∈ releases ++ dropping')
    (more : ∀ entry ∈ dropping, entry ∈ dropping') :
    Tokens retains releases (generations.set id next) hands' dropping' := by
  refine ⟨List.Perm.trans (List.Perm.map _ ?_) tokens.places,
    fun generation member released entry recorded => ?_⟩
  · have flat :=
      Counting.flatMap_set (fun generation : GatewayGeneration => generation.resources) found next
    -- the resources of the old generation cancel
    refine (List.perm_append_right_iff old.resources).mp ?_
    simp only [List.append_assoc]
    refine List.Perm.append_left _ ?_
    have swap := (@List.perm_append_comm _ hands' old.resources).append_left
      ((generations.set id next).flatMap fun generation => generation.resources)
    refine swap.trans ?_
    rw [← List.append_assoc]
    refine (flat.append_right hands').trans ?_
    rw [List.append_assoc]
    refine (moved.append_left _).trans ?_
    exact List.perm_append_comm.append_left _
  · rcases List.mem_or_eq_of_mem_set member with old | rfl
    · rcases List.mem_append.mp (tokens.dropped generation old released entry recorded) with done | waiting
      · exact List.mem_append_left _ done
      · exact List.mem_append_right _ (more entry waiting)
    · exact drops released entry recorded

/-- A new generation has what its `publish` retained. -/
theorem install (tokens : Tokens retains releases generations (hands' ++ hands) dropping)
    {generation : GatewayGeneration}
    (kept : generation.released = false) (resources : generation.resources = hands') :
    Tokens retains releases (generations ++ [generation]) hands dropping := by
  refine ⟨?_, fun other member released => ?_⟩
  · simpa only [List.flatMap_append, List.flatMap_singleton, resources,
      List.append_assoc] using tokens.places
  · rcases List.mem_append.mp member with old | new
    · exact tokens.dropped other old released
    · rw [List.mem_singleton.mp new, kept] at released
      cases released

/-- `resource.retain()`. -/
theorem retain (tokens : Tokens retains releases generations hands dropping) (resource : Nat) :
    Tokens (retains + 1) releases generations (⟨resource, retains⟩ :: hands) dropping := by
  refine ⟨?_, tokens.dropped⟩
  rw [List.range_succ]
  refine List.Perm.trans ?_ (tokens.places.append_right [retains])
  simp only [List.map_append, List.map_cons, List.append_assoc]
  refine List.Perm.append_left _ (List.Perm.append_left _ ?_)
  exact (List.perm_append_singleton _ _).symm

/-- `resource.release()`. -/
theorem release {entry : Retained} (tokens : Tokens retains releases generations (entry :: hands) dropping)
    (drops : ∀ other ∈ dropping, other = entry ∨ other ∈ dropping') :
    Tokens retains (releases ++ [entry]) generations hands dropping' := by
  refine ⟨List.Perm.trans (List.Perm.map _ ?_) tokens.places,
    fun generation member released other recorded => ?_⟩
  · simp only [List.append_assoc]
    refine List.Perm.append_left _ ?_
    exact (@List.perm_middle _ entry (generations.flatMap fun generation => generation.resources)
      hands).symm
  · simp only [List.mem_append, List.mem_singleton, or_assoc]
    rcases List.mem_append.mp (tokens.dropped generation member released other recorded) with done | waiting
    · exact .inl done
    · exact .inr (drops other waiting)

end Tokens
namespace Lifetime

/-- The identifiers of the generations that have been current. -/
def ids (run : Lifetime) : List Nat :=
  run.currents.filterMap fun id => run.store.generations[id]?.map fun generation => generation.generationId

structure Kept (run : Lifetime) : Prop where
  referenced : ∀ (id : Nat) (generation : GatewayGeneration), run.store.generations[id]? = some generation →
    Referenced (run.holders.count id) generation
  held : ∀ id ∈ run.holders, id ∈ run.currents
  roles : Roles (run.store.generations.map fun generation => generation.retired) run.store.current
    (run.store.lifecycle.state.rank < GatewayState.stopped.rank) (run.calls.filterMap Call.pending)
      run.retirements run.currents
  ordered : Ordered run.store.publishing run.store.nextGenerationId (run.calls.filterMap Call.building)
    (run.calls.countP Call.publishing) run.ids
  tokens : Tokens run.retains run.releases run.store.generations (run.calls.flatMap Call.retained)
    (run.calls.flatMap Call.dropping)

section Kept
variable {run : Lifetime}

/-- A `publish` that makes a generation has set the flag. -/
theorem building_le (calls : List Call) :
    (calls.filterMap Call.building).length ≤ calls.countP Call.publishing := by
  induction calls with
  | nil => exact le_rfl
  | cons call calls ih =>
    cases call with
    | constructing =>
      simp only [List.filterMap_cons, Call.building, List.length_cons, List.countP_cons,
        Call.publishing, if_true]
      omega
    | retiring | releasing | collecting | attaching | attached | rejecting =>
      simp only [List.filterMap_cons, Call.building, List.countP_cons]
      omega

/-- A call is taken up: the order of the calls says nothing. -/
theorem Kept.takes_up (kept : run.Kept) {place : Nat} {call : Call}
    (found : run.calls[place]? = some call) :
    Kept { run with calls := call :: run.calls.eraseIdx place } := by
  obtain ⟨inRange, is⟩ := List.getElem?_eq_some_iff.mp found
  have moved : (call :: run.calls.eraseIdx place).Perm run.calls := by
    have split : run.calls.take place ++ call :: run.calls.drop (place + 1) = run.calls := by
      rw [← is, List.getElem_cons_drop, List.take_append_drop]
    rw [List.eraseIdx_eq_take_drop_succ]
    exact List.perm_middle.symm.trans (.of_eq split)
  have ordered := kept.ordered.reorder (moved.filterMap Call.building)
  rw [← moved.countP_eq Call.publishing] at ordered
  exact ⟨kept.referenced, kept.held, kept.roles.reorder (moved.filterMap Call.pending), ordered,
    kept.tokens.reorder (moved.flatMap_right _) fun entry =>
      (moved.flatMap_right Call.dropping).mem_iff.mpr⟩

/-- A step that leaves the generations alone. -/
theorem Kept.lifecycle (kept : run.Kept) {lifecycle : GatewayLifecycle}
    (forward : run.store.lifecycle.state.rank ≤ lifecycle.state.rank) :
    Kept { run with store := { run.store with lifecycle } } :=
  ⟨kept.referenced, kept.held, kept.roles.close fun isOpen => forward.trans_lt isOpen, kept.ordered,
    kept.tokens⟩

theorem Kept.collect (kept : run.Kept) (retiredGenerations : List Nat) :
    Kept { run with store := { run.store with retiredGenerations } } :=
  ⟨kept.referenced, kept.held, kept.roles, kept.ordered, kept.tokens⟩

theorem ids_set {generations : List GatewayGeneration} {id : Nat} {old next : GatewayGeneration}
    (found : generations[id]? = some old) (same : next.generationId = old.generationId)
    (currents : List Nat) :
    (currents.filterMap fun other => (generations.set id next)[other]?.map fun generation =>
      generation.generationId) =
      currents.filterMap fun other => generations[other]?.map fun generation =>
        generation.generationId := by
  refine List.filterMap_congr fun other _ => ?_
  rw [Counting.set_at found]
  split
  · rename_i mine
    rw [← mine, found, Option.map_some, Option.map_some, same]
  · rfl

theorem Kept.put (kept : run.Kept) {id : Nat} {old next : GatewayGeneration}
    (found : run.store.generations[id]? = some old)
    (retired : next.retired = old.retired) (sameId : next.generationId = old.generationId)
    {holders : List Nat} {calls : List Call} (referenced : Referenced (holders.count id) next)
    (others : ∀ other, other ≠ id → holders.count other = run.holders.count other)
    (held : ∀ other ∈ holders, other ∈ run.currents)
    (pending : calls.filterMap Call.pending = run.calls.filterMap Call.pending)
    (building : calls.filterMap Call.building = run.calls.filterMap Call.building)
    (publishing : calls.countP Call.publishing = run.calls.countP Call.publishing)
    (tokens : Tokens run.retains run.releases (run.store.generations.set id next)
      (calls.flatMap Call.retained)
      (calls.flatMap Call.dropping)) :
    Kept { run with store := run.store.put id next, holders, calls } := by
  refine ⟨fun other generation is => ?_, held, ?_, ?_, tokens⟩
  · simp only [Generations.put, Counting.set_at found] at is
    split at is
    · rename_i mine
      subst mine
      cases is
      exact referenced
    · rename_i differs
      simp only
      rw [others other (Ne.symm differs)]
      exact kept.referenced other generation is
  · simp only [Generations.put, Counting.map_set_same (f := fun generation : GatewayGeneration =>
      generation.retired) found retired, pending]
    exact kept.roles
  · simp only [Generations.put, ids, ids_set found sameId, building, publishing]
    exact kept.ordered

theorem Kept.kept_resources (kept : run.Kept) {id : Nat} {generation : GatewayGeneration}
    (found : run.store.generations[id]? = some generation) (live : generation.released = false) :
    generation.resources = generation.recorded := by
  simpa [live] using (kept.referenced id generation found).resources

theorem Kept.retain (kept : run.Kept) {id : Nat} {generation : GatewayGeneration}
    (shown : id ∈ run.currents)
    (found : run.store.generations[id]? = some generation) (live : generation.released = false) :
    Kept { run with
      store := run.store.put id { generation with references := generation.references + 1 }
      holders := run.holders ++ [id] } := by
  refine kept.put found (by rfl) (by rfl) ?_ (fun other differs => ?_) (fun other member => ?_) rfl rfl rfl
    (kept.tokens.replace found (.refl _) (fun released => ?_) fun _ waiting => waiting)
  · simpa [List.count_append] using (kept.referenced id generation found).retain live
  · simp [List.count_append, Ne.symm differs]
  · rcases List.mem_append.mp member with old | new
    · exact kept.held other old
    · rw [List.mem_singleton.mp new]
      exact shown
  · rw [live] at released
    cases released

/-- What a dropped reference leaves to release is what the generation had recorded. -/
theorem dropped_resources {generation : GatewayGeneration}
    (same : generation.resources = generation.recorded) :
    (generation.drop.1.resources ++ (generation.drop.2.getD []).reverse).Perm generation.resources ∧
      (generation.drop.1.released = true → generation.released = false →
        ∀ entry ∈ generation.drop.1.recorded, entry ∈ (generation.drop.2.getD []).reverse) := by
  unfold GatewayGeneration.drop
  split
  · refine ⟨List.reverse_perm _, fun _ _ entry member => ?_⟩
    simpa [same] using member
  · refine ⟨by simp, fun released live => ?_⟩
    simp only [live] at released
    cases released

theorem drop_same (generation : GatewayGeneration) : generation.drop.1.retired = generation.retired ∧
    generation.drop.1.generationId = generation.generationId := by
  unfold GatewayGeneration.drop
  split <;> exact ⟨rfl, rfl⟩

/-- A holder finds its generation and gives its reference back. -/
theorem Kept.release (kept : run.Kept) {id : Nat} {generation : GatewayGeneration}
    (holder : id ∈ run.holders) (found : run.store.generations[id]? = some generation) :
    generation.released = false ∧ 0 < generation.references ∧ Kept { run with
      store := run.store.put id generation.drop.1
      holders := run.holders.erase id
      calls := releasing generation.drop.2 false :: run.calls } := by
  obtain ⟨references, released, -⟩ := kept.referenced id generation found
  have some_ : 0 < run.holders.count id := List.count_pos_iff.mpr holder
  have positive : 0 < generation.references := by
    rw [references]
    split <;> omega
  have live : generation.released = false := by
    by_contra gone
    have zero := released.mp (by simpa using gone)
    omega
  have same := kept.kept_resources found live
  obtain ⟨moved, drops⟩ := dropped_resources same
  refine ⟨live, positive, kept.put found (drop_same generation).1 (drop_same generation).2 ?_
    (fun other differs => ?_)
    (fun other member => kept.held other (List.mem_of_mem_erase member)) rfl rfl rfl
    (kept.tokens.replace found ?_ (fun gone entry member => ?_) fun entry waiting => ?_)⟩
  · refine Referenced.drop live same ?_
    rw [List.count_erase_self, references]
    split <;> omega
  · exact List.count_erase_of_ne differs
  · simp only [List.flatMap_cons, releasing, Call.retained]
    rw [← List.append_assoc]
    exact moved.append_right _
  · simp only [List.flatMap_cons, releasing, Call.dropping, List.mem_append]
    exact .inr (.inl (drops gone live entry member))
  · simp only [List.flatMap_cons, releasing, Call.dropping, List.mem_append]
    exact .inr waiting

theorem publishing_retiring (id : Nat) (retirer : Retirer) (resources : List Retained) :
    (Call.retiring id retirer).publishing =
    (Call.releasing resources (decide (retirer = .replaced))).publishing := by
  cases retirer <;> rfl

/-- A generation that is to be retired is there and loses the reference of the lifecycle. -/
theorem Kept.retire {id : Nat} {retirer : Retirer} (kept : (run.goes (.retiring id retirer)).Kept) :
    ∃ generation, run.store.generations[id]? = some generation ∧ generation.retired = false ∧
    generation.released = false ∧ 0 < generation.references ∧ Kept { run with
        store := run.store.put id { generation with retired := true }.drop.1
        retirements := run.retirements ++ [(id, retirer)]
        calls := releasing { generation with retired := true }.drop.2
          (decide (retirer = .replaced)) :: run.calls } := by
  have roles : Roles _ _ _ ((id, retirer) :: run.calls.filterMap Call.pending) _ _ := kept.roles
  have unretired := roles.unretired
  simp only [List.getElem?_map, Option.map_eq_some_iff] at unretired
  obtain ⟨generation, found, flag⟩ := unretired
  have found : run.store.generations[id]? = some generation := found
  obtain ⟨references, released, -⟩ := kept.referenced id generation found
  simp only [flag, Bool.false_eq_true, if_false] at references
  have positive : 0 < generation.references := by omega
  have live : generation.released = false := by
    by_contra gone
    have zero := released.mp (by simpa using gone)
    omega
  have same := kept.kept_resources found live
  obtain ⟨moved, drops⟩ := @dropped_resources { generation with retired := true } same
  obtain ⟨retired, sameId⟩ := drop_same { generation with retired := true }
  refine ⟨generation, found, flag, live, positive, fun other theirs is => ?_, kept.held, ?_, ?_, ?_⟩
  · simp only [Generations.put, Counting.set_at found] at is
    split at is
    · rename_i mine
      subst mine
      cases is
      refine Referenced.drop live same ?_
      simp only [if_true, references]
      have count : run.holders.count id = (run.goes (.retiring id retirer)).holders.count id := rfl
      omega
    · exact kept.referenced other theirs is
  · have after := roles.retire
    simp only [Generations.put, List.map_set, retired]
    exact after
  · have ordered := kept.ordered
    simp only [Lifetime.goes, ids, List.countP_cons] at ordered
    rw [publishing_retiring id retirer
      ({ generation with retired := true }.drop.2.getD []).reverse] at ordered
    simp only [Generations.put, ids, ids_set found sameId, List.countP_cons]
    exact ordered
  · refine kept.tokens.replace found ?_ (fun gone entry member => ?_) fun entry waiting => ?_
    · simp only [Lifetime.goes, List.flatMap_cons, releasing, Call.retained, List.nil_append]
      rw [← List.append_assoc]
      exact moved.append_right _
    · simp only [List.flatMap_cons, releasing, Call.dropping, List.mem_append]
      exact .inr (.inl (drops gone live entry member))
    · simp only [List.flatMap_cons, releasing, Call.dropping, List.mem_append]
      exact .inr waiting

theorem ids_append {generations : List GatewayGeneration} {currents : List Nat}
    (ranged : ∀ id ∈ currents, id < generations.length) (generation : GatewayGeneration) :
    (currents.filterMap fun other => (generations ++ [generation])[other]?.map fun generation =>
      generation.generationId) =
      currents.filterMap fun other => generations[other]?.map fun generation =>
        generation.generationId := by
  refine List.filterMap_congr fun other member => ?_
  rw [List.getElem?_append_left (ranged other member)]

/-- A new generation has no holder. -/
theorem Kept.referenced_append (kept : run.Kept) {generation : GatewayGeneration}
    (fresh : Referenced 0 generation) (id : Nat)
    (found : GatewayGeneration) (is : (run.store.generations ++ [generation])[id]? = some found) :
    Referenced (run.holders.count id) found := by
  rcases Counting.concat_at.mp is with old | ⟨rfl, rfl⟩
  · exact kept.referenced id found old
  · have none_ : run.store.generations.length ∉ run.holders := by
      intro member
      have inRange := kept.roles.ranged _ (kept.held _ member)
      rw [List.length_map] at inRange
      exact Nat.lt_irrefl _ inRange
    rw [List.count_eq_zero.mpr none_]
    exact fresh

section Install
variable {generationId config : Nat} {retained : List Retained}
  (kept : (run.goes (.constructing generationId config [] retained)).Kept)
include kept

/-- The replacement is published. -/
theorem Kept.install (running : run.store.lifecycle.state = .running) (retiredGenerations : List Nat) :
    Kept { run with
      store := { run.store with
        generations := run.store.generations ++ [{ generationId, config, resources := retained }]
        current := run.store.generations.length
        retiredGenerations }
      currents := run.currents ++ [run.store.generations.length]
      calls := .retiring run.store.current .replaced :: run.calls } := by
  have isOpen : run.store.lifecycle.state.rank < GatewayState.stopped.rank := by
    rw [running]
    decide
  have roles := kept.roles.install isOpen
  have ranged : ∀ id ∈ run.currents, id < run.store.generations.length := by
    simpa [Lifetime.goes] using kept.roles.ranged
  refine ⟨kept.referenced_append ⟨rfl, by simp, rfl⟩, fun id member =>
    List.mem_append_left _ (kept.held id member), ?_, ?_, ?_⟩
  · simpa [Lifetime.goes, List.filterMap_cons, Call.pending] using roles
  · have ordered : Ordered _ _ (generationId :: run.calls.filterMap Call.building) _ _ := kept.ordered
    have alone := building_le run.calls
    have after :=
      ordered.install (by simp only [Lifetime.goes, List.countP_cons, Call.publishing, if_true]; omega)
    simp only [Lifetime.goes, ids, List.countP_cons] at after
    simp only [ids, List.filterMap_append, ids_append ranged, List.countP_cons]
    simpa [List.filterMap_cons, Call.building, Call.publishing] using after
  · have tokens : Tokens _ _ _ (retained ++ run.calls.flatMap Call.retained) _ := kept.tokens
    exact tokens.install rfl rfl

/-- The replacement is not published. -/
theorem Kept.lose : Kept { run with
      store := { run.store with
        generations := run.store.generations ++ [{ generationId, config, resources := retained }]
        publishing := false }
      calls := .retiring run.store.generations.length .lost :: run.calls } := by
  have roles := kept.roles.lose
  have ranged : ∀ id ∈ run.currents, id < run.store.generations.length := by
    simpa [Lifetime.goes] using kept.roles.ranged
  refine ⟨kept.referenced_append ⟨rfl, by simp, rfl⟩, kept.held, ?_, ?_, ?_⟩
  · simpa [Lifetime.goes, List.filterMap_cons, Call.pending] using roles
  · have ordered : Ordered _ _ (generationId :: run.calls.filterMap Call.building) _ _ := kept.ordered
    have after := ordered.drop
    simp only [Lifetime.goes, ids, List.countP_cons, Call.publishing, if_true] at after
    simp only [ids, ids_append ranged]
    exact after.finish
  · have tokens : Tokens _ _ _ (retained ++ run.calls.flatMap Call.retained) _ := kept.tokens
    exact tokens.install rfl rfl

end Install

/-- A call turns into another one that has the same part in retirements and publications. -/
theorem Kept.turn {call next : Call} (kept : (run.goes call).Kept) {retains : Nat}
    {releases : List Retained}
    (same : (next.pending, next.building, next.publishing) = (call.pending, call.building, call.publishing))
    (tokens : Tokens retains releases run.store.generations
      (next.retained ++ run.calls.flatMap Call.retained)
      (next.dropping ++ run.calls.flatMap Call.dropping)) :
    Kept { run with calls := next :: run.calls, retains, releases } := by
  simp only [Prod.mk.injEq] at same
  obtain ⟨pending, building, publishing⟩ := same
  refine ⟨kept.referenced, kept.held, ?_, ?_, tokens⟩
  · have roles := kept.roles
    simp only [Lifetime.goes, List.filterMap_cons] at roles
    simp only [List.filterMap_cons, pending]
    exact roles
  · have ordered := kept.ordered
    simp only [Lifetime.goes, List.filterMap_cons, List.countP_cons] at ordered
    simp only [List.filterMap_cons, building, List.countP_cons, publishing]
    exact ordered

/-- A call ends. -/
theorem Kept.ends {call : Call} (kept : (run.goes call).Kept) {releases : List Retained}
    (plain : (call.pending, call.building, call.publishing) = (none, none, false))
    (tokens : Tokens run.retains releases run.store.generations (run.calls.flatMap Call.retained)
      (run.calls.flatMap Call.dropping)) :
    Kept { run with releases } := by
  simp only [Prod.mk.injEq] at plain
  obtain ⟨pending, building, publishing⟩ := plain
  have roles := kept.roles
  have ordered := kept.ordered
  simp only [Lifetime.goes, List.filterMap_cons, pending] at roles
  simp only [Lifetime.goes, List.filterMap_cons, building, List.countP_cons, publishing] at ordered
  exact ⟨kept.referenced, kept.held, roles, ordered, tokens⟩

end Kept
end Lifetime
end Generations
end PccGateway
