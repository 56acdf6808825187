import PccGateway.Tls.GenerationRun

namespace PccGateway

/-- The failure that the call will report. -/
def TlsCall.failed : TlsCall → Option FailedReload
  | .retiring _ failed | .freeing _ failed => failed
  | _ => none

/-- What the reload lock protects: while one reload builds, the active generation stays, and what
fails is freed. A generation that is not active any more is retired, or a call is about to do so. -/
structure Publication (manager : TlsGenerationManager) (generations : List TlsGeneration)
    (calls : List TlsCall)
    (ids : List Nat) (failures : List FailedReload) (freed : List Nat) : Prop where
  locked : calls.countP TlsCall.locks = if manager.reloadLocked then 1 else 0
  building : ∀ generationId before left contexts, .building generationId before left contexts ∈ calls →
    manager.shut = false ∧ manager.active = before ∧ generationId < manager.nextGenerationId ∧ ∀ id ∈
      ids, id < generationId
  discarding : ∀ before created left, .discarding before created left ∈ calls →
    manager.active = before ∧ ∀ context ∈ created, context ∈ freed ∨ context ∈ left
  succeeding : ∀ call ∈ calls, call.failed = none
  failures : ∀ failure ∈ failures, failure.after = failure.before ∧ ∀ context ∈ failure.created,
    context ∈ freed
  increasing : ids.Pairwise (· < ·)
  below : ∀ id ∈ ids, id < manager.nextGenerationId
  active : ∀ id, manager.active = some id →
    ∃ generation, generations[id]? = some generation ∧ ids.getLast? = some generation.generationId
  retiring : ∀ id generation, generations[id]? = some generation →
    manager.active = some id ∨ generation.retired = true ∨ ∃ failed, .retiring id failed ∈ calls

namespace Publication
variable {manager : TlsGenerationManager} {generations : List TlsGeneration}
  {calls calls' : List TlsCall} {call call' : TlsCall}
  {ids : List Nat} {failures : List FailedReload} {freed freed' : List Nat} {id : Nat}
    {generation next : TlsGeneration}

/-- Calls that have to do neither with a reload nor with its failure come and go. -/
theorem keep (publication : Publication manager generations calls ids failures freed)
    (locks : calls'.countP TlsCall.locks = calls.countP TlsCall.locks)
    (new : ∀ call ∈ calls', call ∈ calls ∨ call.locks = false ∧ call.failed = none)
    (retiring : ∀ id failed, .retiring id failed ∈ calls → .retiring id failed ∈ calls' ∨
      ∀ generation, generations[id]? = some generation → generation.retired = true)
    (more : ∀ context ∈ freed, context ∈ freed') : Publication manager generations calls' ids failures
      freed' := by
  refine ⟨locks.trans publication.locked, fun generationId before left contexts member => ?_,
    fun before created left member => ?_, fun call member => ?_, fun failure member => ?_,
    publication.increasing, publication.below, publication.active, fun id generation found => ?_⟩
  · rcases new _ member with old | ⟨free, -⟩
    · exact publication.building generationId before left contexts old
    · cases free
  · rcases new _ member with old | ⟨free, -⟩
    · obtain ⟨same, all⟩ := publication.discarding before created left old
      exact ⟨same, fun context made => (all context made).imp_left (more context)⟩
    · cases free
  · rcases new _ member with old | ⟨-, none⟩
    · exact publication.succeeding call old
    · exact none
  · obtain ⟨same, all⟩ := publication.failures failure member
    exact ⟨same, fun context made => more context (all context made)⟩
  · rcases publication.retiring id generation found with active | done | ⟨failed, member⟩
    · exact .inl active
    · exact .inr (.inl done)
    · rcases retiring id failed member with still | all
      · exact .inr (.inr ⟨failed, still⟩)
      · exact .inr (.inl (all generation found))

theorem reorder (publication : Publication manager generations calls ids failures freed)
    (moved : calls'.Perm calls) :
    Publication manager generations calls' ids failures freed :=
  publication.keep (moved.countP_eq _) (fun _ member => .inl (moved.mem_iff.mp member))
    (fun _ _ member => .inl (moved.mem_iff.mpr member)) fun _ member => member

/-- A call begins. -/
theorem start (publication : Publication manager generations calls ids failures freed)
    (free : call.locks = false) (succeeding : call.failed = none) :
    Publication manager generations (call :: calls) ids failures freed := by
  refine publication.keep (by simp [free]) (fun other member => ?_) (fun _ _ member =>
    .inl (List.mem_cons_of_mem _ member))
    fun _ member => member
  rcases List.mem_cons.mp member with rfl | old
  · exact .inr ⟨free, succeeding⟩
  · exact .inl old

/-- A call ends that neither reloads nor retires. -/
theorem finish (publication : Publication manager generations (call :: calls) ids failures freed)
    (free : call.locks = false)
    (other : ∀ id failed, call = .retiring id failed → ∀ generation, generations[id]? = some generation →
      generation.retired = true) : Publication manager generations calls ids failures freed := by
  refine publication.keep (by simp [free]) (fun _ member => .inl (List.mem_cons_of_mem _ member))
    (fun id failed member => ?_)
    fun _ member => member
  rcases List.mem_cons.mp member with same | old
  · exact .inr (other id failed same.symm)
  · exact .inl old

/-- A generation changes, but neither its number nor back from retirement. -/
theorem change (publication : Publication manager generations calls ids failures freed)
    (found : generations[id]? = some generation) (same : next.generationId = generation.generationId)
    (stays : generation.retired = true → next.retired = true) :
    Publication manager (generations.set id next) calls ids failures freed := by
  refine ⟨publication.locked, publication.building, publication.discarding, publication.succeeding,
    publication.failures,
    publication.increasing, publication.below, fun other active => ?_, fun other generation' found' => ?_⟩
  · obtain ⟨old, known, last⟩ := publication.active other active
    rw [Counting.set_at found]
    split
    · rename_i here
      rw [← here, found] at known
      cases known
      exact ⟨next, rfl, last.trans (congrArg some same.symm)⟩
    · exact ⟨old, known, last⟩
  · rw [Counting.set_at found] at found'
    split at found'
    · rename_i here
      subst here
      cases found'
      exact (publication.retiring _ generation found).imp_right (.imp_left stays)
    · exact publication.retiring other generation' found'

/-- Without the lock nobody reloads. -/
theorem idle (publication : Publication manager generations calls ids failures freed)
    (free : manager.reloadLocked = false) (member : call ∈ calls) : call.locks = false := by
  have none := publication.locked
  rw [free] at none
  simpa using List.countP_eq_zero.mp none call member

/-- A call that has the lock is the only one. -/
theorem alone (publication : Publication manager generations (call :: calls) ids failures freed)
    (locks : call.locks = true) :
    manager.reloadLocked = true ∧ ∀ other ∈ calls, other.locks = false := by
  have one := publication.locked
  rw [List.countP_cons, locks, if_pos rfl] at one
  cases locked : manager.reloadLocked with
  | false =>
    rw [locked] at one
    simp at one
  | true =>
    rw [locked] at one
    simp only [if_true] at one
    exact ⟨rfl, fun other member => by simpa using List.countP_eq_zero.mp (Nat.succ.inj one) other member⟩

/-- The reload goes on with the lock. -/
theorem goOn (publication : Publication manager generations (call :: calls) ids failures freed)
    (locks : call.locks = true) (locks' : call'.locks = true)
    (building : ∀ generationId before left contexts, call' = .building generationId before left contexts →
      manager.shut = false ∧ manager.active = before ∧ generationId < manager.nextGenerationId ∧
      ∀ id ∈ ids, id < generationId)
    (discarding : ∀ before created left, call' = .discarding before created left →
      manager.active = before ∧ ∀ context ∈ created, context ∈ freed' ∨ context ∈ left)
    (more : ∀ context ∈ freed, context ∈ freed') : Publication manager generations (call' :: calls)
      ids failures freed' := by
  have others := (publication.alone locks).2
  have none : call'.failed = none := by cases call' <;> first | rfl | cases locks'
  refine ⟨?_, fun generationId before left contexts member => ?_,
    fun before created left member => ?_, fun other member => ?_,
    fun failure member => ?_, publication.increasing, publication.below, publication.active,
    fun id generation found => ?_⟩
  · rw [← publication.locked, List.countP_cons, List.countP_cons, locks, locks']
  · rcases List.mem_cons.mp member with same | old
    · exact building _ _ _ _ same.symm
    · cases others _ old
  · rcases List.mem_cons.mp member with same | old
    · exact discarding _ _ _ same.symm
    · cases others _ old
  · rcases List.mem_cons.mp member with rfl | old
    · exact none
    · exact publication.succeeding other (List.mem_cons_of_mem _ old)
  · obtain ⟨same, all⟩ := publication.failures failure member
    exact ⟨same, fun context made => more context (all context made)⟩
  · refine (publication.retiring id generation found).imp_right (.imp_right fun ⟨failed, member⟩ =>
      ⟨failed, ?_⟩)
    rcases List.mem_cons.mp member with rfl | old
    · cases locks
    · exact List.mem_cons_of_mem _ old

/-- A reload gets the lock. -/
theorem begin_ {certificates : Nat}
    (publication : Publication manager generations (.reloading certificates :: calls) ids failures freed)
    (free : manager.reloadLocked = false) (isOpen : manager.shut = false) :
    Publication { manager with nextGenerationId := manager.nextGenerationId + 1, reloadLocked := true }
      generations
      (.building manager.nextGenerationId manager.active (certificates + 1) [] :: calls) ids failures
      freed := by
  have others (other : TlsCall) (member : other ∈ calls) :=
    publication.idle free (List.mem_cons_of_mem _ member)
  have none : calls.countP TlsCall.locks = 0 := List.countP_eq_zero.mpr fun other member => by
    simp [others other member]
  refine ⟨?_, fun generationId before left contexts member => ?_,
    fun before created left member => ?_, fun other member => ?_,
    publication.failures, publication.increasing, fun id member => Nat.lt_succ_of_lt
      (publication.below id member), publication.active, fun id generation found => ?_⟩
  · rw [List.countP_cons, none]
    rfl
  · rcases List.mem_cons.mp member with same | old
    · cases same
      exact ⟨isOpen, rfl, Nat.lt_succ_self _, publication.below⟩
    · cases others _ old
  · rcases List.mem_cons.mp member with same | old
    · cases same
    · cases others _ old
  · rcases List.mem_cons.mp member with rfl | old
    · rfl
    · exact publication.succeeding other (List.mem_cons_of_mem _ old)
  · refine (publication.retiring id generation found).imp_right (.imp_right fun ⟨failed, member⟩ =>
      ⟨failed, ?_⟩)
    rcases List.mem_cons.mp member with same | old
    · cases same
    · exact List.mem_cons_of_mem _ old

/-- A reload publishes what it built. -/
theorem publish {generationId previous : Nat} {before : Option Nat} {contexts : List Nat}
    (publication : Publication manager generations
      (.building generationId before 0 contexts :: calls) ids failures freed)
    (active : manager.active = some previous) :
    Publication { manager with active := some generations.length, reloadLocked := false }
      (generations ++ [({ generationId, contexts } : TlsGeneration)])
      (.retiring previous none :: calls) (ids ++ [generationId])
      failures freed := by
  have others := (publication.alone rfl).2
  obtain ⟨-, -, lower, above⟩ := publication.building _ _ _ _ List.mem_cons_self
  refine ⟨?_, fun generationId before left contexts member => ?_,
    fun before created left member => ?_, fun other member => ?_,
    publication.failures, ?_, fun id member => ?_, fun id same => ?_, fun id generation found => ?_⟩
  · simpa [TlsCall.locks] using others
  · rcases List.mem_cons.mp member with same | old
    · cases same
    · cases others _ old
  · rcases List.mem_cons.mp member with same | old
    · cases same
    · cases others _ old
  · rcases List.mem_cons.mp member with rfl | old
    · rfl
    · exact publication.succeeding other (List.mem_cons_of_mem _ old)
  · refine List.pairwise_append.mpr
      ⟨publication.increasing, List.pairwise_singleton _ _, fun id member last is => ?_⟩
    rw [List.mem_singleton.mp is]
    exact above id member
  · rcases List.mem_append.mp member with old | new
    · exact publication.below id old
    · exact List.mem_singleton.mp new ▸ lower
  · cases same
    exact ⟨_, Counting.concat_at.mpr (.inr ⟨rfl, rfl⟩), List.getLast?_concat⟩
  · rcases Counting.concat_at.mp found with old | ⟨rfl, -⟩
    · rcases publication.retiring id generation old with same | done | ⟨failed, member⟩
      · rw [active] at same
        cases same
        exact .inr (.inr ⟨none, List.mem_cons_self⟩)
      · exact .inr (.inl done)
      · rcases List.mem_cons.mp member with same | waiting
        · cases same
        · exact .inr (.inr ⟨failed, List.mem_cons_of_mem _ waiting⟩)
    · exact .inl rfl

/-- A reload that failed has freed what it created. -/
theorem fail {before : Option Nat} {created : List Nat}
    (publication : Publication manager generations (.discarding before created [] :: calls) ids
      failures freed) :
    Publication { manager with reloadLocked := false } generations calls ids
      (failures ++ [⟨created, before, manager.active⟩]) freed := by
  have others := (publication.alone rfl).2
  obtain ⟨same, all⟩ := publication.discarding _ _ _ List.mem_cons_self
  refine ⟨?_, fun generationId before left contexts member => ?_,
    fun before created left member => ?_, fun other member => ?_,
    fun failure member => ?_, publication.increasing, publication.below, publication.active,
    fun id generation found => ?_⟩
  · simpa using others
  · cases others _ member
  · cases others _ member
  · exact publication.succeeding other (List.mem_cons_of_mem _ member)
  · rcases List.mem_append.mp member with old | new
    · exact publication.failures failure old
    · rw [List.mem_singleton.mp new]
      exact ⟨same, fun context made => (all context made).resolve_right List.not_mem_nil⟩
  · refine (publication.retiring id generation found).imp_right (.imp_right fun ⟨failed, member⟩ =>
      ⟨failed, ?_⟩)
    rcases List.mem_cons.mp member with same | old
    · cases same
    · exact old

/-- The manager closes, and a call retires its generation. -/
theorem close (publication : Publication manager generations (.closing :: calls) ids failures freed)
    (free : manager.reloadLocked = false)
    (retired : ∀ id, manager.active = some id → .retiring id none ∈ calls')
    (kept : ∀ call ∈ calls, call ∈ calls')
    (new : ∀ call ∈ calls', call ∈ calls ∨ ∃ id, call = .retiring id none) :
    Publication { manager with closed := true, active := none } generations calls' ids failures freed := by
  have others (other : TlsCall) (member : other ∈ calls') : other.locks = false ∧ other.failed = none := by
    rcases new other member with old | ⟨id, rfl⟩
    · exact ⟨publication.idle free (List.mem_cons_of_mem _ old),
        publication.succeeding other (List.mem_cons_of_mem _ old)⟩
    · exact ⟨rfl, rfl⟩
  refine ⟨?_, fun generationId before left contexts member => ?_, fun before created left member => ?_,
    fun other member => (others other member).2, publication.failures, publication.increasing,
    publication.below, nofun, fun id generation found => ?_⟩
  · rw [free]
    exact List.countP_eq_zero.mpr fun other member => by simp [(others other member).1]
  · cases (others _ member).1
  · cases (others _ member).1
  · rcases publication.retiring id generation found with active | done | ⟨failed, member⟩
    · exact .inr (.inr ⟨none, retired id active⟩)
    · exact .inr (.inl done)
    · rcases List.mem_cons.mp member with same | old
      · cases same
      · exact .inr (.inr ⟨failed, kept _ old⟩)

end Publication

theorem TlsGeneration.drop_same (generation : TlsGeneration) :
    generation.drop.1.generationId = generation.generationId ∧ generation.drop.1.retired =
      generation.retired := by
  unfold drop takeContexts
  dsimp only
  split
  · split <;> exact ⟨rfl, rfl⟩
  · exact ⟨rfl, rfl⟩

namespace TlsLifetime
variable {run : TlsLifetime} {call call' : TlsCall} {id : Nat} {generation : TlsGeneration}
  {failed : Option FailedReload}

/-- What is published in a run whose calls are these. -/
def PublicationOf (run : TlsLifetime) (calls : List TlsCall) : Prop :=
  Publication run.manager run.generations calls run.activeIds run.failures run.freed

theorem freed_logs (run : TlsLifetime) (event : ContextEvent) :
    (run.logs event).freed = run.freed ++ event.freed?.toList := by
  simp only [freed, freedContexts, logs, List.filterMap_append, List.filterMap_cons, List.filterMap_nil]
  cases event.freed? <;> rfl

theorem freed_grows (run : TlsLifetime) (event : ContextEvent) :
    ∀ context ∈ run.freed, context ∈ (run.logs event).freed := by
  intro context member
  rw [freed_logs]
  exact List.mem_append_left _ member

/-- A call that does not reload goes on. -/
theorem PublicationOf.swap {freed' : List Nat} (publication : run.PublicationOf (call :: run.calls))
    (free : call.locks = false) (free' : call'.locks = false) (succeeding : call'.failed = none)
    (retires : ∀ id failed, call = .retiring id failed →
      ∀ generation, run.generations[id]? = some generation → generation.retired = true)
    (more : ∀ context ∈ run.freed, context ∈ freed') :
    Publication run.manager run.generations (call' :: run.calls) run.activeIds run.failures freed' :=
  ((Publication.finish publication free retires).start free' succeeding).keep rfl (fun _ member =>
    .inl member)
    (fun _ _ member => .inl member) more

theorem retires_publication (publication : run.PublicationOf (.retiring id failed :: run.calls))
    (ledger : run.LedgerOf (.retiring id failed :: run.calls)) (succeeds : Bool) :
    (run.proceed (.retiring id failed) succeeds).PublicationOf
    (run.proceed (.retiring id failed) succeeds).calls := by
  have succeeding : failed = none := publication.succeeding _ List.mem_cons_self
  unfold proceed
  dsimp only
  split
  · rename_i missing
    refine Publication.finish publication rfl fun id' failed' same generation found => ?_
    cases same
    rw [missing] at found
    cases found
  · rename_i generation found
    have ends (next : TlsGeneration) (retired : next.retired = true)
      (same : next.generationId = generation.generationId)
        (contexts : Option (List Nat)) : Publication run.manager (run.generations.set id next)
          (freeing contexts failed :: run.calls) run.activeIds run.failures run.freed := by
      have changed := Publication.change publication found same fun _ => retired
      refine (changed.finish rfl fun id' failed' is generation' found' => ?_).start rfl succeeding
      cases is
      rw [Counting.set_at found, if_pos rfl] at found'
      cases found'
      exact retired
    cases already : generation.retired with
    | true =>
      have same : generation.retire = .ok (generation, none) := by simp [TlsGeneration.retire, already]
      rw [same]
      exact ends generation already rfl none
    | false =>
      obtain ⟨ran, -, -⟩ := (ledger.counted id generation found).retire already
      obtain ⟨number, retired⟩ := TlsGeneration.drop_same { generation with retired := true }
      rw [ran]
      exact ends _ retired number _

theorem drops_publication (publication : run.PublicationOf (.dropping id :: run.calls)) (succeeds : Bool) :
    (run.proceed (.dropping id) succeeds).PublicationOf (run.proceed (.dropping id) succeeds).calls := by
  have finished := Publication.finish publication rfl nofun
  unfold proceed
  dsimp only
  split
  · exact finished
  · rename_i generation found
    split
    · exact finished
    · rename_i next contexts released
      unfold TlsGeneration.release at released
      split at released
      · cases released
      · have given := Except.ok.inj released
        obtain ⟨number, retired⟩ := generation.drop_same
        rw [given] at number retired
        exact (finished.change found number fun done => retired.trans done).start rfl rfl

theorem proceeds_publication (publication : run.PublicationOf (call :: run.calls))
    (ledger : run.LedgerOf (call :: run.calls))
    (succeeds : Bool) : (run.proceed call succeeds).PublicationOf (run.proceed call succeeds).calls := by
  cases call with
  | reloading certificates =>
    unfold proceed
    dsimp only
    split
    · exact publication
    · rename_i free
      split
      · exact Publication.finish publication rfl nofun
      · rename_i isOpen
        exact Publication.begin_ publication (by simpa using free) (by simpa using isOpen)
  | building generationId before certificates contexts =>
    obtain ⟨isOpen, active, lower, above⟩ := publication.building _ _ _ _ List.mem_cons_self
    cases certificates with
    | zero =>
      unfold proceed
      dsimp only
      split
      · rename_i previous _ is
        exact Publication.publish publication is
      · rename_i lost
        cases is : run.manager.active with
        | none => simp [TlsGenerationManager.shut, is] at isOpen
        | some previous => exact absurd is (lost previous isOpen)
    | succ left =>
      unfold proceed
      dsimp only
      split
      · have grown := freed_grows { run with created := run.created + 1 } (.created run.created)
        refine Publication.goOn publication rfl rfl (fun _ _ _ _ same => ?_) nofun grown
        cases same
        exact ⟨isOpen, active, lower, above⟩
      · refine Publication.goOn publication rfl rfl nofun (fun _ _ _ same => ?_) fun _ member => member
        cases same
        exact ⟨active, fun context made => .inr (List.mem_reverse.mpr made)⟩
  | discarding before created left =>
    cases left with
    | nil => exact Publication.fail publication
    | cons context rest =>
      obtain ⟨active, all⟩ := publication.discarding _ _ _ List.mem_cons_self
      refine Publication.goOn publication rfl rfl nofun (fun _ _ _ same => ?_) (freed_grows run _)
      cases same
      refine ⟨active, fun other made => ?_⟩
      rcases all other made with done | waiting
      · exact .inl (freed_grows run _ other done)
      · rcases List.mem_cons.mp waiting with rfl | later
        · have last : other ∈ (run.logs (.freed other)).freed := by
            rw [freed_logs]
            exact List.mem_append_right _ List.mem_cons_self
          exact .inl last
        · exact .inr later
  | closing =>
    unfold proceed
    dsimp only
    split
    · exact publication
    · rename_i free
      have free : run.manager.reloadLocked = false := by simpa using free
      split
      · exact Publication.finish publication rfl nofun
      · split
        · rename_i none
          exact Publication.close publication free (fun id is => by rw [none] at is; cases is)
            (fun _ member => member)
            fun _ member => .inl member
        · rename_i id some
          refine Publication.close publication free (fun id' is => ?_) (fun _ member =>
            List.mem_cons_of_mem _ member)
            fun other member => ?_
          · rw [some] at is
            cases is
            exact List.mem_cons_self
          · rcases List.mem_cons.mp member with rfl | old
            · exact .inr ⟨id, rfl⟩
            · exact .inl old
  | retiring id failed => exact retires_publication publication ledger succeeds
  | freeing contexts failed =>
    have succeeding : failed = none := publication.succeeding _ List.mem_cons_self
    subst succeeding
    cases contexts with
    | nil => exact Publication.finish publication rfl nofun
    | cons context rest => exact PublicationOf.swap publication rfl rfl rfl nofun (freed_grows run _)
  | connecting id =>
    unfold proceed
    dsimp only
    split
    · exact Publication.finish publication rfl nofun
    · split
      · exact PublicationOf.swap publication rfl rfl rfl nofun fun _ member => member
      · exact PublicationOf.swap publication rfl rfl rfl nofun fun _ member => member
  | opening id context =>
    have used := @PublicationOf.swap run _ (.dropping id) _ publication rfl rfl rfl nofun
      (freed_grows run (.used context))
    unfold proceed
    dsimp only
    split
    · exact used.finish rfl nofun
    · exact used
  | shutting id => exact PublicationOf.swap publication rfl rfl rfl nofun fun _ member => member
  | dropping id => exact drops_publication publication succeeds
  | selecting id certificate =>
    unfold proceed
    dsimp only
    split
    · exact Publication.finish publication rfl nofun
    · split
      · exact Publication.finish publication rfl nofun
      · exact PublicationOf.swap publication rfl rfl rfl nofun fun _ member => member
  | installing id context =>
    exact (@PublicationOf.swap run _ (.dropping id) _ publication rfl rfl rfl nofun
      (freed_grows run (.used context))).finish
      rfl nofun

/-- A new reference changes nothing of what is published. -/
theorem retains_publication {next : TlsLifetime → TlsLifetime}
    (publication : run.PublicationOf run.calls) (id : Nat)
    (after : ∀ generation, PublicationOf (run.put id generation) run.calls →
      (next (run.put id generation)).PublicationOf (next (run.put id generation)).calls) :
    (run.retaining id next).PublicationOf (run.retaining id next).calls := by
  unfold retaining
  split
  · exact publication
  · rename_i generation found
    split
    · exact publication
    · rename_i retained ran
      unfold TlsGeneration.retain at ran
      split at ran
      · cases ran
      · cases ran
        exact after _ (Publication.change publication found rfl fun done => done)

theorem steps_publication (publication : run.PublicationOf run.calls)
    (ledger : run.LedgerOf run.calls) (action : TlsAction) :
    (run.step action).PublicationOf (run.step action).calls := by
  cases action with
  | newChannel chosen =>
    unfold step
    dsimp only
    split
    · exact publication
    · split
      · exact publication
      · exact retains_publication publication _ fun _ kept => Publication.start kept rfl rfl
  | channel id => exact retains_publication publication id fun _ kept => Publication.start kept rfl rfl
  | reload certificates => exact Publication.start publication rfl rfl
  | close => exact Publication.start publication rfl rfl
  | retain id => exact retains_publication publication id fun _ kept => kept
  | release id =>
    unfold step
    dsimp only
    split
    · exact @drops_publication { run with holders := run.holders.erase id } id
        (Publication.start publication rfl rfl) true
    · exact publication
  | closeChannel channel =>
    unfold step
    dsimp only
    split
    · exact Publication.start publication rfl rfl
    · exact publication
  | handshake channel certificate =>
    unfold step
    dsimp only
    split
    · exact Publication.start publication rfl rfl
    · exact publication
  | proceed place succeeds =>
    unfold step
    dsimp only
    split
    · exact publication
    · rename_i call found
      have here := List.getElem?_eq_some_iff.mp found
      have moved : (call :: run.calls.eraseIdx place).Perm run.calls := by
        rw [← here.2]
        exact List.getElem_cons_eraseIdx_perm here.1
      exact @proceeds_publication { run with calls := run.calls.eraseIdx place } call
        (Publication.reorder publication moved)
        (TlsLedger.reorder ledger moved) succeeds

end TlsLifetime
end PccGateway
