import PccGateway.Tls.GenerationLedger
import PccGateway.Lib.Interleaving

namespace PccGateway
namespace TlsLifetime

/-- The ledger of a run whose calls are these. -/
def LedgerOf (run : TlsLifetime) (calls : List TlsCall) : Prop :=
  TlsLedger run.generations run.holders run.channels run.created run.events calls

variable {run : TlsLifetime} {call : TlsCall} {id : Nat} {generation : TlsGeneration}
  {failed : Option FailedReload}

/-- Who has a reference has a generation, which still has its contexts. -/
theorem LedgerOf.held (ledger : run.LedgerOf (call :: run.calls)) (holds : call.holds = some id) :
    ∃ generation, run.generations[id]? = some generation ∧
      TlsGeneration.Referenced (tlsUsers run.holders run.channels run.calls id + 1) generation := by
  have users : tlsUsers run.holders run.channels (call :: run.calls) id =
      tlsUsers run.holders run.channels run.calls id + 1 := by
    simp [tlsUsers, holds]
    omega
  cases found : run.generations[id]? with
  | none =>
    have := ledger.ranged id found
    omega
  | some generation => exact ⟨generation, rfl, users ▸ ledger.counted id generation found⟩

/-- No handshake is about to pass on a context of this generation. -/
def Quiet (run : TlsLifetime) (id : Nat) : Prop := ∀ other ∈ run.calls, other.installs id = false

theorem retires (ledger : run.LedgerOf (.retiring id failed :: run.calls)) (succeeds : Bool)
    (quiet : ∀ generation, run.generations[id]? = some generation → generation.references = 1 →
      generation.retired = false → run.Quiet id) :
    (run.proceed (.retiring id failed) succeeds).LedgerOf
    (run.proceed (.retiring id failed) succeeds).calls := by
  unfold proceed
  dsimp only
  split
  · exact ledger.finish rfl rfl rfl
  · rename_i generation found
    have referenced := ledger.counted id generation found
    have holder (other : Nat) : tlsUsers run.holders run.channels (.retiring id failed :: run.calls) other =
        tlsUsers run.holders run.channels run.calls other := by
      simp [tlsUsers, TlsCall.holds]
    cases already : generation.retired with
    | true =>
      have same : generation.retire = .ok (generation, none) := by simp [TlsGeneration.retire, already]
      have inRange := (List.getElem?_eq_some_iff.mp found)
      have unchanged : run.generations.set id generation = run.generations := by
        rw [← inRange.2, List.set_getElem_self]
      rw [same]
      simp only [put, goes, unchanged]
      exact ledger.swap rfl (.refl _) (fun _ member => by cases member) trivial
    | false =>
      obtain ⟨ran, counted, gave⟩ := referenced.retire already
      have references := referenced.references
      rw [already] at references
      have kept : generation.destroyed = false := by
        by_contra gone
        have := referenced.destroyed.mp (by simpa using gone)
        simp only [Bool.false_eq_true, if_false] at references
        omega
      rw [ran]
      exact ledger.give { generation with retired := true } found rfl rfl rfl kept kept (fun _ _ =>
        (holder _).symm)
        (holder id ▸ counted) gave rfl fun last => quiet generation found last already

theorem drops (ledger : run.LedgerOf (.dropping id :: run.calls)) (succeeds : Bool)
    (quiet : ∀ generation, run.generations[id]? = some generation → generation.references = 1 →
      run.Quiet id) :
    (run.proceed (.dropping id) succeeds).LedgerOf (run.proceed (.dropping id) succeeds).calls := by
  obtain ⟨generation, found, referenced⟩ := LedgerOf.held ledger rfl
  obtain ⟨ran, counted, gave⟩ := referenced.release
  unfold proceed
  dsimp only
  rw [found]
  dsimp only
  rw [ran]
  refine ledger.give generation found rfl rfl rfl referenced.kept referenced.kept
    (fun other different => ?_)
    counted gave rfl fun last => quiet generation found last
  simp [tlsUsers, TlsCall.holds, Ne.symm different]

/-- A call that goes on keeps the ledger. -/
theorem proceeds (ledger : run.LedgerOf (call :: run.calls)) (succeeds : Bool)
    (released : ∀ id, call = .dropping id → ∀ generation, run.generations[id]? = some generation →
      generation.references = 1 → run.Quiet id)
    (retired : ∀ id failed, call = .retiring id failed → ∀ generation, run.generations[id]? =
      some generation → generation.references = 1 → generation.retired = false → run.Quiet id) :
    (run.proceed call succeeds).LedgerOf (run.proceed call succeeds).calls := by
  cases call with
  | reloading sniCertificates =>
    unfold proceed
    dsimp only
    split
    · exact ledger
    · split
      · exact ledger.finish rfl rfl rfl
      · exact ledger.swap rfl (.refl _) (fun _ member => by cases member) trivial
  | building generationId before certificates contexts =>
    cases certificates with
    | zero =>
      unfold proceed
      dsimp only
      split
      · exact ledger.append.start rfl rfl trivial
      · exact ledger.append.start rfl rfl trivial
    | succ left =>
      unfold proceed
      dsimp only
      split
      · exact ledger.create
      · exact ledger.swap rfl (List.reverse_perm _) (fun _ member => by cases member) trivial
  | discarding before created left =>
    cases left with
    | nil => exact ledger.finish rfl rfl rfl
    | cons context rest => exact ledger.free rfl rfl rfl rfl rfl trivial
  | closing =>
    unfold proceed
    dsimp only
    split
    · exact ledger
    · split
      · exact ledger.finish rfl rfl rfl
      · split
        · exact ledger.finish rfl rfl rfl
        · exact ledger.swap rfl (.refl _) (fun _ member => by cases member) trivial
  | retiring id failed => exact retires ledger succeeds (retired id failed rfl)
  | freeing contexts failed =>
    cases contexts with
    | nil =>
      cases failed with
      | none => exact ledger.finish rfl rfl rfl
      | some failed => exact ledger.finish rfl rfl rfl
    | cons context rest => exact ledger.free rfl rfl rfl rfl rfl trivial
  | connecting id =>
    obtain ⟨generation, found, referenced⟩ := LedgerOf.held ledger rfl
    unfold proceed
    dsimp only
    rw [found]
    dsimp only
    split
    · exact ledger.swap rfl (.refl _) (fun _ member => by cases member) trivial
    · rename_i context read
      refine ledger.swap rfl (.refl _) (fun _ member => by cases member) ⟨generation, found, ?_⟩
      rw [← referenced.recorded_contexts referenced.kept]
      unfold TlsGeneration.context at read
      split at read
      · rename_i first
        cases read
        simp [first]
      · cases read
  | opening id context =>
    obtain ⟨generation, found, referenced⟩ := LedgerOf.held ledger rfl
    obtain ⟨generation', found', recorded⟩ := ledger.sound _ List.mem_cons_self
    rw [found] at found'
    cases found'
    have used := ledger.use found referenced.kept recorded
    unfold proceed
    dsimp only
    split
    · refine used.handOver (fun other => ?_) (.refl _) (fun _ member => member) fun other member =>
        used.sound other (List.mem_cons_of_mem _ member)
      simp only [tlsUsers, List.count_append, List.count_singleton, List.countP_cons, TlsCall.holds,
        logs, beq_iff_eq]
      omega
    · exact used.swap rfl (.refl _) (fun _ member => by cases member) trivial
  | shutting id => exact ledger.swap rfl (.refl _) (fun _ member => by cases member) trivial
  | dropping id => exact drops ledger succeeds (released id rfl)
  | selecting id certificate =>
    unfold proceed
    dsimp only
    split
    · exact ledger.finish rfl rfl rfl
    · rename_i generation found
      split
      · exact ledger.finish rfl rfl rfl
      · rename_i context selected
        unfold TlsGeneration.selectContext at selected
        split at selected
        · cases selected
        · rename_i kept
          have kept : generation.destroyed = false := by simpa using kept
          refine ledger.swap rfl (.refl _) (fun _ member => by cases member) ⟨generation, found, kept, ?_⟩
          rw [← (ledger.counted id generation found).recorded_contexts kept]
          split at selected
          · cases selected
          · rename_i _ at_
            cases selected
            exact List.mem_of_getElem? at_
  | installing id context =>
    obtain ⟨generation, found, kept, recorded⟩ := ledger.sound _ List.mem_cons_self
    exact (ledger.use found kept recorded).finish rfl rfl rfl

/-- A reference is taken for a new channel. -/
theorem connects (ledger : run.LedgerOf run.calls) (id : Nat) :
    (run.retaining id (goes (.connecting id))).LedgerOf
    (run.retaining id (goes (.connecting id))).calls := by
  unfold retaining
  split
  · exact ledger
  · rename_i generation found
    split
    · exact ledger
    · rename_i next retained
      have kept := TlsLedger.retain ledger found retained
      refine kept.handOver (fun other => ?_) (.refl _) (fun _ member => member) fun other member => ?_
      · change tlsUsers run.holders run.channels (.connecting id :: run.calls) other =
          tlsUsers (run.holders ++ [id]) _ _ other
        simp only [tlsUsers, List.count_append, List.count_singleton, List.countP_cons, TlsCall.holds,
          beq_iff_eq, Option.some.injEq]
        omega
      · rcases List.mem_cons.mp member with rfl | old
        · trivial
        · exact kept.sound other old

/-- A holder gives its reference to a call that releases it. -/
theorem returns (ledger : run.LedgerOf run.calls) (member : id ∈ run.holders) :
    LedgerOf { run with holders := run.holders.erase id } (.dropping id :: run.calls) := by
  refine TlsLedger.handOver ledger (fun other => ?_) (.refl _) (fun _ member => member) fun other
    member => ?_
  · have positive : 0 < run.holders.count id := List.count_pos_iff.mpr member
    simp only [tlsUsers, List.countP_cons, TlsCall.holds, List.count_erase, beq_iff_eq, Option.some.injEq]
    by_cases here : id = other
    · subst here
      simp only [if_true]
      omega
    · simp [here]
  · rcases List.mem_cons.mp member with rfl | old
    · trivial
    · exact ledger.sound other old

/-- A channel gives its reference to the call that closes it. -/
theorem shuts {channel : Nat} (ledger : run.LedgerOf run.calls)
    (found : run.channels[channel]? = some (some id)) :
    LedgerOf { run with channels := run.channels.set channel none } (.shutting id :: run.calls) := by
  refine TlsLedger.handOver ledger (fun other => ?_) (.refl _) (fun _ member => member) fun other
    member => ?_
  · simp only [tlsUsers, List.countP_cons, TlsCall.holds, beq_iff_eq, Option.some.injEq, List.count]
    by_cases here : id = other
    · subst here
      have one := @Counting.countP_set_off _ (· == some id) run.channels channel (some id) none found
        (by simp) (by simp)
      simp only [if_true]
      omega
    · rw [@Counting.countP_set_same _ (· == some other) run.channels channel (some id) none found
        (by simp [here])]
      simp [here]
  · rcases List.mem_cons.mp member with rfl | old
    · trivial
    · exact ledger.sound other old

theorem steps (ledger : run.LedgerOf run.calls) {action : TlsAction} (allowed : run.Allows action) :
    (run.step action).LedgerOf (run.step action).calls := by
  cases action with
  | newChannel chosen =>
    unfold step
    dsimp only
    split
    · exact ledger
    · split
      · exact ledger
      · exact connects ledger _
  | channel id => exact connects ledger id
  | reload sniCertificates => exact TlsLedger.start ledger rfl rfl trivial
  | close => exact TlsLedger.start ledger rfl rfl trivial
  | retain id =>
    unfold step retaining
    dsimp only
    split
    · exact ledger
    · rename_i generation found
      split
      · exact ledger
      · rename_i next retained
        exact TlsLedger.retain ledger found retained
  | release id =>
    unfold step
    dsimp only
    split
    · rename_i member
      refine @proceeds { run with holders := run.holders.erase id } _ (returns ledger member) true ?_ nofun
      rintro other same generation found last
      cases same
      refine allowed id ?_
      simp [lastDrop, member, found, last]
    · exact ledger
  | closeChannel channel =>
    unfold step
    dsimp only
    split
    · rename_i id found
      exact shuts ledger found
    · exact ledger
  | handshake channel certificate =>
    unfold step
    dsimp only
    split
    · exact TlsLedger.start ledger rfl rfl trivial
    · exact ledger
  | proceed place succeeds =>
    unfold step
    dsimp only
    split
    · exact ledger
    · rename_i call found
      have here := List.getElem?_eq_some_iff.mp found
      have moved : (call :: run.calls.eraseIdx place).Perm run.calls := by
        rw [← here.2]
        exact List.getElem_cons_eraseIdx_perm here.1
      have fewer (other : TlsCall) (member : other ∈ run.calls.eraseIdx place) : other ∈ run.calls :=
        List.mem_of_mem_eraseIdx member
      refine @proceeds { run with calls := run.calls.eraseIdx place } _
        (TlsLedger.reorder ledger moved) succeeds ?_ ?_
      · rintro id rfl generation found' last other member
        refine allowed id ?_ other (fewer other member)
        simp [lastDrop, found, found', last]
      · rintro id failed rfl generation found' last already other member
        refine allowed id ?_ other (fewer other member)
        simp [lastDrop, found, found', last, already]

end TlsLifetime
end PccGateway
