import PccGateway.Tls.NativeProvider

namespace PccGateway

namespace TlsProviderRegistry

/-- One pass of the loop of `_providers_to_close`. -/
def collect : TlsProviderRegistry × List String → String → TlsProviderRegistry × List String
  | (registry, pending), name =>
    if name ∈ registry.providerCloseStarted then (registry, pending)
    else ({ registry with providerCloseStarted := registry.providerCloseStarted ++ [name] },
      pending ++ [name])

/-- A provider is closed when the registry is closed and no manager has a lease, and then only once. -/
theorem providersToClose_spec (registry : TlsProviderRegistry)
    (nodup : registry.providerCloseStarted.Nodup) :
    ∃ pending, registry.providersToClose =
        ({ registry with providerCloseStarted := registry.providerCloseStarted ++ pending }, pending) ∧
      (registry.providerCloseStarted ++ pending).Nodup ∧
      (pending ≠ [] → registry.closed = true ∧ registry.managerLeases = 0) := by
  have collects (names : List String) : ∀ (registry : TlsProviderRegistry) (pending : List String),
      registry.providerCloseStarted.Nodup → ∃ new, names.foldl collect (registry, pending) =
          ({ registry with providerCloseStarted := registry.providerCloseStarted ++ new }, pending ++ new) ∧
        (registry.providerCloseStarted ++ new).Nodup := by
    induction names with
    | nil => exact fun registry pending nodup => ⟨[], by simp, by simpa using nodup⟩
    | cons name names ih =>
      intro registry pending nodup
      rw [List.foldl_cons, collect]
      split
      · exact ih registry pending nodup
      · rename_i fresh
        have more : (registry.providerCloseStarted ++ [name]).Nodup :=
          List.nodup_append.mpr ⟨nodup, by simp, fun old member new is => by
            rw [List.mem_singleton.mp is]
            rintro rfl
            exact fresh member⟩
        obtain ⟨new, same, nodup'⟩ :=
          ih { registry with providerCloseStarted := registry.providerCloseStarted ++ [name] }
            (pending ++ [name]) more
        refine ⟨name :: new, ?_, by simpa using nodup'⟩
        rw [same]
        simp
  unfold providersToClose
  split
  · exact ⟨[], by simp, by simpa using nodup, fun some => absurd rfl some⟩
  · rename_i due
    simp only [Bool.or_eq_true, Bool.not_eq_true', bne_iff_ne, not_or, ne_eq, Decidable.not_not,
      Bool.not_eq_false] at due
    obtain ⟨new, same, nodup'⟩ := collects registry.providers registry [] nodup
    exact ⟨new, same, nodup', fun _ => ⟨due.1.2, due.2⟩⟩

end TlsProviderRegistry

/-- The providers that the call still has to close. -/
def NativeCall.closes : NativeCall → List String
  | .closingProviders names | .unloading _ (.closeProviders names) => names
  | _ => []

/-- Each provider is closed once, after the last lease. -/
structure NativeLeases (registry : TlsProviderRegistry) (events : List NativeEvent)
    (calls : List NativeCall) : Prop where
  once : events.count .closing + (calls.flatMap NativeCall.closes).count pccNativeTlsProviderName =
    registry.providerCloseStarted.count pccNativeTlsProviderName
  nodup : registry.providerCloseStarted.Nodup
  started : registry.providerCloseStarted ≠ [] → registry.closed = true ∧ registry.managerLeases = 0

theorem count_closing {event : NativeEvent} (events : List NativeEvent) (other : event ≠ .closing) :
    (events ++ [event]).count .closing = events.count .closing := by
  simp [List.count_append, other]

namespace NativeLeases
variable {registry registry' : TlsProviderRegistry} {events events' : List NativeEvent}
  {calls calls' : List NativeCall} {call call' : NativeCall}

theorem keep (leases : NativeLeases registry events calls)
    (closing : events'.count .closing = events.count .closing)
    (closes : (calls'.flatMap NativeCall.closes).Perm (calls.flatMap NativeCall.closes)) :
    NativeLeases registry events' calls' :=
  { leases with once := by rw [closing, closes.count_eq, leases.once] }

/-- Providers begin to be closed. -/
theorem pend (leases : NativeLeases registry events calls)
    (same : registry'.providerCloseStarted = registry.providerCloseStarted)
    (started : registry.providerCloseStarted ≠ [] → registry'.closed = true ∧ registry'.managerLeases = 0) :
    NativeLeases registry'.providersToClose.1 events
      (.closingProviders registry'.providersToClose.2 :: calls) := by
  obtain ⟨pending, ran, nodup, due⟩ := registry'.providersToClose_spec (same ▸ leases.nodup)
  rw [ran]
  refine ⟨?_, nodup, fun some => ?_⟩
  · have once := leases.once
    simp only [List.flatMap_cons, NativeCall.closes, List.count_append, same]
    omega
  · rw [same] at some
    by_cases old : registry.providerCloseStarted = []
    · rw [old, List.nil_append] at some
      exact due some
    · exact started old

/-- `acquire_manager` takes a lease while the registry is open. -/
theorem lease {name : String} {requireProduction productionReady : Bool}
    (leases : NativeLeases registry events calls)
    (found : registry.lookup name requireProduction productionReady = .ok ()) :
    NativeLeases { registry with managerLeases := registry.managerLeases + 1 } events calls := by
  unfold TlsProviderRegistry.lookup at found
  split at found
  · cases found
  · rename_i isOpen
    exact { leases with started := fun some => absurd (leases.started some).1 isOpen }

theorem close (leases : NativeLeases registry events calls) :
    NativeLeases registry.close.1 events (.closingProviders registry.close.2 :: calls) := by
  unfold TlsProviderRegistry.close
  split
  · exact leases.keep rfl (.refl _)
  · rename_i isOpen
    exact leases.pend rfl fun some => absurd (leases.started some).1 isOpen

theorem release {pending : List String} (leases : NativeLeases registry events calls)
    (ran : registry.releaseManager = .ok (registry', pending)) :
    NativeLeases registry' events (.closingProviders pending :: calls) := by
  unfold TlsProviderRegistry.releaseManager at ran
  split at ran
  · cases ran
  · rename_i leased
    have idle : registry.providerCloseStarted = [] := by
      by_contra some
      exact leased (leases.started some).2
    have same := Except.ok.inj ran
    have released (less : TlsProviderRegistry)
      (started : less.providerCloseStarted = registry.providerCloseStarted) :=
      leases.pend started fun some => absurd idle some
    have first := congrArg Prod.fst same
    have second := congrArg Prod.snd same
    dsimp only at first second
    subst first second
    refine released _ ?_
    split <;> rfl

end NativeLeases

end PccGateway
