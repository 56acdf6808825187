import PccGateway.Tls.NativeLeases
import PccGateway.Tls.NativeLibraries
import PccGateway.Lib.Interleaving

namespace PccGateway

/-- The call has nothing. -/
structure NativeCall.Idle (call : NativeCall) : Prop where
  inCall : call.inCall = false
  creates : call.creates = false
  frees : ∀ kind, call.frees kind = false
  activates : call.activates = false
  libraries : call.libraries = []
  closes : call.closes = []

theorem NativeCall.Idle.loads {call : NativeCall} (idle : call.Idle) : call.loads = false := by
  by_contra loads
  have activates := NativeCall.loads_activates (by simpa using loads)
  rw [idle.activates] at activates
  cases activates

/-- Counters, libraries and leases. -/
structure NativeKept (provider : NativeProvider) (registry : TlsProviderRegistry) (locked : Bool)
    (objects : NativeResource → List Bool) (opened : Nat) (events : List NativeEvent)
    (calls : List NativeCall) : Prop where
  owners : NativeOwners provider objects calls
  libraries : NativeLibraries provider locked opened events calls
  leases : NativeLeases registry events calls

namespace NativeTls
variable {run : NativeTls} {call call' : NativeCall} {calls calls' : List NativeCall}
  {reason : ActivationFor}
  {purpose : NativePurpose} {succeeded : Bool} {counted : NativeProvider} {after : AfterUnload}

/-- What holds in a run whose calls are these. -/
def Kept (run : NativeTls) (calls : List NativeCall) : Prop :=
  NativeKept run.provider run.registry run.activationLocked (fun kind => run.objects kind) run.opened
    run.events calls

namespace Kept

theorem reorder (kept : Kept run calls) (moved : calls'.Perm calls) : Kept run calls' :=
  ⟨kept.owners.reorder moved, kept.libraries.reorder moved, kept.leases.keep rfl (moved.flatMap_right _)⟩

/-- A call goes on with all that it has. -/
theorem swap (kept : Kept run (call :: calls)) (call' : NativeCall)
    (purpose : call'.purpose = call.purpose) (inCall : call'.inCall = call.inCall)
    (activates : call'.activates = call.activates)
    (loads : call'.loads = true → publishedLibraries run.events = [])
    (libraries : call'.libraries = call.libraries)
    (invoking : ∀ purpose library, call' ≠ .invoking purpose library)
    (closes : call'.closes = call.closes) :
    Kept run (call' :: calls) :=
  ⟨kept.owners.swap purpose inCall,
    kept.libraries.swap activates loads libraries fun purpose library is =>
      absurd is (invoking purpose library),
    kept.leases.keep rfl (by rw [List.flatMap_cons, List.flatMap_cons, closes])⟩

theorem start (kept : Kept run calls) (idle : call.Idle) : Kept run (call :: calls) := by
  have outside (purpose : NativePurpose) (library : Nat) : call ≠ .invoking purpose library := by
    rintro rfl
    cases idle.inCall
  exact ⟨(NativeOwners.cons_iff idle.inCall idle.creates idle.frees).mpr kept.owners,
    kept.libraries.start idle.activates idle.loads idle.libraries fun purpose library is =>
      absurd is (outside purpose library), kept.leases.keep rfl (by simp [idle.closes])⟩

theorem finish (kept : Kept run (call :: calls)) (idle : call.Idle) : Kept run calls :=
  ⟨(NativeOwners.cons_iff idle.inCall idle.creates idle.frees).mp kept.owners,
    kept.libraries.finish idle.activates idle.libraries, kept.leases.keep rfl (by simp [idle.closes])⟩

/-- An `_invoke` ended or raised. -/
theorem invoked (kept : Kept run (call :: run.calls)) (is : call.purpose = some purpose)
    (inCall : call.inCall = false)
    (activates : call.activates = false) (libraries : call.libraries = []) (closes : call.closes = []) :
    Kept (run.invoked purpose succeeded) (run.invoked purpose succeeded).calls := by
  cases purpose with
  | create kind =>
    cases succeeded with
    | true =>
      exact kept.swap (.completing kind) is.symm inCall.symm activates.symm (by rintro ⟨⟩)
        libraries.symm (by simp) closes.symm
    | false =>
      exact kept.swap (.canceling kind) is.symm inCall.symm activates.symm (by rintro ⟨⟩)
        libraries.symm (by simp) closes.symm
  | operate =>
    refine kept.finish ⟨inCall, ?_, fun kind => ?_, activates, libraries, closes⟩
    · rw [NativeCall.creates, is]
    · rw [NativeCall.frees, is]
      rfl
  | free kind =>
    cases succeeded with
    | true =>
      exact kept.swap (.releasing kind) is.symm inCall.symm activates.symm (by rintro ⟨⟩)
        libraries.symm (by simp) closes.symm
    | false =>
      exact kept.swap (.releasing kind) is.symm inCall.symm activates.symm (by rintro ⟨⟩)
        libraries.symm (by simp) closes.symm

/-- A counter goes down, and the library is taken if nobody uses it. -/
theorem accounts (kept : Kept run (call :: run.calls))
    (owners : ∀ library, NativeOwners counted (fun kind => run.objects kind)
      (.unloading library after :: run.calls))
    (isOpen : run.provider.closed = false) (handle : counted.libraryHandle = run.provider.libraryHandle)
    (entrypoint : counted.entrypoint = run.provider.entrypoint)
    (activated : counted.activated = run.provider.activated)
    (closed : counted.closed = run.provider.closed) (activates : call.activates = false)
    (libraries : call.libraries = [])
    (closes : call.closes = []) (closes' : ∀ library, (NativeCall.unloading library after).closes = []) :
    Kept (run.accounts (.ok counted.takeLibraryToClose) after)
      (run.accounts (.ok counted.takeLibraryToClose) after).calls := by
  have outside (idle : counted.activeCalls = 0) (other : NativeCall) (member : other ∈ run.calls) :
      other.inCall = false :=
    (owners none).outside idle other (List.mem_cons_of_mem _ member)
  refine ⟨(owners _).take, ((kept.libraries.finish activates libraries).count isOpen handle entrypoint
    activated closed).take after outside, kept.leases.keep rfl ?_⟩
  change List.Perm (List.flatMap _ (.unloading counted.takeLibraryToClose.2 after :: run.calls)) _
  rw [List.flatMap_cons, List.flatMap_cons, closes, closes']

/-- `activate` returned or raised. -/
theorem activated (kept : Kept run (.checking reason :: run.calls)) :
    Kept (run.activated reason succeeded) (run.activated reason succeeded).calls := by
  have free : Kept { run with activationLocked := false } run.calls :=
    ⟨(NativeOwners.cons_iff rfl rfl fun _ => rfl).mp kept.owners, kept.libraries.release,
      kept.leases.keep rfl (.refl _)⟩
  cases reason with
  | itself => exact free
  | context =>
    cases succeeded with
    | true => exact @start _ .reserving _ free ⟨rfl, rfl, fun _ => rfl, rfl, rfl, rfl⟩
    | false => exact free
  | manager =>
    cases succeeded with
    | true => exact free
    | false => exact @start _ .unleasing _ free ⟨rfl, rfl, fun _ => rfl, rfl, rfl, rfl⟩

theorem releaseManager (kept : Kept run run.calls) : Kept run.releaseManager run.releaseManager.calls := by
  unfold NativeTls.releaseManager
  split
  · exact kept
  · rename_i registry pending ran
    exact ⟨(NativeOwners.cons_iff rfl rfl fun _ => rfl).mpr kept.owners,
      kept.libraries.start rfl rfl rfl nofun, kept.leases.release ran⟩

/-- The steps of an activation. -/
theorem activates (kept : Kept run (call :: run.calls)) (active : call.activates = true) (succeeds : Bool) :
    Kept (run.proceed call succeeds) (run.proceed call succeeds).calls := by
  have loading (loads : call.loads = true) := kept.libraries.loading call List.mem_cons_self loads
  cases call with
  | checking reason =>
    unfold proceed
    dsimp only
    split
    · exact kept.activated
    · exact kept.activated
    · rename_i passed
      exact kept.swap (.hashing reason) rfl rfl rfl
        (fun _ => kept.libraries.unpublished passed) rfl nofun rfl
  | hashing reason =>
    unfold proceed
    dsimp only
    split
    · exact kept.swap (.opening reason) rfl rfl rfl (fun _ => loading rfl) rfl nofun rfl
    · exact (kept.swap (.checking reason) rfl rfl rfl nofun rfl nofun rfl).activated
  | opening reason =>
    unfold proceed
    dsimp only
    split
    · exact ⟨kept.owners.swap rfl rfl, kept.libraries.open_ rfl rfl rfl rfl nofun,
        kept.leases.keep (count_closing _ nofun) (.refl _)⟩
    · exact (kept.swap (.checking reason) rfl rfl rfl nofun rfl nofun rfl).activated
  | linking reason library =>
    unfold proceed
    dsimp only
    split
    · exact kept.swap (.probing reason library) rfl rfl rfl (fun _ => loading rfl) rfl nofun rfl
    · exact kept.swap (.discarding reason library) rfl rfl rfl (fun _ => loading rfl) rfl nofun rfl
  | probing reason library =>
    have entered : Kept (run.logs (.entered library)) (.probing reason library :: run.calls) :=
      ⟨kept.owners, kept.libraries.enter (.inr ⟨List.mem_cons_self, loading rfl⟩),
        kept.leases.keep (count_closing _ nofun) (.refl _)⟩
    have loading := entered.libraries.loading _ List.mem_cons_self rfl
    unfold proceed
    dsimp only
    split
    · exact entered.swap (.publishing reason library) rfl rfl rfl (fun _ => loading) rfl nofun rfl
    · exact entered.swap (.discarding reason library) rfl rfl rfl (fun _ => loading) rfl nofun rfl
  | publishing reason library =>
    unfold proceed
    dsimp only
    split
    · exact kept.swap (.discarding reason library) rfl rfl rfl (fun _ => loading rfl) rfl nofun rfl
    · rename_i provider ran
      have owners : NativeOwners provider (fun kind => run.objects kind)
          (.publishing reason library :: run.calls) := by
        unfold NativeProvider.publish at ran
        split at ran
        · cases ran
          exact kept.owners.frame rfl rfl fun kind => by cases kind <;> rfl
        · cases ran
      have published : Kept ({ run with provider }.logs (.published library))
          (.checking reason :: run.calls) :=
        ⟨owners.swap rfl rfl, kept.libraries.publish ran,
          kept.leases.keep (count_closing _ nofun) (.refl _)⟩
      exact published.activated
  | discarding reason library =>
    have unloaded : Kept (run.logs (.unloaded library)) (.checking reason :: run.calls) :=
      ⟨kept.owners.swap rfl rfl, kept.libraries.unload rfl rfl rfl rfl nofun,
        kept.leases.keep (count_closing _ nofun) (.refl _)⟩
    exact unloaded.activated
  | _ => cases active

/-- The provider is asked to close. -/
theorem closes {calls : List NativeCall} (kept : Kept run calls) (after : AfterUnload) :
    NativeOwners run.provider.close.1 (fun kind => run.objects kind) calls ∧
      NativeLibraries run.provider.close.1 run.activationLocked run.opened run.events
        (.unloading run.provider.close.2 after :: calls) :=
  ⟨kept.owners.close, kept.libraries.close after kept.owners.outside⟩

/-- `_close_library`. -/
theorem unloads {library : Option Nat} (kept : Kept run (.unloading library after :: run.calls))
    (succeeds : Bool) :
    Kept (run.proceed (.unloading library after) succeeds)
      (run.proceed (.unloading library after) succeeds).calls := by
  have goesOn (run : NativeTls) (kept : Kept run (.unloading none after :: run.calls)) :
      Kept (run.proceed (.unloading none after) succeeds)
        (run.proceed (.unloading none after) succeeds).calls := by
    cases after with
    | done => exact kept.finish ⟨rfl, rfl, fun _ => rfl, rfl, rfl, rfl⟩
    | invoked purpose succeeded => exact kept.invoked rfl rfl rfl rfl rfl
    | closeProviders names => exact kept.swap (.closingProviders names) rfl rfl rfl nofun rfl nofun rfl
  cases library with
  | none => exact goesOn run kept
  | some library =>
    have unloaded : Kept (run.logs (.unloaded library)) (.unloading none after :: run.calls) :=
      ⟨kept.owners.swap (by cases after <;> rfl) rfl, kept.libraries.unload rfl rfl rfl rfl nofun,
        kept.leases.keep (count_closing _ nofun) (by cases after <;> exact .refl _)⟩
    have after_ := goesOn _ unloaded
    cases after <;> exact after_

theorem setObjects_calls (run : NativeTls) (kind : NativeResource) (objects : List Bool) :
    (run.setObjects kind objects).calls = run.calls := by
  cases kind <;> rfl

/-- Objects of one kind are made or released. -/
theorem setObjects {kind : NativeResource} {objects : List Bool}
    (kept : NativeKept run.provider run.registry run.activationLocked
      (fun other => if kind = other then objects else run.objects other) run.opened run.events calls) :
    Kept (run.setObjects kind objects) calls := by
  have same : (fun other => (run.setObjects kind objects).objects other) =
      fun other => if kind = other then objects else run.objects other := by
    funext other
    cases kind <;> cases other <;> rfl
  unfold Kept
  rw [same]
  cases kind <;> exact kept

/-- A resource is reserved. -/
theorem reserves {provider : NativeProvider} (kept : Kept run run.calls)
    (ran : run.provider.reserveResource = .ok provider) (kind : NativeResource) :
    Kept (goes (.beginning (.create kind)) { run with provider })
      (.beginning (.create kind) :: run.calls) := by
  have owners := kept.owners.reserve ran kind
  unfold NativeProvider.reserveResource at ran
  split at ran
  · cases ran
  · rename_i isOpen
    simp only [Bool.or_eq_true, not_or, Bool.not_eq_true] at isOpen
    cases ran
    have libraries : NativeLibraries { run.provider with
        pendingResources := run.provider.pendingResources + 1 }
        run.activationLocked run.opened run.events run.calls :=
      kept.libraries.count isOpen.2 rfl rfl rfl rfl
    exact ⟨owners, libraries.start rfl rfl rfl nofun, kept.leases.keep rfl (.refl _)⟩

theorem proceeds (kept : Kept run (call :: run.calls)) (succeeds : Bool) :
    Kept (run.proceed call succeeds) (run.proceed call succeeds).calls := by
  by_cases active : call.activates = true
  · exact kept.activates active succeeds
  cases call with
  | activating reason =>
    unfold proceed
    dsimp only
    split
    · exact kept
    · rename_i free
      have libraries := kept.libraries
      rw [Bool.not_eq_true _ |>.mp free] at libraries
      exact ⟨kept.owners.swap rfl rfl, libraries.acquire, kept.leases.keep rfl (.refl _)⟩
  | reserving =>
    have ended := kept.finish ⟨rfl, rfl, fun _ => rfl, rfl, rfl, rfl⟩
    unfold proceed
    dsimp only
    split
    · split
      · exact ended
      · rename_i provider ran
        exact ended.reserves ran .context
    · exact ended
  | beginning purpose =>
    unfold proceed
    dsimp only
    split
    · exact kept.invoked rfl rfl rfl rfl rfl
    · rename_i provider library ran
      have owners := kept.owners.begin_ ran
      unfold NativeProvider.beginCall at ran
      split at ran
      · rename_i isOpen entry
        cases ran
        have libraries : NativeLibraries { run.provider with
            activeCalls := run.provider.activeCalls + 1 } run.activationLocked
            run.opened run.events (.beginning purpose :: run.calls) :=
          kept.libraries.count isOpen rfl rfl rfl rfl
        refine ⟨owners, libraries.swap rfl (by rintro ⟨⟩) rfl fun purpose' library' is => ?_,
          kept.leases.keep rfl (.refl _)⟩
        cases is
        exact kept.libraries.entrypoint.symm.trans entry
      · cases ran
  | invoking purpose library =>
    have held : library ∈ run.provider.libraryHandle.toList := by
      rw [kept.libraries.invoking purpose library List.mem_cons_self]
      exact List.mem_cons_self
    have entered : Kept (run.logs (.entered library)) (.invoking purpose library :: run.calls) :=
      ⟨kept.owners, kept.libraries.enter (.inl held),
        kept.leases.keep (count_closing _ (by simp)) (.refl _)⟩
    exact entered.swap (.finishing purpose succeeds) rfl rfl rfl (by rintro ⟨⟩) rfl (by simp) rfl
  | finishing purpose succeeded =>
    have ran := (@NativeOwners.finish _ _ _ _ _ none kept.owners).1
    unfold proceed
    dsimp only
    rw [ran]
    exact kept.accounts (fun library => kept.owners.finish.2)
      (kept.libraries.isOpen (kept.owners.used (.inl rfl))) rfl rfl rfl rfl rfl
      rfl rfl fun _ => rfl
  | completing kind =>
    obtain ⟨ran, owners⟩ := kept.owners.complete fun other => rfl
    have isOpen := kept.libraries.isOpen (kept.owners.used (.inr (.inl rfl)))
    unfold proceed
    dsimp only
    rw [ran]
    dsimp only
    rw [setObjects_calls]
    refine setObjects ⟨owners, ?_, kept.leases.keep rfl (.refl _)⟩
    exact (kept.libraries.count isOpen (by cases kind <;> rfl) (by cases kind <;> rfl)
      (by cases kind <;> rfl)
      (by cases kind <;> rfl)).finish rfl rfl
  | canceling kind =>
    have ran := (@NativeOwners.cancel _ _ _ _ none kept.owners).1
    unfold proceed
    dsimp only
    rw [ran]
    exact kept.accounts (fun library => kept.owners.cancel.2)
      (kept.libraries.isOpen (kept.owners.used (.inr (.inl rfl)))) rfl rfl rfl rfl rfl
      rfl rfl fun _ => rfl
  | releasing kind =>
    have ran := (@NativeOwners.release _ _ _ _ none kept.owners).1
    unfold proceed
    dsimp only
    rw [ran]
    exact kept.accounts (fun library => kept.owners.release.2)
      (kept.libraries.isOpen (kept.owners.used (.inr (.inr ⟨kind,
      by simp [NativeCall.frees, NativeCall.purpose]⟩))))
      (by cases kind <;> rfl) (by cases kind <;> rfl) (by cases kind <;> rfl)
        (by cases kind <;> rfl) rfl rfl rfl fun _ => rfl
  | unloading library after => exact kept.unloads succeeds
  | activatingOther =>
    have ended := kept.finish ⟨rfl, rfl, fun _ => rfl, rfl, rfl, rfl⟩
    unfold proceed
    dsimp only
    split
    · exact ended
    · exact @start _ .unleasing _ ended ⟨rfl, rfl, fun _ => rfl, rfl, rfl, rfl⟩
  | unleasing => exact (kept.finish ⟨rfl, rfl, fun _ => rfl, rfl, rfl, rfl⟩).releaseManager
  | closingProviders names =>
    cases names with
    | nil => exact kept.finish ⟨rfl, rfl, fun _ => rfl, rfl, rfl, rfl⟩
    | cons name rest =>
      obtain ⟨owners, libraries, leases⟩ := kept
      have owners := (NativeOwners.cons_iff rfl rfl fun _ => rfl).mp owners
      have libraries := libraries.finish rfl rfl
      unfold proceed
      dsimp only
      split
      · rename_i ours
        have closing := libraries.close (.closeProviders rest) owners.outside
        refine ⟨(NativeOwners.cons_iff rfl rfl fun _ => rfl).mpr owners.close,
          closing.log (closing.trace.append (by simp) (by simp) (by simp)) rfl rfl,
          { leases with once := ?_ }⟩
        have once := leases.once
        simp only [List.flatMap_cons, NativeCall.closes, List.count_append, ours,
          List.count_cons_self] at once
        change (run.events ++ [NativeEvent.closing]).count .closing +
          (rest ++ run.calls.flatMap NativeCall.closes).count _ = _
        rw [List.count_append, List.count_append, List.count_singleton_self]
        change _ = run.registry.providerCloseStarted.count _
        omega
      · rename_i other
        refine ⟨(NativeOwners.cons_iff rfl rfl fun _ => rfl).mpr owners,
          libraries.start rfl rfl rfl (by simp), { leases with once := ?_ }⟩
        have once := leases.once
        rwa [List.flatMap_cons, NativeCall.closes, List.cons_append, List.count_cons_of_ne other] at once
  | _ => exact absurd rfl active

/-- `free_connection` and `free_context`. -/
theorem frees (kept : Kept run run.calls) (kind : NativeResource) (object : Nat) :
    Kept (run.frees kind object) (run.frees kind object).calls := by
  unfold NativeTls.frees
  split
  · rename_i found
    have owners := kept.owners.free found fun other => rfl
    have freeing : Kept (run.setObjects kind ((run.objects kind).set object false))
        (.beginning (.free kind) :: run.calls) :=
      setObjects ⟨owners, kept.libraries.start rfl rfl rfl nofun, kept.leases.keep rfl (.refl _)⟩
    change Kept (run.setObjects kind _) (.beginning (.free kind) :: (run.setObjects kind _).calls)
    rwa [setObjects_calls]
  · exact kept

theorem steps (kept : Kept run run.calls) (action : NativeAction) :
    Kept (run.step action) (run.step action).calls := by
  cases action with
  | activate => exact @start _ (.activating .itself) _ kept ⟨rfl, rfl, fun _ => rfl, rfl, rfl, rfl⟩
  | createServerContext =>
    exact @start _ (.activating .context) _ kept ⟨rfl, rfl, fun _ => rfl, rfl, rfl, rfl⟩
  | newConnection context =>
    unfold step
    dsimp only
    split
    · split
      · exact kept
      · rename_i provider ran
        exact kept.reserves ran .session
    · exact kept
  | operate session context =>
    unfold step
    dsimp only
    split
    · split
      · exact @start _ (.beginning .operate) _ kept ⟨rfl, rfl, fun _ => rfl, rfl, rfl, rfl⟩
      · exact kept
    · exact kept
  | freeConnection session => exact kept.frees .session session
  | freeContext context => exact kept.frees .context context
  | close =>
    obtain ⟨owners, libraries⟩ := kept.closes .done
    exact ⟨(NativeOwners.cons_iff rfl rfl fun _ => rfl).mpr owners, libraries,
      kept.leases.keep rfl (.refl _)⟩
  | acquireManager name requireProduction otherReady =>
    unfold step
    dsimp only
    split
    · exact kept
    · rename_i found
      have leased : Kept { run with registry := { run.registry with
          managerLeases := run.registry.managerLeases + 1 } } run.calls :=
        ⟨kept.owners, kept.libraries, kept.leases.lease found⟩
      split
      · split
        · exact @start _ (.activating .manager) _ leased ⟨rfl, rfl, fun _ => rfl, rfl, rfl, rfl⟩
        · exact @start _ .activatingOther _ leased ⟨rfl, rfl, fun _ => rfl, rfl, rfl, rfl⟩
      · exact leased
  | releaseManager => exact kept.releaseManager
  | closeRegistry =>
    exact ⟨(NativeOwners.cons_iff rfl rfl fun _ => rfl).mpr kept.owners,
      kept.libraries.start rfl rfl rfl nofun, kept.leases.close⟩
  | proceed place succeeds =>
    unfold step
    dsimp only
    split
    · exact kept
    · rename_i call found
      have here := List.getElem?_eq_some_iff.mp found
      have moved : (call :: run.calls.eraseIdx place).Perm run.calls := by
        rw [← here.2]
        exact List.getElem_cons_eraseIdx_perm here.1
      exact @proceeds { run with calls := run.calls.eraseIdx place } call (kept.reorder moved) succeeds

end Kept

/-- What the lifetime of the native library comes to. `handles` and `idle` say where each opened
library is and when the published one may be unloaded. -/
structure Contract (run : NativeTls) : Prop where
  handles : ∀ library < run.opened, library ∈ unloadedLibraries run.events ∨
    run.provider.libraryHandle = some library ∨ ∃ call ∈ run.calls, library ∈ call.libraries
  unloaded : (unloadedLibraries run.events).Nodup ∧ ∀ library ∈ unloadedLibraries run.events,
    library < run.opened ∧
    run.provider.libraryHandle ≠ some library ∧ ∀ call ∈ run.calls, library ∉ call.libraries
  published : (publishedLibraries run.events).length ≤ 1
  idle : ∀ library ∈ publishedLibraries run.events,
    library ∈ unloadedLibraries run.events ∨ (∃ call ∈ run.calls, library ∈ call.libraries) →
    run.provider.closeRequested = true ∧ run.provider.Unused
  trace : NativeTrace run.events
  calls : run.provider.activeCalls = run.calls.countP NativeCall.inCall
  pending : run.provider.pendingResources = run.calls.countP NativeCall.creates
  contexts : run.provider.activeContexts =
    run.contexts.count true + run.calls.countP (NativeCall.frees .context)
  sessions : run.provider.activeSessions =
    run.sessions.count true + run.calls.countP (NativeCall.frees .session)
  owner : run.events.count .closing ≤ 1
  leased : .closing ∈ run.events ∨ (∃ call ∈ run.calls, pccNativeTlsProviderName ∈ call.closes) →
    run.registry.closed = true ∧ run.registry.managerLeases = 0

theorem Kept.contract (kept : Kept run run.calls) : run.Contract := by
  obtain ⟨owners, libraries, leases⟩ := kept
  have custody := libraries.custody
  refine ⟨fun library made => ?_,
    ⟨custody.spent_nodup, fun library member => ⟨?_, fun held => ?_, fun call under hand => ?_⟩⟩,
    libraries.once, fun library known gone => ?_, libraries.trace, owners.inCalls, owners.creating,
    owners.active .context, owners.active .session, ?_, fun closing => ?_⟩
  · have place := custody.mem_iff.mpr (List.mem_range.mpr made)
    rw [List.append_assoc, List.mem_append, List.mem_append, Option.mem_toList] at place
    exact place.imp_right (.imp_right List.mem_flatMap.mp)
  · exact custody.below (List.mem_append_left _ (List.mem_append_left _ member))
  · exact custody.held_not_spent (Option.mem_toList.mpr held) member
  · exact custody.in_hand_not_spent (List.mem_flatMap.mpr ⟨call, under, hand⟩) member
  · have shut : run.provider.closed = true := by
      by_contra isOpen
      rw [libraries.current (by simpa using isOpen)] at known
      rcases gone with unloaded | hand
      · exact custody.held_not_spent known unloaded
      · exact custody.held_not_in_hand known (List.mem_flatMap.mpr hand)
    exact ⟨(libraries.shut shut).1, (libraries.shut shut).2.2⟩
  · have once := leases.once
    have most := List.nodup_iff_count.mp leases.nodup pccNativeTlsProviderName
    omega
  · refine leases.started fun none => ?_
    have once := leases.once
    rw [none, List.count_nil] at once
    rcases closing with closed | ⟨call, under, closes⟩
    · have := List.count_pos_iff.mpr closed
      omega
    · have := List.count_pos_iff.mpr (List.mem_flatMap.mpr ⟨call, under, closes⟩)
      omega

/-- However the calls to the provider and to a registry interleave, and whatever of the native
library fails: a library that was opened is unloaded at most once and never under a call, at most
one is ever published, and that one is unloaded only when a close was asked for and nothing uses it;
the counters are those of the calls, contexts and sessions that there are; and the registry closes
its providers at most once, when the last lease is gone. Nothing is assumed about the modes of the
registry, the number of its managers, or which party closes first. -/
theorem native_library_lifetime (providers : List String) (ownsProviders closeOnLastManager : Bool)
    (actions : List NativeAction) :
    (actions.foldl step { registry := { providers, ownsProviders, closeOnLastManager } }).Contract := by
  have kept := @Interleaving.invariant _ _ step { registry := { providers, ownsProviders, closeOnLastManager } }
    (fun run => Kept run run.calls) (fun run action kept => Kept.steps kept action) actions ?_
  · exact kept.contract
  · refine ⟨⟨rfl, rfl, fun kind => by cases kind <;> rfl⟩, ⟨rfl, nofun, ?_, rfl, rfl, fun _ => rfl,
      nofun, Nat.zero_le _, nofun, ?_⟩, ⟨rfl, List.nodup_nil, fun some => absurd rfl some⟩⟩
    · exact .refl _
    · exact ⟨.nil, .nil, List.not_mem_nil⟩

end NativeTls

end PccGateway
