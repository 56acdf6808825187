import PccGateway.Tls.NativeProvider
import PccGateway.Lib.Counting

namespace PccGateway

namespace NativeCall

/-- What `_invoke` of the call is or was for, until the resource is settled. -/
def purpose : NativeCall → Option NativePurpose
  | .beginning purpose | .invoking purpose _ | .finishing purpose _ | .unloading _
      (.invoked purpose _) => some purpose
  | .completing kind | .canceling kind => some (.create kind)
  | .releasing kind => some (.free kind)
  | _ => none

/-- Between `_begin_call` and `_finish_call`. -/
def inCall : NativeCall → Bool
  | .invoking _ _ | .finishing _ _ => true
  | _ => false

/-- The call has reserved a resource. -/
def creates (call : NativeCall) : Bool :=
  match call.purpose with
  | some (.create _) => true
  | _ => false

/-- The call has a released object of this kind to free. -/
def frees (kind : NativeResource) (call : NativeCall) : Bool := call.purpose == some (.free kind)

theorem countP_creates {call call' : NativeCall} (purpose : call'.purpose = call.purpose)
    (calls : List NativeCall) :
    (call' :: calls).countP creates = (call :: calls).countP creates := by
  rw [List.countP_cons, List.countP_cons, creates, creates, purpose]

theorem countP_frees {call call' : NativeCall} (purpose : call'.purpose = call.purpose)
    (kind : NativeResource) (calls : List NativeCall) :
    (call' :: calls).countP (frees kind) = (call :: calls).countP (frees kind) := by
  rw [List.countP_cons, List.countP_cons, frees, frees, purpose]

end NativeCall

namespace NativeProvider

/-- Nobody uses the library. -/
def Unused (provider : NativeProvider) : Prop :=
  provider.activeContexts = 0 ∧ provider.activeSessions = 0 ∧ provider.pendingResources = 0 ∧
    provider.activeCalls = 0

/-- The library is taken by the one who finds that it is not used any more. -/
theorem takeLibraryToClose_cases (provider : NativeProvider) :
    provider.takeLibraryToClose = (provider, none) ∨
      (provider.closeRequested = true ∧ provider.closed = false ∧ provider.Unused ∧
        provider.takeLibraryToClose =
        ({ provider with libraryHandle := none, entrypoint := none, activated := false, closed := true },
          provider.libraryHandle)) := by
  unfold takeLibraryToClose
  split
  · exact .inl rfl
  · rename_i taken
    simp only [Bool.or_eq_true, Bool.not_eq_true', bne_iff_ne, not_or, ne_eq, Decidable.not_not,
      Bool.not_eq_false, Bool.not_eq_true] at taken
    obtain ⟨⟨⟨⟨⟨requested, isOpen⟩, contexts⟩, sessions⟩, pending⟩, calls⟩ := taken
    exact .inr ⟨requested, isOpen, ⟨contexts, sessions, pending, calls⟩, rfl⟩

@[simp] theorem takeLibraryToClose_activeCalls (provider : NativeProvider) :
    provider.takeLibraryToClose.1.activeCalls = provider.activeCalls := by
  rcases provider.takeLibraryToClose_cases with same | ⟨-, -, -, same⟩ <;> rw [same]

@[simp] theorem takeLibraryToClose_pendingResources (provider : NativeProvider) :
    provider.takeLibraryToClose.1.pendingResources = provider.pendingResources := by
  rcases provider.takeLibraryToClose_cases with same | ⟨-, -, -, same⟩ <;> rw [same]

@[simp] theorem takeLibraryToClose_active (provider : NativeProvider) (kind : NativeResource) :
    provider.takeLibraryToClose.1.active kind = provider.active kind := by
  rcases provider.takeLibraryToClose_cases with same | ⟨-, -, -, same⟩
  · rw [same]
  · rw [same]
    cases kind <;> rfl

@[simp] theorem setActive_activeCalls (kind : NativeResource) (count : Nat) (provider : NativeProvider) :
    (provider.setActive kind count).activeCalls = provider.activeCalls := by
  cases kind <;> rfl

@[simp] theorem setActive_pendingResources (kind : NativeResource) (count : Nat)
    (provider : NativeProvider) :
    (provider.setActive kind count).pendingResources = provider.pendingResources := by
  cases kind <;> rfl

@[simp] theorem active_withCalls (kind : NativeResource) (count : Nat) (provider : NativeProvider) :
    { provider with activeCalls := count }.active kind = provider.active kind := by
  cases kind <;> rfl

@[simp] theorem active_withPending (kind : NativeResource) (count : Nat) (provider : NativeProvider) :
    { provider with pendingResources := count }.active kind = provider.active kind := by
  cases kind <;> rfl

theorem setActive_active (kind other : NativeResource) (count : Nat) (provider : NativeProvider) :
    (provider.setActive kind count).active other = if kind = other then
    count else provider.active other := by
  cases kind <;> cases other <;> rfl

end NativeProvider

/-- The counters are the numbers of their owners. -/
structure NativeOwners (provider : NativeProvider) (objects : NativeResource → List Bool)
    (calls : List NativeCall) : Prop where
  inCalls : provider.activeCalls = calls.countP NativeCall.inCall
  creating : provider.pendingResources = calls.countP NativeCall.creates
  active : ∀ kind, provider.active kind = (objects kind).count true + calls.countP (NativeCall.frees kind)

namespace NativeOwners
variable {provider provider' : NativeProvider} {objects objects' : NativeResource → List Bool}
  {calls calls' : List NativeCall}
  {call call' : NativeCall} {kind : NativeResource} {purpose : NativePurpose} {succeeded : Bool}
    {library : Option Nat}

theorem reorder (owners : NativeOwners provider objects calls) (moved : calls'.Perm calls) :
    NativeOwners provider objects calls' :=
  ⟨owners.inCalls.trans (moved.countP_eq _).symm, owners.creating.trans (moved.countP_eq _).symm,
    fun kind => (owners.active kind).trans (by rw [moved.countP_eq])⟩

/-- A section that leaves the counters alone. -/
theorem frame (owners : NativeOwners provider objects calls)
    (activeCalls : provider'.activeCalls = provider.activeCalls)
    (pending : provider'.pendingResources = provider.pendingResources)
    (active : ∀ kind, provider'.active kind = provider.active kind) :
    NativeOwners provider' objects calls :=
  ⟨activeCalls.trans owners.inCalls, pending.trans owners.creating, fun kind =>
    (active kind).trans (owners.active kind)⟩

theorem take (owners : NativeOwners provider objects calls) :
    NativeOwners provider.takeLibraryToClose.1 objects calls :=
  owners.frame (by simp) (by simp) (by simp)

/-- A call goes on for the same purpose, neither before nor after the entrypoint. -/
theorem swap (owners : NativeOwners provider objects (call :: calls))
    (purpose : call'.purpose = call.purpose)
    (inCall : call'.inCall = call.inCall) : NativeOwners provider objects (call' :: calls) := by
  obtain ⟨inCalls, creating, active⟩ := owners
  refine ⟨?_, ?_, fun kind => ?_⟩
  · rwa [List.countP_cons, inCall, ← List.countP_cons]
  · rw [creating, NativeCall.countP_creates purpose]
  · rw [active, NativeCall.countP_frees purpose]

/-- A call that has nothing begins or ends. -/
theorem cons_iff (inCall : call.inCall = false) (creates : call.creates = false)
    (frees : ∀ kind, call.frees kind = false) :
    NativeOwners provider objects (call :: calls) ↔ NativeOwners provider objects calls := by
  constructor
  · rintro ⟨inCalls, creating, active⟩
    exact ⟨by simpa [inCall] using inCalls, by simpa [creates] using creating,
      fun kind => by simpa [frees] using active kind⟩
  · rintro ⟨inCalls, creating, active⟩
    exact ⟨by simpa [inCall] using inCalls, by simpa [creates] using creating,
      fun kind => by simpa [frees] using active kind⟩

theorem close (owners : NativeOwners provider objects calls) :
    NativeOwners provider.close.1 objects calls := by
  unfold NativeProvider.close
  split
  · exact owners
  · have requested : NativeOwners { provider with closeRequested := true } objects calls :=
      owners.frame rfl rfl fun kind => by cases kind <;> rfl
    exact requested.take

/-- Without an active call nobody is in the library. -/
theorem outside (owners : NativeOwners provider objects calls) (idle : provider.activeCalls = 0) :
    ∀ call ∈ calls, call.inCall = false := by
  have none := owners.inCalls
  rw [idle] at none
  simpa using List.countP_eq_zero.mp none.symm

/-- A call that is counted uses the library. -/
theorem used (owners : NativeOwners provider objects (call :: calls))
    (counted : call.inCall = true ∨ call.creates = true ∨ ∃ kind, call.frees kind = true) :
    ¬ provider.Unused := by
  rintro ⟨contexts, sessions, pending, inCall⟩
  rcases counted with is | is | ⟨kind, is⟩
  · have inCalls := owners.inCalls
    rw [inCall, List.countP_cons, is, if_pos rfl] at inCalls
    omega
  · have creating := owners.creating
    rw [pending, List.countP_cons, is, if_pos rfl] at creating
    omega
  · have active := owners.active kind
    rw [List.countP_cons, is, if_pos rfl] at active
    cases kind with
    | context =>
      change provider.activeContexts = _ at active
      omega
    | session =>
      change provider.activeSessions = _ at active
      omega

/-- `_begin_call`. -/
theorem begin_ {entry : Nat} (owners : NativeOwners provider objects (.beginning purpose :: calls))
    (ran : provider.beginCall = .ok (provider', entry)) :
    NativeOwners provider' objects (.invoking purpose entry :: calls) := by
  unfold NativeProvider.beginCall at ran
  split at ran
  · cases ran
    obtain ⟨inCalls, creating, active⟩ := owners
    refine ⟨?_, creating.trans (NativeCall.countP_creates rfl calls), fun kind => ?_⟩
    · simp only [List.countP_cons, NativeCall.inCall, inCalls]
      rfl
    · rw [NativeProvider.active_withCalls, active]
      exact congrArg (_ + ·) (NativeCall.countP_frees rfl kind calls)
  · cases ran

/-- `_finish_call` finds the call that it finishes. -/
theorem finish (owners : NativeOwners provider objects (.finishing purpose succeeded :: calls)) :
    provider.finishCall = .ok { provider with activeCalls := provider.activeCalls - 1 }.takeLibraryToClose ∧
      NativeOwners { provider with activeCalls := provider.activeCalls - 1 } objects
        (.unloading library (.invoked purpose succeeded) :: calls) := by
  obtain ⟨inCalls, creating, active⟩ := owners
  simp only [List.countP_cons, NativeCall.inCall, if_true] at inCalls
  refine ⟨if_neg (by omega), ?_, creating.trans (NativeCall.countP_creates rfl calls), fun kind => ?_⟩
  · simp only [List.countP_cons, NativeCall.inCall, Bool.false_eq_true, if_false]
    omega
  · rw [NativeProvider.active_withCalls, active]
    exact congrArg (_ + ·) (NativeCall.countP_frees rfl kind calls)

/-- `_reserve_resource`. -/
theorem reserve (owners : NativeOwners provider objects calls)
    (ran : provider.reserveResource = .ok provider')
    (kind : NativeResource) : NativeOwners provider' objects (.beginning (.create kind) :: calls) := by
  unfold NativeProvider.reserveResource at ran
  split at ran
  · cases ran
  · cases ran
    obtain ⟨inCalls, creating, active⟩ := owners
    refine ⟨by simpa [List.countP_cons, NativeCall.inCall] using inCalls, ?_, fun other => ?_⟩
    · simp [List.countP_cons, NativeCall.creates, NativeCall.purpose, creating]
    · rw [NativeProvider.active_withPending, active]
      simp [NativeCall.frees, NativeCall.purpose]

/-- `_publish_resource` finds its reservation, and there is one object more. -/
theorem complete (owners : NativeOwners provider objects (.completing kind :: calls))
    (added : ∀ other, objects' other = if kind = other then objects kind ++ [true] else objects other) :
    provider.publishResource kind =
        .ok ({ provider with pendingResources := provider.pendingResources - 1 }.setActive kind
          (provider.active kind + 1)) ∧
      NativeOwners ({ provider with pendingResources := provider.pendingResources - 1 }.setActive kind
        (provider.active kind + 1))
        objects' calls := by
  obtain ⟨inCalls, creating, active⟩ := owners
  simp only [List.countP_cons, NativeCall.creates, NativeCall.purpose, if_true] at creating
  refine ⟨if_neg (by omega), by simpa [List.countP_cons, NativeCall.inCall] using inCalls, ?_,
    fun other => ?_⟩
  · simp only [NativeProvider.setActive_pendingResources, creating, Nat.add_sub_cancel]
  · have known := active other
    simp only [List.countP_cons, NativeCall.frees, NativeCall.purpose] at known
    rw [NativeProvider.setActive_active, added]
    split
    · rename_i same
      subst same
      rw [List.count_append, known]
      simp
      omega
    · rename_i different
      simpa [different] using known

/-- `_cancel_resource` finds its reservation. -/
theorem cancel (owners : NativeOwners provider objects (.canceling kind :: calls)) :
    provider.cancelResource =
      .ok { provider with pendingResources := provider.pendingResources - 1 }.takeLibraryToClose ∧
      NativeOwners { provider with pendingResources := provider.pendingResources - 1 } objects
        (.unloading library .done :: calls) := by
  obtain ⟨inCalls, creating, active⟩ := owners
  simp only [List.countP_cons, NativeCall.creates, NativeCall.purpose, if_true] at creating
  refine ⟨if_neg (by omega), by simpa [List.countP_cons, NativeCall.inCall] using inCalls, ?_,
    fun other => ?_⟩
  · simp only [List.countP_cons, NativeCall.creates, NativeCall.purpose, creating, Nat.add_sub_cancel]
    rfl
  · rw [NativeProvider.active_withPending, active]
    simp [NativeCall.frees, NativeCall.purpose]

/-- `_release_resource` finds the object that it releases. -/
theorem release (owners : NativeOwners provider objects (.releasing kind :: calls)) :
    provider.releaseResource kind =
      .ok (provider.setActive kind (provider.active kind - 1)).takeLibraryToClose ∧
      NativeOwners (provider.setActive kind (provider.active kind - 1)) objects
        (.unloading library .done :: calls) := by
  obtain ⟨inCalls, creating, active⟩ := owners
  have mine := active kind
  simp only [List.countP_cons, NativeCall.frees, NativeCall.purpose, beq_self_eq_true, if_true] at mine
  refine ⟨if_neg (by omega), ?_, ?_, fun other => ?_⟩
  · simpa [List.countP_cons, NativeCall.inCall] using inCalls
  · simpa [List.countP_cons, NativeCall.creates, NativeCall.purpose] using creating
  · have known := active other
    rw [NativeProvider.setActive_active]
    simp only [List.countP_cons, NativeCall.frees, NativeCall.purpose] at known ⊢
    split
    · rename_i same
      subst same
      simp
      omega
    · rename_i different
      simpa [different] using known

/-- `free_connection` and `free_context` take an object that is not released. -/
theorem free {object : Nat} (owners : NativeOwners provider objects calls)
    (found : (objects kind)[object]? = some true)
    (taken : ∀ other, objects' other = if kind = other then (objects kind).set object false
      else objects other) :
    NativeOwners provider objects' (.beginning (.free kind) :: calls) := by
  obtain ⟨inCalls, creating, active⟩ := owners
  refine ⟨by simpa [List.countP_cons, NativeCall.inCall] using inCalls,
    by simpa [List.countP_cons, NativeCall.creates, NativeCall.purpose] using creating, fun other => ?_⟩
  rw [active other, taken, List.countP_cons]
  split
  · rename_i same
    subst same
    have one := @Counting.countP_set_off _ (· == true) (objects kind) object true false found rfl rfl
    simp only [NativeCall.frees, NativeCall.purpose, beq_self_eq_true, if_true, List.count]
    omega
  · rename_i different
    simp [NativeCall.frees, NativeCall.purpose, different]

end NativeOwners

end PccGateway
