import PccGateway.Tls.NativeOwners
import PccGateway.Lib.Custody

namespace PccGateway

def NativeEvent.published? : NativeEvent → Option Nat
  | .published library => some library
  | _ => none

def NativeEvent.unloaded? : NativeEvent → Option Nat
  | .unloaded library => some library
  | _ => none

def publishedLibraries (events : List NativeEvent) : List Nat := events.filterMap NativeEvent.published?

def unloadedLibraries (events : List NativeEvent) : List Nat := events.filterMap NativeEvent.unloaded?

theorem publishedLibraries_append (events : List NativeEvent) (event : NativeEvent) :
    publishedLibraries (events ++ [event]) = publishedLibraries events ++ event.published?.toList := by
  simp only [publishedLibraries, List.filterMap_append, List.filterMap_cons, List.filterMap_nil]
  cases event.published? <;> rfl

theorem unloadedLibraries_append (events : List NativeEvent) (event : NativeEvent) :
    unloadedLibraries (events ++ [event]) = unloadedLibraries events ++ event.unloaded?.toList := by
  simp only [unloadedLibraries, List.filterMap_append, List.filterMap_cons, List.filterMap_nil]
  cases event.unloaded? <;> rfl

theorem mem_unloadedLibraries {events : List NativeEvent} {library : Nat}
    (member : .unloaded library ∈ events) :
    library ∈ unloadedLibraries events :=
  List.mem_filterMap.mpr ⟨_, member, rfl⟩

/-- What was done to the libraries is in order: no entrypoint of an unloaded library is called, and no
entrypoint at all once the published one is unloaded. -/
structure NativeTrace (events : List NativeEvent) : Prop where
  silent : events.Pairwise fun earlier later => ∀ library ∈ publishedLibraries events, earlier =
    .unloaded library → ∀ other, later ≠ .entered other
  loaded : events.Pairwise fun earlier later => ∀ library, earlier = .unloaded library →
    later ≠ .entered library
  exact_ : .underflow ∉ events

theorem NativeTrace.append {events : List NativeEvent} {event : NativeEvent} (trace : NativeTrace events)
    (published : ∀ library, event = .published library → library ∉ unloadedLibraries events)
    (entered : ∀ other, event = .entered other → other ∉ unloadedLibraries events ∧
      ∀ library ∈ publishedLibraries events, library ∉ unloadedLibraries events)
    (exact_ : event ≠ .underflow) : NativeTrace (events ++ [event]) := by
  refine ⟨List.pairwise_append.mpr ⟨?_, List.pairwise_singleton _ _, ?_⟩,
    List.pairwise_append.mpr ⟨trace.loaded, List.pairwise_singleton _ _, ?_⟩, ?_⟩
  · refine trace.silent.imp_of_mem fun {earlier later} member _ kept library known is => ?_
    rw [publishedLibraries_append, List.mem_append] at known
    rcases known with old | new
    · exact kept library old is
    · cases event <;> simp only [NativeEvent.published?, Option.toList, List.mem_singleton,
        List.not_mem_nil] at new
      subst new is
      exact absurd (mem_unloadedLibraries member) (published _ rfl)
  · intro earlier member later last library known is other entry
    rw [List.mem_singleton.mp last] at entry
    subst is entry
    rw [publishedLibraries_append] at known
    refine (entered other rfl).2 library ?_ (mem_unloadedLibraries member)
    simpa [NativeEvent.published?] using known
  · intro earlier member later last library is entry
    rw [List.mem_singleton.mp last] at entry
    subst is entry
    exact (entered library rfl).1 (mem_unloadedLibraries member)
  · simpa [trace.exact_] using Ne.symm exact_

namespace NativeCall

/-- An activation that found nothing published. -/
def loads : NativeCall → Bool
  | .hashing _ | .opening _ | .linking _ _ | .probing _ _ | .publishing _ _ | .discarding _ _ => true
  | _ => false

/-- The call has `_activation_lock`. -/
def activates : NativeCall → Bool
  | .checking _ => true
  | call => call.loads

theorem loads_activates {call : NativeCall} (loads : call.loads = true) : call.activates = true := by
  unfold activates
  split
  · rfl
  · exact loads

/-- The libraries that the call has. -/
def libraries : NativeCall → List Nat
  | .linking _ library | .probing _ library | .publishing _ library | .discarding _ library => [library]
  | .unloading library _ => library.toList
  | _ => []

end NativeCall

/-- Where the opened libraries are. Only one of them is ever published, and it is taken when nobody
uses it. -/
structure NativeLibraries (provider : NativeProvider) (locked : Bool) (opened : Nat)
    (events : List NativeEvent) (calls : List NativeCall) : Prop where
  lock : calls.countP NativeCall.activates = if locked then 1 else 0
  loading : ∀ call ∈ calls, call.loads = true → publishedLibraries events = []
  custody : Custody opened (unloadedLibraries events) provider.libraryHandle.toList
    (calls.flatMap NativeCall.libraries)
  entrypoint : provider.entrypoint = provider.libraryHandle
  activated : provider.activated = provider.libraryHandle.isSome
  current : provider.closed = false → publishedLibraries events = provider.libraryHandle.toList
  shut : provider.closed = true → provider.closeRequested = true ∧ provider.libraryHandle = none ∧
    provider.Unused
  once : (publishedLibraries events).length ≤ 1
  invoking : ∀ purpose library, .invoking purpose library ∈ calls → provider.libraryHandle = some library
  trace : NativeTrace events

namespace NativeLibraries
variable {provider provider' : NativeProvider} {locked : Bool} {opened : Nat} {events : List NativeEvent}
  {calls calls' : List NativeCall} {call call' : NativeCall} {library : Nat}

/-- Who uses the provider finds it open. -/
theorem isOpen (libraries : NativeLibraries provider locked opened events calls)
    (used : ¬ provider.Unused) :
    provider.closed = false := by
  by_contra shut
  exact used (libraries.shut (by simpa using shut)).2.2

/-- Calls change places or go on with the libraries that they have. -/
theorem move (libraries : NativeLibraries provider locked opened events calls)
    (lock : calls'.countP NativeCall.activates = calls.countP NativeCall.activates)
    (loading : ∀ call ∈ calls', call.loads = true → call ∈ calls ∨ publishedLibraries events = [])
    (hands : (calls'.flatMap NativeCall.libraries).Perm (calls.flatMap NativeCall.libraries))
    (invoking : ∀ purpose library, .invoking purpose library ∈ calls' → .invoking purpose library ∈ calls ∨
      provider.libraryHandle = some library) : NativeLibraries provider locked opened events calls' := by
  refine { libraries with
    lock := lock.trans libraries.lock
    loading := fun call member loads => ?_
    custody := libraries.custody.move (hands.append_left _)
    invoking := fun purpose library member => ?_ }
  · exact (loading call member loads).elim (fun old => libraries.loading call old loads) id
  · exact (invoking purpose library member).elim (libraries.invoking purpose library) id

theorem reorder (libraries : NativeLibraries provider locked opened events calls)
    (moved : calls'.Perm calls) :
    NativeLibraries provider locked opened events calls' :=
  libraries.move (moved.countP_eq _) (fun _ member _ => .inl (moved.mem_iff.mp member))
    (moved.flatMap_right _)
    fun _ _ member => .inl (moved.mem_iff.mp member)

/-- A call goes on. -/
theorem swap (libraries : NativeLibraries provider locked opened events (call :: calls))
    (activates : call'.activates = call.activates)
    (loads : call'.loads = true → publishedLibraries events = [])
    (hands : call'.libraries = call.libraries)
    (invoking : ∀ purpose library, call' = .invoking purpose library →
      provider.libraryHandle = some library) :
    NativeLibraries provider locked opened events (call' :: calls) := by
  refine libraries.move (by rw [List.countP_cons, List.countP_cons, activates])
    (fun other member loads' => ?_)
    (by rw [List.flatMap_cons, List.flatMap_cons, hands]) fun purpose library member => ?_
  · rcases List.mem_cons.mp member with rfl | old
    · exact .inr (loads loads')
    · exact .inl (List.mem_cons_of_mem _ old)
  · rcases List.mem_cons.mp member with same | old
    · exact .inr (invoking purpose library same.symm)
    · exact .inl (List.mem_cons_of_mem _ old)

/-- A call that has no library begins. -/
theorem start (libraries : NativeLibraries provider locked opened events calls)
    (activates : call.activates = false) (loads : call.loads = false) (hands : call.libraries = [])
    (invoking : ∀ purpose library, call = .invoking purpose library →
      provider.libraryHandle = some library) :
    NativeLibraries provider locked opened events (call :: calls) := by
  refine libraries.move (by simp [activates]) (fun other member loads' => ?_) (by simp [hands])
    fun purpose library member => ?_
  · rcases List.mem_cons.mp member with rfl | old
    · rw [loads] at loads'
      cases loads'
    · exact .inl old
  · rcases List.mem_cons.mp member with same | old
    · exact .inr (invoking purpose library same.symm)
    · exact .inl old

/-- A call that has no library ends. -/
theorem finish (libraries : NativeLibraries provider locked opened events (call :: calls))
    (activates : call.activates = false)
    (hands : call.libraries = []) : NativeLibraries provider locked opened events calls :=
  libraries.move (by simp [activates]) (fun _ member _ => .inl (List.mem_cons_of_mem _ member))
    (by simp [hands])
    fun _ _ member => .inl (List.mem_cons_of_mem _ member)

/-- The counters change while the provider is not closed. -/
theorem count (libraries : NativeLibraries provider locked opened events calls)
    (isOpen : provider.closed = false) (handle : provider'.libraryHandle = provider.libraryHandle)
    (entrypoint : provider'.entrypoint = provider.entrypoint)
    (activated : provider'.activated = provider.activated) (closed : provider'.closed = provider.closed) :
    NativeLibraries provider' locked opened events calls where
  lock := libraries.lock
  loading := libraries.loading
  custody := handle ▸ libraries.custody
  entrypoint := by rw [entrypoint, handle, libraries.entrypoint]
  activated := by rw [activated, handle, libraries.activated]
  current := fun _ => handle ▸ libraries.current isOpen
  shut := fun shut => by
    rw [closed, isOpen] at shut
    cases shut
  once := libraries.once
  invoking := fun purpose library member => handle.trans (libraries.invoking purpose library member)
  trace := libraries.trace

/-- Who finds the library unused takes it. -/
theorem take (after : AfterUnload) (libraries : NativeLibraries provider locked opened events calls)
    (outside : provider.activeCalls = 0 → ∀ call ∈ calls, call.inCall = false) :
    NativeLibraries provider.takeLibraryToClose.1 locked opened events
      (.unloading provider.takeLibraryToClose.2 after :: calls) := by
  rcases provider.takeLibraryToClose_cases with same | ⟨requested, isOpen, unused, same⟩
  · rw [same]
    exact libraries.start rfl rfl rfl nofun
  · rw [same]
    refine ⟨by simpa [List.countP_cons, NativeCall.activates, NativeCall.loads] using libraries.lock,
      fun other member loads => ?_,
      libraries.custody.move ?_, rfl, rfl, nofun, fun _ => ⟨requested, rfl, unused⟩, libraries.once,
      fun purpose library member => ?_, libraries.trace⟩
    · rcases List.mem_cons.mp member with rfl | old
      · cases loads
      · exact libraries.loading other old loads
    · simp [NativeCall.libraries]
    · rcases List.mem_cons.mp member with other | old
      · cases other
      · cases outside unused.2.2.2 _ old

/-- The call opens a library. -/
theorem open_ (libraries : NativeLibraries provider locked opened events (call :: calls))
    (activates : call'.activates = call.activates) (loads : call.loads = true) (hands : call.libraries = [])
    (hands' : call'.libraries = [opened]) (other : ∀ purpose library, call' ≠ .invoking purpose library) :
    NativeLibraries provider locked (opened + 1) (events ++ [.opened opened]) (call' :: calls) := by
  have none := libraries.loading call List.mem_cons_self loads
  have published : publishedLibraries (events ++ [.opened opened]) = publishedLibraries events := by
    rw [publishedLibraries_append]
    exact List.append_nil _
  have unloaded : unloadedLibraries (events ++ [.opened opened]) = unloadedLibraries events := by
    rw [unloadedLibraries_append]
    exact List.append_nil _
  have custody := libraries.custody.make
  rw [List.flatMap_cons, hands, List.nil_append] at custody
  refine { libraries with
    lock := by rw [List.countP_cons, activates, ← List.countP_cons, libraries.lock]
    loading := fun _ _ _ => published.trans none
    custody := ?_
    current := fun isOpen => published.trans (libraries.current isOpen)
    once := published ▸ libraries.once
    invoking := fun purpose library member => ?_
    trace := libraries.trace.append nofun nofun nofun }
  · rw [unloaded, List.flatMap_cons, hands']
    exact custody
  · rcases List.mem_cons.mp member with same | old
    · exact absurd same.symm (other purpose library)
    · exact libraries.invoking purpose library (List.mem_cons_of_mem _ old)

/-- Something happens that the libraries do not depend on. -/
theorem log {event : NativeEvent} (libraries : NativeLibraries provider locked opened events calls)
    (trace : NativeTrace (events ++ [event])) (published : event.published? = none)
    (unloaded : event.unloaded? = none) :
    NativeLibraries provider locked opened (events ++ [event]) calls := by
  have published : publishedLibraries (events ++ [event]) = publishedLibraries events := by
    rw [publishedLibraries_append, published]
    exact List.append_nil _
  have unloaded : unloadedLibraries (events ++ [event]) = unloadedLibraries events := by
    rw [unloadedLibraries_append, unloaded]
    exact List.append_nil _
  exact { libraries with
    loading := fun call member loads => published.trans (libraries.loading call member loads)
    custody := unloaded ▸ libraries.custody
    current := fun isOpen => published.trans (libraries.current isOpen)
    once := published ▸ libraries.once
    trace }

/-- The entrypoint is called of a library that somebody has. -/
theorem enter (libraries : NativeLibraries provider locked opened events calls)
    (kept : library ∈ provider.libraryHandle.toList ∨ library ∈ calls.flatMap NativeCall.libraries ∧
      publishedLibraries events = []) :
    NativeLibraries provider locked opened (events ++ [.entered library]) calls := by
  have fresh : library ∉ unloadedLibraries events := by
    rcases kept with held | ⟨hand, -⟩
    · exact libraries.custody.held_not_spent held
    · exact libraries.custody.in_hand_not_spent hand
  refine libraries.log (libraries.trace.append nofun (fun other same => ?_) nofun) rfl rfl
  cases same
  refine ⟨fresh, fun known member => ?_⟩
  rcases kept with held | ⟨-, none⟩
  · have isOpen : provider.closed = false := by
      by_contra shut
      rw [(libraries.shut (by simpa using shut)).2.1] at held
      cases held
    rw [libraries.current isOpen] at member
    exact libraries.custody.held_not_spent member
  · rw [none] at member
    cases member

/-- A call closes the library that it has. -/
theorem unload (libraries : NativeLibraries provider locked opened events (call :: calls))
    (hands : call.libraries = [library])
    (hands' : call'.libraries = []) (activates : call'.activates = call.activates)
    (loads : call'.loads = false) (other : ∀ purpose library, call' ≠ .invoking purpose library) :
    NativeLibraries provider locked opened (events ++ [.unloaded library]) (call' :: calls) := by
  have published : publishedLibraries (events ++ [.unloaded library]) = publishedLibraries events := by
    rw [publishedLibraries_append]
    exact List.append_nil _
  have custody := libraries.custody
  rw [List.flatMap_cons, hands, List.singleton_append] at custody
  refine { libraries with
    lock := by rw [List.countP_cons, activates, ← List.countP_cons, libraries.lock]
    loading := fun other member loads' => ?_
    custody := ?_
    current := fun isOpen => published.trans (libraries.current isOpen)
    once := published ▸ libraries.once
    invoking := fun purpose library member => ?_
    trace := libraries.trace.append nofun nofun nofun }
  · rcases List.mem_cons.mp member with rfl | old
    · rw [loads] at loads'
      cases loads'
    · exact published.trans (libraries.loading other (List.mem_cons_of_mem _ old) loads')
  · rw [unloadedLibraries_append, List.flatMap_cons, hands']
    exact custody.spend
  · rcases List.mem_cons.mp member with same | old
    · exact absurd same.symm (other purpose library)
    · exact libraries.invoking purpose library (List.mem_cons_of_mem _ old)

/-- `_activation_lock` is taken. -/
theorem acquire {reason : ActivationFor}
    (libraries : NativeLibraries provider false opened events (.activating reason :: calls)) :
    NativeLibraries provider true opened events (.checking reason :: calls) := by
  have idle := libraries.finish rfl rfl
  refine { idle with
    lock := ?_
    loading := fun other member loads => ?_
    custody := idle.custody
    invoking := fun purpose library member => ?_ }
  · rw [List.countP_cons, idle.lock]
    rfl
  · rcases List.mem_cons.mp member with rfl | old
    · cases loads
    · exact idle.loading other old loads
  · rcases List.mem_cons.mp member with same | old
    · cases same
    · exact idle.invoking purpose library old

/-- It is released. -/
theorem release {reason : ActivationFor}
    (libraries : NativeLibraries provider locked opened events (.checking reason :: calls)) :
    NativeLibraries provider false opened events calls := by
  have lock := libraries.lock
  rw [List.countP_cons, NativeCall.activates, if_pos rfl] at lock
  have none : calls.countP NativeCall.activates = 0 := by
    split at lock <;> omega
  exact { libraries with
    lock := none
    loading := fun other member loads => libraries.loading other (List.mem_cons_of_mem _ member) loads
    custody := by simpa [NativeCall.libraries] using libraries.custody
    invoking := fun purpose library member =>
      libraries.invoking purpose library (List.mem_cons_of_mem _ member) }

/-- Only an activation that found nothing published goes on. -/
theorem unpublished (libraries : NativeLibraries provider locked opened events calls)
    (passed : provider.activateCheck = .ok false) : publishedLibraries events = [] := by
  unfold NativeProvider.activateCheck at passed
  split at passed
  · cases passed
  · rename_i inactive
    split at passed
    · cases passed
    · rename_i isOpen
      simp only [Bool.or_eq_true, not_or, Bool.not_eq_true] at isOpen
      simp only [isOpen.2, Bool.not_false, Bool.and_true, Bool.not_eq_true, libraries.activated] at inactive
      rw [libraries.current isOpen.2]
      cases handle : provider.libraryHandle with
      | none => rfl
      | some library =>
        rw [handle] at inactive
        cases inactive

/-- The activation publishes its library. -/
theorem publish {reason : ActivationFor}
    (libraries : NativeLibraries provider locked opened events (.publishing reason library :: calls))
    (ran : provider.publish library = some provider') :
    NativeLibraries provider' locked opened (events ++ [.published library])
      (.checking reason :: calls) := by
  unfold NativeProvider.publish at ran
  split at ran
  · rename_i isOpen
    simp only [Bool.and_eq_true, Bool.not_eq_true'] at isOpen
    cases ran
    have before := libraries.loading _ List.mem_cons_self rfl
    have empty : provider.libraryHandle = none := by
      have current := libraries.current isOpen.2
      rw [before] at current
      cases handle : provider.libraryHandle with
      | none => rfl
      | some library =>
        rw [handle] at current
        cases current
    have published : publishedLibraries (events ++ [.published library]) = [library] := by
      rw [publishedLibraries_append, before]
      rfl
    have lock := libraries.lock
    rw [List.countP_cons, NativeCall.loads_activates rfl, if_pos rfl] at lock
    have alone (other : NativeCall) (member : other ∈ calls) : other.activates = false := by
      have zero : calls.countP NativeCall.activates = 0 := by
        split at lock <;> omega
      simpa using List.countP_eq_zero.mp zero other member
    have hand : library ∈ (.publishing reason library :: calls).flatMap NativeCall.libraries :=
      List.mem_cons_self
    refine ⟨libraries.lock, fun other member loads => ?_, ?_, rfl, rfl, fun _ => published,
      fun shut => ?_, ?_,
      fun purpose entry member => ?_, libraries.trace.append (fun other same => ?_) nofun nofun⟩
    · rcases List.mem_cons.mp member with rfl | old
      · cases loads
      · have active := NativeCall.loads_activates loads
        rw [alone other old] at active
        cases active
    · rw [unloadedLibraries_append]
      simp only [NativeEvent.unloaded?, Option.toList, List.append_nil]
      refine libraries.custody.move ?_
      rw [empty]
      exact .refl _
    · rw [isOpen.2] at shut
      cases shut
    · rw [published]
      exact Nat.le_refl _
    · rcases List.mem_cons.mp member with same | old
      · cases same
      · have known := libraries.invoking purpose entry (List.mem_cons_of_mem _ old)
        rw [empty] at known
        cases known
    · cases same
      exact libraries.custody.in_hand_not_spent hand
  · cases ran

/-- `close` is requested. -/
theorem request (libraries : NativeLibraries provider locked opened events calls) :
    NativeLibraries { provider with closeRequested := true } locked opened events calls :=
  { libraries with shut := fun shut => ⟨rfl, (libraries.shut shut).2⟩ }

theorem close (after : AfterUnload) (libraries : NativeLibraries provider locked opened events calls)
    (outside : provider.activeCalls = 0 → ∀ call ∈ calls, call.inCall = false) :
    NativeLibraries provider.close.1 locked opened events (.unloading provider.close.2 after :: calls) := by
  unfold NativeProvider.close
  split
  · exact libraries.start rfl rfl rfl nofun
  · exact libraries.request.take after outside

end NativeLibraries

end PccGateway
