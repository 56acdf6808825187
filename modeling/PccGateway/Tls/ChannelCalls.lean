import PccGateway.Tls.Channel

namespace PccGateway
open Method

variable {Session Context : Type} {config : TlsConfig}

namespace ProviderCall

/-- One of the calls that a channel which failed or ended makes no more. -/
def works : ProviderCall Context → Bool
  | .handshake | .setServerContext _ | .read _ | .write _ | .closeNotify => true
  | .selectedAlpn | .freeConnection => false

def setsContext : ProviderCall Context → Bool
  | .setServerContext _ => true
  | _ => false

def frees : ProviderCall Context → Bool
  | .freeConnection => true
  | _ => false

end ProviderCall

/-- The channel was in a state that allows the call when it was made. -/
structure CallRecord.Guarded (record : CallRecord Session Context) : Prop where
  working : record.call.works = true → record.channel.failed = false ∧
    record.channel.closeNotifyComplete = false ∧ record.channel.released = false
  reading : ∀ limit, record.call = .read limit → record.channel.handshakeComplete = true
  writing : ∀ length, record.call = .write length →
    record.channel.handshakeComplete = true ∧ record.channel.closeNotifyStarted = false

namespace ChannelState
variable (s : ChannelState Session Context)

def remembered (result : TlsResult) : ChannelState Session Context :=
  { s with channel := s.channel.remembered result }

def recorded (call : ProviderCall Context) : ChannelState Session Context :=
  { s with calls := s.calls ++ [⟨call, s.channel⟩] }

def contextCalls : Nat := s.calls.countP (·.call.setsContext)

def freeCalls : Nat := s.calls.countP (·.call.frees)

end ChannelState

/-- What holds of a channel of the generation with this configuration between two steps. -/
structure ChannelBase (config : TlsConfig) (s : ChannelState Session Context) : Prop where
  guarded : ∀ record ∈ s.calls, record.Guarded
  alpn : s.channel.handshakeComplete = true → s.channel.alpn = [] ∨ s.channel.alpn ∈ config.alpn
  owned : s.channel.generation = if s.channel.released then none else some config
  session : s.channel.session.isNone = s.channel.released
  freed : s.freeCalls = if s.channel.released then 1 else 0
  ended : s.channel.closeNotifyComplete = true → s.channel.closed = true
  broken : s.channel.failed = true → s.channel.released = false →
    s.channel.lastResult.status = TlsStatus.error

/-- At most one context was installed, and then a second one is refused. -/
structure ChannelInv (config : TlsConfig) (s : ChannelState Session Context) :
    Prop extends ChannelBase config s where
  contexts : s.contextCalls = 0 ∨
    s.contextCalls = 1 ∧ (s.channel.sniSelected = true ∨ s.channel.failed = true)

/-- A channel that may go to its provider. -/
structure Live (s : ChannelState Session Context) : Prop where
  sound : s.channel.failed = false
  held : s.channel.released = false
  opened : s.channel.closed = false

/-- A result that passed the checks: an error, or what the provider gave and the operation admits. -/
def Validated (operation : String) (limit : Int) (result : TlsResult) : Prop :=
  result.status ≠ TlsStatus.error → (result.status = TlsStatus.selectSni → operation = "handshake") ∧
    (operation ∈ ["read", "write"] → result.status = TlsStatus.ok → 0 < result.count ∧ result.count ≤ limit)

namespace TlsChannel
variable {s : ChannelState Session Context} {provider : TlsProvider Session Context}

@[simp] theorem ends_assign {ok : Unit → ChannelState Session Context → Prop}
    {bad : ChannelExn → ChannelState Session Context → Prop}
    (change : TlsChannel Session → TlsChannel Session) :
    Ends (assign change) s ok bad ↔ ok () { s with channel := change s.channel } := Iff.rfl

@[simp] theorem ends_record {ok : Unit → ChannelState Session Context → Prop}
    {bad : ChannelExn → ChannelState Session Context → Prop} (call : ProviderCall Context) :
    Ends (record call) s ok bad ↔ ok () (s.recorded call) := Iff.rfl

theorem ends_callResult (methodName : String) (call : ProviderCall Context) :
    Ends (callResult provider methodName call) s
      (fun result t => t = s.recorded call ∨
        result.status = TlsStatus.error ∧ t = (s.recorded call).remembered result) (fun _ _ => False) := by
  unfold callResult
  simp only [ends_bind, ends_record, ends_get]
  split
  · exact .inr ⟨rfl, rfl⟩
  · exact .inr ⟨rfl, rfl⟩
  · exact .inl rfl

theorem ends_validateResult (operation : String) (result : TlsResult) (limit : Int) :
    Ends (validateResult operation result limit) s
      (fun checked t => t = s.remembered checked ∧ Validated operation limit checked)
      (fun _ _ => False) := by
  have refused (detail : String) : Ends (contractFailure detail) s
      (fun checked t => t = s.remembered checked ∧ Validated operation limit checked) (fun _ _ => False) :=
    ⟨rfl, fun other => absurd rfl other⟩
  unfold validateResult
  refine .ite (fun _ => refused _) fun _ => .ite (fun _ => refused _) fun sni =>
      .ite (fun _ => refused _) fun _ =>
    .ite (fun _ => refused _) fun _ => .ite (fun failed => ?_) fun _ => .ite (fun _ => refused _) fun _ =>
    .ite (fun moved => .ite (fun _ => refused _) fun count => ?_) fun still =>
      .ite (fun _ => refused _) fun _ => ?_
  · refine .ite (fun _ => refused _) fun _ => .ite (fun _ => refused _) fun _ => ?_
    exact ⟨rfl, fun other => absurd failed other⟩
  · refine ⟨rfl, fun _ => ⟨fun select => ?_, fun _ _ => by omega⟩⟩
    simp [moved.2, TlsStatus.ok, TlsStatus.selectSni] at select
  · refine ⟨rfl, fun _ => ⟨fun select => ?_, fun transfer done => absurd ⟨transfer, done⟩ still⟩⟩
    by_contra other
    exact sni ⟨select, other⟩

/-- A call on the provider: it breaks the channel, or `rest` goes on with what came of it. -/
theorem ends_called {α : Type} {ok : α → ChannelState Session Context → Prop}
    {bad : ChannelExn → ChannelState Session Context → Prop} {methodName : String}
    {call : ProviderCall Context}
    {stop rest : TlsResult → ChannelM Session Context α} (sound : s.channel.failed = false)
    (broke : ∀ result, result.status = TlsStatus.error →
      Ends (stop result) ((s.recorded call).remembered result) ok bad)
    (answered : ∀ result, Ends (rest result) (s.recorded call) ok bad) :
    Ends (do
      let result ← callResult provider methodName call
      if ← brokeOff result then stop result
      else rest result) s ok bad := by
  rw [ends_bind]
  refine (ends_callResult methodName call).mono ?_ fun _ _ => False.elim
  rintro result t (rfl | ⟨failed, rfl⟩)
  · have unbroken : ((s.recorded call).channel.failed) = false := sound
    simp only [brokeOff, ends_bind, ends_get, ends_pure, unbroken, Bool.and_false,
      Bool.false_eq_true, if_false]
    exact answered result
  · have broken : ((s.recorded call).remembered result).channel.failed = true := by
      simp [ChannelState.remembered, remembered, failed]
    simp only [brokeOff, ends_bind, ends_get, ends_pure, broken, failed, beq_self_eq_true,
      Bool.and_true, if_true]
    exact broke result failed

/-- A call on the provider and the checks of what it gives: `next` goes on with what came of it. -/
theorem ends_consulted {α : Type} {ok : α → ChannelState Session Context → Prop}
    {bad : ChannelExn → ChannelState Session Context → Prop} {methodName operation : String}
    {call : ProviderCall Context}
    {limit : Int} {stop next : TlsResult → ChannelM Session Context α} (sound : s.channel.failed = false)
    (broke : ∀ result, result.status = TlsStatus.error →
      Ends (stop result) ((s.recorded call).remembered result) ok bad)
    (checked : ∀ result, Validated operation limit result →
      Ends (next result) ((s.recorded call).remembered result) ok bad) :
    Ends (do
      let result ← callResult provider methodName call
      if ← brokeOff result then stop result
      else
        let result ← validateResult operation result limit
        next result) s ok bad := by
  refine ends_called sound broke fun result => ?_
  rw [ends_bind]
  refine (ends_validateResult operation result limit).mono ?_ fun _ _ => False.elim
  rintro final t ⟨rfl, valid⟩
  exact checked final valid

end TlsChannel

variable {s : ChannelState Session Context}

theorem ChannelState.remembered_failed (result : TlsResult) (failed : s.channel.failed = true) :
    (s.remembered result).channel.failed = true := by
  simp [ChannelState.remembered, TlsChannel.remembered, failed]

theorem ChannelState.remembered_sound {result : TlsResult} (sound : s.channel.failed = false)
    (fine : result.status ≠ TlsStatus.error) : (s.remembered result).channel.failed = false := by
  simp [ChannelState.remembered, TlsChannel.remembered, sound, fine]

theorem Live.remembered {result : TlsResult} (live : Live s) (fine : result.status ≠ TlsStatus.error) :
    Live (s.remembered result) :=
  ⟨ChannelState.remembered_sound live.sound fine, live.held, live.opened⟩

theorem Live.recorded (live : Live s) (call : ProviderCall Context) : Live (s.recorded call) :=
  ⟨live.sound, live.held, live.opened⟩

namespace ChannelBase

theorem remembered (base : ChannelBase config s) {result : TlsResult}
    (kept : s.channel.failed = true → s.channel.released = true ∨ result.status = TlsStatus.error) :
    ChannelBase config (s.remembered result) where
  guarded := base.guarded
  alpn := base.alpn
  owned := base.owned
  session := base.session
  freed := base.freed
  ended := base.ended
  broken := by
    intro failed held
    have known : s.channel.failed = true ∨ result.status = TlsStatus.error := by
      simpa [ChannelState.remembered, TlsChannel.remembered] using failed
    rcases known with failed | error
    · exact (kept failed).resolve_left
        (by simpa [ChannelState.remembered, TlsChannel.remembered] using held)
    · exact error

theorem recorded (base : ChannelBase config s) {call : ProviderCall Context}
    (guarded : CallRecord.Guarded ⟨call, s.channel⟩) (keeps : call.frees = false) :
    ChannelBase config (s.recorded call) where
  guarded := by
    intro record member
    rcases List.mem_append.mp member with old | new
    · exact base.guarded record old
    · rw [List.mem_singleton.mp new]
      exact guarded
  alpn := base.alpn
  owned := base.owned
  session := base.session
  freed := by
    have same : (s.recorded call).freeCalls = s.freeCalls := by
      simp [ChannelState.freeCalls, ChannelState.recorded, keeps]
    exact same.trans base.freed
  ended := base.ended
  broken := base.broken

/-- A live channel may make any of its working calls but a transfer. -/
theorem guarded_of_live (base : ChannelBase config s) (live : Live s) (call : ProviderCall Context)
    (reading : ∀ limit, call = .read limit → s.channel.handshakeComplete = true)
    (writing : ∀ length, call = .write length →
      s.channel.handshakeComplete = true ∧ s.channel.closeNotifyStarted = false) :
    CallRecord.Guarded ⟨call, s.channel⟩ := by
  refine ⟨fun _ => ⟨live.sound, ?_, live.held⟩, reading, writing⟩
  by_contra complete
  have closed := base.ended (by simpa using complete)
  simp [live.opened] at closed

end ChannelBase

/-- What a call on the channel other than `close` leaves: the invariant, and the session in the hands it
was in. -/
def Settles (config : TlsConfig) (s t : ChannelState Session Context) : Prop :=
  ChannelInv config t ∧ t.channel.released = s.channel.released

namespace ChannelInv

theorem remembered (inv : ChannelInv config s) {result : TlsResult}
    (kept : s.channel.failed = true → s.channel.released = true ∨ result.status = TlsStatus.error) :
    ChannelInv config (s.remembered result) where
  toChannelBase := inv.toChannelBase.remembered kept
  contexts := inv.contexts.imp id fun ⟨once, refused⟩ =>
    ⟨once, refused.imp id (ChannelState.remembered_failed result)⟩

theorem recorded (inv : ChannelInv config s) {call : ProviderCall Context}
    (guarded : CallRecord.Guarded ⟨call, s.channel⟩) (keeps : call.frees = false)
    (plain : call.setsContext = false) :
    ChannelInv config (s.recorded call) where
  toChannelBase := inv.toChannelBase.recorded guarded keeps
  contexts := by
    have same : (s.recorded call).contextCalls = s.contextCalls := by
      simp [ChannelState.contextCalls, ChannelState.recorded, plain]
    rw [same]
    exact inv.contexts

theorem settles_remembered (inv : ChannelInv config s) {result : TlsResult}
    (kept : s.channel.failed = true → s.channel.released = true ∨ result.status = TlsStatus.error) :
    Settles config s (s.remembered result) :=
  ⟨inv.remembered kept, rfl⟩

/-- A live channel remembers any result. -/
theorem settles_of_live (inv : ChannelInv config s) (live : Live s) (result : TlsResult) :
    Settles config s (s.remembered result) :=
  inv.settles_remembered fun failed => by simp [live.sound] at failed

end ChannelInv

theorem Settles.refl (inv : ChannelInv config s) : Settles config s s := ⟨inv, rfl⟩

namespace TlsChannel
variable {provider : TlsProvider Session Context} {nowMs deadlineMs : Int}

theorem ends_deadline (inv : ChannelInv config s) (live : Live s) :
    Ends (deadline nowMs deadlineMs) s (fun early t =>
      match early with
      | some result => Settles config s t ∧ t.calls = s.calls ∧ result.status ≠ TlsStatus.ok
      | none => t = s) (fun _ _ => False) := by
  unfold deadline
  refine .ite (fun _ => ?_) fun _ => .ite (fun _ => ?_) fun _ => rfl
  · exact ⟨inv.settles_of_live live _, rfl, by decide⟩
  · exact ⟨inv.settles_of_live live _, rfl, by decide⟩

theorem ends_preflight (inv : ChannelInv config s) :
    Ends (preflight nowMs deadlineMs) s (fun early t =>
      match early with
      | some result => Settles config s t ∧ t.calls = s.calls ∧ result.status ≠ TlsStatus.ok
      | none => t = s ∧ Live s) (fun _ _ => False) := by
  unfold preflight
  rw [ends_bind, ends_get]
  refine .ite (fun gone => ?_) fun held => .ite (fun failed => ?_) fun sound =>
    .ite (fun _ => ?_) fun opened => ?_
  · refine ⟨inv.settles_remembered fun _ => .inl ?_, rfl, by decide⟩
    rw [inv.session] at gone
    exact gone.elim id id
  · simp only [not_or, Bool.not_eq_true] at held
    refine ⟨.refl inv, rfl, ?_⟩
    rw [inv.broken failed held.1]
    decide
  · exact ⟨inv.settles_remembered fun failed => absurd failed sound, rfl, by decide⟩
  · simp only [not_or, Bool.not_eq_true] at held sound opened
    have live : Live s := ⟨sound, held.1, opened⟩
    refine (ends_deadline inv live).mono ?_ fun _ _ => id
    rintro (_ | result) t after
    · exact ⟨after, live⟩
    · exact after

theorem ends_selectContext {letters : Letters} {view : GenerationView Context} {serverName : Text} :
    Ends (selectContext letters view serverName) s (fun _ t => t = s) (fun _ t => t = s) := by
  unfold selectContext
  rw [ends_bind, ends_get]
  split
  · rfl
  · split
    · rfl
    · rfl
    · refine .ite (fun _ => rfl) fun _ => ?_
      split <;> rfl

/-- A second context is refused, and the first one is installed or the channel fails. -/
theorem ends_handshakeSni {letters : Letters} {view : GenerationView Context} {result : TlsResult}
    (inv : ChannelInv config s) (live : Live s) :
    Ends (handshakeSni provider letters view result) s (fun _ t => Settles config s t)
      (fun _ t => Settles config s t) := by
  unfold handshakeSni
  rw [ends_bind, ends_get]
  refine .ite (fun _ => inv.settles_of_live live _) fun selected => ?_
  split
  · exact inv.settles_of_live live _
  · rename_i normalized _
    rw [ends_bind]
    refine ends_selectContext.mono ?_ fun _ _ same => by rw [same]; exact .refl inv
    rintro (_ | ⟨context, certificateId⟩) t rfl
    · exact inv.settles_of_live live _
    · have none : t.contextCalls = 0 := by
        rcases inv.contexts with none | ⟨_, installed | failed⟩
        · exact none
        · exact absurd installed selected
        · simp [live.sound] at failed
      have base : ChannelBase config (t.recorded (.setServerContext context)) :=
        inv.toChannelBase.recorded (inv.guarded_of_live live (.setServerContext context) nofun nofun) rfl
      have once : (t.recorded (.setServerContext context)).contextCalls = 1 := by
        rw [ChannelState.contextCalls, ChannelState.recorded, List.countP_append]
        exact congrArg (· + 1) none
      have kept {checked : TlsResult} : (t.recorded (.setServerContext context)).channel.failed = true →
          (t.recorded (.setServerContext context)).channel.released = true ∨ checked.status =
            TlsStatus.error :=
        fun failed => absurd failed (by simp [(live.recorded _).sound])
      have failing {checked : TlsResult} (error : checked.status = TlsStatus.error) :
          ChannelInv config ((t.recorded (.setServerContext context)).remembered checked) :=
        ⟨base.remembered kept,
          .inr ⟨once, .inr (by simp [ChannelState.remembered, TlsChannel.remembered, error])⟩⟩
      refine ends_consulted live.sound (fun _ error => ⟨failing error, rfl⟩) fun checked _ =>
        .ite (fun _ => ?_) fun done => ?_
      · refine ⟨⟨(base.remembered kept).remembered fun _ => .inr rfl, .inr ⟨once, .inr ?_⟩⟩, rfl⟩
        simp [ChannelState.remembered, TlsChannel.remembered, tlsError]
      · have fine : checked.status ≠ TlsStatus.error := by
          rw [not_not.mp done]
          decide
        have sound := ((live.recorded (.setServerContext context)).remembered fine).sound
        have base := base.remembered (@kept checked)
        have chosen : ChannelBase config { (t.recorded (.setServerContext context)).remembered checked with
            channel := { ((t.recorded (.setServerContext context)).remembered checked).channel with
              sniSelected := true, serverName := normalized, certificateId := certificateId } } :=
          ⟨base.guarded, base.alpn, base.owned, base.session, base.freed, base.ended, base.broken⟩
        exact ⟨⟨chosen.remembered fun failed => absurd failed (by simp [sound]),
          .inr ⟨once, .inl rfl⟩⟩, rfl⟩

theorem ends_handshakeDone {result : TlsResult} (inv : ChannelInv config s) (live : Live s) :
    Ends (handshakeDone provider result) s (fun _ t => Settles config s t)
      (fun _ t => Settles config s t) := by
  have asked : ChannelInv config (s.recorded .selectedAlpn) := inv.recorded ⟨nofun, nofun, nofun⟩ rfl rfl
  have liveAsked := live.recorded (.selectedAlpn : ProviderCall Context)
  have completed {name : Text} (admitted : name = [] ∨ name ∈ config.alpn) :
      Settles config s { s.recorded .selectedAlpn with
        channel := { s.channel with alpn := name, handshakeComplete := true } } :=
    ⟨⟨⟨asked.guarded, fun _ => admitted, asked.owned, asked.session, asked.freed, asked.ended,
      asked.broken⟩, asked.contexts⟩, rfl⟩
  unfold handshakeDone
  rw [ends_bind, ends_record, ends_bind, ends_get]
  split
  · exact asked.settles_of_live liveAsked _
  · exact asked.settles_of_live liveAsked _
  · rename_i name _
    refine .ite (fun empty => completed (.inl empty)) fun _ => ?_
    rw [ends_bind, ends_get]
    split
    · exact ⟨asked, rfl⟩
    · rename_i own known
      have same : own = config := by
        have owned := asked.owned
        rw [liveAsked.held, known] at owned
        exact Option.some.inj owned
      refine .ite (fun _ => asked.settles_of_live liveAsked _) fun listed => completed (.inr ?_)
      exact same ▸ not_not.mp listed

theorem ends_handshake {letters : Letters} {view : GenerationView Context} (inv : ChannelInv config s) :
    Ends (handshake provider letters view nowMs deadlineMs) s (fun _ t => Settles config s t)
      (fun _ t => Settles config s t) := by
  unfold handshake
  rw [ends_bind]
  refine (ends_preflight inv).mono ?_ fun _ _ => False.elim
  rintro (_ | early) t after
  · obtain ⟨rfl, live⟩ := after
    dsimp only
    rw [ends_bind, ends_get]
    refine .ite (fun _ => inv.settles_of_live live _) fun _ => ?_
    have asked := inv.recorded (inv.guarded_of_live live .handshake nofun nofun) rfl rfl
    have live := live.recorded (.handshake : ProviderCall Context)
    refine ends_consulted live.sound (fun result _ => ⟨(asked.settles_of_live live result).1, rfl⟩) ?_
    intro result _
    have checked := (asked.settles_of_live live result).1
    refine .ite (fun select => ?_) fun _ => .ite (fun done => ?_) fun _ => .ite (fun _ => ?_) fun _ => ?_
    · have fine : result.status ≠ TlsStatus.error := by rw [select]; decide
      exact ends_handshakeSni checked (live.remembered fine)
    · have fine : result.status ≠ TlsStatus.error := by rw [done]; decide
      exact ends_handshakeDone checked (live.remembered fine)
    · exact ⟨⟨⟨checked.guarded, checked.alpn, checked.owned,
        checked.session, checked.freed, checked.ended, checked.broken⟩, checked.contexts⟩, rfl⟩
    · exact ⟨checked, rfl⟩
  · exact after.1

/-- What a transfer leaves: also, the count of one that went through is within its limit. -/
theorem ends_read {size : Nat} {limit : Int} (inv : ChannelInv config s) :
    Ends (read provider size limit nowMs deadlineMs) s
      (fun result t => Settles config s t ∧
        (result.status = TlsStatus.ok → 0 < result.count ∧ result.count ≤ limit))
      (fun _ _ => False) := by
  unfold read
  rw [ends_bind]
  refine (ends_preflight inv).mono ?_ fun _ _ => False.elim
  rintro (_ | early) t after
  · obtain ⟨rfl, live⟩ := after
    dsimp only
    rw [ends_bind, ends_get]
    refine .ite (fun _ => ⟨inv.settles_of_live live _, nofun⟩) fun complete =>
      .ite (fun _ => ⟨inv.settles_of_live live _, nofun⟩) fun _ => ?_
    have ready : t.channel.handshakeComplete = true := by simpa using complete
    have asked := inv.recorded (inv.guarded_of_live live (.read limit) (fun _ _ => ready) nofun) rfl rfl
    have live := live.recorded (.read limit : ProviderCall Context)
    refine ends_consulted live.sound (fun result error =>
      ⟨⟨(asked.settles_of_live live result).1, rfl⟩, fun done => ?_⟩) ?_
    · rw [error] at done
      exact absurd done (by decide)
    · intro result valid
      have checked := (asked.settles_of_live live result).1
      have counted : result.status = TlsStatus.ok → 0 < result.count ∧ result.count ≤ limit := fun done =>
        (valid (by rw [done]; decide)).2 (by decide) done
      refine .ite (fun _ => ⟨⟨⟨⟨checked.guarded, checked.alpn,
        checked.owned, checked.session, checked.freed, checked.ended, checked.broken⟩,
          checked.contexts⟩, rfl⟩, counted⟩) fun _ =>
        ⟨⟨checked, rfl⟩, counted⟩
  · exact ⟨after.1, fun done => absurd done after.2.2⟩

theorem ends_write {size : Nat} {length : Int} (inv : ChannelInv config s) :
    Ends (write provider size length nowMs deadlineMs) s
      (fun result t => Settles config s t ∧
        (result.status = TlsStatus.ok → 0 < result.count ∧ result.count ≤ length))
      (fun _ _ => False) := by
  unfold write
  rw [ends_bind]
  refine (ends_preflight inv).mono ?_ fun _ _ => False.elim
  rintro (_ | early) t after
  · obtain ⟨rfl, live⟩ := after
    dsimp only
    rw [ends_bind, ends_get]
    refine .ite (fun _ => ⟨inv.settles_of_live live _, nofun⟩) fun complete =>
      .ite (fun _ => ⟨inv.settles_of_live live _, nofun⟩) fun opened =>
      .ite (fun _ => ⟨inv.settles_of_live live _, nofun⟩) fun _ => ?_
    have ready : t.channel.handshakeComplete = true ∧ t.channel.closeNotifyStarted = false :=
      ⟨by simpa using complete, by simpa using opened⟩
    have asked := inv.recorded (inv.guarded_of_live live (.write length) nofun fun _ _ => ready) rfl rfl
    have liveAsked := live.recorded (.write length : ProviderCall Context)
    have settled (result : TlsResult) := (asked.settles_of_live liveAsked result).1
    refine ends_called live.sound (fun result error => ⟨⟨settled result, rfl⟩, fun done => ?_⟩) ?_
    · rw [error] at done
      exact absurd done (by decide)
    · intro result
      refine (ends_validateResult "write" result length).mono ?_ fun _ _ => False.elim
      rintro final _ ⟨rfl, valid⟩
      refine ⟨⟨settled final, rfl⟩, fun done => ?_⟩
      exact (valid (by rw [done]; decide)).2 (by decide) done
  · exact ⟨after.1, fun done => absurd done after.2.2⟩

theorem ends_closeNotify (inv : ChannelInv config s) :
    Ends (closeNotify provider nowMs deadlineMs) s (fun _ t => Settles config s t) (fun _ _ => False) := by
  unfold closeNotify
  rw [ends_bind]
  refine (ends_preflight inv).mono ?_ fun _ _ => False.elim
  rintro (_ | early) t after
  · obtain ⟨rfl, live⟩ := after
    dsimp only
    rw [ends_bind, ends_get]
    refine .ite (fun _ => inv.settles_of_live live _) fun _ =>
      .ite (fun _ => inv.settles_of_live live _) fun _ => ?_
    rw [ends_bind, ends_assign]
    have started : ChannelInv config { t with channel := { t.channel with closeNotifyStarted := true } } :=
      ⟨⟨inv.guarded, inv.alpn, inv.owned, inv.session, inv.freed, inv.ended, inv.broken⟩,
        inv.contexts⟩
    have liveStarted : Live { t with channel := { t.channel with closeNotifyStarted := true } } :=
      ⟨live.sound, live.held, live.opened⟩
    have asked := started.recorded (started.guarded_of_live liveStarted .closeNotify nofun nofun) rfl rfl
    have liveAsked := liveStarted.recorded (.closeNotify : ProviderCall Context)
    refine ends_consulted liveStarted.sound (fun result _ =>
      ⟨(asked.settles_of_live liveAsked result).1, rfl⟩) ?_
    intro result _
    have checked := (asked.settles_of_live liveAsked result).1
    refine .ite (fun done => ?_) fun _ => .ite (fun _ => ?_) fun _ => ?_
    · have fine : result.status ≠ TlsStatus.error := by rw [done]; decide
      exact ⟨(checked.settles_of_live (liveAsked.remembered fine) _).1, rfl⟩
    · exact ⟨⟨⟨checked.guarded, checked.alpn, checked.owned,
        checked.session, checked.freed, fun _ => rfl, checked.broken⟩, checked.contexts⟩, rfl⟩
    · exact ⟨checked, rfl⟩
  · exact after.1

theorem ends_cancel (inv : ChannelInv config s) :
    Ends cancel s (fun _ t => Settles config s t) (fun _ _ => False) := by
  unfold cancel
  rw [ends_bind, ends_get]
  refine .ite (fun gone => ?_) fun _ => ?_
  · exact inv.settles_remembered fun _ => .inl gone
  · exact inv.settles_remembered fun _ => .inr rfl

/-- The first `close` frees the session, whatever happened before, and a later one does nothing. -/
theorem ends_close {view : GenerationView Context} (inv : ChannelInv config s) :
    Ends (close provider view) s
      (fun _ t => ChannelInv config t ∧ t.channel.released = true ∧
        t.calls.map (·.call) = s.calls.map (·.call) ++ if s.channel.released then [] else [.freeConnection])
      (fun _ _ => False) := by
  unfold close
  rw [ends_bind, ends_get]
  refine .ite (fun gone => ?_) fun held => ?_
  · exact ⟨inv, gone, by simp [gone]⟩
  · rw [Bool.not_eq_true] at held
    have present : s.channel.session.isSome = true := by
      rw [← Option.not_isNone, inv.session, held]
      rfl
    obtain ⟨session, known⟩ := Option.isSome_iff_exists.mp present
    have unfreed : s.freeCalls = 0 := by rw [inv.freed, held]; rfl
    simp only [known, ends_bind, ends_assign, ends_record, ends_get, ends_pure]
    let left : ChannelState Session Context :=
      { s with
        channel := { s.channel with released := true, closed := true, session := none, generation := none } }
    have base : ChannelBase config (left.recorded .freeConnection) := by
      refine ⟨?_, inv.alpn, rfl, rfl, ?_, fun _ => rfl, (by rintro _ ⟨⟩)⟩
      · intro record member
        rcases List.mem_append.mp member with old | new
        · exact inv.guarded record old
        · rw [List.mem_singleton.mp new]
          exact ⟨(by rintro ⟨⟩), (by simp), (by simp)⟩
      · rw [ChannelState.freeCalls, ChannelState.recorded, List.countP_append]
        exact congrArg (· + 1) unfreed
    have closed : ChannelInv config (left.recorded .freeConnection) := by
      refine ⟨base, ?_⟩
      have same : (left.recorded .freeConnection).contextCalls = s.contextCalls := by
        rw [ChannelState.contextCalls, ChannelState.recorded, List.countP_append]
        rfl
      rw [same]
      exact inv.contexts
    have settles (result : TlsResult) :
        ChannelInv config ((left.recorded .freeConnection).remembered result) ∧
        ((left.recorded .freeConnection).remembered result).channel.released = true ∧
        ((left.recorded .freeConnection).remembered result).calls.map (·.call) =
          s.calls.map (·.call) ++ if s.channel.released then [] else [.freeConnection] := by
      refine ⟨closed.remembered fun _ => .inl rfl, rfl, ?_⟩
      simp [ChannelState.remembered, ChannelState.recorded, left, held]
    split
    · exact settles _
    · exact settles _

end TlsChannel

end PccGateway
