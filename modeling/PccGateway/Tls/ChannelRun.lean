import PccGateway.Tls.ChannelCalls

namespace PccGateway
open Method

variable {Session Context : Type} {config : TlsConfig}

/-- What `a` set is still set in `b`. -/
structure TlsChannel.Later (a b : TlsChannel Session) : Prop where
  handshakeComplete : a.handshakeComplete = true → b.handshakeComplete = true
  closeNotifyStarted : a.closeNotifyStarted = true → b.closeNotifyStarted = true
  closeNotifyComplete : a.closeNotifyComplete = true → b.closeNotifyComplete = true
  failed : a.failed = true → b.failed = true
  released : a.released = true → b.released = true

theorem TlsChannel.Later.refl (a : TlsChannel Session) : a.Later a := ⟨id, id, id, id, id⟩

theorem TlsChannel.Later.trans {a b c : TlsChannel Session} (first : a.Later b) (second : b.Later c) :
    a.Later c :=
  ⟨second.handshakeComplete ∘ first.handshakeComplete, second.closeNotifyStarted ∘ first.closeNotifyStarted,
    second.closeNotifyComplete ∘ first.closeNotifyComplete, second.failed ∘ first.failed,
    second.released ∘ first.released⟩

/-- From `s` to `t` more calls are made, each by a channel between the two, and in their order. -/
def Extends (s t : ChannelState Session Context) : Prop :=
  s.channel.Later t.channel ∧ ∃ made, t.calls = s.calls ++ made ∧
    (∀ record ∈ made, s.channel.Later record.channel ∧ record.channel.Later t.channel) ∧
    made.Pairwise fun earlier later => earlier.channel.Later later.channel

instance : IsPreorder (ChannelState Session Context) Extends where
  refl s := ⟨.refl _, [], by simp, by simp, .nil⟩
  trans := by
    rintro s t u ⟨first, made, calls, between, ordered⟩ ⟨second, more, later, after, sorted⟩
    refine ⟨first.trans second, made ++ more, by rw [later, calls, List.append_assoc], ?_, ?_⟩
    · intro record member
      rcases List.mem_append.mp member with member | member
      · exact ⟨(between record member).1, (between record member).2.trans second⟩
      · exact ⟨first.trans (after record member).1, (after record member).2⟩
    · refine List.pairwise_append.mpr ⟨ordered, sorted, fun early member late behind => ?_⟩
      exact (between early member).2.trans (after late behind).1

namespace TlsChannel
variable {provider : TlsProvider Session Context} {letters : Letters} {view : GenerationView Context}

theorem assign_extends {change : TlsChannel Session → TlsChannel Session}
    (later : ∀ channel, TlsChannel.Later channel (change channel)) :
    Evolves Extends (assign change : ChannelM Session Context Unit) :=
  .modify fun s => ⟨later s.channel, [], by simp, by simp, .nil⟩

theorem remember_extends (result : TlsResult) :
    Evolves Extends (remember result : ChannelM Session Context TlsResult) :=
  .bind (assign_extends fun channel => ⟨id, id, id, fun failed => by simp [remembered, failed], id⟩)
    fun _ => .pure _

theorem record_extends (call : ProviderCall Context) :
    Evolves Extends (record call : ChannelM Session Context Unit) :=
  .modify fun s => ⟨.refl _, [⟨call, s.channel⟩], rfl, by simp [Later.refl], List.pairwise_singleton _ _⟩

theorem contractFailure_extends (detail : String) :
    Evolves Extends (contractFailure detail : ChannelM Session Context TlsResult) := remember_extends _

theorem callResult_extends (methodName : String) (call : ProviderCall Context) :
    Evolves Extends (callResult provider methodName call) := by
  refine .bind (record_extends call) fun _ => .bind .get fun s => ?_
  split
  · exact remember_extends _
  · exact contractFailure_extends _
  · exact .pure _

theorem validateResult_extends (operation : String) (result : TlsResult) (limit : Int) :
    Evolves Extends (validateResult operation result limit : ChannelM Session Context TlsResult) := by
  have refused (detail : String) :
      Evolves Extends (contractFailure detail : ChannelM Session Context TlsResult) :=
    contractFailure_extends detail
  have accepted : Evolves Extends (remember result : ChannelM Session Context TlsResult) :=
    remember_extends result
  unfold validateResult
  refine .ite (refused _)
    (.ite (refused _) (.ite (refused _) (.ite (refused _) (.ite ?_ (.ite (refused _) (.ite ?_ ?_))))))
  · exact .ite (refused _) (.ite (refused _) accepted)
  · exact .ite (refused _) accepted
  · exact .ite (refused _) accepted

theorem preflight_extends (nowMs deadlineMs : Int) :
    Evolves Extends (preflight nowMs deadlineMs : ChannelM Session Context (Option TlsResult)) := by
  have some_ (result : TlsResult) :
      Evolves Extends (some <$> remember result : ChannelM Session Context (Option TlsResult)) :=
    .bind (remember_extends result) fun _ => .pure _
  exact .bind .get fun s =>
    .ite (some_ _) (.ite (.pure _) (.ite (some_ _) (.ite (some_ _) (.ite (some_ _) (.pure _)))))

theorem brokeOff_extends (result : TlsResult) :
    Evolves Extends (brokeOff result : ChannelM Session Context Bool) :=
  .bind .get fun _ => .pure _

theorem selectContext_extends (serverName : Text) :
    Evolves Extends (selectContext letters view serverName : ChannelM Session Context
      (Option (Context × Text))) := by
  refine .bind .get fun s => ?_
  split
  · exact .raise _
  · split
    · exact .raise _
    · exact .pure _
    · refine .ite (.raise _) ?_
      split
      · exact .raise _
      · exact .pure _

/-- A call on the provider, the checks of what it gives, and what follows. -/
theorem consulted_extends {methodName operation : String} {call : ProviderCall Context} {limit : Int}
    {next : TlsResult → ChannelM Session Context TlsResult}
    (later : ∀ result, Evolves Extends (next result)) :
    Evolves Extends (do
      let result ← callResult provider methodName call
      if ← brokeOff result then return result
      else
        let result ← validateResult operation result limit
        next result) :=
  .bind (callResult_extends _ _) fun _ => .bind (brokeOff_extends _) fun _ =>
    .ite (.pure _) (.bind (validateResult_extends _ _ _) later)

theorem handshakeSni_extends (result : TlsResult) :
    Evolves Extends (handshakeSni provider letters view result) := by
  refine .bind .get fun s => .ite (contractFailure_extends _) ?_
  split
  · exact remember_extends _
  · refine .bind (selectContext_extends _) fun selected => ?_
    split
    · exact remember_extends _
    · refine consulted_extends fun result =>
        .ite (contractFailure_extends _) (.bind (assign_extends fun _ => ?_) fun _ => ?_)
      · exact ⟨id, id, id, id, id⟩
      · exact remember_extends _

theorem handshakeDone_extends (result : TlsResult) : Evolves Extends (handshakeDone provider result) := by
  have completed (name : Text) : Evolves Extends (assign fun channel =>
      { channel with alpn := name, handshakeComplete := true } : ChannelM Session Context Unit) :=
    assign_extends fun _ => ⟨fun _ => rfl, id, id, id, id⟩
  refine .bind (record_extends _) fun _ => .bind .get fun s => ?_
  split
  · exact remember_extends _
  · exact contractFailure_extends _
  · refine .ite (.bind (completed _) fun _ => .pure _) (.bind .get fun s => ?_)
    split
    · exact .raise _
    · exact .ite (remember_extends _) (.bind (completed _) fun _ => .pure _)

theorem peerClosed_extends (result : TlsResult) :
    Evolves Extends (do
      assign fun channel => { channel with peerClosed := true }
      return result : ChannelM Session Context TlsResult) :=
  .bind (assign_extends fun _ => ⟨id, id, id, id, id⟩) fun _ => .pure _

theorem handshake_extends (nowMs deadlineMs : Int) :
    Evolves Extends (handshake provider letters view nowMs deadlineMs) := by
  refine .bind (preflight_extends _ _) fun early => ?_
  split
  · exact .pure _
  · refine .bind .get fun s => .ite (remember_extends _) (consulted_extends fun result => ?_)
    exact .ite (handshakeSni_extends _)
      (.ite (handshakeDone_extends _) (.ite (peerClosed_extends _) (.pure _)))

theorem read_extends (size : Nat) (limit nowMs deadlineMs : Int) :
    Evolves Extends (read provider size limit nowMs deadlineMs) := by
  refine .bind (preflight_extends _ _) fun early => ?_
  split
  · exact .pure _
  · refine .bind .get fun s =>
      .ite (remember_extends _) (.ite (remember_extends _) (consulted_extends fun result => ?_))
    exact .ite (peerClosed_extends _) (.pure _)

theorem write_extends (size : Nat) (length nowMs deadlineMs : Int) :
    Evolves Extends (write provider size length nowMs deadlineMs) := by
  refine .bind (preflight_extends _ _) fun early => ?_
  split
  · exact .pure _
  · refine .bind .get fun s =>
      .ite (remember_extends _) (.ite (remember_extends _) (.ite (remember_extends _) ?_))
    exact .bind (callResult_extends _ _) fun _ => .bind (brokeOff_extends _) fun _ =>
      .ite (.pure _) (validateResult_extends _ _ _)

theorem closeNotify_extends (nowMs deadlineMs : Int) :
    Evolves Extends (closeNotify provider nowMs deadlineMs) := by
  refine .bind (preflight_extends _ _) fun early => ?_
  split
  · exact .pure _
  · refine .bind .get fun s => .ite (remember_extends _) (.ite (remember_extends _) (.bind ?_ fun _ => ?_))
    · exact assign_extends fun _ => ⟨id, fun _ => rfl, id, id, id⟩
    · refine consulted_extends fun result => .ite (contractFailure_extends _) (.ite (.bind ?_ fun _ =>
        .pure _) (.pure _))
      exact assign_extends fun _ => ⟨id, id, fun _ => rfl, id, id⟩

theorem cancel_extends : Evolves Extends (cancel : ChannelM Session Context TlsResult) :=
  .bind .get fun _ => .ite (remember_extends _) (remember_extends _)

theorem close_extends : Evolves Extends (close provider view) := by
  refine .bind .get fun s =>
    .ite (.pure _) (.bind (assign_extends fun _ => ⟨id, id, id, id, fun _ => rfl⟩) fun _ => ?_)
  dsimp only
  split
  · refine .bind (.pure _) fun _ => ?_
    split <;> exact remember_extends _
  · refine .bind (record_extends _) fun _ => .bind .get fun _ => .bind (.pure _) fun _ => ?_
    split <;> exact remember_extends _

end TlsChannel

/-- A call on a channel. The size is that of the buffer, the view what the call finds in its generation. -/
inductive ChannelCall (Context : Type) where
  | handshake (view : GenerationView Context) (nowMs deadlineMs : Int)
  | read (size : Nat) (limit nowMs deadlineMs : Int)
  | write (size : Nat) (length nowMs deadlineMs : Int)
  | closeNotify (nowMs deadlineMs : Int)
  | cancel
  | close (view : GenerationView Context)

namespace ChannelCall
variable (provider : TlsProvider Session Context) (letters : Letters)

def perform : ChannelCall Context → ChannelM Session Context TlsResult
  | .handshake view nowMs deadlineMs => TlsChannel.handshake provider letters view nowMs deadlineMs
  | .read size limit nowMs deadlineMs => TlsChannel.read provider size limit nowMs deadlineMs
  | .write size length nowMs deadlineMs => TlsChannel.write provider size length nowMs deadlineMs
  | .closeNotify nowMs deadlineMs => TlsChannel.closeNotify provider nowMs deadlineMs
  | .cancel => TlsChannel.cancel
  | .close view => TlsChannel.close provider view

def isClose : ChannelCall Context → Bool
  | .close _ => true
  | _ => false

/-- The bytes that a transfer may move. -/
def limit? : ChannelCall Context → Option Int
  | .read _ limit _ _ => some limit
  | .write _ length _ _ => some length
  | _ => none

/-- The state behind the calls, also those that raised. -/
def run (calls : List (ChannelCall Context)) (s : ChannelState Session Context) :
    ChannelState Session Context :=
  calls.foldl (fun s call => (call.perform provider letters s).1) s

variable {provider letters} {s : ChannelState Session Context}

theorem perform_extends (call : ChannelCall Context) : Evolves Extends (call.perform provider letters) := by
  cases call with
  | handshake view nowMs deadlineMs => exact TlsChannel.handshake_extends nowMs deadlineMs
  | read size limit nowMs deadlineMs => exact TlsChannel.read_extends size limit nowMs deadlineMs
  | write size length nowMs deadlineMs => exact TlsChannel.write_extends size length nowMs deadlineMs
  | closeNotify nowMs deadlineMs => exact TlsChannel.closeNotify_extends nowMs deadlineMs
  | cancel => exact TlsChannel.cancel_extends
  | close view => exact TlsChannel.close_extends

theorem ends_perform (call : ChannelCall Context) (inv : ChannelInv config s) :
    Ends (call.perform provider letters) s
      (fun result t => ChannelInv config t ∧ t.channel.released = (s.channel.released || call.isClose) ∧
        ∀ limit ∈ call.limit?, result.status = TlsStatus.ok → 0 < result.count ∧ result.count ≤ limit)
      (fun _ t => ChannelInv config t ∧ t.channel.released = (s.channel.released || call.isClose)) := by
  have plain : (s.channel.released || false) = s.channel.released := Bool.or_false _
  cases call with
  | handshake view nowMs deadlineMs =>
    exact (TlsChannel.ends_handshake inv).mono (fun _ _ settled =>
      ⟨settled.1, settled.2.trans plain.symm, by simp [limit?]⟩)
      fun _ _ settled => ⟨settled.1, settled.2.trans plain.symm⟩
  | read size limit nowMs deadlineMs =>
    refine (TlsChannel.ends_read inv).mono (fun _ _ after => ?_) fun _ _ => False.elim
    exact ⟨after.1.1, after.1.2.trans plain.symm, by simpa [limit?] using after.2⟩
  | write size length nowMs deadlineMs =>
    refine (TlsChannel.ends_write inv).mono (fun _ _ after => ?_) fun _ _ => False.elim
    exact ⟨after.1.1, after.1.2.trans plain.symm, by simpa [limit?] using after.2⟩
  | closeNotify nowMs deadlineMs =>
    exact (TlsChannel.ends_closeNotify inv).mono (fun _ _ settled =>
      ⟨settled.1, settled.2.trans plain.symm, by simp [limit?]⟩)
      fun _ _ => False.elim
  | cancel =>
    exact (TlsChannel.ends_cancel inv).mono (fun _ _ settled =>
      ⟨settled.1, settled.2.trans plain.symm, by simp [limit?]⟩)
      fun _ _ => False.elim
  | close view =>
    refine (TlsChannel.ends_close inv).mono (fun _ _ after => ?_) fun _ _ => False.elim
    exact ⟨after.1, after.2.1.trans (Bool.or_true _).symm, by simp [limit?]⟩

theorem perform_settles (call : ChannelCall Context) (inv : ChannelInv config s) :
    ChannelInv config (call.perform provider letters s).1 ∧
      (call.perform provider letters s).1.channel.released = (s.channel.released || call.isClose) := by
  have ends : Ends (call.perform provider letters) s _ _ := ends_perform call inv
  unfold Ends at ends
  split at ends <;> rename_i run <;> rw [run]
  · exact ⟨ends.1, ends.2.1⟩
  · exact ends

theorem run_settles (calls : List (ChannelCall Context)) (inv : ChannelInv config s) :
    ChannelInv config (run provider letters calls s) ∧
      (run provider letters calls s).channel.released = (s.channel.released || calls.any isClose) := by
  induction calls generalizing s with
  | nil => exact ⟨inv, (Bool.or_false _).symm⟩
  | cons call calls ih =>
    obtain ⟨kept, released⟩ : ChannelInv config (call.perform provider letters s).1 ∧
        _ := perform_settles call inv
    obtain ⟨settled, later⟩ := ih kept
    refine ⟨settled, later.trans ?_⟩
    rw [released, List.any_cons, Bool.or_assoc]

theorem run_extends (calls : List (ChannelCall Context)) (s : ChannelState Session Context) :
    Extends s (run provider letters calls s) := by
  induction calls generalizing s with
  | nil => exact refl_of Extends s
  | cons call calls ih => exact trans_of Extends (perform_extends call s) (ih _)

end ChannelCall

/-- A channel that was just made. -/
def ChannelState.start (config : TlsConfig) (session : Session) : ChannelState Session Context :=
  ⟨.init config session, []⟩

theorem ChannelInv.start (config : TlsConfig) (session : Session) :
    ChannelInv config (ChannelState.start config session : ChannelState Session Context) :=
  ⟨⟨by simp [ChannelState.start], nofun, rfl, rfl, rfl, nofun, nofun⟩, .inl rfl⟩

/-- The contract of a channel, for every provider and every sequence of calls. Every provider call
was made in a state that allows it; what is set stays set, from call to call and inside of them; a
channel that failed, completed close-notify or was closed makes no working call more; the protocol
is one of those configured; one context is installed; the first `close` frees the session and
nothing else does; and the count of a transfer is within its limit. Nothing is assumed about the
provider: it may answer any status and any count, and raise anywhere. The calls are any sequence,
also of a channel that is closed already. -/
theorem tls_channel_contract (provider : TlsProvider Session Context) (letters : Letters)
    (config : TlsConfig) (session : Session) (calls : List (ChannelCall Context)) :
    let s := ChannelCall.run provider letters calls (.start config session)
    (∀ record ∈ s.calls, record.Guarded ∧ record.channel.Later s.channel) ∧
    (s.calls.Pairwise fun earlier later => earlier.channel.Later later.channel) ∧
    (s.channel.handshakeComplete = true → s.channel.alpn = [] ∨ s.channel.alpn ∈ config.alpn) ∧
    s.contextCalls ≤ 1 ∧
    s.freeCalls = (if calls.any ChannelCall.isClose then 1 else 0) ∧
    ∀ call : ChannelCall Context, let t := (call.perform provider letters s).1
      s.channel.Later t.channel ∧
      (s.channel.failed = true ∨ s.channel.closeNotifyComplete = true ∨ s.channel.released = true →
        ∀ record ∈ t.calls.drop s.calls.length, record.call.works = false) ∧
      (call.isClose = true → calls.any ChannelCall.isClose = false →
        t.calls.map (·.call) = s.calls.map (·.call) ++ [.freeConnection]) ∧
      ∀ limit ∈ call.limit?, ∀ result, (call.perform provider letters s).2 = .ok result →
        result.status = TlsStatus.ok → 0 < result.count ∧ result.count ≤ limit := by
  intro s
  obtain ⟨inv, released⟩ : ChannelInv config s ∧ s.channel.released = calls.any ChannelCall.isClose :=
    ChannelCall.run_settles calls (.start config session)
  have grown : Extends (.start config session) s := ChannelCall.run_extends calls _
  obtain ⟨_, made, all, between, ordered⟩ := grown
  have all : s.calls = made := all
  refine ⟨?_, all ▸ ordered, inv.alpn, ?_, ?_, ?_⟩
  · intro record member
    exact ⟨inv.guarded record member, (between record (all ▸ member)).2⟩
  · rcases inv.contexts with none | once <;> omega
  · rw [inv.freed, released]
  · intro call t
    have ends : Ends (call.perform provider letters) s _ _ := ChannelCall.ends_perform call inv
    obtain ⟨kept, _⟩ : ChannelInv config (call.perform provider letters s).1 ∧
        _ := ChannelCall.perform_settles call inv
    obtain ⟨later, more, appended, within, _⟩ : Extends s (call.perform provider letters s).1 :=
      ChannelCall.perform_extends call s
    refine ⟨later, ?_, ?_, ?_⟩
    · intro ended record member
      have appended : t.calls = s.calls ++ more := appended
      rw [appended, List.drop_left] at member
      have guarded := kept.guarded record (by rw [appended]; exact List.mem_append_right _ member)
      obtain ⟨carried, _⟩ := within record member
      by_contra works
      obtain ⟨sound, incomplete, held⟩ := guarded.working (by simpa using works)
      rcases ended with failed | complete | gone
      · simp [carried.failed failed] at sound
      · simp [carried.closeNotifyComplete complete] at incomplete
      · simp [carried.released gone] at held
    · intro closing first
      cases call with
      | close view =>
        have ends : Ends (TlsChannel.close provider view) s _ _ := TlsChannel.ends_close inv
        unfold Ends at ends
        split at ends
        · rename_i run
          have same : t = _ := congrArg Prod.fst run
          rw [released, first] at ends
          rw [same]
          exact ends.2.2
        · exact ends.elim
      | handshake => cases closing
      | read => cases closing
      | write => cases closing
      | closeNotify => cases closing
      | cancel => cases closing
    · intro limit bound result returns done
      exact (ends.returned (Prod.ext rfl returns)).2.2 limit bound done

end PccGateway
