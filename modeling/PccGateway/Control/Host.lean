import PccGateway.Control.Owner

namespace PccGateway
namespace Control

structure Dispositions where
  sighup : String
  sigint : String
  sigpipe : String
  sigterm : String
  deriving DecidableEq

/-- The dispositions while the gateway has the signals. -/
def Dispositions.gateway : Dispositions :=
  ⟨dispositionReload, dispositionDrain, dispositionIgnore, dispositionDrain⟩

structure GatewayControlHostModel where
  dispositions : Dispositions
  savedDispositions : Option Dispositions := none
  owner : Int := 0
  nextOwner : Int := 1
  pendingFlags : Nat := 0

namespace GatewayControlHostModel

-- a dictionary of previous dispositions, as what its `get` returns
def create (previous : Int → Option String) : GatewayControlHostModel where
  dispositions :=
    ⟨(previous sighup).getD dispositionDefault, (previous sigint).getD dispositionDefault,
      (previous sigpipe).getD dispositionDefault, (previous sigterm).getD dispositionDefault⟩

variable (host : GatewayControlHostModel)

def install : Int × GatewayControlHostModel :=
  if host.owner ≠ 0 then (errorBusy, host)
  else
    (host.nextOwner,
      { nextOwner := host.nextOwner + 1
        savedDispositions := some host.dispositions
        dispositions :=
          { sigterm := dispositionDrain, sigint := dispositionDrain, sighup :=
            dispositionReload, sigpipe := dispositionIgnore }
        pendingFlags := 0
        owner := host.nextOwner })

def poll (owner : Int) : Int × GatewayControlHostModel :=
  if owner ≤ 0 ∨ owner ≠ host.owner then (errorNotOwner, host)
  else (host.pendingFlags, { host with pendingFlags := 0 })

def uninstall (owner : Int) : Int × GatewayControlHostModel :=
  if owner ≤ 0 ∨ owner ≠ host.owner then (errorNotOwner, host)
  else
    match host.savedDispositions with
    | none => (errorContract, host)
    | some saved =>
      (0, { host with dispositions := saved, savedDispositions := none, pendingFlags := 0, owner := 0 })

def deliver (signal : Int) : Bool × GatewayControlHostModel :=
  if host.owner = 0 then (false, host)
  else if signal = sigterm ∨ signal = sigint then
    (true, { host with pendingFlags := host.pendingFlags ||| stop })
  else if signal = sighup then (true, { host with pendingFlags := host.pendingFlags ||| reload })
  else if signal = sigpipe then (true, host)
  else (false, host)

def attributes : AbiAttributes where
  abiVersion := some abiVersion
  abiName := some abiName
  productionReady := some false
  linkBoundary := some "python-host-model:test-only;no-real-signal-install"
  callable := ["install", "poll", "uninstall", "deliver", "disposition"]

def abi : Abi GatewayControlHostModel where
  install host := (.number host.install.1, host.install.2)
  poll owner host := (.number (host.poll owner).1, (host.poll owner).2)
  uninstall owner host := (.number (host.uninstall owner).1, (host.uninstall owner).2)

end GatewayControlHostModel

/-- One process: any number of controls that share one ABI object. -/
structure Process where
  host : GatewayControlHostModel
  controls : Nat → GatewayProcessControl := fun _ => {}

-- what the constructor of a control makes of the host
example : GatewayProcessControl.create GatewayControlHostModel.attributes = .ok {} := rfl

inductive Event where
  | install (index : Nat)
  | poll (index : Nat)
  | uninstall (index : Nat)
  | deliver (signal : Int)

inductive Outcome where
  | done (result : Except GatewayControlError Unit)
  | polled (result : Except GatewayControlError GatewayControlPoll)
  | delivered (handled : Bool)

def Process.perform (process : Process) : Event → Outcome × Process
  | .install index =>
    let (result, control, host) := (process.controls index).install GatewayControlHostModel.abi process.host
    (.done result, ⟨host, Function.update process.controls index control⟩)
  | .poll index =>
    let (result, host) := (process.controls index).poll GatewayControlHostModel.abi process.host
    (.polled result, { process with host })
  | .uninstall index =>
    let (result, control, host) :=
      (process.controls index).uninstall GatewayControlHostModel.abi process.host
    (.done result, ⟨host, Function.update process.controls index control⟩)
  | .deliver signal =>
    let (handled, host) := process.host.deliver signal
    (.delivered handled, { process with host })

/-- What the events come to, one after another, and the state behind them. -/
def outcomes {σ : Type} (perform : σ → Event → Outcome × σ) : List Event → σ → List Outcome × σ
  | [], state => ([], state)
  | event :: events, state =>
    let (outcome, state) := perform state event
    let (rest, state) := outcomes perform events state
    (outcome :: rest, state)

/-- The flags that stand for the signals, however many of them there were. -/
def flagsOf (signals : List Int) : Nat :=
  (if sigterm ∈ signals ∨ sigint ∈ signals then stop else 0) ||| (if sighup ∈ signals then reload else 0)

theorem flagsOf_known (signals : List Int) : flagsOf signals &&& knownFlags = flagsOf signals := by
  unfold flagsOf
  split_ifs <;> rfl

/-- What a holder is told of the signals. -/
def pollOf (signals : List Int) : GatewayControlPoll := ⟨flagsOf signals, flagsOf_known signals⟩

theorem flagsOf_nil : flagsOf [] = 0 := by simp [flagsOf]

/-- What process control is for: one holder at a time, and the signals that it has not been told of. -/
structure Notices where
  holder : Option Nat := none
  signals : List Int := []

def Notices.perform (notices : Notices) : Event → Outcome × Notices
  | .install index =>
    if notices.holder = some index then (.done (.error ⟨"install-state", errorContract⟩), notices)
    else if notices.holder.isSome then (.done (.error ⟨"install", errorBusy⟩), notices)
    else (.done (.ok ()), ⟨some index, []⟩)
  | .poll index =>
    if notices.holder = some index then
      (.polled (.ok (pollOf notices.signals)), { notices with signals := [] })
    else (.polled (.error ⟨"poll-state", errorNotOwner⟩), notices)
  | .uninstall index =>
    if notices.holder = some index then (.done (.ok ()), {})
    else (.done (.error ⟨"uninstall-state", errorNotOwner⟩), notices)
  | .deliver signal =>
    if notices.holder.isSome ∧ signal ∈ [sighup, sigint, sigpipe, sigterm] then
      (.delivered true, { notices with signals := notices.signals ++ [signal] })
    else (.delivered false, notices)

/-- Nobody has the signals and they have their `prior` dispositions, or the holder has them and its
control the number of the host. -/
structure Represents (prior : Dispositions) (process : Process) (notices : Notices) : Prop where
  next : 0 < process.host.nextOwner
  controls : ∀ index, process.controls index = if notices.holder = some index then
    ⟨process.host.owner, true⟩ else {}
  owner : if notices.holder.isSome then 0 < process.host.owner else process.host.owner = 0
  dispositions : process.host.dispositions = if notices.holder.isSome then .gateway else prior
  saved : notices.holder.isSome = true → process.host.savedDispositions = some prior
  pending : notices.holder.isSome = true → process.host.pendingFlags = flagsOf notices.signals

namespace Represents
variable {prior : Dispositions} {process : Process} {notices : Notices}

def Agrees (prior : Dispositions) (concrete : Outcome × Process) (expected : Outcome × Notices) : Prop :=
  concrete.1 = expected.1 ∧ Represents prior concrete.2 expected.2

theorem flagsOf_concat (signals : List Int) (signal : Int) :
    flagsOf (signals ++ [signal]) =
      flagsOf signals ||| (if signal = sigterm ∨ signal = sigint then stop else 0) |||
      (if signal = sighup then reload else 0) := by
  have stops : (sigterm ∈ signals ++ [signal] ∨ sigint ∈ signals ++ [signal]) ↔
      (sigterm ∈ signals ∨ sigint ∈ signals) ∨ signal = sigterm ∨ signal = sigint := by
    simp only [List.mem_append, List.mem_singleton, eq_comm (a := signal)]
    tauto
  have reloads : sighup ∈ signals ++ [signal] ↔ sighup ∈ signals ∨ signal = sighup := by
    simp only [List.mem_append, List.mem_singleton, eq_comm (a := signal)]
  unfold flagsOf
  simp only [stops, reloads]
  by_cases stopped : sigterm ∈ signals ∨ sigint ∈ signals <;> by_cases reloaded : sighup ∈ signals <;>
    by_cases stopping : signal = sigterm ∨ signal = sigint <;> by_cases reloading : signal = sighup <;>
    simp only [stopped, reloaded, stopping, reloading, or_self, or_true, true_or, if_true, if_false] <;> rfl

theorem unheld (represents : Represents prior process notices) {index : Nat}
    (other : notices.holder ≠ some index) :
    process.controls index = {} := by
  rw [represents.controls, if_neg other]

theorem stays (represents : Represents prior process notices) (index : Nat) :
    Represents prior ⟨process.host, Function.update process.controls index (process.controls index)⟩
      notices := by
  rwa [Function.update_eq_self]

theorem install (represents : Represents prior process notices) (index : Nat) :
    Agrees prior (process.perform (.install index)) (notices.perform (.install index)) := by
  unfold Process.perform Notices.perform
  dsimp only
  by_cases mine : notices.holder = some index
  · have control := represents.controls index
    rw [if_pos mine] at control
    have refused : (process.controls index).install GatewayControlHostModel.abi process.host =
        (.error ⟨"install-state", errorContract⟩, process.controls index, process.host) := by
      unfold GatewayProcessControl.install
      rw [if_pos (.inl (by rw [control]))]
    rw [refused, if_pos mine]
    exact ⟨rfl, represents.stays index⟩
  rw [if_neg mine]
  by_cases held : notices.holder.isSome
  · have owner := represents.owner
    rw [if_pos held] at owner
    have busy : (process.controls index).install GatewayControlHostModel.abi process.host =
        (.error ⟨"install", errorBusy⟩, process.controls index, process.host) := by
      rw [represents.unheld mine]
      have nonzero : process.host.owner ≠ 0 := by omega
      simp [GatewayProcessControl.install, GatewayControlHostModel.abi,
        GatewayControlHostModel.install, nonzero, errorBusy]
    rw [busy, if_pos held]
    exact ⟨rfl, represents.stays index⟩
  · have vacant : notices.holder = none := by simpa using held
    have owner := represents.owner
    have dispositions := represents.dispositions
    rw [if_neg held] at owner dispositions
    have next := represents.next
    have granted : (process.controls index).install GatewayControlHostModel.abi process.host =
        (.ok (), ⟨process.host.nextOwner, true⟩, process.host.install.2) := by
      rw [represents.unheld mine]
      simp [GatewayProcessControl.install, GatewayControlHostModel.abi,
        GatewayControlHostModel.install, owner, next]
    rw [granted, if_neg held]
    refine ⟨rfl, ?_⟩
    have installed : process.host.install.2 =
        ⟨.gateway, some prior, process.host.nextOwner, process.host.nextOwner + 1, 0⟩ := by
      simp [GatewayControlHostModel.install, owner, dispositions, Dispositions.gateway]
    dsimp only
    rw [installed]
    refine ⟨by dsimp only; omega, fun other => ?_, next, rfl, fun _ => rfl, fun _ => flagsOf_nil.symm⟩
    by_cases same : other = index
    · subst other
      simp
    · have unheld := represents.unheld (show notices.holder ≠ some other by simp [vacant])
      simp [Function.update_of_ne same, unheld, Ne.symm same]

theorem poll (represents : Represents prior process notices) (index : Nat) :
    Agrees prior (process.perform (.poll index)) (notices.perform (.poll index)) := by
  unfold Process.perform Notices.perform
  dsimp only
  by_cases mine : notices.holder = some index
  · have control := represents.controls index
    have owner := represents.owner
    have held : notices.holder.isSome = true := by simp [mine]
    rw [if_pos mine] at control
    rw [if_pos held] at owner
    have flags := represents.pending held
    have known := flagsOf_known notices.signals
    have told : (process.controls index).poll GatewayControlHostModel.abi process.host =
        (.ok (pollOf notices.signals), { process.host with pendingFlags := 0 }) := by
      rw [control]
      simp [GatewayProcessControl.poll, GatewayControlHostModel.abi, GatewayControlHostModel.poll,
        GatewayControlPoll.create, Int.not_le.mpr owner, flags, known,
        pollOf, Int.not_lt.mpr (Int.natCast_nonneg _)]
    rw [told, if_pos mine]
    exact ⟨rfl, represents.next, represents.controls, represents.owner, represents.dispositions,
      represents.saved, fun _ => flagsOf_nil.symm⟩
  · have refused : (process.controls index).poll GatewayControlHostModel.abi process.host =
        (.error ⟨"poll-state", errorNotOwner⟩, process.host) := by
      rw [represents.unheld mine]
      rfl
    rw [refused, if_neg mine]
    exact ⟨rfl, represents⟩

theorem uninstall (represents : Represents prior process notices) (index : Nat) :
    Agrees prior (process.perform (.uninstall index)) (notices.perform (.uninstall index)) := by
  unfold Process.perform Notices.perform
  dsimp only
  by_cases mine : notices.holder = some index
  · have control := represents.controls index
    have owner := represents.owner
    have held : notices.holder.isSome = true := by simp [mine]
    rw [if_pos mine] at control
    rw [if_pos held] at owner
    have saved := represents.saved held
    have released : (process.controls index).uninstall GatewayControlHostModel.abi process.host =
        (.ok (), {}, ⟨prior, none, 0, process.host.nextOwner, 0⟩) := by
      rw [control]
      simp [GatewayProcessControl.uninstall, GatewayControlHostModel.abi,
        GatewayControlHostModel.uninstall, Int.not_le.mpr owner, saved]
    rw [released, if_pos mine]
    refine ⟨rfl, represents.next, fun other => ?_, rfl, rfl, by simp, by simp⟩
    by_cases same : other = index
    · subst other
      simp
    · have unheld := represents.unheld (show notices.holder ≠ some other by simp [mine, Ne.symm same])
      simp [Function.update_of_ne same, unheld]
  · have refused : (process.controls index).uninstall GatewayControlHostModel.abi process.host =
        (.error ⟨"uninstall-state", errorNotOwner⟩, process.controls index, process.host) := by
      rw [represents.unheld mine]
      rfl
    rw [refused, if_neg mine]
    exact ⟨rfl, represents.stays index⟩

theorem deliver (represents : Represents prior process notices) (signal : Int) :
    Agrees prior (process.perform (.deliver signal)) (notices.perform (.deliver signal)) := by
  unfold Process.perform Notices.perform
  dsimp only
  by_cases held : notices.holder.isSome
  · have owner := represents.owner
    rw [if_pos held] at owner
    have nonzero : process.host.owner ≠ 0 := by omega
    have pending := flagsOf_concat notices.signals signal
    have heard {flags : Nat} (flagged : flags = flagsOf (notices.signals ++ [signal])) :
        Represents prior { process with host := { process.host with pendingFlags := flags } }
          { notices with signals := notices.signals ++ [signal] } :=
      ⟨represents.next, represents.controls, represents.owner, represents.dispositions,
        represents.saved, fun _ => flagged⟩
    rw [← represents.pending held] at pending
    unfold GatewayControlHostModel.deliver
    rw [if_neg nonzero]
    by_cases stopping : signal = sigterm ∨ signal = sigint
    · have known : signal ∈ [sighup, sigint, sigpipe, sigterm] := by
        rcases stopping with rfl | rfl <;> simp
      have other : signal ≠ sighup := by
        rcases stopping with rfl | rfl <;> decide
      rw [if_pos stopping, if_pos ⟨held, known⟩]
      rw [if_pos stopping, if_neg other, Nat.or_zero] at pending
      exact ⟨rfl, heard pending.symm⟩
    rw [if_neg stopping] at pending ⊢
    by_cases reloading : signal = sighup
    · rw [if_pos reloading, if_pos ⟨held, by simp [reloading]⟩]
      rw [if_pos reloading, Nat.or_zero] at pending
      exact ⟨rfl, heard pending.symm⟩
    rw [if_neg reloading] at pending ⊢
    by_cases piped : signal = sigpipe
    · rw [if_pos piped, if_pos ⟨held, by simp [piped]⟩]
      rw [Nat.or_zero, Nat.or_zero] at pending
      exact ⟨rfl, heard pending.symm⟩
    · rw [if_neg piped, if_neg (by simp_all)]
      exact ⟨rfl, represents⟩
  · have owner := represents.owner
    rw [if_neg held] at owner
    have dropped : process.host.deliver signal = (false, process.host) := by
      unfold GatewayControlHostModel.deliver
      rw [if_pos owner]
    rw [dropped, if_neg (held ·.1)]
    exact ⟨rfl, represents⟩

theorem perform (represents : Represents prior process notices) (event : Event) :
    Agrees prior (process.perform event) (notices.perform event) := by
  cases event with
  | install index => exact represents.install index
  | poll index => exact represents.poll index
  | uninstall index => exact represents.uninstall index
  | deliver signal => exact represents.deliver signal

theorem outcomes (represents : Represents prior process notices) (events : List Event) :
    (Control.outcomes Process.perform events process).1 =
    (Control.outcomes Notices.perform events notices).1 ∧
      Represents prior (Control.outcomes Process.perform events process).2
        (Control.outcomes Notices.perform events notices).2 := by
  induction events generalizing process notices with
  | nil => exact ⟨rfl, represents⟩
  | cons event events ih =>
    obtain ⟨same, next⟩ := represents.perform event
    obtain ⟨rest, last⟩ := ih next
    exact ⟨congrArg₂ List.cons same rest, last⟩

end Represents

/-- However many controls share the host, and in any order of their calls and of signals: they
behave as one lock with the signals that its holder has not been told of. A poll tells exactly
whether one of those asks to stop and whether one asks to reload, so that none is lost and none is
told twice; and the dispositions are those of the gateway while a control holds it, and otherwise as
before. Nothing is assumed about the dispositions that were there before, the number of controls, or
who calls what. A call that the host refuses is one of the outcomes that agree. -/
theorem control_notified (previous : Int → Option String) (events : List Event) :
    let host := GatewayControlHostModel.create previous
    let concrete := outcomes Process.perform events ⟨host, fun _ => {}⟩
    let expected := outcomes Notices.perform events {}
    concrete.1 = expected.1 ∧
      concrete.2.host.dispositions = (if expected.2.holder.isSome then .gateway else host.dispositions) ∧
      ∀ index, (concrete.2.controls index).installed = true ↔ expected.2.holder = some index := by
  intro host concrete expected
  have start : Represents host.dispositions ⟨host, fun _ => {}⟩ {} :=
    ⟨Int.one_pos, by simp, rfl, rfl, by simp, by simp⟩
  obtain ⟨same, represents⟩ : concrete.1 = expected.1 ∧
      Represents host.dispositions concrete.2 expected.2 := start.outcomes events
  refine ⟨same, represents.dispositions, fun index => ?_⟩
  rw [represents.controls]
  by_cases holds : expected.2.holder = some index <;> simp [holds]

end Control
end PccGateway
