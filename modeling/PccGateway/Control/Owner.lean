import PccGateway.Lib.Interleaving
import Mathlib.Logic.Function.Basic

namespace PccGateway
namespace Control

def abiVersion : Int := 1
def abiName : String := "pcc-native-gateway-control-v1"

def stop : Nat := 1
def reload : Nat := 2
def knownFlags : Nat := stop ||| reload

def errorBusy : Int := -1
def errorNotOwner : Int := -2
def errorPlatform : Int := -3
def errorContract : Int := -4

def sighup : Int := 1
def sigint : Int := 2
def sigpipe : Int := 13
def sigterm : Int := 15

def dispositionDefault : String := "default"
def dispositionDrain : String := "drain"
def dispositionReload : String := "reload"
def dispositionIgnore : String := "ignore"

structure GatewayControlError where
  operation : String
  errorCode : Int
  deriving DecidableEq

/-- A snapshot that a poll has consumed. It has no flag that is not known. -/
structure GatewayControlPoll where
  flags : Nat
  known : flags &&& knownFlags = flags
  deriving DecidableEq

namespace GatewayControlPoll

def create (flags : Int) : Except GatewayControlError GatewayControlPoll :=
  if known : 0 ≤ flags ∧ flags.toNat &&& knownFlags = flags.toNat then .ok ⟨flags.toNat, known.2⟩
  else .error ⟨"poll-contract", errorContract⟩

def stopRequested (poll : GatewayControlPoll) : Bool := poll.flags &&& stop != 0

def reloadRequested (poll : GatewayControlPoll) : Bool := poll.flags &&& reload != 0

end GatewayControlPoll

/-- What a method of the ABI does: it raises, or returns an object that is no number, or a number. -/
inductive Answer where
  | raised
  | object
  | number (value : Int)
  deriving DecidableEq

/-- The methods of an ABI object, on a state of its own. -/
structure Abi (σ : Type) where
  install : σ → Answer × σ
  poll : Int → σ → Answer × σ
  uninstall : Int → σ → Answer × σ

/-- The attributes that the constructor looks at; `none` is one that the object does not have. -/
structure AbiAttributes where
  abiVersion : Option Int
  abiName : Option String
  productionReady : Option Bool
  linkBoundary : Option String
  callable : List String

structure GatewayProcessControl where
  owner : Int := 0
  installed : Bool := false
  deriving DecidableEq

namespace GatewayProcessControl

def create (abi : AbiAttributes) : Except GatewayControlError GatewayProcessControl :=
  if abi.abiVersion.getD 0 ≠ abiVersion then .error ⟨"abi-version", errorContract⟩
  else if abi.abiName.getD "" ≠ abiName then .error ⟨"abi-name", errorContract⟩
  else if abi.productionReady = none then .error ⟨"abi-provenance", errorContract⟩
  else if abi.linkBoundary.getD "" = "" then .error ⟨"abi-provenance", errorContract⟩
  else if ["install", "poll", "uninstall"].all (abi.callable.contains ·) then .ok {}
  else .error ⟨"abi-method", errorContract⟩

variable {σ : Type} (abi : Abi σ) (control : GatewayProcessControl) (process : σ)

def install : Except GatewayControlError Unit × GatewayProcessControl × σ :=
  if control.installed ∨ control.owner ≠ 0 then (.error ⟨"install-state", errorContract⟩, control, process)
  else
    match abi.install process with
    | (.raised, process) => (.error ⟨"install", errorPlatform⟩, control, process)
    | (.object, process) => (.error ⟨"install", errorContract⟩, control, process)
    | (.number owner, process) =>
      if owner ≤ 0 then (.error ⟨"install", owner⟩, control, process) else (.ok (), ⟨owner, true⟩, process)

def poll : Except GatewayControlError GatewayControlPoll × σ :=
  if ¬control.installed ∨ control.owner ≤ 0 then (.error ⟨"poll-state", errorNotOwner⟩, process)
  else
    match abi.poll control.owner process with
    | (.raised, process) => (.error ⟨"poll", errorPlatform⟩, process)
    | (.object, process) => (.error ⟨"poll-contract", errorContract⟩, process)
    | (.number flags, process) =>
      (if flags < 0 then .error ⟨"poll", flags⟩ else GatewayControlPoll.create flags, process)

/-- A failure keeps the capability: that the dispositions are restored has not been proven. -/
def uninstall : Except GatewayControlError Unit × GatewayProcessControl × σ :=
  if ¬control.installed ∨ control.owner ≤ 0 then
    (.error ⟨"uninstall-state", errorNotOwner⟩, control, process)
  else
    match abi.uninstall control.owner process with
    | (.raised, process) => (.error ⟨"uninstall", errorPlatform⟩, control, process)
    | (.object, process) => (.error ⟨"uninstall-contract", errorContract⟩, control, process)
    | (.number status, process) =>
      if status ≠ 0 then (.error ⟨"uninstall", status⟩, control, process) else (.ok (), {}, process)

inductive Action where
  | install
  | poll
  | uninstall

def step (state : GatewayProcessControl × σ) : Action → GatewayProcessControl × σ
  | .install => (state.1.install abi state.2).2
  | .poll => (state.1, (state.1.poll abi state.2).2)
  | .uninstall => (state.1.uninstall abi state.2).2

/-- The capability that a control has. -/
def held : Option Int := if control.installed then some control.owner else none

end GatewayProcessControl

/-- A call of an ABI and what it answered. -/
inductive AbiCall where
  | install (answer : Answer)
  | poll (owner : Int) (answer : Answer)
  | uninstall (owner : Int) (answer : Answer)

/-- The ABI that also writes down how it is called. -/
def Abi.traced {σ : Type} (abi : Abi σ) : Abi (σ × List AbiCall) where
  install process := ((abi.install process.1).1, (abi.install process.1).2,
    process.2 ++ [.install (abi.install process.1).1])
  poll owner process :=
    ((abi.poll owner process.1).1, (abi.poll owner process.1).2,
      process.2 ++ [.poll owner (abi.poll owner process.1).1])
  uninstall owner process :=
    ((abi.uninstall owner process.1).1, (abi.uninstall owner process.1).2,
      process.2 ++ [.uninstall owner (abi.uninstall owner process.1).1])

/-- The capability that an answer to `install` grants. -/
def Answer.granted : Answer → Option Int
  | .number owner => if 0 < owner then some owner else none
  | _ => none

/-- The capability after the call; `none` for a call that the capability does not allow. -/
def AbiCall.replay (held : Option Int) : AbiCall → Option (Option Int)
  | .install answer => if held = none then some answer.granted else none
  | .poll owner _ => if held = some owner then some held else none
  | .uninstall owner answer =>
    if held = some owner then some (if answer = .number 0 then none else held) else none

def replay (trace : List AbiCall) : Option (Option Int) := trace.foldlM AbiCall.replay none

theorem replay_concat (trace : List AbiCall) (call : AbiCall) :
    replay (trace ++ [call]) = (replay trace).bind fun held => call.replay held := by
  simp [replay, List.foldlM_append, bind, pure]

namespace GatewayProcessControl
variable {σ : Type} {abi : Abi σ} {state : GatewayProcessControl × σ × List AbiCall}

/-- The calls so far are allowed and leave the capability that the control has, a positive number. -/
structure Owned (state : GatewayProcessControl × σ × List AbiCall) : Prop where
  calls : replay state.2.2 = some state.1.held
  owner : if state.1.installed then 0 < state.1.owner else state.1.owner = 0

theorem create_fresh {attributes : AbiAttributes} {control : GatewayProcessControl}
    (created : create attributes = .ok control) :
    control = {} := by
  unfold create at created
  split_ifs at created
  exact (Except.ok.inj created).symm

theorem Owned.vacant (owned : Owned state) (unowned : ¬(state.1.installed = true ∨ state.1.owner ≠ 0)) :
    state.1 = {} ∧ replay state.2.2 = some none := by
  rcases state with ⟨⟨owner, installed⟩, process⟩
  obtain ⟨rfl, rfl⟩ : installed = false ∧ owner = 0 := by simpa using unowned
  exact ⟨rfl, owned.calls⟩

theorem Owned.holding (owned : Owned state) (owns : ¬(¬state.1.installed = true ∨ state.1.owner ≤ 0)) :
    replay state.2.2 = some (some state.1.owner) ∧ state.1.held = some state.1.owner := by
  have installed : state.1.installed = true := by
    by_contra uninstalled
    exact owns (.inl uninstalled)
  have held : state.1.held = some state.1.owner := by simp [held, installed]
  exact ⟨owned.calls.trans (congrArg some held), held⟩

theorem Owned.install (owned : Owned state) : Owned (state.1.install abi.traced state.2).2 := by
  unfold GatewayProcessControl.install
  split_ifs with unowned
  · exact owned
  obtain ⟨fresh, vacant⟩ := owned.vacant unowned
  have calls (answer : Answer) : replay (state.2.2 ++ [.install answer]) = some answer.granted := by
    rw [replay_concat, vacant]
    rfl
  dsimp only [Abi.traced]
  cases answered : (abi.install state.2.1).1 with
  | raised => exact ⟨by rw [fresh]; exact calls .raised, owned.owner⟩
  | object => exact ⟨by rw [fresh]; exact calls .object, owned.owner⟩
  | number owner =>
    dsimp only
    split_ifs with positive
    · refine ⟨?_, owned.owner⟩
      rw [fresh, calls (.number owner), Answer.granted, if_neg (by omega)]
      rfl
    · refine ⟨?_, by simpa using positive⟩
      rw [calls (.number owner), Answer.granted, if_pos (by omega)]
      rfl

theorem Owned.poll (owned : Owned state) : Owned (state.1, (state.1.poll abi.traced state.2).2) := by
  unfold GatewayProcessControl.poll
  split_ifs with unowned
  · exact owned
  obtain ⟨holds, held⟩ := owned.holding unowned
  have calls (answer : Answer) :
      replay (state.2.2 ++ [.poll state.1.owner answer]) = some state.1.held := by
    rw [replay_concat, holds, held]
    simp [AbiCall.replay]
  dsimp only [Abi.traced]
  cases answered : (abi.poll state.1.owner state.2.1).1 with
  | raised => exact ⟨calls .raised, owned.owner⟩
  | object => exact ⟨calls .object, owned.owner⟩
  | number flags => exact ⟨calls (.number flags), owned.owner⟩

theorem Owned.uninstall (owned : Owned state) : Owned (state.1.uninstall abi.traced state.2).2 := by
  unfold GatewayProcessControl.uninstall
  split_ifs with unowned
  · exact owned
  obtain ⟨holds, held⟩ := owned.holding unowned
  have calls (answer : Answer) : replay (state.2.2 ++ [.uninstall state.1.owner answer]) =
      some (if answer = .number 0 then none else state.1.held) := by
    rw [replay_concat, holds, held]
    simp [AbiCall.replay]
  dsimp only [Abi.traced]
  cases answered : (abi.uninstall state.1.owner state.2.1).1 with
  | raised => exact ⟨calls .raised, owned.owner⟩
  | object => exact ⟨calls .object, owned.owner⟩
  | number status =>
    dsimp only
    split_ifs with failed
    · refine ⟨?_, owned.owner⟩
      rw [calls (.number status), if_neg (by simpa using failed)]
    · obtain rfl : status = 0 := by simpa using failed
      exact ⟨calls (.number 0), rfl⟩

/-- Whatever the ABI answers and however a control is used, its calls are those of one owner: it
installs only when it has no capability, polls and uninstalls only with the one it has been granted,
and has it until an uninstall has succeeded. What is assumed is that the constructor has accepted
the attributes of the ABI. What the ABI answers is any, at every call, also what no ABI should. -/
theorem control_owned {attributes : AbiAttributes} {control : GatewayProcessControl}
    (created : create attributes = .ok control) (abi : Abi σ) (process : σ) (actions : List Action) :
    let last := actions.foldl (step abi.traced) (control, process, [])
    replay last.2.2 = some last.1.held ∧ if last.1.installed then
      0 < last.1.owner else last.1.owner = 0 := by
  have start : Owned (control, process, []) := by
    rw [create_fresh created]
    exact ⟨rfl, rfl⟩
  have each : ∀ state action, Owned state → Owned (step abi.traced state action) := by
    intro state action owned
    cases action with
    | install => exact owned.install
    | poll => exact owned.poll
    | uninstall => exact owned.uninstall
  have owned := Interleaving.invariant each actions start
  exact ⟨owned.calls, owned.owner⟩

/-- An ABI that refuses the first uninstall: the control keeps what it has and can uninstall again. -/
theorem control_owned_refusing :
    let abi : Abi Int :=
      ⟨fun status => (.number 7, status), fun _ status => (.number 0, status),
        fun _ status => (.number status, 0)⟩
    let last := [Action.install, .poll, .uninstall, .install, .uninstall].foldl (step abi.traced)
      ({}, -71, [])
    replay last.2.2 = some last.1.held ∧ if last.1.installed then 0 < last.1.owner else last.1.owner = 0 :=
  have created : create ⟨some 1, some "pcc-native-gateway-control-v1", some true,
      some "direct-symbols", ["install", "poll", "uninstall"]⟩ = .ok {} := rfl
  control_owned created _ _ _

end GatewayProcessControl
end Control
end PccGateway
