import PccGateway.Dns.Address
import PccGateway.Dns.Cache
import PccGateway.Lib.Grouping
import Mathlib.Data.List.Lex
import Mathlib.Data.Char

namespace PccGateway
namespace Dns

inductive RebindMode where
  | allow | sameClass | pin
  deriving DecidableEq, Repr

/-- The name of a class in the source. -/
def AddressClass.text : AddressClass → String
  | .unspecified => "unspecified"
  | .loopback => "loopback"
  | .privateAddress => "private"
  | .linkLocal => "link-local"
  | .multicast => "multicast"
  | .publicAddress => "public"
  | .invalid => "invalid"

/-- What a policy keeps for a key: the sorted addresses, and the sorted names of their classes. -/
structure AddressBinding where
  values : List Text
  classes : List String
  deriving DecidableEq

/-- `(current_values, current_classes)`. -/
def bindingOf (canonical : List Text) (classes : List AddressClass) : AddressBinding :=
  ⟨canonical.mergeSort, (classes.map AddressClass.text).mergeSort⟩

structure DnsAddressPolicy where
  allowPrivate : Bool := true
  allowLoopback : Bool := true
  allowLinkLocal : Bool := false
  allowMulticast : Bool := false
  allowUnspecified : Bool := false
  rebindMode : RebindMode := .sameClass
  bindings : AList (fun _ : CacheKey => AddressBinding) := ∅

/-- The arguments of a call of `accept`. -/
structure AcceptCall where
  name : Text
  values : List Text
  qtype : Int

def AcceptCall.key (case : CaseMapping) (call : AcceptCall) : CacheKey := cacheKey case call.name call.qtype

namespace DnsAddressPolicy

/-- The error that the checks of `accept` raise for a class. -/
def refuses (policy : DnsAddressPolicy) : AddressClass → Option DnsExn
  | .privateAddress =>
    if policy.allowPrivate then
      none else some (.dns "address-policy-private" "private DNS address rejected")
  | .loopback =>
    if policy.allowLoopback then
      none else some (.dns "address-policy-loopback" "loopback DNS address rejected")
  | .linkLocal =>
    if policy.allowLinkLocal then
      none else some (.dns "address-policy-link-local" "link-local DNS address rejected")
  | .multicast =>
    if policy.allowMulticast then
      none else some (.dns "address-policy-multicast" "multicast DNS address rejected")
  | .unspecified =>
    if policy.allowUnspecified then
      none else some (.dns "address-policy-unspecified" "unspecified DNS address rejected")
  | .publicAddress => none
  | .invalid => none

/-- The loop of `accept`: the addresses, and their classes. -/
def collect (policy : DnsAddressPolicy) (qtype : Int) : List Text → List Text → List AddressClass →
    Except DnsExn (List Text × List AddressClass)
  | [], canonical, classes => .ok (canonical, classes)
  | value :: values, canonical, classes =>
    match normalizeNumericAddress value qtype with
    | none => .error (.dns "address-policy" "resolver returned a non-address value")
    | some normalized =>
      let kind := addressClass normalized
      match policy.refuses kind with
      | some error => .error error
      | none =>
        if normalized ∈ canonical then collect policy qtype values canonical classes
        else collect policy qtype values (canonical ++ [normalized]) (if kind ∈ classes then
          classes else classes ++ [kind])

/-- `accept`: what it returns or raises, and the policy after it. -/
def accept (case : CaseMapping) (policy : DnsAddressPolicy) (call : AcceptCall) :
    Except DnsExn (List Text) × DnsAddressPolicy :=
  match policy.collect call.qtype call.values [] [] with
  | .error error => (.error error, policy)
  | .ok (canonical, classes) =>
    if canonical = [] then (.ok canonical, policy)
    else
      let current := bindingOf canonical classes
      let next := { policy with bindings := policy.bindings.insert (call.key case) current }
      match policy.bindings.lookup (call.key case) with
      | none => (.ok canonical, next)
      | some previous =>
        if policy.rebindMode = .pin ∧ previous.values ≠ current.values then
          (.error (.dns "dns-rebinding" "DNS address set changed under pin policy"), policy)
        else if policy.rebindMode = .sameClass ∧ previous.classes ≠ current.classes then
          (.error (.dns "dns-rebinding" "DNS address class changed"), policy)
        else if policy.rebindMode ≠ .allow then (.ok canonical, next)
        else (.ok canonical, policy)

end DnsAddressPolicy

/-- A list of calls, each with what it returned or raised. -/
def runAccepts (case : CaseMapping) :
    DnsAddressPolicy → List AcceptCall → List (AcceptCall × Except DnsExn (List Text))
  | _, [] => []
  | policy, call :: calls =>
    (call, (policy.accept case call).1) :: runAccepts case (policy.accept case call).2 calls

/-- The classes of a list of addresses, by their bytes. -/
def classesOf (addresses : List Text) : List AddressClass :=
  addresses.filterMap fun address => (addressBytes address).map bytesClass

/-- A policy lets a class through. -/
def DnsAddressPolicy.Allows (policy : DnsAddressPolicy) : AddressClass → Prop
  | .privateAddress => policy.allowPrivate
  | .loopback => policy.allowLoopback
  | .linkLocal => policy.allowLinkLocal
  | .multicast => policy.allowMulticast
  | .unspecified => policy.allowUnspecified
  | .publicAddress | .invalid => True

theorem DnsAddressPolicy.refuses_eq_none {policy : DnsAddressPolicy} {kind : AddressClass} :
    policy.refuses kind = none ↔ policy.Allows kind := by
  cases kind <;> simp [refuses, Allows]

/-- The loop of `accept` when it does not raise. -/
theorem collect_ok {policy : DnsAddressPolicy} {qtype : Int} {values seen canonical : List Text}
    {classes kinds : List AddressClass}
    (sorts : ∀ kind, kind ∈ classes ↔ kind ∈ seen.map addressClass)
    (collected : policy.collect qtype values seen.eraseDups classes = .ok (canonical, kinds)) :
    ∃ normals, values.map (normalizeNumericAddress · qtype) = normals.map some ∧ canonical =
      (seen ++ normals).eraseDups ∧ (∀ address ∈ normals, policy.Allows (addressClass address)) ∧
      ∀ kind, kind ∈ kinds ↔ kind ∈ (seen ++ normals).map addressClass := by
  induction values generalizing seen classes with
  | nil =>
    cases collected
    exact ⟨[], by simp, by simp, by simp, by simpa using sorts⟩
  | cons value values ih =>
    unfold DnsAddressPolicy.collect at collected
    cases normal : normalizeNumericAddress value qtype with
    | none => simp [normal] at collected
    | some address =>
      cases refused : policy.refuses (addressClass address) with
      | some error => simp [normal, refused] at collected
      | none =>
        have step : ∃ classes', (∀ kind, kind ∈ classes' ↔ kind ∈ (seen ++ [address]).map addressClass) ∧
            policy.collect qtype values (seen ++ [address]).eraseDups classes' =
              .ok (canonical, kinds) := by
          rw [Grouping.eraseDups_snoc]
          simp only [normal, refused, List.mem_eraseDups] at collected
          split at collected
          · rename_i old
            rw [if_pos old]
            refine ⟨classes, fun kind => ?_, collected⟩
            rw [sorts, List.map_append, List.mem_append]
            refine ⟨.inl, fun member => member.elim id fun last => ?_⟩
            rw [List.mem_singleton.mp last]
            exact List.mem_map_of_mem old
          · rename_i new
            rw [if_neg new]
            refine ⟨_, fun kind => ?_, collected⟩
            rw [List.map_append, List.mem_append, ← sorts]
            split
            · rename_i known
              refine ⟨.inl, fun member => member.elim id fun last => ?_⟩
              rw [List.mem_singleton.mp last]
              exact known
            · simp
        obtain ⟨classes', sorts', rest⟩ := step
        obtain ⟨normals, same, result, allowed, kindsEq⟩ := ih sorts' rest
        refine ⟨address :: normals, by simp [normal, same], by simpa using result, ?_,
          by simpa using kindsEq⟩
        intro other member
        rcases List.mem_cons.mp member with rfl | member
        · exact DnsAddressPolicy.refuses_eq_none.mp refused
        · exact allowed other member

/-- Two bindings that the mode cannot tell apart. -/
def SameBinding (mode : RebindMode) (first second : AddressBinding) : Prop :=
  (mode = .pin → first.values = second.values) ∧ (mode = .sameClass → first.classes = second.classes)

/-- What a call of `accept` can do. -/
theorem accept_cases (case : CaseMapping) (policy : DnsAddressPolicy) (call : AcceptCall) :
    (∃ error, policy.accept case call = (.error error, policy)) ∨
    (∃ kinds, policy.collect call.qtype call.values [] [] = .ok ([], kinds) ∧
      policy.accept case call = (.ok [], policy)) ∨
    ∃ canonical kinds, policy.collect call.qtype call.values [] [] = .ok (canonical, kinds) ∧
    canonical ≠ [] ∧ (policy.accept case call).1 = .ok canonical ∧
      (∀ previous, policy.bindings.lookup (call.key case) = some previous →
        SameBinding policy.rebindMode previous (bindingOf canonical kinds)) ∧
      ((policy.rebindMode = .allow ∧ (policy.accept case call).2 = policy) ∨
        (policy.accept case call).2 =
          { policy with bindings := policy.bindings.insert (call.key case) (bindingOf canonical
            kinds) }) := by
  unfold DnsAddressPolicy.accept
  cases collected : policy.collect call.qtype call.values [] [] with
  | error error => exact .inl ⟨error, rfl⟩
  | ok found =>
    obtain ⟨canonical, kinds⟩ := found
    dsimp only
    by_cases empty : canonical = []
    · subst empty
      exact .inr (.inl ⟨kinds, rfl, rfl⟩)
    rw [if_neg empty]
    cases before : policy.bindings.lookup (call.key case) with
    | none => exact .inr (.inr ⟨canonical, kinds, rfl, empty, rfl, nofun, .inr rfl⟩)
    | some previous =>
      dsimp only
      by_cases moved : policy.rebindMode = .pin ∧ previous.values ≠ (bindingOf canonical kinds).values
      · exact .inl ⟨_, if_pos moved⟩
      by_cases changed : policy.rebindMode = .sameClass ∧ previous.classes ≠
        (bindingOf canonical kinds).classes
      · exact .inl ⟨_, by rw [if_neg moved, if_pos changed]⟩
      rw [if_neg moved, if_neg changed]
      have kept : ∀ other, some previous = some other →
          SameBinding policy.rebindMode other (bindingOf canonical kinds) := by
        rintro _ ⟨⟩
        exact ⟨fun pin => not_not.mp (not_and.mp moved pin), fun same =>
          not_not.mp (not_and.mp changed same)⟩
      by_cases mode : policy.rebindMode = .allow
      · exact .inr (.inr ⟨canonical, kinds, rfl, empty, by simp [mode], kept, .inl ⟨mode, by simp [mode]⟩⟩)
      · exact .inr (.inr ⟨canonical, kinds, rfl, empty, by simp [mode], kept, .inr (by simp [mode])⟩)

/-- The addresses and the classes of a result. -/
theorem collect_addresses {policy : DnsAddressPolicy} {qtype : Int} {values canonical : List Text}
    {kinds : List AddressClass}
    (collected : policy.collect qtype values [] [] = .ok (canonical, kinds)) :
    (∃ normals : List Text, values.map (normalizeNumericAddress · qtype) = normals.map some ∧
      canonical = normals.eraseDups) ∧
    (∀ address ∈ canonical, ∃ value ∈ values, ∃ bytes, addressBytes (strip value) = some bytes ∧
      addressBytes address = some bytes ∧ policy.Allows (bytesClass bytes)) ∧
    ∀ kind, kind ∈ classesOf canonical ↔ kind ∈ kinds := by
  have start : policy.collect qtype values ([] : List Text).eraseDups [] =
      .ok (canonical, kinds) := collected
  obtain ⟨normals, same, rfl, allowed, kindsEq⟩ := collect_ok (by simp) start
  simp only [List.nil_append] at kindsEq ⊢
  have bytesOf : ∀ address ∈ normals, ∃ value ∈ values, ∃ bytes, addressBytes (strip value) = some bytes ∧
      addressBytes address = some bytes ∧ addressClass address = bytesClass bytes := by
    intro address member
    have image : some address ∈ values.map (normalizeNumericAddress · qtype) :=
      same ▸ List.mem_map_of_mem member
    obtain ⟨value, listed, normal⟩ := List.mem_map.mp image
    exact ⟨value, listed, normalize_bytes normal⟩
  refine ⟨⟨normals, same, rfl⟩, fun address member => ?_, fun kind => ?_⟩
  · have member := List.mem_eraseDups.mp member
    obtain ⟨value, listed, bytes, given, back, kind⟩ := bytesOf address member
    exact ⟨value, listed, bytes, given, back, kind ▸ allowed address member⟩
  · rw [kindsEq, classesOf, List.mem_filterMap, List.mem_map]
    constructor
    · rintro ⟨address, member, same⟩
      have member := List.mem_eraseDups.mp member
      obtain ⟨value, listed, bytes, given, back, kind⟩ := bytesOf address member
      rw [back] at same
      exact ⟨address, member, kind.trans (Option.some.inj same)⟩
    · rintro ⟨address, member, same⟩
      obtain ⟨value, listed, bytes, given, back, kind⟩ := bytesOf address member
      exact ⟨address, List.mem_eraseDups.mpr member, by rw [back, Option.map_some, ← kind, same]⟩

section Bindings

variable {case : CaseMapping} {policy : DnsAddressPolicy}

/-- The policy after a call differs at most in the binding of its key. -/
theorem accept_frame (case : CaseMapping) (policy : DnsAddressPolicy) (call : AcceptCall) :
    (policy.accept case call).2 = policy ∨
      ∃ bound, (policy.accept case call).2 =
        { policy with bindings := policy.bindings.insert (call.key case) bound } := by
  obtain ⟨error, same⟩ | ⟨kinds, -, same⟩ | ⟨canonical, kinds, -, -, -, -, ⟨-, same⟩ | same⟩ :=
    accept_cases case policy call
  · exact .inl (by rw [same])
  · exact .inl (by rw [same])
  · exact .inl same
  · exact .inr ⟨_, same⟩

/-- Two policies with the same settings and the same binding of a key. -/
structure Alike (key : CacheKey) (first second : DnsAddressPolicy) : Prop where
  settings : second = { first with bindings := second.bindings }
  bound : second.bindings.lookup key = first.bindings.lookup key

theorem Alike.trans {key : CacheKey} {first second third : DnsAddressPolicy}
    (one : Alike key first second) (two : Alike key second third) :
    Alike key first third := by
  refine ⟨?_, two.bound.trans one.bound⟩
  rw [two.settings, one.settings]

/-- A call for another key. -/
theorem alike_accept_other {key : CacheKey} {call : AcceptCall} (other : call.key case ≠ key) :
    Alike key (policy.accept case call).2 policy := by
  obtain same | ⟨bound, same⟩ := accept_frame case policy call
  · rw [same]
    exact ⟨rfl, rfl⟩
  · rw [same]
    exact ⟨rfl, (AList.lookup_insert_ne (Ne.symm other)).symm⟩

theorem collect_bindings (policy : DnsAddressPolicy)
    (bindings : AList (fun _ : CacheKey => AddressBinding)) (qtype : Int) (values canonical : List Text)
    (classes : List AddressClass) :
    DnsAddressPolicy.collect { policy with bindings } qtype values canonical classes =
      policy.collect qtype values canonical classes := by
  induction values generalizing canonical classes with
  | nil => rfl
  | cons value values ih =>
    have refuses : ∀ kind, DnsAddressPolicy.refuses { policy with bindings } kind =
        policy.refuses kind := fun kind => by cases kind <;> rfl
    simp only [DnsAddressPolicy.collect, refuses, ih]

/-- A call for the key. -/
theorem alike_accept {key : CacheKey} {call : AcceptCall} {second : DnsAddressPolicy}
    (alike : Alike key policy second) (own : call.key case = key) :
    (second.accept case call).1 = (policy.accept case call).1 ∧ Alike key (policy.accept case call).2
    (second.accept case call).2 := by
  obtain ⟨settings, bound⟩ := alike
  generalize bindingsEq : second.bindings = bindings at settings bound
  subst settings
  subst own
  unfold DnsAddressPolicy.accept
  rw [collect_bindings]
  dsimp only
  rw [bound]
  cases policy.collect call.qtype call.values [] [] with
  | error error => exact ⟨rfl, rfl, bound⟩
  | ok found =>
    dsimp only
    split
    · exact ⟨rfl, rfl, bound⟩
    · cases policy.bindings.lookup (call.key case) with
      | none => exact ⟨rfl, rfl, by simp [AList.lookup_insert]⟩
      | some previous =>
        dsimp only
        split
        · exact ⟨rfl, rfl, bound⟩
        split
        · exact ⟨rfl, rfl, bound⟩
        split
        · exact ⟨rfl, rfl, by simp [AList.lookup_insert]⟩
        · exact ⟨rfl, rfl, bound⟩

/-- The calls for one key go as they would alone. -/
theorem runAccepts_filter {key : CacheKey} {second : DnsAddressPolicy}
    (alike : Alike key policy second) (calls : List AcceptCall) :
    (runAccepts case policy calls).filter (fun entry => entry.1.key case = key) =
      runAccepts case second (calls.filter fun call => call.key case = key) := by
  induction calls generalizing policy second with
  | nil => rfl
  | cons call calls ih =>
    by_cases own : call.key case = key
    · obtain ⟨result, next⟩ := alike_accept alike own
      simp [runAccepts, own, result, ih next]
    · simp [runAccepts, own, ih ((alike_accept_other own).trans alike)]

/-- A set of addresses has what the mode wants of the binding. -/
def Fits (mode : RebindMode) (bound : AddressBinding) (addresses : List Text) : Prop :=
  (mode = .pin → ∀ address, address ∈ addresses ↔ address ∈ bound.values) ∧
    (mode = .sameClass → ∀ kind : AddressClass, kind ∈ classesOf addresses ↔ kind.text ∈ bound.classes)

theorem Fits.same {mode : RebindMode} {first second : AddressBinding} {addresses : List Text}
    (fits : Fits mode first addresses)
    (same : SameBinding mode first second) : Fits mode second addresses :=
  ⟨fun pin => same.1 pin ▸ fits.1 pin, fun sameClass => same.2 sameClass ▸ fits.2 sameClass⟩

theorem text_injective : Function.Injective AddressClass.text := by
  intro first second
  cases first <;> cases second <;> decide

theorem accept_mode (case : CaseMapping) (policy : DnsAddressPolicy) (call : AcceptCall) :
    (policy.accept case call).2.rebindMode = policy.rebindMode := by
  obtain same | ⟨bound, same⟩ := accept_frame case policy call <;> rw [same]

/-- An accepted set is bound to its key, and an earlier binding of the key was the same as far as the
mode goes. -/
theorem accept_binds {call : AcceptCall} {addresses : List Text} (history : policy.rebindMode ≠ .allow)
    (accepted : (policy.accept case call).1 = .ok addresses) (nonempty : addresses ≠ []) :
    ∃ bound, (policy.accept case call).2.bindings.lookup (call.key case) = some bound ∧
    Fits policy.rebindMode bound addresses ∧
      ∀ previous, policy.bindings.lookup (call.key case) = some previous →
      SameBinding policy.rebindMode previous bound := by
  obtain ⟨error, same⟩ | ⟨kinds, -, same⟩ |
    ⟨canonical, kinds, collected, -, result, kept, ⟨mode, -⟩ | next⟩ := accept_cases case policy call
  · rw [same] at accepted
    cases accepted
  · rw [same] at accepted
    cases accepted
    exact absurd rfl nonempty
  · exact absurd mode history
  · cases result.symm.trans accepted
    refine ⟨bindingOf addresses kinds, by rw [next, AList.lookup_insert],
      ⟨fun _ address => ?_, fun _ kind => ?_⟩, kept⟩
    · exact (List.mergeSort_perm ..).mem_iff.symm
    · rw [(collect_addresses collected).2.2, bindingOf, (List.mergeSort_perm ..).mem_iff,
        List.mem_map_of_injective text_injective]

/-- All sets that are accepted for a key fit one binding. -/
theorem runAccepts_bound (key : CacheKey) (history : policy.rebindMode ≠ .allow) (calls : List AcceptCall) :
    ∃ bound, (∀ previous, policy.bindings.lookup key = some previous →
      SameBinding policy.rebindMode previous bound) ∧
      ∀ call addresses, (call, .ok addresses) ∈ runAccepts case policy calls → call.key case = key →
      addresses ≠ [] → Fits policy.rebindMode bound addresses := by
  induction calls generalizing policy with
  | nil =>
    refine ⟨(policy.bindings.lookup key).getD ⟨[], []⟩, fun previous found => ?_, by simp [runAccepts]⟩
    rw [found]
    exact ⟨fun _ => rfl, fun _ => rfl⟩
  | cons call calls ih =>
    have mode := accept_mode case policy call
    obtain ⟨bound, kept, fits⟩ := @ih (policy.accept case call).2 (by rw [mode]; exact history)
    rw [mode] at kept fits
    by_cases binds : call.key case = key ∧ ∃ addresses, (policy.accept case call).1 = .ok addresses ∧
      addresses ≠ []
    · obtain ⟨own, addresses, accepted, nonempty⟩ := binds
      subst own
      obtain ⟨now, stored, fitsNow, before⟩ := accept_binds history accepted nonempty
      have onward := kept now stored
      refine ⟨bound, fun previous found => ?_, fun other values member own some => ?_⟩
      · have back := before previous found
        exact ⟨fun pin => (back.1 pin).trans (onward.1 pin), fun same =>
          (back.2 same).trans (onward.2 same)⟩
      · rcases List.mem_cons.mp member with here | later
        · obtain ⟨rfl, result⟩ := Prod.mk.inj here
          cases accepted.symm.trans result.symm
          exact fitsNow.same onward
        · exact fits other values later own some
    · have unbound : (policy.accept case call).2.bindings.lookup key = policy.bindings.lookup key := by
        by_cases own : call.key case = key
        · obtain ⟨error, same⟩ | ⟨kinds, -, same⟩ | ⟨canonical, kinds, -, nonempty, result, -⟩ :=
            accept_cases case policy call
          · rw [same]
          · rw [same]
          · exact absurd ⟨own, canonical, result, nonempty⟩ binds
        · exact (alike_accept_other own).bound.symm
      rw [unbound] at kept
      refine ⟨bound, kept, fun other values member own some => ?_⟩
      rcases List.mem_cons.mp member with here | later
      · obtain ⟨rfl, result⟩ := Prod.mk.inj here
        exact absurd ⟨own, values, result.symm, some⟩ binds
      · exact fits other values later own some

/-- What is returned is what the loop has collected, in any state of a run. -/
theorem runAccepts_collected {calls : List AcceptCall} {call : AcceptCall} {addresses : List Text}
    (member : (call, .ok addresses) ∈ runAccepts case policy calls) :
    ∃ kinds, policy.collect call.qtype call.values [] [] = .ok (addresses, kinds) := by
  induction calls generalizing policy with
  | nil => cases member
  | cons first calls ih =>
    rcases List.mem_cons.mp member with here | later
    · obtain ⟨rfl, result⟩ := Prod.mk.inj here
      obtain ⟨error, same⟩ | ⟨kinds, collected, same⟩ | ⟨canonical, kinds, collected, -, same, -⟩ :=
        accept_cases case policy call
      · rw [same] at result
        cases result
      · rw [same] at result
        cases result
        exact ⟨kinds, collected⟩
      · cases same.symm.trans result.symm
        exact ⟨kinds, collected⟩
    · obtain ⟨kinds, collected⟩ := ih later
      obtain same | ⟨bound, same⟩ := accept_frame case policy first
      · rw [same] at collected
        exact ⟨kinds, collected⟩
      · rw [same, collect_bindings] at collected
        exact ⟨kinds, collected⟩

end Bindings

/-- The policy over any calls. An address that is accepted is canonical, was among the values and
has a class that is allowed. In either mode all accepted answers for one name and type agree, in
their classes or in their addresses. A refusal remembers nothing, and the names do not influence
each other. Nothing is assumed about the values, which may be no addresses, nor about what the
policy remembers when the calls begin. -/
theorem rebinding_policy (case : CaseMapping) (policy : DnsAddressPolicy) (calls : List AcceptCall) :
    let history := runAccepts case policy calls
    (∀ call addresses, (call, .ok addresses) ∈ history →
      (∃ normals : List Text, call.values.map (normalizeNumericAddress · call.qtype) =
        normals.map some ∧ addresses = normals.eraseDups) ∧
      ∀ address ∈ addresses, ∃ value ∈ call.values, ∃ bytes, addressBytes (strip value) = some bytes ∧
        addressBytes address = some bytes ∧ policy.Allows (bytesClass bytes)) ∧
    (policy.rebindMode = .sameClass → ∀ first one second two, (first, .ok one) ∈ history →
      (second, .ok two) ∈ history →
      first.key case = second.key case → one ≠ [] → two ≠ [] → ∀ kind, kind ∈ classesOf one ↔
        kind ∈ classesOf two) ∧
    (policy.rebindMode = .pin → ∀ first one second two, (first, .ok one) ∈ history →
      (second, .ok two) ∈ history →
      first.key case = second.key case → one ≠ [] → two ≠ [] → ∀ address, address ∈ one ↔ address ∈ two) ∧
    (∀ (state : DnsAddressPolicy) call error, (state.accept case call).1 = .error error →
      (state.accept case call).2.bindings = state.bindings) ∧
    ∀ key, history.filter (fun entry => entry.1.key case = key) =
      runAccepts case policy (calls.filter fun call => call.key case = key) := by
  intro history
  refine ⟨fun call addresses member => ?_,
    fun mode first one second two here there key some some' kind => ?_,
    fun mode first one second two here there key some some' address => ?_,
    fun state call error raised => ?_, fun key => runAccepts_filter ⟨rfl, rfl⟩ calls⟩
  · obtain ⟨kinds, collected⟩ := runAccepts_collected member
    exact ⟨(collect_addresses collected).1, (collect_addresses collected).2.1⟩
  · obtain ⟨bound, -, fits⟩ := @runAccepts_bound case policy (first.key case) (by rw [mode]; decide) calls
    rw [(fits first one here rfl some).2 mode, (fits second two there key.symm some').2 mode]
  · obtain ⟨bound, -, fits⟩ := @runAccepts_bound case policy (first.key case) (by rw [mode]; decide) calls
    rw [(fits first one here rfl some).1 mode, (fits second two there key.symm some').1 mode]
  · obtain ⟨error, same⟩ | ⟨kinds, -, same⟩ | ⟨canonical, kinds, -, -, same, -⟩ :=
      accept_cases case state call
    · rw [same]
    · rw [same]
    · cases same.symm.trans raised

end Dns
end PccGateway
