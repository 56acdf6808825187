import PccGateway.Tls.Alpn
import PccGateway.Tls.Sni
import Mathlib.Data.List.Forall2
import Mathlib.Data.List.Nodup
import Mathlib.Data.List.Pairwise

namespace PccGateway
variable {letters : Letters} {config : TlsConfig} {normalized : Text} {certificates : List TlsCertificate}

/-- The loop of `TlsCertificate.__init__` over the names. -/
def normalizeServerNames (letters : Letters) : List Text → List Text → Except String (List Text)
  | [], names => .ok names
  | name :: rest, names =>
    match normalizeSniName letters name true with
    | .error message => .error message
    | .ok normalized =>
      if normalized ∈ names then .error "duplicate SNI name in certificate"
      else normalizeServerNames letters rest (names ++ [normalized])

/-- `TlsCertificate(identifier, certificate, private_key, server_names)`; what it raises is a
`ValueError`. -/
def TlsCertificate.create (letters : Letters) (identifier certificate privateKey : Text)
    (serverNames : List Text) :
    Except String TlsCertificate :=
  if identifier = [] ∨ 64 < identifier.length then
    .error "TLS certificate identifier is missing or too long"
  else if certificate = [] ∨ privateKey = [] then .error "TLS certificate and private key are required"
  else
    match normalizeServerNames letters serverNames [] with
    | .error message => .error message
    | .ok names => .ok ⟨identifier, names⟩

def addServerNames : List Text → List Text → Except String (List Text)
  | [], names => .ok names
  | name :: rest, names =>
    if name ∈ names then .error "duplicate SNI name across certificates" else addServerNames rest
      (names ++ [name])

/-- The loop of `TlsConfig.__init__` over the additional certificates. -/
def checkCertificates : List TlsCertificate → List Text → List Text → Except String Unit
  | [], _, _ => .ok ()
  | item :: rest, identifiers, names =>
    if item.identifier ∈ identifiers then .error "duplicate TLS certificate identifier"
    else
      match addServerNames item.serverNames names with
      | .error message => .error message
      | .ok names => checkCertificates rest (identifiers ++ [item.identifier]) names

/-- The default certificate that the arguments of `TlsConfig` give. -/
def chooseDefault (letters : Letters) (certificate privateKey : Text) :
    Option TlsCertificate → Except String TlsCertificate
  | some default => .ok default
  | none => TlsCertificate.create letters "default".toList certificate privateKey []

/-- `TlsConfig.__init__` on arguments of the types that it expects. -/
def TlsConfig.create (letters : Letters) (certificate privateKey : Text) (alpn : List Text)
    (requireClientCertificate : Bool)
    (sniCertificates : List TlsCertificate) (rejectUnknownSni : Bool)
    (defaultCertificate : Option TlsCertificate) (clientCa : Text) :
    Except String TlsConfig :=
  if defaultCertificate.isSome ∧ (certificate ≠ [] ∨ privateKey ≠ []) then
    .error "choose default_certificate or certificate/private_key"
  else do
    let default ← chooseDefault letters certificate privateKey defaultCertificate
    if 63 < sniCertificates.length then .error "too many SNI certificates"
    else
      checkCertificates sniCertificates [default.identifier] []
      let alpn ← validateAlpn alpn
      if '\x00' ∈ clientCa then .error "TLS client CA path must be a NUL-free string"
      else if requireClientCertificate ∧ clientCa = [] then
        .error "client certificate verification requires client CA"
      else return ⟨default, sniCertificates, alpn, rejectUnknownSni⟩

/-- A configuration that the constructor made. -/
def TlsConfig.Made (letters : Letters) (config : TlsConfig) : Prop :=
  ∃ certificate privateKey alpn requireClientCertificate sniCertificates rejectUnknownSni
    defaultCertificate clientCa,
    TlsConfig.create letters certificate privateKey alpn requireClientCertificate sniCertificates
      rejectUnknownSni
      defaultCertificate clientCa = .ok config

/-- The patterns that cover `name` without being it: `*.` and what follows its first label. -/
def IsWildcardOf (name pattern : Text) : Prop :=
  ∃ label suffix, label ≠ [] ∧ '.' ∉ label ∧ name = label ++ '.' :: suffix ∧ pattern = '*' :: '.' :: suffix

def TlsCertificate.Covers (certificate : TlsCertificate) (name : Text) : Prop :=
  ∃ pattern ∈ certificate.serverNames, IsWildcardOf name pattern

theorem IsWildcardOf.unique {name first second : Text} (one : IsWildcardOf name first)
    (two : IsWildcardOf name second) : first = second := by
  obtain ⟨label, suffix, -, plain, rfl, rfl⟩ := one
  obtain ⟨label', suffix', -, plain', same, rfl⟩ := two
  have cut (label suffix : Text) (plain : '.' ∉ label) :
      (label ++ '.' :: suffix).dropWhile (· ≠ '.') = '.' :: suffix := by
    rw [List.dropWhile_append_of_pos]
    · simp
    · intro c member
      simp only [ne_eq, decide_not, Bool.not_eq_eq_eq_not, Bool.not_true, decide_eq_false_iff_not]
      rintro rfl
      exact plain member
  have tails := congrArg (List.dropWhile (· ≠ '.')) same
  rw [cut label suffix plain, cut label' suffix' plain'] at tails
  rw [tails]

theorem sniMatch_plain {pattern : Text} (plain : ['*', '.'].isPrefixOf pattern = false) :
    sniMatch pattern normalized = if pattern = normalized then .exact else .no := by
  unfold sniMatch
  rw [plain]
  rfl

theorem sniMatch_starred (normalized suffix : Text) :
    (∃ label, label ≠ [] ∧ '.' ∉ label ∧ normalized = label ++ '.' :: suffix) ∧
        sniMatch ('*' :: '.' :: suffix) normalized = .wildcard (suffix.length + 1) ∨
      (¬ ∃ label, label ≠ [] ∧ '.' ∉ label ∧ normalized = label ++ '.' :: suffix) ∧
      sniMatch ('*' :: '.' :: suffix) normalized = .no := by
  have starred : ['*', '.'].isPrefixOf ('*' :: '.' :: suffix) = true := by simp
  unfold sniMatch
  simp only [starred, Bool.not_true, Bool.false_eq_true, if_false, List.drop_succ_cons, List.drop_zero]
  cases ends : ('.' :: suffix).isSuffixOf normalized with
  | false =>
    refine .inr ⟨?_, rfl⟩
    rintro ⟨label, -, -, rfl⟩
    have ending : ('.' :: suffix).isSuffixOf (label ++ '.' :: suffix) = true :=
      List.isSuffixOf_iff_suffix.mpr ⟨label, rfl⟩
    rw [ending] at ends
    cases ends
  | true =>
    obtain ⟨label, rfl⟩ := List.isSuffixOf_iff_suffix.mp ends
    have cut : (label ++ '.' :: suffix).take
        ((label ++ '.' :: suffix).length - ('.' :: suffix).length) = label := by
      rw [List.length_append, Nat.add_sub_cancel, List.take_left]
    simp only [cut, Bool.not_true, Bool.false_eq_true, if_false]
    split
    · rename_i refused
      refine .inr ⟨?_, rfl⟩
      rintro ⟨label', nonempty, plain, same⟩
      rw [List.append_cancel_right same] at refused
      exact refused.elim nonempty plain
    · rename_i labelled
      exact .inl ⟨⟨label, fun empty => labelled (.inl empty), fun dotted =>
        labelled (.inr dotted), rfl⟩, rfl⟩

theorem starred_iff {pattern : Text} :
    ['*', '.'].isPrefixOf pattern = true ↔ ∃ suffix, pattern = '*' :: '.' :: suffix := by
  rw [List.isPrefixOf_iff_prefix]
  constructor
  · rintro ⟨suffix, rfl⟩
    exact ⟨suffix, rfl⟩
  · rintro ⟨suffix, rfl⟩
    exact ⟨suffix, rfl⟩

theorem sniMatch_exact_iff {pattern : Text} (plain : '*' ∉ normalized) :
    sniMatch pattern normalized = .exact ↔ pattern = normalized := by
  cases starred : ['*', '.'].isPrefixOf pattern with
  | false =>
    rw [sniMatch_plain starred]
    split <;> simp_all
  | true =>
    obtain ⟨suffix, rfl⟩ := starred_iff.mp starred
    constructor
    · rcases sniMatch_starred normalized suffix with ⟨-, matched⟩ | ⟨-, matched⟩ <;> rw [matched] <;> nofun
    · rintro rfl
      simp at plain

theorem sniMatch_wildcard_iff {pattern : Text} :
    (∃ length, sniMatch pattern normalized = .wildcard length) ↔ IsWildcardOf normalized pattern := by
  cases starred : ['*', '.'].isPrefixOf pattern with
  | false =>
    rw [sniMatch_plain starred]
    constructor
    · rintro ⟨length, matched⟩
      split at matched <;> cases matched
    · rintro ⟨label, suffix, -, -, -, rfl⟩
      simp at starred
  | true =>
    obtain ⟨suffix, rfl⟩ := starred_iff.mp starred
    rcases sniMatch_starred normalized suffix with ⟨⟨label, nonempty, plain, same⟩, matched⟩ |
      ⟨none, matched⟩
    · exact ⟨fun _ => ⟨label, suffix, nonempty, plain, same, rfl⟩, fun _ => ⟨_, matched⟩⟩
    · rw [matched]
      refine ⟨fun ⟨_, wrong⟩ => (by cases wrong), ?_⟩
      rintro ⟨label, suffix', nonempty, plain, same, equal⟩
      cases equal
      exact absurd ⟨label, nonempty, plain, same⟩ none

/-- What `select_certificate` finds among the certificates that it searches. -/
inductive Finds (certificates : List TlsCertificate) (name : Text) : Option TlsCertificate → Prop
  | exact {certificate : TlsCertificate} :
      certificate ∈ certificates → name ∈ certificate.serverNames →
      Finds certificates name (some certificate)
  | wildcard {certificate : TlsCertificate} :
      certificate ∈ certificates → (∀ other ∈ certificates, name ∉ other.serverNames) →
      certificate.Covers name → Finds certificates name (some certificate)
  | nothing : (∀ other ∈ certificates, name ∉ other.serverNames) →
      (∀ other ∈ certificates, ¬ other.Covers name) → Finds certificates name none

/-- The two loops: an exact pattern ends them, else the first wildcard stays unless a longer one follows. -/
theorem selectMatch_spec (patterns : List (TlsCertificate × Text)) (wildcard : Option TlsCertificate)
    (length : Int) :
    (∃ found ∈ patterns, sniMatch found.2 normalized = .exact ∧
      (selectMatch normalized patterns wildcard length).1 = some found.1) ∨
      (∀ other ∈ patterns, sniMatch other.2 normalized ≠ .exact) ∧
      (selectMatch normalized patterns wildcard length).1 = none ∧
        ((∃ found ∈ patterns, ∃ size, sniMatch found.2 normalized = .wildcard size ∧
            (selectMatch normalized patterns wildcard length).2 = some found.1) ∨
          (∀ other ∈ patterns, ∀ size : Nat, sniMatch other.2 normalized = .wildcard size →
            (size : Int) ≤ length) ∧
            (selectMatch normalized patterns wildcard length).2 = wildcard) := by
  induction patterns generalizing wildcard length with
  | nil => exact .inr ⟨by simp, rfl, .inr ⟨by simp, rfl⟩⟩
  | cons first rest ih =>
    obtain ⟨certificate, pattern⟩ := first
    cases matched : sniMatch pattern normalized with
    | exact =>
      exact .inl ⟨(certificate, pattern), List.mem_cons_self .., matched, by rw [selectMatch, matched]⟩
    | no =>
      have skip : selectMatch normalized ((certificate, pattern) :: rest) wildcard length =
          selectMatch normalized rest wildcard length := by
        rw [selectMatch, matched]
      rw [skip]
      rcases ih wildcard length with ⟨found, member, exact⟩ |
        ⟨others, none, ⟨found, member, covered⟩ | ⟨shorter, kept⟩⟩
      · exact .inl ⟨found, List.mem_cons_of_mem _ member, exact⟩
      · exact .inr ⟨List.forall_mem_cons.mpr ⟨by simp [matched], others⟩, none,
          .inl ⟨found, List.mem_cons_of_mem _ member, covered⟩⟩
      · exact .inr ⟨List.forall_mem_cons.mpr ⟨by simp [matched], others⟩, none,
          .inr ⟨List.forall_mem_cons.mpr ⟨by simp [matched], shorter⟩, kept⟩⟩
    | wildcard size =>
      have skip : selectMatch normalized ((certificate, pattern) :: rest) wildcard length =
          if length < size then selectMatch normalized rest (some certificate) size
            else selectMatch normalized rest wildcard length := by
        rw [selectMatch, matched]
      rw [skip]
      split
      · rcases ih (some certificate) size with ⟨found, member, exact⟩ |
          ⟨others, none, ⟨found, member, covered⟩ | ⟨-, kept⟩⟩
        · exact .inl ⟨found, List.mem_cons_of_mem _ member, exact⟩
        · exact .inr ⟨List.forall_mem_cons.mpr ⟨by simp [matched], others⟩, none,
            .inl ⟨found, List.mem_cons_of_mem _ member, covered⟩⟩
        · exact .inr ⟨List.forall_mem_cons.mpr ⟨by simp [matched], others⟩, none,
            .inl ⟨_, List.mem_cons_self .., size, matched, kept⟩⟩
      · rename_i longer
        rcases ih wildcard length with ⟨found, member, exact⟩ |
          ⟨others, none, ⟨found, member, covered⟩ | ⟨shorter, kept⟩⟩
        · exact .inl ⟨found, List.mem_cons_of_mem _ member, exact⟩
        · exact .inr ⟨List.forall_mem_cons.mpr ⟨by simp [matched], others⟩, none,
            .inl ⟨found, List.mem_cons_of_mem _ member, covered⟩⟩
        · refine .inr ⟨List.forall_mem_cons.mpr ⟨by simp [matched], others⟩, none,
            .inr ⟨List.forall_mem_cons.mpr ⟨fun other same => ?_, shorter⟩, kept⟩⟩
          rw [matched] at same
          cases same
          exact Int.not_lt.mp longer

/-- The name of a client is normalised without a wildcard. -/
theorem normalizeSniName_plain {serverName : Text}
    (named : normalizeSniName letters serverName false = .ok normalized) : '*' ∉ normalized := by
  unfold normalizeSniName at named
  simp only [Bool.not_false, and_true] at named
  split at named
  · cases named
  · split at named
    · cases named
    · split at named
      · cases named
      · rename_i plain
        have unstarred : ['*', '.'].isPrefixOf
            (letters.lower (serverName.rdropWhile (· == '.'))) = false := by
          rw [Bool.eq_false_iff]
          intro starred
          obtain ⟨suffix, same⟩ := starred_iff.mp starred
          exact plain (by simp [same])
        simp only [plain, false_and, if_false, unstarred, Bool.false_eq_true] at named
        split at named
        · cases named
        · cases named
          exact plain

theorem selectCertificate_finds {serverName : Text} (given : serverName ≠ [])
    (named : normalizeSniName letters serverName false = .ok normalized) :
    ∃ found, Finds config.sniCertificates normalized found ∧ config.selectCertificate letters serverName =
      .ok (found.or (if config.rejectUnknownSni then none else some config.defaultCertificate)) := by
  have plain := normalizeSniName_plain named
  have listed (certificate : TlsCertificate) (pattern : Text) :
      (certificate, pattern) ∈ (config.sniCertificates.flatMap fun certificate =>
      certificate.serverNames.map fun pattern => (certificate, pattern)) ↔
        certificate ∈ config.sniCertificates ∧ pattern ∈ certificate.serverNames := by
    simp only [List.mem_flatMap, List.mem_map, Prod.mk.injEq]
    constructor
    · rintro ⟨_, member, _, inside, rfl, rfl⟩
      exact ⟨member, inside⟩
    · exact fun ⟨member, inside⟩ => ⟨certificate, member, pattern, inside, rfl, rfl⟩
  unfold TlsConfig.selectCertificate
  rw [if_neg given, named]
  simp only
  rcases selectMatch_spec (config.sniCertificates.flatMap fun certificate =>
    certificate.serverNames.map fun pattern => (certificate, pattern)) none (-1)
    with ⟨⟨certificate, pattern⟩, member, exact, first⟩ | ⟨others, none, covered⟩
  · obtain ⟨member, inside⟩ := (listed _ _).mp member
    have same : pattern = normalized := (sniMatch_exact_iff plain).mp exact
    rw [same] at inside
    refine ⟨some certificate, .exact member inside, ?_⟩
    split <;> simp_all
  · have unlisted : ∀ other ∈ config.sniCertificates, normalized ∉ other.serverNames :=
      fun other member inside =>
      others (other, normalized) ((listed _ _).mpr ⟨member, inside⟩) ((sniMatch_exact_iff plain).mpr rfl)
    rcases covered with ⟨⟨certificate, pattern⟩, member, size, matched, second⟩ | ⟨shorter, kept⟩
    · obtain ⟨member, inside⟩ := (listed _ _).mp member
      refine ⟨some certificate,
        .wildcard member unlisted ⟨pattern, inside, sniMatch_wildcard_iff.mp ⟨size, matched⟩⟩, ?_⟩
      split <;> simp_all
    · refine ⟨_, .nothing unlisted fun other member ⟨pattern, inside, covers⟩ => ?_, ?_⟩
      · obtain ⟨size, matched⟩ := sniMatch_wildcard_iff.mpr covers
        have := shorter (other, pattern) ((listed _ _).mpr ⟨member, inside⟩) size matched
        omega
      · split <;> simp_all

theorem addServerNames_ok {listed names all : List Text} (run : addServerNames listed names = .ok all)
    (distinct : names.Nodup) :
    all = names ++ listed ∧ all.Nodup := by
  induction listed generalizing names with
  | nil =>
    cases run
    exact ⟨(List.append_nil _).symm, distinct⟩
  | cons name rest ih =>
    unfold addServerNames at run
    split at run
    · cases run
    · rename_i fresh
      obtain ⟨rfl, nodup⟩ :=
        ih run
        (by simpa [List.nodup_append, fresh] using ⟨distinct, fun _ inside same => fresh (same ▸ inside)⟩)
      exact ⟨by simp, nodup⟩

theorem checkCertificates_ok {identifiers names : List Text}
    (run : checkCertificates certificates identifiers names = .ok ())
    (distinct : names.Nodup) : (names ++ certificates.flatMap (·.serverNames)).Nodup := by
  induction certificates generalizing identifiers names with
  | nil => simpa using distinct
  | cons item rest ih =>
    unfold checkCertificates at run
    split at run
    · cases run
    · split at run
      · cases run
      · rename_i all added
        obtain ⟨rfl, nodup⟩ := addServerNames_ok added distinct
        simpa using ih run nodup

/-- No name is listed twice among the additional certificates. -/
theorem TlsConfig.Made.distinct (made : config.Made letters) :
    (config.sniCertificates.flatMap (·.serverNames)).Nodup := by
  obtain ⟨certificate, privateKey, alpn, requireClientCertificate, sniCertificates, rejectUnknownSni,
    defaultCertificate, clientCa, run⟩ := made
  unfold TlsConfig.create at run
  split at run
  · cases run
  · obtain ⟨default, -, run⟩ := bind_eq_ok.mp run
    split at run
    · cases run
    · obtain ⟨_, checked, run⟩ := bind_eq_ok.mp run
      obtain ⟨protocols, -, run⟩ := bind_eq_ok.mp run
      split at run
      · cases run
      · split at run
        · cases run
        · cases run
          simpa using checkCertificates_ok checked List.nodup_nil

theorem eq_of_listed {name : Text} (distinct : (certificates.flatMap (·.serverNames)).Nodup)
    {first second : TlsCertificate}
    (one : first ∈ certificates) (two : second ∈ certificates) (listed : name ∈ first.serverNames)
    (also : name ∈ second.serverNames) :
    first = second := by
  by_contra other
  let Apart (first second : TlsCertificate) : Prop := ∀ name ∈ first.serverNames, name ∉ second.serverNames
  have symmetric : Std.Symm Apart := ⟨fun _ _ apart name second first => apart name first second⟩
  have apart : certificates.Pairwise Apart :=
    (List.nodup_flatMap.mp distinct).2.imp fun disjoint name first second => disjoint first second
  exact apart.forall one two other name listed also

/-- The same certificate, with its names perhaps in another order. -/
def TlsCertificate.Same (first second : TlsCertificate) : Prop :=
  first.identifier = second.identifier ∧ first.serverNames.Perm second.serverNames

/-- The same configuration, with its certificates and their names perhaps in another order. -/
structure TlsConfig.Reordered (config other : TlsConfig) : Prop where
  default : config.defaultCertificate.Same other.defaultCertificate
  additional : ∃ order,
    config.sniCertificates.Perm order ∧ List.Forall₂ TlsCertificate.Same order other.sniCertificates
  reject : config.rejectUnknownSni = other.rejectUnknownSni

theorem TlsConfig.Reordered.back {config other : TlsConfig} (reordered : config.Reordered other)
    {certificate : TlsCertificate} (member : certificate ∈ other.sniCertificates) :
    ∃ original ∈ config.sniCertificates, original.Same certificate := by
  obtain ⟨order, perm, same⟩ := reordered.additional
  obtain ⟨index, inside, rfl⟩ := List.mem_iff_getElem.mp member
  have length := same.length_eq
  exact ⟨order[index], perm.mem_iff.mpr (List.getElem_mem _),
    (List.forall₂_iff_get.mp same).2 index (by omega) inside⟩

theorem TlsConfig.Reordered.forth {config other : TlsConfig} (reordered : config.Reordered other)
    {certificate : TlsCertificate} (member : certificate ∈ config.sniCertificates) :
    ∃ moved ∈ other.sniCertificates, certificate.Same moved := by
  obtain ⟨order, perm, same⟩ := reordered.additional
  obtain ⟨index, inside, rfl⟩ := List.mem_iff_getElem.mp (perm.mem_iff.mp member)
  have length := same.length_eq
  exact ⟨other.sniCertificates[index], List.getElem_mem _,
    (List.forall₂_iff_get.mp same).2 index inside (by omega)⟩

theorem TlsCertificate.Same.covers {first second : TlsCertificate} (same : first.Same second)
    {name : Text} (covers : first.Covers name) :
    second.Covers name := by
  obtain ⟨pattern, listed, covered⟩ := covers
  exact ⟨pattern, same.2.mem_iff.mp listed, covered⟩

theorem TlsCertificate.Same.symm {first second : TlsCertificate} (same : first.Same second) :
    second.Same first :=
  ⟨same.1.symm, same.2.symm⟩

/-- What is found does not depend on the order. -/
theorem Finds.same {other : TlsConfig} {name : Text} {found found' : Option TlsCertificate}
    (distinct : (config.sniCertificates.flatMap (·.serverNames)).Nodup)
    (reordered : config.Reordered other) (finds : Finds config.sniCertificates name found)
    (finds' : Finds other.sniCertificates name found') :
    Option.Rel TlsCertificate.Same found found' := by
  cases finds with
  | @exact certificate member listed =>
    obtain ⟨moved, inside, same⟩ := reordered.forth member
    cases finds' with
    | @exact certificate' member' listed' =>
      obtain ⟨original, back, same'⟩ := reordered.back member'
      rw [eq_of_listed distinct member back listed (same'.2.mem_iff.mpr listed')]
      exact .some same'
    | wildcard _ unlisted => exact absurd (same.2.mem_iff.mp listed) (unlisted moved inside)
    | nothing unlisted => exact absurd (same.2.mem_iff.mp listed) (unlisted moved inside)
  | @wildcard certificate member unlisted covers =>
    obtain ⟨moved, inside, same⟩ := reordered.forth member
    cases finds' with
    | @exact certificate' member' listed' =>
      obtain ⟨original, back, same'⟩ := reordered.back member'
      exact absurd (same'.2.mem_iff.mpr listed') (unlisted original back)
    | @wildcard certificate' member' _ covers' =>
      obtain ⟨original, back, same'⟩ := reordered.back member'
      obtain ⟨pattern, listed, covered⟩ := covers
      obtain ⟨pattern', listed', covered'⟩ := covers'
      rw [covered'.unique covered] at listed'
      rw [eq_of_listed distinct member back listed (same'.2.mem_iff.mpr listed')]
      exact .some same'
    | nothing _ uncovered => exact absurd (same.covers covers) (uncovered moved inside)
  | nothing unlisted uncovered =>
    cases finds' with
    | @exact certificate' member' listed' =>
      obtain ⟨original, back, same'⟩ := reordered.back member'
      exact absurd (same'.2.mem_iff.mpr listed') (unlisted original back)
    | @wildcard certificate' member' _ covers' =>
      obtain ⟨original, back, same'⟩ := reordered.back member'
      exact absurd (same'.symm.covers covers') (uncovered original back)
    | nothing => exact .none

def TlsConfig.configured (config : TlsConfig) : List TlsCertificate :=
  config.defaultCertificate :: config.sniCertificates

/-- The certificate that a client name is to be given: one that lists it, else one with a wildcard for
it, else the default. -/
structure Selects (config : TlsConfig) (name : Text) (selected : Option TlsCertificate) : Prop where
  exact : (∃ certificate ∈ config.configured, name ∈ certificate.serverNames) →
    ∃ certificate ∈ config.configured, name ∈ certificate.serverNames ∧ selected = some certificate
  wildcard : (∀ certificate ∈ config.configured, name ∉ certificate.serverNames) →
    (∃ certificate ∈ config.configured, certificate.Covers name) →
    ∃ certificate ∈ config.configured, certificate.Covers name ∧ selected = some certificate
  fallback : (∀ certificate ∈ config.configured, name ∉ certificate.serverNames) →
    (∀ certificate ∈ config.configured, ¬ certificate.Covers name) →
    selected = if config.rejectUnknownSni then none else some config.defaultCertificate

/-- The names that the default certificate carries decide nothing: an additional certificate lists the
name, or the name ends at the default anyway, or the default neither lists it nor is alone in covering
it. -/
def DefaultUndecisive (config : TlsConfig) (name : Text) : Prop :=
  (∃ certificate ∈ config.sniCertificates, name ∈ certificate.serverNames) ∨
    (config.rejectUnknownSni = false ∧ ∀ certificate ∈ config.sniCertificates, ¬ certificate.Covers name) ∨
    name ∉ config.defaultCertificate.serverNames ∧
      ((∃ certificate ∈ config.sniCertificates, certificate.Covers name) ∨
        ¬ config.defaultCertificate.Covers name)

theorem Selects.of_listed {name : Text} {certificate : TlsCertificate}
    (member : certificate ∈ config.configured)
    (listed : name ∈ certificate.serverNames) : Selects config name (some certificate) where
  exact := fun _ => ⟨certificate, member, listed, rfl⟩
  wildcard := fun unlisted => absurd listed (unlisted certificate member)
  fallback := fun unlisted => absurd listed (unlisted certificate member)

theorem Selects.of_covered {name : Text} {certificate : TlsCertificate}
    (member : certificate ∈ config.configured)
    (unlisted : ∀ certificate ∈ config.configured, name ∉ certificate.serverNames)
    (covers : certificate.Covers name) :
    Selects config name (some certificate) where
  exact := fun ⟨other, inside, listed⟩ => absurd listed (unlisted other inside)
  wildcard := fun _ _ => ⟨certificate, member, covers, rfl⟩
  fallback := fun _ uncovered => absurd covers (uncovered certificate member)

theorem selects_iff {name : Text} {found : Option TlsCertificate}
    (finds : Finds config.sniCertificates name found) :
    Selects config name (found.or (if config.rejectUnknownSni then
      none else some config.defaultCertificate)) ↔ DefaultUndecisive config name := by
  cases finds with
  | @exact certificate member listed =>
    exact ⟨fun _ => .inl ⟨certificate, member, listed⟩, fun _ =>
      .of_listed (List.mem_cons_of_mem _ member) listed⟩
  | @wildcard certificate member unlisted covers =>
    constructor
    · intro selects
      refine .inr (.inr ⟨fun listed => ?_, .inl ⟨certificate, member, covers⟩⟩)
      obtain ⟨other, -, also, same⟩ := selects.exact ⟨_, List.mem_cons_self .., listed⟩
      cases same
      exact unlisted certificate member also
    · rintro (⟨other, inside, listed⟩ | ⟨-, uncovered⟩ | ⟨absent, -⟩)
      · exact absurd listed (unlisted other inside)
      · exact absurd covers (uncovered certificate member)
      · exact .of_covered (List.mem_cons_of_mem _ member)
          (List.forall_mem_cons.mpr ⟨absent, unlisted⟩) covers
  | nothing unlisted uncovered =>
    rw [Option.none_or]
    constructor
    · intro selects
      cases reject : config.rejectUnknownSni with
      | false => exact .inr (.inl ⟨reject, uncovered⟩)
      | true =>
        rw [reject, if_pos rfl] at selects
        have absent : name ∉ config.defaultCertificate.serverNames := fun listed => by
          obtain ⟨_, _, _, wrong⟩ := selects.exact ⟨_, List.mem_cons_self .., listed⟩
          cases wrong
        refine .inr (.inr ⟨absent, .inr fun covers => ?_⟩)
        obtain ⟨_, _, _, wrong⟩ := selects.wildcard (List.forall_mem_cons.mpr ⟨absent, unlisted⟩)
          ⟨_, List.mem_cons_self .., covers⟩
        cases wrong
    · intro undecisive
      by_cases listed : name ∈ config.defaultCertificate.serverNames
      · rcases undecisive with ⟨other, inside, also⟩ | ⟨accept, -⟩ | ⟨absent, -⟩
        · exact absurd also (unlisted other inside)
        · rw [accept]
          exact .of_listed (List.mem_cons_self ..) listed
        · exact absurd listed absent
      · have absent : ∀ certificate ∈ config.configured, name ∉ certificate.serverNames :=
          List.forall_mem_cons.mpr ⟨listed, unlisted⟩
        by_cases covers : config.defaultCertificate.Covers name
        · rcases undecisive with ⟨other, inside, also⟩ | ⟨accept, -⟩ | ⟨-, ⟨other, inside, also⟩ | uncovers⟩
          · exact absurd also (unlisted other inside)
          · rw [accept]
            exact .of_covered (List.mem_cons_self ..) absent covers
          · exact absurd also (uncovered other inside)
          · exact absurd covers uncovers
        · refine ⟨fun ⟨other, inside, also⟩ => absurd also (absent other inside),
            fun _ ⟨other, inside, also⟩ => ?_, fun _ _ => rfl⟩
          rcases List.mem_cons.mp inside with rfl | inside
          · exact absurd also covers
          · exact absurd also (uncovered other inside)

/-- Only the letters without their case and without trailing dots are looked at. -/
theorem normalizeSniName_alike {first second : Text}
    (alike : letters.lower (first.rdropWhile (· == '.')) = letters.lower (second.rdropWhile (· == '.')))
    (allowWildcard : Bool) :
    normalizeSniName letters first allowWildcard = normalizeSniName letters second allowWildcard := by
  unfold normalizeSniName
  rw [alike]

/-- A valid client name is given the right certificate, whatever the order of the certificates and
of their names and however it is written, exactly when the names of the default certificate decide
nothing: they are never searched. What is assumed is that the configuration was accepted, that there
is a client name, and that it is a valid one. Nothing is assumed about the number of certificates or
about names that several of them share. -/
theorem sni_selection_iff (letters : Letters) (config : TlsConfig) (serverName normalized : Text)
    (made : config.Made letters)
    (given : serverName ≠ []) (named : normalizeSniName letters serverName false = .ok normalized) :
    (∃ selected, config.selectCertificate letters serverName = .ok selected ∧
      Selects config normalized selected ∧
      (∀ other, config.Reordered other → ∃ selected', other.selectCertificate letters serverName =
        .ok selected' ∧ Option.Rel TlsCertificate.Same selected selected') ∧
      ∀ written, written ≠ [] → letters.lower (written.rdropWhile (· == '.')) =
        letters.lower (serverName.rdropWhile (· == '.')) →
        config.selectCertificate letters written = .ok selected) ↔ DefaultUndecisive config normalized := by
  obtain ⟨found, finds, run⟩ := @selectCertificate_finds letters config _ _ given named
  rw [← selects_iff finds]
  constructor
  · rintro ⟨selected, same, selects, -, -⟩
    rw [run] at same
    cases same
    exact selects
  · intro selects
    refine ⟨_, run, selects, fun other reordered => ?_, fun written nonempty alike => ?_⟩
    · obtain ⟨found', finds', run'⟩ := @selectCertificate_finds letters other _ _ given named
      refine ⟨_, run', ?_⟩
      have related := finds.same made.distinct reordered finds'
      rw [← reordered.reject]
      cases related with
      | some same => exact .some same
      | none =>
        rw [Option.none_or, Option.none_or]
        split
        · exact .none
        · exact .some reordered.default
    · unfold TlsConfig.selectCertificate
      rw [if_neg nonempty, normalizeSniName_alike alike]
      unfold TlsConfig.selectCertificate at run
      rwa [if_neg given] at run

/-- Python's letters where only ASCII is written. -/
def wireLetters : Letters := ⟨Char.isAlphanum, upper, lower⟩

/-- A default certificate with no names, one for a name and one for a wildcard. -/
def namedConfig : TlsConfig where
  defaultCertificate := ⟨"default".toList, []⟩
  sniCertificates := [⟨"api".toList, ["api.test".toList]⟩, ⟨"wildcard".toList, ["*.service.test".toList]⟩]
  alpn := ["h2".toList]
  rejectUnknownSni := true

theorem sni_selection_iff_named :
    ∃ selected, namedConfig.selectCertificate wireLetters "API.test.".toList = .ok selected ∧
    Selects namedConfig "api.test".toList selected := by
  have made : namedConfig.Made wireLetters := ⟨[], [], ["h2".toList], false,
    namedConfig.sniCertificates, true, some ⟨"default".toList, []⟩, [], by decide⟩
  have named : normalizeSniName wireLetters "API.test.".toList false = .ok "api.test".toList := by
    decide
  have listed : DefaultUndecisive namedConfig "api.test".toList :=
    .inl ⟨_, List.mem_cons_self .., by decide⟩
  obtain ⟨selected, run, selects, -, -⟩ :=
    (sni_selection_iff wireLetters namedConfig _ _ made (by decide) named).mpr listed
  exact ⟨selected, run, selects⟩

/-- The only certificate lists the name, and unknown names are rejected. -/
def ownName : TlsConfig where
  defaultCertificate := ⟨"default".toList, ["www.test".toList]⟩
  sniCertificates := []
  alpn := ["h2".toList]
  rejectUnknownSni := true

/-- The name of the default certificate is rejected as unknown. -/
theorem default_name_rejected : ownName.Made wireLetters ∧
    TlsCertificate.create wireLetters "default".toList "cert".toList "key".toList
      ["www.test".toList] = .ok ownName.defaultCertificate ∧
    ownName.selectCertificate wireLetters "www.test".toList = .ok none ∧
    ¬ Selects ownName "www.test".toList none := by
  refine ⟨⟨[], [], ["h2".toList], false, [], true, some ownName.defaultCertificate, [],
    by decide⟩, by decide,
    by decide, fun selects => ?_⟩
  obtain ⟨_, _, _, wrong⟩ :=
    selects.exact ⟨ownName.defaultCertificate, List.mem_cons_self .., by decide⟩
  cases wrong

end PccGateway
