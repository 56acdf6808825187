import PccGateway.Dns.Canonical
import PccGateway.Dns.Driver
import PccGateway.Lib.Words

namespace PccGateway
namespace Dns
open Words Search

/-- A character at which `str.splitlines()` ends a line. -/
def isLineBreak (c : Char) : Bool :=
  let n := c.toNat
  (10 ≤ n && n ≤ 13) || (28 ≤ n && n ≤ 30) || n == 0x85 || n == 0x2028 || n == 0x2029

/-- The lines of a text behind the beginning of one. -/
def splitLinesFrom : Text → Text → List Text
  | line, [] => if line = [] then [] else [line]
  | line, '\r' :: '\n' :: rest => line :: splitLinesFrom [] rest
  | line, c :: rest =>
    if isLineBreak c then line :: splitLinesFrom [] rest else splitLinesFrom (line ++ [c]) rest

/-- `str.splitlines()`. -/
def splitLines (text : Text) : List Text := splitLinesFrom [] text

/-- A table that the constructor of `HostsTable` accepts. -/
structure HostsTable where
  maxEntries : Int := 4096
  entries : AList (fun _ : CacheKey => List Text) := ∅
  accepted : 0 < maxEntries

namespace HostsTable

/-- The loop over the aliases in `load`. A failure leaves what was loaded before it. -/
def addAlias (case : CaseMapping) (address : Text) (table : HostsTable) (hostAlias : Text) :
    Except (DnsExn × HostsTable) HostsTable :=
  let name := case.canonical hostAlias
  if name = [] then .ok table
  else
    let key : CacheKey := ⟨name, if ':' ∈ address then dnsAaaa else dnsA⟩
    match table.entries.lookup key with
    | some values =>
      .ok (if address ∈ values then
        table else { table with entries := table.entries.insert key (values ++ [address]) })
    | none =>
      if table.maxEntries ≤ table.entries.keys.length then
        .error (.dns "hosts-too-many-entries" "hosts table exceeds limit", table)
      else .ok { table with entries := table.entries.insert key [address] }

/-- The loop over the lines in `load`. -/
def loadLine (case : CaseMapping) (table : HostsTable) (rawLine : Text) :
    Except (DnsExn × HostsTable) HostsTable :=
  let line := strip (rawLine.takeWhile (· ≠ '#'))
  if line = [] then .ok table
  else if 4096 < line.length then
    .error (.dns "hosts-line-too-long" "hosts line exceeds gateway limit", table)
  else
    match words isSpace line with
    | first :: hostAlias :: more =>
      match normalizeNumericAddress first with
      | none => .ok table
      | some address => (hostAlias :: more).foldlM (addAlias case address) table
    | _ => .ok table

def load (case : CaseMapping) (table : HostsTable) (text : Text) :
    Except (DnsExn × HostsTable) HostsTable :=
  (splitLines text).foldlM (loadLine case) table

def lookup (case : CaseMapping) (table : HostsTable) (name : Text) (qtype : Int) : Option (List Text) :=
  table.entries.lookup (cacheKey case name qtype)

end HostsTable

/-- The constructor of `HostsTable`. -/
def newHosts (case : CaseMapping) (text : Text) (maxEntries : Int) : Except DnsExn HostsTable :=
  if accepted : 0 < maxEntries then
    match HostsTable.load case { maxEntries, accepted } text with
    | .ok table => .ok table
    | .error (error, _) => .error error
  else .error (.value "hosts entry limit must be positive")

/-- `_bounded_resolver_option`, behind the digits that are read. -/
def boundedFrom (minimum maximum : Nat) : Nat → Text → Option Nat
  | parsed, [] => some (if parsed < minimum then minimum else parsed)
  | parsed, char :: rest =>
    if char < '0' ∨ '9' < char then none
    else
      let parsed := parsed * 10 + (char.toNat - 48)
      if maximum < parsed then some maximum else boundedFrom minimum maximum parsed rest

/-- `_bounded_resolver_option`. -/
def boundedResolverOption (value : Text) (minimum maximum : Nat) : Option Nat :=
  if value = [] then none else boundedFrom minimum maximum 0 value

/-- A `DnsResolverConfig` with its `rotate`, which only `begin_driver` reads. -/
structure ResolverConfig extends DnsResolverConfig where
  rotate : Bool := false

/-- The variables of `parse_resolver_config`. -/
structure ConfigDraft where
  servers : List DnsServer := []
  attempts : Int
  timeoutMs : Int
  rotate : Bool := false
  useTcp : Bool := false

namespace ConfigDraft

/-- A `nameserver` line. -/
def nameserver (draft : ConfigDraft) (value : Text) : Except DnsExn ConfigDraft :=
  match normalizeNumericAddress value with
  | none => .ok draft
  | some address =>
    if draft.servers.any (fun server => server.address = address ∧ server.port = 53) = false ∧
        draft.servers.length < 8 then
      match newServer address 53 with
      | .ok server => .ok { draft with servers := draft.servers ++ [server] }
      | .error error => .error error
    else .ok draft

/-- One word of an `options` line. -/
def option (draft : ConfigDraft) (word : Text) : ConfigDraft :=
  if word = "rotate".toList then { draft with rotate := true }
  else if word = "use-vc".toList ∨ word = "usevc".toList then { draft with useTcp := true }
  else if "attempts:".toList.isPrefixOf word then
    match boundedResolverOption (word.drop 9) 1 5 with
    | none => draft
    | some parsed => { draft with attempts := parsed }
  else if "timeout:".toList.isPrefixOf word then
    match boundedResolverOption (word.drop 8) 1 30 with
    | none => draft
    | some parsed => { draft with timeoutMs := parsed * 1000 }
  else draft

/-- The loop of `parse_resolver_config`. -/
def line (draft : ConfigDraft) (rawLine : Text) : Except DnsExn ConfigDraft :=
  let line := strip ((rawLine.takeWhile (· ≠ '#')).takeWhile (· ≠ ';'))
  if line = [] then .ok draft
  else if 4096 < line.length then
    .error (.dns "resolver-line-too-long" "resolver configuration line exceeds gateway limit")
  else
    match words isSpace line with
    | [] => .ok draft
    | keyword :: rest =>
      if keyword = "nameserver".toList ∧ rest ≠ [] then draft.nameserver (rest.headD [])
      else if keyword = "options".toList then .ok (rest.foldl option draft)
      else .ok draft

/-- The constructor of `DnsResolverConfig`, with the values of `parse_resolver_config`. -/
def config (draft : ConfigDraft) : Except DnsExn ResolverConfig :=
  if refused : draft.attempts ≤ 0 ∨ draft.timeoutMs ≤ 0 then .error (.value "invalid DNS resolver limits")
  else
    .ok {
      servers := draft.servers
      attemptsPerServer := draft.attempts
      attemptTimeoutMs := draft.timeoutMs
      useTcp := draft.useTcp
      rotate := draft.rotate
      accepted := by simpa using refused }

end ConfigDraft

def parseResolverConfig (text : Text) (defaultAttempts defaultTimeoutMs : Int) :
    Except DnsExn ResolverConfig := do
  if 65535 < text.length then
    throw (.dns "resolver-config-too-large" "resolver configuration exceeds gateway limit")
  else
    let draft ← (splitLines text).foldlM ConfigDraft.line { attempts := defaultAttempts, timeoutMs :=
      defaultTimeoutMs }
    draft.config

end Dns
end PccGateway
