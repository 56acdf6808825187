import PccGateway.Dns.NameCodec
import PccGateway.Dns.SystemFiles
import PccGateway.Lib.Grouping

namespace PccGateway
namespace Dns
open Words Search Grouping

/-- What is read of a line of the hosts file. -/
def hostsContent (line : Text) : Text := strip (line.takeWhile (· ≠ '#'))

/-- The query type that an address text answers. -/
def familyType (address : Text) : Int := if ':' ∈ address then dnsAaaa else dnsA

/-- The records that the aliases of an address make. -/
def aliasRecords (case : CaseMapping) (address : Text) (aliases : List Text) : List (CacheKey × Text) :=
  ((aliases.map case.canonical).filter (· ≠ [])).map fun name => (⟨name, familyType address⟩, address)

/-- The records of a line: none if its first word is no numeric address. -/
def lineRecords (case : CaseMapping) (line : Text) : List (CacheKey × Text) :=
  match words isSpace (hostsContent line) with
  | [] => []
  | first :: aliases => (normalizeNumericAddress first).elim [] (aliasRecords case · aliases)

/-- The records of a hosts file, in its order. -/
def hostsRecords (case : CaseMapping) (text : Text) : List (CacheKey × Text) :=
  (splitLines text).flatMap (lineRecords case)

def tooManyEntries : DnsExn := .dns "hosts-too-many-entries" "hosts table exceeds limit"

def lineTooLong : DnsExn := .dns "hosts-line-too-long" "hosts line exceeds gateway limit"

/-- One record more in a table that may be full. -/
def HostsTable.addRecord (table : HostsTable) (record : CacheKey × Text) :
    Except (DnsExn × HostsTable) HostsTable :=
  if record.1 ∉ table.entries ∧ table.maxEntries ≤ table.entries.keys.length then
    .error (tooManyEntries, table)
  else .ok { table with entries := add table.entries record }

section Load
variable {case : CaseMapping} {table : HostsTable} {before : List (CacheKey × Text)}

theorem addAlias_eq (address hostAlias : Text) :
    table.addAlias case address hostAlias = if case.canonical hostAlias = [] then
      .ok table else table.addRecord (⟨case.canonical hostAlias, familyType address⟩, address) := by
  unfold HostsTable.addAlias HostsTable.addRecord Grouping.add
  dsimp only
  rw [show (if ':' ∈ address then (dnsAaaa : Int) else dnsA) = familyType address from rfl]
  generalize (⟨case.canonical hostAlias, familyType address⟩ : CacheKey) = key
  split
  · rfl
  · cases found : table.entries.lookup key with
    | some values =>
      have known : key ∈ table.entries := AList.lookup_isSome.mp (by rw [found]; rfl)
      have free : ¬ (key ∉ table.entries ∧ table.maxEntries ≤ (table.entries.keys.length : Int)) :=
        fun full => full.1 known
      rw [if_neg free]
      dsimp only
      split <;> rfl
    | none =>
      have unknown := AList.lookup_eq_none.mp found
      simp only [unknown, not_false_eq_true, true_and]
      rfl

theorem addAliases_eq (address : Text) (aliases : List Text) :
    aliases.foldlM (HostsTable.addAlias case address) table =
      (aliasRecords case address aliases).foldlM HostsTable.addRecord table := by
  induction aliases generalizing table with
  | nil => rfl
  | cons hostAlias aliases ih =>
    rw [List.foldlM_cons, addAlias_eq]
    by_cases empty : case.canonical hostAlias = []
    · rw [if_pos empty]
      change aliases.foldlM (HostsTable.addAlias case address) table = _
      rw [ih]
      simp [aliasRecords, empty]
    · rw [if_neg empty]
      have records : aliasRecords case address (hostAlias :: aliases) =
          (⟨case.canonical hostAlias, familyType address⟩, address) ::
            aliasRecords case address aliases := by
        simp [aliasRecords, empty]
      rw [records, List.foldlM_cons]
      exact congrArg (_ >>= ·) (funext fun _ => ih)

theorem loadLine_eq (line : Text) :
    table.loadLine case line = if 4096 < (hostsContent line).length then .error (lineTooLong, table)
      else (lineRecords case line).foldlM HostsTable.addRecord table := by
  unfold HostsTable.loadLine
  change (if hostsContent line = [] then _ else _) = _
  by_cases empty : hostsContent line = []
  · rw [if_pos empty, if_neg (by simp [empty]), lineRecords, empty]
    rfl
  · rw [if_neg empty]
    change (if 4096 < (hostsContent line).length then _ else _) = _
    split
    · rfl
    · unfold lineRecords
      rw [show strip (line.takeWhile (· ≠ '#')) = hostsContent line from rfl]
      cases found : words isSpace (hostsContent line) with
      | nil => rfl
      | cons first aliases =>
        cases aliases with
        | nil =>
          dsimp only
          cases normalizeNumericAddress first <;> rfl
        | cons hostAlias more =>
          dsimp only
          cases normalizeNumericAddress first with
          | none => rfl
          | some address => exact addAliases_eq address _

/-- A table that holds the records so far takes one more, or has no place for its key. -/
theorem addRecord_cases (holds : Holds before table.entries)
    (fits : ((keysOf before).length : Int) ≤ table.maxEntries) (record : CacheKey × Text) :
    (table.addRecord record = .ok { table with entries := add table.entries record } ∧
      ((keysOf (before ++ [record])).length : Int) ≤ table.maxEntries) ∨
    (table.addRecord record = .error (tooManyEntries, table) ∧ table.maxEntries <
      (keysOf (before ++ [record])).length) := by
  unfold HostsTable.addRecord
  rw [keysOf_snoc, holds.length]
  by_cases known : record.1 ∈ table.entries
  · rw [if_pos (holds.mem.mp known)]
    exact .inl ⟨if_neg fun full => full.1 known, fits⟩
  · rw [if_neg (mt holds.mem.mpr known)]
    by_cases full : table.maxEntries ≤ (keysOf before).length
    · exact .inr ⟨if_pos ⟨known, full⟩, by omega⟩
    · exact .inl ⟨if_neg fun refused => full refused.2, by omega⟩

/-- How the loading of records ends under a limit, when `long` says that a line is too long. -/
inductive Load (records : List (CacheKey × Text)) (limit : Int) (long : Prop) :
    Except (DnsExn × HostsTable) HostsTable → Prop
  | loaded {table : HostsTable} (same : table.maxEntries = limit) (holds : Holds records table.entries)
      (fits : ((keysOf records).length : Int) ≤ limit) (short : ¬ long) : Load records limit long
        (.ok table)
  | full {table : HostsTable} (many : limit < (keysOf records).length) :
      Load records limit long (.error (tooManyEntries, table))
  | overlong {table : HostsTable} (isLong : long) : Load records limit long (.error (lineTooLong, table))

theorem addRecords_load (holds : Holds before table.entries)
    (fits : ((keysOf before).length : Int) ≤ table.maxEntries) (records : List (CacheKey × Text)) :
    Load (before ++ records) table.maxEntries False (records.foldlM HostsTable.addRecord table) := by
  induction records generalizing before table with
  | nil => exact .loaded rfl (by simpa using holds) (by simpa using fits) id
  | cons record records ih =>
    rw [List.foldlM_cons, List.append_cons]
    rcases addRecord_cases holds fits record with ⟨added, fits'⟩ | ⟨refused, many⟩
    · rw [added]
      exact @ih { table with entries := add table.entries record } (before ++ [record])
        (holds.add record) fits'
    · rw [refused]
      have grows := keysOf_mono (before ++ [record]) records
      exact .full (by omega)

/-- The lines of a file. -/
theorem loadLines_load (holds : Holds before table.entries)
    (fits : ((keysOf before).length : Int) ≤ table.maxEntries) (lines : List Text) :
    Load (before ++ lines.flatMap (lineRecords case)) table.maxEntries
      (∃ line ∈ lines, 4096 < (hostsContent line).length)
      (lines.foldlM (HostsTable.loadLine case) table) := by
  induction lines generalizing before table with
  | nil => exact .loaded rfl (by simpa using holds) (by simpa using fits) (by simp)
  | cons line lines ih =>
    rw [List.foldlM_cons, List.flatMap_cons, ← List.append_assoc, loadLine_eq]
    split
    · rename_i long
      exact .overlong ⟨line, by simp, long⟩
    · rename_i short
      have first := addRecords_load holds fits (lineRecords case line)
      generalize (lineRecords case line).foldlM HostsTable.addRecord table = outcome at first ⊢
      cases first with
      | @loaded table' same holds' fits' =>
        rw [← same] at fits'
        have rest := ih holds' fits'
        rw [same] at rest
        simp only [List.mem_cons, exists_eq_or_imp, short, false_or]
        exact rest
      | full many =>
        have grows := keysOf_mono (before ++ lineRecords case line) (lines.flatMap (lineRecords case))
        exact .full (by omega)
      | overlong isLong => exact isLong.elim

theorem load_outcome (accepted : 0 < table.maxEntries) (empty : table.entries = ∅) (text : Text) :
    Load (hostsRecords case text) table.maxEntries
      (∃ line ∈ splitLines text, 4096 < (hostsContent line).length) (table.load case text) := by
  have holds : Holds ([] : List (CacheKey × Text)) table.entries := by
    rw [empty]
    exact holds_empty
  exact loadLines_load holds (Int.le_of_lt accepted) (splitLines text)

end Load

section Addresses

theorem ipv6Text_colon {bytes : List Nat} (long : bytes.length = 16) : ':' ∈ ipv6Text bytes := by
  cases bytes with
  | nil => cases long
  | cons first bytes =>
    cases bytes with
    | nil => cases long
    | cons second bytes =>
      cases bytes with
      | nil => cases long
      | cons third bytes =>
        cases bytes with
        | nil => cases long
        | cons fourth bytes => simp [ipv6Text, pairGroups, List.intercalate_cons_cons]

/-- An address text is the one of its family. -/
theorem normalize_family {text address : Text} (normalized : normalizeNumericAddress text = some address) :
    normalizeNumericAddress address (familyType address) = some address := by
  obtain ⟨family, bytes, denotes, rfl⟩ := normalize_eq_some_iff.mp normalized
  cases family with
  | ipv4 =>
    rw [← denotes_ipv4_iff] at denotes
    have back := parseIpv4_ipv4Text (parseIpv4_octets denotes)
    have plain := strip_plain (canonicalText_plain .ipv4 bytes)
    have noColon := (parseIpv4_chars back).2
    simp only [canonicalText] at plain ⊢
    rw [show familyType (ipv4Text bytes) = dnsA from if_neg noColon, normalizeNumericAddress, plain, back]
    rfl
  | ipv6 =>
    rw [← parseIpv6_eq_some_iff] at denotes
    have octets := parseIpv6_octets denotes
    have back := parseIpv6_ipv6Text octets
    have plain := strip_plain (canonicalText_plain .ipv6 bytes)
    simp only [canonicalText] at plain ⊢
    simp [normalizeNumericAddress, familyType, ipv6Text_colon octets.1, plain, back,
      parseIpv4_ipv6Text, dnsAaaa]

theorem mem_hostsRecords {case : CaseMapping} {text : Text} {record : CacheKey × Text}
    (member : record ∈ hostsRecords case text) :
    record.1.name ≠ [] ∧ normalizeNumericAddress record.2 record.1.qtype = some record.2 := by
  obtain ⟨line, -, member⟩ := List.mem_flatMap.mp member
  unfold lineRecords at member
  split at member
  · cases member
  · rename_i first aliases found
    cases normalized : normalizeNumericAddress first with
    | none => simp [normalized] at member
    | some address =>
      rw [normalized] at member
      obtain ⟨name, named, rfl⟩ := List.mem_map.mp member
      exact ⟨by simpa using (List.mem_filter.mp named).2, normalize_family normalized⟩

end Addresses

section Made
variable {case : CaseMapping} {text : Text} {maxEntries : Int}

theorem newHosts_accepted (accepted : 0 < maxEntries) :
    newHosts case text maxEntries =
      (HostsTable.load case { maxEntries, accepted } text).mapError (·.1) := by
  rw [newHosts, dif_pos accepted]
  cases HostsTable.load case { maxEntries, accepted } text <;> rfl

/-- A table that was made. -/
theorem newHosts_ok {table : HostsTable} (made : newHosts case text maxEntries = .ok table) :
    0 < maxEntries ∧ (¬ ∃ line ∈ splitLines text, 4096 < (hostsContent line).length) ∧
      ((keysOf (hostsRecords case text)).length : Int) ≤ maxEntries ∧ Holds (hostsRecords case text)
      table.entries := by
  by_cases accepted : 0 < maxEntries
  · have loads := @load_outcome case { maxEntries, accepted } accepted rfl text
    rw [newHosts_accepted accepted] at made
    generalize HostsTable.load case { maxEntries, accepted } text = outcome at loads made
    cases loads with
    | loaded same holds fits short =>
      cases made
      exact ⟨accepted, short, fits, holds⟩
    | full => cases made
    | overlong => cases made
  · rw [newHosts, dif_neg accepted] at made
    cases made

/-- The limits that a failure can be about. -/
theorem newHosts_error {error : DnsExn} (failed : newHosts case text maxEntries = .error error) :
    (error = .value "hosts entry limit must be positive" ∧ maxEntries ≤ 0) ∨
      (error = lineTooLong ∧ ∃ line ∈ splitLines text, 4096 < (hostsContent line).length) ∨
      (error = tooManyEntries ∧ maxEntries < (keysOf (hostsRecords case text)).length) := by
  by_cases accepted : 0 < maxEntries
  · have loads := @load_outcome case { maxEntries, accepted } accepted rfl text
    rw [newHosts_accepted accepted] at failed
    generalize HostsTable.load case { maxEntries, accepted } text = outcome at loads failed
    cases loads with
    | loaded => cases failed
    | full many =>
      cases failed
      exact .inr (.inr ⟨rfl, many⟩)
    | overlong isLong =>
      cases failed
      exact .inr (.inl ⟨rfl, isLong⟩)
  · rw [newHosts, dif_neg accepted] at failed
    cases failed
    exact .inl ⟨rfl, by omega⟩

theorem newHosts_made (accepted : 0 < maxEntries)
    (short : ∀ line ∈ splitLines text, (hostsContent line).length ≤ 4096)
    (fits : ((keysOf (hostsRecords case text)).length : Int) ≤ maxEntries) :
    ∃ table, newHosts case text maxEntries = .ok table := by
  cases outcome : newHosts case text maxEntries with
  | ok table => exact ⟨table, rfl⟩
  | error error =>
    rcases newHosts_error outcome with ⟨-, refused⟩ | ⟨-, line, member, long⟩ | ⟨-, many⟩
    · omega
    · have := short line member
      omega
    · omega

end Made

/-- A hosts file is loaded exactly when its lines and the number of its keys are within the limits,
and an error names the limit that was passed. A lookup then gives the addresses that the file has
for the name, each once and in the order of the file; they are canonical addresses of the family
that was asked for. Nothing is assumed about the text, the limit and the mapping of letters outside
ASCII. -/
theorem hosts_loaded (case : CaseMapping) (text : Text) (maxEntries : Int) :
    ((∃ table, newHosts case text maxEntries = .ok table) ↔ 0 < maxEntries ∧
      (∀ line ∈ splitLines text, (hostsContent line).length ≤ 4096) ∧
      ((keysOf (hostsRecords case text)).length : Int) ≤ maxEntries) ∧
    (∀ error, newHosts case text maxEntries = .error error →
      (error = .value "hosts entry limit must be positive" ∧ maxEntries ≤ 0) ∨
      (error = lineTooLong ∧ ∃ line ∈ splitLines text, 4096 < (hostsContent line).length) ∨
      (error = tooManyEntries ∧ maxEntries < (keysOf (hostsRecords case text)).length)) ∧
    (∀ table, newHosts case text maxEntries = .ok table → ∀ name qtype,
      (table.lookup case name qtype = none ↔ cacheKey case name qtype ∉
        (hostsRecords case text).map (·.1)) ∧ ∀ values, table.lookup case name qtype = some values →
        values = valuesOf (hostsRecords case text) (cacheKey case name qtype) ∧ values.Nodup ∧
        ∀ address ∈ values, normalizeNumericAddress address qtype = some address) := by
  refine ⟨⟨?_, ?_⟩, fun error failed => newHosts_error failed, fun table made name qtype => ?_⟩
  · rintro ⟨table, made⟩
    obtain ⟨accepted, short, fits, -⟩ := newHosts_ok made
    exact ⟨accepted, by simpa using short, fits⟩
  · rintro ⟨accepted, short, fits⟩
    exact newHosts_made accepted short fits
  · obtain ⟨-, -, -, holds⟩ := newHosts_ok made
    have found : table.lookup case name qtype = _ := holds (cacheKey case name qtype)
    refine ⟨?_, fun values isSome => ?_⟩
    · rw [found, ← valuesOf_ne_nil_iff]
      split <;> simp_all
    · rw [isSome] at found
      split at found
      · cases found
      · obtain rfl := Option.some.inj found
        refine ⟨rfl, valuesOf_nodup _ _, fun address member => ?_⟩
        exact (mem_hostsRecords (mem_valuesOf.mp member)).2

section Written
variable {case : CaseMapping}

theorem splitLinesFrom_plain (line : Text) {c : Char} (plain : isLineBreak c = false) (rest : Text) :
    splitLinesFrom line (c :: rest) = splitLinesFrom (line ++ [c]) rest := by
  rw [splitLinesFrom, if_neg (by simp [plain])]
  rintro after rfl
  simp [isLineBreak] at plain

theorem splitLines_cons {line : Text} (plain : ∀ c ∈ line, isLineBreak c = false) (rest : Text) :
    splitLines (line ++ '\n' :: rest) = line :: splitLines rest := by
  have go (begun : Text) :
      splitLinesFrom begun (line ++ '\n' :: rest) = (begun ++ line) :: splitLines rest := by
    induction line generalizing begun with
    | nil => rw [List.nil_append, splitLinesFrom, if_pos (by decide), List.append_nil, splitLines]; simp
    | cons c line ih =>
      rw [List.cons_append, splitLinesFrom_plain begun (plain c (by simp)), ih fun d member =>
        plain d (by simp [member])]
      simp
  exact go []

theorem isLineBreak_plain {c : Char} (plain : isSpace c = false) : isLineBreak c = false := by
  simp only [isSpace, isLineBreak, Bool.or_eq_false_iff, Bool.and_eq_false_iff,
    decide_eq_false_iff_not, beq_eq_false_iff_ne] at plain ⊢
  omega

theorem canonicalText_comment (family : AddressFamily) (bytes : List Nat) :
    '#' ∉ canonicalText family bytes := by
  have digits {base n : Nat} (valid : 1 < base) (small : base ≤ 16) : '#' ∉ Nat.toDigits base n := by
    have all : ∀ digit < 16, digit.digitChar ≠ '#' := by decide
    intro member
    obtain ⟨digit, bound, same⟩ := mem_toDigits valid member
    exact all digit (by omega) same.symm
  intro member
  cases family with
  | ipv4 =>
    rcases mem_intercalate member with same | ⟨piece, listed, member⟩
    · cases same
    · obtain ⟨byte, -, rfl⟩ := List.mem_map.mp listed
      exact digits (by decide) (by decide) member
  | ipv6 =>
    rcases mem_intercalate member with same | ⟨piece, listed, member⟩
    · cases same
    · obtain ⟨group, -, rfl⟩ := List.mem_map.mp listed
      exact digits (by decide) (by decide) member

def hostsLine (record : CacheKey × Text) : Text := record.2 ++ ' ' :: record.1.name

/-- A hosts file with a line for each record. -/
def hostsFile (records : List (CacheKey × Text)) : Text :=
  records.flatMap fun record => hostsLine record ++ ['\n']

/-- A record that a line of a hosts file can have. -/
structure Writable (case : CaseMapping) (record : CacheKey × Text) : Prop where
  address : normalizeNumericAddress record.2 = some record.2
  family : record.1.qtype = familyType record.2
  name : IsWord isSpace record.1.name
  uncommented : '#' ∉ record.1.name
  canonical : case.canonical record.1.name = record.1.name
  short : (hostsLine record).length ≤ 4096

theorem Writable.line {record : CacheKey × Text} (writable : Writable case record) :
    (∀ c ∈ hostsLine record, isLineBreak c = false) ∧ hostsContent (hostsLine record) = hostsLine record ∧
      lineRecords case (hostsLine record) = [record] := by
  obtain ⟨family, bytes, -, isText⟩ := normalize_eq_some_iff.mp writable.address
  have plain : ∀ c ∈ record.2, isSpace c = false := by
    rw [isText]
    exact canonicalText_plain family bytes
  have uncommented : '#' ∉ record.2 := by
    rw [isText]
    exact canonicalText_comment family bytes
  have isWord : IsWord isSpace record.2 := by
    refine ⟨fun empty => ?_, plain⟩
    have normalized := writable.address
    rw [empty] at normalized
    cases normalized
  have uncut : (hostsLine record).takeWhile (· ≠ '#') = hostsLine record := by
    refine List.takeWhile_eq_self_iff.mpr fun c member => ?_
    rw [decide_eq_true_eq]
    rintro rfl
    rcases List.mem_append.mp member with inAddress | inName
    · exact uncommented inAddress
    · exact writable.uncommented (by simpa using inName)
  have trimmed : Trimmed isSpace (hostsLine record) := by
    refine ⟨fun c first => ?_, fun c last => ?_⟩
    · obtain ⟨d, rest, split⟩ := List.exists_cons_of_ne_nil isWord.nonempty
      simp only [hostsLine, split, List.cons_append, List.head?_cons, Option.mem_some_iff] at first
      exact plain c (by simp [split, first])
    · refine writable.name.plain c ?_
      rw [hostsLine, List.getLast?_append_cons, List.getLast?_cons_of_ne_nil writable.name.nonempty] at last
      exact List.mem_of_getLast? last
  have content : hostsContent (hostsLine record) = hostsLine record := by
    have kept := @stripBy_append isSpace [] (hostsLine record) [] (by simp) (by simp) trimmed
    rw [hostsContent, uncut]
    simpa [strip] using kept
  refine ⟨fun c member => ?_, content, ?_⟩
  · rcases List.mem_append.mp member with inAddress | inName
    · exact isLineBreak_plain (plain c inAddress)
    · rcases List.mem_cons.mp inName with rfl | inName
      · decide
      · exact isLineBreak_plain (writable.name.plain c inName)
  · have cut : words isSpace (hostsLine record) = [record.2, record.1.name] := by
      rw [hostsLine, words_cons isWord (by decide), words_single writable.name]
    have named := writable.name.nonempty
    unfold lineRecords
    rw [content, cut]
    simp [aliasRecords, writable.address, writable.canonical, named, ← writable.family]

theorem hostsRecords_hostsFile {records : List (CacheKey × Text)}
    (writable : ∀ record ∈ records, Writable case record) :
    splitLines (hostsFile records) = records.map hostsLine ∧ hostsRecords case (hostsFile records) =
      records := by
  have lines : splitLines (hostsFile records) = records.map hostsLine := by
    induction records with
    | nil => rfl
    | cons record records ih =>
      rw [hostsFile, List.flatMap_cons, List.append_assoc, List.singleton_append,
        splitLines_cons (writable record (by simp)).line.1, List.map_cons]
      exact congrArg _ (ih fun other member => writable other (by simp [member]))
  refine ⟨lines, ?_⟩
  rw [hostsRecords, lines, List.flatMap_map]
  clear lines
  induction records with
  | nil => rfl
  | cons record records ih =>
    rw [List.flatMap_cons, (writable record (by simp)).line.2.2, ih fun other member =>
      writable other (by simp [member])]
    rfl

/-- Records that are written to a hosts file are read back from it: the table that is loaded has,
under each key, the addresses that were written for it, and nothing else. What is assumed is that
each record can be written: its name is a canonical word without a comment in it, its address is the
canonical one of its family, and the line is not too long. The records may repeat each other and
stand in any order, and the limit is any that admits their keys. -/
theorem hosts_reads_back (case : CaseMapping) (records : List (CacheKey × Text)) (maxEntries : Int)
    (accepted : 0 < maxEntries) (writable : ∀ record ∈ records, Writable case record)
    (fits : ((keysOf records).length : Int) ≤ maxEntries) :
    ∃ table, newHosts case (hostsFile records) maxEntries = .ok table ∧
      ∀ key, table.entries.lookup key = if valuesOf records key = [] then
        none else some (valuesOf records key) := by
  obtain ⟨lines, written⟩ := hostsRecords_hostsFile writable
  have short : ∀ line ∈ splitLines (hostsFile records), (hostsContent line).length ≤ 4096 := by
    intro line member
    rw [lines] at member
    obtain ⟨record, listed, rfl⟩ := List.mem_map.mp member
    rw [(writable record listed).line.2.1]
    exact (writable record listed).short
  obtain ⟨table, made⟩ := newHosts_made accepted short (by rwa [written])
  obtain ⟨-, -, -, holds⟩ := newHosts_ok made
  rw [written] at holds
  exact ⟨table, made, holds⟩

theorem word_plain {word : Text} (some : word ≠ []) (plain : (word.all fun c => !isSpace c) = true) :
    IsWord isSpace word :=
  ⟨some, fun c member => by simpa using List.all_eq_true.mp plain c member⟩

def twoRecords : List (CacheKey × Text) :=
  [(⟨"db".toList, 1⟩, "10.0.0.1".toList), (⟨"db".toList, 28⟩, "0:0:0:0:0:0:0:1".toList)]

theorem hosts_reads_back_twoRecords :
    0 < (2 : Int) ∧ ∃ table, newHosts latin1Mapping (hostsFile twoRecords) 2 = .ok table ∧
    ∀ key, table.entries.lookup key = if valuesOf twoRecords key = [] then
      none else some (valuesOf twoRecords key) := by
  refine ⟨by decide, hosts_reads_back latin1Mapping twoRecords 2 (by decide) (fun record member => ?_)
    (by decide)⟩
  rcases List.mem_cons.mp member with rfl | member
  · exact ⟨by decide, by decide, word_plain (by decide) (by decide),
      by decide, by decide, by decide⟩
  · obtain rfl := List.mem_singleton.mp member
    exact ⟨by decide, by decide, word_plain (by decide) (by decide),
      by decide, by decide, by decide⟩

end Written

end Dns
end PccGateway
