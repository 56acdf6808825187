import PccGateway.Dns.HostsFile

namespace PccGateway
namespace Dns
open Words Search Grouping

section Bounded

/-- The number of the digits that were read behind `start`. -/
def numberFrom (start : Nat) (digits : Text) : Nat :=
  digits.foldl (fun total digit => total * 10 + (digit.toNat - 48)) start

def AllDigits (text : Text) : Prop := ∀ c ∈ text, '0' ≤ c ∧ c ≤ '9'

/-- What an option gives behind the digits of `start`: their number within the bounds, and the upper
bound as soon as the digits so far are above it, whatever comes after them. -/
def GivesFrom (minimum maximum start : Nat) (value : Text) (given : Nat) : Prop :=
  (AllDigits value ∧ given = max minimum (min (numberFrom start value) maximum)) ∨
    ∃ front rest, value = front ++ rest ∧ AllDigits front ∧ maximum < numberFrom start front ∧
    given = maximum

/-- What an option with a value gives. -/
def OptionGives (minimum maximum : Nat) (value : Text) (given : Nat) : Prop :=
  value ≠ [] ∧ GivesFrom minimum maximum 0 value given

theorem le_numberFrom (start : Nat) (digits : Text) : start ≤ numberFrom start digits := by
  induction digits generalizing start with
  | nil => exact Nat.le_refl _
  | cons digit digits ih => exact Nat.le_trans (by omega) (ih (start * 10 + (digit.toNat - 48)))

variable {minimum maximum : Nat}

theorem boundedFrom_eq_some_iff (ordered : minimum ≤ maximum) {start : Nat} (small : start ≤ maximum)
    {value : Text} {given : Nat} :
    boundedFrom minimum maximum start value = some given ↔ GivesFrom minimum maximum start value given := by
  induction value generalizing start with
  | nil =>
    have end_ : boundedFrom minimum maximum start [] = some (max minimum (min start maximum)) := by
      rw [boundedFrom]
      split <;> simp only [Option.some.injEq] <;> omega
    rw [end_, Option.some.injEq]
    constructor
    · rintro rfl
      exact .inl ⟨by simp [AllDigits], rfl⟩
    · rintro (⟨-, rfl⟩ | ⟨front, rest, split, -, above, rfl⟩)
      · rfl
      · obtain ⟨rfl, rfl⟩ := List.append_eq_nil_iff.mp split.symm
        exact absurd above (Nat.not_lt.mpr small)
  | cons char rest ih =>
    rw [boundedFrom]
    split
    · rename_i foreign
      have bad : ¬ ('0' ≤ char ∧ char ≤ '9') := fun digit => foreign.elim digit.1.not_gt digit.2.not_gt
      refine ⟨by rintro ⟨⟩, ?_⟩
      rintro (⟨digits, -⟩ | ⟨front, rest', split, digits, above, -⟩)
      · exact (bad (digits char (by simp))).elim
      · cases front with
        | nil => exact absurd above (Nat.not_lt.mpr small)
        | cons first front =>
          obtain ⟨rfl, -⟩ := List.cons.inj split
          exact (bad (digits char (by simp))).elim
    · rename_i plain
      have digit : '0' ≤ char ∧ char ≤ '9' :=
        ⟨not_lt.mp fun low => plain (.inl low), not_lt.mp fun high => plain (.inr high)⟩
      dsimp only
      split
      · rename_i above
        constructor
        · rintro ⟨⟩
          exact .inr ⟨[char], rest, rfl, by simpa [AllDigits] using digit, above, rfl⟩
        · rintro (⟨-, rfl⟩ | ⟨-, -, -, -, -, rfl⟩)
          · have more := le_numberFrom (start * 10 + (char.toNat - 48)) rest
            have whole : numberFrom start (char :: rest) =
                numberFrom (start * 10 + (char.toNat - 48)) rest := rfl
            rw [whole, min_eq_right (by omega), max_eq_right ordered]
          · rfl
      · rename_i below
        rw [ih (Nat.not_lt.mp below)]
        unfold GivesFrom
        refine or_congr ?_ ⟨?_, ?_⟩
        · exact and_congr_left fun _ => by simp [AllDigits, digit]
        · rintro ⟨front, rest', rfl, digits, above, rfl⟩
          refine ⟨char :: front, rest', rfl, ?_, above, rfl⟩
          simpa [AllDigits, digit] using digits
        · rintro ⟨front, rest', split, digits, above, rfl⟩
          cases front with
          | nil => exact absurd above (Nat.not_lt.mpr small)
          | cons first front =>
            obtain ⟨rfl, rfl⟩ := List.cons.inj split
            exact ⟨front, rest', rfl, fun c member => digits c (by simp [member]), above, rfl⟩

theorem boundedResolverOption_eq_some_iff (ordered : minimum ≤ maximum) {value : Text} {given : Nat} :
    boundedResolverOption value minimum maximum = some given ↔ OptionGives minimum maximum value given := by
  unfold boundedResolverOption OptionGives
  split
  · rename_i empty
    simp [empty]
  · rename_i filled
    rw [boundedFrom_eq_some_iff ordered (Nat.zero_le _)]
    simp [filled]

end Bounded

/-- What is read of a line of the resolver configuration. -/
def configContent (line : Text) : Text := strip ((line.takeWhile (· ≠ '#')).takeWhile (· ≠ ';'))

/-- The words of the lines, comments left out. -/
def directives (text : Text) : List (List Text) :=
  (splitLines text).map fun line => words isSpace (configContent line)

/-- The address of a `nameserver` line that has a numeric one. -/
def namedServer : List Text → Option Text
  | keyword :: value :: _ => if keyword = "nameserver".toList then normalizeNumericAddress value else none
  | _ => none

/-- The words of an `options` line. -/
def optionWords : List Text → List Text
  | keyword :: rest => if keyword = "options".toList then rest else []
  | [] => []

/-- The number of an option that begins with a name. -/
def numberOption (name : Text) (maximum : Nat) (word : Text) : Option Nat :=
  if name.isPrefixOf word then boundedResolverOption (word.drop name.length) 1 maximum else none

def attemptsOption (word : Text) : Option Int :=
  (numberOption "attempts:".toList 5 word).map fun number : Nat => (number : Int)

def timeoutOption (word : Text) : Option Int :=
  (numberOption "timeout:".toList 30 word).map fun number : Nat => (number : Int) * 1000

/-- The servers behind one more address. -/
def addServer (servers : List DnsServer) (address : Text) : List DnsServer :=
  if servers.any (fun server => server.address = address ∧ server.port = 53) = false ∧
    servers.length < 8 then servers ++ [⟨address, 53⟩]
  else servers

/-- What the options of some lines make of a draft. -/
def ConfigDraft.withOptions (draft : ConfigDraft) (options : List Text) : ConfigDraft :=
  { draft with
    attempts := (options.filterMap attemptsOption).getLastD draft.attempts
    timeoutMs := (options.filterMap timeoutOption).getLastD draft.timeoutMs
    rotate := draft.rotate || options.any (· = "rotate".toList)
    useTcp := draft.useTcp || options.any fun word => word = "use-vc".toList ∨ word = "usevc".toList }

/-- What the lines with some directives make of a draft. -/
def ConfigDraft.after (draft : ConfigDraft) (lines : List (List Text)) : ConfigDraft :=
  { draft.withOptions (lines.flatMap optionWords) with
    servers := (lines.filterMap namedServer).foldl addServer draft.servers }

section Lines
variable {draft : ConfigDraft}

theorem attempts_timeout (word : Text) (starts : "attempts:".toList.isPrefixOf word = true) :
    "timeout:".toList.isPrefixOf word = false := by
  obtain ⟨more, rfl⟩ := List.isPrefixOf_iff_prefix.mp starts
  rfl

theorem filterMap_getLastD (f : Text → Option Int) (word : Text) (default : Int) :
    ([word].filterMap f).getLastD default = (f word).getD default := by
  rw [List.filterMap_cons]
  cases f word <;> rfl

theorem option_eq (word : Text) : draft.option word = draft.withOptions [word] := by
  unfold ConfigDraft.option ConfigDraft.withOptions
  simp only [filterMap_getLastD, List.any_cons, List.any_nil, Bool.or_false]
  by_cases rotates : word = "rotate".toList
  · have attempts : attemptsOption word = none := by rw [rotates]; rfl
    have timeout : timeoutOption word = none := by rw [rotates]; rfl
    have noTcp : ¬ (word = "use-vc".toList ∨ word = "usevc".toList) := by rw [rotates]; decide
    rw [if_pos rotates, attempts, timeout, decide_eq_true rotates, decide_eq_false noTcp,
      Bool.or_true, Bool.or_false]
    rfl
  rw [if_neg rotates, decide_eq_false rotates, Bool.or_false]
  by_cases tcp : word = "use-vc".toList ∨ word = "usevc".toList
  · have attempts : attemptsOption word = none := by rcases tcp with rfl | rfl <;> rfl
    have timeout : timeoutOption word = none := by rcases tcp with rfl | rfl <;> rfl
    rw [if_pos tcp, attempts, timeout, decide_eq_true tcp, Bool.or_true]
    rfl
  rw [if_neg tcp, decide_eq_false tcp, Bool.or_false]
  by_cases attempts : "attempts:".toList.isPrefixOf word = true
  · have unset : numberOption "timeout:".toList 30 word = none :=
      if_neg (by simp only [attempts_timeout word attempts, Bool.false_eq_true, not_false_eq_true])
    have given : numberOption "attempts:".toList 5 word = boundedResolverOption (word.drop 9) 1 5 :=
      if_pos attempts
    rw [if_pos attempts, attemptsOption, given, timeoutOption, unset]
    cases boundedResolverOption (word.drop 9) 1 5 <;> rfl
  · have unset : numberOption "attempts:".toList 5 word = none := if_neg attempts
    rw [if_neg attempts, attemptsOption, unset]
    by_cases timeout : "timeout:".toList.isPrefixOf word = true
    · have given : numberOption "timeout:".toList 30 word =
          boundedResolverOption (word.drop 8) 1 30 := if_pos timeout
      rw [if_pos timeout, timeoutOption, given]
      cases boundedResolverOption (word.drop 8) 1 30 <;> rfl
    · have unset' : numberOption "timeout:".toList 30 word = none := if_neg timeout
      rw [if_neg timeout, timeoutOption, unset']
      rfl

theorem withOptions_append (front back : List Text) :
    draft.withOptions (front ++ back) = (draft.withOptions front).withOptions back := by
  have last (f : Text → Option Int) (default : Int) :
      ((front ++ back).filterMap f).getLastD default =
      (back.filterMap f).getLastD ((front.filterMap f).getLastD default) := by
    rw [List.filterMap_append]
    simp only [List.getLastD_eq_getLast?, List.getLast?_append]
    cases (back.filterMap f).getLast? <;> rfl
  simp only [ConfigDraft.withOptions, last, List.any_append, Bool.or_assoc]

theorem withOptions_nil : draft.withOptions [] = draft := by
  simp only [ConfigDraft.withOptions, List.filterMap_nil, List.getLastD_nil, List.any_nil, Bool.or_false]

theorem options_eq (options : List Text) :
    options.foldl ConfigDraft.option draft = draft.withOptions options := by
  induction options generalizing draft with
  | nil => exact withOptions_nil.symm
  | cons word options ih => rw [List.foldl_cons, ih, option_eq, ← withOptions_append, List.singleton_append]

theorem newServer_normal {value address : Text}
    (normalized : normalizeNumericAddress value = some address) :
    newServer address 53 = .ok ⟨address, 53⟩ := by
  obtain ⟨family, bytes, denotes, rfl⟩ := normalize_eq_some_iff.mp normalized
  have again : normalizeNumericAddress (canonicalText family bytes) = some (canonicalText family bytes) :=
    normalize_eq_some_iff.mpr ⟨family, bytes, denotes.canonical, rfl⟩
  rw [newServer, again]
  rfl

theorem nameserver_eq (value : Text) : draft.nameserver value =
    .ok { draft with servers := ((normalizeNumericAddress value).toList).foldl addServer draft.servers } := by
  unfold ConfigDraft.nameserver
  cases normalized : normalizeNumericAddress value with
  | none => rfl
  | some address =>
    simp only [Option.toList_some, List.foldl_cons, List.foldl_nil, addServer]
    split
    · rw [newServer_normal normalized]
    · rfl

/-- A line that is not too long. -/
theorem line_eq (line : Text) :
    draft.line line = if 4096 < (configContent line).length then
      .error (.dns "resolver-line-too-long" "resolver configuration line exceeds gateway limit")
    else .ok (draft.after [words isSpace (configContent line)]) := by
  have after_eq (directive : List Text) : draft.after [directive] =
      { draft.withOptions (optionWords directive) with
        servers := (namedServer directive).toList.foldl addServer draft.servers } := by
    rw [ConfigDraft.after, List.flatMap_singleton, List.filterMap_cons]
    cases namedServer directive <;> rfl
  unfold ConfigDraft.line
  change (if configContent line = [] then _ else if 4096 < (configContent line).length then _ else _) = _
  by_cases empty : configContent line = []
  · rw [if_pos empty, if_neg (by simp [empty]), empty, words_nil, after_eq, optionWords, withOptions_nil]
    rfl
  rw [if_neg empty]
  split
  · rfl
  · rw [show strip ((line.takeWhile (· ≠ '#')).takeWhile (· ≠ ';')) = configContent line from rfl, after_eq]
    cases words isSpace (configContent line) with
    | nil =>
      rw [optionWords, withOptions_nil]
      rfl
    | cons keyword rest =>
      dsimp only
      by_cases names : keyword = "nameserver".toList
      · have other : keyword ≠ "options".toList := by rw [names]; decide
        have unset : optionWords (keyword :: rest) = [] := if_neg other
        rw [unset, withOptions_nil]
        cases rest with
        | nil =>
          rw [if_neg (by simp), if_neg other]
          rfl
        | cons value more =>
          rw [if_pos ⟨names, by simp⟩, nameserver_eq, namedServer, if_pos names]
          rfl
      · have unnamed : namedServer (keyword :: rest) = none := by
          cases rest with
          | nil => rfl
          | cons value more => rw [namedServer, if_neg names]
        rw [if_neg fun both => names both.1, unnamed, optionWords]
        split
        · rw [options_eq]
          rfl
        · rw [withOptions_nil]
          rfl

theorem after_append (front back : List (List Text)) :
    draft.after (front ++ back) = (draft.after front).after back := by
  unfold ConfigDraft.after
  rw [List.flatMap_append, withOptions_append, List.filterMap_append, List.foldl_append]
  rfl

theorem lines_eq (lines : List Text) (short : ∀ line ∈ lines, (configContent line).length ≤ 4096) :
    lines.foldlM ConfigDraft.line draft =
      .ok (draft.after (lines.map fun line => words isSpace (configContent line))) := by
  induction lines generalizing draft with
  | nil =>
    have same : draft.after [] = draft := by
      rw [ConfigDraft.after, List.flatMap_nil, withOptions_nil]
      rfl
    rw [List.map_nil, same]
    rfl
  | cons line lines ih =>
    rw [List.foldlM_cons, line_eq, if_neg (Nat.not_lt.mpr (short line (by simp)))]
    change lines.foldlM ConfigDraft.line _ = _
    rw [ih fun other member => short other (by simp [member]), ← after_append]
    rfl

theorem lines_error {lines : List Text} (long : ∃ line ∈ lines, 4096 < (configContent line).length) :
    lines.foldlM ConfigDraft.line draft =
      .error (.dns "resolver-line-too-long" "resolver configuration line exceeds gateway limit") := by
  induction lines generalizing draft with
  | nil => simp at long
  | cons line lines ih =>
    rw [List.foldlM_cons, line_eq]
    split
    · rfl
    · rename_i short
      simp only [List.mem_cons, exists_eq_or_imp, short, false_or] at long
      exact ih long

end Lines

/-- The first addresses, each once. -/
theorem addServers_eq (addresses : List Text) :
    addresses.foldl addServer [] = (addresses.eraseDups.take 8).map fun address => ⟨address, 53⟩ := by
  induction addresses using List.reverseRecOn with
  | nil => rfl
  | append_singleton addresses address ih =>
    rw [List.foldl_append, ih, List.foldl_cons, List.foldl_nil, addServer, Grouping.eraseDups_snoc]
    have listed : ((addresses.eraseDups.take 8).map fun address => (⟨address, 53⟩ : DnsServer)).any
        (fun server => server.address = address ∧ server.port = 53) =
          decide (address ∈ addresses.eraseDups.take 8) := by
      rw [Bool.eq_iff_iff]
      simp only [List.any_map, List.any_eq_true, Function.comp_apply, decide_eq_true_eq, and_true,
        exists_eq_right]
    rw [listed, List.length_map, List.length_take]
    by_cases long : 8 ≤ addresses.eraseDups.length
    · rw [if_neg fun free => by omega]
      split
      · rfl
      · rw [List.take_append_of_le_length long]
    · have whole : addresses.eraseDups.take 8 = addresses.eraseDups := List.take_of_length_le (by omega)
      rw [whole]
      by_cases old : address ∈ addresses
      · rw [if_pos old, if_neg fun free => by simp [old] at free, whole]
      · rw [if_neg old, if_pos ⟨by simp [old], by omega⟩, List.take_of_length_le (by simp; omega),
          List.map_append]
        rfl

section Parsed
variable (text : Text) (defaultAttempts defaultTimeoutMs : Int)

/-- The words of the options of a resolver configuration. -/
def optionsOf : List Text := (directives text).flatMap optionWords

/-- The number of attempts that the last option for it gives. -/
def configuredAttempts : Int := ((optionsOf text).filterMap attemptsOption).getLastD defaultAttempts

def configuredTimeoutMs : Int := ((optionsOf text).filterMap timeoutOption).getLastD defaultTimeoutMs

/-- The limits of a resolver configuration. -/
structure Readable : Prop where
  short : text.length ≤ 65535
  lines : ∀ line ∈ splitLines text, (configContent line).length ≤ 4096
  attempts : 0 < configuredAttempts text defaultAttempts
  timeout : 0 < configuredTimeoutMs text defaultTimeoutMs

variable {text defaultAttempts defaultTimeoutMs}

theorem parseResolverConfig_ok (short : text.length ≤ 65535)
    (lines : ∀ line ∈ splitLines text, (configContent line).length ≤ 4096) :
    parseResolverConfig text defaultAttempts defaultTimeoutMs =
      (ConfigDraft.after { attempts := defaultAttempts, timeoutMs := defaultTimeoutMs }
        (directives text)).config := by
  rw [parseResolverConfig, if_neg (Nat.not_lt.mpr short), lines_eq _ lines]
  rfl

theorem parseResolverConfig_readable {config : ResolverConfig}
    (parsed : parseResolverConfig text defaultAttempts defaultTimeoutMs = .ok config) :
    text.length ≤ 65535 ∧ ∀ line ∈ splitLines text, (configContent line).length ≤ 4096 := by
  unfold parseResolverConfig at parsed
  split at parsed
  · cases parsed
  · rename_i short
    refine ⟨Nat.not_lt.mp short, fun line member => Nat.not_lt.mp fun long => ?_⟩
    rw [lines_error ⟨line, member, long⟩] at parsed
    cases parsed

/-- What the constructor makes of a draft. -/
theorem config_eq_ok_iff {draft : ConfigDraft} {config : ResolverConfig} : draft.config = .ok config ↔
    0 < draft.attempts ∧ 0 < draft.timeoutMs ∧ config.toDnsResolverConfig.servers = draft.servers ∧
    config.attemptsPerServer = draft.attempts ∧
      config.attemptTimeoutMs = draft.timeoutMs ∧ config.maxInvalidReplies = 4 ∧ config.maxUdpBytes =
        4096 ∧ config.maxTcpBytes = 65535 ∧
      config.useTcp = draft.useTcp ∧ config.rotate = draft.rotate := by
  unfold ConfigDraft.config
  split
  · rename_i refused
    exact ⟨by rintro ⟨⟩, fun parts => by omega⟩
  · rename_i accepted
    constructor
    · rintro ⟨⟩
      exact ⟨by omega, by omega, rfl, rfl, rfl, rfl, rfl, rfl, rfl, rfl⟩
    · rintro ⟨-, -, servers, attempts, timeout, invalid, udp, tcp, useTcp, rotate⟩
      obtain ⟨⟨⟩, _⟩ := config
      simp only at servers attempts timeout invalid udp tcp useTcp rotate
      subst servers attempts timeout invalid udp tcp useTcp rotate
      rfl

end Parsed

theorem OptionGives.bounds {minimum maximum given : Nat} {value : Text} (ordered : minimum ≤ maximum)
    (gives : OptionGives minimum maximum value given) : minimum ≤ given ∧ given ≤ maximum := by
  obtain ⟨-, ⟨-, rfl⟩ | ⟨-, -, -, -, -, rfl⟩⟩ := gives
  · omega
  · omega

theorem numberOption_eq_some_iff {name : Text} {maximum : Nat} (positive : 1 ≤ maximum) {word : Text}
    {number : Nat} :
    numberOption name maximum word = some number ↔ ∃ value, word = name ++ value ∧
    OptionGives 1 maximum value number := by
  unfold numberOption
  constructor
  · intro found
    split at found
    · rename_i starts
      obtain ⟨value, rfl⟩ := List.isPrefixOf_iff_prefix.mp starts
      rw [List.drop_left] at found
      exact ⟨value, rfl, (boundedResolverOption_eq_some_iff positive).mp found⟩
    · cases found
  · rintro ⟨value, rfl, gives⟩
    rw [if_pos (List.isPrefixOf_iff_prefix.mpr (List.prefix_append _ _)), List.drop_left]
    exact (boundedResolverOption_eq_some_iff positive).mpr gives

theorem getLastD_mem {values : List Int} {default : Int} :
    values.getLastD default = default ∨ values.getLastD default ∈ values := by
  rcases List.mem_cons.mp (List.getLastD_mem_cons (l := values) (a := default)) with same | member
  · exact .inl same
  · exact .inr member

/-- An option that is there bounds what is configured. -/
theorem configured_bounds (text : Text) (defaultAttempts defaultTimeoutMs : Int) :
    (configuredAttempts text defaultAttempts = defaultAttempts ∨
      1 ≤ configuredAttempts text defaultAttempts ∧ configuredAttempts text defaultAttempts ≤ 5) ∧
    (configuredTimeoutMs text defaultTimeoutMs = defaultTimeoutMs ∨
      1000 ≤ configuredTimeoutMs text defaultTimeoutMs ∧ configuredTimeoutMs text defaultTimeoutMs ≤
        30000) := by
  refine ⟨getLastD_mem.imp_right fun member => ?_, getLastD_mem.imp_right fun member => ?_⟩
  · obtain ⟨word, -, found⟩ := List.mem_filterMap.mp member
    obtain ⟨number, isNumber, given⟩ := Option.map_eq_some_iff.mp found
    obtain ⟨value, -, gives⟩ := (numberOption_eq_some_iff (by decide)).mp isNumber
    have bounds := gives.bounds (by decide)
    rw [configuredAttempts, ← given]
    omega
  · obtain ⟨word, -, found⟩ := List.mem_filterMap.mp member
    obtain ⟨number, isNumber, given⟩ := Option.map_eq_some_iff.mp found
    obtain ⟨value, -, gives⟩ := (numberOption_eq_some_iff (by decide)).mp isNumber
    have bounds := gives.bounds (by decide)
    rw [configuredTimeoutMs, ← given]
    omega

/-- A resolver configuration is read exactly when it is within its limits. Its servers are the first
eight numeric addresses of the `nameserver` lines, each once, and the last option for the number of
attempts or for the timeout holds. An option gives a bounded number, so that the driver makes at
most five attempts at each of at most eight servers unless the caller's default is higher. Nothing
is assumed about the text; lines and options that are not known are skipped, as the source does. The
defaults are any, and only they can exceed the bounds of the options. -/
theorem resolver_config_parsed (text : Text) (defaultAttempts defaultTimeoutMs : Int) :
    ((∃ config, parseResolverConfig text defaultAttempts defaultTimeoutMs = .ok config) ↔
      Readable text defaultAttempts defaultTimeoutMs) ∧
    (∀ config, parseResolverConfig text defaultAttempts defaultTimeoutMs = .ok config →
      config.servers = (((directives text).filterMap namedServer).eraseDups.take 8).map (⟨·, 53⟩) ∧
      config.attemptsPerServer = configuredAttempts text defaultAttempts ∧
      config.attemptTimeoutMs = configuredTimeoutMs text defaultTimeoutMs ∧
      (config.rotate = true ↔ "rotate".toList ∈ optionsOf text) ∧
      (config.useTcp = true ↔ "use-vc".toList ∈ optionsOf text ∨ "usevc".toList ∈ optionsOf text) ∧
      (config.attemptsPerServer = defaultAttempts ∨ config.maxAttempts ≤ 40) ∧
      (config.attemptTimeoutMs = defaultTimeoutMs ∨ 1000 ≤ config.attemptTimeoutMs ∧
        config.attemptTimeoutMs ≤ 30000)) ∧
    (∀ name maximum word number, 1 ≤ maximum →
      (numberOption name maximum word = some number ↔ ∃ value, word = name ++ value ∧
        OptionGives 1 maximum value number)) := by
  refine ⟨⟨?_, ?_⟩, fun config parsed => ?_, fun name maximum word number positive =>
      numberOption_eq_some_iff positive⟩
  · rintro ⟨config, parsed⟩
    obtain ⟨short, lines⟩ := parseResolverConfig_readable parsed
    rw [parseResolverConfig_ok short lines, config_eq_ok_iff] at parsed
    exact ⟨short, lines, parsed.1, parsed.2.1⟩
  · rintro ⟨short, lines, attempts, timeout⟩
    rw [parseResolverConfig_ok short lines]
    exact ⟨_, dif_neg (not_or.mpr ⟨Int.not_le.mpr attempts, Int.not_le.mpr timeout⟩)⟩
  · obtain ⟨short, lines⟩ := parseResolverConfig_readable parsed
    obtain ⟨attemptsBound, timeoutBound⟩ := configured_bounds text defaultAttempts defaultTimeoutMs
    rw [parseResolverConfig_ok short lines, config_eq_ok_iff] at parsed
    obtain ⟨-, -, servers, attempts, timeout, -, -, -, useTcp, rotate⟩ := parsed
    have servers' : config.servers = _ := servers.trans (addServers_eq _)
    have attempts' : config.attemptsPerServer = configuredAttempts text defaultAttempts := attempts
    have timeout' : config.attemptTimeoutMs = configuredTimeoutMs text defaultTimeoutMs := timeout
    refine ⟨servers', attempts', timeout', ?_, ?_, ?_, ?_⟩
    · rw [rotate]
      change (false || (optionsOf text).any (· = "rotate".toList)) = true ↔ _
      simp only [Bool.false_or, List.any_eq_true, decide_eq_true_eq, exists_eq_right]
    · rw [useTcp]
      change (false || (optionsOf text).any fun word => word = "use-vc".toList ∨
        word = "usevc".toList) = true ↔ _
      simp only [Bool.false_or, List.any_eq_true, decide_eq_true_eq]
      constructor
      · rintro ⟨word, member, rfl | rfl⟩
        · exact .inl member
        · exact .inr member
      · rintro (member | member)
        · exact ⟨_, member, .inl rfl⟩
        · exact ⟨_, member, .inr rfl⟩
    · rw [attempts']
      refine attemptsBound.imp_right fun bounds => ?_
      have few : config.servers.length ≤ 8 := by
        rw [servers', List.length_map, List.length_take]
        exact Nat.min_le_left _ _
      rw [DnsResolverConfig.maxAttempts, attempts']
      calc _ ≤ (8 : Int) * 5 := Int.mul_le_mul (by omega) bounds.2 (by omega) (by decide)
        _ = 40 := rfl
    · rw [timeout']
      exact timeoutBound

end Dns
end PccGateway
