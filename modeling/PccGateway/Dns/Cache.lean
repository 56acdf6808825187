import PccGateway.Dns.Message
import PccGateway.Lib.Recency
import Mathlib.Data.List.AList

namespace PccGateway
namespace Dns

structure DnsCacheEntry where
  values : List Text
  expiresMs : Int
  negative : Bool
  source : String
  deriving DecidableEq

/-- The key `(name, qtype)`. -/
structure CacheKey where
  name : Text
  qtype : Int
  deriving DecidableEq

/-- The limits that the constructor of `DnsCache` accepts. -/
structure CacheLimits where
  maxEntries : Int := 1024
  negativeTtlMs : Int := 5000
  minTtlMs : Int := 1000
  maxTtlMs : Int := 3600000
  accepted : ¬ (maxEntries ≤ 0 ∨ negativeTtlMs ≤ 0 ∨ minTtlMs < 0 ∨ maxTtlMs < minTtlMs)

structure DnsCache where
  limits : CacheLimits
  entries : AList (fun _ : CacheKey => DnsCacheEntry) := ∅
  order : List CacheKey := []

def cacheKey (case : CaseMapping) (name : Text) (qtype : Int) : CacheKey := ⟨case.canonical name, qtype⟩

/-- The loop of `put` that makes room. -/
def evict : List CacheKey → AList (fun _ : CacheKey => DnsCacheEntry) →
    List CacheKey × AList (fun _ : CacheKey => DnsCacheEntry)
  | [], entries => ([], entries)
  | oldest :: order, entries =>
    if oldest ∈ entries then (order, entries.erase oldest) else evict order entries

/-- The ttl that `put` gives an entry. -/
def CacheLimits.entryTtl (limits : CacheLimits) (ttlMs : Int) (negative : Bool) : Int :=
  if negative then limits.negativeTtlMs
  else
    let ttlMs := if ttlMs < limits.minTtlMs then limits.minTtlMs else ttlMs
    if limits.maxTtlMs < ttlMs then limits.maxTtlMs else ttlMs

/-- The arguments of a call of `put`. -/
structure PutCall where
  name : Text
  qtype : Int
  values : List Text
  ttlMs : Int
  nowMs : Int
  negative : Bool := false
  source : String := "dns"

/-- The entry that a call of `put` makes. -/
def CacheLimits.entry (limits : CacheLimits) (call : PutCall) : DnsCacheEntry where
  values := call.values
  expiresMs := call.nowMs + limits.entryTtl call.ttlMs call.negative
  negative := call.negative
  source := call.source

namespace DnsCache

/-- `get`. A key that is not in `order` is left alone by `erase`, as the guard of the source has it. -/
def get (case : CaseMapping) (cache : DnsCache) (name : Text) (qtype nowMs : Int) :
    Option DnsCacheEntry × DnsCache :=
  let key := cacheKey case name qtype
  match cache.entries.lookup key with
  | none => (none, cache)
  | some entry =>
    if entry.expiresMs ≤ nowMs then
      (none, { cache with entries := cache.entries.erase key, order := cache.order.erase key })
    else (some entry, { cache with order := cache.order.erase key ++ [key] })

/-- `put`. -/
def put (case : CaseMapping) (cache : DnsCache) (call : PutCall) : DnsCacheEntry × DnsCache :=
  let key := cacheKey case call.name call.qtype
  let (order, entries) :=
    if key ∈ cache.entries then (cache.order.erase key, cache.entries)
    else if cache.limits.maxEntries ≤ cache.entries.keys.length then evict cache.order cache.entries
    else (cache.order, cache.entries)
  let entry := cache.limits.entry call
  (entry, { cache with order := order ++ [key], entries := entries.insert key entry })

end DnsCache

/-- A call on the cache. -/
inductive CacheCall where
  | get (name : Text) (qtype nowMs : Int)
  | put (call : PutCall)

namespace CacheCall

def key (case : CaseMapping) : CacheCall → CacheKey
  | .get name qtype _ => cacheKey case name qtype
  | .put call => cacheKey case call.name call.qtype

def run (case : CaseMapping) (cache : DnsCache) : CacheCall → Option DnsCacheEntry × DnsCache
  | .get name qtype nowMs => cache.get case name qtype nowMs
  | .put call => ((cache.put case call).1, (cache.put case call).2)

end CacheCall

/-- The cache after a list of calls. -/
def runCalls (case : CaseMapping) (cache : DnsCache) (calls : List CacheCall) : DnsCache :=
  calls.foldl (fun cache call => (call.run case cache).2) cache

/-- The keys that the calls put or got an entry of, in the order of the calls. -/
def runUses (case : CaseMapping) : DnsCache → List CacheCall → List CacheKey
  | _, [] => []
  | cache, call :: calls =>
    (if (call.run case cache).1.isSome then [call.key case] else []) ++
      runUses case (call.run case cache).2 calls

/-- The entry that a call puts under a key. -/
def CacheCall.puts (case : CaseMapping) (limits : CacheLimits) (key : CacheKey) :
    CacheCall → Option DnsCacheEntry
  | .get .. => none
  | .put call => if cacheKey case call.name call.qtype = key then some (limits.entry call) else none

/-- The entry of the last put of a key. -/
def lastPut (case : CaseMapping) (limits : CacheLimits) (calls : List CacheCall) (key : CacheKey) :
    Option DnsCacheEntry :=
  (calls.filterMap (CacheCall.puts case limits key)).getLast?

/-- The cache after calls with the given uses: `order` is the order of the last uses, and an entry is
that of the last put. -/
structure Tracked (case : CaseMapping) (limits : CacheLimits) (history : List CacheCall)
    (uses : List CacheKey) (cache : DnsCache) :
    Prop where
  limits_eq : cache.limits = limits
  order_eq : cache.order = recency uses (fun key => decide (key ∈ cache.entries))
  used : ∀ key ∈ cache.entries, key ∈ uses
  bounded : (cache.entries.keys.length : Int) ≤ limits.maxEntries
  last : ∀ key entry, cache.entries.lookup key = some entry → lastPut case limits history key = some entry

theorem get_cases (case : CaseMapping) (cache : DnsCache) (name : Text) (qtype nowMs : Int) :
    (cacheKey case name qtype ∉ cache.entries ∧ cache.get case name qtype nowMs = (none, cache)) ∨
    (∃ entry, cache.entries.lookup (cacheKey case name qtype) = some entry ∧ entry.expiresMs ≤ nowMs ∧
      cache.get case name qtype nowMs = (none, { cache with
        entries := cache.entries.erase (cacheKey case name qtype),
          order := cache.order.erase (cacheKey case name qtype) })) ∨
    (∃ entry, cache.entries.lookup (cacheKey case name qtype) = some entry ∧ nowMs < entry.expiresMs ∧
      cache.get case name qtype nowMs =
        (some entry, { cache with order := cache.order.erase (cacheKey case name qtype) ++
          [cacheKey case name qtype] })) := by
  unfold DnsCache.get
  cases found : cache.entries.lookup (cacheKey case name qtype) with
  | none => exact .inl ⟨AList.lookup_eq_none.mp found, by simp only [found]⟩
  | some entry =>
    by_cases expired : entry.expiresMs ≤ nowMs
    · exact .inr (.inl ⟨entry, rfl, expired, by simp only [found, if_pos expired]⟩)
    · exact .inr (.inr ⟨entry, rfl, by omega, by simp only [found, if_neg expired]⟩)

namespace Tracked

variable {case : CaseMapping} {limits : CacheLimits} {history : List CacheCall} {uses : List CacheKey}
  {cache : DnsCache}

theorem mem_order (tracked : Tracked case limits history uses cache) {key : CacheKey} :
    key ∈ cache.order ↔ key ∈ cache.entries := by
  rw [tracked.order_eq, Recency.mem]
  exact ⟨fun member => by simpa using member.2, fun stored => ⟨tracked.used key stored, by simpa using stored⟩⟩

theorem put_cases (tracked : Tracked case limits history uses cache) (call : PutCall) :
    let key := cacheKey case call.name call.qtype
    (key ∈ cache.entries ∧ cache.put case call =
      (limits.entry call, { cache with
        order := cache.order.erase key ++ [key]
        entries := cache.entries.insert key (limits.entry call) })) ∨
    (key ∉ cache.entries ∧ (cache.entries.keys.length : Int) < limits.maxEntries ∧ cache.put case call =
      (limits.entry call, { cache with
        order := cache.order ++ [key], entries := cache.entries.insert key (limits.entry call) })) ∨
    (key ∉ cache.entries ∧ limits.maxEntries ≤ (cache.entries.keys.length : Int) ∧
      ∃ victim rest, cache.order = victim :: rest ∧
      victim ∈ cache.entries ∧ cache.put case call = (limits.entry call, { cache with
        order := rest ++ [key],
          entries := (cache.entries.erase victim).insert key (limits.entry call) })) := by
  intro key
  by_cases stored : key ∈ cache.entries
  · exact .inl ⟨stored, by simp [DnsCache.put, key, stored, tracked.limits_eq]⟩
  by_cases full : limits.maxEntries ≤ (cache.entries.keys.length : Int)
  swap
  · exact .inr (.inl ⟨stored, by omega, by simp [DnsCache.put, key, stored, full, tracked.limits_eq]⟩)
  have some : cache.entries.keys ≠ [] := by
    intro none
    have accepted := limits.accepted
    rw [none, List.length_nil] at full
    omega
  obtain ⟨key', stored'⟩ := List.exists_mem_of_ne_nil _ some
  cases orderEq : cache.order with
  | nil =>
    have member := tracked.mem_order.mpr (AList.mem_keys.mpr stored')
    rw [orderEq] at member
    cases member
  | cons victim rest =>
    have held : victim ∈ cache.entries := tracked.mem_order.mp (orderEq ▸ List.mem_cons_self)
    refine .inr (.inr ⟨stored, full, victim, rest, rfl, held, ?_⟩)
    simp [DnsCache.put, key, stored, full, tracked.limits_eq, orderEq, evict, held]

theorem lastPut_get (name : Text) (qtype nowMs : Int) (key : CacheKey) :
    lastPut case limits (history ++ [.get name qtype nowMs]) key = lastPut case limits history key := by
  simp [lastPut, List.filterMap_append, CacheCall.puts]

theorem lastPut_put (call : PutCall) (key : CacheKey) :
    lastPut case limits (history ++ [.put call]) key =
      if cacheKey case call.name call.qtype = key then some (limits.entry call)
        else lastPut case limits history key := by
  by_cases same : cacheKey case call.name call.qtype = key
  · simp [lastPut, List.filterMap_append, CacheCall.puts, same]
  · simp [lastPut, List.filterMap_append, CacheCall.puts, same]

theorem get_next (tracked : Tracked case limits history uses cache) (name : Text) (qtype nowMs : Int) :
    Tracked case limits (history ++ [.get name qtype nowMs])
      (uses ++ if (cache.get case name qtype nowMs).1.isSome then [cacheKey case name qtype] else [])
      (cache.get case name qtype nowMs).2 := by
  obtain ⟨-, same⟩ | ⟨entry, found, -, same⟩ | ⟨entry, found, -, same⟩ :=
    get_cases case cache name qtype nowMs
  · rw [same]
    simp only [Option.isSome_none, Bool.false_eq_true, if_false, List.append_nil]
    exact { tracked with last := fun key entry found =>
      (lastPut_get ..).trans (tracked.last key entry found) }
  · rw [same]
    simp only [Option.isSome_none, Bool.false_eq_true, if_false, List.append_nil]
    refine ⟨tracked.limits_eq, ?_, fun key stored => tracked.used key (AList.mem_erase.mp stored).2,
      ?_, fun key other there => ?_⟩
    · dsimp only
      rw [tracked.order_eq]
      exact (Recency.forget fun other => by simp [AList.mem_erase, Bool.and_comm]).symm
    · have shorter := List.length_erase_le (a := cacheKey case name qtype) (l := cache.entries.keys)
      have bounded := tracked.bounded
      rw [AList.keys_erase]
      omega
    · rw [lastPut_get]
      by_cases same : key = cacheKey case name qtype
      · subst same
        simp at there
      · rw [AList.lookup_erase_ne same] at there
        exact tracked.last key other there
  · rw [same]
    simp only [Option.isSome_some, if_true]
    refine ⟨tracked.limits_eq, ?_, fun key stored => List.mem_append_left _ (tracked.used key stored),
      tracked.bounded, fun key entry found => (lastPut_get ..).trans (tracked.last key entry found)⟩
    dsimp only
    rw [tracked.order_eq]
    refine (Recency.use fun other => ?_).symm
    have stored : cacheKey case name qtype ∈ cache.entries := AList.lookup_isSome.mp (by rw [found]; rfl)
    by_cases same : other = cacheKey case name qtype <;> simp [same, stored]

/-- An entry is put into a cache whose recent keys and bound are known. -/
theorem insert_next (tracked : Tracked case limits history uses cache) (call : PutCall)
    (room : cacheKey case call.name call.qtype ∉ cache.entries →
      (cache.entries.keys.length : Int) < limits.maxEntries) :
    Tracked case limits (history ++ [.put call]) (uses ++ [cacheKey case call.name call.qtype])
      { cache with
        order := cache.order.erase (cacheKey case call.name call.qtype) ++
          [cacheKey case call.name call.qtype]
        entries := cache.entries.insert (cacheKey case call.name call.qtype) (limits.entry call) } := by
  refine ⟨tracked.limits_eq, ?_, fun key stored => ?_, ?_, fun key entry found => ?_⟩
  · dsimp only
    rw [tracked.order_eq]
    refine (Recency.use fun other => ?_).symm
    simp [AList.mem_insert, Bool.or_comm]
  · rcases (AList.mem_insert _).mp stored with rfl | stored
    · simp
    · exact List.mem_append_left _ (tracked.used key stored)
  · have bounded := tracked.bounded
    rw [AList.keys_insert, List.length_cons]
    by_cases stored : cacheKey case call.name call.qtype ∈ cache.entries
    · have shorter := List.length_erase_of_mem (AList.mem_keys.mp stored)
      have positive := List.length_pos_of_mem (AList.mem_keys.mp stored)
      omega
    · have shorter := List.length_erase_le (a := cacheKey case call.name call.qtype)
        (l := cache.entries.keys)
      have space := room stored
      omega
  · rw [lastPut_put]
    by_cases same : cacheKey case call.name call.qtype = key
    · subst same
      rw [if_pos rfl, ← found, AList.lookup_insert]
    · rw [if_neg same]
      rw [AList.lookup_insert_ne (Ne.symm same)] at found
      exact tracked.last key entry found

/-- The first key of `order` is dropped. -/
theorem evict_next (tracked : Tracked case limits history uses cache) {victim : CacheKey}
    {rest : List CacheKey} (first : cache.order = victim :: rest) :
    Tracked case limits history uses
      { cache with order := rest, entries := cache.entries.erase victim } := by
  refine ⟨tracked.limits_eq, ?_, fun key stored => tracked.used key (AList.mem_erase.mp stored).2, ?_,
    fun key entry found => ?_⟩
  · have forgotten : recency uses (fun key => decide (key ∈ cache.entries.erase victim)) =
        (recency uses fun key => decide (key ∈ cache.entries)).erase victim :=
      Recency.forget fun other => by simp [AList.mem_erase, Bool.and_comm]
    dsimp only
    rw [forgotten, ← tracked.order_eq, first, List.erase_cons_head]
  · have shorter := List.length_erase_le (a := victim) (l := cache.entries.keys)
    have bounded := tracked.bounded
    rw [AList.keys_erase]
    omega
  · by_cases same : key = victim
    · subst same
      simp at found
    · rw [AList.lookup_erase_ne same] at found
      exact tracked.last key entry found

theorem put_next (tracked : Tracked case limits history uses cache) (call : PutCall) :
    Tracked case limits (history ++ [.put call]) (uses ++ [cacheKey case call.name call.qtype])
      (cache.put case call).2 := by
  obtain ⟨stored, same⟩ | ⟨absent, room, same⟩ | ⟨absent, full, victim, rest, first, held, same⟩ :=
    tracked.put_cases call
  · rw [same]
    exact tracked.insert_next call (absurd stored)
  · have kept : cache.order.erase (cacheKey case call.name call.qtype) = cache.order :=
      List.erase_of_not_mem (mt tracked.mem_order.mp absent)
    have next := tracked.insert_next call fun _ => room
    rw [same]
    rwa [kept] at next
  · have evicted := tracked.evict_next first
    have absent' : cacheKey case call.name call.qtype ∉ cache.entries.erase victim := fun stored =>
      absent (AList.mem_erase.mp stored).2
    have kept : rest.erase (cacheKey case call.name call.qtype) = rest := by
      refine List.erase_of_not_mem (mt ?_ absent)
      intro member
      exact tracked.mem_order.mp (first ▸ List.mem_cons_of_mem _ member)
    have next := evicted.insert_next call fun _ => by
      have shorter := List.length_erase_of_mem (AList.mem_keys.mp held)
      have positive := List.length_pos_of_mem (AList.mem_keys.mp held)
      have bounded := tracked.bounded
      dsimp only
      rw [AList.keys_erase]
      omega
    rw [same]
    rwa [kept] at next

theorem run_next (tracked : Tracked case limits history uses cache) (call : CacheCall) :
    Tracked case limits (history ++ [call]) (uses ++ if (call.run case cache).1.isSome then
      [call.key case] else []) (call.run case cache).2 := by
  cases call with
  | get name qtype nowMs => exact tracked.get_next name qtype nowMs
  | put call => exact tracked.put_next call

theorem runs (tracked : Tracked case limits history uses cache) (calls : List CacheCall) :
    Tracked case limits (history ++ calls) (uses ++ runUses case cache calls)
      (runCalls case cache calls) := by
  induction calls generalizing history uses cache with
  | nil => simpa [runUses, runCalls] using tracked
  | cons call calls ih =>
    have next := ih (tracked.run_next call)
    rw [List.append_assoc, List.append_assoc] at next
    exact next

theorem fresh (case : CaseMapping) (limits : CacheLimits) : Tracked case limits [] [] { limits } := by
  refine ⟨rfl, rfl, fun key stored => ?_, ?_, fun key entry found => ?_⟩
  · simp at stored
  · have accepted := limits.accepted
    simp only [AList.keys_empty, List.length_nil]
    omega
  · simp at found

/-- What `get` gives and leaves. -/
theorem get_spec (tracked : Tracked case limits history uses cache) (name : Text) (qtype nowMs : Int) :
    (cache.get case name qtype nowMs).1 =
      (if cacheKey case name qtype ∈ cache.entries then
        (lastPut case limits history (cacheKey case name qtype)).filter fun entry => nowMs < entry.expiresMs
      else none) ∧
    ∀ other, (cache.get case name qtype nowMs).2.entries.lookup other =
      if other = cacheKey case name qtype ∧ (cache.get case name qtype nowMs).1 = none then
        none else cache.entries.lookup other := by
  obtain ⟨absent, same⟩ | ⟨entry, found, expired, same⟩ | ⟨entry, found, live, same⟩ :=
    get_cases case cache name qtype nowMs
  · rw [same, if_neg absent]
    refine ⟨rfl, fun other => ?_⟩
    split
    · rename_i here
      rw [here.1, AList.lookup_eq_none.mpr absent]
    · rfl
  · have stored : cacheKey case name qtype ∈ cache.entries := AList.lookup_isSome.mp (by rw [found]; rfl)
    rw [same, if_pos stored, tracked.last _ _ found]
    refine ⟨by simp [Option.filter, expired], fun other => ?_⟩
    by_cases here : other = cacheKey case name qtype
    · subst here
      simp
    · simp [here, AList.lookup_erase_ne here]
  · have stored : cacheKey case name qtype ∈ cache.entries := AList.lookup_isSome.mp (by rw [found]; rfl)
    rw [same, if_pos stored, tracked.last _ _ found]
    exact ⟨by simp [Option.filter, live], fun other => by simp⟩

/-- What `put` leaves: the key has the new entry, and only a full cache loses one, that which was used
least recently. -/
theorem put_spec (tracked : Tracked case limits history uses cache) (call : PutCall) :
    (cache.put case call).1 = limits.entry call ∧
    (cache.put case call).2.entries.lookup (cacheKey case call.name call.qtype) = some (limits.entry call) ∧
    if cacheKey case call.name call.qtype ∈ cache.entries ∨
        (cache.entries.keys.length : Int) < limits.maxEntries then
      ∀ other ≠ cacheKey case call.name call.qtype,
        (cache.put case call).2.entries.lookup other = cache.entries.lookup other
    else
      ∃ victim ∈ cache.entries, LeastRecent uses (fun key => decide (key ∈ cache.entries)) victim ∧
        ∀ other ≠ cacheKey case call.name call.qtype,
          (cache.put case call).2.entries.lookup other =
            if other = victim then none else cache.entries.lookup other := by
  obtain ⟨stored, same⟩ | ⟨absent, room, same⟩ | ⟨absent, full, victim, rest, first, held, same⟩ :=
    tracked.put_cases call
  · rw [same, if_pos (.inl stored)]
    exact ⟨rfl, AList.lookup_insert _, fun other ne => AList.lookup_insert_ne ne⟩
  · rw [same, if_pos (.inr room)]
    exact ⟨rfl, AList.lookup_insert _, fun other ne => AList.lookup_insert_ne ne⟩
  · rw [same, if_neg (not_or.mpr ⟨absent, Int.not_lt.mpr full⟩)]
    refine ⟨rfl, AList.lookup_insert _, victim, held, ?_, fun other ne => ?_⟩
    · exact Recency.head (fun other stored => tracked.used other (by simpa using stored))
        (tracked.order_eq.symm.trans first)
    · rw [AList.lookup_insert_ne ne]
      split
      · rename_i gone
        rw [gone, AList.lookup_erase]
      · rename_i kept
        rw [AList.lookup_erase_ne kept]

end Tracked

theorem CacheLimits.entry_expires (limits : CacheLimits) (call : PutCall) :
    (limits.entry call).expiresMs =
      call.nowMs + if call.negative then limits.negativeTtlMs else max limits.minTtlMs
          (min call.ttlMs limits.maxTtlMs) := by
  have accepted := limits.accepted
  simp only [CacheLimits.entry, CacheLimits.entryTtl]
  split
  · rfl
  · congr 1
    split <;> split <;> omega

theorem canonical_dots (case : CaseMapping) (name : Text) (dots : Nat) :
    case.canonical (name ++ List.replicate dots '.') = case.canonical name := by
  unfold CaseMapping.canonical
  congr 1
  induction dots with
  | zero => simp
  | succ dots ih =>
    rw [List.replicate_succ', ← List.append_assoc, List.rdropWhile_concat_pos _ _ _ (by rfl), ih]

theorem lowerChar_dot (c : Char) : (lowerChar c == '.') = (c == '.') := by
  by_cases dot : c = '.'
  · subst dot
    rfl
  have lowered : lowerChar c ≠ '.' := by
    unfold lowerChar
    dsimp only
    split
    · rename_i capital
      intro same
      have value := congrArg Char.toNat same
      rw [toNat_ofNat (by omega), show '.'.toNat = 46 from rfl] at value
      omega
    · exact dot
  rw [beq_eq_false_iff_ne.mpr lowered, beq_eq_false_iff_ne.mpr dot]

theorem lower_stripped (name : Text) :
    lower (name.rdropWhile (· == '.')) = (lower name).rdropWhile (· == '.') := by
  unfold lower List.rdropWhile
  rw [List.map_reverse, ← List.map_reverse (l := name), List.dropWhile_map]
  congr 3
  funext c
  exact (lowerChar_dot c).symm

theorem canonical_case (case : CaseMapping) {name other : Text} (plain : ∀ c ∈ name ++ other, c.toNat ≤ 127)
    (same : lower name = lower other) : case.canonical name = case.canonical other := by
  have stripped : ∀ text : Text, (∀ c ∈ text, c.toNat ≤ 127) →
      case.canonical text = (lower text).rdropWhile (· == '.') := by
    intro text plain
    rw [← lower_stripped]
    exact case.ascii _ fun c member => plain c ((List.rdropWhile_prefix (· == '.') text).subset member)
  rw [stripped name fun c member => plain c (List.mem_append_left _ member),
    stripped other fun c member => plain c (List.mem_append_right _ member), same]

/-- The cache over any calls with any times: which keys it has, what a `get` gives and what it
removes, what a `put` stores and which key it evicts for that, when an entry expires, and that names
which differ in case or in final dots share a key. A reader may take it as a map from keys to the
entry put last, with a bound on its size and the least recent use as the rule of eviction. Nothing
is assumed about the times, which may go back, nor about the limits. -/
theorem cache_lru (case : CaseMapping) (limits : CacheLimits) (calls : List CacheCall) :
    let cache := runCalls case { limits } calls
    let uses := runUses case { limits } calls
    (cache.order.Nodup ∧ (∀ key, key ∈ cache.order ↔ key ∈ cache.entries) ∧
      (cache.entries.keys.length : Int) ≤ limits.maxEntries) ∧
    (∀ name qtype nowMs,
      (cache.get case name qtype nowMs).1 =
        (if cacheKey case name qtype ∈ cache.entries then
          (lastPut case limits calls (cacheKey case name qtype)).filter fun entry => nowMs < entry.expiresMs
        else none) ∧
      ∀ other, (cache.get case name qtype nowMs).2.entries.lookup other =
        if other = cacheKey case name qtype ∧ (cache.get case name qtype nowMs).1 = none then none
        else cache.entries.lookup other) ∧
    (∀ call : PutCall,
      (cache.put case call).1 = limits.entry call ∧
      (cache.put case call).2.entries.lookup (cacheKey case call.name call.qtype) =
        some (limits.entry call) ∧
      if cacheKey case call.name call.qtype ∈ cache.entries ∨ (cache.entries.keys.length : Int) <
          limits.maxEntries then
        ∀ other ≠ cacheKey case call.name call.qtype, (cache.put case call).2.entries.lookup other =
          cache.entries.lookup other
      else
        ∃ victim ∈ cache.entries, LeastRecent uses (fun key => decide (key ∈ cache.entries)) victim ∧
          ∀ other ≠ cacheKey case call.name call.qtype,
            (cache.put case call).2.entries.lookup other = if other = victim then
              none else cache.entries.lookup other) ∧
    (∀ call : PutCall, (limits.entry call).expiresMs =
      call.nowMs + if call.negative then limits.negativeTtlMs else max limits.minTtlMs
        (min call.ttlMs limits.maxTtlMs)) ∧
    ∀ name other : Text, ∀ dots qtype, (∀ c ∈ name ++ other, c.toNat ≤ 127) → lower name = lower other →
      cacheKey case (name ++ List.replicate dots '.') qtype = cacheKey case other qtype := by
  intro cache uses
  have tracked : Tracked case limits calls uses cache := (Tracked.fresh case limits).runs calls
  refine ⟨⟨?_, fun key => tracked.mem_order, tracked.bounded⟩, tracked.get_spec, tracked.put_spec,
    limits.entry_expires, ?_⟩
  · rw [tracked.order_eq]
    exact Recency.nodup
  · intro name other dots qtype plain same
    rw [cacheKey, canonical_dots, canonical_case case plain same, cacheKey]

end Dns
end PccGateway
