import PccGateway.Dns.Policy
import Mathlib.Data.List.Rotate
import Mathlib.Data.List.Sort
import Mathlib.Data.List.Lex
import Mathlib.Data.Char

namespace PccGateway
open Dns

/-- The fields of an `UpstreamEndpoint` that `_address_lock` guards. -/
structure AddressRotation (α : Type) where
  addressCursor : Nat := 0
  lastAddressSet : List α := []
  deriving DecidableEq, Repr

namespace AddressRotation
variable {α : Type} [LinearOrder α] {rotation : AddressRotation α} {values : List α}

/-- `tuple(sorted(current))`. -/
def sorted (values : List α) : List α := values.insertionSort (· ≤ ·)

theorem sorted_perm (values : List α) : (sorted values).Perm values := List.perm_insertionSort _ _

@[simp] theorem sorted_length (values : List α) :
    (sorted values).length = values.length := (sorted_perm values).length_eq

theorem mod_sorted_lt (given : values ≠ []) (index : Nat) :
    index % (sorted values).length < (sorted values).length :=
  Nat.mod_lt _ (by simpa [List.length_pos_iff] using given)

def chooseAddress (values : List α) (rotation : AddressRotation α) : AddressRotation α × Except Exn α :=
  if empty : values = [] then (rotation, .error (.value "upstream endpoint has no resolved address"))
  else
    let rotation := if sorted values ≠ rotation.lastAddressSet then ⟨0, sorted values⟩ else rotation
    let address := (sorted values).get
      ⟨rotation.addressCursor % (sorted values).length, mod_sorted_lt empty _⟩
    ({ rotation with addressCursor := (rotation.addressCursor + 1) % values.length }, .ok address)

/-- `ordered_addresses`, which is `_ordered_addresses_unlocked` under the lock. -/
def orderedAddresses (values : List α) (rotation : AddressRotation α) : AddressRotation α × List α :=
  if values = [] then (rotation, [])
  else
    let rotation := if sorted values ≠ rotation.lastAddressSet then ⟨0, sorted values⟩ else rotation
    let output := List.ofFn fun index : Fin (sorted values).length =>
      (sorted values).get
        ⟨(rotation.addressCursor + index) % (sorted values).length, Nat.mod_lt _ index.pos⟩
    ({ rotation with addressCursor := (rotation.addressCursor + 1) % (sorted values).length }, output)

/-- `accept_and_order_addresses`: what the policy refuses leaves the rotation alone. -/
def acceptAndOrderAddresses (case : CaseMapping) (call : AcceptCall)
    (endpoint : DnsAddressPolicy × AddressRotation Text) :
    (DnsAddressPolicy × AddressRotation Text) × Except DnsExn (List Text) :=
  match DnsAddressPolicy.accept case endpoint.1 call with
  | (.error error, policy) => ((policy, endpoint.2), .error error)
  | (.ok accepted, policy) =>
    let (rotation, addresses) := orderedAddresses accepted endpoint.2
    ((policy, rotation), .ok addresses)

/-- The operations that advance the rotation. -/
inductive Operation where
  | choose
  | ordered
  deriving DecidableEq, Repr

inductive Answer (α : Type) where
  | chosen (address : α)
  | ordered (addresses : List α)
  deriving DecidableEq, Repr

/-- The address that a connection attempt begins with. -/
def Answer.lead : Answer α → Option α
  | chosen address => some address
  | ordered addresses => addresses.head?

def serve (rotation : AddressRotation α) : Operation × List α → AddressRotation α × Except Exn (Answer α)
  | (.choose, values) =>
    let (next, result) := rotation.chooseAddress values
    (next, result.map .chosen)
  | (.ordered, values) =>
    let (next, addresses) := rotation.orderedAddresses values
    (next, .ok (.ordered addresses))

def serveAll : AddressRotation α → List (Operation × List α) →
    AddressRotation α × List (Except Exn (Answer α))
  | rotation, [] => (rotation, [])
  | rotation, call :: calls =>
    let (next, answer) := rotation.serve call
    let (last, answers) := serveAll next calls
    (last, answer :: answers)

/-- What an operation answers when the addresses stand in the order `turn`. -/
inductive Answers : Operation → List α → Answer α → Prop
  | choose {turn : List α} {address : α} :
      turn.head? = some address → Answers .choose turn (.chosen address)
  | ordered (turn : List α) : Answers .ordered turn (.ordered turn)

omit [LinearOrder α] in
theorem Answers.lead_eq {operation : Operation} {turn : List α} {answer : Answer α}
    (answers : Answers operation turn answer) :
    answer.lead = turn.head? := by
  cases answers with
  | choose first => exact first.symm
  | ordered => rfl

/-- The cursor that a call with these addresses starts from. -/
def opening (values : List α) (rotation : AddressRotation α) : Nat :=
  if sorted values ≠ rotation.lastAddressSet then 0 else rotation.addressCursor

theorem opening_eq (values : List α) (rotation : AddressRotation α) :
    (if sorted values ≠ rotation.lastAddressSet then ⟨0, sorted values⟩ else rotation) =
      (⟨rotation.opening values, sorted values⟩ : AddressRotation α) := by
  unfold opening
  split
  · rfl
  · rename_i same
    rw [not_not.mp same]

theorem opening_same (cursor : Nat) {other : List α} (same : sorted other = sorted values) :
    opening other ⟨cursor, sorted values⟩ = cursor := if_neg (not_not.mpr same)

theorem get_rotate {cursor index : Nat}
    (inside : (cursor + index) % (sorted values).length < (sorted values).length)
    (bound : index < ((sorted values).rotate cursor).length) :
    (sorted values).get ⟨(cursor + index) % (sorted values).length, inside⟩ =
    ((sorted values).rotate cursor)[index] := by
  simp only [List.getElem_rotate, List.get_eq_getElem, Nat.add_comm index]

/-- One call: it leads with the address at the cursor, which it then advances. -/
theorem serve_opening (operation : Operation) (given : values ≠ []) (rotation : AddressRotation α) :
    ∃ answer, rotation.serve (operation, values) =
        (⟨(rotation.opening values + 1) % values.length, sorted values⟩, .ok answer) ∧
      Answers operation ((sorted values).rotate (rotation.opening values)) answer := by
  cases operation with
  | choose =>
    have positive : 0 < ((sorted values).rotate (rotation.opening values)).length := by
      simpa [List.length_pos_iff] using given
    refine ⟨.chosen ((sorted values).get
      ⟨rotation.opening values % (sorted values).length, mod_sorted_lt given _⟩), ?_, .choose ?_⟩
    · simp only [serve, chooseAddress, dif_neg given, opening_eq]
      rfl
    · rw [List.head?_eq_getElem?, List.getElem?_eq_getElem positive, ← get_rotate (mod_sorted_lt given _)]
      rfl
  | ordered =>
    have output : List.ofFn (fun index : Fin (sorted values).length => (sorted values).get
          ⟨(rotation.opening values + index) % (sorted values).length, Nat.mod_lt _ index.pos⟩) =
        (sorted values).rotate (rotation.opening values) :=
      List.ext_getElem (by simp) fun index _ bound => by
        rw [List.getElem_ofFn]
        exact get_rotate _ bound
    refine ⟨.ordered ((sorted values).rotate (rotation.opening values)), ?_, .ordered _⟩
    simp only [serve, orderedAddresses, if_neg given, opening_eq, output]
    rw [sorted_length]

theorem serveAll_append (rotation : AddressRotation α) (calls more : List (Operation × List α)) :
    rotation.serveAll (calls ++ more) =
      (((rotation.serveAll calls).1.serveAll more).1,
        (rotation.serveAll calls).2 ++ ((rotation.serveAll calls).1.serveAll more).2) := by
  induction calls generalizing rotation with
  | nil => rfl
  | cons call calls ih => simp only [List.cons_append, serveAll, ih]

theorem serveAll_length (rotation : AddressRotation α) (calls : List (Operation × List α)) :
    (rotation.serveAll calls).2.length = calls.length := by
  induction calls generalizing rotation with
  | nil => rfl
  | cons call calls ih => simp only [serveAll, List.length_cons, ih]

/-- Every call answers, whatever the calls before it. -/
theorem serveAll_answers {calls : List (Operation × List α)} (given : ∀ call ∈ calls, call.2 ≠ [])
    (rotation : AddressRotation α) :
    ∃ answers, (rotation.serveAll calls).2 = answers.map .ok ∧
      List.Forall₂ (fun call answer => ∃ cursor,
        Answers call.1 ((sorted call.2).rotate cursor) answer) calls answers := by
  induction calls generalizing rotation with
  | nil => exact ⟨[], rfl, .nil⟩
  | cons call calls ih =>
    obtain ⟨operation, values⟩ := call
    obtain ⟨answer, served, first⟩ := serve_opening operation (given _ (List.mem_cons_self ..)) rotation
    obtain ⟨answers, run, later⟩ := ih (fun call member => given call (List.mem_cons_of_mem _ member))
      ⟨(rotation.opening values + 1) % values.length, sorted values⟩
    refine ⟨answer :: answers, ?_, .cons ⟨_, first⟩ later⟩
    simp only [serveAll, served, run, List.map_cons]

/-- A run of calls with one address set, begun at its `turn`-th address. -/
theorem serveAll_run {turn : Nat} {run : List (Operation × List α)} (given : values ≠ [])
    (same : ∀ call ∈ run, sorted call.2 = sorted values)
    (due : rotation.opening values = turn % values.length) :
    ∃ answers : List (Answer α), (rotation.serveAll run).2 = answers.map .ok ∧ answers.length = run.length ∧
      ∀ index call answer, run[index]? = some call → answers[index]? = some answer →
        Answers call.1 ((sorted values).rotate (turn + index)) answer := by
  induction run generalizing rotation turn with
  | nil => exact ⟨[], rfl, rfl, by simp⟩
  | cons call run ih =>
    obtain ⟨operation, others⟩ := call
    have equal : sorted others = sorted values := same _ (List.mem_cons_self ..)
    have length : others.length = values.length := by rw [← sorted_length others, equal, sorted_length]
    have nonempty : others ≠ [] := by rwa [← List.length_pos_iff, length, List.length_pos_iff]
    obtain ⟨answer, served, first⟩ := serve_opening operation nonempty rotation
    have opened : rotation.opening others = turn % values.length := by rw [← due, opening, opening, equal]
    rw [opened, length, equal] at served
    rw [opened, equal, ← sorted_length values, List.rotate_mod] at first
    obtain ⟨answers, ran, count, later⟩ :=
      @ih ⟨(turn % values.length + 1) % values.length, sorted values⟩ (turn + 1)
      (fun call member => same call (List.mem_cons_of_mem _ member))
      (by rw [opening_same _ rfl, Nat.mod_add_mod])
    refine ⟨answer :: answers, ?_, by rw [List.length_cons, List.length_cons, count], ?_⟩
    · simp only [serveAll, served, ran, List.map_cons]
    · intro index call' answer' atCall atAnswer
      cases index with
      | zero =>
        cases atCall
        cases atAnswer
        exact first
      | succ index =>
        have held := later index call' answer' atCall atAnswer
        rwa [Nat.add_right_comm, Nat.add_assoc] at held

/-- What is promised of the calls `run` that present the same set of addresses, one after another
since that set was new. -/
structure Rotates (values : List α) (run : List (Operation × List α)) (turns : List (Answer α)) : Prop where
  answers : ∀ index call answer, run[index]? = some call → turns[index]? = some answer →
    Answers call.1 ((sorted values).rotate index) answer
  lead : ∀ index answer, turns[index]? = some answer → answer.lead = (sorted values)[index % values.length]?
  cycle : ∀ start, start + values.length ≤ run.length →
    (((turns.drop start).take values.length).map Answer.lead).Perm (values.map some)
  restart : ∀ answer ∈ turns.head?, ∃ least, answer.lead = some least ∧ ∀ address ∈ values, least ≤ address

theorem Rotates.of_answers {run : List (Operation × List α)} {turns : List (Answer α)} (given : values ≠ [])
    (count : turns.length = run.length)
    (answers : ∀ index call answer, run[index]? = some call → turns[index]? = some answer →
      Answers call.1 ((sorted values).rotate index) answer) : Rotates values run turns := by
  have positive : 0 < values.length := List.length_pos_iff.mpr given
  have lead (index : Nat) (answer : Answer α) (found : turns[index]? = some answer) :
      answer.lead = (sorted values)[index % values.length]? := by
    obtain ⟨inside, -⟩ := List.getElem?_eq_some_iff.mp found
    have served := answers index run[index] answer (List.getElem?_eq_getElem (by omega)) found
    rw [served.lead_eq, ← List.rotate_mod, List.head?_rotate (Nat.mod_lt _ (by rwa [sorted_length])),
      sorted_length]
  refine ⟨answers, lead, fun start window => ?_, fun answer first => ?_⟩
  · have leads : ((turns.drop start).take values.length).map Answer.lead =
        ((sorted values).rotate start).map some := by
      refine List.ext_getElem (by simp; omega) fun index bound inside => ?_
      have placed : index < values.length := by simpa using inside
      have found : turns[start + index]? = some turns[start + index] := List.getElem?_eq_getElem (by omega)
      have wrapped : (index + start) % values.length < (sorted values).length := by
        rw [sorted_length]
        exact Nat.mod_lt _ positive
      simp only [List.getElem_map, List.getElem_take, List.getElem_drop, List.getElem_rotate,
        lead _ _ found]
      rw [Nat.add_comm start index, List.getElem?_eq_getElem wrapped]
      simp only [sorted_length]
    rw [leads]
    exact ((List.rotate_perm _ _).trans (sorted_perm values)).map some
  · have found : turns[0]? = some answer := by rwa [← List.head?_eq_getElem?]
    have inside : 0 < (sorted values).length := by rwa [sorted_length]
    refine ⟨(sorted values)[0],
      by rw [lead 0 answer found, Nat.zero_mod, List.getElem?_eq_getElem inside], fun address member => ?_⟩
    have ordered : (sorted values).Pairwise (· ≤ ·) := List.pairwise_insertionSort _ _
    obtain ⟨index, bound, rfl⟩ := List.mem_iff_getElem.mp ((sorted_perm values).mem_iff.mpr member)
    rcases Nat.eq_zero_or_pos index with rfl | later
    · exact le_rfl
    · exact List.pairwise_iff_getElem.mp ordered 0 index inside bound later

theorem Rotates.nil (values : List α) : Rotates values [] [] where
  answers := by simp
  lead := by simp
  cycle := fun start window => by
    have empty : values = [] :=
      List.length_eq_zero_iff.mp (Nat.le_zero.mp ((Nat.le_add_left ..).trans window))
    simp [empty]
  restart := nofun

theorem serve_last {calls : List (Operation × List α)} (given : ∀ call ∈ calls, call.2 ≠ [])
    {last : Operation × List α} (ends : last ∈ calls.getLast?) (rotation : AddressRotation α) :
    (rotation.serveAll calls).1.lastAddressSet = sorted last.2 := by
  obtain ⟨before, rfl⟩ := List.getLast?_eq_some_iff.mp ends
  obtain ⟨answer, served, -⟩ := serve_opening last.1 (given last (by simp)) (rotation.serveAll before).1
  simp only [serveAll_append, serveAll, served]

/-- Equal sets without duplicates sort to the same list. -/
theorem sorted_eq_iff {first second : List α} (nodup : first.Nodup) (nodup' : second.Nodup) :
    sorted first = sorted second ↔ ∀ address, address ∈ first ↔ address ∈ second := by
  rw [← List.perm_ext_iff_of_nodup nodup nodup']
  constructor
  · intro same
    exact (sorted_perm first).symm.trans (same ▸ sorted_perm second)
  · intro perm
    exact ((sorted_perm first).trans (perm.trans (sorted_perm second).symm)).eq_of_pairwise'
      (List.pairwise_insertionSort _ _) (List.pairwise_insertionSort _ _)

/-- Whatever calls an endpoint serves, an ordering is a rotation of the sorted set, and calls that
present one set again and again, in any order and to either operation, lead with its addresses in
turn, from the smallest on. What is assumed is that a call presents some addresses, and no address
twice, as the policy does. The runs may stand anywhere in the calls, and the calls in front of them
may be any. -/
theorem address_rotation (calls : List (Operation × List α))
    (given : ∀ call ∈ calls, call.2 ≠ [] ∧ call.2.Nodup) :
    ∃ answers : List (Answer α), (serveAll {} calls).2 = answers.map .ok ∧ answers.length = calls.length ∧
      (∀ (index : Nat) (values : List α), calls[index]? = some (.ordered, values) → ∃ addresses : List α,
        answers[index]? = some (.ordered addresses) ∧ addresses.Perm values ∧
        addresses.IsRotated (sorted values)) ∧
      ∀ (before run after : List (Operation × List α)) (values : List α), calls = before ++ run ++
        after → values.Nodup → (∀ call ∈ run, ∀ address, address ∈ call.2 ↔ address ∈ values) →
        (∀ last ∈ before.getLast?, ¬ ∀ address, address ∈ last.2 ↔ address ∈ values) →
        Rotates values run ((answers.drop before.length).take run.length) := by
  obtain ⟨answers, all, served⟩ := serveAll_answers (fun call member => (given call member).1) {}
  have count := served.length_eq
  refine ⟨answers, all, count.symm, fun index values found => ?_, ?_⟩
  · obtain ⟨inside, is⟩ := List.getElem?_eq_some_iff.mp found
    obtain ⟨cursor, answered⟩ := (List.forall₂_iff_get.mp served).2 index inside (by omega)
    rw [List.get_eq_getElem, is, List.get_eq_getElem] at answered
    have turned : answers[index] = .ordered ((sorted values).rotate cursor) := by
      generalize answers[index] = answer at answered
      cases answered
      rfl
    refine ⟨(sorted values).rotate cursor, by rw [List.getElem?_eq_getElem (by omega), turned],
      (List.rotate_perm _ _).trans (sorted_perm values), List.IsRotated.symm ⟨cursor, rfl⟩⟩
  · rintro before run after values rfl nodup same changed
    rcases run.eq_nil_or_concat with rfl | ⟨_, call, isRun⟩
    · simpa using Rotates.nil values
    · have member : call ∈ run := by simp [isRun]
      have provided : values ≠ [] := by
        rintro rfl
        exact (given call (by simp [member])).1 (List.eq_nil_iff_forall_not_mem.mpr fun address listed =>
          List.not_mem_nil ((same call member address).mp listed))
      have alike (call : Operation × List α) (member : call ∈ run) : sorted call.2 = sorted values :=
        (sorted_eq_iff (given call (by simp [member])).2 nodup).mpr (same call member)
      have fresh : (serveAll {} before).1.opening values = 0 := by
        refine if_pos fun unchanged => ?_
        cases ends : before.getLast? with
        | none =>
          rw [List.getLast?_eq_none_iff.mp ends] at unchanged
          exact provided (List.length_eq_zero_iff.mp (by rw [← sorted_length, unchanged]; rfl))
        | some last =>
          have listed := List.mem_of_getLast? ends
          rw [serve_last (fun call inside => (given call (by simp [inside])).1) ends] at unchanged
          exact changed last ends ((sorted_eq_iff (given last (by simp [listed])).2 nodup).mp
            unchanged.symm)
      obtain ⟨turns, ran, length, answered⟩ :=
        @serveAll_run _ _ (serveAll {} before).1 values 0 run provided alike fresh
      have cut : ((answers.drop before.length).take run.length).map Except.ok =
          turns.map (Except.ok (ε := Exn)) := by
        rw [List.map_take, List.map_drop, ← all, serveAll_append, serveAll_append, ran]
        simp [← serveAll_length {} before, ← length]
      rw [List.map_injective_iff.mpr (fun _ _ => Except.ok.inj) cut]
      exact .of_answers provided length fun index call answer found at_ => by
        simpa using answered index call answer found at_

/-- A record set that is answered in another order, then replaced. -/
def reorderedSet : List (Operation × List Text) :=
  [(.ordered, ["192.0.2.10".toList, "192.0.2.11".toList]),
    (.choose, ["192.0.2.11".toList, "192.0.2.10".toList]), (.ordered, ["198.51.100.20".toList])]

theorem address_rotation_reordered : ∃ answers : List (Answer Text),
    (serveAll {} reorderedSet).2 = answers.map .ok ∧
    Rotates ["192.0.2.10".toList, "192.0.2.11".toList] (reorderedSet.take 2) (answers.take 2) := by
  obtain ⟨answers, all, -, -, turns⟩ := address_rotation reorderedSet (by decide)
  have distinct : ["192.0.2.10".toList, "192.0.2.11".toList].Nodup := by decide
  have same : ∀ call ∈ reorderedSet.take 2, ∀ address, address ∈ call.2 ↔
      address ∈ ["192.0.2.10".toList, "192.0.2.11".toList] := by
    intro call member address
    rcases List.mem_cons.mp member with rfl | member
    · rfl
    · cases List.mem_singleton.mp member
      exact (List.Perm.swap ..).mem_iff
  exact ⟨answers, all, turns [] (reorderedSet.take 2) (reorderedSet.drop 2) _
    (List.take_append_drop 2 _).symm distinct same nofun⟩

example : (serveAll {} reorderedSet).2 = [.ok (.ordered ["192.0.2.10".toList, "192.0.2.11".toList]),
    .ok (.chosen "192.0.2.11".toList), .ok (.ordered ["198.51.100.20".toList])] := by decide

end AddressRotation
end PccGateway
