import PccGateway.Dns.Chain
import PccGateway.Dns.NameCodec

namespace PccGateway
namespace Dns

/-- No label has the separator of names in it. -/
def DotFree (labels : List Text) : Prop := ∀ label ∈ labels, '.' ∉ label

instance (labels : List Text) : Decidable (DotFree labels) :=
  inferInstanceAs (Decidable (∀ label ∈ labels, _))

/-- The text of a name has its labels if and only if none of them has the separator. -/
theorem splitOn_joinLabels {labels : List Text} (nonempty : labels ≠ []) :
    labels = (joinLabels labels).splitOn '.' ↔ DotFree labels := by
  constructor
  · intro same label member
    rw [same] at member
    exact Search.not_mem_of_mem_splitOn member
  · intro free
    exact (List.splitOn_intercalate '.' free nonempty).symm

/-- What holds of a result, if there is one. -/
def Returns {α : Type} (good : α → Prop) (call : Except DnsExn α) : Prop := ∀ a, call = .ok a → good a

section Returns
variable {α β : Type} {good : α → Prop} {fine : β → Prop}

theorem Returns.pure {a : α} (holds : good a) : Returns good (Pure.pure a) := by
  rintro _ ⟨⟩
  exact holds

theorem Returns.throw (error : DnsExn) : Returns good (throw error : Except DnsExn α) := nofun

theorem Returns.bind {call : Except DnsExn α} {next : α → Except DnsExn β}
    (later : ∀ a, call = .ok a → Returns fine (next a)) :
    Returns fine (call >>= next) := by
  intro b is
  cases call with
  | error error => cases is
  | ok a => exact later a rfl b is

theorem Returns.ite {p : Prop} [Decidable p] {first second : Except DnsExn α}
    (yes : p → Returns good first) (no : ¬ p → Returns good second) :
    Returns good (if p then first else second) := by
  split
  · exact yes ‹p›
  · exact no ‹¬ p›

end Returns

/-- An answer has the name that its labels make, and a CNAME that of its target. -/
def DnsAnswer.Flattens (answer : DnsAnswer) : Prop :=
  answer.name = joinLabels answer.owner ∧ (answer.qtype = dnsCname → answer.data = joinLabels answer.target)

section Answers
variable {case : CaseMapping} {payload : Bytes}

theorem readRecordData_flattens (owner : List Text) (head : RecordHead) (offset : Nat) :
    Returns (fun found => ∀ answer ∈ found, answer.Flattens)
      (readRecordData case payload owner head offset) := by
  refine .ite (fun _ => .pure nofun) fun _ => .ite (fun ipv4 => .bind fun _ _ => .pure ?_) fun _ =>
    .ite (fun ipv6 => .bind fun _ _ => .pure ?_) fun _ =>
    .ite (fun _ => .bind fun _ _ => .ite (fun _ => .throw _) fun _ => .pure ?_) fun _ => .pure nofun
  · rintro _ ⟨⟩
    exact ⟨rfl, fun cname => absurd (ipv4.1.symm.trans cname) (by decide)⟩
  · rintro _ ⟨⟩
    exact ⟨rfl, fun cname => absurd (ipv6.1.symm.trans cname) (by decide)⟩
  · rintro _ ⟨⟩
    exact ⟨rfl, fun _ => rfl⟩

theorem readRecords_flattens (left offset : Nat) :
    Returns (fun answers => ∀ answer ∈ answers, answer.Flattens)
      (readRecords case payload left offset) := by
  induction left generalizing offset with
  | zero =>
    rintro _ ⟨⟩
    exact nofun
  | succ left ih =>
    have first : Returns (fun found => ∀ answer ∈ found.1, answer.Flattens)
        (readRecord case payload offset) :=
      .bind fun _ _ => .bind fun _ _ => .ite (fun _ => .throw _) fun _ =>
        .bind fun found read => .pure (readRecordData_flattens _ _ _ found read)
    refine .bind fun found read => .bind fun rest later => .pure fun answer member => ?_
    rcases List.mem_append.mp member with isFirst | isLater
    · exact first found read answer (Option.mem_toList.mp isFirst)
    · exact ih found.2 rest later answer isLater

end Answers

/-- What `parse_response` has checked of a response. -/
structure Checked (case : CaseMapping) (payload : Bytes) (queryId : Int) (name : Text) (qtype : Int)
    (response : DnsResponse) : Prop where
  id : u16 payload 0 = .ok response.queryId ∧ (response.queryId : Int) = queryId
  question : ∃ labels kind offset, readQuestion case payload = .ok (labels, kind, dnsClassIn,
    offset) ∧ (kind : Int) = qtype ∧ joinLabels labels = case.canonical name
  answers : ∀ answer ∈ response.answers, answer.Flattens

theorem parseResponse_checked (case : CaseMapping) (payload : Bytes) (queryId : Int) (name : Text)
    (qtype : Int) :
    Returns (Checked case payload queryId name qtype) (parseResponse case payload queryId name qtype) := by
  refine .ite (fun _ => .throw _) fun _ => .bind fun responseId isId => .bind fun flags _ =>
      .ite (fun _ => .throw _) fun sameId =>
    .ite (fun _ => .throw _) fun _ => .ite (fun _ => .throw _) fun _ => .bind fun _ _ =>
      .bind fun ancount _ => .ite (fun _ => .throw _) fun _ =>
    .ite (fun _ => .throw _) fun _ => .bind fun question isQuestion =>
      .ite (fun _ => .throw _) fun matches_ => .bind fun answers read => .pure ?_
  obtain ⟨labels, kind, class_, offset⟩ := question
  obtain ⟨sameName, others⟩ := not_or.mp matches_
  obtain ⟨sameKind, sameClass⟩ := not_or.mp others
  have sameClass : class_ = dnsClassIn := not_not.mp sameClass
  subst sameClass
  exact ⟨⟨isId, not_not.mp sameId⟩, ⟨labels, kind, offset, isQuestion, not_not.mp sameKind,
    not_not.mp sameName⟩, readRecords_flattens _ _ answers read⟩

/-- The labels that a name is encoded with. -/
def labelsOf (name : Text) : List Text := if name = [] then [] else name.splitOn '.'

/-- `answerLoop`, with the answers that it takes. Each stands with the labels that its name has on the
wire, `labels` for `current`; a name that a CNAME leads to has those of the target. -/
def takingLoop (answers : List DnsAnswer) (qtype : Int) :
    Nat → Text → List Text → Nat → List Text →
      List (DnsAnswer × List Text) × Except DnsExn (List Text × Nat)
  | 0, _, _, _, _ => ([], .error (.dns "cname-depth" "DNS CNAME chain exceeds gateway limit"))
  | left + 1, current, labels, ttl, visited =>
    let records := recordsOf answers qtype current
    let ttl := lowerTtl ttl records
    if records ≠ [] then (records.map fun answer => (answer, labels), .ok (records.map DnsAnswer.data, ttl))
    else
      match firstCname answers current with
      | none => ([], .ok ([], ttl))
      | some answer =>
        let ttl := lowerTtl ttl [answer]
        if answer.data = [] then ([(answer, labels)], .ok ([], ttl))
        else if answer.data ∈ visited ∨ answer.data = current then
          ([(answer, labels)], .error (.dns "cname-loop" "DNS CNAME chain contains a loop"))
        else
          let (taken, outcome) :=
            takingLoop answers qtype left answer.data answer.target ttl (visited ++ [current])
          ((answer, labels) :: taken, outcome)

/-- `_answer_values`, with the answers that it takes. -/
def takingValues (case : CaseMapping) (answers : List DnsAnswer) (name : Text) (qtype : Int) :
    List (DnsAnswer × List Text) × Except DnsExn (List Text × Nat) :=
  takingLoop answers qtype 16 (case.canonical name) (labelsOf (case.canonical name)) 86400 []

section Taking
variable {answers : List DnsAnswer} {qtype : Int}

theorem takingLoop_outcome (left : Nat) (current : Text) (labels : List Text) (ttl : Nat)
    (visited : List Text) :
    (takingLoop answers qtype left current labels ttl visited).2 = answerLoop answers qtype left
    current ttl visited := by
  induction left generalizing current labels ttl visited with
  | zero => rfl
  | succ left ih =>
    simp only [takingLoop, answerLoop]
    split
    · rfl
    · cases firstCname answers current with
      | none => rfl
      | some answer =>
        dsimp only
        split
        · rfl
        · split
          · rfl
          · exact ih ..

theorem takingValues_outcome (case : CaseMapping) (name : Text) :
    (takingValues case answers name qtype).2 = answerValues case answers name qtype := takingLoop_outcome ..

/-- An answer is taken for a name that is its own as a text. -/
theorem takingLoop_texts (flattens : ∀ answer ∈ answers, answer.Flattens) {left : Nat}
    {current : Text} {labels : List Text}
    {ttl : Nat} {visited : List Text} (text : current = joinLabels labels) :
    ∀ taken ∈ (takingLoop answers qtype left current labels ttl visited).1, joinLabels taken.1.owner =
      joinLabels taken.2 := by
  induction left generalizing current labels ttl visited with
  | zero => simp [takingLoop]
  | succ left ih =>
    have own {answer : DnsAnswer} (member : answer ∈ answers) (named : answer.name = current) :
        joinLabels answer.owner = joinLabels labels := by
      rw [← (flattens answer member).1, named, text]
    simp only [takingLoop]
    split
    · rintro _ taken
      obtain ⟨answer, isRecord, rfl⟩ := List.mem_map.mp taken
      obtain ⟨member, is⟩ := List.mem_filter.mp isRecord
      exact own member (of_decide_eq_true is).1
    · cases first : firstCname answers current with
      | none => simp
      | some link =>
        have member : link ∈ answers := List.mem_of_find?_eq_some first
        obtain ⟨named, isCname⟩ : link.name = current ∧ link.qtype = dnsCname := by
          simpa using List.find?_some first
        have here := own member named
        dsimp only
        split
        · simpa using here
        · split
          · simpa using here
          · refine List.forall_mem_cons.mpr ⟨here, ih ?_⟩
            exact (flattens link member).2 isCname

end Taking

/-- The labels have the same lengths, which is what the length octets of a name on the wire say and
its text does not. -/
def SameLengths (first second : List Text) : Prop := first.map List.length = second.map List.length

theorem eq_of_sameLengths {first second : List Text} (text : joinLabels first = joinLabels second)
    (lengths : SameLengths first second) : first = second := by
  induction first generalizing second with
  | nil => exact (List.map_eq_nil_iff.mp lengths.symm).symm
  | cons label rest ih =>
    cases second with
    | nil => cases lengths
    | cons label' rest' =>
      obtain ⟨length, lengths⟩ := List.cons.inj lengths
      cases rest with
      | nil =>
        obtain rfl := List.map_eq_nil_iff.mp lengths.symm
        simpa [joinLabels] using text
      | cons next rest =>
        cases rest' with
        | nil => cases lengths
        | cons next' rest' =>
          simp only [joinLabels, List.intercalate_cons_cons, List.append_assoc] at text
          obtain ⟨same, behind⟩ := List.append_inj text length
          rw [same, ih (List.append_cancel_left behind) lengths]

/-- A reply that is bound to its query: the same identifier, the same question by its labels, and
answers that `_answer_values` takes for a name, when it is asked for `asked`, only if they have its
labels. -/
structure Bound (case : CaseMapping) (query payload : Bytes) (queryId qtype : Int)
    (response : DnsResponse) (asked : Text) (type : Int) : Prop where
  id : ∃ id, u16 payload 0 = .ok id ∧ (id : Int) = queryId
  question : ∃ labels kind behind behind', decodeLabels case query 12 = .ok (labels, behind) ∧
    readQuestion case payload = .ok (labels, kind, dnsClassIn, behind') ∧ (kind : Int) = qtype
  owners : (takingValues case response.answers asked type).2 =
    answerValues case response.answers asked type ∧
    ∀ answer labels, (answer, labels) ∈ (takingValues case response.answers asked type).1 →
    answer.owner = labels

/-- No label of the question has the separator in it, and the names that `_answer_values` finds equal
have labels of the same lengths. -/
structure Undotted (case : CaseMapping) (payload : Bytes) (response : DnsResponse) (asked : Text)
    (type : Int) : Prop where
  question : ∀ labels rest, readQuestion case payload = .ok (labels, rest) → DotFree labels
  owners : ∀ answer labels, (answer, labels) ∈ (takingValues case response.answers asked type).1 →
    SameLengths answer.owner labels

theorem buildQuery_labels {case : CaseMapping} {queryId : Int} {name : Text} {qtype : Int} {query : Bytes}
    (built : buildQuery case queryId name qtype = .ok query) :
    case.canonical name ≠ [] ∧ ∃ behind, decodeLabels case query 12 =
      .ok ((case.canonical name).splitOn '.', behind) := by
  obtain ⟨-, -, -, -, out, isEncoded, parts⟩ := buildQuery_parts built
  have encoded := encodeName_encoded isEncoded
  refine ⟨encoded.nonempty, 12 + out.length, ?_⟩
  rw [parts, List.append_assoc _ (putU16 qtype.toNat)]
  exact encoded.decodeLabels

theorem joinLabels_labelsOf (name : Text) : joinLabels (labelsOf name) = name := by
  unfold labelsOf
  split
  · rename_i empty
    rw [empty]
    rfl
  · exact joinLabels_splitOn name

/-- A reply that is accepted is bound to its query if and only if no label of its question has the
separator of names in it and the length octets of the names in it agree wherever their texts do.
`asked` and `type` are what `_answer_values` is called with; the resolver calls it with the name and
the type of the query. Nothing is assumed about the payload. -/
theorem reply_bound (case : CaseMapping) (query payload : Bytes) (queryId : Int) (name : Text)
    (qtype : Int) (response : DnsResponse)
    (asked : Text) (type : Int) (built : buildQuery case queryId name qtype = .ok query)
    (parsed : parseResponse case payload queryId name qtype = .ok response) :
    Bound case query payload queryId qtype response asked type ↔
      Undotted case payload response asked type := by
  obtain ⟨nonempty, behind, isAsked⟩ := buildQuery_labels built
  obtain ⟨⟨isId, sameId⟩, ⟨labels, kind, offset, isQuestion, sameKind, sameName⟩, flattens⟩ :=
    parseResponse_checked case payload queryId name qtype response parsed
  have some_ : labels ≠ [] := by
    rintro rfl
    exact nonempty sameName.symm
  constructor
  · intro bound
    refine ⟨fun others rest is => ?_, fun answer owner taken => ?_⟩
    · obtain ⟨shared, kind', behind', behind'', isShared, isRead, -⟩ := bound.question
      rw [isAsked] at isShared
      rw [is] at isRead
      cases isShared
      cases isRead
      exact fun label => Search.not_mem_of_mem_splitOn
    · rw [bound.owners.2 answer owner taken]
      rfl
  · intro undotted
    have same := (splitOn_joinLabels some_).mpr (undotted.question labels _ isQuestion)
    rw [sameName] at same
    refine ⟨⟨_, isId, sameId⟩, ⟨labels, kind, behind, offset, same ▸ isAsked, isQuestion, sameKind⟩,
      takingValues_outcome .., ?_⟩
    intro answer owner taken
    exact eq_of_sameLengths (takingLoop_texts flattens (joinLabels_labelsOf _).symm _ taken)
      (undotted.owners answer owner taken)

/-- A response to a query for `a.b`, whose question and answer are for a single label. -/
def dottedReply : Bytes :=
  [0, 7, 0x81, 0, 0, 1, 0, 1, 0, 0, 0, 0, 3, 97, 46, 98, 0, 0, 1, 0, 1, 0xC0, 12, 0, 1, 0, 1, 0, 0, 0,
    60, 0, 4, 192, 0, 2, 1]

def dottedAnswer : DnsAnswer where
  name := "a.b".toList
  qtype := 1
  data := "192.0.2.1".toList
  ttl := 60
  owner := ["a.b".toList]

/-- The query for `a.b` with the identifier 7. -/
def abQuery : Bytes := [0, 7, 1, 0, 0, 1, 0, 0, 0, 0, 0, 0, 1, 97, 1, 98, 0, 0, 1, 0, 1]

theorem dottedReply_parsed :
    parseResponse latin1Mapping dottedReply 7 "a.b".toList 1 =
      .ok { queryId := 7, truncated := false, rcode := 0, answers := [dottedAnswer] } := by
  decide

/-- A reply about another name is accepted, and its answer is taken. -/
theorem dotted_reply_accepted :
    buildQuery latin1Mapping 7 "a.b".toList 1 = .ok abQuery ∧
    ∃ response, parseResponse latin1Mapping dottedReply 7 "a.b".toList 1 = .ok response ∧
      answerValues latin1Mapping response.answers "a.b".toList 1 = .ok (["192.0.2.1".toList], 60) ∧
      ¬ Bound latin1Mapping abQuery dottedReply 7 1 response "a.b".toList 1 := by
  refine ⟨by decide, _, dottedReply_parsed, by decide, fun bound => ?_⟩
  have owner := bound.owners.2 dottedAnswer ["a".toList, "b".toList] (by decide)
  exact absurd owner (by decide)

/-- The echo of the query is bound to it. -/
theorem reply_bound_echo :
    Bound latin1Mapping abQuery (respond abQuery) 7 1
      { queryId := 7, truncated := false, rcode := 0, answers := [] }
      "a.b".toList 1 := by
  refine (reply_bound latin1Mapping abQuery (respond abQuery) 7 "a.b".toList 1 _ "a.b".toList 1
    (by decide)
    (by decide)).mpr ⟨fun labels rest is => ?_, fun answer labels taken => ?_⟩
  · have read : readQuestion latin1Mapping (respond abQuery) =
        .ok (["a".toList, "b".toList], 1, 1, 21) := by decide
    rw [read] at is
    cases is
    decide
  · cases taken

/-- A CNAME leads from `a.b` to the single label `c.d`, and the address of the two labels `c` and `d`
is taken for it. -/
example :
    let link : DnsAnswer := {
      name := "a.b".toList, qtype := 5, data := "c.d".toList, ttl := 60
      owner := ["a".toList, "b".toList], target := ["c.d".toList] }
    let address : DnsAnswer := {
      name := "c.d".toList, qtype := 1, data := "192.0.2.1".toList, ttl := 60,
      owner := ["c".toList, "d".toList] }
    takingValues latin1Mapping [link, address] "a.b".toList 1 =
      ([(link, ["a".toList, "b".toList]), (address, ["c.d".toList])], .ok (["192.0.2.1".toList], 60)) := by
  decide

end Dns
end PccGateway
