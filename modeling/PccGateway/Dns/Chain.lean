import PccGateway.Dns.Message

namespace PccGateway
namespace Dns

/-- The answers that a pass of `_answer_values` collects. -/
def recordsOf (answers : List DnsAnswer) (qtype : Int) (current : Text) : List DnsAnswer :=
  answers.filter fun answer => answer.name = current ∧ (answer.qtype : Int) = qtype

/-- The answer at which the second loop of a pass breaks. -/
def firstCname (answers : List DnsAnswer) (current : Text) : Option DnsAnswer :=
  answers.find? fun answer => answer.name = current ∧ answer.qtype = dnsCname

/-- `ttl` after the answers of a loop. -/
def lowerTtl (ttl : Nat) (answers : List DnsAnswer) : Nat :=
  answers.foldl (fun ttl answer => if answer.ttl < ttl then answer.ttl else ttl) ttl

def answerLoop (answers : List DnsAnswer) (qtype : Int) :
    Nat → Text → Nat → List Text → Except DnsExn (List Text × Nat)
  | 0, _, _, _ => .error (.dns "cname-depth" "DNS CNAME chain exceeds gateway limit")
  | left + 1, current, ttl, visited =>
    let records := recordsOf answers qtype current
    let ttl := lowerTtl ttl records
    if records ≠ [] then .ok (records.map DnsAnswer.data, ttl)
    else
      match firstCname answers current with
      | none => .ok ([], ttl)
      | some answer =>
        let ttl := lowerTtl ttl [answer]
        if answer.data = [] then .ok ([], ttl)
        else if answer.data ∈ visited ∨ answer.data = current then
          .error (.dns "cname-loop" "DNS CNAME chain contains a loop")
        else answerLoop answers qtype left answer.data ttl (visited ++ [current])

/-- `_answer_values`. -/
def answerValues (case : CaseMapping) (answers : List DnsAnswer) (name : Text) (qtype : Int) :
    Except DnsExn (List Text × Nat) :=
  answerLoop answers qtype 16 (case.canonical name) 86400 []

/-- The chain of names from a name: `links` are the CNAME records followed, each the first one that
its name owns, and no name before the last owns a record of the type. -/
inductive Chain (answers : List DnsAnswer) (qtype : Int) : Text → List DnsAnswer → Text → Prop
  | stop {current} : Chain answers qtype current [] current
  | follow {current link links last} :
      recordsOf answers qtype current = [] → firstCname answers current = some link →
      link.data ≠ [] → Chain answers qtype link.data links last →
        Chain answers qtype current (link :: links) last

/-- The names of a chain. -/
def chainNames (current : Text) (links : List DnsAnswer) : List Text := current :: links.map DnsAnswer.data

/-- A name owns a CNAME record that leads on. -/
def Leads (answers : List DnsAnswer) (current : Text) : Prop :=
  ∃ link, firstCname answers current = some link ∧ link.data ≠ []

theorem Chain.extend {answers : List DnsAnswer} {qtype : Int} {current last : Text}
    {links : List DnsAnswer} {link : DnsAnswer}
    (chain : Chain answers qtype current links last) (bare : recordsOf answers qtype last = [])
    (first : firstCname answers last = some link) (nonempty : link.data ≠ []) :
    Chain answers qtype current (links ++ [link]) link.data := by
  induction chain with
  | stop => exact .follow bare first nonempty .stop
  | follow own next more _ ih => exact .follow own next more (ih bare first)

section Ttl

theorem lowerTtl_eq (ttl : Nat) (answers : List DnsAnswer) :
    lowerTtl ttl answers = (answers.map DnsAnswer.ttl).foldl min ttl := by
  induction answers generalizing ttl with
  | nil => rfl
  | cons answer rest ih =>
    have lowered : (if answer.ttl < ttl then answer.ttl else ttl) = min ttl answer.ttl := by
      split <;> omega
    simp only [lowerTtl, List.foldl_cons, List.map_cons] at ih ⊢
    rw [ih, lowered]

theorem lowerTtl_append (ttl : Nat) (first second : List DnsAnswer) :
    lowerTtl (lowerTtl ttl first) second = lowerTtl ttl (first ++ second) := (List.foldl_append ..).symm

theorem lowerTtl_min (ttl : Nat) (answers : List DnsAnswer) :
    (ttl :: answers.map DnsAnswer.ttl).min? = some (lowerTtl ttl answers) := by
  rw [lowerTtl_eq, List.min?_cons']

end Ttl

section Loop

variable {answers : List DnsAnswer} {qtype : Int}

theorem answerLoop_answers {left ttl : Nat} {current : Text} {visited : List Text}
    (owns : recordsOf answers qtype current ≠ []) :
    answerLoop answers qtype (left + 1) current ttl visited =
      .ok ((recordsOf answers qtype current).map DnsAnswer.data,
        lowerTtl ttl (recordsOf answers qtype current)) := by
  simp only [answerLoop, if_pos owns]

theorem answerLoop_ends {left ttl : Nat} {current : Text} {visited : List Text}
    (bare : recordsOf answers qtype current = []) (ends : ¬ Leads answers current) :
    ∃ low, answerLoop answers qtype (left + 1) current ttl visited = .ok ([], low) := by
  cases first : firstCname answers current with
  | none => exact ⟨ttl, by simp [answerLoop, bare, first, lowerTtl]⟩
  | some link =>
    have empty : link.data = [] := by
      by_contra nonempty
      exact ends ⟨link, first, nonempty⟩
    exact ⟨_,
      by simp only [answerLoop, bare, first, empty, ne_eq, not_true_eq_false, if_false, if_true]; rfl⟩

theorem answerLoop_leads {left ttl : Nat} {current : Text} {visited : List Text} {link : DnsAnswer}
    (bare : recordsOf answers qtype current = []) (first : firstCname answers current = some link)
    (nonempty : link.data ≠ []) :
    answerLoop answers qtype (left + 1) current ttl visited =
      if link.data ∈ visited ++ [current] then .error (.dns "cname-loop" "DNS CNAME chain contains a loop")
      else answerLoop answers qtype left link.data (lowerTtl ttl [link]) (visited ++ [current]) := by
  simp [answerLoop, bare, first, nonempty, lowerTtl]

/-- The loop follows a chain whose names differ. -/
theorem answerLoop_follows {current last : Text} {links : List DnsAnswer}
    (chain : Chain answers qtype current links last)
    (left ttl : Nat) (visited : List Text) (fresh : (visited ++ chainNames current links).Nodup) :
    answerLoop answers qtype (left + links.length) current ttl visited =
      answerLoop answers qtype left last (lowerTtl ttl links)
        (visited ++ (chainNames current links).dropLast) := by
  induction chain generalizing ttl visited with
  | stop => simp [chainNames, lowerTtl]
  | @follow current link links last bare first nonempty rest ih =>
    have fresh' : ((visited ++ [current]) ++ chainNames link.data links).Nodup := by
      simpa [chainNames] using fresh
    have new : link.data ∉ visited ++ [current] := by
      intro seen
      exact (List.nodup_append.mp fresh').2.2 _ seen _ (List.mem_cons_self ..) rfl
    rw [List.length_cons, ← Nat.add_assoc, answerLoop_leads bare first nonempty, if_neg new,
      ih _ _ fresh', lowerTtl_append]
    simp [chainNames]

theorem answerLoop_repeats {current last : Text} {links : List DnsAnswer}
    (chain : Chain answers qtype current links last)
    {left ttl : Nat} {visited : List Text} (enough : links.length ≤ left)
    (fresh : (visited ++ [current]).Nodup) (repeats : ¬ (visited ++ chainNames current links).Nodup) :
    answerLoop answers qtype left current ttl visited =
      .error (.dns "cname-loop" "DNS CNAME chain contains a loop") := by
  induction chain generalizing left ttl visited with
  | stop => exact absurd fresh (by simpa [chainNames] using repeats)
  | @follow current link links last bare first nonempty rest ih =>
    obtain ⟨left, rfl⟩ : ∃ n, left = n + 1 := ⟨left - 1, by simp at enough; omega⟩
    rw [answerLoop_leads bare first nonempty]
    split
    · rfl
    · rename_i new
      refine ih (by simpa using enough) ?_ (by simpa [chainNames] using repeats)
      exact List.nodup_append.mpr ⟨fresh, by simp, by grind⟩

/-- What the loop ends with, and the chain that it has followed until then. -/
theorem answerLoop_cases {left ttl : Nat} {current : Text} {visited : List Text}
    (fresh : (visited ++ [current]).Nodup) :
    ∃ links last, Chain answers qtype current links last ∧ (visited ++ chainNames current links).Nodup ∧
      ((links.length < left ∧ recordsOf answers qtype last ≠ [] ∧
        answerLoop answers qtype left current ttl visited =
          .ok ((recordsOf answers qtype last).map DnsAnswer.data,
            lowerTtl ttl (links ++ recordsOf answers qtype last))) ∨
        (links.length < left ∧ recordsOf answers qtype last = [] ∧ ¬ Leads answers last ∧
          ∃ low, answerLoop answers qtype left current ttl visited = .ok ([], low)) ∨
        (links.length < left ∧ recordsOf answers qtype last = [] ∧
          (∃ link, firstCname answers last = some link ∧ link.data ≠ [] ∧ link.data ∈ visited ++
            chainNames current links) ∧
          answerLoop answers qtype left current ttl visited =
            .error (.dns "cname-loop" "DNS CNAME chain contains a loop")) ∨
        (links.length = left ∧
          answerLoop answers qtype left current ttl visited =
            .error (.dns "cname-depth" "DNS CNAME chain exceeds gateway limit"))) := by
  induction left generalizing current ttl visited with
  | zero => exact ⟨[], current, .stop, by simpa [chainNames] using fresh, .inr (.inr (.inr ⟨rfl, rfl⟩))⟩
  | succ left ih =>
    by_cases owns : recordsOf answers qtype current ≠ []
    · exact ⟨[], current, .stop, by simpa [chainNames] using fresh, .inl ⟨by simp, owns,
        answerLoop_answers owns⟩⟩
    have bare : recordsOf answers qtype current = [] := not_not.mp owns
    by_cases leads : Leads answers current
    swap
    · exact ⟨[], current, .stop, by simpa [chainNames] using fresh, .inr (.inl ⟨by simp, bare, leads,
        answerLoop_ends bare leads⟩)⟩
    obtain ⟨link, first, nonempty⟩ := leads
    rw [answerLoop_leads bare first nonempty]
    by_cases seen : link.data ∈ visited ++ [current]
    · refine ⟨[], current, .stop, by simpa [chainNames] using fresh,
        .inr (.inr (.inl ⟨by simp, bare, ?_, if_pos seen⟩))⟩
      exact ⟨link, first, nonempty, by simpa [chainNames] using seen⟩
    · have fresh' : ((visited ++ [current]) ++ [link.data]).Nodup :=
        List.nodup_append.mpr ⟨fresh, by simp, by grind⟩
      obtain ⟨links, last, rest, distinct, outcome⟩ := @ih (lowerTtl ttl [link]) _ _ fresh'
      refine ⟨link :: links, last, .follow bare first nonempty rest,
        by simpa [chainNames] using distinct, ?_⟩
      rw [if_neg seen]
      simpa [chainNames, lowerTtl_append] using outcome

end Loop

section Locality

theorem recordsOf_owned (answers : List DnsAnswer) (qtype : Int) (current : Text) :
    recordsOf answers qtype current = (answers.filter (·.name = current)).filter fun answer =>
      (answer.qtype : Int) = qtype := by
  rw [recordsOf, List.filter_filter]
  refine List.filter_congr fun answer _ => ?_
  simp [Bool.and_comm]

theorem firstCname_owned (answers : List DnsAnswer) (current : Text) :
    firstCname answers current = (answers.filter (·.name = current)).find? fun answer =>
      answer.qtype = dnsCname := by
  rw [firstCname, List.find?_filter]
  simp

/-- The loop reads only the answers that the names of the chain own. -/
theorem answerLoop_local {answers others : List DnsAnswer} {qtype : Int} {left ttl : Nat}
    {current : Text} {visited : List Text}
    (same : ∀ links last, Chain answers qtype current links last →
      answers.filter (·.name = last) = others.filter (·.name = last)) :
    answerLoop answers qtype left current ttl visited =
      answerLoop others qtype left current ttl visited := by
  induction left generalizing current ttl visited with
  | zero => rfl
  | succ left ih =>
    have here := same [] current .stop
    have records : recordsOf others qtype current = recordsOf answers qtype current := by
      rw [recordsOf_owned, recordsOf_owned, here]
    have first : firstCname others current = firstCname answers current := by
      rw [firstCname_owned, firstCname_owned, here]
    simp only [answerLoop, records, first]
    split
    · rfl
    · rename_i owns
      cases found : firstCname answers current with
      | none => rfl
      | some link =>
        dsimp only
        split
        · rfl
        · rename_i nonempty
          split
          · rfl
          · exact ih fun links last rest => same _ last (.follow (not_not.mp owns) found nonempty rest)

end Locality

section Results

variable {case : CaseMapping} {answers : List DnsAnswer} {name : Text} {qtype : Int}

theorem answerValues_follows {last : Text} {links : List DnsAnswer}
    (chain : Chain answers qtype (case.canonical name) links last)
    (short : links.length ≤ 15) (distinct : (chainNames (case.canonical name) links).Nodup) :
    answerValues case answers name qtype =
      answerLoop answers qtype (15 - links.length + 1) last (lowerTtl 86400 links)
        (chainNames (case.canonical name) links).dropLast := by
  have run := answerLoop_follows chain (15 - links.length + 1) 86400 [] distinct
  rw [show 15 - links.length + 1 + links.length = 16 by omega] at run
  exact run

theorem answerValues_found (values : List Text) (ttl : Nat) :
    answerValues case answers name qtype = .ok (values, ttl) ∧ values ≠ [] ↔
      ∃ links last, Chain answers qtype (case.canonical name) links last ∧ links.length ≤ 15 ∧
        (chainNames (case.canonical name) links).Nodup ∧ recordsOf answers qtype last ≠ [] ∧
        values = (recordsOf answers qtype last).map DnsAnswer.data ∧
        (86400 :: (links ++ recordsOf answers qtype last).map DnsAnswer.ttl).min? = some ttl := by
  constructor
  · rintro ⟨result, nonempty⟩
    unfold answerValues at result
    obtain ⟨links, last, chain, distinct, outcome⟩ :=
      @answerLoop_cases answers qtype 16 86400 (case.canonical name) [] (by simp)
    rcases outcome with ⟨short, owns, run⟩ | ⟨_, _, _, low, run⟩ | ⟨_, _, _, run⟩ | ⟨_, run⟩
    · cases run.symm.trans result
      exact ⟨links, last, chain, by omega, distinct, owns, rfl, lowerTtl_min ..⟩
    · cases run.symm.trans result
      exact absurd rfl nonempty
    · cases run.symm.trans result
    · cases run.symm.trans result
  · rintro ⟨links, last, chain, short, distinct, owns, rfl, least⟩
    rw [lowerTtl_min] at least
    cases least
    refine ⟨?_, by simpa using owns⟩
    rw [answerValues_follows chain short distinct, answerLoop_answers owns, lowerTtl_append]

theorem answerValues_empty :
    (∃ ttl, answerValues case answers name qtype = .ok ([], ttl)) ↔
      ∃ links last, Chain answers qtype (case.canonical name) links last ∧ links.length ≤ 15 ∧
        (chainNames (case.canonical name) links).Nodup ∧ recordsOf answers qtype last = [] ∧
        ¬ Leads answers last := by
  constructor
  · rintro ⟨ttl, result⟩
    unfold answerValues at result
    obtain ⟨links, last, chain, distinct, outcome⟩ :=
      @answerLoop_cases answers qtype 16 86400 (case.canonical name) [] (by simp)
    rcases outcome with ⟨_, owns, run⟩ | ⟨short, bare, ends, _⟩ | ⟨_, _, _, run⟩ | ⟨_, run⟩
    · have empty := run.symm.trans result
      simp [owns] at empty
    · exact ⟨links, last, chain, by omega, distinct, bare, ends⟩
    · cases run.symm.trans result
    · cases run.symm.trans result
  · rintro ⟨links, last, chain, short, distinct, bare, ends⟩
    rw [answerValues_follows chain short distinct]
    exact answerLoop_ends bare ends

theorem answerValues_raises (error : DnsExn) :
    answerValues case answers name qtype = .error error ↔
      (error = .dns "cname-loop" "DNS CNAME chain contains a loop" ∧
        ∃ links last, Chain answers qtype (case.canonical name) links last ∧ links.length ≤ 16 ∧
          ¬ (chainNames (case.canonical name) links).Nodup) ∨
      (error = .dns "cname-depth" "DNS CNAME chain exceeds gateway limit" ∧
        ∃ links last, Chain answers qtype (case.canonical name) links last ∧ links.length = 16 ∧
          (chainNames (case.canonical name) links).Nodup) := by
  constructor
  · intro result
    unfold answerValues at result
    obtain ⟨links, last, chain, distinct, outcome⟩ :=
      @answerLoop_cases answers qtype 16 86400 (case.canonical name) [] (by simp)
    rcases outcome with ⟨_, _, run⟩ | ⟨_, _, _, low, run⟩ |
      ⟨short, bare, ⟨link, first, nonempty, seen⟩, run⟩ | ⟨deep, run⟩
    · cases run.symm.trans result
    · cases run.symm.trans result
    · cases run.symm.trans result
      refine .inl ⟨rfl, links ++ [link], link.data, chain.extend bare first nonempty, by simp; omega, ?_⟩
      intro nodup
      simp only [chainNames, List.map_append, List.map_cons, List.map_nil, ← List.cons_append] at nodup
      exact (List.nodup_append.mp nodup).2.2 _ seen _ (List.mem_singleton_self _) rfl
    · cases run.symm.trans result
      exact .inr ⟨rfl, links, last, chain, deep, distinct⟩
  · rintro (⟨rfl, links, last, chain, short, repeats⟩ | ⟨rfl, links, last, chain, deep, distinct⟩)
    · exact answerLoop_repeats chain short (by simp) repeats
    · have run := answerLoop_follows chain 0 86400 [] distinct
      rw [deep] at run
      exact run

end Results

/-- `_answer_values` on any list of answers. A result with values has those of the first name of the
chain that owns any, an empty result is for a chain that ends before, the two errors are for a chain
with a repeated name and for one of more than sixteen names; and the answers that other names own do
not matter. Nothing is assumed about the list: its answers may own any names, point anywhere and
stand in any order, and may be the same ones again and again. -/
theorem answer_chain (case : CaseMapping) (answers : List DnsAnswer) (name : Text) (qtype : Int) :
    (∀ values ttl, answerValues case answers name qtype = .ok (values, ttl) ∧ values ≠ [] ↔
      ∃ links last, Chain answers qtype (case.canonical name) links last ∧ links.length ≤ 15 ∧
        (chainNames (case.canonical name) links).Nodup ∧ recordsOf answers qtype last ≠ [] ∧
        values = (recordsOf answers qtype last).map DnsAnswer.data ∧
        (86400 :: (links ++ recordsOf answers qtype last).map DnsAnswer.ttl).min? = some ttl) ∧
    ((∃ ttl, answerValues case answers name qtype = .ok ([], ttl)) ↔
      ∃ links last, Chain answers qtype (case.canonical name) links last ∧ links.length ≤ 15 ∧
        (chainNames (case.canonical name) links).Nodup ∧ recordsOf answers qtype last = [] ∧
        ¬ Leads answers last) ∧
    (∀ error, answerValues case answers name qtype = .error error ↔
      (error = .dns "cname-loop" "DNS CNAME chain contains a loop" ∧
        ∃ links last, Chain answers qtype (case.canonical name) links last ∧ links.length ≤ 16 ∧
          ¬ (chainNames (case.canonical name) links).Nodup) ∨
      (error = .dns "cname-depth" "DNS CNAME chain exceeds gateway limit" ∧
        ∃ links last, Chain answers qtype (case.canonical name) links last ∧ links.length = 16 ∧
          (chainNames (case.canonical name) links).Nodup)) ∧
    ∀ others : List DnsAnswer, (∀ links last, Chain answers qtype (case.canonical name) links last →
        answers.filter (·.name = last) = others.filter (·.name = last)) →
      answerValues case others name qtype = answerValues case answers name qtype :=
  ⟨answerValues_found, answerValues_empty, answerValues_raises, fun _ same => (answerLoop_local same).symm⟩

end Dns
end PccGateway
