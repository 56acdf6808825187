import PccGateway.Proxy.Headers

namespace PccGateway
variable {headers rest : List Header} {trustIncoming : Bool}

def isForwardingName (name : Text) : Bool :=
  name = "x-forwarded-for".toList ∨ name = "x-forwarded-proto".toList ∨ name = "x-forwarded-host".toList

/-- The surviving headers that reach the upstream: with trust the incoming `x-forwarded-for` fields
stay among them. -/
def isForwarded (trustIncoming : Bool) (header : Header) : Bool :=
  !isForwardingName header.1 || (trustIncoming && header.1 = "x-forwarded-for".toList)

/-- A request's forwarding fields, made anew by the gateway from what survived sanitisation. -/
structure Reconstructed (surviving : List Header) (clientIp scheme originalHost : Text)
    (trustIncoming : Bool) (output : List Header) : Prop where
  forwardedFor : fieldValues output "x-forwarded-for" =
    [if trustIncoming = false ∨ fieldValues surviving "x-forwarded-for" = [] then clientIp
      else List.intercalate ", ".toList (fieldValues surviving "x-forwarded-for" ++ [clientIp])]
  forwardedProto : fieldValues output "x-forwarded-proto" = [scheme]
  forwardedHost : fieldValues output "x-forwarded-host" = [originalHost]
  others : output.filter (!isForwardingName ·.1) = surviving.filter (!isForwardingName ·.1)

theorem forwardedLoop_eq (kept : List Header) (incoming : Text) :
    forwardedLoop trustIncoming headers (kept, incoming) =
      (kept ++ headers.filter (isForwarded trustIncoming),
      if trustIncoming then (fieldValues headers "x-forwarded-for").getLastD incoming else incoming) := by
  induction headers generalizing kept incoming with
  | nil => simp [forwardedLoop, fieldValues]
  | cons header rest ih =>
    obtain ⟨name, value⟩ := header
    by_cases isFor : name = "x-forwarded-for".toList
    · have listed : fieldValues ((name, value) :: rest) "x-forwarded-for" =
          value :: fieldValues rest "x-forwarded-for" := by
        rw [fieldValues, List.filter_cons_of_pos (by exact decide_eq_true isFor)]
        rfl
      have named : isForwardingName name = true := decide_eq_true (.inl isFor)
      rw [forwardedLoop, if_pos (.inl isFor), listed]
      cases trustIncoming with
      | false =>
        have dropped : isForwarded false (name, value) = false := by
          simp only [isForwarded, named, Bool.not_true, Bool.false_and, Bool.or_self]
        rw [if_pos (.inl rfl), ih, List.filter_cons_of_neg (by rw [dropped]; exact Bool.false_ne_true)]
        rfl
      | true =>
        have kept : isForwarded true (name, value) = true := by
          simp only [isForwarded, isFor, decide_true, Bool.and_self, Bool.or_true]
        rw [if_neg (by rintro (off | apart); exacts [Bool.noConfusion off, apart isFor]), if_pos
          ⟨rfl, isFor⟩, ih, List.filter_cons_of_pos kept, List.append_assoc, List.getLastD_cons]
        rfl
    · have apart : fieldValues ((name, value) :: rest) "x-forwarded-for" =
          fieldValues rest "x-forwarded-for" := by
        rw [fieldValues, List.filter_cons_of_neg (by exact mt of_decide_eq_true isFor)]
        rfl
      have other : isForwarded trustIncoming (name, value) = !isForwardingName name := by
        simp only [isForwarded, isFor, decide_false, Bool.and_false, Bool.or_false]
      rw [forwardedLoop, apart, List.filter_cons, other]
      split
      · rename_i named
        have forwarding : isForwardingName name = true := decide_eq_true named
        simp only [isFor, ne_eq, not_false_eq_true, or_true, if_true, and_false, if_false, ih,
          forwarding, Bool.not_true, Bool.false_eq_true]
      · rename_i unnamed
        have plain : isForwardingName name = false := decide_eq_false unnamed
        rw [ih, plain, List.append_assoc]
        rfl

/-- The fields with a forwarding name among the forwarded ones. -/
theorem fieldValues_forwarded {name : String} (forwarding : isForwardingName name.toList = true) :
    fieldValues (headers.filter (isForwarded trustIncoming)) name =
      if trustIncoming ∧ name = "x-forwarded-for" then fieldValues headers name else [] := by
  have kept (header : Header) (named : header.1 = name.toList) :
      isForwarded trustIncoming header = decide (trustIncoming ∧ name = "x-forwarded-for") := by
    simp only [isForwarded, named, forwarding, Bool.not_true, Bool.false_or, Bool.decide_and,
      Bool.decide_eq_true, String.toList_inj]
  rw [fieldValues, List.filter_filter]
  split
  · rename_i trusted
    refine congrArg (List.map _) (List.filter_congr fun header _ => ?_)
    by_cases named : header.1 = name.toList
    · rw [kept header named, decide_eq_true trusted, Bool.and_true]
    · rw [decide_eq_false named, Bool.false_and]
  · rename_i untrusted
    rw [List.map_eq_nil_iff, List.filter_eq_nil_iff]
    intro header _ both
    simp only [Bool.and_eq_true, decide_eq_true_eq] at both
    rw [kept header both.1, decide_eq_true_eq] at both
    exact untrusted both.2

theorem forwardedRequestHeaders_eq (headers : List Header) (clientIp scheme originalHost : Text)
    (trustIncoming : Bool) :
    ∃ chain, forwardedRequestHeaders headers clientIp scheme originalHost trustIncoming =
        (sanitizeHopByHop headers).filter (isForwarded trustIncoming) ++
          [("x-forwarded-for".toList, chain), ("x-forwarded-proto".toList, scheme),
            ("x-forwarded-host".toList, originalHost)] ∧
      (trustIncoming = false ∨ fieldValues (sanitizeHopByHop headers) "x-forwarded-for" = [] →
        chain = clientIp) := by
  simp only [forwardedRequestHeaders, forwardedLoop_eq]
  refine ⟨_, rfl, ?_⟩
  rintro (untrusted | none)
  · simp [untrusted]
  · simp [none]

/-- The forwarding fields are the gateway's own exactly when no incoming `x-forwarded-for` is
trusted: one that survives stays beside the chain that the gateway appends. Nothing is assumed about
the headers, the peer, the scheme or the host. The fields that are removed hop by hop are removed
before, which is why the condition speaks of those that survive. -/
theorem forwarded_reconstructed_iff (headers : List Header) (clientIp scheme originalHost : Text)
    (trustIncoming : Bool) :
    Reconstructed (sanitizeHopByHop headers) clientIp scheme originalHost trustIncoming
        (forwardedRequestHeaders headers clientIp scheme originalHost trustIncoming) ↔
      trustIncoming = false ∨ fieldValues (sanitizeHopByHop headers) "x-forwarded-for" = [] := by
  obtain ⟨chain, output, alone⟩ :=
    forwardedRequestHeaders_eq headers clientIp scheme originalHost trustIncoming
  rw [output]
  constructor
  · intro made
    by_contra trusted
    have fields := made.forwardedFor
    obtain ⟨trusts, survives⟩ := not_or.mp trusted
    rw [fieldValues_append, fieldValues_forwarded rfl, if_pos ⟨by simpa using trusts, rfl⟩] at fields
    -- the surviving fields, and the gateway's own one behind them
    have count := congrArg List.length fields
    have positive := List.length_pos_iff.mpr survives
    have own : (fieldValues [("x-forwarded-for".toList, chain), ("x-forwarded-proto".toList, scheme),
      ("x-forwarded-host".toList, originalHost)] "x-forwarded-for").length = 1 := rfl
    rw [List.length_append, own, List.length_singleton] at count
    omega
  · intro untrusted
    have nothing (name : String) (forwarding : isForwardingName name.toList = true) :
        fieldValues ((sanitizeHopByHop headers).filter (isForwarded trustIncoming)) name = [] := by
      rw [fieldValues_forwarded forwarding]
      split
      · rename_i trusted
        rcases untrusted with distrusted | none
        · simp [distrusted] at trusted
        · rw [trusted.2, none]
      · rfl
    refine ⟨?_, ?_, ?_, ?_⟩
    · rw [fieldValues_append, nothing _ rfl, if_pos untrusted, alone untrusted]
      rfl
    · rw [fieldValues_append, nothing _ rfl]
      rfl
    · rw [fieldValues_append, nothing _ rfl]
      rfl
    · have others (header : Header) : (!isForwardingName header.1 &&
          isForwarded trustIncoming header) = !isForwardingName header.1 := by
        unfold isForwarded
        cases isForwardingName header.1 <;> rfl
      rw [List.filter_append, List.filter_filter, List.filter_congr fun header _ => others header]
      exact List.append_nil _

/-- Two trusted proxies before the gateway: their fields stay, and the new chain names only the last
of them. -/
theorem forwarded_not_reconstructed :
    let incoming : List Header := [
      ("X-Forwarded-For".toList, "203.0.113.9".toList),
      ("x-forwarded-for".toList, "198.51.100.7".toList)]
    let output := forwardedRequestHeaders incoming "192.0.2.4".toList "https".toList "front".toList true
    fieldValues output "x-forwarded-for" =
        ["203.0.113.9".toList, "198.51.100.7".toList, "198.51.100.7, 192.0.2.4".toList] ∧
      ¬ Reconstructed (sanitizeHopByHop incoming) "192.0.2.4".toList "https".toList
        "front".toList true output := by
  intro incoming output
  have values : fieldValues output "x-forwarded-for" =
      ["203.0.113.9".toList, "198.51.100.7".toList, "198.51.100.7, 192.0.2.4".toList] := by decide
  refine ⟨values, fun made => ?_⟩
  have count := congrArg List.length (values.symm.trans made.forwardedFor)
  cases count

end PccGateway
