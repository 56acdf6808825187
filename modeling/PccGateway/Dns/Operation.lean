import PccGateway.Dns.Chain
import PccGateway.Dns.Policy

namespace PccGateway
namespace Dns

structure ResolveOperation where
  queryId : Int
  name : Text
  qtype : Int
  deadlineMs : Int
  cache : DnsCache
  policy : DnsAddressPolicy
  query : Bytes
  useTcp : Bool := false
  done : Bool := false
  cancelled : Bool := false
  values : List Text := []
  error : String := ""
  source : String := "dns"

/-- The constructor of `ResolveOperation`. -/
def newOperation (case : CaseMapping) (queryId : Int) (name : Text) (qtype deadlineMs : Int)
    (cache : DnsCache) (policy : DnsAddressPolicy) :
    Except DnsExn ResolveOperation := do
  let name := case.canonical name
  let query ← buildQuery case queryId name qtype
  return { queryId, name, qtype, deadlineMs, cache, policy, query }

/-- A new operation has the identifier and the deadline that it was given. -/
theorem newOperation_fields {case : CaseMapping} {queryId : Int} {name : Text}
    {qtype deadlineMs : Int} {cache : DnsCache}
    {policy : DnsAddressPolicy} {operation : ResolveOperation}
    (made : newOperation case queryId name qtype deadlineMs cache policy = .ok operation) :
    operation.queryId = queryId ∧ operation.deadlineMs = deadlineMs := by
  unfold newOperation at made
  cases query : buildQuery case queryId (case.canonical name) qtype with
  | error error => simp [query, bind, Except.bind] at made
  | ok query' =>
    simp only [query, bind, Except.bind, pure, Except.pure, Except.ok.injEq] at made
    rw [← made]
    exact ⟨rfl, rfl⟩

/-- A message behind its length, as DNS over TCP has it. -/
def frame (message : Bytes) : Bytes := putU16 message.length ++ message

namespace ResolveOperation

def cancel (operation : ResolveOperation) : ResolveOperation :=
  if operation.done then
    operation else { operation with cancelled := true, done := true, error := "cancelled" }

def checkDeadline (operation : ResolveOperation) (nowMs : Int) : ResolveOperation :=
  if ¬ operation.done ∧ ¬ operation.cancelled ∧ operation.deadlineMs ≤ nowMs then
    { operation with error := "timeout", done := true }
  else operation

/-- The message of a payload that `receive` is given. -/
def unframe (operation : ResolveOperation) (payload : Bytes) : Except DnsExn Bytes :=
  if operation.useTcp then
    if payload.length < 2 then .error (.dns "bad-tcp-frame" "invalid DNS TCP length prefix")
    else do
      let length ← u16 payload 0
      if length ≠ payload.length - 2 then throw (.dns "bad-tcp-frame" "invalid DNS TCP length prefix")
      else return payload.drop 2
  else .ok payload

/-- The entry that `receive` puts for a name without addresses. -/
def negative (operation : ResolveOperation) (nowMs : Int) : PutCall :=
  { name := operation.name, qtype := operation.qtype, values := [], ttlMs := 0, nowMs, negative := true }

/-- `receive` from the answers on. -/
def receiveAnswers (case : CaseMapping) (operation : ResolveOperation) (response : DnsResponse)
    (nowMs : Int) :
    Except DnsExn (Option Bytes) × ResolveOperation :=
  match answerValues case response.answers operation.name operation.qtype with
  | .error error => (.error error, operation)
  | .ok (values, ttl) =>
    if values = [] then
      (.ok none, { operation with
        cache := (operation.cache.put case (operation.negative nowMs)).2, error := "no-address",
          done := true })
    else
      match operation.policy.accept case { name := operation.name, values, qtype := operation.qtype } with
      | (.error error, policy) => (.error error, { operation with policy })
      | (.ok values, policy) =>
        (.ok none, { operation with
          policy, values, done := true
          cache := (operation.cache.put case
            { name := operation.name, qtype := operation.qtype, values, ttlMs := ttl * 1000, nowMs }).2 })

/-- `receive` once the response is parsed. -/
def receiveResponse (case : CaseMapping) (operation : ResolveOperation) (response : DnsResponse)
    (nowMs : Int) :
    Except DnsExn (Option Bytes) × ResolveOperation :=
  if response.truncated ∧ ¬ operation.useTcp then
    (.ok (some (frame operation.query)), { operation with useTcp := true })
  else if response.rcode = 3 then
    (.ok none, { operation with
      cache := (operation.cache.put case (operation.negative nowMs)).2, error := "nxdomain", done := true })
  else if response.rcode ≠ 0 then
    (.error (.dns ("rcode-" ++ toString response.rcode) "DNS server returned an error"), operation)
  else operation.receiveAnswers case response nowMs

/-- `receive`: the framed query when the operation goes over to TCP, and the operation after it. -/
def receive (case : CaseMapping) (operation : ResolveOperation) (payload : Bytes) (nowMs : Int) :
    Except DnsExn (Option Bytes) × ResolveOperation :=
  if operation.cancelled ∨ operation.done then
    (.error (.dns "inactive" "DNS operation is no longer active"), operation)
  else if operation.deadlineMs ≤ nowMs then
    (.error (.dns "timeout" "DNS operation deadline expired"), operation.checkDeadline nowMs)
  else
    match operation.unframe payload with
    | .error error => (.error error, operation)
    | .ok message =>
      match parseResponse case message operation.queryId operation.name operation.qtype with
      | .error error => (.error error, operation)
      | .ok response => operation.receiveResponse case response nowMs

end ResolveOperation

end Dns
end PccGateway
