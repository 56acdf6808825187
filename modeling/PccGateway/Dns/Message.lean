import PccGateway.Text

namespace PccGateway
namespace Dns

def dnsA : Nat := 1
def dnsCname : Nat := 5
def dnsAaaa : Nat := 28
def dnsClassIn : Nat := 1

/-- What the functions of the resolver can raise. `index` and `unfinished` stand for an `IndexError`
and for a loop that does not end. -/
inductive DnsExn where
  | dns (code message : String)
  | value (message : String)
  | index
  | unfinished
  deriving DecidableEq, Repr

/-- `str.lower()`: ASCII letters are mapped as ASCII has it, and no capital letter of ASCII is left.
The other characters are mapped as the tables of Unicode have it. -/
structure CaseMapping where
  lower : Text → Text
  ascii : ∀ text : Text, (∀ c ∈ text, c.toNat ≤ 127) → lower text = text.map lowerChar
  settled : ∀ text : Text, ∀ c ∈ lower text, ¬ (65 ≤ c.toNat ∧ c.toNat ≤ 90)

/-- `name.rstrip(".").lower()`. -/
def CaseMapping.canonical (case : CaseMapping) (name : Text) : Text :=
  case.lower (name.rdropWhile (· == '.'))

/-- `".".join(labels)`. -/
def joinLabels (labels : List Text) : Text := List.intercalate ['.'] labels

/-- `data[index]`. -/
def byteAt (data : Bytes) (index : Nat) : Except DnsExn Nat :=
  match data[index]? with
  | some byte => .ok byte.toNat
  | none => .error .index

/-- `_u16`. -/
def u16 (data : Bytes) (offset : Nat) : Except DnsExn Nat := do
  if data.length < offset + 2 then throw (.dns "truncated" "truncated DNS u16")
  else return (← byteAt data offset) * 256 + (← byteAt data (offset + 1))

/-- `_u32`. -/
def u32 (data : Bytes) (offset : Nat) : Except DnsExn Nat := do
  if data.length < offset + 4 then throw (.dns "truncated" "truncated DNS u32")
  else
    return (← byteAt data offset) * 16777216 + (← byteAt data (offset + 1)) * 65536 +
      (← byteAt data (offset + 2)) * 256 + (← byteAt data (offset + 3))

/-- What `_put_u16` appends. -/
def putU16 (value : Nat) : Bytes := [UInt8.ofNat ((value >>> 8) &&& 255), UInt8.ofNat (value &&& 255)]

/-- A byte that a label of a query may have. -/
def isLabelByte (value : UInt8) : Bool :=
  (48 ≤ value && value ≤ 57) || (65 ≤ value && value ≤ 90) || (97 ≤ value && value ≤ 122) || value == 45

/-- One label of `encode_name`. -/
def encodeLabel (label : Text) : Except DnsExn Bytes :=
  match encodeAscii label with
  | none => .error (.dns "bad-name" "DNS names must be pre-encoded ASCII")
  | some raw =>
    if raw.length = 0 ∨ 63 < raw.length then .error (.dns "bad-name" "DNS label length is invalid")
    else if raw.head? = some 45 ∨ raw.getLast? = some 45 then
      .error (.dns "bad-name" "DNS label cannot start or end with hyphen")
    else if raw.all isLabelByte = false then .error (.dns "bad-name" "unsupported DNS label byte")
    else .ok (UInt8.ofNat raw.length :: raw)

def encodeLabels : List Text → Except DnsExn Bytes
  | [] => .ok [0]
  | label :: rest => do return (← encodeLabel label) ++ (← encodeLabels rest)

def encodeName (case : CaseMapping) (name : Text) : Except DnsExn Bytes :=
  let canonical := case.canonical name
  if canonical = [] ∨ 253 < canonical.length then .error (.dns "bad-name" "DNS name length is invalid")
  else encodeLabels (canonical.splitOn '.')

/-- The variables of `decode_name`. -/
structure NameCursor where
  labels : List Text := []
  cursor : Nat
  nextOffset : Option Nat := none
  jumps : Nat := 0
  visited : List Nat := []

/-- `raw.decode("ascii")`; `none` is the `UnicodeDecodeError`. -/
def decodeAscii (raw : Bytes) : Option Text := if raw.all (· ≤ 127) then some (latin1Text raw) else none

/-- The pass of `decode_name` at a compression pointer. -/
def followPointer (data : Bytes) (length : Nat) (name : NameCursor) : Except DnsExn NameCursor := do
  if data.length ≤ name.cursor + 1 then throw (.dns "truncated" "truncated DNS compression pointer")
  else
    let pointer := ((length &&& 0x3F) <<< 8) ||| (← byteAt data (name.cursor + 1))
    if data.length ≤ pointer ∨ pointer ∈ name.visited then
      throw (.dns "bad-compression" "invalid DNS compression pointer")
    else if 32 < name.jumps + 1 then throw (.dns "bad-compression" "DNS compression chain too deep")
    else
      return { name with
        visited := name.visited ++ [pointer], nextOffset := name.nextOffset.or
          (some (name.cursor + 2)), cursor := pointer, jumps := name.jumps + 1 }

/-- The pass at a label. -/
def readLabel (case : CaseMapping) (data : Bytes) (length : Nat) (name : NameCursor) :
    Except DnsExn NameCursor :=
  if 63 < length ∨ data.length < name.cursor + 1 + length then
    .error (.dns "truncated" "invalid DNS label length")
  else
    match decodeAscii ((data.drop (name.cursor + 1)).take length) with
    | none => .error (.dns "bad-name" "non-ASCII DNS response name")
    | some label =>
      .ok { name with labels := name.labels ++ [case.lower label], cursor := name.cursor + 1 + length }

/-- The loop of `decode_name`: the labels, and the offset behind the name. -/
def decodeLoop (case : CaseMapping) (data : Bytes) : Nat → NameCursor → Except DnsExn (List Text × Nat)
  | 0, _ => .error .unfinished
  | fuel + 1, name => do
    if data.length ≤ name.cursor then throw (.dns "truncated" "truncated DNS name")
    else
      let length ← byteAt data name.cursor
      if length &&& 0xC0 = 0xC0 then decodeLoop case data fuel (← followPointer data length name)
      else if length &&& 0xC0 ≠ 0 then throw (.dns "bad-label" "reserved DNS label encoding")
      else if length = 0 then return (name.labels, name.nextOffset.getD (name.cursor + 1))
      else decodeLoop case data fuel (← readLabel case data length name)

/-- The labels that `decode_name` joins. -/
def decodeLabels (case : CaseMapping) (data : Bytes) (offset : Nat) : Except DnsExn (List Text × Nat) :=
  decodeLoop case data (33 * (data.length + 1)) { cursor := offset }

def decodeName (case : CaseMapping) (data : Bytes) (offset : Nat) : Except DnsExn (Text × Nat) := do
  let (labels, next) ← decodeLabels case data offset
  return (joinLabels labels, next)

def buildQuery (case : CaseMapping) (queryId : Int) (name : Text) (qtype : Int) : Except DnsExn Bytes := do
  if queryId < 0 ∨ 65535 < queryId then throw (.value "DNS query id must fit u16")
  else if qtype ≠ dnsA ∧ qtype ≠ dnsAaaa then throw (.value "gateway resolver supports A and AAAA")
  else
    let encoded ← encodeName case name
    return putU16 queryId.toNat ++ putU16 0x0100 ++ putU16 1 ++ putU16 0 ++ putU16 0 ++ putU16 0 ++
      encoded ++ putU16 qtype.toNat ++ putU16 dnsClassIn

/-- An answer. `owner` are the labels of its name, and `target` those of the name that a CNAME has as
its data; the source keeps only the names. -/
structure DnsAnswer where
  name : Text
  qtype : Nat
  data : Text
  ttl : Nat
  owner : List Text := []
  target : List Text := []
  deriving DecidableEq

structure DnsResponse where
  queryId : Nat
  truncated : Bool
  rcode : Nat
  answers : List DnsAnswer
  deriving DecidableEq

/-- The address of an A record. -/
def readIpv4 (payload : Bytes) (offset : Nat) : Except DnsExn Text := do
  let first ← byteAt payload offset
  let second ← byteAt payload (offset + 1)
  let third ← byteAt payload (offset + 2)
  let fourth ← byteAt payload (offset + 3)
  return decimal first ++ ['.'] ++ decimal second ++ ['.'] ++ decimal third ++ ['.'] ++ decimal fourth

/-- The groups of the address of an AAAA record, from the given one on. -/
def readGroups (payload : Bytes) (offset : Nat) : Nat → Nat → Except DnsExn (List Text)
  | 0, _ => .ok []
  | left + 1, index => do
    let value := (← byteAt payload (offset + index * 2)) * 256 + (← byteAt payload (offset + index * 2 + 1))
    return hexadecimal value :: (← readGroups payload offset left (index + 1))

/-- The fixed part of a record. -/
structure RecordHead where
  qtype : Nat
  qclass : Nat
  ttl : Nat
  rdlength : Nat

def readRecordHead (payload : Bytes) (offset : Nat) : Except DnsExn RecordHead := do
  let qtype ← u16 payload offset
  let qclass ← u16 payload (offset + 2)
  let ttl ← u32 payload (offset + 4)
  let rdlength ← u16 payload (offset + 8)
  return { qtype, qclass, ttl, rdlength }

/-- The data of a record whose data are in the payload, if it is one that the gateway reads. -/
def readRecordData (case : CaseMapping) (payload : Bytes) (owner : List Text) (head : RecordHead)
    (offset : Nat) :
    Except DnsExn (Option DnsAnswer) := do
  let answer (data : Text) (target : List Text) : DnsAnswer :=
    { name := joinLabels owner, qtype := head.qtype, data, ttl := head.ttl, owner, target }
  if head.qclass ≠ dnsClassIn then return none
  else if head.qtype = dnsA ∧ head.rdlength = 4 then
    let address ← readIpv4 payload offset
    return some (answer address [])
  else if head.qtype = dnsAaaa ∧ head.rdlength = 16 then
    let groups ← readGroups payload offset 8 0
    return some (answer (List.intercalate [':'] groups) [])
  else if head.qtype = dnsCname then
    let (target, last) ← decodeLabels case payload offset
    if offset + head.rdlength < last then throw (.dns "bad-cname" "CNAME exceeds its DNS record")
    else return some (answer (joinLabels target) target)
  else return none

/-- One pass of the loop over the answers: the answer, and the offset behind the record. -/
def readRecord (case : CaseMapping) (payload : Bytes) (offset : Nat) :
    Except DnsExn (Option DnsAnswer × Nat) := do
  let (owner, offset) ← decodeLabels case payload offset
  let head ← readRecordHead payload offset
  let rdata := offset + 10
  if payload.length < rdata + head.rdlength then throw (.dns "truncated" "DNS answer data is truncated")
  else
    let answer ← readRecordData case payload owner head rdata
    return (answer, rdata + head.rdlength)

def readRecords (case : CaseMapping) (payload : Bytes) : Nat → Nat → Except DnsExn (List DnsAnswer)
  | 0, _ => .ok []
  | left + 1, offset => do
    let (answer, offset) ← readRecord case payload offset
    return answer.toList ++ (← readRecords case payload left offset)

/-- The question of a response: its labels, its type and class, and the offset behind it. -/
def readQuestion (case : CaseMapping) (payload : Bytes) : Except DnsExn (List Text × Nat × Nat × Nat) := do
  let (labels, offset) ← decodeLabels case payload 12
  let qtype ← u16 payload offset
  let qclass ← u16 payload (offset + 2)
  return (labels, qtype, qclass, offset + 4)

def parseResponse (case : CaseMapping) (payload : Bytes) (queryId : Int) (name : Text) (qtype : Int) :
    Except DnsExn DnsResponse := do
  if payload.length < 12 then throw (.dns "truncated" "DNS response header is truncated")
  else
    let responseId ← u16 payload 0
    let flags ← u16 payload 2
    if (responseId : Int) ≠ queryId then throw (.dns "id-mismatch" "DNS response id does not match query")
    else if flags &&& 0x8000 = 0 then throw (.dns "not-response" "DNS packet is not a response")
    else if flags &&& 0x7800 ≠ 0 then throw (.dns "bad-opcode" "DNS response opcode is not QUERY")
    else
      let qdcount ← u16 payload 4
      let ancount ← u16 payload 6
      if qdcount ≠ 1 then throw (.dns "question-mismatch" "DNS response must echo one question")
      else if 256 < ancount then throw (.dns "too-many-answers" "DNS answer count exceeds gateway limit")
      else
        let (labels, questionType, questionClass, offset) ← readQuestion case payload
        if joinLabels labels ≠ case.canonical name ∨ (questionType : Int) ≠ qtype ∨ questionClass ≠
            dnsClassIn then
          throw (.dns "question-mismatch" "DNS echoed question does not match")
        else
          let answers ← readRecords case payload ancount offset
          return { queryId := responseId, truncated := flags &&& 0x0200 ≠ 0, rcode := flags &&& 15, answers }

end Dns
end PccGateway
