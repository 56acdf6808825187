import PccGateway.Dns.Message

namespace PccGateway
namespace Dns

/-- The call returns what `good` says, or raises a `DnsError`. -/
def Safe {α : Type} (good : α → Prop) : Except DnsExn α → Prop
  | .ok a => good a
  | .error (.dns _ _) => True
  | .error _ => False

section Safe
variable {α β : Type} {good : α → Prop} {fine : β → Prop}

theorem Safe.bind {call : Except DnsExn α} {next : α → Except DnsExn β} (first : Safe good call)
    (later : ∀ a, good a → Safe fine (next a)) : Safe fine (call >>= next) := by
  match call, first with
  | .ok a, holds => exact later a holds
  | .error (.dns _ _), _ => trivial

theorem Safe.ite {p : Prop} [Decidable p] {first second : Except DnsExn α} (yes : p → Safe good first)
    (no : ¬ p → Safe good second) :
    Safe good (if p then first else second) := by
  split
  · exact yes ‹p›
  · exact no ‹¬ p›

theorem Safe.ends {call : Except DnsExn α} (safe : Safe good call) :
    (∃ a, call = .ok a ∧ good a) ∨ ∃ code message, call = .error (.dns code message) := by
  match call, safe with
  | .ok a, holds => exact .inl ⟨a, rfl, holds⟩
  | .error (.dns code message), _ => exact .inr ⟨code, message, rfl⟩

theorem Safe.returned {call : Except DnsExn α} {a : α} (safe : Safe good call) (is : call = .ok a) :
    good a := by
  rw [is] at safe
  exact safe

end Safe

section Reads
variable {data : Bytes} {offset : Nat}

theorem byteAt_safe (inside : offset < data.length) : Safe (· < 256) (byteAt data offset) := by
  unfold byteAt
  rw [List.getElem?_eq_getElem inside]
  exact data[offset].toNat_lt

theorem u16_safe : Safe (fun _ => offset + 2 ≤ data.length) (u16 data offset) := by
  refine .ite (fun _ => trivial) fun inside => ?_
  refine .bind (byteAt_safe (by omega)) fun _ _ => .bind (byteAt_safe (by omega)) fun _ _ => ?_
  exact Nat.not_lt.mp inside

theorem u32_safe : Safe (fun _ => offset + 4 ≤ data.length) (u32 data offset) := by
  refine .ite (fun _ => trivial) fun inside => ?_
  refine .bind (byteAt_safe (by omega)) fun _ _ => .bind (byteAt_safe (by omega)) fun _ _ =>
    .bind (byteAt_safe (by omega)) fun _ _ => .bind (byteAt_safe (by omega)) fun _ _ => ?_
  exact Nat.not_lt.mp inside

end Reads

section Names
variable {case : CaseMapping} {data : Bytes} {origin length : Nat} {name : NameCursor}

/-- A name that began at `origin`: its end is behind that, once it is known. -/
structure NameCursor.Within (name : NameCursor) (data : Bytes) (origin : Nat) : Prop where
  shallow : name.jumps ≤ 32
  ahead : name.nextOffset = none → origin ≤ name.cursor
  known : ∀ next, name.nextOffset = some next → origin < next ∧ next ≤ data.length

/-- Passes that are left: a pointer uses up a jump, and a label moves the cursor on. -/
def NameCursor.measure (name : NameCursor) (data : Bytes) : Nat :=
  (32 - name.jumps) * (data.length + 1) + (data.length - name.cursor)

theorem followPointer_safe (within : name.Within data origin) :
    Safe (fun next => next.Within data origin ∧ next.measure data < name.measure data)
      (followPointer data length name) := by
  refine .ite (fun _ => trivial) fun room => .bind (byteAt_safe (by omega)) fun low _ =>
      .ite (fun _ => trivial) fun _ =>
    .ite (fun _ => trivial) fun deep => ?_
  refine ⟨⟨Nat.not_lt.mp deep, ?_, ?_⟩, ?_⟩
  · cases name.nextOffset <;> simp
  · intro next is
    cases known : name.nextOffset with
    | none =>
      simp only [known, Option.none_or, Option.some.injEq] at is
      have := within.ahead known
      omega
    | some old =>
      simp only [known, Option.some_or, Option.some.injEq] at is
      exact within.known next (is ▸ known)
  · simp only [NameCursor.measure]
    have left : 32 - name.jumps = (32 - (name.jumps + 1)) + 1 := by omega
    rw [left, Nat.add_mul, Nat.one_mul]
    omega

theorem readLabel_safe (within : name.Within data origin) (inside : name.cursor < data.length) :
    Safe (fun next => next.Within data origin ∧ next.measure data < name.measure data)
      (readLabel case data length name) := by
  refine .ite (fun _ => trivial) fun room => ?_
  split
  · trivial
  · refine ⟨⟨within.shallow, fun unknown => ?_, within.known⟩, ?_⟩
    · have := within.ahead unknown
      simp only
      omega
    · simp only [NameCursor.measure]
      omega

theorem decodeLoop_safe {fuel : Nat} (within : name.Within data origin)
    (enough : name.measure data < fuel) :
    Safe (fun found => origin < found.2 ∧ found.2 ≤ data.length) (decodeLoop case data fuel name) := by
  induction fuel generalizing name with
  | zero => exact absurd enough (Nat.not_lt_zero _)
  | succ fuel ih =>
    unfold decodeLoop
    refine .ite (fun _ => trivial) fun inside => ?_
    have inside : name.cursor < data.length := Nat.not_le.mp inside
    refine .bind (byteAt_safe inside) fun length _ => .ite (fun _ => ?_) fun _ =>
      .ite (fun _ => trivial) fun _ => .ite (fun _ => ?_) fun _ => ?_
    · exact .bind (followPointer_safe within) fun next moved => ih moved.1 (by omega)
    · cases known : name.nextOffset with
      | none =>
        have := within.ahead known
        simp only [pure, Except.pure, Safe, Option.getD_none]
        omega
      | some next => exact within.known next known
    · exact .bind (readLabel_safe within inside) fun next moved => ih moved.1 (by omega)

/-- A name ends, behind its beginning and in the data. -/
theorem decodeLabels_safe (offset : Nat) :
    Safe (fun found => offset < found.2 ∧ found.2 ≤ data.length) (decodeLabels case data offset) := by
  refine decodeLoop_safe ⟨Nat.zero_le _, fun _ => Nat.le_refl _, nofun⟩ ?_
  simp only [NameCursor.measure]
  omega

end Names

section Records
variable {case : CaseMapping} {payload : Bytes} {offset : Nat}

theorem readIpv4_safe (inside : offset + 4 ≤ payload.length) :
    Safe (fun _ => True) (readIpv4 payload offset) := by
  refine .bind (byteAt_safe (by omega)) fun _ _ => .bind (byteAt_safe (by omega)) fun _ _ =>
      .bind (byteAt_safe (by omega)) fun _ _ =>
    .bind (byteAt_safe (by omega)) fun _ _ => trivial

theorem readGroups_safe (left index : Nat) (inside : offset + (index + left) * 2 ≤ payload.length) :
    Safe (fun _ => True) (readGroups payload offset left index) := by
  induction left generalizing index with
  | zero => trivial
  | succ left ih =>
    refine .bind (byteAt_safe (by omega)) fun _ _ => .bind (byteAt_safe (by omega)) fun _ _ => ?_
    exact .bind (ih (index + 1) (by omega)) fun _ _ => trivial

theorem readRecordHead_safe :
    Safe (fun _ => offset + 10 ≤ payload.length) (readRecordHead payload offset) :=
  .bind u16_safe fun _ _ => .bind u16_safe fun _ _ => .bind u32_safe fun _ _ =>
      .bind u16_safe fun _ inside => by
    simp only [pure, Except.pure, Safe]
    omega

theorem readRecordData_safe {owner : List Text} {head : RecordHead}
    (inside : offset + head.rdlength ≤ payload.length) :
    Safe (fun _ => True) (readRecordData case payload owner head offset) := by
  refine .ite (fun _ => trivial) fun _ => .ite (fun is => ?_) fun _ => .ite (fun is => ?_) fun _ =>
    .ite (fun _ => ?_) fun _ => trivial
  · exact .bind (readIpv4_safe (by omega)) fun _ _ => trivial
  · exact .bind (readGroups_safe 8 0 (by omega)) fun _ _ => trivial
  · exact .bind (decodeLabels_safe offset) fun _ _ => .ite (fun _ => trivial) fun _ => trivial

/-- A record ends behind its beginning and in the payload. -/
theorem readRecord_safe (offset : Nat) :
    Safe (fun found => offset < found.2 ∧ found.2 ≤ payload.length) (readRecord case payload offset) := by
  refine .bind (decodeLabels_safe offset) fun owner behind => .bind readRecordHead_safe fun head _ =>
    .ite (fun _ => trivial) fun inside => ?_
  have inside := Nat.not_lt.mp inside
  refine .bind (readRecordData_safe inside) fun answer _ => ?_
  simp only [pure, Except.pure, Safe]
  omega

theorem readRecords_safe (left offset : Nat) :
    Safe (fun _ => True) (readRecords case payload left offset) := by
  induction left generalizing offset with
  | zero => trivial
  | succ left ih =>
    exact .bind (readRecord_safe offset) fun found _ => .bind (ih found.2) fun _ _ => trivial

theorem readQuestion_safe : Safe (fun _ => True) (readQuestion case payload) :=
  .bind (decodeLabels_safe 12) fun _ _ => .bind u16_safe fun _ _ => .bind u16_safe fun _ _ => trivial

theorem parseResponse_safe (queryId : Int) (name : Text) (qtype : Int) :
    Safe (fun _ => True) (parseResponse case payload queryId name qtype) := by
  refine .ite (fun _ => trivial) fun _ => .bind u16_safe fun _ _ => .bind u16_safe fun _ _ =>
      .ite (fun _ => trivial) fun _ =>
    .ite (fun _ => trivial) fun _ => .ite (fun _ => trivial) fun _ => .bind u16_safe fun _ _ =>
      .bind u16_safe fun _ _ =>
    .ite (fun _ => trivial) fun _ => .ite (fun _ => trivial) fun _ =>
      .bind readQuestion_safe fun _ _ => .ite (fun _ => trivial) fun _ => ?_
  exact .bind (readRecords_safe _ _) fun _ _ => trivial

/-- `parse_response` ends, and nothing but a `DnsError` leaves it. Each record moves it on, and not
out of the payload. Nothing is assumed: the payload is any bytes, and the identifier, the name and
the type are any as well. The bound on the passes over a name is part of the model, and that it is
never used up is part of the statement. -/
theorem parseResponse_total (case : CaseMapping) (payload : Bytes) (queryId : Int) (name : Text)
    (qtype : Int) :
    ((∃ response, parseResponse case payload queryId name qtype = .ok response) ∨
      ∃ code message, parseResponse case payload queryId name qtype = .error (.dns code message)) ∧
    ∀ offset answer next, readRecord case payload offset = .ok (answer, next) →
      offset < next ∧ next ≤ payload.length := by
  constructor
  · rcases (parseResponse_safe queryId name qtype).ends with ⟨response, is, -⟩ | raised
    · exact .inl ⟨response, is⟩
    · exact .inr raised
  · intro offset answer next is
    exact (readRecord_safe offset).returned is

end Records
end Dns
end PccGateway
