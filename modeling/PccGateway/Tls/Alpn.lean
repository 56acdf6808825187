import PccGateway.Http1.Digits
import PccGateway.Lib.Checked

namespace PccGateway
open Checked

/-- The loop of `_validate_alpn`; what it raises is a `ValueError`. -/
def collectAlpn : List Text → List Text → Except String (List Text)
  | [], result => .ok result
  | protocol :: rest, result =>
    if protocol = [] ∨ 255 < protocol.length then .error "invalid ALPN protocol"
    else if (encodeAscii protocol).isNone then .error "ALPN protocol must be ASCII"
    else if protocol ∈ result then .error "duplicate ALPN protocol"
    else collectAlpn rest (result ++ [protocol])

def validateAlpn (protocols : List Text) : Except String (List Text) :=
  if 16 < protocols.length then .error "too many ALPN protocols" else collectAlpn protocols []

/-- `PccNativeTlsProvider._alpn_wire`: a decimal length before each protocol. -/
def alpnWire (protocols : List Text) : Text :=
  protocols.foldl (fun output protocol => output ++ (decimal protocol.length ++ ':' :: protocol)) []

/-- The wire form of ALPN: a length byte before each protocol. -/
def alpnProtocols (protocols : List Text) : Bytes :=
  protocols.flatMap fun protocol => UInt8.ofNat protocol.length :: protocol.map charByte

namespace AlpnParser

/-- The variables of `pcc_tls_parse_decimal`. -/
structure DecimalState where
  position : Nat
  current : Nat
  digits : Nat

/-- One turn of its loop; `none` is the return for a number that does not fit. -/
def decimalTurn (input : Bytes) (length : Nat) (s : DecimalState) :
    Except Fault (DecimalState ⊕ Option DecimalState) := do
  if s.position < length then
    let byte ← load input s.position
    if 48 ≤ byte.toNat ∧ byte.toNat ≤ 57 then
      let digit := byte.toNat - 48
      let room ← sub sizeMax digit
      if room / 10 < s.current then return .inr none
      else
        let scaled ← mul s.current 10
        let current ← add scaled digit
        let position ← add s.position 1
        let digits ← add s.digits 1
        return .inl ⟨position, current, digits⟩
    else return .inr (some s)
  else return .inr (some s)

/-- `pcc_tls_parse_decimal`: the position behind the colon and the number. -/
def parseDecimal (fuel : Nat) (input : Bytes) (length position : Nat) :
    Except Fault (Option (Nat × Nat)) := do
  match ← loop (decimalTurn input length) fuel ⟨position, 0, 0⟩ with
  | none => return none
  | some s =>
    if s.digits = 0 ∨ length ≤ s.position then return none
    else
      let byte ← load input s.position
      if byte ≠ 58 then return none
      else
        let position ← add s.position 1
        if s.current = 0 ∨ 255 < s.current then return none
        else
          let left ← sub length position
          if left < s.current then return none else return some (position, s.current)

structure AlpnState where
  wire : Bytes
  inputPosition : Nat
  outputPosition : Nat

/-- One turn of the loop of `pcc_tls_parse_alpn`; `none` is the return for input that is refused. -/
def alpnTurn (fuel : Nat) (source : Bytes) (length : Nat) (s : AlpnState) :
    Except Fault (AlpnState ⊕ Option AlpnState) := do
  if s.inputPosition < length then
    match ← parseDecimal fuel source length s.inputPosition with
    | none => return .inr none
    | some (inputPosition, protocolLength) =>
      let prefixed ← add s.outputPosition 1
      let needed ← add prefixed protocolLength
      let capacity ← add length 1
      if capacity < needed then return .inr none
      else
        let wire ← store s.wire s.outputPosition (UInt8.ofNat protocolLength)
        let outputPosition ← add s.outputPosition 1
        let wire ← copy source wire outputPosition inputPosition protocolLength
        let outputPosition ← add outputPosition protocolLength
        let inputPosition ← add inputPosition protocolLength
        return .inl ⟨wire, inputPosition, outputPosition⟩
  else return .inr (some s)

/-- `pcc_tls_parse_alpn` on an input that is not `NULL`: the buffer and the length that it outputs.
`memory` is what `malloc` leaves in the buffer. -/
def parseAlpn (fuel : Nat) (memory : Nat → UInt8) (input : Bytes) :
    Except Fault (Option (Bytes × Nat)) := do
  if input.length = 0 ∨ 8192 < input.length then return none
  else
    let capacity ← add input.length 1
    match ← loop (alpnTurn fuel input input.length) fuel ⟨(List.range capacity).map memory, 0, 0⟩ with
    | none => return none
    | some s =>
      if s.outputPosition = 0 ∨ 2 ^ 32 - 1 < s.outputPosition then return none
      else return some (s.wire, s.outputPosition)

variable {input : Bytes} {fuel : Nat}

/-- Where the decimal reader can be: at a digit count from its start, with a number that fits. -/
structure Reading (input : Bytes) (start : Nat) (s : DecimalState) : Prop where
  inside : s.position ≤ input.length
  counted : s.position = start + s.digits
  fits : s.current ≤ sizeMax

theorem decimalTurn_digit {s : DecimalState} {byte : UInt8} (found : input[s.position]? = some byte)
    (digit : 48 ≤ byte.toNat ∧ byte.toNat ≤ 57) (fits : s.current * 10 + (byte.toNat - 48) ≤ sizeMax)
    (counts : s.position < sizeMax ∧ s.digits < sizeMax) : decimalTurn input input.length s =
      .ok (.inl ⟨s.position + 1, s.current * 10 + (byte.toNat - 48), s.digits + 1⟩) := by
  obtain ⟨inside, -⟩ := List.getElem?_eq_some_iff.mp found
  have room : ¬ (sizeMax - (byte.toNat - 48)) / 10 < s.current := by omega
  rw [decimalTurn, if_pos inside, load_ok found, bind_ok, if_pos digit]
  simp only
  rw [sub_ok (by omega), bind_ok, if_neg room, mul_ok (by omega), bind_ok, add_ok fits, bind_ok,
    add_ok (by omega), bind_ok, add_ok (by omega), bind_ok]
  rfl

theorem decimalTurn_leaves {s : DecimalState}
    (stops : ∀ byte ∈ input[s.position]?, ¬ (48 ≤ byte.toNat ∧ byte.toNat ≤ 57)) :
    decimalTurn input input.length s = .ok (.inr (some s)) := by
  unfold decimalTurn
  split
  · rename_i inside
    have found : input[s.position]? = some input[s.position] := List.getElem?_eq_getElem inside
    rw [load_ok found, bind_ok, if_neg (stops _ found)]
    rfl
  · rfl

/-- One turn of the decimal reader is defined, and goes on only behind a digit. -/
theorem decimalTurn_safe {start : Nat} (short : input.length ≤ 8192) (s : DecimalState)
    (reading : Reading input start s) :
    (∃ s', decimalTurn input input.length s = .ok (.inl s') ∧ Reading input start s' ∧
        input.length - s'.position < input.length - s.position) ∨
      ∃ result, decimalTurn input input.length s = .ok (.inr result) ∧ ∀ s' ∈ result,
      Reading input start s' := by
  obtain ⟨inside, counted, fits⟩ := reading
  have large : 8192 < sizeMax := by decide
  by_cases stops : ∀ byte ∈ input[s.position]?, ¬ (48 ≤ byte.toNat ∧ byte.toNat ≤ 57)
  · refine .inr ⟨_, decimalTurn_leaves stops, fun s' same => ?_⟩
    cases same
    exact ⟨inside, counted, fits⟩
  · simp only [not_forall, not_not] at stops
    obtain ⟨byte, found, digit⟩ := stops
    have within := (List.getElem?_eq_some_iff.mp found).1
    by_cases full : (sizeMax - (byte.toNat - 48)) / 10 < s.current
    · refine .inr ⟨none, ?_, nofun⟩
      rw [decimalTurn, if_pos within, load_ok found, bind_ok, if_pos digit]
      simp only
      rw [sub_ok (by omega), bind_ok, if_pos full]
      rfl
    · have value : s.current * 10 + (byte.toNat - 48) ≤ sizeMax := by omega
      exact .inl ⟨_, decimalTurn_digit found digit value (by omega), ⟨by simp only; omega,
        by simp only; omega, value⟩, by simp only; omega⟩

theorem parseDecimal_safe {position : Nat} (short : input.length ≤ 8192) (inside : position ≤ input.length)
    (enough : input.length - position < fuel) :
    ∃ result, parseDecimal fuel input input.length position = .ok result ∧
      ∀ next value, result = some (next, value) → position + 2 ≤ next ∧ next + value ≤ input.length ∧
      0 < value ∧ value ≤ 255 := by
  have large : 8192 < sizeMax := by decide
  have begins : Reading input position ⟨position, 0, 0⟩ := ⟨inside, rfl, Nat.zero_le _⟩
  obtain ⟨result, run, reading⟩ :=
    loop_ok (fun s : DecimalState => input.length - s.position) (decimalTurn_safe short) begins enough
  unfold parseDecimal
  rw [run, bind_ok]
  cases result with
  | none => exact ⟨none, rfl, nofun⟩
  | some s =>
    obtain ⟨bound, counted, -⟩ := reading s rfl
    simp only
    split
    · exact ⟨none, rfl, nofun⟩
    · rename_i some_digits
      have found : input[s.position]? = some input[s.position] := List.getElem?_eq_getElem (by omega)
      rw [load_ok found, bind_ok]
      split
      · exact ⟨none, rfl, nofun⟩
      · rw [add_ok (by omega), bind_ok]
        split
        · exact ⟨none, rfl, nofun⟩
        · rename_i range
          rw [sub_ok (by omega), bind_ok]
          split
          · exact ⟨none, rfl, nofun⟩
          · refine ⟨_, rfl, fun next value same => ?_⟩
            cases same
            omega

/-- Where the list reader can be: what it has written is no more than what it has read. -/
structure Framing (input : Bytes) (s : AlpnState) : Prop where
  inside : s.inputPosition ≤ input.length
  behind : s.outputPosition ≤ s.inputPosition
  capacity : s.wire.length = input.length + 1

/-- A turn behind a number copies the protocol. -/
theorem alpnTurn_copies {s : AlpnState} {next value : Nat} (short : input.length ≤ 8192)
    (framing : Framing input s) (going : s.inputPosition < input.length)
    (run : parseDecimal fuel input input.length s.inputPosition = .ok (some (next, value)))
    (advances : s.inputPosition + 2 ≤ next) (reads : next + value ≤ input.length) :
    ∃ wire, alpnTurn fuel input input.length s =
      .ok (.inl ⟨wire, next + value, s.outputPosition + 1 + value⟩) ∧
      Framing input ⟨wire, next + value, s.outputPosition + 1 + value⟩ ∧
      wire.take (s.outputPosition + 1 + value) =
        s.wire.take s.outputPosition ++ UInt8.ofNat value :: (input.drop next).take value := by
  obtain ⟨inside, behind, capacity⟩ := framing
  have large : 8194 < sizeMax := by decide
  obtain ⟨wire, copied, length, taken⟩ :=
    @copy_ok input (s.wire.set s.outputPosition (UInt8.ofNat value)) (s.outputPosition + 1) next value
    reads (by rw [List.length_set]; omega)
  refine ⟨wire, ?_, ⟨reads, by simp only; omega, by simp only [length, List.length_set, capacity]⟩, ?_⟩
  · rw [alpnTurn, if_pos going, run, bind_ok]
    simp only
    rw [add_ok (by omega), bind_ok, add_ok (by omega), bind_ok, add_ok (by omega), bind_ok,
      if_neg (by omega),
      store_ok (by omega), bind_ok, bind_ok, copied, bind_ok, add_ok (by omega), bind_ok,
      add_ok (by omega), bind_ok]
    rfl
  · rw [taken, List.take_add_one, List.take_set_of_le (Nat.le_refl _),
      List.getElem?_set_self (by omega), List.append_assoc]
    rfl

theorem alpnTurn_safe (short : input.length ≤ 8192) (enough : input.length < fuel) (s : AlpnState)
    (framing : Framing input s) :
    (∃ s', alpnTurn fuel input input.length s = .ok (.inl s') ∧ Framing input s' ∧
        input.length - s'.inputPosition < input.length - s.inputPosition) ∨
      ∃ result, alpnTurn fuel input input.length s = .ok (.inr result) ∧ ∀ s' ∈ result,
      Framing input s' := by
  by_cases going : s.inputPosition < input.length
  · obtain ⟨result, run, bounds⟩ :=
      @parseDecimal_safe input fuel s.inputPosition short (Nat.le_of_lt going) (by omega)
    cases result with
    | none =>
      refine .inr ⟨none, ?_, nofun⟩
      rw [alpnTurn, if_pos going, run]
      rfl
    | some found =>
      obtain ⟨next, value⟩ := found
      obtain ⟨advances, reads, -, -⟩ := bounds next value rfl
      obtain ⟨wire, turned, kept, -⟩ := alpnTurn_copies short framing going run advances reads
      exact .inl ⟨_, turned, kept, by simp only; omega⟩
  · refine .inr ⟨some s, by rw [alpnTurn, if_neg going]; rfl, fun s' same => ?_⟩
    cases same
    exact framing

/-- The state in which the list reader starts. -/
def opened (memory : Nat → UInt8) (input : Bytes) : AlpnState :=
  ⟨(List.range (input.length + 1)).map memory, 0, 0⟩

theorem Framing.opened (memory : Nat → UInt8) (input : Bytes) : Framing input (opened memory input) :=
  ⟨Nat.zero_le _, Nat.le_refl _, by simp [AlpnParser.opened]⟩

theorem parseAlpn_eq (memory : Nat → UInt8) (nonempty : input.length ≠ 0) (short : input.length ≤ 8192) :
    parseAlpn fuel memory input = do
      match ← loop (alpnTurn fuel input input.length) fuel (opened memory input) with
      | none => return none
      | some s => if s.outputPosition = 0 ∨ 2 ^ 32 - 1 < s.outputPosition then
          return none else return some (s.wire, s.outputPosition) := by
  have large : 8194 < sizeMax := by decide
  rw [parseAlpn, if_neg (by omega), add_ok (by omega), bind_ok]
  rfl

/-- On every input of an admitted length the C parser ends without a fault. -/
theorem parseAlpn_safe (memory : Nat → UInt8) (nonempty : 0 < input.length)
    (short : input.length ≤ 8192) (enough : input.length < fuel) :
    ∃ result, parseAlpn fuel memory input = .ok result := by
  obtain ⟨result, run, -⟩ :=
    loop_ok (fun s : AlpnState => input.length - s.inputPosition) (alpnTurn_safe short enough)
    (Framing.opened memory input) (Nat.lt_of_le_of_lt (Nat.sub_le ..) enough)
  rw [parseAlpn_eq memory (by omega) short, run, bind_ok]
  cases result with
  | none => exact ⟨none, rfl⟩
  | some s =>
    simp only
    split
    · exact ⟨none, rfl⟩
    · exact ⟨_, rfl⟩

/-- The value of digits that are read behind others. -/
def readDigits (digits : Bytes) (current : Nat) : Nat :=
  digits.foldl (fun total digit => total * 10 + (digit.toNat - 48)) current

theorem le_readDigits (digits : Bytes) (current : Nat) : current ≤ readDigits digits current := by
  induction digits generalizing current with
  | nil => exact Nat.le_refl _
  | cons digit digits ih => exact Nat.le_trans (by omega) (ih (current * 10 + (digit.toNat - 48)))

/-- The decimal reader takes the digits in front of it, and stops at the first other byte. -/
theorem decimalLoop_reads {before digits rest : Bytes} {current count : Nat}
    (input_eq : input = before ++ (digits ++ rest))
    (short : input.length ≤ 8192) (valid : ∀ digit ∈ digits, 48 ≤ digit.toNat ∧ digit.toNat ≤ 57)
    (stops : ∀ byte ∈ rest.head?, ¬ (48 ≤ byte.toNat ∧ byte.toNat ≤ 57))
    (fits : readDigits digits current ≤ 255)
    (counted : count ≤ before.length) (enough : digits.length < fuel) :
    loop (decimalTurn input input.length) fuel ⟨before.length, current, count⟩ =
      .ok (some ⟨before.length + digits.length, readDigits digits current, count + digits.length⟩) := by
  have large : 8192 < sizeMax := by decide
  induction digits generalizing before current count fuel with
  | nil =>
    obtain ⟨fuel, rfl⟩ : ∃ less, fuel = less + 1 := ⟨fuel - 1, by omega⟩
    refine loop_leave (decimalTurn_leaves fun byte found => stops byte ?_)
    simpa [input_eq, List.head?_eq_getElem?, List.getElem?_append_right] using found
  | cons digit digits ih =>
    obtain ⟨fuel, rfl⟩ : ∃ less, fuel = less + 1 := ⟨fuel - 1, by omega⟩
    have below := le_readDigits digits (current * 10 + (digit.toNat - 48))
    have small : current * 10 + (digit.toNat - 48) ≤ 255 := Nat.le_trans below fits
    have found : input[before.length]? = some digit := by simp [input_eq]
    have within := (List.getElem?_eq_some_iff.mp found).1
    rw [loop_next (@decimalTurn_digit input ⟨before.length, current, count⟩ _ found
      (valid digit (List.mem_cons_self ..))
      (by simp only; omega) (by simp only; omega))]
    have later := @ih fuel (before ++ [digit]) (current * 10 + (digit.toNat - 48)) (count + 1)
      (by simp [input_eq])
      (fun other member => valid other (List.mem_cons_of_mem _ member)) fits (by simp; omega)
        (by simp at enough; omega)
    rw [List.length_append, List.length_singleton] at later
    rw [later]
    simp only [List.length_cons, readDigits, List.foldl_cons]
    congr 3 <;> omega

theorem decimalByte_digit {n : Nat} {b : UInt8} (member : b ∈ (decimal n).map charByte) :
    48 ≤ b.toNat ∧ b.toNat ≤ 57 := by
  obtain ⟨c, listed, rfl⟩ := List.mem_map.mp member
  obtain ⟨digit, bound, rfl⟩ := decimal_isDigit listed
  have digits : ∀ digit < 10, 48 ≤ (charByte digit.digitChar).toNat ∧
      (charByte digit.digitChar).toNat ≤ 57 := by decide
  exact digits digit bound

theorem readDigits_decimal (n : Nat) : readDigits ((decimal n).map charByte) 0 = n := by
  rw [readDigits, foldl_charByte fun c member => (decimal_plain member).1, foldl_decimal]

/-- The length that the encoder writes is read back. -/
theorem parseDecimal_reads {before rest : Bytes} {n : Nat}
    (input_eq : input = before ++ ((decimal n).map charByte ++ 58 :: rest))
    (short : input.length ≤ 8192) (positive : 0 < n) (bound : n ≤ 255) (reads : n ≤ rest.length)
    (enough : input.length < fuel) :
    parseDecimal fuel input input.length before.length =
      .ok (some (before.length + (decimal n).length + 1, n)) := by
  have large : 8192 < sizeMax := by decide
  have total : input.length = before.length + ((decimal n).length + (rest.length + 1)) := by simp [input_eq]
  have run := @decimalLoop_reads input fuel before ((decimal n).map charByte) (58 :: rest) 0 0
    input_eq short (fun _ => decimalByte_digit)
    (by simp) (by rw [readDigits_decimal]; exact bound) (Nat.zero_le _) (by rw [List.length_map]; omega)
  rw [readDigits_decimal, List.length_map, Nat.zero_add] at run
  have some_digits : 0 < (decimal n).length := Nat.length_toDigits_pos
  have colon : input[before.length + (decimal n).length]? = some 58 := by
    rw [input_eq, List.getElem?_append_right (Nat.le_add_right ..), Nat.add_sub_cancel_left]
    simp
  unfold parseDecimal
  rw [run, bind_ok]
  simp only
  rw [if_neg (by omega), load_ok colon, bind_ok, if_neg (by simp), add_ok (by omega), bind_ok,
    if_neg (by omega), sub_ok (by omega), bind_ok, if_neg (by omega)]
  rfl

/-- What the encoder writes for each protocol, as bytes. -/
def framed (protocols : List Text) : Bytes :=
  protocols.flatMap fun protocol => (decimal protocol.length).map charByte ++ 58 :: protocol.map charByte

/-- The list reader on what the encoder wrote. -/
theorem alpnLoop_reads {protocols : List Text} {before wire : Bytes} {output turns : Nat}
    (input_eq : input = before ++ framed protocols)
    (short : input.length ≤ 8192) (valid : ∀ protocol ∈ protocols, protocol ≠ [] ∧ protocol.length ≤ 255)
    (framing : Framing input ⟨wire, before.length, output⟩) (enough : input.length < fuel)
    (enoughTurns : protocols.length < turns) :
    ∃ s, loop (alpnTurn fuel input input.length) turns ⟨wire, before.length, output⟩ = .ok (some s) ∧
    Framing input s ∧ s.wire.take s.outputPosition = wire.take output ++ alpnProtocols protocols := by
  induction protocols generalizing before wire output turns with
  | nil =>
    obtain ⟨turns, rfl⟩ : ∃ less, turns = less + 1 := ⟨turns - 1, by omega⟩
    have total : input.length = before.length := by simp [input_eq, framed]
    refine ⟨_, loop_leave (by rw [alpnTurn, if_neg (by simp only; omega)]; rfl), framing,
      by simp [alpnProtocols]⟩
  | cons protocol protocols ih =>
    obtain ⟨turns, rfl⟩ : ∃ less, turns = less + 1 := ⟨turns - 1, by omega⟩
    obtain ⟨nonempty, bound⟩ := valid protocol (List.mem_cons_self ..)
    have positive := List.length_pos_iff.mpr nonempty
    have shape : input = before ++ ((decimal protocol.length).map charByte ++ 58 ::
        (protocol.map charByte ++ framed protocols)) := by
      simp [input_eq, framed]
    have total : input.length = before.length +
        ((decimal protocol.length).length + (protocol.length + (framed protocols).length + 1)) := by
      rw [shape]
      simp
    have read := parseDecimal_reads shape short positive bound (by simp) enough
    have behind : input.drop (before.length + (decimal protocol.length).length + 1) =
        protocol.map charByte ++ framed protocols := by
      have split : input = (before ++ (decimal protocol.length).map charByte ++ [58]) ++
          (protocol.map charByte ++ framed protocols) := by
        simp [shape]
      rw [split, List.drop_left' (by simp [Nat.add_assoc])]
    have digits : 0 < (decimal protocol.length).length := Nat.length_toDigits_pos
    obtain ⟨copied, turned, kept, taken⟩ := alpnTurn_copies short framing (by simp only; omega) read
      (by simp only; omega) (by omega)
    have next : before.length + (decimal protocol.length).length + 1 + protocol.length =
        (before ++ (decimal protocol.length).map charByte ++ 58 :: protocol.map charByte).length := by
      simp; omega
    rw [loop_next turned]
    rw [next] at kept ⊢
    obtain ⟨s, run, last, written⟩ := ih (by simpa using shape) (fun other member =>
      valid other (List.mem_cons_of_mem _ member)) kept
      (by simp at enoughTurns; omega)
    refine ⟨s, run, last, ?_⟩
    have whole : (protocol.map charByte ++ framed protocols).take protocol.length =
        protocol.map charByte := List.take_left' (by simp)
    rw [written, taken, behind, whole]
    simp [alpnProtocols]

theorem framed_length {protocols : List Text} (valid : ∀ protocol ∈ protocols, protocol.length ≤ 255) :
    (framed protocols).length ≤ 259 * protocols.length ∧ protocols.length ≤ (framed protocols).length := by
  induction protocols with
  | nil => exact ⟨Nat.zero_le _, Nat.le_refl _⟩
  | cons protocol protocols ih =>
    have small : (decimal protocol.length).length ≤ 3 := by
      have bound := valid protocol (List.mem_cons_self ..)
      exact (Nat.length_toDigits_le_iff (by decide) (by decide)).mpr (by omega)
    have bound := valid protocol (List.mem_cons_self ..)
    obtain ⟨above, below⟩ := ih fun other member => valid other (List.mem_cons_of_mem _ member)
    simp only [framed, List.flatMap_cons, List.length_append, List.length_map,
      List.length_cons] at above below ⊢
    omega

theorem alpnWire_bytes (protocols : List Text) : (alpnWire protocols).map charByte = framed protocols := by
  have folded (output : Text) : (protocols.foldl (fun output protocol =>
      output ++ (decimal protocol.length ++ ':' :: protocol)) output).map charByte =
      output.map charByte ++ framed protocols := by
    induction protocols generalizing output with
    | nil => simp [framed]
    | cons protocol protocols ih =>
      rw [List.foldl_cons, ih]
      simp [framed, show charByte ':' = 58 by decide]
  exact folded []

theorem alpnWire_ascii {protocols : List Text}
    (valid : ∀ protocol ∈ protocols, ∀ c ∈ protocol, c.toNat ≤ 127) :
    encodeAscii (alpnWire protocols) = some (framed protocols) := by
  have folded (output : Text) (start : ∀ c ∈ output, c.toNat ≤ 127) : ∀ c ∈ protocols.foldl
      (fun output protocol => output ++ (decimal protocol.length ++ ':' :: protocol)) output,
      c.toNat ≤ 127 := by
    induction protocols generalizing output with
    | nil => exact start
    | cons protocol protocols ih =>
      refine ih (fun other member => valid other (List.mem_cons_of_mem _ member)) _ fun c member => ?_
      simp only [List.mem_append, List.mem_cons] at member
      rcases member with before | digit | rfl | inside
      · exact start c before
      · exact (decimal_plain digit).1
      · decide
      · exact valid protocol (List.mem_cons_self ..) c inside
  have all : (alpnWire protocols).all (·.toNat ≤ 127) = true :=
    List.all_eq_true.mpr fun c member => decide_eq_true (folded [] nofun c member)
  rw [encodeAscii, if_pos all, alpnWire_bytes]

/-- What `_validate_alpn` accepts. -/
theorem collectAlpn_ok {protocols result accepted : List Text}
    (run : collectAlpn protocols result = .ok accepted) :
    accepted = result ++ protocols ∧ ∀ protocol ∈ protocols, protocol ≠ [] ∧ protocol.length ≤ 255 ∧
    ∀ c ∈ protocol, c.toNat ≤ 127 := by
  induction protocols generalizing result with
  | nil =>
    cases run
    simp
  | cons protocol protocols ih =>
    unfold collectAlpn at run
    split at run
    · cases run
    · rename_i range
      split at run
      · cases run
      · rename_i plain
        split at run
        · cases run
        · obtain ⟨rfl, valid⟩ := ih run
          refine ⟨by simp, List.forall_mem_cons.mpr ⟨⟨by tauto, by omega, ?_⟩, valid⟩⟩
          simp only [encodeAscii] at plain
          split at plain
          · rename_i all
            simpa using all
          · simp at plain

theorem parseDecimal_mono {more position : Nat} {result : Option (Nat × Nat)} (le : fuel ≤ more)
    (run : parseDecimal fuel input input.length position = .ok result) :
    parseDecimal more input input.length position = .ok result := by
  unfold parseDecimal at run ⊢
  cases read : loop (decimalTurn input input.length) fuel ⟨position, 0, 0⟩ with
  | error fault =>
    rw [read] at run
    cases run
  | ok state =>
    rw [read] at run
    rw [loop_mono (fun _ _ turned => turned) read le]
    exact run

theorem alpnTurn_mono {more : Nat} (le : fuel ≤ more) (s : AlpnState) (next : AlpnState ⊕ Option AlpnState)
    (turned : alpnTurn fuel input input.length s = .ok next) :
    alpnTurn more input input.length s = .ok next := by
  unfold alpnTurn at turned ⊢
  split at turned
  · rename_i going
    rw [if_pos going]
    cases read : parseDecimal fuel input input.length s.inputPosition with
    | error fault =>
      rw [read] at turned
      cases turned
    | ok found =>
      rw [read] at turned
      rw [parseDecimal_mono le read]
      exact turned
  · rename_i done
    rw [if_neg done]
    exact turned

/-- More fuel does not change what the parser outputs. -/
theorem parseAlpn_mono {more : Nat} {memory : Nat → UInt8} {result : Option (Bytes × Nat)}
    (le : fuel ≤ more) (nonempty : 0 < input.length)
    (short : input.length ≤ 8192) (run : parseAlpn fuel memory input = .ok result) :
    parseAlpn more memory input = .ok result := by
  rw [parseAlpn_eq memory (by omega) short] at run ⊢
  cases read : loop (alpnTurn fuel input input.length) fuel (opened memory input) with
  | error fault =>
    rw [read] at run
    cases run
  | ok state =>
    rw [read] at run
    rw [loop_mono (alpnTurn_mono le) read le]
    exact run

/-- The parser reads what the encoder writes for an accepted list. -/
theorem parseAlpn_reads {protocols : List Text} (memory : Nat → UInt8) (nonempty : protocols ≠ [])
    (few : protocols.length ≤ 16)
    (valid : ∀ protocol ∈ protocols, protocol ≠ [] ∧ protocol.length ≤ 255)
    (enough : (framed protocols).length < fuel) :
    ∃ wire length, parseAlpn fuel memory (framed protocols) = .ok (some (wire, length)) ∧
    wire.take length = alpnProtocols protocols := by
  obtain ⟨above, below⟩ := framed_length fun protocol member => (valid protocol member).2
  have positive := List.length_pos_iff.mpr nonempty
  obtain ⟨s, run, framing, written⟩ := @alpnLoop_reads (framed protocols) fuel protocols []
    (opened memory (framed protocols)).wire 0 fuel rfl
    (by omega) valid (Framing.opened memory _) enough (by omega)
  rw [List.take_zero, List.nil_append] at written
  have some_output : s.outputPosition ≠ 0 := by
    intro none
    rw [none, List.take_zero] at written
    cases protocols with
    | nil => exact nonempty rfl
    | cons protocol protocols => simp [alpnProtocols] at written
  have few_bytes : ¬ 2 ^ 32 - 1 < s.outputPosition := by
    have := framing.behind
    have := framing.inside
    omega
  refine ⟨s.wire, s.outputPosition, ?_, written⟩
  rw [parseAlpn_eq memory (by omega) (by omega)]
  have run : loop (alpnTurn fuel (framed protocols) (framed protocols).length) fuel
      (opened memory (framed protocols)) = .ok (some s) := run
  rw [run, bind_ok]
  simp only [some_output, few_bytes, or_self, if_false]
  rfl

/-- What the provider writes for a list that `_validate_alpn` accepts, the C parser turns into the
ALPN wire form; and no input of an admitted length makes it read or write past a buffer, wrap a size
or go on without end. The memory that the parser finds is any, so that nothing can depend on what
was in it. Each of the fuels is above the length of the input, which the loop never exceeds; the
second part needs no list that was accepted. -/
theorem alpn_framing (memory : Nat → UInt8) :
    (∀ protocols accepted, validateAlpn protocols = .ok accepted → accepted ≠ [] → ∃ input wire length,
      encodeAscii (alpnWire accepted) = some input ∧ wire.take length = alpnProtocols accepted ∧
      ∀ fuel > input.length, parseAlpn fuel memory input = .ok (some (wire, length))) ∧
    ∀ input : Bytes, 1 ≤ input.length → input.length ≤ 8192 → ∃ result, ∀ fuel > input.length,
    parseAlpn fuel memory input = .ok result := by
  constructor
  · intro protocols accepted run nonempty
    unfold validateAlpn at run
    split at run
    · cases run
    · rename_i few
      obtain ⟨rfl, valid⟩ := collectAlpn_ok run
      obtain ⟨above, below⟩ := framed_length fun protocol member => (valid protocol member).2.1
      have positive := List.length_pos_iff.mpr nonempty
      obtain ⟨wire, length, read, form⟩ :=
        @parseAlpn_reads ((framed accepted).length + 1) accepted memory nonempty (by omega)
        (fun protocol member => ⟨(valid protocol member).1, (valid protocol member).2.1⟩)
          (Nat.lt_succ_self _)
      exact ⟨framed accepted, wire, length, alpnWire_ascii fun protocol member =>
        (valid protocol member).2.2, form,
        fun fuel enough => parseAlpn_mono enough (by omega) (by omega) read⟩
  · intro input nonempty short
    obtain ⟨result, run⟩ := parseAlpn_safe memory nonempty short (Nat.lt_succ_self _)
    exact ⟨result, fun fuel enough => parseAlpn_mono enough nonempty short run⟩

/-- A protocol that itself looks like a framed one. -/
example : (parseAlpn 64 (fun _ => 0) ((alpnWire ["h2".toList, "2:h2".toList]).map charByte)).map
    (·.map fun (wire, length) => wire.take length) =
    .ok (some (2 :: ascii "h2" ++ 4 :: ascii "2:h2")) := by decide

end AlpnParser
end PccGateway
