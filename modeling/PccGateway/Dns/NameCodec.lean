import PccGateway.Lib.Search
import PccGateway.Dns.Totality

namespace PccGateway
namespace Dns

section Encoding
variable {case : CaseMapping} {label : Text} {labels : List Text} {out : Bytes}

/-- What `encode_name` accepts of a label. -/
structure LabelBytes (label : Text) (raw : Bytes) : Prop where
  text : label = latin1Text raw
  nonempty : 1 ≤ raw.length
  short : raw.length ≤ 63
  plain : ∀ byte ∈ raw, byte ≤ 127

theorem encodeLabel_bytes (encoded : encodeLabel label = .ok out) :
    ∃ raw, LabelBytes label raw ∧ out = UInt8.ofNat raw.length :: raw := by
  unfold encodeLabel at encoded
  split at encoded
  · cases encoded
  · rename_i raw isAscii
    have plain : ∀ byte ∈ raw, byte ≤ 127 := by
      unfold encodeAscii at isAscii
      split at isAscii
      · rename_i small
        cases isAscii
        intro byte member
        obtain ⟨c, inLabel, rfl⟩ := List.mem_map.mp member
        have small : c.toNat ≤ 127 := by simpa using List.all_eq_true.mp small c inLabel
        rw [UInt8.le_iff_toNat_le, toNat_charByte (by omega)]
        exact small
      · cases isAscii
    split at encoded
    · cases encoded
    · rename_i length
      split at encoded
      · cases encoded
      · split at encoded
        · cases encoded
        · cases encoded
          exact ⟨raw, ⟨encodeAscii_latin1 isAscii, by omega, by omega, plain⟩, rfl⟩

theorem encodeLabels_cons (encoded : encodeLabels (label :: labels) = .ok out) :
    ∃ raw rest, LabelBytes label raw ∧ encodeLabels labels = .ok rest ∧ out =
      (UInt8.ofNat raw.length :: raw) ++ rest := by
  simp only [encodeLabels, bind, Except.bind, pure, Except.pure] at encoded
  split at encoded
  · cases encoded
  · rename_i first isFirst
    split at encoded
    · cases encoded
    · rename_i rest isRest
      cases encoded
      obtain ⟨raw, bytes, rfl⟩ := encodeLabel_bytes isFirst
      exact ⟨raw, rest, bytes, isRest, rfl⟩

/-- Every label costs one byte more than its text, and so does the end. -/
theorem encodeLabels_length (encoded : encodeLabels labels = .ok out) :
    out.length = (labels.map List.length).sum + labels.length + 1 := by
  induction labels generalizing out with
  | nil =>
    cases encoded
    rfl
  | cons label labels ih =>
    obtain ⟨raw, rest, bytes, isRest, rfl⟩ := encodeLabels_cons encoded
    have := ih isRest
    simp only [List.length_append, List.length_cons, List.map_cons, List.sum_cons, bytes.text,
      latin1Text, List.length_map]
    omega

theorem encodeLabels_short (encoded : encodeLabels labels = .ok out) :
    ∀ label ∈ labels, 1 ≤ label.length ∧ label.length ≤ 63 := by
  induction labels generalizing out with
  | nil => exact nofun
  | cons label labels ih =>
    obtain ⟨raw, rest, bytes, isRest, rfl⟩ := encodeLabels_cons encoded
    intro other member
    rcases List.mem_cons.mp member with rfl | later
    · rw [bytes.text, latin1Text, List.length_map]
      exact ⟨bytes.nonempty, bytes.short⟩
    · exact ih isRest other later

theorem joinLabels_length (nonempty : labels ≠ []) :
    (joinLabels labels).length + 1 = (labels.map List.length).sum + labels.length := by
  induction labels with
  | nil => exact absurd rfl nonempty
  | cons label labels ih =>
    cases labels with
    | nil => simp [joinLabels, List.intercalate]
    | cons next labels =>
      have := ih (by simp)
      simp only [joinLabels, List.intercalate, List.intersperse_cons_cons, List.flatten_cons,
        List.length_append, List.map_cons, List.sum_cons, List.length_cons, List.length_nil] at this ⊢
      omega

end Encoding

section Decoding
variable {case : CaseMapping} {data before after out : Bytes} {labels : List Text}

theorem small_label : ∀ length < 64, length &&& 0xC0 = 0 := by decide

theorem byteAt_append (byte : UInt8) (rest : Bytes) :
    byteAt (before ++ byte :: rest) before.length = .ok byte.toNat := by
  simp [byteAt]

theorem decodeAscii_plain {raw : Bytes} (plain : ∀ byte ∈ raw, byte ≤ 127) :
    decodeAscii raw = some (latin1Text raw) := by
  unfold decodeAscii
  rw [if_pos (List.all_eq_true.mpr fun byte member => decide_eq_true (plain byte member))]

/-- A label that was encoded is read back. -/
theorem decodeLoop_label {label : Text} {raw : Bytes} (bytes : LabelBytes label raw)
    (settled : case.lower label = label) (fuel : Nat)
    (name : NameCursor) (place : name.cursor = before.length) :
    decodeLoop case (before ++ (UInt8.ofNat raw.length :: raw) ++ after) (fuel + 1) name =
      decodeLoop case (before ++ (UInt8.ofNat raw.length :: raw) ++ after) fuel
        { name with labels := name.labels ++ [label], cursor := before.length + 1 + raw.length } := by
  have small := bytes.short
  have size : (UInt8.ofNat raw.length).toNat = raw.length := by
    rw [UInt8.toNat_ofNat']
    omega
  have byte : byteAt (before ++ (UInt8.ofNat raw.length :: raw) ++ after) name.cursor = .ok raw.length := by
    rw [place, List.append_assoc, List.cons_append, byteAt_append, size]
  have slice : ((before ++ (UInt8.ofNat raw.length :: raw) ++ after).drop (before.length + 1)).take
      raw.length = raw := by
    rw [List.append_assoc, ← List.drop_drop, List.drop_left, List.cons_append, List.drop_succ_cons,
      List.drop_zero, List.take_left]
  have inside : ¬ (before ++ (UInt8.ofNat raw.length :: raw) ++ after).length ≤ before.length := by simp
  have room : ¬ (63 < raw.length ∨ (before ++ (UInt8.ofNat raw.length :: raw) ++ after).length <
      before.length + 1 + raw.length) := by
    simp only [List.length_append, List.length_cons]
    omega
  have nonzero : raw.length ≠ 0 := Nat.ne_of_gt bytes.nonempty
  rw [decodeLoop, if_neg (place ▸ inside), byte]
  simp only [bind, Except.bind, small_label raw.length (by omega), ne_eq, not_true_eq_false, if_false,
    if_neg nonzero,
    (by decide : ¬ (0 : Nat) = 0xC0), readLabel, place, if_neg room, slice,
    decodeAscii_plain bytes.plain, ← bytes.text, settled]

/-- So is a row of labels with its end. -/
theorem decodeLoop_labels (encoded : encodeLabels labels = .ok out)
    (settled : ∀ label ∈ labels, case.lower label = label) (fuel : Nat)
    (enough : labels.length < fuel) (name : NameCursor) (place : name.cursor = before.length) :
    decodeLoop case (before ++ out ++ after) fuel name =
      .ok (name.labels ++ labels, name.nextOffset.getD (before.length + out.length)) := by
  induction labels generalizing before out fuel name with
  | nil =>
    cases encoded
    obtain ⟨fuel, rfl⟩ := Nat.exists_eq_succ_of_ne_zero (Nat.ne_of_gt enough)
    have inside : ¬ (before ++ [0] ++ after).length ≤ name.cursor := by simp [place]
    have byte : byteAt (before ++ [0] ++ after) name.cursor = .ok 0 := by
      rw [place, List.append_assoc, List.cons_append, byteAt_append]
      rfl
    rw [decodeLoop, if_neg inside, byte]
    simp [bind, Except.bind, pure, Except.pure, place]
  | cons label labels ih =>
    obtain ⟨raw, rest, bytes, isRest, rfl⟩ := encodeLabels_cons encoded
    obtain ⟨fuel, rfl⟩ := Nat.exists_eq_succ_of_ne_zero (Nat.ne_of_gt (Nat.zero_lt_of_lt enough))
    have shape : before ++ (UInt8.ofNat raw.length :: raw ++ rest) ++ after =
        before ++ (UInt8.ofNat raw.length :: raw) ++ (rest ++ after) := by simp
    have next : before ++ (UInt8.ofNat raw.length :: raw) ++ (rest ++ after) =
        (before ++ (UInt8.ofNat raw.length :: raw)) ++ rest ++ after := by simp
    rw [shape, decodeLoop_label bytes (settled label List.mem_cons_self) fuel name place, next,
      ih isRest (fun other member => settled other (List.mem_cons_of_mem _ member)) fuel
        (by simpa using enough) _ (by simp; omega)]
    simp only [List.append_assoc, List.singleton_append, List.length_append, List.length_cons,
      Nat.add_assoc]

/-- What `encode_name` makes of a name. -/
structure Encoded (case : CaseMapping) (name : Text) (out : Bytes) : Prop where
  labels : encodeLabels ((case.canonical name).splitOn '.') = .ok out
  nonempty : case.canonical name ≠ []
  short : (case.canonical name).length ≤ 253

theorem encodeName_encoded {name : Text} (encoded : encodeName case name = .ok out) :
    Encoded case name out := by
  unfold encodeName at encoded
  simp only at encoded
  split at encoded
  · cases encoded
  · rename_i length
    obtain ⟨nonempty, short⟩ := not_or.mp length
    exact ⟨encoded, nonempty, Nat.not_lt.mp short⟩

theorem lowerChar_settled {c : Char} (small : c.toNat ≤ 127)
    (settled : ¬ (65 ≤ c.toNat ∧ c.toNat ≤ 90)) : lowerChar c = c := by
  unfold lowerChar
  rw [if_neg]
  omega

theorem encodeLabels_plain (encoded : encodeLabels labels = .ok out) :
    ∀ label ∈ labels, ∀ c ∈ label, c.toNat ≤ 127 := by
  induction labels generalizing out with
  | nil => exact nofun
  | cons label labels ih =>
    obtain ⟨raw, rest, bytes, isRest, rfl⟩ := encodeLabels_cons encoded
    intro other member c inOther
    rcases List.mem_cons.mp member with rfl | later
    · rw [bytes.text] at inOther
      obtain ⟨byte, inRaw, rfl⟩ := List.mem_map.mp inOther
      rw [toNat_byteChar]
      exact bytes.plain byte inRaw
    · exact ih isRest other later c inOther

/-- The labels of a name that was accepted are in lower case already. -/
theorem Encoded.settled {name : Text} (encoded : Encoded case name out) :
    ∀ label ∈ (case.canonical name).splitOn '.', case.lower label = label := by
  intro label member
  have plain := encodeLabels_plain encoded.labels label member
  have same : ∀ c ∈ label, lowerChar c = c := fun c inLabel =>
    lowerChar_settled (plain c inLabel) (case.settled _ c (Search.mem_of_mem_splitOn member inLabel))
  rw [case.ascii label plain, List.map_congr_left same, List.map_id']

/-- The encoding has two bytes more than the name. -/
theorem Encoded.length {name : Text} (encoded : Encoded case name out) :
    out.length = (case.canonical name).length + 2 := by
  have whole := encodeLabels_length encoded.labels
  have joined := joinLabels_length (List.splitOn_ne_nil '.' (case.canonical name))
  rw [joinLabels, List.intercalate_splitOn] at joined
  omega

/-- The labels of a name are read back, wherever the cursor has come from. -/
theorem Encoded.decodeLoop {name : Text} (encoded : Encoded case name out) {fuel : Nat}
    (enough : out.length ≤ fuel) (cursor : NameCursor) (place : cursor.cursor = before.length) :
    decodeLoop case (before ++ out ++ after) fuel cursor =
      .ok (cursor.labels ++ (case.canonical name).splitOn '.',
        cursor.nextOffset.getD (before.length + out.length)) := by
  refine decodeLoop_labels encoded.labels encoded.settled fuel ?_ cursor place
  have := encodeLabels_length encoded.labels
  omega

theorem Encoded.decodeLabels {name : Text} (encoded : Encoded case name out) :
    decodeLabels case (before ++ out ++ after) before.length =
      .ok ((case.canonical name).splitOn '.', before.length + out.length) := by
  refine encoded.decodeLoop ?_ _ rfl
  simp only [List.length_append]
  omega

theorem joinLabels_splitOn (text : Text) :
    joinLabels (text.splitOn '.') = text := List.intercalate_splitOn '.'

/-- A compression pointer. -/
def pointerTo (offset : Nat) : Bytes := putU16 (0xC000 + offset)

theorem putU16_eq {value : Nat} (small : value < 65536) :
    putU16 value = [UInt8.ofNat (value / 256), UInt8.ofNat (value % 256)] := by
  have high : (value >>> 8) &&& 255 = value / 256 := by
    rw [Nat.shiftRight_eq_div_pow, show (255 : Nat) = 2 ^ 8 - 1 from rfl, Nat.and_two_pow_sub_one_eq_mod]
    omega
  have low : value &&& 255 = value % 256 := Nat.and_two_pow_sub_one_eq_mod value 8
  rw [putU16, high, low]

theorem toNat_ofNat_byte {value : Nat} (small : value < 256) : (UInt8.ofNat value).toNat = value := by
  rw [UInt8.toNat_ofNat']
  omega

theorem pointer_bits : ∀ high < 64, (192 + high) &&& 0xC0 = 0xC0 ∧ (192 + high) &&& 0x3F = high := by decide

theorem byteAt_eq {index : Nat} {byte : UInt8} (found : data[index]? = some byte) :
    byteAt data index = .ok byte.toNat := by
  rw [byteAt, found]

/-- A name is read back through a pointer to it. -/
theorem Encoded.decodeLabels_pointer {name : Text} (encoded : Encoded case name out) {place : Nat}
    (near : before.length < 16384)
    (pointer : ((before ++ out ++ after).drop place).take 2 = pointerTo before.length) :
    Dns.decodeLabels case (before ++ out ++ after) place =
      .ok ((case.canonical name).splitOn '.', place + 2) := by
  generalize whole : before ++ out ++ after = data at pointer
  rw [pointerTo, putU16_eq (by omega)] at pointer
  have first : data[place]? = some (UInt8.ofNat ((0xC000 + before.length) / 256)) := by
    have at_ := congrArg (fun bytes => bytes[0]?) pointer
    simpa [List.getElem?_take, List.getElem?_drop] using at_
  have second : data[place + 1]? = some (UInt8.ofNat ((0xC000 + before.length) % 256)) := by
    have at_ := congrArg (fun bytes => bytes[1]?) pointer
    simpa [List.getElem?_take, List.getElem?_drop] using at_
  have inside := (List.getElem?_eq_some_iff.mp second).1
  have size := encoded.length
  have target : before.length < data.length := by
    rw [← whole]
    simp only [List.length_append]
    omega
  have high : (UInt8.ofNat ((0xC000 + before.length) / 256)).toNat = 192 + before.length / 256 := by
    rw [toNat_ofNat_byte (by omega)]
    omega
  have low : (UInt8.ofNat ((0xC000 + before.length) % 256)).toNat = before.length % 256 := by
    rw [toNat_ofNat_byte (by omega)]
    omega
  have goal : ((before.length / 256) <<< 8) ||| before.length % 256 = before.length := by
    rw [← Nat.shiftLeft_add_eq_or_of_lt (Nat.mod_lt _ (by decide) : before.length % 256 < 2 ^ 8),
      Nat.shiftLeft_eq]
    omega
  obtain ⟨isPointer, bits⟩ := pointer_bits (before.length / 256) (by omega)
  unfold Dns.decodeLabels
  rw [show 33 * (data.length + 1) = (33 * (data.length + 1) - 1) + 1 by omega, Dns.decodeLoop,
    if_neg (by simp only; omega), byteAt_eq first, high]
  simp only [bind, Except.bind, if_pos isPointer, followPointer, byteAt_eq second, low, bits, goal,
    if_neg (by omega : ¬ data.length ≤ place + 1), List.not_mem_nil, or_false,
    if_neg (by omega : ¬ data.length ≤ before.length),
    (by decide : ¬ 32 < 0 + 1), if_false, pure, Except.pure]
  rw [← whole, encoded.decodeLoop ?_ _ rfl]
  · simp
  · rw [whole, ← whole]
    simp only [List.length_append]
    omega

end Decoding

section Responses
variable {case : CaseMapping} {before after : Bytes}

theorem u16_append {value : Nat} (small : value < 65536) :
    u16 (before ++ putU16 value ++ after) before.length = .ok value := by
  have inside : ¬ (before ++ putU16 value ++ after).length < before.length + 2 := by
    rw [putU16_eq small]
    simp
  have second : byteAt (before ++ putU16 value ++ after) (before.length + 1) = .ok (value % 256) := by
    rw [putU16_eq small]
    simp [byteAt]
  have first : byteAt (before ++ putU16 value ++ after) before.length = .ok (value / 256) := by
    rw [putU16_eq small]
    simp only [byteAt, List.append_assoc, List.cons_append]
    simp
    omega
  rw [u16, if_neg inside, first, second]
  simp only [bind, Except.bind, pure, Except.pure, Except.ok.injEq]
  omega

/-- A query with the response bit set. -/
def respond (query : Bytes) : Bytes := query.take 2 ++ (query.drop 2).modifyHead (· ||| 0x80)

/-- The parts of a query. -/
theorem buildQuery_parts {queryId : Int} {name : Text} {qtype : Int} {query : Bytes}
    (built : buildQuery case queryId name qtype = .ok query) :
    0 ≤ queryId ∧ queryId ≤ 65535 ∧ 0 ≤ qtype ∧ qtype < 65536 ∧ ∃ encoded, encodeName case name =
      .ok encoded ∧
      query = putU16 queryId.toNat ++ putU16 0x0100 ++ putU16 1 ++ putU16 0 ++ putU16 0 ++
        putU16 0 ++ encoded ++ putU16 qtype.toNat ++ putU16 dnsClassIn := by
  unfold buildQuery at built
  split at built
  · cases built
  · rename_i range
    split at built
    · cases built
    · rename_i kinds
      have kinds : qtype = 1 ∨ qtype = 28 := by
        simp only [dnsA, dnsAaaa] at kinds
        omega
      cases encoded : encodeName case name with
      | error error =>
        simp only [encoded, bind, Except.bind] at built
        cases built
      | ok out =>
        simp only [encoded, bind, Except.bind, pure, Except.pure, Except.ok.injEq] at built
        exact ⟨by omega, by omega, by omega, by omega, out, rfl, built.symm⟩

@[simp] theorem putU16_length (value : Nat) : (putU16 value).length = 2 := rfl

/-- `_u16` at an offset, with the bytes around it. -/
theorem u16_at {data : Bytes} {offset value : Nat} (shape : data = before ++ putU16 value ++ after)
    (place : offset = before.length) (small : value < 65536) : u16 data offset = .ok value := by
  rw [shape, place, u16_append small]

/-- The echo of a query is a response without answers. -/
theorem parseResponse_respond {queryId : Int} {name : Text} {qtype : Int} {query : Bytes}
    (built : buildQuery case queryId name qtype = .ok query) :
    parseResponse case (respond query) queryId name qtype =
      .ok { queryId := queryId.toNat, truncated := false, rcode := 0, answers := [] } := by
  obtain ⟨low, high, lowType, highType, encoded, isEncoded, parts⟩ := buildQuery_parts built
  have name_ := encodeName_encoded isEncoded
  have shape : respond query = putU16 queryId.toNat ++ putU16 0x8100 ++ putU16 1 ++ putU16 0 ++
      putU16 0 ++ putU16 0 ++ encoded ++ putU16 qtype.toNat ++ putU16 dnsClassIn := by
    rw [parts]
    rfl
  have whole : respond query = (putU16 queryId.toNat ++ putU16 0x8100 ++ putU16 1 ++ putU16 0 ++
      putU16 0 ++ putU16 0) ++ encoded ++ (putU16 qtype.toNat ++ putU16 dnsClassIn) := by simp [shape]
  have long : ¬ (respond query).length < 12 := by
    rw [whole]
    simp
    omega
  have id_ : u16 (respond query) 0 = .ok queryId.toNat :=
    @u16_at [] _ _ _ _ (by simpa [List.append_assoc] using shape) rfl (by omega)
  have flags : u16 (respond query) 2 = .ok 0x8100 :=
    @u16_at (putU16 queryId.toNat) _ _ _ _ (by simpa [List.append_assoc] using shape) rfl (by decide)
  have qdcount : u16 (respond query) 4 = .ok 1 :=
    @u16_at (putU16 queryId.toNat ++ putU16 0x8100) _ _ _ _
      (by simpa [List.append_assoc] using shape) rfl (by decide)
  have ancount : u16 (respond query) 6 = .ok 0 :=
    @u16_at (putU16 queryId.toNat ++ putU16 0x8100 ++ putU16 1) _ _ _ _
      (by simpa [List.append_assoc] using shape) rfl (by decide)
  have labels : decodeLabels case (respond query) 12 =
      .ok ((case.canonical name).splitOn '.', 12 + encoded.length) := by
    rw [whole]
    exact name_.decodeLabels
  have kind : u16 (respond query) (12 + encoded.length) = .ok qtype.toNat :=
    @u16_at (_ ++ encoded) (putU16 dnsClassIn) _ _ _ shape (by simp; omega) (by omega)
  have class_ : u16 (respond query) (12 + encoded.length + 2) = .ok dnsClassIn :=
    @u16_at (_ ++ encoded ++ putU16 qtype.toNat) [] _ _ _ (by rw [List.append_nil]; exact shape)
      (by simp; omega) (by decide)
  have echoed : ((queryId.toNat : Nat) : Int) = queryId := Int.toNat_of_nonneg low
  have sameType : ((qtype.toNat : Nat) : Int) = qtype := Int.toNat_of_nonneg lowType
  unfold parseResponse readQuestion
  simp only [if_neg long, id_, flags, qdcount, ancount, labels, kind, class_, bind, Except.bind, pure,
    Except.pure, echoed, sameType,
    joinLabels_splitOn, ne_eq, not_true_eq_false, or_self, if_false, readRecords]
  rfl

/-- Names are read back, in a packet at any place and through a pointer; their encoding is short;
and the echo of a query is accepted. What is assumed is that the name is one that `encode_name`
accepts. Nothing is assumed about what stands around it in the packet. A pointer has fourteen bits
for its place, which is why the name is before 16384 there. -/
theorem name_codec (case : CaseMapping) (name : Text) (out : Bytes)
    (accepted : encodeName case name = .ok out) :
    (∀ before after, decodeName case (before ++ out ++ after) before.length =
      .ok (case.canonical name, before.length + out.length)) ∧
    (∀ before after place, before.length < 16384 →
      ((before ++ out ++ after).drop place).take 2 = pointerTo before.length →
      decodeName case (before ++ out ++ after) place = .ok (case.canonical name, place + 2)) ∧
    out.length ≤ 255 ∧ (∀ label ∈ (case.canonical name).splitOn '.', 1 ≤ label.length ∧ label.length ≤ 63) ∧
    ∀ queryId qtype query, buildQuery case queryId name qtype = .ok query →
      parseResponse case (respond query) queryId name qtype =
        .ok { queryId := queryId.toNat, truncated := false, rcode := 0, answers := [] } := by
  have encoded := encodeName_encoded accepted
  refine ⟨fun before after => ?_, fun before after place near pointer => ?_, ?_,
    encodeLabels_short encoded.labels, fun _ _ _ built => parseResponse_respond built⟩
  · rw [decodeName, encoded.decodeLabels]
    simp only [bind, Except.bind, pure, Except.pure, joinLabels_splitOn]
  · rw [decodeName, encoded.decodeLabels_pointer near pointer]
    simp only [bind, Except.bind, pure, Except.pure, joinLabels_splitOn]
  · have size := encoded.length
    have short := encoded.short
    omega

/-- `str.lower()` as it is on Latin-1. -/
def latin1Mapping : CaseMapping where
  lower := lower
  ascii := fun _ _ => rfl
  settled := by
    intro text c member
    obtain ⟨other, -, rfl⟩ := List.mem_map.mp member
    simp only [lowerChar]
    by_cases range : (65 ≤ other.toNat ∧ other.toNat ≤ 90) ∨
      (0xC0 ≤ other.toNat ∧ other.toNat ≤ 0xDE ∧ other.toNat ≠ 0xD7)
    · rw [if_pos range, toNat_ofNat (by omega)]
      omega
    · rw [if_neg range]
      omega

theorem name_codec_example :
    decodeName latin1Mapping ([7] ++ [2, 110, 115, 3, 100, 110, 115, 0] ++ [192, 1]) 9 =
      .ok ("ns.dns".toList, 11) := by
  refine (name_codec latin1Mapping "Ns.dnS.".toList
    [2, 110, 115, 3, 100, 110, 115, 0] (by decide)).2.1 [7] [192, 1] 9 ?_ ?_
  · decide
  · decide

end Responses
end Dns
end PccGateway
