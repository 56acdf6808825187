import PccGateway.Dns.Message
import PccGateway.Http1.Digits

namespace PccGateway
namespace Dns
open Search

/-- A part of `_parse_ipv4`. -/
def parseOctet (part : Text) : Option Nat :=
  if part = [] ∨ 3 < part.length then none
  else if part.any (fun byte => byte < '0' || '9' < byte) then none
  else
    let number := part.foldl (fun number byte => number * 10 + (byte.toNat - 48)) 0
    if 255 < number then none
    else if 1 < part.length ∧ part.head? = some '0' then none
    else some number

def parseIpv4 (value : Text) : Option (List Nat) :=
  let parts := value.splitOn '.'
  if parts.length ≠ 4 then none else parts.mapM parseOctet

/-- The digit of a character of `_parse_ipv6_piece`. -/
def hexValue (char : Char) : Option Nat :=
  if '0' ≤ char ∧ char ≤ '9' then some (char.toNat - 48)
  else if 'a' ≤ char ∧ char ≤ 'f' then some (char.toNat - 87)
  else if 'A' ≤ char ∧ char ≤ 'F' then some (char.toNat - 55)
  else none

/-- The loop of `_parse_ipv6_piece`. -/
def parseHex : Text → Nat → Option Nat
  | [], value => some value
  | char :: rest, value => do parseHex rest (value * 16 + (← hexValue char))

/-- `_parse_ipv6_piece`; `none` is the result -1. -/
def parseIpv6Piece (piece : Text) : Option Nat :=
  if piece = [] ∨ 4 < piece.length then none else parseHex piece 0

/-- The loop of `_ipv6_side_groups`. -/
def sideGroups (allowIpv4 : Bool) : List Text → Option (List Nat)
  | [] => some []
  | piece :: rest =>
    if '.' ∈ piece then
      if !allowIpv4 ∨ rest ≠ [] then none
      else
        match parseIpv4 piece with
        | some [first, second, third, fourth] => some [first * 256 + second, third * 256 + fourth]
        | _ => none
    else do
      let group ← parseIpv6Piece piece
      return group :: (← sideGroups allowIpv4 rest)

def ipv6SideGroups (side : Text) (allowIpv4 : Bool) : Option (List Nat) :=
  if side = [] then some [] else sideGroups allowIpv4 (side.splitOn ':')

/-- The groups that `_parse_ipv6` finds. The parts are those of `value.split("::")`, one more than
`value.count("::")`. -/
def ipv6Groups (value : Text) : Option (List Nat) :=
  match splitPair ':' ':' value with
  | [_] => do
    let groups ← ipv6SideGroups value true
    if groups.length ≠ 8 then none else return groups
  | [leftText, rightText] => do
    let left ← ipv6SideGroups leftText false
    let right ← ipv6SideGroups rightText true
    if 8 ≤ left.length + right.length then none
    else return left ++ List.replicate (8 - right.length - left.length) 0 ++ right
  | _ => none

def parseIpv6 (value : Text) : Option (List Nat) :=
  if value = [] ∨ '%' ∈ value then none
  else do
    let groups ← ipv6Groups value
    if groups.length ≠ 8 then none
    else return groups.flatMap fun group => [(group >>> 8) &&& 255, group &&& 255]

/-- `".".join(str(part) for part in ipv4)`. -/
def ipv4Text (bytes : List Nat) : Text := List.intercalate ['.'] (bytes.map decimal)

/-- The groups that `normalize_numeric_address` writes. -/
def pairGroups : List Nat → List Nat
  | high :: low :: rest => (high * 256 + low) :: pairGroups rest
  | _ => []

def ipv6Text (bytes : List Nat) : Text := List.intercalate [':'] ((pairGroups bytes).map hexadecimal)

def normalizeNumericAddress (value : Text) (qtype : Int := 0) : Option Text :=
  let text := strip value
  match (parseIpv4 text).filter fun _ => qtype = 0 ∨ qtype = dnsA with
  | some ipv4 => some (ipv4Text ipv4)
  | none => ((parseIpv6 text).filter fun _ => qtype = 0 ∨ qtype = dnsAaaa).map ipv6Text

inductive AddressClass where
  | unspecified | loopback | privateAddress | linkLocal | multicast | publicAddress | invalid
  deriving DecidableEq, Repr

/-- The part of `_address_class` for an IPv4 address. -/
def ipv4Class (bytes : List Nat) : AddressClass :=
  let first := bytes.getD 0 0
  let second := bytes.getD 1 0
  if first = 0 then .unspecified
  else if first = 127 then .loopback
  else if first = 10 ∨ (first = 172 ∧ 16 ≤ second ∧ second ≤ 31) ∨ (first = 192 ∧ second = 168) then
    .privateAddress
  else if first = 169 ∧ second = 254 then .linkLocal
  else if 224 ≤ first ∧ first ≤ 239 then .multicast
  else .publicAddress

/-- The part for an IPv6 address that is not a mapped one. -/
def ipv6Class (bytes : List Nat) : AddressClass :=
  let first := bytes.getD 0 0
  let second := bytes.getD 1 0
  if bytes.all (· == 0) then .unspecified
  else if (bytes.take 15).all (· == 0) ∧ bytes.getD 15 0 = 1 then .loopback
  else if first &&& 0xFE = 0xFC then .privateAddress
  else if first = 0xFE ∧ second &&& 0xC0 = 0x80 then .linkLocal
  else if first = 0xFF then .multicast
  else .publicAddress

/-- An IPv6 address that has an IPv4 address in its last bytes. -/
def isMapped (bytes : List Nat) : Bool :=
  (bytes.take 10).all (· == 0) && bytes.getD 10 0 == 255 && bytes.getD 11 0 == 255

/-- `_address_class`. Its call of itself is for the text of an IPv4 address, and is written out. -/
def addressClass (value : Text) : AddressClass :=
  match parseIpv4 value with
  | some ipv4 => ipv4Class ipv4
  | none =>
    match parseIpv6 value with
    | none => .invalid
    | some ipv6 =>
      if isMapped ipv6 then
        match parseIpv4 (ipv4Text (ipv6.drop 12)) with
        | some embedded => ipv4Class embedded
        | none => .invalid
      else ipv6Class ipv6

/-- The bytes of an address text. -/
def addressBytes (value : Text) : Option (List Nat) := (parseIpv4 value).or (parseIpv6 value)

/-- The class of an address by its bytes. -/
def bytesClass (bytes : List Nat) : AddressClass :=
  if bytes.length = 4 then ipv4Class bytes
  else if isMapped bytes then ipv4Class (bytes.drop 12)
  else ipv6Class bytes

theorem mapM_eq_some {α β : Type} {f : α → Option β} {xs : List α} {ys : List β} :
    xs.mapM f = some ys ↔ xs.map f = ys.map some := by
  induction xs generalizing ys with
  | nil => cases ys <;> simp
  | cons x xs ih =>
    cases ys with
    | nil => simp [List.mapM_cons, Option.bind_eq_some_iff]
    | cons y ys => simp [List.mapM_cons, Option.bind_eq_some_iff, ih]

section Ipv4

/-- The bytes of an address. -/
def Octets (count : Nat) (bytes : List Nat) : Prop := bytes.length = count ∧ ∀ byte ∈ bytes, byte ≤ 255

theorem parseOctet_le {part : Text} {byte : Nat} (parsed : parseOctet part = some byte) : byte ≤ 255 := by
  unfold parseOctet at parsed
  split at parsed
  · cases parsed
  split at parsed
  · cases parsed
  dsimp only at parsed
  split at parsed
  · cases parsed
  split at parsed
  · cases parsed
  · cases parsed
    omega

theorem parseIpv4_parts {value : Text} {bytes : List Nat} (parsed : parseIpv4 value = some bytes) :
    (value.splitOn '.').length = 4 ∧ (value.splitOn '.').map parseOctet = bytes.map some := by
  unfold parseIpv4 at parsed
  dsimp only at parsed
  split at parsed
  · cases parsed
  · rename_i four
    exact ⟨not_not.mp four, mapM_eq_some.mp parsed⟩

theorem parseIpv4_octets {value : Text} {bytes : List Nat} (parsed : parseIpv4 value = some bytes) :
    Octets 4 bytes := by
  obtain ⟨four, parts⟩ := parseIpv4_parts parsed
  constructor
  · have lengths := congrArg List.length parts
    rw [List.length_map, List.length_map] at lengths
    omega
  · intro byte member
    have image : some byte ∈ (value.splitOn '.').map parseOctet := by
      rw [parts]
      exact List.mem_map_of_mem member
    obtain ⟨part, -, read⟩ := List.mem_map.mp image
    exact parseOctet_le read

theorem parseOctet_decimal : ∀ byte ≤ 255, parseOctet (decimal byte) = some byte := by decide +kernel

theorem parseIpv4_ipv4Text {bytes : List Nat} (octets : Octets 4 bytes) :
    parseIpv4 (ipv4Text bytes) = some bytes := by
  have split : (ipv4Text bytes).splitOn '.' = bytes.map decimal := by
    refine List.splitOn_intercalate '.' ?_ ?_
    · intro piece member dotted
      obtain ⟨byte, -, rfl⟩ := List.mem_map.mp member
      obtain ⟨digit, small, same⟩ := decimal_isDigit dotted
      revert digit
      decide
    · rw [ne_eq, List.map_eq_nil_iff]
      rintro rfl
      cases octets.1
  unfold parseIpv4
  rw [split]
  simp only [List.length_map, octets.1, ne_eq, not_true_eq_false, if_false]
  refine mapM_eq_some.mpr ?_
  rw [List.map_map]
  exact List.map_congr_left fun byte member => parseOctet_decimal byte (octets.2 byte member)

end Ipv4

section Ipv6

theorem and_255 (value : Nat) : value &&& 255 = value % 256 := Nat.and_two_pow_sub_one_eq_mod value 8

theorem parseIpv6_octets {value : Text} {bytes : List Nat} (parsed : parseIpv6 value = some bytes) :
    Octets 16 bytes := by
  unfold parseIpv6 at parsed
  split at parsed
  · cases parsed
  obtain ⟨groups, -, parsed⟩ := Option.bind_eq_some_iff.mp parsed
  split at parsed
  · cases parsed
  rename_i eight
  cases parsed
  constructor
  · rw [List.length_flatMap]
    simp [not_not.mp eight]
  · intro byte member
    obtain ⟨group, -, half⟩ := List.mem_flatMap.mp member
    simp only [List.mem_cons, List.not_mem_nil, or_false] at half
    rcases half with rfl | rfl <;> exact Nat.and_le_right

theorem hexValue_digitChar : ∀ digit < 16, hexValue digit.digitChar = some digit := by decide

theorem parseHex_append (front back : Text) (value : Nat) :
    parseHex (front ++ back) value = parseHex front value >>= parseHex back := by
  induction front generalizing value with
  | nil => rfl
  | cons char rest ih =>
    simp only [List.cons_append, parseHex]
    cases hexValue char with
    | none => rfl
    | some digit => exact ih _

theorem parseHex_hexadecimal (n : Nat) : parseHex (hexadecimal n) 0 = some n := by
  unfold hexadecimal
  induction n using Nat.strongRecOn with
  | ind n ih =>
    rw [Nat.toDigits_eq_if (by decide)]
    split
    · rename_i small
      simp [parseHex, hexValue_digitChar n small]
    · rename_i large
      rw [parseHex_append, ih (n / 16) (Nat.div_lt_self (by omega) (by decide))]
      have digit := hexValue_digitChar (n % 16) (Nat.mod_lt _ (by decide))
      simp only [bind, Option.bind, parseHex, digit, Option.some.injEq]
      omega

theorem parseIpv6Piece_hexadecimal {group : Nat} (small : group < 65536) :
    parseIpv6Piece (hexadecimal group) = some group := by
  have short : (hexadecimal group).length ≤ 4 :=
    (Nat.length_toDigits_le_iff (by decide) (by decide)).mpr small
  have nonempty : hexadecimal group ≠ [] := Nat.toDigits_ne_nil
  unfold parseIpv6Piece
  rw [if_neg (by simp only [nonempty, false_or]; omega), parseHex_hexadecimal]

theorem hexadecimal_plain {group : Nat} {c : Char} (member : c ∈ hexadecimal group) :
    c ≠ '.' ∧ c ≠ ':' ∧ c ≠ '%' := by
  obtain ⟨digit, small, rfl⟩ := mem_toDigits (by decide) member
  clear member
  revert digit
  decide

theorem sideGroups_hexadecimal {groups : List Nat} (small : ∀ group ∈ groups, group < 65536)
    (allowIpv4 : Bool) :
    sideGroups allowIpv4 (groups.map hexadecimal) = some groups := by
  induction groups with
  | nil => rfl
  | cons group groups ih =>
    have plain : '.' ∉ hexadecimal group := fun member => (hexadecimal_plain member).1 rfl
    simp [sideGroups, plain, parseIpv6Piece_hexadecimal (small group (by simp)),
      ih fun group member => small group (by simp [member])]

theorem pairGroups_bytes {bytes : List Nat} (even : bytes.length % 2 = 0)
    (small : ∀ byte ∈ bytes, byte ≤ 255) :
    (pairGroups bytes).length = bytes.length / 2 ∧ (∀ group ∈ pairGroups bytes, group < 65536) ∧
      ((pairGroups bytes).flatMap fun group => [(group >>> 8) &&& 255, group &&& 255]) = bytes := by
  induction bytes using pairGroups.induct with
  | case1 high low rest ih =>
    simp only [List.length_cons] at even
    obtain ⟨length, bound, back⟩ := ih (by omega) fun byte member => small byte (by simp [member])
    have highSmall := small high (by simp)
    have lowSmall := small low (by simp)
    have highBack : ((high * 256 + low) >>> 8) &&& 255 = high := by
      rw [and_255, Nat.shiftRight_eq_div_pow]
      omega
    have lowBack : (high * 256 + low) &&& 255 = low := by
      rw [and_255]
      omega
    refine ⟨?_, ?_, ?_⟩
    · simp only [pairGroups, List.length_cons, length]
      omega
    · intro group member
      rcases List.mem_cons.mp member with rfl | member
      · omega
      · exact bound group member
    · simp only [pairGroups, List.flatMap_cons, highBack, lowBack, back]
      rfl
  | case2 bytes short =>
    cases bytes with
    | nil => simp [pairGroups]
    | cons first rest =>
      cases rest with
      | nil => simp at even
      | cons second rest => exact absurd rfl (short first second rest)

theorem splitOn_ipv6Text {bytes : List Nat} (octets : Octets 16 bytes) :
    (ipv6Text bytes).splitOn ':' = (pairGroups bytes).map hexadecimal := by
  refine List.splitOn_intercalate ':' ?_ ?_
  · intro piece member colon
    obtain ⟨group, -, rfl⟩ := List.mem_map.mp member
    exact (hexadecimal_plain colon).2.1 rfl
  · have length := (pairGroups_bytes (by rw [octets.1]) octets.2).1
    rw [ne_eq, List.map_eq_nil_iff]
    intro none
    rw [none, octets.1] at length
    cases length

theorem mem_ipv6Text {bytes : List Nat} {c : Char} (member : c ∈ ipv6Text bytes) : c ≠ '.' ∧ c ≠ '%' := by
  rcases mem_intercalate member with rfl | ⟨piece, listed, member⟩
  · decide
  · obtain ⟨group, -, rfl⟩ := List.mem_map.mp listed
    exact ⟨(hexadecimal_plain member).1, (hexadecimal_plain member).2.2⟩

theorem parseIpv4_ipv6Text (bytes : List Nat) : parseIpv4 (ipv6Text bytes) = none := by
  have whole : (ipv6Text bytes).splitOn '.' = [ipv6Text bytes] :=
    List.splitOn_eq_singleton fun member => (mem_ipv6Text member).1 rfl
  simp [parseIpv4, whole]

theorem parseIpv6_ipv6Text {bytes : List Nat} (octets : Octets 16 bytes) :
    parseIpv6 (ipv6Text bytes) = some bytes := by
  obtain ⟨length, small, back⟩ := pairGroups_bytes (by rw [octets.1]) octets.2
  have split := splitOn_ipv6Text octets
  have nonempty : ipv6Text bytes ≠ [] := by
    intro empty
    rw [empty] at split
    have lengths := congrArg List.length split
    rw [List.length_map, length, octets.1] at lengths
    simp at lengths
  have percent : '%' ∉ ipv6Text bytes := fun member => (mem_ipv6Text member).2 rfl
  have whole : splitPair ':' ':' (ipv6Text bytes) = [ipv6Text bytes] := by
    refine splitPair_intercalate fun piece member => ?_
    obtain ⟨group, -, rfl⟩ := List.mem_map.mp member
    exact ⟨Nat.toDigits_ne_nil, fun colon => (hexadecimal_plain colon).2.1 rfl⟩
  have eight : (pairGroups bytes).length = 8 := by rw [length, octets.1]
  have groups : ipv6Groups (ipv6Text bytes) = some (pairGroups bytes) := by
    simp [ipv6Groups, whole, ipv6SideGroups, nonempty, split, sideGroups_hexadecimal small, eight]
  simp [parseIpv6, nonempty, percent, groups, eight, back]

theorem parseOctet_digits {part : Text} {byte : Nat} (parsed : parseOctet part = some byte) :
    ':' ∉ part := by
  unfold parseOctet at parsed
  split at parsed
  · cases parsed
  split at parsed
  · cases parsed
  rename_i digits
  simp only [List.any_eq_true, not_exists, not_and] at digits
  exact fun member => digits ':' member (by decide)

theorem parseIpv4_chars {value : Text} {bytes : List Nat} (parsed : parseIpv4 value = some bytes) :
    '.' ∈ value ∧ ':' ∉ value := by
  obtain ⟨four, parts⟩ := parseIpv4_parts parsed
  constructor
  · by_contra absent
    rw [List.splitOn_eq_singleton absent] at four
    cases four
  · intro member
    have joined : List.intercalate ['.'] (value.splitOn '.') = value := List.intercalate_splitOn '.'
    rw [← joined] at member
    rcases mem_intercalate member with same | ⟨piece, listed, inside⟩
    · cases same
    · have image : parseOctet piece ∈ bytes.map some := parts ▸ List.mem_map_of_mem listed
      obtain ⟨byte, -, read⟩ := List.mem_map.mp image
      exact parseOctet_digits read.symm inside

/-- A text is not an address of both kinds. -/
theorem parseIpv6_of_parseIpv4 {value : Text} {bytes : List Nat}
    (parsed : parseIpv4 value = some bytes) : parseIpv6 value = none := by
  obtain ⟨dot, noColon⟩ := parseIpv4_chars parsed
  have nonempty : value ≠ [] := List.ne_nil_of_mem dot
  have whole : splitPair ':' ':' value = [value] := splitPair_not_mem noColon
  have groups : ipv6Groups value = none := by
    obtain ⟨four, -⟩ := parseIpv4_octets parsed
    match bytes, four with
    | [first, second, third, fourth], _ =>
      simp [ipv6Groups, whole, ipv6SideGroups, nonempty, List.splitOn_eq_singleton noColon,
        sideGroups, dot, parsed]
  unfold parseIpv6
  split
  · rfl
  · simp [groups]

end Ipv6

/-- What `normalize_numeric_address` returns has the bytes of the text that it was given, and its
class is theirs. -/
theorem normalize_bytes {value address : Text} {qtype : Int}
    (normalized : normalizeNumericAddress value qtype = some address) :
    ∃ bytes, addressBytes (strip value) = some bytes ∧ addressBytes address = some bytes ∧
    addressClass address = bytesClass bytes := by
  unfold normalizeNumericAddress at normalized
  dsimp only at normalized
  split at normalized
  · rename_i ipv4 found
    obtain ⟨parsed, -⟩ := Option.filter_eq_some_iff.mp found
    cases normalized
    have octets := parseIpv4_octets parsed
    have back := parseIpv4_ipv4Text octets
    refine ⟨ipv4, by simp [addressBytes, parsed], by simp [addressBytes, back], ?_⟩
    simp [addressClass, back, bytesClass, octets.1]
  · obtain ⟨ipv6, found, rfl⟩ := Option.map_eq_some_iff.mp normalized
    obtain ⟨parsed, -⟩ := Option.filter_eq_some_iff.mp found
    have octets := parseIpv6_octets parsed
    have back := parseIpv6_ipv6Text octets
    have single : parseIpv4 (strip value) = none := by
      cases other : parseIpv4 (strip value) with
      | none => rfl
      | some ipv4 => exact absurd parsed (by simp [parseIpv6_of_parseIpv4 other])
    have embedded : parseIpv4 (ipv4Text (ipv6.drop 12)) = some (ipv6.drop 12) := by
      refine parseIpv4_ipv4Text ⟨by simp [octets.1], fun byte member =>
        octets.2 byte (List.mem_of_mem_drop member)⟩
    refine ⟨ipv6, by simp [addressBytes, single, parsed],
      by simp [addressBytes, parseIpv4_ipv6Text, back], ?_⟩
    simp [addressClass, parseIpv4_ipv6Text, back, bytesClass, octets.1, embedded]

end Dns
end PccGateway
