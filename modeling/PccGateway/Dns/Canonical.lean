import PccGateway.Dns.Address

namespace PccGateway
namespace Dns
open Search

/-- Four decimal numbers up to 255, without leading zeros, with dots between them. -/
def DottedQuad (text : Text) (bytes : List Nat) : Prop :=
  Octets 4 bytes ∧ text = List.intercalate ['.'] (bytes.map decimal)

/-- One to four hexadecimal digits. -/
def HexGroup (piece : Text) (group : Nat) : Prop :=
  piece ≠ [] ∧ piece.length ≤ 4 ∧ ∃ digits : List Nat, piece.map hexValue = digits.map some ∧
    group = digits.foldl (fun value digit => value * 16 + digit) 0

/-- The texts of groups. Where that is allowed the last two may be a dotted quad. -/
inductive GroupTexts (quad : Prop) : List Text → List Nat → Prop
  | nil : GroupTexts quad [] []
  | group {piece : Text} {group : Nat} {pieces : List Text} {groups : List Nat} :
      HexGroup piece group → GroupTexts quad pieces groups →
      GroupTexts quad (piece :: pieces) (group :: groups)
  | quad {piece : Text} {first second third fourth : Nat} :
      quad → DottedQuad piece [first, second, third, fourth] →
      GroupTexts quad [piece] [first * 256 + second, third * 256 + fourth]

/-- The eight groups of a text. At most one `::` stands for one or more groups that are 0. -/
inductive Ipv6Spells : Text → List Nat → Prop
  | whole {pieces : List Text} {groups : List Nat} : GroupTexts True pieces groups → groups.length = 8 →
      Ipv6Spells (List.intercalate [':'] pieces) groups
  | elided {leftPieces rightPieces : List Text} {left right : List Nat} : GroupTexts False leftPieces left →
      GroupTexts True rightPieces right → left.length + right.length < 8 →
      Ipv6Spells (List.intercalate [':'] leftPieces ++ ':' :: ':' :: List.intercalate [':'] rightPieces)
        (left ++ List.replicate (8 - right.length - left.length) 0 ++ right)

inductive AddressFamily where
  | ipv4 | ipv6
  deriving DecidableEq, Repr

/-- The address of a text. -/
inductive Denotes (text : Text) : AddressFamily → List Nat → Prop
  | ipv4 {bytes : List Nat} : DottedQuad text bytes → Denotes text .ipv4 bytes
  | ipv6 {groups : List Nat} :
      Ipv6Spells text groups → Denotes text .ipv6 (groups.flatMap fun group => [group / 256, group % 256])

theorem digitChar_sub {c : Char} (low : '0' ≤ c) (high : c ≤ '9') :
    c.toNat - 48 < 10 ∧ (c.toNat - 48).digitChar = c := by
  have lowNat : 48 ≤ c.toNat := low
  have highNat : c.toNat ≤ 57 := high
  obtain ⟨digit, value⟩ := Nat.exists_eq_add_of_le lowNat
  have small : digit < 10 := by omega
  have spelled : ∀ digit < 10, digit.digitChar = Char.ofNat (48 + digit) := by decide
  rw [value, Nat.add_sub_cancel_left]
  exact ⟨small, by rw [spelled digit small, ← value, Char.ofNat_toNat]⟩

/-- A run of digits that does not start with a zero, if it has more than one, is the text of its number. -/
theorem decimal_foldl {part : Text} (nonempty : part ≠ []) (digits : ∀ c ∈ part, '0' ≤ c ∧ c ≤ '9')
    (lead : ¬ (1 < part.length ∧ part.head? = some '0')) :
    decimal (part.foldl (fun number byte => number * 10 + (byte.toNat - 48)) 0) = part := by
  unfold decimal
  induction part using List.reverseRecOn with
  | nil => exact absurd rfl nonempty
  | append_singleton front last ih =>
    obtain ⟨small, back⟩ := digitChar_sub (digits last (by simp)).1 (digits last (by simp)).2
    rw [List.foldl_append, List.foldl_cons, List.foldl_nil]
    cases whole : front with
    | nil =>
      rw [List.foldl_nil, Nat.zero_mul, Nat.zero_add, Nat.toDigits_of_lt_base small, back, List.nil_append]
    | cons first rest =>
      rw [← whole]
      have filled : front ≠ [] := by simp [whole]
      have head : front.head? ≠ some '0' := by
        intro zero
        refine lead ⟨by simp [whole], ?_⟩
        rw [List.head?_append, zero]
        rfl
      have front_eq := ih filled (fun c member => digits c (by simp [member])) fun both => head both.2
      have positive : 0 < front.foldl (fun number byte => number * 10 + (byte.toNat - 48)) 0 := by
        refine Nat.pos_of_ne_zero fun zero => head ?_
        rw [zero] at front_eq
        rw [← front_eq, Nat.toDigits_zero]
        rfl
      have split := Nat.toDigits_append_toDigits (b := 10) (by decide) positive small
      rw [front_eq, Nat.toDigits_of_lt_base small, back] at split
      rw [Nat.mul_comm, ← split]

theorem parseOctet_eq_some_iff {part : Text} {byte : Nat} :
    parseOctet part = some byte ↔ byte ≤ 255 ∧ part = decimal byte := by
  constructor
  · intro parsed
    refine ⟨parseOctet_le parsed, ?_⟩
    unfold parseOctet at parsed
    split at parsed
    · cases parsed
    rename_i sized
    split at parsed
    · cases parsed
    rename_i digits
    dsimp only at parsed
    split at parsed
    · cases parsed
    split at parsed
    · cases parsed
    rename_i lead
    cases parsed
    refine (decimal_foldl (fun empty => sized (.inl empty)) (fun c member => ?_) lead).symm
    simp only [List.any_eq_true, not_exists, not_and, Bool.or_eq_true, decide_eq_true_eq, not_or,
      Char.not_lt] at digits
    exact digits c member
  · rintro ⟨small, rfl⟩
    exact parseOctet_decimal byte small

theorem parts_eq {parts : List Text} {bytes : List Nat}
    (read : parts.map parseOctet = bytes.map some) : parts = bytes.map decimal := by
  induction parts generalizing bytes with
  | nil => cases bytes with
    | nil => rfl
    | cons => cases read
  | cons part parts ih =>
    cases bytes with
    | nil => cases read
    | cons byte bytes =>
      simp only [List.map_cons, List.cons.injEq] at read
      rw [parseOctet_eq_some_iff] at read
      rw [List.map_cons, ih read.2, read.1.2]

theorem parseIpv4_eq_some_iff {text : Text} {bytes : List Nat} :
    parseIpv4 text = some bytes ↔ DottedQuad text bytes := by
  constructor
  · intro parsed
    obtain ⟨-, parts⟩ := parseIpv4_parts parsed
    refine ⟨parseIpv4_octets parsed, ?_⟩
    rw [← parts_eq parts]
    exact (List.intercalate_splitOn '.').symm
  · rintro ⟨octets, rfl⟩
    exact parseIpv4_ipv4Text octets

theorem parseHex_eq_some_iff {piece : Text} {start group : Nat} : parseHex piece start = some group ↔
    ∃ digits : List Nat, piece.map hexValue = digits.map some ∧ group =
      digits.foldl (fun value digit => value * 16 + digit) start := by
  induction piece generalizing start with
  | nil =>
    constructor
    · rintro ⟨⟩
      exact ⟨[], rfl, rfl⟩
    · rintro ⟨digits, same, rfl⟩
      cases digits with
      | nil => rfl
      | cons => cases same
  | cons char rest ih =>
    rw [parseHex]
    constructor
    · intro read
      obtain ⟨digit, isDigit, read⟩ := Option.bind_eq_some_iff.mp read
      obtain ⟨digits, same, rfl⟩ := ih.mp read
      exact ⟨digit :: digits, by simp [isDigit, same], rfl⟩
    · rintro ⟨digits, same, rfl⟩
      cases digits with
      | nil => cases same
      | cons digit digits =>
        simp only [List.map_cons, List.cons.injEq] at same
        exact Option.bind_eq_some_iff.mpr ⟨digit, same.1, ih.mpr ⟨digits, same.2, rfl⟩⟩

theorem parseIpv6Piece_eq_some_iff {piece : Text} {group : Nat} :
    parseIpv6Piece piece = some group ↔ HexGroup piece group := by
  unfold parseIpv6Piece HexGroup
  split
  · rename_i bad
    simp only [reduceCtorEq, false_iff]
    rintro ⟨nonempty, short, -⟩
    rcases bad with empty | long
    · exact nonempty empty
    · omega
  · rename_i sized
    rw [parseHex_eq_some_iff]
    simp only [not_or, not_lt] at sized
    simp [sized]

theorem HexGroup.plain {piece : Text} {group : Nat} (hex : HexGroup piece group) :
    ∀ c ∈ piece, c ≠ '.' ∧ c ≠ ':' ∧ c ≠ '%' := by
  obtain ⟨-, -, digits, same, -⟩ := hex
  intro c member
  have image : hexValue c ∈ digits.map some := same ▸ List.mem_map_of_mem member
  obtain ⟨digit, -, isDigit⟩ := List.mem_map.mp image
  refine ⟨?_, ?_, ?_⟩ <;> rintro rfl <;> cases isDigit

theorem hexValue_lt {c : Char} {digit : Nat} (read : hexValue c = some digit) : digit < 16 := by
  unfold hexValue at read
  split at read
  · rename_i range
    have high : c.toNat ≤ 57 := range.2
    cases read
    omega
  split at read
  · rename_i range
    have high : c.toNat ≤ 102 := range.2
    cases read
    omega
  split at read
  · rename_i range
    have high : c.toNat ≤ 70 := range.2
    cases read
    omega
  · cases read

theorem foldl_hex_lt {digits : List Nat} (small : ∀ digit ∈ digits, digit < 16) (start : Nat) :
    digits.foldl (fun value digit => value * 16 + digit) start < (start + 1) * 16 ^ digits.length := by
  induction digits generalizing start with
  | nil => simp
  | cons digit digits ih =>
    have bound := small digit (by simp)
    calc digits.foldl (fun value digit => value * 16 + digit) (start * 16 + digit)
        < (start * 16 + digit + 1) * 16 ^ digits.length := ih (fun digit member =>
          small digit (by simp [member])) _
      _ ≤ ((start + 1) * 16) * 16 ^ digits.length := Nat.mul_le_mul_right _ (by omega)
      _ = (start + 1) * 16 ^ (digits.length + 1) := by rw [Nat.pow_succ, Nat.mul_assoc, Nat.mul_comm 16]

theorem HexGroup.small {piece : Text} {group : Nat} (hex : HexGroup piece group) : group < 65536 := by
  obtain ⟨-, short, digits, same, rfl⟩ := hex
  have lengths := congrArg List.length same
  rw [List.length_map, List.length_map] at lengths
  have bound : ∀ digit ∈ digits, digit < 16 := by
    intro digit member
    have image : some digit ∈ piece.map hexValue := same ▸ List.mem_map_of_mem member
    obtain ⟨c, -, read⟩ := List.mem_map.mp image
    exact hexValue_lt read
  calc digits.foldl (fun value digit => value * 16 + digit) 0 <
    (0 + 1) * 16 ^ digits.length := foldl_hex_lt bound 0
    _ ≤ (0 + 1) * 16 ^ 4 := Nat.mul_le_mul_left _ (Nat.pow_le_pow_right (by decide) (by omega))

theorem DottedQuad.dotted {text : Text} {bytes : List Nat} (quad : DottedQuad text bytes) :
    '.' ∈ text ∧ ':' ∉ text ∧ '%' ∉ text := by
  have parsed : parseIpv4 text = some bytes := by rwa [parseIpv4_eq_some_iff]
  obtain ⟨dot, colon⟩ := parseIpv4_chars parsed
  refine ⟨dot, colon, fun percent => ?_⟩
  rw [quad.2] at percent
  rcases mem_intercalate percent with same | ⟨piece, listed, member⟩
  · cases same
  · obtain ⟨byte, -, rfl⟩ := List.mem_map.mp listed
    obtain ⟨digit, small, same⟩ := decimal_isDigit member
    revert digit
    decide

theorem sideGroups_eq_some_iff {quad : Bool} {pieces : List Text} {groups : List Nat} :
    sideGroups quad pieces = some groups ↔ GroupTexts (quad = true) pieces groups := by
  induction pieces generalizing groups with
  | nil =>
    constructor
    · rintro ⟨⟩
      exact .nil
    · rintro ⟨⟩
      rfl
  | cons piece rest ih =>
    constructor
    · intro read
      rw [sideGroups] at read
      split at read
      · split at read
        · cases read
        · rename_i allowed
          simp only [Bool.not_eq_eq_eq_not, Bool.not_true, not_or, ne_eq, not_not,
            Bool.not_eq_false] at allowed
          obtain ⟨allowed, rfl⟩ := allowed
          split at read
          · rename_i parsed
            cases read
            rw [parseIpv4_eq_some_iff] at parsed
            exact .quad allowed parsed
          · cases read
      · obtain ⟨group, isGroup, read⟩ := Option.bind_eq_some_iff.mp read
        obtain ⟨later, isLater, same⟩ := Option.bind_eq_some_iff.mp read
        cases same
        rw [parseIpv6Piece_eq_some_iff] at isGroup
        exact .group isGroup (ih.mp isLater)
    · intro texts
      cases texts with
      | group hex later =>
        have plain : '.' ∉ piece := fun member => (hex.plain '.' member).1 rfl
        rw [← parseIpv6Piece_eq_some_iff] at hex
        rw [sideGroups, if_neg plain, hex, ih.mpr later]
        rfl
      | quad allowed quad =>
        have dot := quad.dotted.1
        rw [← parseIpv4_eq_some_iff] at quad
        rw [sideGroups, if_pos dot, if_neg (by simp [allowed]), quad]

theorem GroupTexts.plain {quad : Prop} {pieces : List Text} {groups : List Nat}
    (texts : GroupTexts quad pieces groups) :
    ∀ piece ∈ pieces, piece ≠ [] ∧ ':' ∉ piece ∧ '%' ∉ piece := by
  induction texts with
  | nil => simp
  | group hex _ ih =>
    rw [List.forall_mem_cons]
    exact ⟨⟨hex.1, fun member => (hex.plain _ member).2.1 rfl, fun member =>
      (hex.plain _ member).2.2 rfl⟩, ih⟩
  | quad _ quad =>
    rw [List.forall_mem_singleton]
    exact ⟨List.ne_nil_of_mem quad.dotted.1, quad.dotted.2⟩

theorem joined_ne_nil {quad : Prop} {pieces : List Text} {groups : List Nat}
    (texts : GroupTexts quad pieces groups)
    (some : pieces ≠ []) : List.intercalate [':'] pieces ≠ [] := by
  cases pieces with
  | nil => exact absurd rfl some
  | cons first rest =>
    have filled := (texts.plain first (by simp)).1
    cases rest <;> simp [filled]

theorem ipv6SideGroups_eq_some_iff {quad : Bool} {side : Text} {groups : List Nat} :
    ipv6SideGroups side quad = some groups ↔
    ∃ pieces, GroupTexts (quad = true) pieces groups ∧ side = List.intercalate [':'] pieces := by
  unfold ipv6SideGroups
  constructor
  · intro read
    split at read
    · rename_i empty
      cases read
      exact ⟨[], .nil, empty⟩
    · rw [sideGroups_eq_some_iff] at read
      exact ⟨side.splitOn ':', read, (List.intercalate_splitOn ':').symm⟩
  · rintro ⟨pieces, texts, rfl⟩
    cases none : pieces with
    | nil =>
      subst none
      cases texts
      rfl
    | cons first rest =>
      rw [← none]
      rw [if_neg (joined_ne_nil texts (by simp [none])), List.splitOn_intercalate ':'
        (fun piece member => (texts.plain piece member).2.1) (by simp [none])]
      rwa [sideGroups_eq_some_iff]

theorem GroupTexts.small {quad : Prop} {pieces : List Text} {groups : List Nat}
    (texts : GroupTexts quad pieces groups) :
    ∀ group ∈ groups, group < 65536 := by
  induction texts with
  | nil => simp
  | group hex _ ih =>
    rw [List.forall_mem_cons]
    exact ⟨hex.small, ih⟩
  | @quad piece first second third fourth _ quad =>
    have bound := quad.1.2
    simp only [List.forall_mem_cons] at bound ⊢
    exact ⟨by omega, by omega, nofun⟩

theorem joined_plain {quad : Prop} {pieces : List Text} {groups : List Nat}
    (texts : GroupTexts quad pieces groups) :
    '%' ∉ List.intercalate [':'] pieces := by
  intro member
  rcases mem_intercalate member with same | ⟨piece, listed, member⟩
  · cases same
  · exact (texts.plain piece listed).2.2 member

theorem ipv6Groups_eq_some_iff {text : Text} {groups : List Nat} :
    ipv6Groups text = some groups ↔ Ipv6Spells text groups := by
  constructor
  · intro read
    have joined := @intercalate_splitPair Char _ ':' ':' text
    unfold ipv6Groups at read
    split at read
    · rename_i side single
      obtain ⟨found, isFound, read⟩ := Option.bind_eq_some_iff.mp read
      split at read
      · cases read
      rename_i eight
      cases read
      rw [ipv6SideGroups_eq_some_iff] at isFound
      obtain ⟨pieces, texts, rfl⟩ := isFound
      rw [single, List.intercalate_singleton] at joined
      exact joined ▸ .whole (by simpa using texts) (not_not.mp eight)
    · rename_i leftText rightText pair
      obtain ⟨left, isLeft, read⟩ := Option.bind_eq_some_iff.mp read
      obtain ⟨right, isRight, read⟩ := Option.bind_eq_some_iff.mp read
      split at read
      · cases read
      rename_i room
      cases read
      rw [ipv6SideGroups_eq_some_iff] at isLeft isRight
      obtain ⟨leftPieces, leftTexts, rfl⟩ := isLeft
      obtain ⟨rightPieces, rightTexts, rfl⟩ := isRight
      rw [pair, List.intercalate_cons_cons, List.intercalate_singleton, List.append_assoc] at joined
      exact joined ▸ .elided (by simpa using leftTexts) (by simpa using rightTexts) (by omega)
    · cases read
  · intro spells
    cases spells with
    | @whole pieces _ texts eight =>
      have single := splitPair_intercalate fun piece member =>
        ⟨(texts.plain piece member).1, (texts.plain piece member).2.1⟩
      have found : ipv6SideGroups (List.intercalate [':'] pieces) true = some groups := by
        rw [ipv6SideGroups_eq_some_iff]
        exact ⟨pieces, by simpa using texts, rfl⟩
      rw [ipv6Groups, single]
      simp [found, eight]
    | @elided leftPieces rightPieces left right leftTexts rightTexts room =>
      have pair := splitPair_joined
        (fun piece member => ⟨(leftTexts.plain piece member).1, (leftTexts.plain piece member).2.1⟩)
        (List.intercalate [':'] rightPieces)
      rw [splitPair_intercalate fun piece member =>
        ⟨(rightTexts.plain piece member).1, (rightTexts.plain piece member).2.1⟩] at pair
      have isLeft : ipv6SideGroups (List.intercalate [':'] leftPieces) false = some left := by
        rw [ipv6SideGroups_eq_some_iff]
        exact ⟨leftPieces, by simpa using leftTexts, rfl⟩
      have isRight : ipv6SideGroups (List.intercalate [':'] rightPieces) true = some right := by
        rw [ipv6SideGroups_eq_some_iff]
        exact ⟨rightPieces, by simpa using rightTexts, rfl⟩
      rw [ipv6Groups, pair]
      simp [isLeft, isRight, room]

theorem Ipv6Spells.small {text : Text} {groups : List Nat} (spells : Ipv6Spells text groups) :
    text ≠ [] ∧ '%' ∉ text ∧ groups.length = 8 ∧ ∀ group ∈ groups, group < 65536 := by
  cases spells with
  | @whole pieces _ texts eight =>
    refine ⟨joined_ne_nil texts fun none => ?_, joined_plain texts, eight, texts.small⟩
    subst none
    cases texts
    cases eight
  | elided leftTexts rightTexts room =>
    refine ⟨by simp, ?_, ?_, ?_⟩
    · simp [joined_plain leftTexts, joined_plain rightTexts]
    · simp
      omega
    · intro group member
      simp only [List.mem_append, List.mem_replicate] at member
      rcases member with (member | ⟨-, rfl⟩) | member
      · exact leftTexts.small group member
      · decide
      · exact rightTexts.small group member

theorem groupBytes_eq {groups : List Nat} (small : ∀ group ∈ groups, group < 65536) :
    (groups.flatMap fun group => [(group >>> 8) &&& 255, group &&& 255]) = groups.flatMap fun group =>
    [group / 256, group % 256] := by
  refine List.flatMap_congr fun group member => ?_
  have bound := small group member
  have high : (group >>> 8) &&& 255 = group / 256 := by
    rw [and_255, Nat.shiftRight_eq_div_pow]
    omega
  rw [high, and_255]

theorem parseIpv6_eq_some_iff {text : Text} {bytes : List Nat} :
    parseIpv6 text = some bytes ↔ Denotes text .ipv6 bytes := by
  constructor
  · intro parsed
    unfold parseIpv6 at parsed
    split at parsed
    · cases parsed
    obtain ⟨groups, found, parsed⟩ := Option.bind_eq_some_iff.mp parsed
    split at parsed
    · cases parsed
    cases parsed
    rw [ipv6Groups_eq_some_iff] at found
    rw [groupBytes_eq found.small.2.2.2]
    exact .ipv6 found
  · intro denotes
    cases denotes with
    | ipv6 spells =>
      obtain ⟨nonempty, percent, eight, small⟩ := spells.small
      rw [← ipv6Groups_eq_some_iff] at spells
      rw [parseIpv6, if_neg (by simp [nonempty, percent]), spells, ← groupBytes_eq small]
      simp [eight]

/-- The text that stands for an address. -/
def canonicalText : AddressFamily → List Nat → Text
  | .ipv4, bytes => ipv4Text bytes
  | .ipv6, bytes => ipv6Text bytes

theorem denotes_ipv4_iff {text : Text} {bytes : List Nat} :
    parseIpv4 text = some bytes ↔ Denotes text .ipv4 bytes := by
  rw [parseIpv4_eq_some_iff]
  constructor
  · exact .ipv4
  · rintro ⟨⟩
    assumption

theorem normalize_eq_some_iff {text address : Text} : normalizeNumericAddress text = some address ↔
    ∃ family bytes, Denotes (strip text) family bytes ∧ address = canonicalText family bytes := by
  have every (parsed : Option (List Nat)) : (parsed.filter fun _ => true) = parsed := by
    cases parsed <;> rfl
  unfold normalizeNumericAddress
  simp only [true_or, decide_true, every]
  constructor
  · intro normalized
    split at normalized
    · rename_i bytes parsed
      cases normalized
      rw [denotes_ipv4_iff] at parsed
      exact ⟨.ipv4, bytes, parsed, rfl⟩
    · obtain ⟨bytes, parsed, rfl⟩ := Option.map_eq_some_iff.mp normalized
      rw [parseIpv6_eq_some_iff] at parsed
      exact ⟨.ipv6, bytes, parsed, rfl⟩
  · rintro ⟨family, bytes, denotes, rfl⟩
    cases family with
    | ipv4 =>
      rw [← denotes_ipv4_iff] at denotes
      rw [denotes]
      rfl
    | ipv6 =>
      rw [← parseIpv6_eq_some_iff] at denotes
      cases other : parseIpv4 (strip text) with
      | none =>
        rw [denotes]
        rfl
      | some => exact absurd denotes (by simp [parseIpv6_of_parseIpv4 other])

theorem Denotes.unique {text : Text} {family family' : AddressFamily} {bytes bytes' : List Nat}
    (denotes : Denotes text family bytes)
    (other : Denotes text family' bytes') : family' = family ∧ bytes' = bytes := by
  have apart {quad groups : List Nat} (isQuad : Denotes text .ipv4 quad)
      (isIpv6 : Denotes text .ipv6 groups) : False := by
    rw [← denotes_ipv4_iff] at isQuad
    rw [← parseIpv6_eq_some_iff, parseIpv6_of_parseIpv4 isQuad] at isIpv6
    cases isIpv6
  cases family with
  | ipv4 =>
    cases family' with
    | ipv4 =>
      rw [← denotes_ipv4_iff] at denotes other
      exact ⟨rfl, Option.some.inj (other.symm.trans denotes)⟩
    | ipv6 => exact (apart denotes other).elim
  | ipv6 =>
    cases family' with
    | ipv4 => exact (apart other denotes).elim
    | ipv6 =>
      rw [← parseIpv6_eq_some_iff] at denotes other
      exact ⟨rfl, Option.some.inj (other.symm.trans denotes)⟩

theorem strip_plain {text : Text} (plain : ∀ c ∈ text, isSpace c = false) : strip text = text := by
  have trimmed : Trimmed isSpace text :=
    ⟨fun c member => plain c (List.mem_of_mem_head? member), fun c member =>
      plain c (List.mem_of_getLast? member)⟩
  have kept := @stripBy_append isSpace [] text [] nofun nofun trimmed
  rwa [List.nil_append, List.append_nil] at kept

theorem canonicalText_plain (family : AddressFamily) (bytes : List Nat) :
    ∀ c ∈ canonicalText family bytes, isSpace c = false := by
  have digits {base : Nat} (valid : 1 < base) (small : base ≤ 16) {n : Nat} {c : Char}
      (member : c ∈ Nat.toDigits base n) : isSpace c = false := by
    have all : ∀ digit < 16, isSpace digit.digitChar = false := by decide
    obtain ⟨digit, bound, rfl⟩ := mem_toDigits valid member
    exact all digit (by omega)
  intro c member
  cases family with
  | ipv4 =>
    rcases mem_intercalate member with rfl | ⟨piece, listed, member⟩
    · decide
    · obtain ⟨byte, -, rfl⟩ := List.mem_map.mp listed
      exact digits (by decide) (by decide) member
  | ipv6 =>
    rcases mem_intercalate member with rfl | ⟨piece, listed, member⟩
    · decide
    · obtain ⟨group, -, rfl⟩ := List.mem_map.mp listed
      exact digits (by decide) (by decide) member

theorem Denotes.canonical {text : Text} {family : AddressFamily} {bytes : List Nat}
    (denotes : Denotes text family bytes) :
    Denotes (strip (canonicalText family bytes)) family bytes := by
  rw [strip_plain (canonicalText_plain family bytes)]
  cases family with
  | ipv4 =>
    rw [← denotes_ipv4_iff] at denotes ⊢
    exact parseIpv4_ipv4Text (parseIpv4_octets denotes)
  | ipv6 =>
    rw [← parseIpv6_eq_some_iff] at denotes ⊢
    exact parseIpv6_ipv6Text (parseIpv6_octets denotes)

theorem normalize_canonical {text address : Text} {family : AddressFamily} {bytes : List Nat}
    (normalized : normalizeNumericAddress text = some address)
    (denotes : Denotes (strip text) family bytes) :
    address = canonicalText family bytes := by
  rw [normalize_eq_some_iff] at normalized
  obtain ⟨family', bytes', found, rfl⟩ := normalized
  obtain ⟨rfl, rfl⟩ := denotes.unique found
  rfl

/-- The IPv6 address that has an IPv4 address in it. -/
def mappedBytes (quad : List Nat) : List Nat := List.replicate 10 0 ++ [255, 255] ++ quad

theorem bytesClass_mapped {quad : List Nat} (octets : Octets 4 quad) :
    bytesClass (mappedBytes quad) = bytesClass quad := by
  have long : (mappedBytes quad).length = 16 := by simp [mappedBytes, octets.1]
  have mapped : isMapped (mappedBytes quad) = true := rfl
  rw [bytesClass, if_neg (by omega), if_pos mapped, bytesClass, if_pos octets.1]
  rfl

theorem normalize_class {text address : Text} {family : AddressFamily} {bytes : List Nat}
    (normalized : normalizeNumericAddress text = some address)
    (denotes : Denotes (strip text) family bytes) :
    addressClass address = bytesClass bytes := by
  obtain ⟨bytes', found, -, isClass⟩ := normalize_bytes normalized
  have same : addressBytes (strip text) = some bytes := by
    cases family with
    | ipv4 =>
      rw [← denotes_ipv4_iff] at denotes
      rw [addressBytes, denotes, Option.some_or]
    | ipv6 =>
      rw [← parseIpv6_eq_some_iff] at denotes
      cases quad : parseIpv4 (strip text) with
      | none => rw [addressBytes, quad, denotes, Option.none_or]
      | some => exact absurd denotes (by simp [parseIpv6_of_parseIpv4 quad])
  rw [isClass, Option.some.inj (found.symm.trans same)]

theorem normalize_injective {text other address : Text}
    (normalized : normalizeNumericAddress text = some address)
    (normalized' : normalizeNumericAddress other = some address) :
    ∃ family bytes, Denotes (strip text) family bytes ∧ Denotes (strip other) family bytes := by
  rw [normalize_eq_some_iff] at normalized normalized'
  obtain ⟨family, bytes, denotes, rfl⟩ := normalized
  obtain ⟨family', bytes', denotes', same⟩ := normalized'
  have back := denotes.canonical
  rw [same] at back
  obtain ⟨rfl, rfl⟩ := back.unique denotes'.canonical
  exact ⟨_, _, denotes, denotes'⟩

/-- An address text has one canonical form: which texts are addresses, that the form is its own,
that it is one for each family and bytes, and that the class of an address is one of its bytes,
which for a mapped address are those of the IPv4 address in it. Both texts are any. The notation of
addresses is stated on its own, and nothing of it refers to the parser. -/
theorem numeric_canonicalisation (text other : Text) :
    ((normalizeNumericAddress text).isSome ↔ ∃ family bytes, Denotes (strip text) family bytes) ∧
      (∀ address, normalizeNumericAddress text = some address →
        normalizeNumericAddress address = some address) ∧
      (∀ address address', normalizeNumericAddress text = some address →
        normalizeNumericAddress other = some address' →
        (address = address' ↔ ∃ family bytes, Denotes (strip text) family bytes ∧
          Denotes (strip other) family bytes)) ∧
      (∀ address family bytes, normalizeNumericAddress text = some address →
        Denotes (strip text) family bytes → addressClass address = bytesClass bytes ∧
          ∀ quad, Octets 4 quad → bytes = mappedBytes quad →
            addressClass address = addressClass (ipv4Text quad)) := by
  refine ⟨?_, ?_, ?_, ?_⟩
  · rw [Option.isSome_iff_exists]
    constructor
    · rintro ⟨address, normalized⟩
      obtain ⟨family, bytes, denotes, -⟩ := normalize_eq_some_iff.mp normalized
      exact ⟨family, bytes, denotes⟩
    · rintro ⟨family, bytes, denotes⟩
      exact ⟨canonicalText family bytes, normalize_eq_some_iff.mpr ⟨family, bytes, denotes, rfl⟩⟩
  · intro address normalized
    obtain ⟨family, bytes, denotes, rfl⟩ := normalize_eq_some_iff.mp normalized
    exact normalize_eq_some_iff.mpr ⟨family, bytes, denotes.canonical, rfl⟩
  · intro address address' normalized normalized'
    constructor
    · rintro rfl
      exact normalize_injective normalized normalized'
    · rintro ⟨family, bytes, denotes, denotes'⟩
      rw [normalize_canonical normalized denotes, normalize_canonical normalized' denotes']
  · intro address family bytes normalized denotes
    have isClass := normalize_class normalized denotes
    refine ⟨isClass, ?_⟩
    rintro quad octets rfl
    rw [isClass, bytesClass_mapped octets, addressClass, parseIpv4_ipv4Text octets, bytesClass,
      if_pos octets.1]

end Dns
end PccGateway
