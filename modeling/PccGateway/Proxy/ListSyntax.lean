import Mathlib.Algebra.Order.BigOperators.Group.List
import Mathlib.Algebra.Order.Group.Nat
import PccGateway.Http1.Framing
import PccGateway.Proxy.UpstreamStep

namespace PccGateway
open Search

/-- The elements between the commas of every field called `name`, as they stand. -/
def listItems (headers : List Header) (name : String) : List Text :=
  (fieldValues headers name).flatMap (·.splitOn ',')

/-- A comma list read strictly: only SP and HTAB belong to the separators. Elements that are empty
then count for nothing, as in the source. -/
def strictTokens (headers : List Header) (name : String) : List Text :=
  ((listItems headers name).map fun item => lower (stripOws item)).filter (· ≠ [])

/-- What a strict reading of the framing lists allows a codec to conclude. -/
structure StrictLists (headers : List Header) (chunked : Bool) : Prop where
  coding : chunked = true → strictTokens headers "transfer-encoding" = ["chunked".toList]
  connection : ∀ token ∈ ["close".toList, "keep-alive".toList],
    token ∈ fieldTokens headers "connection" → token ∈ strictTokens headers "connection"

/-- NEL and NBSP: white space for `str.strip()`, ordinary bytes of a field value for HTTP. -/
def isForeignSpace (c : Char) : Bool := c.toNat == 0x85 || c.toNat == 0xA0

/-- Behind its SP and HTAB, the element starts or ends with a foreign space. -/
def Padded (item : Text) : Prop :=
  (∃ c ∈ (stripOws item).head?, isForeignSpace c = true) ∨ ∃ c ∈ (stripOws item).getLast?,
    isForeignSpace c = true

/-- No list is read differently because of a foreign space. -/
structure PlainLists (headers : List Header) : Prop where
  coding : fieldTokens headers "transfer-encoding" = ["chunked".toList] →
    ∀ item ∈ listItems headers "transfer-encoding", ¬ Padded item
  connection : ∀ token ∈ ["close".toList, "keep-alive".toList],
    (∃ item ∈ listItems headers "connection", Padded item ∧ lower (strip item) = token) →
      ∃ item ∈ listItems headers "connection", ¬ Padded item ∧ lower (strip item) = token

/-- A character that a parsed field value can hold. -/
def ValueChar (c : Char) : Prop := isSpace c = true → isOws c = true ∨ isForeignSpace c = true

theorem fieldTokens_eq (headers : List Header) (name : String) :
    fieldTokens headers name =
      ((listItems headers name).map fun item => lower (strip item)).filter (· ≠ []) := by
  simp only [fieldTokens, listItems, List.map_flatMap, List.filter_flatMap]
  rfl

theorem isSpace_of_isOws {c : Char} (ows : isOws c = true) : isSpace c = true := by
  simp only [isOws, Bool.or_eq_true, beq_iff_eq] at ows
  rcases ows with rfl | rfl <;> decide

theorem isSpace_of_isForeignSpace {c : Char} (foreign : isForeignSpace c = true) : isSpace c = true := by
  simp only [isForeignSpace, Bool.or_eq_true, beq_iff_eq] at foreign
  rcases foreign with same | same <;> simp [isSpace, same]

/-- `strip()` does what `strip(" \t")` does, and then perhaps more. -/
theorem strip_stripOws (item : Text) : strip (stripOws item) = strip item := by
  obtain ⟨before, after, split, before_ows, after_ows⟩ := stripBy_decompose isOws item
  obtain ⟨before', after', split', before_space, after_space⟩ := stripBy_decompose isSpace (stripOws item)
  have whole : item = (before ++ before') ++ strip (stripOws item) ++ (after' ++ after) := by
    conv_lhs => rw [split]
    change before ++ stripOws item ++ after = _
    conv_lhs => rw [split']
    simp [strip]
  conv_rhs => rw [whole, strip]
  refine (stripBy_append ?_ ?_ (stripBy_trimmed isSpace _)).symm
  · intro c member
    rcases List.mem_append.mp member with ows | space
    · exact isSpace_of_isOws (before_ows c ows)
    · exact before_space c space
  · intro c member
    rcases List.mem_append.mp member with space | ows
    · exact after_space c space
    · exact isSpace_of_isOws (after_ows c ows)

theorem length_strip_le (item : Text) : (strip item).length ≤ (stripOws item).length := by
  rw [← strip_stripOws]
  obtain ⟨before, after, split, _, _⟩ := stripBy_decompose isSpace (stripOws item)
  have := congrArg List.length split
  simp only [List.length_append] at this
  unfold strip
  omega

/-- The two ways to trim an element agree exactly when it is not padded. -/
theorem strip_eq_stripOws_iff {item : Text} (admitted : ∀ c ∈ item, ValueChar c) :
    strip item = stripOws item ↔ ¬ Padded item := by
  have kept : ∀ c ∈ stripOws item, ValueChar c := by
    intro c member
    obtain ⟨before, after, split, _, _⟩ := stripBy_decompose isOws item
    refine admitted c ?_
    rw [split]
    simp [stripOws] at member ⊢
    tauto
  have trimmed := stripBy_trimmed isOws item
  constructor
  · rintro same (⟨c, first, foreign⟩ | ⟨c, last, foreign⟩)
    · rw [← same] at first
      have := (stripBy_trimmed isSpace item).1 c first
      simp [isSpace_of_isForeignSpace foreign] at this
    · rw [← same] at last
      have := (stripBy_trimmed isSpace item).2 c last
      simp [isSpace_of_isForeignSpace foreign] at this
  · intro plain
    have ends {c : Char} (member : c ∈ stripOws item) (ows : isOws c = false)
        (noForeign : isForeignSpace c = false) :
        isSpace c = false := by
      by_contra space
      rcases kept c member (by simpa using space) with other | other <;> simp_all
    rw [← strip_stripOws]
    have bare : Trimmed isSpace (stripOws item) := by
      refine ⟨fun c first => ?_, fun c last => ?_⟩
      · refine ends (List.mem_of_mem_head? first) (trimmed.1 c first) ?_
        by_contra foreign
        exact plain (.inl ⟨c, first, by simpa using foreign⟩)
      · refine ends (List.mem_of_mem_getLast? last) (trimmed.2 c last) ?_
        by_contra foreign
        exact plain (.inr ⟨c, last, by simpa using foreign⟩)
    exact (congrArg (stripBy isSpace) (List.append_nil _).symm).trans
      (@stripBy_append isSpace [] (stripOws item) [] (by simp) (by simp) bare)

theorem valueChar_byteChar {b : UInt8} (clean : isBadValueByte b = false) : ValueChar (byteChar b) := by
  intro space
  have small := b.toNat_lt
  simp only [isSpace, toNat_byteChar, Bool.or_eq_true, Bool.and_eq_true, decide_eq_true_eq,
    beq_iff_eq] at space
  have bytes : b = 9 ∨ b = 32 ∨ b.toNat = 0x85 ∨ b.toNat = 0xA0 := by
    simp only [isBadValueByte, Bool.or_eq_false_iff, beq_eq_false_iff_ne, Bool.and_eq_false_iff,
      bne_eq_false_iff_eq,
      decide_eq_false_iff_not, ne_eq, ← UInt8.toNat_inj, UInt8.lt_iff_toNat_lt] at clean ⊢
    simp at clean ⊢
    omega
  rcases bytes with rfl | rfl | same | same
  · exact .inl (by decide)
  · exact .inl (by decide)
  · exact .inr (by simp [isForeignSpace, toNat_byteChar, same])
  · exact .inr (by simp [isForeignSpace, toNat_byteChar, same])

theorem listItems_admitted {headers : List Header} (parsed : ∀ header ∈ headers, ParsedField header)
    (name : String) :
    ∀ item ∈ listItems headers name, ∀ c ∈ item, ValueChar c := by
  intro item listed c member
  simp only [listItems, fieldValues, List.mem_flatMap, List.mem_map, List.mem_filter] at listed
  obtain ⟨value, ⟨header, ⟨present, _⟩, rfl⟩, piece⟩ := listed
  obtain ⟨nameBytes, valueBytes, _, clean, rfl⟩ := parsed header present
  have inValue : c ∈ stripOws (latin1Text valueBytes) := mem_of_mem_splitOn piece member
  obtain ⟨before, after, split, _, _⟩ := stripBy_decompose isOws (latin1Text valueBytes)
  have inBytes : c ∈ latin1Text valueBytes := by
    rw [split]
    simp [stripOws] at inValue ⊢
    tauto
  obtain ⟨b, byte, rfl⟩ := List.mem_map.mp inBytes
  refine valueChar_byteChar ?_
  simp only [containsBadValueByte, List.any_eq_false] at clean
  simpa using clean b byte

theorem length_lower (text : Text) : (lower text).length = text.length := by simp [lower]

/-- `strip()` takes at least what `strip(" \t")` takes, so the lists are equal only if it takes no
more from any element. -/
theorem tokens_eq_iff (items : List Text) :
    (items.map fun item => lower (strip item)).filter (· ≠ []) =
        (items.map fun item => lower (stripOws item)).filter (· ≠ []) ↔
      ∀ item ∈ items, strip item = stripOws item := by
  have total (trim : Text → Text) :
      ((items.map fun item => lower (trim item)).filter (· ≠ [])).flatten.length =
        (items.map fun item => (trim item).length).sum := by
    induction items with
    | nil => rfl
    | cons item items ih =>
      by_cases empty : lower (trim item) = []
      · have zero : (trim item).length = 0 := by rw [← length_lower, empty]; rfl
        simpa [empty, zero] using ih
      · simp only [List.map_cons, List.sum_cons, ← ih, ne_eq, empty, not_false_eq_true, decide_true,
          List.filter_cons_of_pos, List.flatten_cons, List.length_append, length_lower]
  constructor
  · intro same
    have sums := congrArg (fun tokens => tokens.flatten.length) same
    simp only [total] at sums
    have each : ∀ item ∈ items, (strip item).length = (stripOws item).length := by
      by_contra other
      push Not at other
      obtain ⟨item, member, different⟩ := other
      have less := List.sum_lt_sum (l := items) (fun item => (strip item).length) (fun item =>
        (stripOws item).length)
        (fun item _ => length_strip_le item) ⟨item, member, lt_of_le_of_ne (length_strip_le item) different⟩
      omega
    intro item member
    obtain ⟨before, after, split, _, _⟩ := stripBy_decompose isSpace (stripOws item)
    have length := congrArg List.length split
    have stripped : stripBy isSpace (stripOws item) = strip item := strip_stripOws item
    rw [stripped] at split length
    simp only [List.length_append, each item member] at length
    have none : before = [] ∧ after = [] := 
      ⟨List.eq_nil_of_length_eq_zero (by omega), List.eq_nil_of_length_eq_zero (by omega)⟩
    simpa [none] using split.symm
  · intro same
    rw [List.map_congr_left fun item member => congrArg lower (same item member)]

theorem mem_fieldTokens {headers : List Header} {name : String} {token : Text} (nonempty : token ≠ []) :
    token ∈ fieldTokens headers name ↔ ∃ item ∈ listItems headers name, lower (strip item) = token := by
  simp only [fieldTokens_eq, List.mem_filter, List.mem_map, ne_eq, decide_eq_true_eq, and_iff_left_iff_imp]
  rintro - rfl
  exact nonempty rfl

theorem mem_strictTokens {headers : List Header} {name : String} {token : Text} (nonempty : token ≠ []) :
    token ∈ strictTokens headers name ↔ ∃ item ∈ listItems headers name, lower (stripOws item) = token := by
  simp only [strictTokens, List.mem_filter, List.mem_map, ne_eq, decide_eq_true_eq, and_iff_left_iff_imp]
  rintro - rfl
  exact nonempty rfl

/-- A token without foreign spaces is not the text of a padded element. -/
theorem not_padded_of_token {item token : Text} (plain : ∀ c ∈ token, isForeignSpace c = false)
    (same : lower (stripOws item) = token) : ¬ Padded item := by
  have absent {c : Char} (member : c ∈ stripOws item) : isForeignSpace c = false := by
    by_contra foreign
    have fixed : lowerChar c = c := by
      simp only [isForeignSpace, Bool.not_eq_false, Bool.or_eq_true, beq_iff_eq] at foreign
      unfold lowerChar
      simp only
      rw [if_neg (by omega)]
    have inToken : c ∈ token := by
      rw [← same, lower, List.mem_map]
      exact ⟨c, member, fixed⟩
    simp [plain c inToken] at foreign
  rintro (⟨c, first, foreign⟩ | ⟨c, last, foreign⟩)
  · simp [absent (List.mem_of_mem_head? first)] at foreign
  · simp [absent (List.mem_of_mem_getLast? last)] at foreign

theorem strictLists_iff {headers : List Header} {chunked : Bool}
    (parsed : ∀ header ∈ headers, ParsedField header)
    (coded : chunked = true ↔ fieldTokens headers "transfer-encoding" = ["chunked".toList]) :
    StrictLists headers chunked ↔ PlainLists headers := by
  have trims (name : String) {item : Text} (listed : item ∈ listItems headers name) :=
    strip_eq_stripOws_iff (listItems_admitted parsed name item listed)
  have coding : (chunked = true → strictTokens headers "transfer-encoding" = ["chunked".toList]) ↔
      (fieldTokens headers "transfer-encoding" = ["chunked".toList] →
        ∀ item ∈ listItems headers "transfer-encoding", ¬ Padded item) := by
    rw [coded]
    refine imp_congr_right fun accepted => ?_
    have lists := tokens_eq_iff (listItems headers "transfer-encoding")
    rw [← fieldTokens_eq, accepted] at lists
    refine (eq_comm.trans lists).trans ?_
    exact forall₂_congr fun item listed => trims _ listed
  have connection {token : Text} (nonempty : token ≠ []) (plain : ∀ c ∈ token, isForeignSpace c = false) :
      (token ∈ fieldTokens headers "connection" → token ∈ strictTokens headers "connection") ↔
        ((∃ item ∈ listItems headers "connection", Padded item ∧ lower (strip item) = token) →
          ∃ item ∈ listItems headers "connection", ¬ Padded item ∧ lower (strip item) = token) := by
    rw [mem_fieldTokens nonempty, mem_strictTokens nonempty]
    constructor
    · rintro strict ⟨item, listed, _, same⟩
      obtain ⟨other, otherListed, otherSame⟩ := strict ⟨item, listed, same⟩
      have bare := not_padded_of_token plain otherSame
      exact ⟨other, otherListed, bare, by rw [(trims _ otherListed).mpr bare, otherSame]⟩
    · rintro spare ⟨item, listed, same⟩
      by_cases padded : Padded item
      · obtain ⟨other, otherListed, bare, otherSame⟩ := spare ⟨item, listed, padded, same⟩
        exact ⟨other, otherListed, by rw [← (trims _ otherListed).mpr bare, otherSame]⟩
      · exact ⟨item, listed, by rw [← (trims _ listed).mpr padded, same]⟩
  have plain {token : Text} (spaceless : token.all (fun c => !isForeignSpace c) = true) :
      ∀ c ∈ token, isForeignSpace c = false := by simpa using spaceless
  have close := @connection "close".toList (by decide) (plain (by decide))
  have keepAlive := @connection "keep-alive".toList (by decide) (plain (by decide))
  constructor
  · rintro ⟨codingHolds, connectionHolds⟩
    refine ⟨coding.mp codingHolds, ?_⟩
    intro token listed
    simp only [List.mem_cons, List.not_mem_nil, or_false] at listed
    rcases listed with rfl | rfl
    · exact close.mp (connectionHolds _ (by simp))
    · exact keepAlive.mp (connectionHolds _ (by simp))
  · rintro ⟨codingHolds, connectionHolds⟩
    refine ⟨coding.mpr codingHolds, ?_⟩
    intro token listed
    simp only [List.mem_cons, List.not_mem_nil, or_false] at listed
    rcases listed with rfl | rfl
    · exact close.mpr (connectionHolds _ (by simp))
    · exact keepAlive.mpr (connectionHolds _ (by simp))

theorem chunked_iff_tokens {headers : List Header} {chunked : Bool} {length : Int}
    (coded : hasField headers "transfer-encoding" = false ∧ chunked = false ∨
      hasField headers "transfer-encoding" = true ∧ length < 0 ∧
        fieldTokens headers "transfer-encoding" = ["chunked".toList] ∧ chunked = true) :
    chunked = true ↔ fieldTokens headers "transfer-encoding" = ["chunked".toList] := by
  rcases coded with ⟨absent, rfl⟩ | ⟨_, _, tokens, rfl⟩
  · have none : fieldValues headers "transfer-encoding" = [] := by simpa [hasField] using absent
    simp [fieldTokens, none]
  · simp [tokens]

/-- Framing and connection lists are read strictly exactly in the heads where no foreign space is
taken for a separator. The lists are those of `transfer-encoding` and of `connection`, in requests
and in responses. Nothing is assumed about the head but that it is accepted. The condition is on its
bytes alone: it does not look at what the codec has read from them. -/
theorem strict_lists_exact (limits : CodecLimits) (bodyLimits : BodyLimits) (method : Text)
    (block : Bytes) :
    (∀ head : RequestHead, parseRequestHead limits block = .ok head →
      (StrictLists head.headers head.chunked ↔ PlainLists head.headers)) ∧
    ∀ head : UpstreamResponseHead, parseResponseHead method bodyLimits block = .ok head →
      (StrictLists head.headers head.chunked ↔ PlainLists head.headers) := by
  constructor
  · intro head accepted
    obtain ⟨_, _, _, headers, _, chunked, _, _, fields, _, _, coding, _, rfl⟩ :=
      parseRequestHead_eq_ok_iff.mp accepted
    exact strictLists_iff (parseHeaders_fields fields)
      (chunked_iff_tokens (requestChunked_eq_ok_iff.mp coding))
  · intro head accepted
    obtain ⟨_, _, _, headers, _, chunked, _, fields, _, coding, _, rfl⟩ :=
      parseResponseHead_eq_ok_iff.mp accepted
    exact strictLists_iff (parseHeaders_fields fields)
      (chunked_iff_tokens (responseChunked_eq_ok_iff.mp coding))

/-- A head without foreign spaces. -/
theorem strict_lists_exact_plain :
    let block := ascii "POST / HTTP/1.0\r\ntransfer-encoding: \tChunked ,\r\nconnection: Close"
    ∃ head, parseRequestHead {} block = .ok head ∧ head.chunked = true ∧
      (StrictLists head.headers head.chunked ↔ PlainLists head.headers) := by
  intro block
  exact ⟨_, rfl, rfl, (strict_lists_exact {} {} "".toList block).1 _ rfl⟩

/-- `Transfer-Encoding: chunked` with an NBSP behind it frames the message as chunked. -/
theorem strict_lists_fail :
    ¬ ∀ (limits : CodecLimits) (block : Bytes) (head : RequestHead), parseRequestHead limits block =
      .ok head → StrictLists head.headers head.chunked := by
  intro strict
  have lists := strict {} (ascii "POST / HTTP/1.0\r\ntransfer-encoding: chunked" ++ [0xA0]) _ rfl
  have wrong := lists.coding rfl
  revert wrong
  decide

end PccGateway
