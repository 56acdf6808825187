import PccGateway.Http1.Message

namespace PccGateway
open Search

/-- A field on the wire, as every encoder of the gateway writes it. -/
def fieldLine (name value : Bytes) : Bytes := name ++ ascii ": " ++ value

/-- `bytes.lower()` of a token. -/
def lowerByte (b : UInt8) : UInt8 := if 65 ≤ b ∧ b ≤ 90 then b + 32 else b

theorem isTchar_lt {b : UInt8} (tchar : isTchar b = true) : b.toNat < 127 ∧ 32 < b.toNat := by
  simp only [isTchar, Bool.or_eq_true, Bool.and_eq_true, decide_eq_true_eq, beq_iff_eq, ← UInt8.toNat_inj,
    UInt8.le_iff_toNat_le] at tchar
  simp at tchar
  omega

theorem toNat_lowerByte (b : UInt8) :
    (lowerByte b).toNat = if 65 ≤ b.toNat ∧ b.toNat ≤ 90 then b.toNat + 32 else b.toNat := by
  unfold lowerByte
  simp only [UInt8.le_iff_toNat_le, UInt8.reduceToNat]
  split
  · rw [UInt8.toNat_add]
    simp only [UInt8.reduceToNat]
    omega
  · rfl

theorem isTchar_lowerByte {b : UInt8} (tchar : isTchar b = true) : isTchar (lowerByte b) = true := by
  have shape := toNat_lowerByte b
  simp only [isTchar, Bool.or_eq_true, Bool.and_eq_true, decide_eq_true_eq, beq_iff_eq, ← UInt8.toNat_inj,
    UInt8.le_iff_toNat_le] at tchar ⊢
  simp at tchar ⊢
  split at shape <;> omega

theorem lowerChar_byteChar {b : UInt8} (tchar : isTchar b = true) :
    lowerChar (byteChar b) = byteChar (lowerByte b) := by
  have small := isTchar_lt tchar
  apply Char.toNat_inj.mp
  rw [toNat_byteChar, toNat_lowerByte]
  unfold lowerChar
  simp only [toNat_byteChar]
  by_cases letter : 65 ≤ b.toNat ∧ b.toNat ≤ 90
  · rw [if_pos (.inl letter), if_pos letter, toNat_ofNat (by omega)]
  · rw [if_neg (by omega), if_neg letter, toNat_byteChar]

theorem lower_latin1Text {name : Bytes} (token : isToken name = true) :
    lower (latin1Text name) = latin1Text (name.map lowerByte) ∧ isToken (name.map lowerByte) = true := by
  simp only [isToken, Bool.and_eq_true, List.all_eq_true, decide_eq_true_eq] at token ⊢
  refine ⟨?_, by simpa using token.1, ?_⟩
  · rw [lower, latin1Text, latin1Text, List.map_map, List.map_map]
    exact List.map_congr_left fun b member => lowerChar_byteChar (token.2 b member)
  · intro b member
    obtain ⟨c, listed, rfl⟩ := List.mem_map.mp member
    exact isTchar_lowerByte (token.2 c listed)

theorem lowerByte_lowerByte (b : UInt8) : lowerByte (lowerByte b) = lowerByte b := by
  apply UInt8.toNat_inj.mp
  have := toNat_lowerByte b
  rw [toNat_lowerByte]
  split at this <;> split <;> omega

/-- Lower case once is lower case for good. -/
theorem lower_lower_token {name : Bytes} (token : isToken name = true) :
    lower (lower (latin1Text name)) = lower (latin1Text name) := by
  obtain ⟨lowered, again⟩ := lower_latin1Text token
  rw [lowered, (lower_latin1Text again).1, List.map_map]
  exact congrArg latin1Text (List.map_congr_left fun b _ => lowerByte_lowerByte b)

/-- Line ends do not occur inside these lines, and none is empty. -/
structure CleanLines (lines : List Bytes) : Prop where
  nonempty : ∀ line ∈ lines, line ≠ []
  noReturn : ∀ line ∈ lines, 13 ∉ line

theorem CleanLines.tail {line : Bytes} {lines : List Bytes} (clean : CleanLines (line :: lines)) :
    CleanLines lines :=
  ⟨fun other member => clean.nonempty other (by simp [member]), fun other member =>
    clean.noReturn other (by simp [member])⟩

theorem CleanLines.cons {line : Bytes} {lines : List Bytes} (nonempty : line ≠ []) (noReturn : 13 ∉ line)
    (clean : CleanLines lines) : CleanLines (line :: lines) := by
  refine ⟨?_, ?_⟩ <;> intro other member <;> rcases List.mem_cons.mp member with rfl | listed
  · exact nonempty
  · exact clean.nonempty other listed
  · exact noReturn
  · exact clean.noReturn other listed

/-- Clean lines joined by CRLF are ended by the first blank line. -/
theorem delimited_lines {lines : List Bytes} (clean : CleanLines lines) :
    Delimited doubleCrlf (crlf.intercalate lines) := by
  induction lines with
  | nil =>
    intro j inside
    simp at inside
  | cons line lines ih =>
    have own := clean.noReturn line (by simp)
    cases lines with
    | nil => simpa [doubleCrlf] using delimited_of_not_mem own
    | cons next more =>
      have rest := ih clean.tail
      obtain ⟨first, nextRest, nextEq⟩ := List.exists_cons_of_ne_nil (clean.nonempty next (by simp))
      have notReturn : first ≠ 13 := fun same => clean.noReturn next (by simp) (by simp [nextEq, same])
      intro j inside
      rw [List.intercalate_cons_cons] at inside ⊢
      rcases Nat.lt_or_ge j line.length with early | late
      · rw [List.append_assoc, List.append_assoc]
        exact not_prefix_of_not_mem own early
      · -- at the line end the next line starts, and it is not empty
        have start : ∃ tail, crlf.intercalate (next :: more) ++ doubleCrlf = first :: tail := by
          cases more with
          | nil => exact ⟨nextRest ++ doubleCrlf, by simp [nextEq]⟩
          | cons other more => exact ⟨_, by simp [nextEq, List.intercalate_cons_cons]; rfl⟩
        obtain ⟨tail, tailEq⟩ := start
        rw [List.append_assoc, List.append_assoc, tailEq, List.drop_append,
          List.drop_of_length_le late, List.nil_append]
        rcases Nat.lt_or_ge (j - line.length) 2 with seam | beyond
        · have cases_ : j - line.length = 0 ∨ j - line.length = 1 := by omega
          rcases cases_ with zero | one
          · rw [zero]
            rintro ⟨after, same⟩
            simp [doubleCrlf, crlf] at same
            exact notReturn same.1.symm
          · rw [one]
            rintro ⟨after, same⟩
            simp [doubleCrlf, crlf] at same
        · have later := rest (j - line.length - 2) (by
            rw [List.length_append, List.length_append, show crlf.length = 2 from rfl] at inside
            omega)
          rw [tailEq] at later
          obtain ⟨shift, shiftEq⟩ : ∃ shift, j - line.length = shift + 2 := ⟨j - line.length - 2, by omega⟩
          rw [shiftEq] at later ⊢
          simpa [crlf] using later

theorem splitCrlf_lines {lines : List Bytes} (nonempty : lines ≠ [])
    (noReturn : ∀ line ∈ lines, 13 ∉ line) :
    splitCrlf (crlf.intercalate lines) = lines := by
  induction lines with
  | nil => exact absurd rfl nonempty
  | cons line lines ih =>
    have own := noReturn line (by simp)
    cases lines with
    | nil => simpa [splitCrlf] using splitPair_not_mem own
    | cons next more =>
      rw [List.intercalate_cons_cons, splitCrlf, crlf, List.append_assoc]
      change splitPair 13 10 (line ++ 13 :: 10 :: crlf.intercalate (next :: more)) = _
      rw [splitPair_append own]
      exact congrArg (line :: ·) (ih (by simp) fun other member => noReturn other (by simp [member]))

theorem isToken_not_mem {name : Bytes} (token : isToken name = true) {b : UInt8}
    (other : isTchar b = false) : b ∉ name := by
  intro member
  simp only [isToken, Bool.and_eq_true, List.all_eq_true] at token
  rw [token.2 b member] at other
  cases other

theorem containsBadValueByte_not_mem {value : Bytes} (clean : containsBadValueByte value = false)
    {b : UInt8} (bad : isBadValueByte b = true) : b ∉ value := by
  intro member
  simp only [containsBadValueByte, List.any_eq_false] at clean
  exact clean b member bad

theorem fieldLine_clean {name value : Bytes} (token : isToken name = true)
    (clean : containsBadValueByte value = false) :
    fieldLine name value ≠ [] ∧ 13 ∉ fieldLine name value := by
  have noName := isToken_not_mem token (b := 13) (by decide)
  have noValue := containsBadValueByte_not_mem clean (b := 13) (by decide)
  have noColon : (13 : UInt8) ∉ ascii ": " := by decide
  refine ⟨?_, ?_⟩
  · simp [fieldLine, ascii]
  · unfold fieldLine
    simp only [List.mem_append, not_or]
    exact ⟨⟨noName, noColon⟩, noValue⟩

/-- A blank in front is trimmed with the others. -/
theorem stripOws_cons_blank (value : Text) : stripOws (' ' :: value) = stripOws value := by
  simp [stripOws, stripBy, isOws]

theorem stripOws_trimmed {value : Text} (trimmed : Trimmed isOws value) : stripOws value = value := by
  have kept := @stripBy_append isOws [] value [] (by simp) (by simp) trimmed
  rwa [List.nil_append, List.append_nil] at kept

/-- One field line is read back as its field. -/
theorem parseHeaderLines_fieldLine {maxCount : Int} {name value : Bytes} {lines : List Bytes}
    {before : List Header}
    (token : isToken name = true) (clean : containsBadValueByte value = false)
    (room : (before.length : Int) < maxCount) :
    parseHeaderLines maxCount (fieldLine name value :: lines) before =
      parseHeaderLines maxCount lines
        (before ++ [(lower (latin1Text name), stripOws (latin1Text value))]) := by
  obtain ⟨first, more, shape⟩ : ∃ first more, name = first :: more := by
    cases name with
    | nil => simp [isToken] at token
    | cons first more => exact ⟨first, more, rfl⟩
  have tchar : isTchar first = true := by
    simp only [isToken, Bool.and_eq_true, List.all_eq_true] at token
    exact token.2 first (by simp [shape])
  have noFold : ¬ (first = 32 ∨ first = 9) := by
    rintro (rfl | rfl) <;> revert tchar <;> decide
  have colon : findSub [58] (fieldLine name value) = some (more.length + 1) := by
    refine findSub_eq_some_iff_exists.mpr ⟨name, 32 :: value, ?_, by simp [shape], ?_⟩
    · simp [fieldLine, ascii, charByte]
    · exact delimited_of_not_mem (isToken_not_mem token (by decide))
  have named : (fieldLine name value).take (more.length + 1) = name := by
    rw [show more.length + 1 = name.length by simp [shape], fieldLine, List.append_assoc, List.take_left]
  have valued : (fieldLine name value).drop (more.length + 2) = 32 :: value := by
    rw [show more.length + 2 = name.length + 1 by simp [shape], fieldLine,
      List.append_assoc, ← List.drop_drop, List.drop_left]
    simp [ascii, charByte]
  have clean' : containsBadValueByte (32 :: value) = false := by
    simpa [containsBadValueByte, isBadValueByte] using clean
  have blank : stripOws (latin1Text (32 :: value)) = stripOws (latin1Text value) := stripOws_cons_blank _
  have cons : fieldLine name value = first :: (more ++ ascii ": " ++ value) := by simp [fieldLine, shape]
  rw [cons, parseHeaderLines]
  simp only [← cons, noFold, if_false, colon, named, valued, token, clean', blank, Bool.not_true,
    Bool.false_eq_true, Int.not_le.mpr room]

/-- A section of field lines is read back as its fields. -/
theorem parseHeaderLines_fieldLines {maxCount : Int} {fields : List (Bytes × Bytes)} {before : List Header}
    (valid : ∀ field ∈ fields, isToken field.1 = true ∧ containsBadValueByte field.2 = false)
    (room : ((before.length + fields.length : Nat) : Int) ≤ maxCount) :
    parseHeaderLines maxCount (fields.map fun field => fieldLine field.1 field.2) before =
      .ok (before ++ fields.map fun field =>
        (lower (latin1Text field.1), stripOws (latin1Text field.2))) := by
  induction fields generalizing before with
  | nil => simp [parseHeaderLines]
  | cons field fields ih =>
    obtain ⟨token, clean⟩ := valid field (by simp)
    rw [List.length_cons] at room
    rw [List.map_cons, parseHeaderLines_fieldLine token clean (by omega),
      ih (fun other member => valid other (by simp [member]))
        (by simp only [List.length_append, List.length_singleton]; omega)]
    simp

theorem any_hasField_eq_false {headers : List Header} {names : List String}
    (absent : ∀ header ∈ headers, header.1 ∉ names.map String.toList) :
    names.any (hasField headers) = false := by
  refine List.any_eq_false.mpr fun name listed => ?_
  have none : headers.filter (·.1 = name.toList) = [] := by
    refine List.filter_eq_nil_iff.mpr fun header member same => absent header member ?_
    exact List.mem_map.mpr ⟨name, listed, (decide_eq_true_eq.mp same).symm⟩
  simp [hasField, fieldValues, none]

/-- A stored field that can be written: a token, and Latin-1 text without control bytes. -/
structure WireField (header : Header) : Prop where
  name_eq : latin1Text (header.1.map charByte) = header.1
  token : isToken (header.1.map charByte) = true
  value_eq : latin1Text (header.2.map charByte) = header.2
  clean : containsBadValueByte (header.2.map charByte) = false

/-- The line that an encoder writes for a stored field. -/
def headerLine (header : Header) : Bytes := fieldLine (header.1.map charByte) (header.2.map charByte)

/-- What `_parse_headers` makes of that line. -/
def readField (header : Header) : Header := (lower header.1, stripOws header.2)

theorem parseHeaders_headerLines {maxCount : Int} {headers : List Header}
    (valid : ∀ header ∈ headers, WireField header) (room : (headers.length : Int) ≤ maxCount) :
    parseHeaders (headers.map headerLine) maxCount = .ok (headers.map readField) := by
  have section_ := @parseHeaderLines_fieldLines maxCount
    (headers.map fun header => (header.1.map charByte, header.2.map charByte)) []
    (by
      intro field member
      obtain ⟨header, listed, rfl⟩ := List.mem_map.mp member
      exact ⟨(valid header listed).token, (valid header listed).clean⟩)
    (by simpa using room)
  simp only [List.map_map, List.nil_append] at section_
  refine section_.trans (congrArg _ (List.map_congr_left fun header listed => ?_))
  simp only [Function.comp_apply, readField, (valid header listed).name_eq, (valid header listed).value_eq]

theorem headerLines_clean {headers : List Header} (valid : ∀ header ∈ headers, WireField header) :
    CleanLines (headers.map headerLine) := by
  have clean {header : Header} (listed : header ∈ headers) :=
    fieldLine_clean (valid header listed).token (valid header listed).clean
  refine ⟨?_, ?_⟩ <;> intro line member <;> obtain ⟨header, listed, rfl⟩ := List.mem_map.mp member
  · exact (clean listed).1
  · exact (clean listed).2

/-- The fields, each with its line end. -/
def fieldSection (headers : List Header) : Bytes :=
  (headers.map fun header => headerLine header ++ crlf).flatten

theorem length_le_fieldSection (headers : List Header) :
    headers.length ≤ (fieldSection headers).length := by
  induction headers with
  | nil => exact Nat.zero_le _
  | cons header headers ih =>
    simp only [fieldSection, List.map_cons, List.flatten_cons, List.length_append, List.length_cons,
      crlf] at ih ⊢
    omega

/-- A start line, the fields and a blank line are lines joined by CRLF and a double CRLF. -/
theorem fieldSection_lines (start : Bytes) (headers : List Header) :
    start ++ crlf ++ fieldSection headers ++ crlf =
      crlf.intercalate (start :: headers.map headerLine) ++ doubleCrlf := by
  induction headers generalizing start with
  | nil => simp [fieldSection, doubleCrlf, crlf]
  | cons header headers ih =>
    have rest := ih (headerLine header)
    rw [List.map_cons, List.intercalate_cons_cons, List.append_assoc,
      List.append_assoc (start ++ crlf), ← rest]
    simp [fieldSection]

/-- What the decoder has stored can be written, and is read back as it is. -/
theorem ParsedField.wire {header : Header} (parsed : ParsedField header) :
    WireField header ∧ readField header = header := by
  obtain ⟨name, value, token, clean, rfl⟩ := parsed
  obtain ⟨lowered, again⟩ := lower_latin1Text token
  obtain ⟨before, after, split, _⟩ := stripBy_decompose isOws (latin1Text value)
  change latin1Text value = before ++ stripOws (latin1Text value) ++ after at split
  have bytes : value =
      before.map charByte ++ (stripOws (latin1Text value)).map charByte ++ after.map charByte := by
    rw [← List.map_append, ← List.map_append, ← split, map_charByte_latin1Text]
  refine ⟨⟨?_, ?_, ?_, ?_⟩, ?_⟩
  · rw [lowered, map_charByte_latin1Text]
  · rwa [lowered, map_charByte_latin1Text]
  · refine encodeLatin1_eq_some_iff.mp ?_ |>.symm
    rw [encodeLatin1, if_pos]
    have all := latin1Text_all value
    rw [split] at all
    simp only [List.all_append, Bool.and_eq_true] at all
    exact all.1.2
  · rw [bytes] at clean
    simp only [containsBadValueByte, List.any_append, Bool.or_eq_false_iff] at clean ⊢
    exact clean.1.2
  · exact Prod.ext (lower_lower_token token) (stripOws_trimmed (stripBy_trimmed isOws (latin1Text value)))

end PccGateway
