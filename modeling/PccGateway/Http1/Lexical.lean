import PccGateway.Errors
import PccGateway.Lib.Search

namespace PccGateway
open Search

/-- One byte of an RFC token, as `_is_token` tests it. -/
def isTchar (value : UInt8) : Bool :=
  (48 ≤ value && value ≤ 57) || (65 ≤ value && value ≤ 90) || (97 ≤ value && value ≤ 122) ||
    value == 33 || (35 ≤ value && value ≤ 39) || (42 ≤ value && value ≤ 43) ||
    (45 ≤ value && value ≤ 46) || (94 ≤ value && value ≤ 96) || value == 124 || value == 126

def isToken (data : Bytes) : Bool := data ≠ [] && data.all isTchar

def isBadValueByte (value : UInt8) : Bool :=
  value == 0 || value == 10 || value == 13 || value == 127 || (value < 32 && value != 9)

def containsBadValueByte (data : Bytes) : Bool := data.any isBadValueByte

def findDoubleCrlf (data : Bytes) : Option Nat := findSub [13, 10, 13, 10] data

def findCrlf (data : Bytes) : Option Nat := findSub [13, 10] data

/-- `data.split(b"\r\n")`. -/
def splitCrlf (data : Bytes) : List Bytes := splitPair 13 10 data

/-- The elements of a comma list: white space trimmed, lower case, empty elements skipped. -/
def splitCommas (value : Text) : List Text :=
  ((value.splitOn ',').map fun item => lower (strip item)).filter (· ≠ [])

/-- The bytes that `_quoted_chunk_extension_value` admits between the quotes. -/
def quotedText : Bytes → Bool
  | [] => true
  | [current] =>
    current != 92 && (current == 9 || current == 32 || current == 33 || (35 ≤ current && current ≤ 91) ||
      (93 ≤ current && current ≤ 126) || 128 ≤ current)
  | current :: next :: rest =>
    if current == 92 then
      (next == 9 || next == 32 || (33 ≤ next && next ≤ 126) || 128 ≤ next) && quotedText rest
    else
      (current == 9 || current == 32 || current == 33 || (35 ≤ current && current ≤ 91) ||
        (93 ≤ current && current ≤ 126) || 128 ≤ current) && quotedText (next :: rest)

def quotedChunkExtensionValue (value : Bytes) : Bool :=
  2 ≤ value.length && value.head? == some 34 && value.getLast? == some 34 && quotedText value.tail.dropLast

def hexDigit (current : UInt8) : Option Nat :=
  if 48 ≤ current ∧ current ≤ 57 then some (current.toNat - 48)
  else if 65 ≤ current ∧ current ≤ 70 then some (current.toNat - 55)
  else if 97 ≤ current ∧ current ≤ 102 then some (current.toNat - 87)
  else none

def chunkSizeDigits : Bytes → Nat → Except Exn Nat
  | [], size => .ok size
  | current :: rest, size =>
    match hexDigit current with
    | some digit => chunkSizeDigits rest (size * 16 + digit)
    | none => raiseHttp1 400 "bad-chunk-size" "non-hex chunk size"

/-- Bytes after an opening quote up to and including the closing one, or all of them. -/
def quotedSpan : Bool → Bytes → Nat
  | _, [] => 0
  | true, _ :: rest => quotedSpan false rest + 1
  | false, current :: rest =>
    if current == 92 then quotedSpan true rest + 1
    else if current == 34 then 1
    else quotedSpan false rest + 1

/-- The extension loop. Every pass consumes the semicolon it starts at, so the length of the line
is enough fuel. -/
def chunkExtensions : Nat → Bytes → Except Exn Unit
  | 0, _ => .ok ()
  | _ + 1, [] => .ok ()
  | fuel + 1, first :: rest =>
    if first ≠ 59 then raiseHttp1 400 "bad-chunk-extension" "invalid chunk extension"
    else
      let isName (b : UInt8) : Bool := b != 59 && b != 61
      if !isToken (rest.takeWhile isName) then
        raiseHttp1 400 "bad-chunk-extension" "invalid chunk extension name"
      else
        match rest.dropWhile isName with
        | [] => .ok ()
        | 59 :: more => chunkExtensions fuel (59 :: more)
        | _ :: [] => raiseHttp1 400 "bad-chunk-extension" "empty chunk extension value"
        | _ :: 34 :: more =>
          let span := quotedSpan false more
          if !quotedChunkExtensionValue (34 :: more.take span) then
            raiseHttp1 400 "bad-chunk-extension" "invalid quoted chunk extension value"
          else
            match more.drop span with
            | [] => .ok ()
            | next :: later =>
              if next ≠ 59 then
                raiseHttp1 400 "bad-chunk-extension" "bytes follow quoted chunk extension value"
              else chunkExtensions fuel (next :: later)
        | _ :: value =>
          if !isToken (value.takeWhile (· != 59)) then
            raiseHttp1 400 "bad-chunk-extension" "invalid chunk extension value"
          else chunkExtensions fuel (value.dropWhile (· != 59))

def parseChunkSizeLine (line : Bytes) : Except Exn Nat :=
  let sizeEnd := (findSub [59] line).getD line.length
  if sizeEnd = 0 ∨ 16 < sizeEnd then raiseHttp1 400 "bad-chunk-size" "invalid chunk size"
  else do
    let size ← chunkSizeDigits (line.take sizeEnd) 0
    chunkExtensions line.length (line.drop sizeEnd)
    return size

/-- `_latin1_bytes`. -/
def latin1Bytes (text : Text) : Except Exn Bytes :=
  match encodeLatin1 text with
  | some data => .ok data
  | none => raiseHttp1 500 "bad-header" "header value is outside Latin-1"

/-- The loop of `_parse_headers`. A name is a token and so ASCII: its UTF-8 and its Latin-1 text
are the same. -/
def parseHeaderLines (maxCount : Int) : List Bytes → List Header → Except Exn (List Header)
  | [], headers => .ok headers
  | [] :: lines, headers => parseHeaderLines maxCount lines headers
  | (first :: more) :: lines, headers =>
    let line := first :: more
    if first = 32 ∨ first = 9 then raiseHttp1 400 "obs-fold" "folded header lines are rejected"
    else
      match findSub [58] line with
      | none | some 0 => raiseHttp1 400 "bad-header" "header is missing a field name"
      | some (colon + 1) =>
        let nameBytes := line.take (colon + 1)
        let valueBytes := line.drop (colon + 2)
        if !isToken nameBytes then raiseHttp1 400 "bad-header-name" "invalid header field name"
        else if containsBadValueByte valueBytes then
          raiseHttp1 400 "bad-header-value" "invalid header field value"
        else if maxCount ≤ headers.length then
          raiseHttp1 431 "too-many-headers" "header count limit exceeded"
        else
          parseHeaderLines maxCount lines
            (headers ++ [(lower (latin1Text nameBytes), stripOws (latin1Text valueBytes))])

def parseHeaders (lines : List Bytes) (maxCount : Int) : Except Exn (List Header) :=
  parseHeaderLines maxCount lines []

/-- `names.get(name)` of the dictionary that `_parse_headers` returns beside the list; a name that
is absent has no values. -/
def fieldValues (headers : List Header) (name : String) : List Text :=
  (headers.filter (·.1 = name.toList)).map (·.2)

/-- `name in names`. -/
def hasField (headers : List Header) (name : String) : Bool := fieldValues headers name ≠ []

/-- Every element of every field called `name`. -/
def fieldTokens (headers : List Header) (name : String) : List Text :=
  (fieldValues headers name).flatMap splitCommas

/-- A field as `_parse_headers` stores it: the name a token in lower case, the value free of control
bytes and trimmed. -/
def ParsedField (header : Header) : Prop :=
  ∃ nameBytes valueBytes, isToken nameBytes = true ∧ containsBadValueByte valueBytes = false ∧
    header = (lower (latin1Text nameBytes), stripOws (latin1Text valueBytes))

theorem parseHeaderLines_fields {maxCount : Int} {lines : List Bytes} {before after : List Header}
    (start : ∀ header ∈ before, ParsedField header)
    (run : parseHeaderLines maxCount lines before = .ok after) :
    ∀ header ∈ after, ParsedField header := by
  induction lines generalizing before with
  | nil =>
    cases run
    exact start
  | cons line lines ih =>
    cases line with
    | nil => exact ih start run
    | cons first more =>
      unfold parseHeaderLines at run
      simp only [ite_raiseHttp1_eq_ok] at run
      obtain ⟨_, run⟩ := run
      split at run
      · simp [raiseHttp1] at run
      · simp [raiseHttp1] at run
      · rename_i colon _
        simp only [ite_raiseHttp1_eq_ok, Bool.not_eq_true', Bool.not_eq_false] at run
        obtain ⟨token, clean, _, run⟩ := run
        refine ih ?_ run
        intro header member
        rcases List.mem_append.mp member with old | new
        · exact start header old
        · rw [List.mem_singleton.mp new]
          exact ⟨_, _, token, by simpa using clean, rfl⟩

theorem parseHeaders_fields {maxCount : Int} {lines : List Bytes} {headers : List Header}
    (run : parseHeaders lines maxCount = .ok headers) : ∀ header ∈ headers, ParsedField header :=
  parseHeaderLines_fields (by simp) run

end PccGateway
