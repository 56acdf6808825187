import PccGateway.Server.Environment
import Mathlib.Data.List.Forall2

namespace PccGateway

/-- `bytes.decode("utf-8")`; `none` is the `UnicodeDecodeError`. -/
def decodeUtf8 (data : Bytes) : Option Text := (ByteArray.mk data.toArray).utf8Decode?.map (·.toList)

/-- The ASCII white space that `int` removes from an ASCII text. -/
def isIntSpace (b : UInt8) : Bool := (9 ≤ b && b ≤ 13) || b == 32

/-- The digits behind the first one, with single underscores between them. -/
def moreHexDigits : Bytes → Nat → Option Nat
  | [], total => some total
  | 95 :: current :: rest, total =>
    (hexDigit current).bind fun digit => moreHexDigits rest (total * 16 + digit)
  | current :: rest, total => (hexDigit current).bind fun digit => moreHexDigits rest (total * 16 + digit)

def hexDigits : Bytes → Option Nat
  | [] => none
  | first :: rest => (hexDigit first).bind (moreHexDigits rest)

/-- The digits of `int(text, 16)`, which may stand behind `0x` and one underscore. -/
def hexMagnitude : Bytes → Option Nat
  | 48 :: mark :: rest =>
    if mark = 120 ∨ mark = 88 then
      match rest with
      | 95 :: rest => hexDigits rest
      | rest => hexDigits rest
    else hexDigits (48 :: mark :: rest)
  | digits => hexDigits digits

def signedHex : Bytes → Option Int
  | 43 :: digits => (hexMagnitude digits).map Int.ofNat
  | 45 :: digits => (hexMagnitude digits).map fun magnitude => -Int.ofNat magnitude
  | digits => (hexMagnitude digits).map Int.ofNat

/-- `int(raw.decode("ascii"), 16)`; `none` is the `ValueError` of either. -/
def intBase16 (raw : Bytes) : Option Int :=
  if raw.all (· < 128) then signedHex ((raw.dropWhile isIntSpace).rdropWhile isIntSpace) else none

/-- `output.append(value)`, which refuses what is not a byte. -/
def byteOf (value : Int) : Option UInt8 :=
  if 0 ≤ value ∧ value < 256 then some (UInt8.ofNat value.toNat) else none

/-- The loop of `_percent_decode`. -/
def percentLoop (plusSpace : Bool) : Bytes → Except Exn Bytes
  | [] => .ok []
  | current :: rest =>
    if current = 37 then
      match rest with
      | first :: second :: rest =>
        match (intBase16 [first, second]).bind byteOf with
        | none => .error (.value "invalid percent escape")
        | some byte => (percentLoop plusSpace rest).map (byte :: ·)
      | _ => .error (.value "truncated percent escape")
    else if plusSpace ∧ current = 43 then (percentLoop plusSpace rest).map (32 :: ·)
    else (percentLoop plusSpace rest).map (current :: ·)

/-- `_percent_decode`. -/
def percentDecode (value : Text) (plusSpace : Bool) : Except Exn Text := do
  let output ← percentLoop plusSpace (utf8 value)
  match decodeUtf8 output with
  | some text => return text
  | none => .error .unicode

/-- The dictionary with one value more; a new key comes last. -/
def addValue (key value : Text) : List (Text × List Text) → List (Text × List Text)
  | [] => [(key, [value])]
  | (other, values) :: rest =>
    if other = key then (other, values ++ [value]) :: rest else (other, values) :: addValue key value rest

def queryFields : List Text → List (Text × List Text) → Except Exn (List (Text × List Text))
  | [], output => .ok output
  | field :: rest, output => do
    let key ← percentDecode (field.takeWhile (· ≠ '=')) true
    let value ← percentDecode ((field.dropWhile (· ≠ '=')).tail) true
    queryFields rest (addValue key value output)

/-- `parse_query`: the dictionary of values by key, in the order of its keys. -/
def parseQuery (query : Text) (maxFields : Int := 128) : Except Exn (List (Text × List Text)) :=
  if query = [] then .ok []
  else if maxFields < (query.splitOn '&').length then .error (.value "query field limit exceeded")
  else queryFields (query.splitOn '&') []

theorem utf8_eq (text : Text) : text.utf8Encode = ByteArray.mk (utf8 text).toArray := by
  apply ByteArray.ext
  rw [List.utf8Encode, List.data_toByteArray]
  rfl

theorem decodeUtf8_eq_some_iff {data : Bytes} {text : Text} :
    decodeUtf8 data = some text ↔ data = utf8 text := by
  unfold decodeUtf8
  rw [Option.map_eq_some_iff]
  constructor
  · rintro ⟨chars, decoded, rfl⟩
    have encoded := @ByteArray.utf8Encode_get_utf8Decode? (ByteArray.mk data.toArray) (by rw [decoded]; rfl)
    simp only [decoded, Option.get_some, utf8_eq] at encoded
    have bytes := congrArg (fun b : ByteArray => b.data.toList) encoded
    simpa using bytes.symm
  · rintro rfl
    exact ⟨text.toArray, by rw [← utf8_eq, List.utf8Decode?_utf8Encode], by simp⟩

/-- Every `%` is followed by two hexadecimal digits. -/
def Escaped (data : Bytes) : Prop :=
  ∀ index : Nat, data[index]? = some 37 → ∃ first second, data[index + 1]? = some first ∧
    data[index + 2]? = some second ∧ (hexDigit first).isSome ∧ (hexDigit second).isSome

/-- Each escape replaced by its byte, and each other `+` by a space where that is asked for. -/
def replaceEscapes (plusSpace : Bool) : Bytes → Bytes
  | 37 :: first :: second :: rest =>
    UInt8.ofNat (16 * (hexDigit first).getD 0 + (hexDigit second).getD 0) :: replaceEscapes plusSpace rest
  | current :: rest => (if plusSpace ∧ current = 43 then 32 else current) :: replaceEscapes plusSpace rest
  | [] => []

/-- `data` spells `out`, where `reads` says what an escape stands for. -/
inductive Spells (reads : UInt8 → UInt8 → UInt8 → Prop) (plusSpace : Bool) : Bytes → Bytes → Prop
  | nil : Spells reads plusSpace [] []
  | escape {first second byte : UInt8} {rest out : Bytes} :
      reads first second byte → Spells reads plusSpace rest out →
      Spells reads plusSpace (37 :: first :: second :: rest) (byte :: out)
  | plus {rest out : Bytes} :
      plusSpace = true → Spells reads plusSpace rest out → Spells reads plusSpace (43 :: rest) (32 :: out)
  | literal {current : UInt8} {rest out : Bytes} :
      current ≠ 37 → ¬ (plusSpace = true ∧ current = 43) → Spells reads plusSpace rest out →
      Spells reads plusSpace (current :: rest) (current :: out)

/-- Two hexadecimal digits. -/
def HexPair (first second byte : UInt8) : Prop :=
  ∃ high low, hexDigit first = some high ∧ hexDigit second = some low ∧ byte = UInt8.ofNat (16 * high + low)

/-- What else `int` reads as a byte: a digit with a sign or a space beside it. -/
inductive LoosePair : UInt8 → UInt8 → UInt8 → Prop
  | plus {second : UInt8} {digit : Nat} :
      hexDigit second = some digit → LoosePair 43 second (UInt8.ofNat digit)
  | minus : LoosePair 45 48 0
  | before {first second : UInt8} {digit : Nat} : isIntSpace first = true → hexDigit second = some digit →
      LoosePair first second (UInt8.ofNat digit)
  | after {first second : UInt8} {digit : Nat} : hexDigit first = some digit → isIntSpace second = true →
      LoosePair first second (UInt8.ofNat digit)

theorem map_eq_ok {α β : Type} {f : α → β} {x : Except Exn α} {b : β} :
    x.map f = .ok b ↔ ∃ a, x = .ok a ∧ f a = b := by
  cases x <;> simp [Except.map]

theorem percentLoop_eq_ok_iff {plusSpace : Bool} {data out : Bytes} :
    percentLoop plusSpace data = .ok out ↔
    Spells (fun first second byte => (intBase16 [first, second]).bind byteOf = some byte) plusSpace
      data out := by
  fun_induction percentLoop plusSpace data generalizing out with
  | case1 =>
    constructor
    · rintro ⟨⟩
      exact .nil
    · rintro ⟨⟩
      rfl
  | case2 first second rest unread =>
    refine ⟨nofun, fun spells => ?_⟩
    cases spells with
    | escape read => simp [unread] at read
    | literal other => exact absurd rfl other
  | case3 first second rest byte read ih =>
    rw [map_eq_ok]
    constructor
    · rintro ⟨tail, run, rfl⟩
      exact .escape read (ih.mp run)
    · intro spells
      cases spells with
      | escape read' later =>
        rw [read] at read'
        cases read'
        exact ⟨_, ih.mpr later, rfl⟩
      | literal other => exact absurd rfl other
  | case4 rest short =>
    refine ⟨nofun, fun spells => ?_⟩
    cases spells with
    | escape => exact (short _ _ _ rfl).elim
    | literal other => exact absurd rfl other
  | case5 current rest other plus ih =>
    rw [map_eq_ok]
    obtain ⟨spaced, rfl⟩ := plus
    constructor
    · rintro ⟨tail, run, rfl⟩
      exact .plus spaced (ih.mp run)
    · intro spells
      cases spells with
      | plus _ later => exact ⟨_, ih.mpr later, rfl⟩
      | literal _ unspaced => exact absurd ⟨spaced, rfl⟩ unspaced
  | case6 current rest other plain ih =>
    rw [map_eq_ok]
    constructor
    · rintro ⟨tail, run, rfl⟩
      exact .literal other plain (ih.mp run)
    · intro spells
      cases spells with
      | escape => exact absurd rfl other
      | plus spaced => exact absurd ⟨spaced, rfl⟩ plain
      | literal _ _ later => exact ⟨_, ih.mpr later, rfl⟩

theorem percentDecode_eq_ok_iff {value text : Text} {plusSpace : Bool} :
    percentDecode value plusSpace = .ok text ↔
    Spells (fun first second byte => (intBase16 [first, second]).bind byteOf = some byte) plusSpace
      (utf8 value) (utf8 text) := by
  rw [percentDecode, bind_eq_ok]
  constructor
  · rintro ⟨output, run, decoded⟩
    split at decoded
    · rename_i found
      cases decoded
      rw [decodeUtf8_eq_some_iff] at found
      rw [← found]
      rwa [percentLoop_eq_ok_iff] at run
    · cases decoded
  · intro spells
    have decoded : decodeUtf8 (utf8 text) = some text := by rw [decodeUtf8_eq_some_iff]
    rw [← percentLoop_eq_ok_iff] at spells
    refine ⟨utf8 text, spells, ?_⟩
    rw [decoded]
    rfl

theorem Spells.mono {reads reads' : UInt8 → UInt8 → UInt8 → Prop} {plusSpace : Bool} {data out : Bytes}
    (stronger : ∀ first second byte, reads first second byte → reads' first second byte)
    (spells : Spells reads plusSpace data out) :
    Spells reads' plusSpace data out := by
  induction spells with
  | nil => exact .nil
  | escape read _ ih => exact .escape (stronger _ _ _ read) ih
  | plus spaced _ ih => exact .plus spaced ih
  | literal other plain _ ih => exact .literal other plain ih

theorem hexDigit_percent : hexDigit 37 = none := by decide

/-- Strict spelling is what the escape grammar says. -/
theorem spells_hex_iff {plusSpace : Bool} {data out : Bytes} :
    Spells HexPair plusSpace data out ↔ Escaped data ∧ replaceEscapes plusSpace data = out := by
  constructor
  · intro spells
    induction spells with
    | nil => exact ⟨fun index found => by simp at found, rfl⟩
    | @escape first second byte rest out read later ih =>
      obtain ⟨high, low, isHigh, isLow, rfl⟩ := read
      refine ⟨fun index found => ?_, by rw [replaceEscapes, ih.2, isHigh, isLow]; rfl⟩
      match index with
      | 0 => exact ⟨first, second, rfl, rfl, by rw [isHigh]; rfl, by rw [isLow]; rfl⟩
      | 1 =>
        cases found
        simp [hexDigit_percent] at isHigh
      | 2 =>
        cases found
        simp [hexDigit_percent] at isLow
      | index + 3 => exact ih.1 index found
    | @plus rest out spaced later ih =>
      refine ⟨fun index found => ?_, by simp [replaceEscapes, ← ih.2, spaced]⟩
      cases index with
      | zero => cases found
      | succ index => exact ih.1 index found
    | @literal current rest out other plain later ih =>
      refine ⟨fun index found => ?_, ?_⟩
      · cases index with
        | zero =>
          cases found
          exact absurd rfl other
        | succ index => exact ih.1 index found
      · rw [replaceEscapes, if_neg plain, ih.2]
        rintro first second rest rfl
        exact absurd rfl other
  · rintro ⟨escaped, rfl⟩
    fun_induction replaceEscapes plusSpace data with
    | case1 first second rest ih =>
      obtain ⟨first', second', isFirst, isSecond, high, low⟩ := escaped 0 rfl
      cases isFirst
      cases isSecond
      obtain ⟨high, isHigh⟩ := Option.isSome_iff_exists.mp high
      obtain ⟨low, isLow⟩ := Option.isSome_iff_exists.mp low
      refine .escape ⟨high, low, isHigh, isLow, by rw [isHigh, isLow]; rfl⟩ (ih fun index found =>
        escaped (index + 3) found)
    | case2 current rest short ih =>
      have later := ih fun index found => escaped (index + 1) found
      by_cases percent : current = 37
      · subst percent
        obtain ⟨first, second, isFirst, isSecond, -, -⟩ := escaped 0 rfl
        match rest with
        | [] => cases isFirst
        | [_] => cases isSecond
        | _ :: _ :: _ => exact (short _ _ _ rfl rfl).elim
      · split
        · rename_i plus
          obtain ⟨spaced, rfl⟩ := plus
          exact .plus spaced later
        · rename_i plain
          exact .literal percent plain later
    | case3 => exact .nil

/-- A fact about each byte that can be checked. -/
theorem forall_byte {p : UInt8 → Prop} (all : ∀ n < 256, p (UInt8.ofNat n)) (b : UInt8) : p b := by
  simpa using all b.toNat b.toNat_lt

theorem hexDigit_some {b : UInt8} {digit : Nat} (found : hexDigit b = some digit) :
    digit < 16 ∧ b < 128 ∧ isIntSpace b = false ∧ b ≠ 43 ∧ b ≠ 45 ∧ (digit = 0 ↔ b = 48) := by
  have all : ∀ b : UInt8, ∀ digit ∈ hexDigit b, digit < 16 ∧ b < 128 ∧ isIntSpace b = false ∧ b ≠ 43 ∧
      b ≠ 45 ∧ (digit = 0 ↔ b = 48) :=
    forall_byte (by decide +kernel)
  exact all b digit found

theorem intSpace_small : ∀ b : UInt8, isIntSpace b = true → b < 128 ∧ b ≠ 43 ∧ b ≠ 45 :=
  forall_byte (by decide +kernel)

theorem moreHexDigits_single (b : UInt8) (total : Nat) :
    moreHexDigits [b] total = (hexDigit b).map (total * 16 + ·) := by
  have last : moreHexDigits [b] total = (hexDigit b).bind fun digit =>
      moreHexDigits [] (total * 16 + digit) := by
    unfold moreHexDigits
    split <;> simp_all [moreHexDigits]
  rw [last]
  cases hexDigit b <;> rfl

theorem hexMagnitude_single (b : UInt8) : hexMagnitude [b] = hexDigit b := by
  have digits : hexMagnitude [b] = hexDigits [b] := by
    unfold hexMagnitude
    split <;> simp_all
  rw [digits, hexDigits]
  cases hexDigit b <;> rfl

theorem hexMagnitude_pair (first second : UInt8) :
    hexMagnitude [first, second] = (hexDigit first).bind fun high =>
      (hexDigit second).map (high * 16 + ·) := by
  have digits : hexDigits [first, second] = (hexDigit first).bind fun high =>
      (hexDigit second).map (high * 16 + ·) := by
    exact congrArg (Option.bind _) (funext fun high => moreHexDigits_single second high)
  by_cases zero : first = 48
  · subst zero
    have mark : hexMagnitude [48, second] = if second = 120 ∨ second = 88 then
        hexDigits [] else hexDigits [48, second] := rfl
    rw [mark]
    split
    · rename_i mark
      have unread : hexDigit second = none := by rcases mark with rfl | rfl <;> decide
      rw [unread]
      rfl
    · exact digits
  · rw [← digits]
    unfold hexMagnitude
    split <;> simp_all

theorem signedHex_single (b : UInt8) : signedHex [b] = (hexDigit b).map Int.ofNat := by
  by_cases plus : b = 43
  · subst plus
    rfl
  · by_cases minus : b = 45
    · subst minus
      rfl
    · unfold signedHex
      split
      · simp_all
      · simp_all
      · rw [hexMagnitude_single]

/-- Two bytes that are no white space. -/
theorem signedHex_pair (first second : UInt8) :
    signedHex [first, second] = if first = 43 then (hexDigit second).map Int.ofNat
    else if first = 45 then (hexDigit second).map fun digit => -Int.ofNat digit
    else (hexDigit first).bind fun high => (hexDigit second).map fun low =>
      Int.ofNat (high * 16 + low) := by
  by_cases plus : first = 43
  · subst plus
    simp [signedHex, hexMagnitude_single]
  · by_cases minus : first = 45
    · subst minus
      simp [signedHex, hexMagnitude_single]
    · rw [if_neg plus, if_neg minus]
      unfold signedHex
      split
      · simp_all
      · simp_all
      · rw [hexMagnitude_pair]
        cases hexDigit first <;> cases hexDigit second <;> rfl

theorem byteOf_ofNat {n : Nat} (small : n < 256) : byteOf (Int.ofNat n) = some (UInt8.ofNat n) := by
  rw [byteOf, if_pos ⟨Int.natCast_nonneg n, by simp only [Int.ofNat_eq_natCast]; omega⟩]
  rfl

theorem intBase16_pair {first second byte : UInt8} :
    (intBase16 [first, second]).bind byteOf = some byte ↔ HexPair first second byte ∨
    LoosePair first second byte := by
  constructor
  · intro read
    obtain ⟨value, run, isByte⟩ := Option.bind_eq_some_iff.mp read
    unfold intBase16 at run
    split at run
    · cases before : isIntSpace first with
      | true =>
        cases after : isIntSpace second with
        | true =>
          have trimmed : ([first, second].dropWhile isIntSpace).rdropWhile isIntSpace = [] := by
            simp [before, after, List.rdropWhile]
          rw [trimmed] at run
          cases run
        | false =>
          have trimmed : ([first, second].dropWhile isIntSpace).rdropWhile isIntSpace = [second] := by
            simp [before, after, List.rdropWhile]
          rw [trimmed, signedHex_single] at run
          obtain ⟨digit, found, rfl⟩ := Option.map_eq_some_iff.mp run
          rw [byteOf_ofNat (by have := (hexDigit_some found).1; omega)] at isByte
          cases isByte
          exact .inr (.before before found)
      | false =>
        cases after : isIntSpace second with
        | true =>
          have trimmed : ([first, second].dropWhile isIntSpace).rdropWhile isIntSpace = [first] := by
            simp [before, after, List.rdropWhile]
          rw [trimmed, signedHex_single] at run
          obtain ⟨digit, found, rfl⟩ := Option.map_eq_some_iff.mp run
          rw [byteOf_ofNat (by have := (hexDigit_some found).1; omega)] at isByte
          cases isByte
          exact .inr (.after found after)
        | false =>
          have trimmed : ([first, second].dropWhile isIntSpace).rdropWhile isIntSpace =
              [first, second] := by simp [before, after, List.rdropWhile]
          rw [trimmed, signedHex_pair] at run
          split at run
          · rename_i plus
            obtain ⟨digit, found, rfl⟩ := Option.map_eq_some_iff.mp run
            rw [byteOf_ofNat (by have := (hexDigit_some found).1; omega)] at isByte
            cases isByte
            exact .inr (plus ▸ .plus found)
          · split at run
            · rename_i minus
              obtain ⟨digit, found, rfl⟩ := Option.map_eq_some_iff.mp run
              -- only `-0` is a byte
              have zero : digit = 0 := by
                by_contra other
                rw [byteOf, if_neg (by simp only [Int.ofNat_eq_natCast]; omega)] at isByte
                cases isByte
              have isZero := (hexDigit_some found).2.2.2.2.2.mp zero
              subst zero minus isZero
              cases isByte
              exact .inr .minus
            · obtain ⟨high, isHigh, run⟩ := Option.bind_eq_some_iff.mp run
              obtain ⟨low, isLow, rfl⟩ := Option.map_eq_some_iff.mp run
              rw [byteOf_ofNat
                (by have := (hexDigit_some isHigh).1; have := (hexDigit_some isLow).1; omega)] at isByte
              cases isByte
              exact .inl ⟨high, low, isHigh, isLow, by rw [Nat.mul_comm]⟩
    · cases run
  · rintro (⟨high, low, isHigh, isLow, rfl⟩ | loose)
    · obtain ⟨highSmall, highAscii, highPlain, notPlus, notMinus, -⟩ := hexDigit_some isHigh
      obtain ⟨lowSmall, lowAscii, lowPlain, -⟩ := hexDigit_some isLow
      have trimmed : ([first, second].dropWhile isIntSpace).rdropWhile isIntSpace = [first, second] := by
        simp [highPlain, lowPlain, List.rdropWhile]
      have ascii : [first, second].all (· < 128) = true := by simp [highAscii, lowAscii]
      rw [intBase16, if_pos ascii, trimmed, signedHex_pair, if_neg notPlus, if_neg notMinus, isHigh, isLow]
      simp only [Option.bind_some, Option.map_some]
      rw [byteOf_ofNat (by omega), Nat.mul_comm]
    · cases loose with
      | @plus second digit found =>
        obtain ⟨small, isAscii, plain, -⟩ := hexDigit_some found
        have trimmed : ([43, second].dropWhile isIntSpace).rdropWhile isIntSpace = [43, second] := by
          simp [plain, List.rdropWhile, show isIntSpace 43 = false by decide]
        rw [intBase16, if_pos (by simp [isAscii]), trimmed, signedHex_pair, if_pos rfl, found,
          Option.map_some, Option.bind_some, byteOf_ofNat (by omega)]
      | minus => decide
      | @before first second digit space found =>
        obtain ⟨small, isAscii, plain, -⟩ := hexDigit_some found
        have trimmed : ([first, second].dropWhile isIntSpace).rdropWhile isIntSpace = [second] := by
          simp [space, plain, List.rdropWhile]
        rw [intBase16, if_pos (by simp [isAscii, (intSpace_small first space).1]), trimmed,
          signedHex_single, found, Option.map_some, Option.bind_some, byteOf_ofNat (by omega)]
      | @after first second digit found space =>
        obtain ⟨small, isAscii, plain, -⟩ := hexDigit_some found
        have trimmed : ([first, second].dropWhile isIntSpace).rdropWhile isIntSpace = [first] := by
          simp [space, plain, List.rdropWhile]
        rw [intBase16, if_pos (by simp [isAscii, (intSpace_small second space).1]), trimmed,
          signedHex_single, found, Option.map_some, Option.bind_some, byteOf_ofNat (by omega)]

/-- The text has an escape that is no two hexadecimal digits, each such escape is one that `int`
reads, and what the whole text then spells is UTF-8. -/
def LooselySpelled (value : Text) (plusSpace : Bool) : Prop :=
  ¬ Escaped (utf8 value) ∧
    ∃ text, Spells (fun first second byte => HexPair first second byte ∨ LoosePair first second byte)
      plusSpace (utf8 value) (utf8 text)

/-- The text is decoded by the escape grammar. -/
def DecodedByGrammar (value : Text) (plusSpace : Bool) : Prop :=
  ∀ text, percentDecode value plusSpace = .ok text ↔
    Escaped (utf8 value) ∧ replaceEscapes plusSpace (utf8 value) = utf8 text

/-- A loose escape has something in it that is no digit. -/
theorem LoosePair.not_digits {first second byte : UInt8} (loose : LoosePair first second byte) :
    ¬ ((hexDigit first).isSome = true ∧ (hexDigit second).isSome = true) := by
  have plain : ∀ b : UInt8, isIntSpace b = true → hexDigit b = none := forall_byte (by decide +kernel)
  rintro ⟨isFirst, isSecond⟩
  cases loose with
  | plus => cases isFirst
  | minus => cases isFirst
  | before space =>
    rw [plain first space] at isFirst
    cases isFirst
  | after _ space =>
    rw [plain second space] at isSecond
    cases isSecond

/-- Where the grammar holds, an escape can be read one way only. -/
theorem Spells.strict {plusSpace : Bool} {data out : Bytes} (escaped : Escaped data)
    (spells : Spells (fun first second byte => HexPair first second byte ∨
      LoosePair first second byte) plusSpace data out) :
    Spells HexPair plusSpace data out := by
  induction spells with
  | nil => exact .nil
  | escape read later ih =>
    obtain ⟨first, second, isFirst, isSecond, digits⟩ := escaped 0 rfl
    cases isFirst
    cases isSecond
    exact .escape (read.resolve_right fun loose => loose.not_digits digits) (ih fun index found =>
      escaped (index + 3) found)
  | plus spaced later ih => exact .plus spaced (ih fun index found => escaped (index + 1) found)
  | literal other plain later ih =>
    exact .literal other plain (ih fun index found => escaped (index + 1) found)

theorem percentDecode_iff_loose {value text : Text} {plusSpace : Bool} :
    percentDecode value plusSpace = .ok text ↔
    Spells (fun first second byte => HexPair first second byte ∨ LoosePair first second byte)
      plusSpace (utf8 value) (utf8 text) := by
  rw [percentDecode_eq_ok_iff]
  simp only [intBase16_pair]

theorem percentDecode_of_hex {value text : Text} {plusSpace : Bool}
    (spells : Spells HexPair plusSpace (utf8 value) (utf8 text)) :
    percentDecode value plusSpace = .ok text := by
  rw [percentDecode_iff_loose]
  exact spells.mono fun _ _ _ => .inl

theorem decodedByGrammar_iff (value : Text) (plusSpace : Bool) :
    DecodedByGrammar value plusSpace ↔ ¬ LooselySpelled value plusSpace := by
  constructor
  · rintro grammar ⟨unescaped, text, spells⟩
    rw [← percentDecode_iff_loose] at spells
    exact unescaped ((grammar text).mp spells).1
  · intro strict text
    rw [← spells_hex_iff]
    refine ⟨fun run => ?_, percentDecode_of_hex⟩
    rw [percentDecode_iff_loose] at run
    refine run.strict ?_
    by_contra unescaped
    exact strict ⟨unescaped, text, run⟩

/-- An escape of one byte. -/
def EscapeOf (byte : UInt8) (piece : Text) : Prop :=
  ∃ first second, piece = ['%', first, second] ∧ first.toNat < 128 ∧ second.toNat < 128 ∧
    HexPair (charByte first) (charByte second) byte

/-- What stands for a character in a percent-encoded text. -/
inductive Encodes : Char → Text → Prop
  | literal {c : Char} : c ∉ ['%', '&', '=', '+'] → Encodes c [c]
  | space : Encodes ' ' ['+']
  | escaped {c : Char} {pieces : List Text} :
      List.Forall₂ EscapeOf (String.utf8EncodeChar c) pieces → Encodes c pieces.flatten

/-- A percent-encoding of a text. -/
def PercentEncodes (text encoded : Text) : Prop :=
  ∃ pieces, List.Forall₂ Encodes text pieces ∧ encoded = pieces.flatten

/-- The pairs by key, in the order in which the keys first come. -/
def grouped (pairs : List (Text × Text)) : List (Text × List Text) :=
  (pairs.map (·.1)).eraseDups.map fun key => (key, (pairs.filter fun pair => pair.1 == key).map (·.2))

/-- The query with one field `key=value` for each pair. -/
def joinFields (pairs : List (Text × Text)) : Text :=
  ['&'].intercalate (pairs.map fun pair => pair.1 ++ '=' :: pair.2)

theorem utf8_append (left right : Text) :
    utf8 (left ++ right) = utf8 left ++ utf8 right := List.flatMap_append

theorem utf8_ascii {c : Char} (ascii : c.toNat < 128) : utf8 [c] = [charByte c] := by
  simp only [utf8, List.flatMap_cons, List.flatMap_nil, List.append_nil, String.utf8EncodeChar]
  rw [if_pos (show c.val.toNat ≤ 127 from Nat.le_of_lt_succ ascii)]
  rfl

/-- A small byte is the whole of its character. -/
theorem utf8EncodeChar_small {c : Char} {b : UInt8} (member : b ∈ String.utf8EncodeChar c)
    (small : b.toNat < 128) : c.toNat = b.toNat := by
  have large : ∀ n : Nat, 128 ≤ n % 256 → b ≠ UInt8.ofNat n := by
    rintro n high rfl
    rw [UInt8.toNat_ofNat'] at small
    omega
  revert member
  fun_cases String.utf8EncodeChar c with
  | case1 v ascii =>
    intro member
    rw [List.mem_singleton.mp member, UInt8.toNat_ofNat', Nat.mod_eq_of_lt (by omega)]
    rfl
  | case2 v =>
    have first := large (v / 64 % 32 + 192) (by omega)
    have last := large (v % 64 + 128) (by omega)
    intro member
    simp_all
  | case3 v =>
    have first := large (v / 4096 % 16 + 224) (by omega)
    have second := large (v / 64 % 64 + 128) (by omega)
    have last := large (v % 64 + 128) (by omega)
    intro member
    simp_all
  | case4 v =>
    have first := large (v / 262144 % 8 + 240) (by omega)
    have second := large (v / 4096 % 64 + 128) (by omega)
    have third := large (v / 64 % 64 + 128) (by omega)
    have last := large (v % 64 + 128) (by omega)
    intro member
    simp_all

theorem Spells.append {reads : UInt8 → UInt8 → UInt8 → Prop} {plusSpace : Bool}
    {data out data' out' : Bytes}
    (spells : Spells reads plusSpace data out) (later : Spells reads plusSpace data' out') :
    Spells reads plusSpace (data ++ data') (out ++ out') := by
  induction spells with
  | nil => exact later
  | escape read _ ih => exact .escape read ih
  | plus spaced _ ih => exact .plus spaced ih
  | literal other plain _ ih => exact .literal other plain ih

theorem Spells.literals {reads : UInt8 → UInt8 → UInt8 → Prop} {plusSpace : Bool} {data : Bytes}
    (plain : ∀ b ∈ data, b ≠ 37 ∧ b ≠ 43) : Spells reads plusSpace data data := by
  induction data with
  | nil => exact .nil
  | cons b data ih =>
    obtain ⟨noEscape, noPlus⟩ := plain b (by simp)
    exact .literal noEscape (fun both => noPlus both.2) (ih fun b member => plain b (by simp [member]))

theorem spells_escapes {bytes : Bytes} {pieces : List Text} (escapes : List.Forall₂ EscapeOf bytes pieces) :
    Spells HexPair true (utf8 pieces.flatten) bytes := by
  induction escapes with
  | nil => exact .nil
  | cons escape later ih =>
    obtain ⟨first, second, rfl, firstAscii, secondAscii, pair⟩ := escape
    have bytes : utf8 ['%', first, second] = [37, charByte first, charByte second] := by
      rw [show ['%', first, second] = ['%'] ++ [first] ++ [second] from rfl, utf8_append, utf8_append,
        utf8_ascii firstAscii, utf8_ascii secondAscii]
      rfl
    rw [List.flatten_cons, utf8_append, bytes]
    exact .escape pair ih

theorem Encodes.spells {c : Char} {piece : Text} (encodes : Encodes c piece) :
    Spells HexPair true (utf8 piece) (String.utf8EncodeChar c) := by
  cases encodes with
  | literal plain =>
    simp only [utf8, List.flatMap_cons, List.flatMap_nil, List.append_nil]
    refine .literals fun b member => ⟨?_, ?_⟩
    · rintro rfl
      have same : c = '%' := Char.toNat_inj.mp (utf8EncodeChar_small member (by decide))
      simp [same] at plain
    · rintro rfl
      have same : c = '+' := Char.toNat_inj.mp (utf8EncodeChar_small member (by decide))
      simp [same] at plain
  | space => exact .plus rfl .nil
  | escaped escapes => exact spells_escapes escapes

theorem percentDecode_encoded {text encoded : Text} (encodes : PercentEncodes text encoded) :
    percentDecode encoded true = .ok text := by
  obtain ⟨pieces, encodes, rfl⟩ := encodes
  refine percentDecode_of_hex ?_
  induction encodes with
  | nil => exact .nil
  | cons encode later ih =>
    rw [List.flatten_cons, utf8_append]
    exact encode.spells.append ih

theorem EscapeOf.no_separator {byte : UInt8} {piece : Text} (escape : EscapeOf byte piece) :
    '&' ∉ piece ∧ '=' ∉ piece := by
  obtain ⟨first, second, rfl, -, -, high, low, isHigh, isLow, -⟩ := escape
  have plain (c : Char) (unread : hexDigit (charByte c) = none) (other : c ≠ '%') :
      c ∉ ['%', first, second] := by
    simp only [List.mem_cons, List.not_mem_nil, or_false]
    rintro (same | rfl | rfl)
    · exact other same
    · simp [unread] at isHigh
    · simp [unread] at isLow
  exact ⟨plain '&' (by decide) (by decide), plain '=' (by decide) (by decide)⟩

theorem escapes_no_separator {bytes : Bytes} {pieces : List Text}
    (escapes : List.Forall₂ EscapeOf bytes pieces) :
    '&' ∉ pieces.flatten ∧ '=' ∉ pieces.flatten := by
  induction escapes with
  | nil => simp
  | cons escape _ ih => simp [escape.no_separator, ih]

theorem Encodes.no_separator {c : Char} {piece : Text} (encodes : Encodes c piece) :
    '&' ∉ piece ∧ '=' ∉ piece := by
  cases encodes with
  | literal plain =>
    simp only [List.mem_cons, not_or] at plain
    simp [Ne.symm plain.2.1, Ne.symm plain.2.2.1]
  | space => decide
  | escaped escapes => exact escapes_no_separator escapes

theorem PercentEncodes.no_separator {text encoded : Text} (encodes : PercentEncodes text encoded) :
    '&' ∉ encoded ∧ '=' ∉ encoded := by
  obtain ⟨pieces, encodes, rfl⟩ := encodes
  induction encodes with
  | nil => simp
  | cons encode _ ih => simp [encode.no_separator, ih]

theorem addValue_map {keys : List Text} {key value : Text} {values : Text → List Text}
    (nodup : keys.Nodup) :
    addValue key value (keys.map fun other => (other, values other)) =
      if key ∈ keys then keys.map fun other =>
        (other, if other = key then values other ++ [value] else values other)
      else keys.map (fun other => (other, values other)) ++ [(key, [value])] := by
  induction keys with
  | nil => rfl
  | cons other keys ih =>
    obtain ⟨absent, nodup⟩ := List.nodup_cons.mp nodup
    rw [List.map_cons, addValue]
    split
    · rename_i same
      subst same
      simp only [List.mem_cons, true_or, if_true, List.map_cons]
      congr 1
      refine List.map_congr_left fun key member => ?_
      rw [if_neg]
      rintro rfl
      exact absent member
    · rename_i different
      rw [ih nodup]
      by_cases member : key ∈ keys
      · simp [member, different]
      · simp [member, Ne.symm different]

theorem nodup_eraseDups (keys : List Text) : keys.eraseDups.Nodup := by
  match keys with
  | [] => simp
  | key :: rest =>
    have shorter : (rest.filter fun other => !other == key).length < rest.length + 1 :=
      Nat.lt_succ_of_le (List.length_filter_le _ rest)
    rw [List.eraseDups_cons, List.nodup_cons]
    exact ⟨by simp [List.mem_eraseDups], nodup_eraseDups _⟩
termination_by keys.length

theorem grouped_append (pairs : List (Text × Text)) (key value : Text) :
    grouped (pairs ++ [(key, value)]) = addValue key value (grouped pairs) := by
  rw [grouped, grouped, addValue_map (nodup_eraseDups _), List.map_append, List.eraseDups_append]
  simp only [List.mem_eraseDups]
  split
  · rename_i member
    have once : [key].removeAll (pairs.map (·.1)) = [] := by simpa [List.removeAll] using member
    simp only [List.map_cons, List.map_nil, once, List.eraseDups_nil, List.append_nil]
    refine List.map_congr_left fun other _ => ?_
    by_cases same : other = key
    · subst same
      simp
    · simp [same, Ne.symm same]
  · rename_i absent
    have once : [key].removeAll (pairs.map (·.1)) = [key] := by simpa [List.removeAll] using absent
    simp only [List.map_cons, List.map_nil, once, List.eraseDups_cons, List.filter_nil,
      List.eraseDups_nil, List.map_append]
    congr 1
    · refine List.map_congr_left fun other member => ?_
      have different : key ≠ other := by
        rintro rfl
        exact absent (List.mem_eraseDups.mp member)
      simp [different]
    · have none : (pairs.filter fun pair => pair.1 == key) = [] := by
        rw [List.filter_eq_nil_iff]
        intro pair listed same
        exact absent (eq_of_beq same ▸ List.mem_map_of_mem listed)
      simp [none]

theorem queryFields_encoded {pairs encoded : List (Text × Text)} {before : List (Text × Text)}
    (encodes : List.Forall₂ (fun pair field =>
      PercentEncodes pair.1 field.1 ∧ PercentEncodes pair.2 field.2) pairs encoded) :
    queryFields (encoded.map fun pair => pair.1 ++ '=' :: pair.2) (grouped before) =
      .ok (grouped (before ++ pairs)) := by
  induction encodes generalizing before with
  | nil => simp [queryFields]
  | @cons pair field pairs encoded encode _ ih =>
    have plain : ∀ c ∈ field.1, decide (c ≠ '=') = true := fun c member => by
      simpa using fun same : c = '=' => encode.1.no_separator.2 (same ▸ member)
    have key : (field.1 ++ '=' :: field.2).takeWhile (· ≠ '=') = field.1 := by
      rw [List.takeWhile_append_of_pos plain]
      simp
    have value : ((field.1 ++ '=' :: field.2).dropWhile (· ≠ '=')).tail = field.2 := by
      rw [List.dropWhile_append_of_pos plain]
      simp
    rw [List.map_cons, queryFields, key, value, percentDecode_encoded encode.1,
      percentDecode_encoded encode.2]
    have later := @ih (before ++ [pair])
    rw [grouped_append, List.append_assoc] at later
    exact later

theorem fields_no_separator {pairs encoded : List (Text × Text)}
    (encodes : List.Forall₂ (fun pair field =>
      PercentEncodes pair.1 field.1 ∧ PercentEncodes pair.2 field.2) pairs encoded) :
    ∀ field ∈ encoded, '&' ∉ field.1 ∧ '&' ∉ field.2 := by
  induction encodes with
  | nil => simp
  | cons encode _ ih =>
    rw [List.forall_mem_cons]
    exact ⟨⟨encode.1.no_separator.1, encode.2.no_separator.1⟩, ih⟩

theorem parseQuery_encoded {pairs encoded : List (Text × Text)} {maxFields : Int}
    (encodes : List.Forall₂ (fun pair field =>
      PercentEncodes pair.1 field.1 ∧ PercentEncodes pair.2 field.2) pairs encoded)
    (within : pairs.length ≤ maxFields) :
    parseQuery (joinFields encoded) maxFields = .ok (grouped pairs) := by
  cases none : encoded with
  | nil =>
    subst none
    cases encodes
    rfl
  | cons field rest =>
    have nonempty : encoded ≠ [] := by simp [none]
    rw [← none]
    have split : (joinFields encoded).splitOn '&' = encoded.map fun pair => pair.1 ++ '=' :: pair.2 := by
      refine List.splitOn_intercalate '&' ?_ (by simpa using nonempty)
      intro piece member
      obtain ⟨field, listed, rfl⟩ := List.mem_map.mp member
      obtain ⟨keyPlain, valuePlain⟩ := fields_no_separator encodes field listed
      simp [keyPlain, valuePlain]
    have filled : joinFields encoded ≠ [] := by
      intro empty
      rw [empty] at split
      simp [none] at split
    rw [parseQuery, if_neg filled, split, if_neg (by rw [List.length_map, ← encodes.length_eq]; omega)]
    exact @queryFields_encoded pairs encoded [] encodes

/-- The escape grammar says what is decoded and to what, except where an escape that it does not
have is one that `int` reads. The encoding of pairs is read back in any case. Nothing is assumed
about the text. Of the pairs it is assumed that their fields are encodings, in any spelling that the
grammar has, and that there are not more than `parse_query` takes. -/
theorem percent_decoding_iff (value : Text) (plusSpace : Bool) (pairs encoded : List (Text × Text))
    (maxFields : Int) :
    (DecodedByGrammar value plusSpace ↔ ¬ LooselySpelled value plusSpace) ∧
      (List.Forall₂ (fun pair field => PercentEncodes pair.1 field.1 ∧ PercentEncodes pair.2 field.2)
        pairs encoded →
        pairs.length ≤ maxFields → parseQuery (joinFields encoded) maxFields = .ok (grouped pairs)) :=
  ⟨decodedByGrammar_iff value plusSpace, parseQuery_encoded⟩

/-- A sign in the place of the first digit. -/
theorem signed_escape_decoded : ¬ DecodedByGrammar "%+5".toList false := by
  rw [decodedByGrammar_iff, not_not]
  have bytes : utf8 "%+5".toList = [37, 43, 53] := by decide
  rw [LooselySpelled, bytes]
  refine ⟨fun escaped => ?_, [Char.ofNat 5], .escape (.inr (.plus rfl)) .nil⟩
  obtain ⟨first, second, isFirst, -, digit, -⟩ := escaped 0 rfl
  cases isFirst
  cases digit

end PccGateway
