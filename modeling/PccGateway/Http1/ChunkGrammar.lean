import PccGateway.Http1.Digits
import Mathlib.Data.Nat.Digits.Defs
import Mathlib.Data.UInt

namespace PccGateway
open Search

/-- A `tchar`: a letter, a digit or one of the punctuation marks a token may have. -/
def TokenByte (b : UInt8) : Prop :=
  (byteChar b).isAlphanum = true ∨ byteChar b ∈ "!#$%&'*+-.^_`|~".toList

/-- `1*tchar`. -/
def Token (data : Bytes) : Prop := data ≠ [] ∧ ∀ b ∈ data, TokenByte b

/-- What a backslash may escape: HTAB, SP, printable ASCII and the bytes above it. -/
def EscapedByte (b : UInt8) : Prop := b = 9 ∨ (32 ≤ b ∧ b ≤ 126) ∨ 128 ≤ b

/-- What stands for itself between the quotes. -/
def QuotedByte (b : UInt8) : Prop := EscapedByte b ∧ b ≠ 34 ∧ b ≠ 92

inductive QuotedBody : Bytes → Prop
  | nil : QuotedBody []
  | text {current : UInt8} {rest : Bytes} :
      QuotedByte current → QuotedBody rest → QuotedBody (current :: rest)
  | escape {next : UInt8} {rest : Bytes} :
      EscapedByte next → QuotedBody rest → QuotedBody (92 :: next :: rest)

/-- `";" token [ "=" ( token / quoted-string ) ]`. -/
inductive ChunkExtension : Bytes → Prop
  | name {name : Bytes} : Token name → ChunkExtension (59 :: name)
  | token {name value : Bytes} : Token name → Token value → ChunkExtension (59 :: (name ++ 61 :: value))
  | quoted {name body : Bytes} : Token name → QuotedBody body →
      ChunkExtension (59 :: (name ++ 61 :: 34 :: (body ++ [34])))

/-- The hexadecimal digit `b`, of either case, has the value `digit`. -/
def HexValue (b : UInt8) (digit : Nat) : Prop :=
  digit < 16 ∧ (byteChar b = digit.digitChar ∨ byteChar b = digit.digitChar.toUpper)

/-- `1*16HEXDIG *chunk-ext`, the digits denoting `n`. -/
def ChunkSizeLine (line : Bytes) (n : Nat) : Prop :=
  ∃ digits values extensions, line = digits ++ List.flatten extensions ∧
    1 ≤ digits.length ∧ digits.length ≤ 16 ∧ List.Forall₂ HexValue digits values ∧
    n = Nat.ofDigits 16 values.reverse ∧ ∀ extension ∈ extensions, ChunkExtension extension

/-- One pass of the extension loop over a line that is not at its end: what is left behind it. -/
def extensionPass (first : UInt8) (rest : Bytes) : Except Exn Bytes :=
  if first ≠ 59 then raiseHttp1 400 "bad-chunk-extension" "invalid chunk extension"
  else
    let isName (b : UInt8) : Bool := b != 59 && b != 61
    if !isToken (rest.takeWhile isName) then
      raiseHttp1 400 "bad-chunk-extension" "invalid chunk extension name"
    else
      match rest.dropWhile isName with
      | [] => .ok []
      | 59 :: more => .ok (59 :: more)
      | _ :: [] => raiseHttp1 400 "bad-chunk-extension" "empty chunk extension value"
      | _ :: 34 :: more =>
        let span := quotedSpan false more
        if !quotedChunkExtensionValue (34 :: more.take span) then
          raiseHttp1 400 "bad-chunk-extension" "invalid quoted chunk extension value"
        else
          match more.drop span with
          | [] => .ok []
          | next :: later =>
            if next ≠ 59 then
              raiseHttp1 400 "bad-chunk-extension" "bytes follow quoted chunk extension value"
            else .ok (next :: later)
      | _ :: value =>
        if !isToken (value.takeWhile (· != 59)) then
          raiseHttp1 400 "bad-chunk-extension" "invalid chunk extension value"
        else .ok (value.dropWhile (· != 59))

theorem chunkExtensions_nil (fuel : Nat) : chunkExtensions fuel [] = .ok () := by
  cases fuel <;> rfl

theorem chunkExtensions_cons (fuel : Nat) (first : UInt8) (rest : Bytes) :
    chunkExtensions (fuel + 1) (first :: rest) = extensionPass first rest >>= chunkExtensions fuel := by
  rw [chunkExtensions]
  fun_cases extensionPass first rest <;>
    simp_all +zetaDelta [raiseHttp1, bind, Except.bind, chunkExtensions_nil,
      -List.dropWhile_eq_nil_iff, -List.drop_eq_nil_iff]

theorem isTchar_iff (b : UInt8) : isTchar b = true ↔ TokenByte b := by
  have all : ∀ n : Fin 256, isTchar (UInt8.ofFin n) = true ↔
      (byteChar (UInt8.ofFin n)).isAlphanum = true ∨
        byteChar (UInt8.ofFin n) ∈ "!#$%&'*+-.^_`|~".toList := by
    -- the marks are listed once, not for each byte
    rw [show "!#$%&'*+-.^_`|~".toList = _ from String.toList_ofList]
    decide +kernel
  exact all b.toFin

theorem isToken_iff (data : Bytes) : isToken data = true ↔ Token data := by
  simp [isToken, Token, isTchar_iff]

theorem hexDigit_sound : ∀ n : Fin 256, ∀ digit ∈ hexDigit (UInt8.ofFin n),
    HexValue (UInt8.ofFin n) digit := by
  unfold HexValue
  decide +kernel

theorem hexDigit_toUpper :
    ∀ digit < 16, hexDigit (charByte digit.digitChar.toUpper) = some digit := by decide

theorem hexDigit_eq_some_iff (b : UInt8) (digit : Nat) : hexDigit b = some digit ↔ HexValue b digit := by
  constructor
  · exact hexDigit_sound b.toFin digit
  · rintro ⟨bound, lower | upper⟩
    · rw [← charByte_byteChar b, lower]
      exact hexDigit_digitChar digit bound
    · rw [← charByte_byteChar b, upper]
      exact hexDigit_toUpper digit bound

/-- The digits accepted are those of the grammar, and they are read with the most significant first. -/
theorem chunkSizeDigits_eq_ok_iff {digits : Bytes} {size n : Nat} :
    chunkSizeDigits digits size = .ok n ↔
      ∃ values, List.Forall₂ HexValue digits values ∧
      n = values.foldl (fun total digit => total * 16 + digit) size := by
  induction digits generalizing size with
  | nil => simp [chunkSizeDigits, eq_comm]
  | cons current rest ih =>
    rw [chunkSizeDigits]
    constructor
    · intro run
      split at run
      · rename_i digit found
        obtain ⟨values, matched, same⟩ := ih.mp run
        exact ⟨digit :: values, .cons ((hexDigit_eq_some_iff _ _).mp found) matched, same⟩
      · simp [raiseHttp1] at run
    · rintro ⟨_, matched, same⟩
      cases matched with
      | cons shown matched =>
        rw [(hexDigit_eq_some_iff _ _).mpr shown]
        exact ih.mpr ⟨_, matched, same⟩

theorem foldl_eq_ofDigits (values : List Nat) :
    values.foldl (fun total digit => total * 16 + digit) 0 = Nat.ofDigits 16 values.reverse := by
  rw [Nat.ofDigits_eq_foldr, List.foldr_reverse]
  congr 1
  funext total digit
  simp only [Nat.cast_id]
  omega

theorem quotedText_iff (body : Bytes) : quotedText body = true ↔ QuotedBody body := by
  have plain (b : UInt8) : (b == 9 || b == 32 || b == 33 || (35 ≤ b && b ≤ 91) ||
      (93 ≤ b && b ≤ 126) || 128 ≤ b) = true ↔ QuotedByte b := by
    simp only [QuotedByte, EscapedByte]
    grind
  have escaped (b : UInt8) : (b == 9 || b == 32 || (33 ≤ b && b ≤ 126) || 128 ≤ b) = true ↔
      EscapedByte b := by
    simp only [EscapedByte]
    grind
  fun_induction quotedText body with
  | case1 => simp [QuotedBody.nil]
  | case2 current =>
    rw [Bool.and_eq_true, plain]
    constructor
    · rintro ⟨_, shown⟩
      exact .text shown .nil
    · intro derived
      cases derived with
      | text shown _ => exact ⟨by simpa using shown.2.2, shown⟩
  | case3 current next rest slash ih =>
    obtain rfl : current = 92 := by simpa using slash
    rw [Bool.and_eq_true, escaped]
    constructor
    · rintro ⟨shown, accepted⟩
      exact .escape shown (ih.mp accepted)
    · intro derived
      cases derived with
      | text shown _ => exact absurd rfl shown.2.2
      | escape shown derived => exact ⟨shown, ih.mpr derived⟩
  | case4 current next rest slash ih =>
    rw [Bool.and_eq_true, plain]
    constructor
    · rintro ⟨shown, accepted⟩
      exact .text shown (ih.mp accepted)
    · intro derived
      cases derived with
      | text shown derived => exact ⟨shown, ih.mpr derived⟩
      | escape => simp at slash

/-- The scanner that looks for the closing quote stops where the grammar does. -/
theorem quotedSpan_body {body : Bytes} (derived : QuotedBody body) (later : Bytes) :
    quotedSpan false (body ++ 34 :: later) = body.length + 1 := by
  induction derived with
  | nil => simp [quotedSpan]
  | text shown _ ih => simp [quotedSpan, shown.2.1, shown.2.2, ih]
  | escape _ _ ih => simp [quotedSpan, ih]

/-- The second scanner accepts exactly a quoted string of the grammar. -/
theorem quotedChunkExtensionValue_iff (value : Bytes) :
    quotedChunkExtensionValue (34 :: value) = true ↔ ∃ body, value = body ++ [34] ∧ QuotedBody body := by
  constructor
  · intro accepted
    simp only [quotedChunkExtensionValue, Bool.and_eq_true, List.tail_cons, quotedText_iff,
      beq_iff_eq] at accepted
    obtain ⟨⟨⟨long, _⟩, last⟩, derived⟩ := accepted
    have filled : value ≠ [] := by
      rintro rfl
      simp at long
    rw [List.getLast?_cons_of_ne_nil filled] at last
    exact ⟨_, (List.dropLast_append_getLast? 34 last).symm, derived⟩
  · rintro ⟨body, rfl, derived⟩
    simp [quotedChunkExtensionValue, (quotedText_iff body).mpr derived, List.getLast?_cons]

/-- The end of the line or the semicolon of a next extension. -/
def Boundary (line : Bytes) : Prop := ∀ b ∈ line.head?, b = 59

theorem Token.absent {data : Bytes} (token : Token data) {b : UInt8} (member : b ∈ data) :
    b ≠ 59 ∧ b ≠ 61 ∧ b ≠ 34 := by
  have shown := (isTchar_iff b).mpr (token.2 b member)
  refine ⟨?_, ?_, ?_⟩ <;>
  · rintro rfl
    revert shown
    decide

/-- What one pass leaves stands behind an extension of the grammar. -/
theorem extensionPass_sound {first : UInt8} {rest next : Bytes}
    (run : extensionPass first rest = .ok next) :
    ∃ extension, ChunkExtension extension ∧ first :: rest = extension ++ next ∧ Boundary next := by
  unfold extensionPass at run
  simp only [ite_raiseHttp1_eq_ok, Bool.not_eq_true', Bool.not_eq_false, isToken_iff, not_not] at run
  obtain ⟨rfl, named, run⟩ := run
  have whole := List.takeWhile_append_dropWhile (p := fun b => b != 59 && b != 61) (l := rest)
  generalize rest.takeWhile (fun b => b != 59 && b != 61) = name at named whole
  have stopped : ∀ b ∈ (rest.dropWhile fun b => b != 59 && b != 61).head?, b = 59 ∨ b = 61 := by
    intro b here
    have := head_dropWhile here
    grind
  generalize (rest.dropWhile fun b => b != 59 && b != 61) = behind at run whole stopped
  subst whole
  split at run
  · cases run
    exact ⟨_, .name named, rfl, by simp [Boundary]⟩
  · cases run
    exact ⟨_, .name named, rfl, by simp [Boundary]⟩
  · simp [raiseHttp1] at run
  · rename_i other more elsewhere
    obtain rfl : other = 61 := (stopped other rfl).resolve_left elsewhere
    simp only [ite_raiseHttp1_eq_ok, Bool.not_eq_false, quotedChunkExtensionValue_iff] at run
    obtain ⟨⟨body, scanned, derived⟩, run⟩ := run
    have joined := List.take_append_drop (quotedSpan false more) more
    rw [scanned] at joined
    generalize more.drop (quotedSpan false more) = later at run joined
    subst joined
    split at run
    · cases run
      exact ⟨_, .quoted named derived, by simp, by simp [Boundary]⟩
    · simp only [ite_raiseHttp1_eq_ok, not_not] at run
      obtain ⟨rfl, run⟩ := run
      cases run
      exact ⟨_, .quoted named derived, by simp, by simp [Boundary]⟩
  · rename_i other value elsewhere _ _
    obtain rfl : other = 61 := (stopped other rfl).resolve_left elsewhere
    simp only [ite_raiseHttp1_eq_ok, Bool.not_eq_false, isToken_iff] at run
    obtain ⟨valued, run⟩ := run
    cases run
    refine ⟨_, .token named valued, ?_, ?_⟩
    · rw [List.cons_append, List.append_assoc, List.cons_append, List.takeWhile_append_dropWhile]
    · intro b here
      simpa using head_dropWhile here

/-- A pass over an extension of the grammar leaves what stands behind it. -/
theorem extensionPass_complete {extension next : Bytes} {first : UInt8} {rest : Bytes}
    (derived : ChunkExtension extension) (split : first :: rest = extension ++ next)
    (boundary : Boundary next) :
    extensionPass first rest = .ok next := by
  have scan {name behind : Bytes} (token : Token name) (stop : ∀ b ∈ behind.head?, b = 59 ∨ b = 61) :
      (name ++ behind).takeWhile (fun b => b != 59 && b != 61) = name ∧
        (name ++ behind).dropWhile (fun b => b != 59 && b != 61) = behind := by
    refine scan_stretch (fun b member => ?_) (fun b here => ?_)
    · simpa using ⟨(token.absent member).1, (token.absent member).2.1⟩
    · rcases stop b here with rfl | rfl <;> rfl
  cases derived with
  | @name name token =>
    rw [List.cons_append] at split
    obtain ⟨rfl, rfl⟩ := List.cons.inj split
    obtain ⟨taken, left⟩ := scan token fun b here => .inl (boundary b here)
    simp only [extensionPass, taken, left, (isToken_iff name).mpr token]
    cases next with
    | nil => rfl
    | cons b later =>
      obtain rfl := boundary b rfl
      rfl
  | @token name value token valued =>
    rw [List.cons_append, List.append_assoc, List.cons_append] at split
    obtain ⟨rfl, rfl⟩ := List.cons.inj split
    obtain ⟨taken, left⟩ := @scan name (61 :: (value ++ next)) token (by simp)
    simp only [extensionPass, taken, left, (isToken_iff name).mpr token]
    obtain ⟨takenValue, leftValue⟩ := @scan_stretch _ (· != 59) value next
      (fun b member => by simpa using (valued.absent member).1) (fun b here => by simp [boundary b here])
    obtain ⟨head, tail, rfl⟩ := List.exists_cons_of_ne_nil valued.1
    have unquoted : head ≠ 34 := (valued.absent (List.mem_cons_self)).2.2
    rw [List.cons_append] at takenValue leftValue
    simp [takenValue, leftValue, (isToken_iff _).mpr valued, unquoted]
  | @quoted name body token derived =>
    rw [List.cons_append, List.append_assoc, List.cons_append, List.cons_append, List.append_assoc] at split
    obtain ⟨rfl, rfl⟩ := List.cons.inj split
    obtain ⟨taken, left⟩ := @scan name (61 :: 34 :: (body ++ ([34] ++ next))) token (by simp)
    simp only [extensionPass, taken, left, (isToken_iff name).mpr token]
    have span : quotedSpan false (body ++ ([34] ++ next)) = (body ++ [34]).length := by
      rw [List.length_append]
      exact quotedSpan_body derived next
    have accepted := (quotedChunkExtensionValue_iff _).mpr ⟨body, rfl, derived⟩
    have cut : (body ++ ([34] ++ next)).take (quotedSpan false (body ++ ([34] ++ next))) =
        body ++ [34] := by
      rw [span, ← List.append_assoc, List.take_left]
    have kept : (body ++ ([34] ++ next)).drop (quotedSpan false (body ++ ([34] ++ next))) = next := by
      rw [span, ← List.append_assoc, List.drop_left]
    generalize body ++ ([34] ++ next) = more at cut kept
    cases next with
    | nil => simp [cut, kept, accepted]
    | cons b later =>
      obtain rfl := boundary b rfl
      simp [cut, kept, accepted]

/-- The loop makes its passes over shorter and shorter lines. -/
theorem extensionPass_shorter {first : UInt8} {rest next : Bytes}
    (run : extensionPass first rest = .ok next) :
    next.length ≤ rest.length := by
  obtain ⟨extension, derived, split, _⟩ := extensionPass_sound run
  have starts : 0 < extension.length := by cases derived <;> simp
  have := congrArg List.length split
  simp only [List.length_cons, List.length_append] at this
  omega

theorem boundary_flatten {extensions : List Bytes}
    (derived : ∀ extension ∈ extensions, ChunkExtension extension) :
    Boundary extensions.flatten := by
  cases extensions with
  | nil => simp [Boundary]
  | cons extension extensions =>
    rw [List.flatten_cons]
    cases derived extension (by simp) <;> simp [Boundary]

/-- As many passes as the line has bytes read it to its end. -/
theorem chunkExtensions_eq_ok_iff {fuel : Nat} {line : Bytes} (enough : line.length ≤ fuel) :
    chunkExtensions fuel line = .ok () ↔
      ∃ extensions, line = List.flatten extensions ∧ ∀ extension ∈ extensions,
      ChunkExtension extension := by
  induction fuel generalizing line with
  | zero =>
    obtain rfl : line = [] := List.length_eq_zero_iff.mp (by omega)
    exact iff_of_true rfl ⟨[], rfl, by simp⟩
  | succ fuel ih =>
    cases line with
    | nil => exact iff_of_true rfl ⟨[], rfl, by simp⟩
    | cons first rest =>
      rw [chunkExtensions_cons, bind_eq_ok]
      rw [List.length_cons] at enough
      constructor
      · rintro ⟨next, pass, run⟩
        have shorter := extensionPass_shorter pass
        obtain ⟨extension, derived, split, _⟩ := extensionPass_sound pass
        obtain ⟨extensions, rfl, all⟩ := (ih (by omega)).mp run
        exact ⟨extension :: extensions, split, by simpa using ⟨derived, all⟩⟩
      · rintro ⟨_ | ⟨extension, extensions⟩, split, all⟩
        · simp at split
        · rw [List.flatten_cons] at split
          have derived := all extension (by simp)
          have later : ∀ extension ∈ extensions, ChunkExtension extension := fun other member =>
            all other (by simp [member])
          have pass := extensionPass_complete derived split (boundary_flatten later)
          have shorter := extensionPass_shorter pass
          exact ⟨_, pass, (ih (by omega)).mpr ⟨extensions, rfl, later⟩⟩

/-- The first semicolon of a line ends its digits. -/
theorem sizeEnd_eq {digits rest : Bytes} (plain : 59 ∉ digits) (boundary : Boundary rest) :
    (findSub [59] (digits ++ rest)).getD (digits ++ rest).length = digits.length := by
  cases rest with
  | nil => simp [findSub_cons_none plain]
  | cons b later =>
    obtain rfl := boundary b rfl
    have found := findSub_delimited (show Delimited [59] digits from delimited_of_not_mem plain) later
    rw [List.append_assoc, List.singleton_append] at found
    rw [found, Option.getD_some]

theorem sizeEnd_le (line : Bytes) : (findSub [59] line).getD line.length ≤ line.length := by
  cases found : findSub [59] line with
  | none => simp
  | some i =>
    have := findSub_length found
    rw [Option.getD_some]
    omega

theorem HexValue.ne_semicolon {b : UInt8} {digit : Nat} (shown : HexValue b digit) : b ≠ 59 := by
  rintro rfl
  have found := (hexDigit_eq_some_iff _ _).mpr shown
  simp [hexDigit] at found

theorem semicolon_not_mem {digits : Bytes} {values : List Nat}
    (shown : List.Forall₂ HexValue digits values) :
    59 ∉ digits := by
  induction shown with
  | nil => simp
  | cons value _ ih => simpa using ⟨value.ne_semicolon.symm, ih⟩

theorem parseChunkSizeLine_eq_ok_iff (line : Bytes) (n : Nat) :
    parseChunkSizeLine line = .ok n ↔ ChunkSizeLine line n := by
  unfold parseChunkSizeLine
  simp only [ite_raiseHttp1_eq_ok, bind_eq_ok, not_or, chunkSizeDigits_eq_ok_iff, pure, Except.pure,
    Except.ok.injEq]
  constructor
  · rintro ⟨⟨filled, short⟩, size, ⟨values, shown, denoted⟩, ⟨⟩, accepted, rfl⟩
    have inside := sizeEnd_le line
    obtain ⟨extensions, split, derived⟩ := (chunkExtensions_eq_ok_iff (by simp)).mp accepted
    refine ⟨_, values, extensions, ?_, ?_, ?_, shown, denoted.trans (foldl_eq_ofDigits values), derived⟩
    · rw [← split, List.take_append_drop]
    · rw [List.length_take_of_le inside]
      omega
    · rw [List.length_take_of_le inside]
      omega
  · rintro ⟨digits, values, extensions, rfl, filled, short, shown, rfl, derived⟩
    rw [sizeEnd_eq (semicolon_not_mem shown) (boundary_flatten derived), List.take_left, List.drop_left]
    exact ⟨⟨by omega, by omega⟩, _, ⟨values, shown, (foldl_eq_ofDigits values).symm⟩, (),
      (chunkExtensions_eq_ok_iff (by simp)).mpr ⟨extensions, rfl, derived⟩, rfl⟩

theorem extensionPass_error {first : UInt8} {rest : Bytes} {error : Exn}
    (run : extensionPass first rest = .error error) : ∃ raised, error = .http1 raised := by
  revert run
  fun_cases extensionPass first rest <;> intro run
  all_goals first
    | exact ⟨_, (Except.error.inj run).symm⟩
    | simp at run

theorem chunkExtensions_error {fuel : Nat} {line : Bytes} {error : Exn}
    (run : chunkExtensions fuel line = .error error) : ∃ raised, error = .http1 raised := by
  induction fuel generalizing line with
  | zero => simp [chunkExtensions] at run
  | succ fuel ih =>
    cases line with
    | nil => simp [chunkExtensions] at run
    | cons first rest =>
      rw [chunkExtensions_cons, bind_eq_error] at run
      rcases run with raised | ⟨next, _, run⟩
      · exact extensionPass_error raised
      · exact ih run

theorem chunkSizeDigits_error {digits : Bytes} {size : Nat} {error : Exn}
    (run : chunkSizeDigits digits size = .error error) : ∃ raised, error = .http1 raised := by
  induction digits generalizing size with
  | nil => simp [chunkSizeDigits] at run
  | cons current rest ih =>
    rw [chunkSizeDigits] at run
    split at run
    · exact ih run
    · exact ⟨_, (Except.error.inj run).symm⟩

/-- The parser raises nothing but `Http1Error`. -/
theorem parseChunkSizeLine_error {line : Bytes} {error : Exn}
    (run : parseChunkSizeLine line = .error error) :
    ∃ raised, error = .http1 raised := by
  unfold parseChunkSizeLine at run
  dsimp only at run
  split at run
  · exact ⟨_, (Except.error.inj run).symm⟩
  · rw [bind_eq_error] at run
    rcases run with raised | ⟨size, _, run⟩
    · exact chunkSizeDigits_error raised
    · rw [bind_eq_error] at run
      rcases run with raised | ⟨_, _, run⟩
      · exact chunkExtensions_error raised
      · cases run

/-- `_parse_chunk_size_line` accepts exactly the lines of the grammar with the number that their
digits denote, raises `Http1Error` for every other line, and its extension loop cannot go on
forever. Nothing is assumed about the line. The grammar is stated on bytes, without the parser, and
that the loop ends is said of its passes. -/
theorem chunk_size_grammar (line : Bytes) :
    (∀ n, parseChunkSizeLine line = .ok n ↔ ChunkSizeLine line n) ∧
    ((∀ n, ¬ ChunkSizeLine line n) → ∃ raised, parseChunkSizeLine line = .error (.http1 raised)) ∧
    WellFounded fun next before : Bytes =>
      ∃ first rest, before = first :: rest ∧ extensionPass first rest = .ok next := by
  refine ⟨parseChunkSizeLine_eq_ok_iff line, ?_, ?_⟩
  · intro refused
    cases run : parseChunkSizeLine line with
    | ok n => exact absurd ((parseChunkSizeLine_eq_ok_iff line n).mp run) (refused n)
    | error error =>
      obtain ⟨raised, rfl⟩ := parseChunkSizeLine_error run
      exact ⟨raised, rfl⟩
  · refine Subrelation.wf ?_ (measure List.length).wf
    rintro next before ⟨first, rest, rfl, pass⟩
    exact Nat.lt_succ_of_le (extensionPass_shorter pass)

end PccGateway
