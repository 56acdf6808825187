import Mathlib.Data.List.DropRight
import Mathlib.Data.List.Basic
import Mathlib.Algebra.Ring.Nat
import Mathlib.Algebra.Ring.Int.Defs
import Mathlib.Order.Lattice

namespace PccGateway

abbrev Bytes := List UInt8

/-- A Python `str`: its code points. -/
abbrev Text := List Char

instance : LawfulBEq Text := inferInstance

/-- A decoded header field, name first. -/
abbrev Header := Text × Text

def crlf : Bytes := [13, 10]

def charByte (c : Char) : UInt8 := UInt8.ofNat c.toNat

def byteChar (b : UInt8) : Char := Char.ofNat b.toNat

/-- A bytes literal of the source. -/
def ascii (s : String) : Bytes := s.toList.map charByte

/-- The bytes of a literal, for evaluation: its characters are at hand, and it need not be decoded. -/
theorem ascii_ofList (chars : List Char) : ascii (String.ofList chars) = chars.map charByte := by
  rw [ascii, String.toList_ofList]

theorem ascii_append (s t : String) : ascii (s ++ t) = ascii s ++ ascii t := by
  rw [ascii, String.toList_append, List.map_append]
  rfl

/-- `bytes.decode("latin1")`, and the loop of `_latin1_text`. -/
def latin1Text (data : Bytes) : Text := data.map byteChar

/-- `str.encode("latin1")`; `none` is the `UnicodeEncodeError`. -/
def encodeLatin1 (text : Text) : Option Bytes :=
  if text.all (·.toNat ≤ 255) then some (text.map charByte) else none

/-- `str.encode("ascii")`; `none` is the `UnicodeEncodeError`. -/
def encodeAscii (text : Text) : Option Bytes :=
  if text.all (·.toNat ≤ 127) then some (text.map charByte) else none

/-- The white space that `str.strip()` removes. -/
def isSpace (c : Char) : Bool :=
  let n := c.toNat
  (9 ≤ n && n ≤ 13) || (28 ≤ n && n ≤ 32) || n == 0x85 || n == 0xA0 || n == 0x1680 ||
    (0x2000 ≤ n && n ≤ 0x200A) || n == 0x2028 || n == 0x2029 || n == 0x202F || n == 0x205F || n == 0x3000

/-- `" \t"`, the optional white space of HTTP. -/
def isOws (c : Char) : Bool := c == ' ' || c == '\t'

def stripBy (space : Char → Bool) (text : Text) : Text := (text.dropWhile space).rdropWhile space

/-- `str.strip()` without an argument. -/
def strip (text : Text) : Text := stripBy isSpace text

/-- `str.strip(" \t")`. -/
def stripOws (text : Text) : Text := stripBy isOws text

/-- `str.lower()` on the Latin-1 range, which is all that wire bytes decode to. -/
def lowerChar (c : Char) : Char :=
  let n := c.toNat
  if (65 ≤ n ∧ n ≤ 90) ∨ (0xC0 ≤ n ∧ n ≤ 0xDE ∧ n ≠ 0xD7) then Char.ofNat (n + 32) else c

def lower (text : Text) : Text := text.map lowerChar

/-- `str.upper()` on ASCII: it is applied to method tokens. -/
def upperChar (c : Char) : Char := if 97 ≤ c.toNat ∧ c.toNat ≤ 122 then Char.ofNat (c.toNat - 32) else c

def upper (text : Text) : Text := text.map upperChar

/-- `str(n)` of a natural number. -/
def decimal (n : Nat) : Text := Nat.toDigits 10 n

/-- `format(n, "x")`. -/
def hexadecimal (n : Nat) : Text := Nat.toDigits 16 n

theorem toNat_ofNat {n : Nat} (small : n < 0xD800) : (Char.ofNat n).toNat = n := by
  have valid : n.isValidChar := Or.inl small
  rw [Char.ofNat, dif_pos valid]
  rfl

theorem toNat_byteChar (b : UInt8) : (byteChar b).toNat = b.toNat := by
  have small := b.toNat_lt
  exact toNat_ofNat (by omega)

theorem toNat_charByte {c : Char} (small : c.toNat ≤ 255) : (charByte c).toNat = c.toNat := by
  rw [charByte, UInt8.toNat_ofNat']
  omega

@[simp] theorem charByte_byteChar (b : UInt8) : charByte (byteChar b) = b := by
  apply UInt8.toNat_inj.mp
  have small := b.toNat_lt
  rw [toNat_charByte (by rw [toNat_byteChar]; omega), toNat_byteChar]

theorem byteChar_charByte {c : Char} (small : c.toNat ≤ 255) : byteChar (charByte c) = c := by
  apply Char.toNat_inj.mp
  rw [toNat_byteChar, toNat_charByte small]

@[simp] theorem map_charByte_latin1Text (data : Bytes) : (latin1Text data).map charByte = data := by
  simp [latin1Text, Function.comp_def]

theorem latin1Text_all (data : Bytes) : (latin1Text data).all (·.toNat ≤ 255) = true := by
  simp only [latin1Text, List.all_map, List.all_eq_true, Function.comp_apply, decide_eq_true_eq,
    toNat_byteChar]
  intro b _
  have := b.toNat_lt
  omega

theorem encodeLatin1_eq_some_iff {text : Text} {data : Bytes} :
    encodeLatin1 text = some data ↔ text = latin1Text data := by
  constructor
  · intro encoded
    unfold encodeLatin1 at encoded
    split at encoded
    · rename_i small
      cases encoded
      simp only [List.all_eq_true, decide_eq_true_eq] at small
      rw [latin1Text, List.map_map, List.map_congr_left (g := id)]
      · simp
      · intro c member
        exact byteChar_charByte (small c member)
    · cases encoded
  · rintro rfl
    rw [encodeLatin1, if_pos (latin1Text_all data), map_charByte_latin1Text]

theorem encodeAscii_latin1 {text : Text} {data : Bytes} (encoded : encodeAscii text = some data) :
    text = latin1Text data := by
  rw [← encodeLatin1_eq_some_iff]
  unfold encodeAscii at encoded
  split at encoded
  · rename_i small
    rw [← encoded, encodeLatin1, if_pos]
    simp only [List.all_eq_true, decide_eq_true_eq] at small ⊢
    intro c member
    have := small c member
    omega
  · cases encoded

/-- Neither end of `text` is in `space`. -/
def Trimmed (space : Char → Bool) (text : Text) : Prop :=
  (∀ c ∈ text.head?, space c = false) ∧ ∀ c ∈ text.getLast?, space c = false

theorem dropWhile_trimmed {space : Char → Bool} {text : Text} (head : ∀ c ∈ text.head?, space c = false) :
    text.dropWhile space = text := by
  cases text with
  | nil => rfl
  | cons c rest => simp [head c (by simp)]

theorem stripBy_trimmed (space : Char → Bool) (text : Text) : Trimmed space (stripBy space text) := by
  have last : ∀ c ∈ (stripBy space text).getLast?, space c = false := by
    intro c member
    obtain ⟨nonempty, rfl⟩ := List.mem_getLast?_eq_getLast member
    exact Bool.eq_false_iff.mpr (List.rdropWhile_last_not space (text.dropWhile space) nonempty)
  refine ⟨fun c member => ?_, last⟩
  -- the first character left by the first pass is there still, as the second takes from the end
  obtain ⟨rest, split⟩ := List.rdropWhile_prefix space (l := text.dropWhile space)
  have first : (text.dropWhile space).head? = some c := by
    have member : (stripBy space text).head? = some c := member
    rw [← split]
    unfold stripBy at member
    simp [List.head?_append, member]
  have := List.head?_dropWhile_not space text
  simpa [first] using this

theorem stripBy_decompose (space : Char → Bool) (text : Text) : ∃ before after,
    text = before ++ stripBy space text ++ after ∧ (∀ c ∈ before, space c = true) ∧ ∀ c ∈ after,
    space c = true := by
  refine ⟨text.takeWhile space, (text.dropWhile space).rtakeWhile space, ?_, ?_, ?_⟩
  · rw [List.append_assoc, stripBy, List.rdropWhile_append_rtakeWhile, List.takeWhile_append_dropWhile]
  · exact fun c member => List.mem_takeWhile_imp member
  · exact fun c member => List.mem_rtakeWhile_imp member

/-- What `strip` keeps is determined by what surrounds it. -/
theorem stripBy_append {space : Char → Bool} {before text after : Text}
    (before_space : ∀ c ∈ before, space c = true)
    (after_space : ∀ c ∈ after, space c = true) (trimmed : Trimmed space text) :
    stripBy space (before ++ text ++ after) = text := by
  have tail : (text ++ after).rdropWhile space = text := by
    have reversed : ∀ c ∈ text.reverse.head?, space c = false := by simpa using trimmed.2
    rw [List.rdropWhile, List.reverse_append, List.dropWhile_append_of_pos (by simpa using after_space),
      dropWhile_trimmed reversed, List.reverse_reverse]
  rw [stripBy, List.append_assoc, List.dropWhile_append_of_pos before_space]
  cases text with
  | nil =>
    have nothing : after.dropWhile space = [] := by simpa [List.dropWhile_eq_nil_iff] using after_space
    simp [nothing]
  | cons c rest =>
    have kept : space c = false := trimmed.1 c (by simp)
    rw [dropWhile_trimmed (by simpa using kept)]
    exact tail

end PccGateway
