import PccGateway.Http1.FieldSection

namespace PccGateway
open Search

theorem mem_toDigits {base n : Nat} (valid : 1 < base) {c : Char} (member : c ∈ Nat.toDigits base n) :
    ∃ digit < base, c = digit.digitChar := by
  induction n using Nat.strongRecOn with
  | ind n ih =>
    rw [Nat.toDigits_eq_if valid] at member
    split at member
    · rename_i small
      exact ⟨n, small, by simpa using member⟩
    · rename_i large
      rcases List.mem_append.mp member with front | last
      · exact ih (n / base) (Nat.div_lt_self (by omega) valid) front
      · exact ⟨n % base, Nat.mod_lt _ (by omega), by simpa using last⟩

theorem chunkSizeDigits_append (front back : Bytes) (size : Nat) :
    chunkSizeDigits (front ++ back) size = chunkSizeDigits front size >>= chunkSizeDigits back := by
  induction front generalizing size with
  | nil => rfl
  | cons current rest ih =>
    simp only [List.cons_append, chunkSizeDigits]
    split
    · exact ih _
    · rfl

theorem hexDigit_digitChar : ∀ digit < 16, hexDigit (charByte digit.digitChar) = some digit := by decide

/-- `format(n, "x")` is read back as `n`. -/
theorem chunkSizeDigits_hexadecimal (n : Nat) :
    chunkSizeDigits ((hexadecimal n).map charByte) 0 = .ok n := by
  unfold hexadecimal
  induction n using Nat.strongRecOn with
  | ind n ih =>
    rw [Nat.toDigits_eq_if (by decide)]
    split
    · rename_i small
      simp [chunkSizeDigits, hexDigit_digitChar n small]
    · rename_i large
      rw [List.map_append, chunkSizeDigits_append, ih (n / 16) (Nat.div_lt_self (by omega) (by decide))]
      have digit := hexDigit_digitChar (n % 16) (Nat.mod_lt _ (by decide))
      simp only [bind, Except.bind, List.map_cons, List.map_nil, chunkSizeDigits, digit, Except.ok.injEq]
      omega

theorem charByte_digitChar :
    ∀ digit < 16, charByte digit.digitChar ≠ 59 ∧ charByte digit.digitChar ≠ 13 := by decide

/-- The size line that both encoders write. -/
theorem sizeLine_hexadecimal {n : Nat} (small : n < 16 ^ 16) :
    SizeLine ((hexadecimal n).map charByte) n := by
  have short : (hexadecimal n).length ≤ 16 := (Nat.length_toDigits_le_iff (by decide) (by decide)).mpr small
  have long : 0 < (hexadecimal n).length := by simp [hexadecimal, Nat.length_toDigits_pos]
  have absent {b : UInt8} (other : ∀ digit < 16, charByte digit.digitChar ≠ b) :
      b ∉ (hexadecimal n).map charByte := by
    intro member
    obtain ⟨c, listed, same⟩ := List.mem_map.mp member
    obtain ⟨digit, bound, rfl⟩ := mem_toDigits (by decide) listed
    exact other digit bound same
  have noExtension : findSub [59] ((hexadecimal n).map charByte) = none :=
    findSub_cons_none (absent fun digit bound => (charByte_digitChar digit bound).1)
  refine ⟨delimited_of_not_mem (absent fun digit bound => (charByte_digitChar digit bound).2), ?_, ?_⟩
  · rw [List.length_map]
    omega
  · unfold parseChunkSizeLine
    rw [noExtension]
    simp only [Option.getD_none, List.length_map]
    rw [if_neg (by omega), show (hexadecimal n).length = ((hexadecimal n).map charByte).length by simp,
      List.take_length, List.drop_length, chunkSizeDigits_hexadecimal]
    cases ((hexadecimal n).map charByte).length <;> rfl

/-- The digits of a number, read as `int` reads them. -/
theorem foldl_decimal (n : Nat) :
    (decimal n).foldl (fun total digit => total * 10 + (digit.toNat - 48)) 0 = n := by
  unfold decimal
  induction n using Nat.strongRecOn with
  | ind n ih =>
    rw [Nat.toDigits_eq_if (by decide)]
    split
    · rename_i small
      simp [Nat.toNat_digitChar_of_lt_ten small]
    · rename_i large
      rw [List.foldl_append, ih (n / 10) (Nat.div_lt_self (by omega) (by decide))]
      simp only [List.foldl_cons, List.foldl_nil,
        Nat.toNat_digitChar_of_lt_ten (Nat.mod_lt n (show 0 < 10 by decide))]
      omega

theorem parseDecimal_decimal {n : Nat} (short : (decimal n).length ≤ 4300) :
    parseDecimal (decimal n) = .ok n := by
  unfold parseDecimal
  rw [if_neg (by omega), foldl_decimal]

theorem foldl_charByte {digits : Text} (valid : ∀ c ∈ digits, c.toNat ≤ 127) (start : Nat) :
    (digits.map charByte).foldl (fun total digit => total * 10 + (digit.toNat - 48)) start =
      digits.foldl (fun total digit => total * 10 + (digit.toNat - 48)) start := by
  rw [List.foldl_map]
  induction digits generalizing start with
  | nil => rfl
  | cons digit digits ih =>
    have small := valid digit (by simp)
    rw [List.foldl_cons, List.foldl_cons, toNat_charByte (by omega), ih fun c member =>
      valid c (by simp [member])]

theorem decimal_isDigit {n : Nat} {c : Char} (member : c ∈ decimal n) : ∃ digit < 10, c = digit.digitChar :=
  mem_toDigits (by decide) member

theorem digitChar_plain : ∀ digit < 10, digit.digitChar.toNat ≤ 127 ∧ isOws digit.digitChar = false ∧
    isBadValueByte (charByte digit.digitChar) = false ∧ digit.digitChar ≠ ',' ∧
    (digit.digitChar < '0' || '9' < digit.digitChar) = false := by decide

theorem decimal_plain {n : Nat} {c : Char} (member : c ∈ decimal n) : c.toNat ≤ 127 ∧ isOws c = false ∧
    isBadValueByte (charByte c) = false ∧ c ≠ ',' ∧ (c < '0' || '9' < c) = false := by
  obtain ⟨digit, bound, rfl⟩ := decimal_isDigit member
  exact digitChar_plain digit bound

/-- A number is a field value that is read back as it was written. -/
theorem decimal_value (n : Nat) : latin1Text ((decimal n).map charByte) = decimal n ∧
    containsBadValueByte ((decimal n).map charByte) = false ∧ stripOws (decimal n) = decimal n := by
  refine ⟨?_, ?_, stripOws_trimmed ⟨?_, ?_⟩⟩
  · refine encodeLatin1_eq_some_iff.mp ?_ |>.symm
    rw [encodeLatin1, if_pos]
    simp only [List.all_eq_true, decide_eq_true_eq]
    intro c member
    have := (decimal_plain member).1
    omega
  · simp only [containsBadValueByte, List.any_map, List.any_eq_false, Function.comp_apply, Bool.not_eq_true]
    intro c member
    exact (decimal_plain member).2.2.1
  · intro c first
    exact (decimal_plain (List.mem_of_mem_head? first)).2.1
  · intro c last
    exact (decimal_plain (List.mem_of_getLast? last)).2.1

/-- A number passes the checks that both codecs make of a `Content-Length`. -/
theorem decimal_digits (n : Nat) : (decimal n).contains ',' = false ∧ decimal n ≠ [] ∧
    (decimal n).any (fun c => c < '0' || '9' < c) = false := by
  refine ⟨?_, List.length_pos_iff.mp Nat.length_toDigits_pos, ?_⟩
  · simp only [List.contains_eq_mem, decide_eq_false_iff_not]
    intro member
    exact (decimal_plain member).2.2.2.1 rfl
  · simp only [List.any_eq_false, Bool.not_eq_true]
    intro c member
    exact (decimal_plain member).2.2.2.2

/-- A run of digits denotes a number of no more digits. -/
theorem foldl_digits_lt {digits : Text} (valid : ∀ c ∈ digits, '0' ≤ c ∧ c ≤ '9') (start : Nat) :
    digits.foldl (fun total digit => total * 10 + (digit.toNat - 48)) start <
      (start + 1) * 10 ^ digits.length := by
  induction digits generalizing start with
  | nil => simp
  | cons digit rest ih =>
    have bound : digit.toNat - 48 ≤ 9 := by
      have := (valid digit (by simp)).2
      have : digit.toNat ≤ 57 := this
      omega
    have later := ih (fun c member => valid c (by simp [member])) (start * 10 + (digit.toNat - 48))
    rw [List.foldl_cons, List.length_cons, Nat.pow_succ]
    refine later.trans_le ?_
    calc (start * 10 + (digit.toNat - 48) + 1) * 10 ^ rest.length
        ≤ ((start + 1) * 10) * 10 ^ rest.length := Nat.mul_le_mul_right _ (by omega)
      _ = (start + 1) * (10 ^ rest.length * 10) := by rw [Nat.mul_assoc, Nat.mul_comm 10]

end PccGateway
