import SeedGrammar.Text.Digits

namespace SeedGrammar
namespace Text

/-!
# Digits that are read back

The digits of a number are those of its base, so no other character is among them, and
reading them gives the number, `ofDecimal?_toDigits` and `ofHex?_upperHex`.
-/

theorem exists_digit {base n : Nat} (positive : 1 < base) {c : Char} (member : c ∈ base.toDigits n) :
    exists digit, digit < base ∧ c = digit.digitChar := by
  induction n using Nat.strongRecOn with
  | ind n inductionHypothesis =>
      rcases Nat.lt_or_ge n base with less | atLeast
      · rw [Nat.toDigits_of_lt_base less] at member
        exact ⟨n, less, List.mem_singleton.mp member⟩
      · rw [Nat.toDigits_of_base_le positive atLeast] at member
        rcases List.mem_append.mp member with early | last
        · exact inductionHypothesis _ (Nat.div_lt_self (by omega) positive) early
        · exact ⟨n % base, Nat.mod_lt _ (by omega), List.mem_singleton.mp last⟩

/-- Digits give the number that they were made from, if each of them gives its own
value. -/
theorem read_toDigits {base : Nat} (positive : 1 < base) (write : Char -> Char)
    (value? : Char -> Option Nat)
    (reads : forall digit, digit < base -> value? (write digit.digitChar) = some digit) (n : Nat) :
    ((base.toDigits n).map write).foldlM
      (fun value c => (value? c).map (base * value + ·)) 0 = some n := by
  induction n using Nat.strongRecOn with
  | ind n inductionHypothesis =>
      rcases Nat.lt_or_ge n base with less | atLeast
      · rw [Nat.toDigits_of_lt_base less, List.map_singleton, List.foldlM_cons, reads n less]
        simp
      · have smaller := inductionHypothesis (n / base) (Nat.div_lt_self (by omega) positive)
        rw [Nat.toDigits_of_base_le positive atLeast, List.map_append, List.foldlM_append, smaller,
          List.map_singleton]
        simp only [Option.bind_eq_bind, Option.bind_some, List.foldlM_cons, List.foldlM_nil]
        rw [reads _ (Nat.mod_lt _ (by omega))]
        simp [Nat.div_add_mod]

theorem decimalValue?_digitChar {digit : Nat} (less : digit < 10) :
    decimalValue? digit.digitChar = some digit := by
  revert digit
  decide

theorem hexValue?_digitChar {digit : Nat} (less : digit < 16) :
    hexValue? digit.digitChar.toUpper = some digit := by
  revert digit
  decide

theorem ofDecimal?_toDigits (n : Nat) : ofDecimal? (Nat.toDigits 10 n) = some n := by
  have read := read_toDigits (by decide : 1 < 10) id decimalValue? (fun _ => decimalValue?_digitChar) n
  rwa [List.map_id] at read

theorem ofHex?_upperHex (n : Nat) : ofHex? (upperHex n).toList = some n := by
  rw [upperHex, String.toList_ofList]
  exact read_toDigits (by decide) Char.toUpper hexValue? (fun _ => hexValue?_digitChar) n

theorem isDecimalDigit_of_mem {n : Nat} {c : Char} (member : c ∈ Nat.toDigits 10 n) :
    isDecimalDigit c = true := by
  rcases exists_digit (by decide) member with ⟨digit, less, rfl⟩
  rw [isDecimalDigit, decimalValue?_digitChar less]
  rfl

theorem toDigits_starts (n : Nat) :
    exists c more, Nat.toDigits 10 n = c :: more ∧ isDecimalDigit c = true := by
  cases isDigits : Nat.toDigits 10 n with
  | nil => exact absurd isDigits Nat.toDigits_ne_nil
  | cons c more =>
      exact ⟨c, more, rfl, isDecimalDigit_of_mem (isDigits ▸ List.mem_cons_self)⟩

/-- Only zero starts with the digit zero. -/
theorem head?_toDigits {n : Nat} (positive : 0 < n) : (Nat.toDigits 10 n).head? ≠ some '0' := by
  induction n using Nat.strongRecOn with
  | ind n inductionHypothesis =>
      rcases Nat.lt_or_ge n 10 with less | atLeast
      · have notZero : forall digit, digit < 10 -> 0 < digit -> some digit.digitChar ≠ some '0' := by
          decide
        rw [Nat.toDigits_of_lt_base less, List.head?_cons]
        exact notZero n less positive
      · have early := inductionHypothesis (n / 10) (Nat.div_lt_self positive (by decide))
          (Nat.div_pos atLeast (by decide))
        rcases toDigits_starts (n / 10) with ⟨c, more, isDigits, -⟩
        rw [isDigits] at early
        rw [Nat.toDigits_of_base_le (by decide) atLeast, isDigits]
        exact early

/-- Digits that end with a blank tell the number. -/
theorem toDigits_of_blank {n other : Nat} {rest : List Char}
    (starts : Nat.toDigits 10 n ++ [' '] <+: Nat.toDigits 10 other ++ ' ' :: rest) : n = other := by
  rcases starts with ⟨after, whole⟩
  have digits (n : Nat) (rest : List Char) :
      (Nat.toDigits 10 n ++ ' ' :: rest).takeWhile isDecimalDigit = Nat.toDigits 10 n := by
    rw [List.takeWhile_append_of_pos fun c member => isDecimalDigit_of_mem member,
      List.takeWhile_cons_of_neg (by decide), List.append_nil]
  have same : Nat.toDigits 10 n = Nat.toDigits 10 other := by
    rw [← digits n after, ← digits other rest, ← whole, List.append_assoc, List.singleton_append]
  apply Option.some_inj.mp
  rw [← ofDecimal?_toDigits n, same, ofDecimal?_toDigits]

/-- A hexadecimal digit has a value, which tells it from all other characters. -/
theorem hexValue?_of_mem {n : Nat} {c : Char} (member : c ∈ (upperHex n).toList) :
    (hexValue? c).isSome = true := by
  rw [upperHex, String.toList_ofList] at member
  rcases List.mem_map.mp member with ⟨original, isDigit, rfl⟩
  rcases exists_digit (by decide) isDigit with ⟨digit, less, rfl⟩
  rw [hexValue?_digitChar less]
  rfl

end Text
end SeedGrammar
