namespace SeedGrammar
namespace Text

/-!
# Digits

Numbers are written in decimal, or in hexadecimal with letters of either
case, always without leading zeros.  Reading accepts the digits of a base up
to sixteen with letters of either case and says nothing about length: the
reader of a format decides how many digits it admits.
-/

/-- The decimal digits of a number. -/
def decimal (n : Nat) : String :=
  String.ofList (Nat.toDigits 10 n)

/-- The hexadecimal digits of a number, with small letters. -/
def lowerHex (n : Nat) : String :=
  String.ofList (Nat.toDigits 16 n)

/-- The hexadecimal digits of a number, with capital letters. -/
def upperHex (n : Nat) : String :=
  String.ofList ((Nat.toDigits 16 n).map Char.toUpper)

/-- The value of a hexadecimal digit. -/
def hexValue? (c : Char) : Option Nat :=
  if '0' ≤ c ∧ c ≤ '9' then some (c.toNat - '0'.toNat)
  else if 'a' ≤ c ∧ c ≤ 'f' then some (c.toNat - 'a'.toNat + 10)
  else if 'A' ≤ c ∧ c ≤ 'F' then some (c.toNat - 'A'.toNat + 10)
  else none

/-- The value of a decimal digit. -/
def decimalValue? (c : Char) : Option Nat :=
  if '0' ≤ c ∧ c ≤ '9' then some (c.toNat - '0'.toNat) else none

/-- The number that a sequence of hexadecimal digits writes, most significant
digit first.  The empty sequence writes zero. -/
def ofHex? (digits : List Char) : Option Nat :=
  digits.foldlM (fun value c => (hexValue? c).map (16 * value + ·)) 0

/-- The number that a sequence of decimal digits writes, most significant
digit first.  The empty sequence writes zero. -/
def ofDecimal? (digits : List Char) : Option Nat :=
  digits.foldlM (fun value c => (decimalValue? c).map (10 * value + ·)) 0

/-- Whether a character is one of the ten ASCII digits. -/
def isDecimalDigit (c : Char) : Bool :=
  (decimalValue? c).isSome

end Text
end SeedGrammar
