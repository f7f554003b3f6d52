import SeedGrammar.Json.Reader
import SeedGrammar.Proofs.Text.Digits

namespace SeedGrammar
namespace Json

open Text

/-!
# Written JSON is read back

Strings, numbers and null are read back from the characters that they are
written with, whatever follows them in a record.  A string is read character
by character: each character is spelled by one unit, `Spells`, be it itself,
a short escape or an escape by code.  A number ends where the record goes on,
with a comma or a closing brace.  On top of these stand the members of an
object, each a key without escapes and a value, `readMembers_last` and
`readMembers_more`.
-/

/-! ## Strings -/

/-- A unit is read from some characters, and stands for a character. -/
structure Spells (unit : JsonUnit) (written : List Char) (c : Char) : Prop where
  isRead : forall rest, readUnits (written ++ rest) =
    (readUnits rest).map fun (units, rest) => (unit :: units, rest)
  stands : forall units, textChars? (unit :: units) = (textChars? units).map (c :: ·)

/-- Whether a character stands for itself inside a string. -/
def isPlain (c : Char) : Bool :=
  c ≠ '"' && c ≠ '\\' && 0x20 ≤ c.toNat

theorem isPlain_iff {c : Char} :
    isPlain c = true <-> c ≠ '"' ∧ c ≠ '\\' ∧ 0x20 ≤ c.toNat := by
  simp [isPlain, and_assoc]

theorem spells_plain {c : Char} (plain : isPlain c = true) : Spells (.char c) [c] c where
  isRead rest := by
    rcases isPlain_iff.mp plain with ⟨notQuote, notBackslash, visible⟩
    rw [List.singleton_append, readUnits]
    · exact if_neg (not_or.mpr ⟨Nat.not_lt.mpr visible, notBackslash⟩)
    · exact notQuote
    · exact fun _ _ _ _ _ isBackslash => absurd isBackslash notBackslash
    · exact fun _ _ isBackslash => absurd isBackslash notBackslash
  stands _ := rfl

theorem spells_short {letter c : Char} (isShort : shortEscape? letter = some c) :
    Spells (.char c) ['\\', letter] c where
  isRead rest := by
    rw [List.cons_append, List.singleton_append, readUnits, isShort]
    · cases readUnits rest <;> rfl
    · rintro _ _ _ _ _ rfl
      cases isShort
  stands _ := rfl

theorem spells_code {a b d e c : Char} (isCode : ofHex? [a, b, d, e] = some c.toNat)
    (control : c.toNat < 0x20) : Spells (.escape c.toNat) ['\\', 'u', a, b, d, e] c where
  isRead rest := by
    simp only [List.cons_append, List.nil_append, readUnits, isCode]
    cases readUnits rest <;> rfl
  stands units := by
    -- A control is no half of a surrogate pair.
    have notHigh : isHighSurrogate c.toNat = false := by
      simp only [isHighSurrogate, Bool.and_eq_false_iff, decide_eq_false_iff_not]
      omega
    have notLow : isLowSurrogate c.toNat = false := by
      simp only [isLowSurrogate, Bool.and_eq_false_iff, decide_eq_false_iff_not]
      omega
    rw [textChars?.eq_def]
    simp only [notHigh, notLow, Bool.false_eq_true, if_false, Char.ofNat_toNat]

/-- The code of a control is written with four digits that give it back. -/
theorem controlText {code : Nat} (control : code < 0x20) :
    (if code < 0x10 then "\\u000" ++ lowerHex code else "\\u00" ++ lowerHex code).toList =
        ['\\', 'u', '0', '0', (code / 16).digitChar, (code % 16).digitChar] ∧
      ofHex? ['0', '0', (code / 16).digitChar, (code % 16).digitChar] = some code := by
  revert code
  decide

/-- The letters of the short escapes that are written, with what they escape. -/
def shortEscapes : List (Char × Char) :=
  [('"', '"'), ('\\', '\\'), ('b', '\x08'), ('f', '\x0c'), ('n', '\n'), ('r', '\r'), ('t', '\t')]

theorem shortEscapes_written : forall escape, escape ∈ shortEscapes ->
    shortEscape? escape.1 = some escape.2 ∧
      (stringChar escape.2).toList = ['\\', escape.1] := by
  decide

/-- Every character is spelled by one unit. -/
theorem stringChar_spelled (c : Char) : exists unit, Spells unit (stringChar c).toList c := by
  by_cases isShort : c ∈ shortEscapes.map Prod.snd
  · rcases List.mem_map.mp isShort with ⟨⟨letter, _⟩, isIn, rfl⟩
    rcases shortEscapes_written _ isIn with ⟨isEscape, written⟩
    exact ⟨_, written ▸ spells_short isEscape⟩
  · simp only [shortEscapes, List.map_cons, List.map_nil, List.mem_cons, List.not_mem_nil,
      or_false, not_or] at isShort
    rcases isShort with ⟨notQuote, notBackslash, notB, notF, notN, notR, notT⟩
    rw [stringChar, if_neg notQuote, if_neg notBackslash, if_neg notB, if_neg notF, if_neg notN,
      if_neg notR, if_neg notT]
    by_cases control : c.toNat < 0x20
    · rcases controlText control with ⟨written, isCode⟩
      rw [if_pos control, written]
      exact ⟨_, spells_code isCode control⟩
    · have visible := Nat.not_lt.mp control
      rw [if_neg (by omega), if_neg control, Char.toString, String.toList_singleton]
      exact ⟨_, spells_plain (isPlain_iff.mpr ⟨notQuote, notBackslash, visible⟩)⟩

/-- A written string is read up to its closing quote, and has its characters. -/
theorem readUnits_written (chars : List Char) :
    exists units, textChars? units = some chars ∧ forall rest,
      readUnits (chars.flatMap (fun c => (stringChar c).toList) ++ '"' :: rest) =
        some (units, rest) := by
  induction chars with
  | nil => exact ⟨[], rfl, fun _ => rfl⟩
  | cons c chars inductionHypothesis =>
      rcases inductionHypothesis with ⟨units, stand, areRead⟩
      rcases stringChar_spelled c with ⟨unit, spells⟩
      refine ⟨unit :: units, ?_, fun rest => ?_⟩
      · rw [spells.stands, stand, Option.map_some]
      · rw [List.flatMap_cons, List.append_assoc, spells.isRead, areRead, Option.map_some]

/-- A key without anything to escape is read as it stands. -/
theorem readUnits_key {key : List Char} (plain : key.all isPlain = true) (rest : List Char) :
    readUnits (key ++ '"' :: rest) = some (key.map .char, rest) := by
  induction key with
  | nil => rfl
  | cons c key inductionHypothesis =>
      rw [List.all_cons, Bool.and_eq_true] at plain
      rcases plain with ⟨plainChar, plainKey⟩
      have spelled := (spells_plain plainChar).isRead (key ++ '"' :: rest)
      rw [List.singleton_append, inductionHypothesis plainKey] at spelled
      exact spelled

theorem text?_key (key : String) : text? (key.toList.map .char) = some key := by
  have areChars (chars : List Char) : textChars? (chars.map .char) = some chars := by
    induction chars with
    | nil => rfl
    | cons c chars inductionHypothesis =>
        rw [List.map_cons, textChars?, inductionHypothesis, Option.map_some]
  rw [text?, areChars, Option.map_some, String.ofList_toList]

/-! ## Numbers -/

/-- Where a value ends inside a record: at a comma or a closing brace. -/
def Closes (rest : List Char) : Prop :=
  exists c more, rest = c :: more ∧ (c = ',' ∨ c = '}')

theorem readWhole_digits (n : Nat) {rest : List Char} (closes : Closes rest) :
    readWhole (Nat.toDigits 10 n ++ rest) = some (Nat.toDigits 10 n, rest) := by
  rcases Nat.eq_zero_or_pos n with rfl | positive
  · rfl
  · rcases toDigits_starts n with ⟨c, more, isDigits, isDigit⟩
    have notZero : c ≠ '0' := fun isZero =>
      head?_toDigits positive (by rw [isDigits, isZero, List.head?_cons])
    rcases closes with ⟨ending, others, rfl, isEnding⟩
    have areDigits : forall d, d ∈ more -> isDecimalDigit d = true := fun d isIn =>
      isDecimalDigit_of_mem (isDigits ▸ List.mem_cons_of_mem c isIn)
    have noDigit : isDecimalDigit ending ≠ true := by
      rcases isEnding with rfl | rfl <;> decide
    rw [isDigits, List.cons_append, readWhole, if_neg notZero, if_pos isDigit]
    simp only [spanDigits]
    rw [List.takeWhile_append_of_pos areDigits, List.dropWhile_append_of_pos areDigits,
      List.takeWhile_cons_of_neg noDigit, List.dropWhile_cons_of_neg noDigit, List.append_nil]

/-- Behind the digits there is neither a fraction nor an exponent. -/
theorem Closes.isWhole {rest : List Char} (closes : Closes rest) :
    readFraction rest = some ([], rest) ∧ readExponent rest = some ([], rest) := by
  rcases closes with ⟨ending, more, rfl, rfl | rfl⟩ <;> exact ⟨rfl, rfl⟩

theorem readNumber_digits (n : Nat) {rest : List Char} (closes : Closes rest) :
    readNumber (Nat.toDigits 10 n ++ rest) = some (Nat.toDigits 10 n, rest) := by
  have areRead := readWhole_digits n closes
  rcases toDigits_starts n with ⟨c, more, isDigits, isDigit⟩
  have notSign : c ≠ '-' := by
    rintro rfl
    cases isDigit
  rw [isDigits, List.cons_append] at areRead ⊢
  rw [readNumber]
  · simp only [areRead, closes.isWhole.1, closes.isWhole.2, Option.map_some, List.nil_append,
      List.append_nil]
  · exact fun _ isSigned => notSign (List.cons.inj isSigned).1

/-! ## Values -/

/-- What a value is written with is read back from its first character on,
wherever it ends inside a record. -/
structure Written (text : List Char) (value : Json) : Prop where
  starts : forall rest, skipBlank (text ++ rest) = text ++ rest
  isRead : forall fuel {rest}, Closes rest ->
    readValue (fuel + 1) (text ++ rest) = some (value, rest)

theorem null_written : Written "null".toList .null where
  starts _ := rfl
  isRead _ _ _ := rfl

theorem decimal_written (n : Nat) :
    Written (decimal n).toList (.number (Nat.toDigits 10 n)) where
  starts rest := by
    rcases toDigits_starts n with ⟨c, more, isDigits, isDigit⟩
    rw [decimal, String.toList_ofList, isDigits, List.cons_append, skipBlank]
    refine List.dropWhile_cons_of_neg ?_
    rw [decide_eq_true_eq]
    rintro (rfl | rfl | rfl | rfl) <;> cases isDigit
  isRead fuel rest closes := by
    have areRead := readNumber_digits n closes
    rcases toDigits_starts n with ⟨c, more, isDigits, isDigit⟩
    rw [decimal, String.toList_ofList]
    rw [isDigits, List.cons_append] at areRead ⊢
    rw [readValue, areRead]
    · rfl
    · exact List.cons_ne_nil c _
    -- No other kind of value starts with a digit.
    all_goals
      rintro _ isOther
      cases isOther
      cases isDigit

theorem string_written (text : String) :
    exists units, text? units = some text ∧ Written (stringText text).toList (.string units) := by
  rcases readUnits_written text.toList with ⟨units, stand, areRead⟩
  have isText : (stringText text).toList =
      '"' :: (text.toList.flatMap (fun c => (stringChar c).toList) ++ ['"']) := by
    rw [stringText, String.toList_append, String.toList_append, String.toList_join,
      List.flatMap_map]
    rfl
  refine ⟨units, ?_, ?_, ?_⟩
  · rw [text?, stand, Option.map_some, String.ofList_toList]
  · intro rest
    rw [isText]
    rfl
  · intro fuel rest _
    rw [isText, List.cons_append, List.append_assoc, List.singleton_append, readValue, areRead]
    rfl

/-! ## Members -/

/-- A member with a key that has nothing to escape, and what follows it. -/
def memberText (key value rest : List Char) : List Char :=
  '"' :: (key ++ '"' :: ':' :: (value ++ rest))

theorem skipBlank_memberText (key value rest : List Char) :
    skipBlank (memberText key value rest) = memberText key value rest :=
  rfl

section Members

variable {key text : List Char} {value : Json}

theorem readMembers_last (plain : key.all isPlain = true)
    (written : Written text value) (fuel : Nat) (rest : List Char) :
    readMembers (fuel + 2) (memberText key text ('}' :: rest)) =
      some ([(key.map .char, value)], rest) := by
  have isEnd : Closes ('}' :: rest) := ⟨_, _, rfl, Or.inr rfl⟩
  have colon (chars : List Char) : skipBlank (':' :: chars) = ':' :: chars := rfl
  have brace : skipBlank ('}' :: rest) = '}' :: rest := rfl
  simp only [memberText, readMembers, readUnits_key plain, colon, written.starts,
    written.isRead fuel isEnd, brace]

theorem readMembers_more (plain : key.all isPlain = true)
    (written : Written text value) (fuel : Nat) (key' text' rest : List Char) :
    readMembers (fuel + 2) (memberText key text (',' :: memberText key' text' rest)) =
      (readMembers (fuel + 1) (memberText key' text' rest)).map fun (members, rest) =>
        ((key.map .char, value) :: members, rest) := by
  have isEnd : Closes (',' :: memberText key' text' rest) := ⟨_, _, rfl, Or.inl rfl⟩
  have colon (chars : List Char) : skipBlank (':' :: chars) = ':' :: chars := rfl
  have comma (chars : List Char) : skipBlank (',' :: chars) = ',' :: chars := rfl
  rw [memberText, readMembers, readUnits_key plain]
  simp only [colon, written.starts, written.isRead fuel isEnd, comma, skipBlank_memberText]

/-- An object with members is read as its members. -/
theorem readValue_object (fuel : Nat) (key text rest : List Char) :
    readValue (fuel + 1) ('{' :: memberText key text rest) =
      (readMembers fuel (memberText key text rest)).map fun (members, rest) =>
        (.object members, rest) := by
  rw [readValue, skipBlank_memberText]
  rfl

end Members

end Json
end SeedGrammar
