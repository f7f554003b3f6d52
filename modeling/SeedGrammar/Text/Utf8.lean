namespace SeedGrammar
namespace Text

/-!
# Characters addressed by UTF-8 byte offsets

Positions in a text count bytes of its UTF-8 form, while the text itself is a
sequence of characters.  The functions here walk the characters and subtract
their encoded widths, so an offset that falls inside a character is met as
such: it yields no suffix, instead of a suffix that starts with half a
character.  The encoded bytes themselves are needed only where a literal is
compared against a position without regard to character boundaries.
-/

/-- The UTF-8 encoding of a sequence of characters. -/
def bytes (chars : List Char) : List UInt8 :=
  chars.flatMap String.utf8EncodeChar

/-- The number of bytes that the encoding of the characters takes. -/
def byteLength : List Char -> Nat
  | [] => 0
  | c :: rest => c.utf8Size + byteLength rest

/-- The characters from a byte offset on.  There are none when the offset
falls inside a character or past the end. -/
def dropBytes : Nat -> List Char -> Option (List Char)
  | 0, chars => some chars
  | _ + 1, [] => none
  | offset + 1, c :: rest =>
    if c.utf8Size ≤ offset + 1 then dropBytes (offset + 1 - c.utf8Size) rest else none

/-- The characters before a byte offset.  There are none when the offset
falls inside a character or past the end. -/
def takeBytes : Nat -> List Char -> Option (List Char)
  | 0, _ => some []
  | _ + 1, [] => none
  | offset + 1, c :: rest =>
    if c.utf8Size ≤ offset + 1 then
      (takeBytes (offset + 1 - c.utf8Size) rest).map (c :: ·)
    else none

/-- The text between two byte offsets.  Both are moved into the text first;
if one of them then falls inside a character, nothing is cut out. -/
def slice (text : String) (start stop : Nat) : String :=
  let stop := min stop (byteLength text.toList)
  let start := min start stop
  match dropBytes start text.toList with
  | none => ""
  | some rest =>
    match takeBytes (stop - start) rest with
    | none => ""
    | some cut => String.ofList cut

/-- The character at a byte offset, with its width. -/
def charAt (text : String) (offset : Nat) : Option (Char × Nat) :=
  match dropBytes offset text.toList with
  | some (c :: _) => some (c, c.utf8Size)
  | _ => none

/-- Whether the encoding of the characters starts with some bytes. -/
def hasBytes (wanted : List UInt8) : List Char -> Bool
  | [] => wanted.isEmpty
  | c :: rest =>
    let code := String.utf8EncodeChar c
    if wanted.length ≤ code.length then wanted.isPrefixOf code
    else code.isPrefixOf wanted && hasBytes (wanted.drop code.length) rest

/-- Whether some bytes stand at a byte offset, which need not be the start of
a character. -/
def hasBytesAt (wanted : List UInt8) : Nat -> List Char -> Bool
  | 0, chars => hasBytes wanted chars
  | _ + 1, [] => false
  | offset + 1, c :: rest =>
    if c.utf8Size ≤ offset + 1 then hasBytesAt wanted (offset + 1 - c.utf8Size) rest
    else
      let code := (String.utf8EncodeChar c).drop (offset + 1)
      if wanted.length ≤ code.length then wanted.isPrefixOf code
      else code.isPrefixOf wanted && hasBytes (wanted.drop code.length) rest

/-- The character with a given code point, if the code point is a scalar
value. -/
def scalar? (code : Nat) : Option Char :=
  if code.isValidChar then some (Char.ofNat code) else none

@[simp] theorem byteLength_nil : byteLength [] = 0 := rfl

@[simp] theorem byteLength_cons (c : Char) (rest : List Char) :
    byteLength (c :: rest) = c.utf8Size + byteLength rest := rfl

theorem byteLength_append (first second : List Char) :
    byteLength (first ++ second) = byteLength first + byteLength second := by
  induction first with
  | nil => simp
  | cons c rest ih => simp [ih, Nat.add_assoc]

/-- The width count agrees with the bytes that are actually written. -/
theorem length_bytes (chars : List Char) : (bytes chars).length = byteLength chars := by
  induction chars with
  | nil => rfl
  | cons c rest ih =>
    simp only [bytes, List.flatMap_cons, List.length_append, byteLength_cons] at ih ⊢
    rw [ih, String.length_utf8EncodeChar]

/-- Every character takes at least one byte, so an offset past the end has
no suffix and an offset at the end has the empty one. -/
theorem dropBytes_byteLength (first second : List Char) :
    dropBytes (byteLength first) (first ++ second) = some second := by
  induction first with
  | nil => cases second <;> rfl
  | cons c rest ih =>
    have positive := c.utf8Size_pos
    obtain ⟨width, widthEq⟩ : ∃ width, c.utf8Size = width + 1 :=
      ⟨c.utf8Size - 1, by omega⟩
    simp only [byteLength_cons, List.cons_append, widthEq, Nat.add_right_comm width 1]
    rw [dropBytes, if_pos (by omega)]
    simpa [widthEq, Nat.add_right_comm] using ih

/-- A prefix of two lists in a row is a prefix of the first, or the first and
a prefix of the second. -/
theorem prefix_append_iff {α : Type} {wanted first second : List α} :
    wanted <+: first ++ second ↔
      if wanted.length ≤ first.length then wanted <+: first
      else first <+: wanted ∧ wanted.drop first.length <+: second := by
  split
  · next short =>
    refine ⟨fun whole => ?_, fun part => part.trans (List.prefix_append first second)⟩
    exact List.prefix_of_prefix_length_le whole (List.prefix_append first second) short
  · next long =>
    constructor
    · intro whole
      have firstPart := List.prefix_of_prefix_length_le (List.prefix_append first second) whole
        (by omega)
      obtain ⟨rest, rfl⟩ := firstPart
      exact ⟨List.prefix_append first rest, by simpa [List.prefix_append_right_inj] using whole⟩
    · rintro ⟨⟨rest, rfl⟩, rest_prefix⟩
      simpa [List.prefix_append_right_inj] using rest_prefix

theorem bytes_cons (c : Char) (rest : List Char) :
    bytes (c :: rest) = String.utf8EncodeChar c ++ bytes rest := rfl

theorem hasBytes_iff {wanted : List UInt8} {chars : List Char} :
    hasBytes wanted chars = true ↔ wanted <+: bytes chars := by
  induction chars generalizing wanted with
  | nil => simp [hasBytes, bytes]
  | cons c rest ih =>
    rw [bytes_cons, prefix_append_iff, hasBytes]
    split
    · exact List.isPrefixOf_iff_prefix
    · simp [List.isPrefixOf_iff_prefix, ih]

theorem hasBytesAt_iff {wanted : List UInt8} {offset : Nat} {chars : List Char} :
    hasBytesAt wanted offset chars = true ↔
      offset ≤ byteLength chars ∧ wanted <+: (bytes chars).drop offset := by
  induction chars generalizing offset with
  | nil => cases offset <;> simp [hasBytesAt, hasBytes, bytes]
  | cons c rest ih =>
    cases offset with
    | zero => simp [hasBytesAt, hasBytes_iff]
    | succ offset =>
      have width := String.length_utf8EncodeChar c
      rw [hasBytesAt, bytes_cons, List.drop_append, byteLength_cons, width]
      split
      · next beyond =>
        have past : (String.utf8EncodeChar c).drop (offset + 1) = [] :=
          List.drop_eq_nil_of_le (by omega)
        rw [ih, past, List.nil_append]
        exact and_congr_left fun _ => by omega
      · next inside =>
        have within : offset + 1 ≤ c.utf8Size + byteLength rest := by omega
        have whole : offset + 1 - c.utf8Size = 0 := by omega
        rw [whole, List.drop_zero, prefix_append_iff]
        simp only [within, true_and]
        split
        · exact List.isPrefixOf_iff_prefix
        · simp [List.isPrefixOf_iff_prefix, hasBytes_iff]

end Text
end SeedGrammar
