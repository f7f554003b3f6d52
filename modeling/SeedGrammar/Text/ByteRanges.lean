import SeedGrammar.Text.CodeRanges

namespace SeedGrammar
namespace Text

/-!
# Ranges of code points as sequences of byte ranges

The UTF-8 encodings of a range of code points are the words of a few
sequences of byte ranges, one range for each byte, in which every choice of
bytes is the encoding of some code point in the range.  To get there, the
range is cut where the number of bytes changes, and then at multiples of the
blocks that one, two and three continuation bytes span: a piece either lies
within one block or consists of whole blocks.  The sequences come in
ascending order.
-/

/-- An inclusive range of bytes. -/
abbrev ByteRange := UInt8 × UInt8

/-- The code points with encodings of one length, and the blocks that are
spanned by the continuation bytes of such an encoding. -/
structure EncodingLength where
  first : Nat
  last : Nat
  blocks : List Nat

/-- The lengths of an encoding, from one byte to four. -/
def encodingLengths : List EncodingLength :=
  [⟨0, 0x7F, []⟩, ⟨0x80, 0x7FF, [0x40]⟩, ⟨0x800, 0xFFFF, [0x40, 0x1000]⟩,
   ⟨0x10000, 0x10FFFF, [0x40, 0x1000, 0x40000]⟩]

/-- Cut a range so that every piece lies within one block or consists of
whole blocks. -/
def cutAt (block : Nat) (range : Nat × Nat) : CodeRanges :=
  if range.1 / block = range.2 / block then [range]
  else
    let first := (range.1 + block - 1) / block * block
    let stop := (range.2 + 1) / block * block
    (if range.1 < first then [(range.1, first - 1)] else []) ++
      (if first < stop then [(first, stop - 1)] else []) ++
      (if stop ≤ range.2 then [(stop, range.2)] else [])

/-- The part of a range with encodings of one length, in pieces. -/
def EncodingLength.pieces (length : EncodingLength) (range : Nat × Nat) : CodeRanges :=
  let low := max range.1 length.first
  let high := min range.2 length.last
  if low ≤ high then
    length.blocks.foldl (fun pieces block => pieces.flatMap (cutAt block)) [(low, high)]
  else []

/-- The byte ranges between the encodings of the ends of a piece. -/
def byteRanges (piece : Nat × Nat) : List ByteRange :=
  (String.utf8EncodeChar (Char.ofNat piece.1)).zip (String.utf8EncodeChar (Char.ofNat piece.2))

/-- The sequences of byte ranges that encode a range of code points. -/
def byteSequences (range : Nat × Nat) : List (List ByteRange) :=
  (encodingLengths.flatMap (·.pieces range)).map byteRanges

end Text
end SeedGrammar
