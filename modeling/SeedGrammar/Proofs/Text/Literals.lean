import SeedGrammar.Proofs.Text.Offsets

namespace SeedGrammar

/-!
# Literals stand where they can be cut out

Whether a literal stands at a position is asked in two ways.  One cuts out the part
that the literal would be and compares the two.  The other compares units where they
are and does not cut anything.  Both give the same answer at every position of every
input, `matchesAt_eq_standsAt`.

For a text this is not obvious.  A cut is made of characters, so a cut that starts or
stops inside a character is empty, while bytes can be compared anywhere.  But the
first byte of a character is unlike the bytes inside one, so a literal with a byte
stands only between characters, and then it ends between characters as well.  A
literal without bytes stands inside a character too, where the cut is empty for want
of a boundary.

For elements nothing is assumed of their equality but that it is symmetric and
transitive.  An element may well differ from itself, and then a sequence with it
stands nowhere, not even in itself.
-/

namespace Text

/-! ## Where characters start -/

/-- The first byte of a character is unlike those inside one, so it is found at
boundaries only. -/
theorem isBoundary_of_firstByte {chars : List Char} {offset : Nat} {byte : UInt8}
    (isThere : (bytes chars)[offset]? = some byte) (isFirst : byte.IsUTF8FirstByte) :
    IsBoundary chars offset := by
  induction chars generalizing offset with
  | nil => cases isThere
  | cons c rest inductionHypothesis =>
      have width := String.length_utf8EncodeChar c
      rw [bytes_cons] at isThere
      by_cases inside : offset < (String.utf8EncodeChar c).length
      · rw [List.getElem?_append_left inside, List.getElem?_eq_getElem inside] at isThere
        rw [<- Option.some.inj isThere, UInt8.isUTF8FirstByte_getElem_utf8EncodeChar] at isFirst
        rw [isFirst]
        exact isBoundary_zero (c :: rest)
      · rw [List.getElem?_append_right (Nat.le_of_not_lt inside), width] at isThere
        rcases inductionHypothesis isThere with ⟨before, after, isRest, length⟩
        refine ⟨c :: before, after, congrArg (c :: ·) isRest, ?_⟩
        rw [byteLength_cons, length]
        omega

/-- A literal with a character in it stands at boundaries only. -/
theorem isBoundary_of_matchesAt {text literal : String} {offset : Nat} {c : Char}
    {rest : List Char} (isLiteral : literal.toList = c :: rest)
    (stands : matchesAt text offset literal = true) : IsBoundary text.toList offset := by
  have positive : 0 < (String.utf8EncodeChar c).length :=
    List.length_pos_iff.mpr String.utf8EncodeChar_ne_nil
  rcases (matchesAt_iff.mp stands).2 with ⟨more, isWhole⟩
  have isThere : (bytes text.toList)[offset]? = some (String.utf8EncodeChar c)[0] := by
    rw [<- Nat.add_zero offset, <- List.getElem?_drop, <- isWhole, isLiteral, bytes_cons,
      List.append_assoc, List.getElem?_append_left positive, List.getElem?_eq_getElem positive]
  exact isBoundary_of_firstByte isThere UInt8.isUTF8FirstByte_getElem_zero_utf8EncodeChar

/-! ## Cuts -/

/-- What is cut from the start of some characters stands there. -/
theorem takeBytes_prefix {offset : Nat} {chars cut : List Char}
    (taken : takeBytes offset chars = some cut) : cut <+: chars := by
  induction chars generalizing offset cut with
  | nil =>
      cases offset with
      | zero => exact Option.some.inj taken ▸ List.nil_prefix
      | succ offset => cases taken
  | cons c rest inductionHypothesis =>
      cases offset with
      | zero => exact Option.some.inj taken ▸ List.nil_prefix
      | succ offset =>
          rw [takeBytes] at taken
          split at taken
          · rcases Option.map_eq_some_iff.mp taken with ⟨shorter, isShorter, rfl⟩
            exact List.cons_prefix_cons.mpr ⟨rfl, inductionHypothesis isShorter⟩
          · cases taken

/-- Nothing is cut out between an offset and itself, also inside a character. -/
theorem slice_self (text : String) (offset : Nat) : slice text offset offset = "" := by
  have within := Nat.min_eq_right (Nat.min_le_left offset (byteLength text.toList))
  simp only [slice, within, Nat.sub_self, takeBytes]
  cases dropBytes (min offset (byteLength text.toList)) text.toList <;> rfl

/-- A cut with a character in it starts at a boundary, and is found there. -/
theorem slice_found {text cut : String} {start stop : Nat} (inside : stop ≤ byteLength text.toList)
    (ordered : start ≤ stop) (isCut : slice text start stop = cut) (notEmpty : cut ≠ "") :
    bytes cut.toList <+: (bytes text.toList).drop start := by
  simp only [slice, Nat.min_eq_left inside, Nat.min_eq_left ordered] at isCut
  cases dropped : dropBytes start text.toList with
  | none =>
      rw [dropped] at isCut
      exact absurd isCut.symm notEmpty
  | some rest =>
      rw [dropped] at isCut
      cases taken : takeBytes (stop - start) rest with
      | none =>
          simp only [taken] at isCut
          exact absurd isCut.symm notEmpty
      | some chars =>
          simp only [taken] at isCut
          rcases dropBytes_eq_some.mp dropped with ⟨before, isText, rfl⟩
          rcases takeBytes_prefix taken with ⟨after, rfl⟩
          rw [<- isCut, isText, bytes_append, <- length_bytes before, List.drop_left,
            String.toList_ofList, bytes_append]
          exact List.prefix_append ..

theorem bytes_injective {first second : List Char} (same : bytes first = bytes second) :
    first = second := by
  have early : first <+: second := prefix_of_bytes_prefix (same ▸ List.prefix_rfl)
  have late : second <+: first := prefix_of_bytes_prefix (same ▸ List.prefix_rfl)
  exact early.eq_of_length_le late.length_le

/-- A literal that stands at a boundary is what is cut out there. -/
theorem slice_of_matchesAt {text literal : String} {offset : Nat}
    (boundary : IsBoundary text.toList offset) (stands : matchesAt text offset literal = true) :
    slice text offset (offset + byteLength literal.toList) = literal := by
  rcases boundary.slice (boundary.behind_literal stands) (Nat.le_add_right _ _) with
    ⟨rest, cut, _, _, isCut, isBytes, _⟩
  rw [Nat.add_sub_cancel_left, <- length_bytes] at isBytes
  have isLiteral := List.prefix_iff_eq_take.mp (matchesAt_iff.mp stands).2
  rw [isCut, bytes_injective (isBytes.trans isLiteral.symm), String.ofList_toList]

/-- A literal stands at an offset if it is within the text and what is cut out there. -/
theorem matchesAt_iff_slice {text literal : String} {offset : Nat} :
    matchesAt text offset literal = true ↔
      offset + byteLength literal.toList ≤ byteLength text.toList ∧
        slice text offset (offset + byteLength literal.toList) = literal := by
  constructor
  · intro stands
    have found := matchesAt_iff.mp stands
    have short := found.2.length_le
    rw [length_bytes, List.length_drop, length_bytes] at short
    refine ⟨by omega, ?_⟩
    cases isLiteral : literal.toList with
    | nil =>
        rw [byteLength_nil, Nat.add_zero, slice_self]
        exact (String.toList_eq_nil_iff.mp isLiteral).symm
    | cons c rest =>
        rw [<- isLiteral]
        exact slice_of_matchesAt (isBoundary_of_matchesAt isLiteral stands) stands
  · rintro ⟨inside, isCut⟩
    apply matchesAt_iff.mpr
    refine ⟨by omega, ?_⟩
    by_cases empty : literal = ""
    · rw [empty]
      exact List.nil_prefix
    · exact slice_found inside (Nat.le_add_right _ _) isCut empty

end Text

namespace Sequence

variable {α : Type} [BEq α] [PartialEquivBEq α]

/-- A sequence starts with a literal if what it has in front, as far as the literal is
long, equals the literal. -/
theorem isPrefixOf_eq (literal elements : List α) :
    literal.isPrefixOf elements =
      (decide (literal.length ≤ elements.length) && elements.take literal.length == literal) := by
  induction literal generalizing elements with
  | nil => simp
  | cons wanted literal inductionHypothesis =>
      cases elements with
      | nil => simp
      | cons element elements =>
          rw [List.isPrefixOf_cons_cons, inductionHypothesis, List.length_cons, List.length_cons,
            List.take_succ_cons, List.cons_beq_cons, BEq.comm, Bool.and_left_comm]
          simp only [Nat.add_le_add_iff_right]

theorem matchesAt_eq (elements literal : List α) (index : Nat) :
    matchesAt elements index literal = standsAt List.length slice elements index literal := by
  rw [matchesAt, standsAt, isPrefixOf_eq, List.length_drop]
  by_cases inside : index + literal.length ≤ elements.length
  · have starts : index ≤ elements.length := by omega
    have fits : literal.length ≤ elements.length - index := by omega
    simp [slice, inside, starts, fits]
  · by_cases starts : index ≤ elements.length
    · have long : ¬literal.length ≤ elements.length - index := by omega
      simp [inside, long]
    · simp [inside, starts]

end Sequence

/-- Comparing units where they are and comparing what is cut out give the same answer,
for texts and for sequences of elements of any kind, wherever the literal is looked
for. -/
theorem matchesAt_eq_standsAt :
    (forall (text literal : String) (offset : Nat),
      Stream.matchesAt text offset literal =
        standsAt Stream.length Stream.slice text offset literal) ∧
      forall (α : Type) [BEq α] [PartialEquivBEq α] (elements literal : List α) (index : Nat),
        Sequence.matchesAt elements index literal =
          standsAt List.length Sequence.slice elements index literal := by
  constructor
  · intro text literal offset
    rw [Bool.eq_iff_iff, standsAt, Bool.and_eq_true, decide_eq_true_iff, beq_iff_eq]
    exact Text.matchesAt_iff_slice
  · intro α _ _ elements literal index
    exact Sequence.matchesAt_eq elements literal index

/-- A measurement that may have failed.  One that failed equals no other, nor itself. -/
structure Measurement where
  value : Option Nat

instance : BEq Measurement where
  beq first second := first.value.isSome && first.value == second.value

instance : PartialEquivBEq Measurement where
  symm := by
    intro first second same
    rcases Bool.and_eq_true_iff.mp same with ⟨isSome, same⟩
    exact Bool.and_eq_true_iff.mpr ⟨eq_of_beq same ▸ isSome, BEq.symm same⟩
  trans := by
    intro first second third same same'
    rcases Bool.and_eq_true_iff.mp same with ⟨isSome, same⟩
    exact Bool.and_eq_true_iff.mpr ⟨isSome, BEq.trans same (Bool.and_eq_true_iff.mp same').2⟩

/-- A measurement that failed is not even found where it is.  In a text, a literal
without bytes stands inside a character, and the end of a character does not. -/
theorem measurements_found :
    Sequence.matchesAt [⟨some 1⟩, ⟨none⟩] 0 [(⟨some 1⟩ : Measurement)] = true ∧
      Sequence.matchesAt [⟨some 1⟩, ⟨none⟩] 1 [(⟨none⟩ : Measurement)] = false ∧
      standsAt List.length Sequence.slice [⟨some 1⟩, ⟨none⟩] 1 [(⟨none⟩ : Measurement)] = false ∧
      standsAt Stream.length Stream.slice "é" 1 "" = true ∧
      standsAt Stream.length Stream.slice "é" 1 "\u00a9" = false := by
  refine ⟨rfl, rfl, ?_, ?_, ?_⟩
  · exact (matchesAt_eq_standsAt.2 Measurement _ _ 1).symm.trans rfl
  · exact (matchesAt_eq_standsAt.1 "é" "" 1).symm.trans rfl
  · exact (matchesAt_eq_standsAt.1 "é" "\u00a9" 1).symm.trans rfl

end SeedGrammar
