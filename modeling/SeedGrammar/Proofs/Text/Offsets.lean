import Mathlib.Data.List.Infix
import SeedGrammar.Stream

namespace SeedGrammar
namespace Text

/-!
# Offsets between characters

A byte offset into a text is a boundary if it does not fall inside a
character.  Exactly the boundaries have a suffix, and between two of them a
text can be cut: the cut has the bytes that lie between the offsets, all of
them, and as many as the offsets are apart.

Literals are compared byte by byte.  A literal that stands at a boundary ends
at one nevertheless, since no character is encoded by the start of the
encoding of another: `prefix_of_bytes_prefix`.

A text in front of another moves all offsets of the latter by its length.
What is found at a moved offset is what was there before.
-/

theorem bytes_append (first second : List Char) :
    bytes (first ++ second) = bytes first ++ bytes second :=
  List.flatMap_append

theorem byteLength_eq_zero {chars : List Char} : byteLength chars = 0 ↔ chars = [] := by
  cases chars with
  | nil => simp
  | cons c rest => simp [Nat.ne_of_gt c.utf8Size_pos]

/-- An offset into the second of two texts is met behind the first. -/
theorem dropBytes_append (first second : List Char) (offset : Nat) :
    dropBytes (byteLength first + offset) (first ++ second) = dropBytes offset second := by
  induction first with
  | nil => simp
  | cons c rest inductionHypothesis =>
      have positive := c.utf8Size_pos
      rw [byteLength_cons, List.cons_append]
      rcases Nat.exists_eq_add_one_of_ne_zero
          (show c.utf8Size + byteLength rest + offset ≠ 0 by omega) with ⟨less, isLess⟩
      rw [isLess, dropBytes, if_pos (by omega), <- inductionHypothesis]
      congr 1
      omega

theorem takeBytes_append (first second : List Char) :
    takeBytes (byteLength first) (first ++ second) = some first := by
  induction first with
  | nil => cases second <;> rfl
  | cons c rest inductionHypothesis =>
      have positive := c.utf8Size_pos
      rw [byteLength_cons, List.cons_append]
      rcases Nat.exists_eq_add_one_of_ne_zero
          (show c.utf8Size + byteLength rest ≠ 0 by omega) with ⟨less, isLess⟩
      have left : c.utf8Size + byteLength rest - c.utf8Size = byteLength rest := by omega
      rw [isLess, takeBytes, <- isLess, if_pos (Nat.le_add_right _ _), left, inductionHypothesis]
      rfl

/-- A suffix at an offset is what the text has behind so many bytes. -/
theorem dropBytes_eq_some {offset : Nat} {chars rest : List Char} :
    dropBytes offset chars = some rest ↔
      exists before, chars = before ++ rest ∧ byteLength before = offset := by
  constructor
  · intro dropped
    induction chars generalizing offset with
    | nil =>
        cases offset with
        | zero => exact ⟨[], Option.some.inj dropped, rfl⟩
        | succ offset => cases dropped
    | cons c tail inductionHypothesis =>
        cases offset with
        | zero => exact ⟨[], Option.some.inj dropped, rfl⟩
        | succ offset =>
            rw [dropBytes] at dropped
            by_cases beyond : c.utf8Size ≤ offset + 1
            · rw [if_pos beyond] at dropped
              rcases inductionHypothesis dropped with ⟨before, isBefore, length⟩
              refine ⟨c :: before, congrArg (c :: ·) isBefore, ?_⟩
              rw [byteLength_cons, length]
              omega
            · rw [if_neg beyond] at dropped
              cases dropped
  · rintro ⟨before, rfl, rfl⟩
    exact dropBytes_byteLength before rest

/-! ## Boundaries -/

/-- Whether a byte offset lies between two characters or at an end. -/
def IsBoundary (chars : List Char) (offset : Nat) : Prop :=
  exists before after, chars = before ++ after ∧ byteLength before = offset

theorem isBoundary_iff {chars : List Char} {offset : Nat} :
    IsBoundary chars offset ↔ (dropBytes offset chars).isSome = true := by
  rw [Option.isSome_iff_exists]
  constructor
  · rintro ⟨before, after, isText, length⟩
    exact ⟨after, dropBytes_eq_some.mpr ⟨before, isText, length⟩⟩
  · rintro ⟨after, dropped⟩
    rcases dropBytes_eq_some.mp dropped with ⟨before, isText, length⟩
    exact ⟨before, after, isText, length⟩

instance (chars : List Char) (offset : Nat) : Decidable (IsBoundary chars offset) :=
  decidable_of_iff _ isBoundary_iff.symm

example : IsBoundary "é€".toList 2 ∧ ¬IsBoundary "é€".toList 3 := by decide

theorem isBoundary_zero (chars : List Char) : IsBoundary chars 0 :=
  ⟨[], chars, rfl, rfl⟩

/-- Behind characters that stand at an offset there is a boundary again. -/
theorem isBoundary_behind {offset : Nat} {chars cut after : List Char}
    (dropped : dropBytes offset chars = some (cut ++ after)) :
    IsBoundary chars (offset + byteLength cut) := by
  rcases dropBytes_eq_some.mp dropped with ⟨before, rfl, rfl⟩
  refine ⟨before ++ cut, after, ?_, byteLength_append before cut⟩
  rw [List.append_assoc]

/-- Two boundaries cut a text in three. -/
theorem IsBoundary.cut {chars : List Char} {start stop : Nat}
    (starts : IsBoundary chars start) (stops : IsBoundary chars stop) (ordered : start ≤ stop) :
    exists before cut after, chars = before ++ (cut ++ after) ∧ byteLength before = start ∧
      byteLength cut = stop - start := by
  rcases starts with ⟨before, rest, rfl, rfl⟩
  rcases stops with ⟨longer, after, isText, rfl⟩
  rcases List.prefix_or_prefix_of_prefix (List.prefix_append before rest)
      (isText ▸ List.prefix_append longer after) with ⟨cut, rfl⟩ | ⟨surplus, rfl⟩
  · rw [List.append_assoc, List.append_cancel_left_eq] at isText
    refine ⟨before, cut, after, ?_, rfl, ?_⟩
    · rw [isText]
    · rw [byteLength_append, Nat.add_sub_cancel_left]
  · -- The start is not behind the stop, so nothing is left over.
    rw [byteLength_append] at ordered ⊢
    have nothing : surplus = [] := byteLength_eq_zero.mp (by omega)
    subst nothing
    exact ⟨longer ++ [], [], rest, rfl, byteLength_append longer [], by simp⟩

/-! ## What is between two boundaries -/

section Cut

variable {text : String} {before cut after : List Char}

theorem bytes_cut (before cut after : List Char) :
    ((bytes (before ++ (cut ++ after))).drop (byteLength before)).take (byteLength cut) =
      bytes cut := by
  rw [bytes_append, bytes_append, <- length_bytes before, List.drop_left, <- length_bytes cut,
    List.take_left]

/-- Cutting at boundaries does not fail. -/
theorem slice_eq_cut (isText : text.toList = before ++ (cut ++ after)) :
    slice text (byteLength before) (byteLength before + byteLength cut) = String.ofList cut := by
  have inside : byteLength before + byteLength cut ≤ byteLength text.toList := by
    rw [isText, byteLength_append, byteLength_append]
    omega
  simp only [slice, Nat.min_eq_left inside, Nat.min_eq_left (Nat.le_add_right _ _)]
  rw [isText, dropBytes_byteLength, Nat.add_sub_cancel_left]
  dsimp only
  rw [takeBytes_append]

/-- What is cut out between two boundaries exists, and has the bytes between them. -/
theorem IsBoundary.slice {start stop : Nat} (starts : IsBoundary text.toList start)
    (stops : IsBoundary text.toList stop) (ordered : start ≤ stop) :
    exists rest cut, dropBytes start text.toList = some rest ∧
      takeBytes (stop - start) rest = some cut ∧
      slice text start stop = String.ofList cut ∧
      bytes cut = ((bytes text.toList).drop start).take (stop - start) ∧
      byteLength cut = stop - start := by
  rcases starts.cut stops ordered with ⟨before, cut, after, isText, rfl, length⟩
  have isStop : stop = byteLength before + byteLength cut := by omega
  refine ⟨cut ++ after, cut, ?_, ?_, ?_, ?_, length⟩
  · rw [isText, dropBytes_byteLength]
  · rw [<- length, takeBytes_append]
  · rw [isStop, slice_eq_cut isText]
  · rw [<- length, isText, bytes_cut]

end Cut

/-! ## Literals -/

/-- No character is encoded by the start of the encoding of another. -/
theorem head_eq_of_bytes_prefix {c d : Char} {literal rest : List Char}
    (starts : bytes (c :: literal) <+: bytes (d :: rest)) : c = d := by
  rcases starts with ⟨more, isWhole⟩
  rw [bytes_cons, bytes_cons, List.append_assoc] at isWhole
  have decoded := congrArg (fun whole : List UInt8 => whole.toByteArray.utf8DecodeChar? 0) isWhole
  simp only [List.toByteArray_append, ByteArray.utf8DecodeChar?_utf8EncodeChar_append] at decoded
  exact Option.some.inj decoded

/-- A text whose bytes start with those of a literal starts with the literal. -/
theorem prefix_of_bytes_prefix {literal rest : List Char}
    (starts : bytes literal <+: bytes rest) : literal <+: rest := by
  induction literal generalizing rest with
  | nil => exact List.nil_prefix
  | cons c literal inductionHypothesis =>
      cases rest with
      | nil =>
          have length := starts.length_le
          rw [length_bytes, length_bytes, byteLength_cons, byteLength_nil] at length
          exact absurd length (by have := c.utf8Size_pos; omega)
      | cons d rest =>
          have same := head_eq_of_bytes_prefix starts
          subst same
          rw [bytes_cons, bytes_cons, List.prefix_append_right_inj] at starts
          exact List.cons_prefix_cons.mpr ⟨rfl, inductionHypothesis starts⟩

/-- A character ends at a boundary. -/
theorem isBoundary_behind_char {text : String} {offset : Nat} {c : Char} {width : Nat}
    (isThere : charAt text offset = some (c, width)) :
    IsBoundary text.toList (offset + width) := by
  rw [charAt] at isThere
  split at isThere
  · rename_i here rest dropped
    cases isThere
    have behind := isBoundary_behind (show dropBytes offset text.toList = some ([c] ++ rest) from
      dropped)
    rwa [byteLength_cons, byteLength_nil, Nat.add_zero] at behind
  · cases isThere

/-- A literal at a boundary ends at a boundary. -/
theorem IsBoundary.behind_literal {text literal : String} {offset : Nat}
    (boundary : IsBoundary text.toList offset) (stands : matchesAt text offset literal = true) :
    IsBoundary text.toList (offset + byteLength literal.toList) := by
  rcases boundary with ⟨before, rest, isText, rfl⟩
  have starts := (matchesAt_iff.mp stands).2
  rw [isText, bytes_append, <- length_bytes before, List.drop_left] at starts
  rcases prefix_of_bytes_prefix starts with ⟨after, rfl⟩
  have dropped : dropBytes (byteLength before) text.toList = some (literal.toList ++ after) := by
    rw [isText, dropBytes_byteLength]
  exact isBoundary_behind dropped

/-! ## A text in front -/

section Front

variable (front text : String)

theorem toList_length_append :
    byteLength (front ++ text).toList = byteLength front.toList + byteLength text.toList := by
  rw [String.toList_append, byteLength_append]

theorem charAt_append (offset : Nat) :
    charAt (front ++ text) (byteLength front.toList + offset) = charAt text offset := by
  rw [charAt, String.toList_append, dropBytes_append, charAt]

theorem matchesAt_append (offset : Nat) (literal : String) :
    matchesAt (front ++ text) (byteLength front.toList + offset) literal =
      matchesAt text offset literal := by
  have bytesLeft : (bytes (front ++ text).toList).drop (byteLength front.toList + offset) =
      (bytes text.toList).drop offset := by
    rw [String.toList_append, bytes_append, <- length_bytes, List.drop_length_add_append]
  rw [Bool.eq_iff_iff, matchesAt_iff, matchesAt_iff, toList_length_append, bytesLeft,
    Nat.add_le_add_iff_left]

theorem slice_append (start stop : Nat) :
    slice (front ++ text) (byteLength front.toList + start) (byteLength front.toList + stop) =
      slice text start stop := by
  simp only [slice, toList_length_append, Nat.add_min_add_left, Nat.add_sub_add_left]
  rw [String.toList_append, dropBytes_append]

end Front

end Text
end SeedGrammar
