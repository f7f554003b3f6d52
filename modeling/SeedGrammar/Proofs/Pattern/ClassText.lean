import SeedGrammar.CharSet.ClassText
import SeedGrammar.Pattern.Bracket
import SeedGrammar.Proofs.CharSet.Membership
import SeedGrammar.Proofs.Text.Digits

namespace SeedGrammar

/-!
# A class that is read back

The class that a set of characters is written as is read as the same set, wherever it
stands, `Bracket.read_classText`.  Each range is read as it was written, because nothing
in it can be taken for an operator, `Bracket.readItem_classRange`.  The ranges come back
in another order, and those of a negated class not at all, so that the sets are equal
rests on the normal form that both of them have.
-/

/-- Without flags nothing is ignored. -/
theorem PatternFlags.skip_initial (chars : List Char) : PatternFlags.initial.skip chars = chars :=
  rfl

namespace PatternEscape

open Text

theorem readBraced_append {digits : List Char} (plain : forall c, c ∈ digits -> c ≠ '}')
    (rest : List Char) {fuel : Nat} (enough : digits.length < fuel) :
    readBraced PatternFlags.initial fuel (digits ++ '}' :: rest) = some (digits, rest) := by
  induction digits generalizing fuel with
  | nil =>
      rcases Nat.exists_eq_add_one_of_ne_zero (Nat.ne_of_gt enough) with ⟨fuel, rfl⟩
      rfl
  | cons c digits inductionHypothesis =>
      rcases Nat.exists_eq_add_one_of_ne_zero (Nat.ne_zero_of_lt enough) with ⟨fuel, rfl⟩
      rcases List.forall_mem_cons.mp plain with ⟨isPlain, others⟩
      have read := inductionHypothesis others (Nat.lt_of_succ_lt_succ enough)
      change (if c = '}' then _ else _) = _
      rw [if_neg isPlain]
      exact congrArg (Option.map fun result => (c :: result.1, result.2)) read

/-- A code point in hexadecimal is read as its character. -/
theorem read_upperHex {code : Nat} {c : Char} (isScalar : scalar? code = some c)
    (rest : List Char) :
    read PatternFlags.initial ('x' :: '\x7b' :: ((upperHex code).toList ++ '\x7d' :: rest)) =
      some (.literal c, rest) := by
  have plain : forall c, c ∈ (upperHex code).toList -> c ≠ '\x7d' := by
    rintro c member rfl
    cases hexValue?_of_mem member
  have enough : (upperHex code).toList.length <
      ((upperHex code).toList ++ '\x7d' :: rest).length + 1 := by
    rw [List.length_append]
    omega
  have braced := readBraced_append plain rest enough
  have notEmpty : (upperHex code).toList.isEmpty = false := by
    rw [upperHex, String.toList_ofList, List.isEmpty_map, List.isEmpty_eq_false_iff]
    exact Nat.toDigits_ne_nil
  have isHex : ofHex? (upperHex code).toList = some (.literal c) := by
    rw [ofHex?, Text.ofHex?_upperHex]
    exact congrArg (Option.map literal) isScalar
  have isCode : read PatternFlags.initial ('x' :: '\x7b' :: ((upperHex code).toList ++
      '\x7d' :: rest)) = readCode PatternFlags.initial 2 ('\x7b' :: ((upperHex code).toList ++
        '\x7d' :: rest)) := rfl
  rw [isCode, readCode]
  simp only [PatternFlags.skip_initial, braced, notEmpty, isHex]
  rfl

end PatternEscape

namespace CharSet

theorem scalar?_toNat (c : Char) : Text.scalar? c.toNat = some c := by
  have valid : c.toNat.isValidChar := c.valid
  rw [Text.scalar?, if_pos valid, Char.ofNat_toNat]

/-- A code point is written as its character, or else in hexadecimal. -/
theorem classCode_cases (c : Char) :
    c.isAlphanum = true ∧ (classCode c.toNat).toList = [c] ∨
      (classCode c.toNat).toList =
        '\\' :: 'x' :: '\x7b' :: ((Text.upperHex c.toNat).toList ++ ['\x7d']) := by
  rw [classCode, scalar?_toNat]
  dsimp only
  split
  · rename_i isPlain
    exact Or.inl ⟨isPlain, by simp⟩
  · right
    simp [String.toList_append]

/-- Whether a character has no meaning of its own between brackets. -/
def Inert (c : Char) : Prop :=
  c ∉ ['[', ']', '&', '-', '~', '^']

theorem classCode_inert (c : Char) :
    exists first rest, (classCode c.toNat).toList = first :: rest ∧ Inert first := by
  rcases classCode_cases c with ⟨isPlain, isText⟩ | isText
  · refine ⟨c, [], isText, ?_⟩
    intro member
    simp only [List.mem_cons, List.not_mem_nil, or_false] at member
    rcases member with rfl | rfl | rfl | rfl | rfl | rfl <;> cases isPlain
  · refine ⟨_, _, isText, ?_⟩
    rw [Inert]
    decide

end CharSet

namespace Bracket

open CharSet

theorem readElement_classCode (c : Char) (rest : List Char) :
    readElement PatternFlags.initial ((classCode c.toNat).toList ++ rest) =
      some (.literal c, rest) := by
  rcases classCode_cases c with ⟨isPlain, isText⟩ | isText
  · have notEscape : c ≠ '\\' := by
      rintro rfl
      cases isPlain
    rw [isText, List.singleton_append, readElement.eq_def]
    split
    · rename_i same
      cases same
    · rename_i same
      cases same
      exact absurd rfl notEscape
    · rename_i same
      cases same
      rfl
  · have isAll : (classCode c.toNat).toList ++ rest =
        '\\' :: 'x' :: '\x7b' :: ((Text.upperHex c.toNat).toList ++ '\x7d' :: rest) := by
      rw [isText]
      simp
    rw [isAll]
    exact PatternEscape.read_upperHex (scalar?_toNat c) rest

/-- A range is read as it was written, if no dash follows. -/
theorem readItem_classRange {low high : Char} (ordered : low ≤ high) {next : Char}
    (noDash : next ≠ '-') (rest : List Char) :
    readItem PatternFlags.initial ((classRange (low.toNat, high.toNat)).toList ++ next :: rest) =
      some (.range low high, next :: rest) := by
  rw [classRange]
  split
  · rename_i same
    have same : low = high := Char.toNat_inj.mp same
    subst same
    rw [readItem, readElement_classCode]
    dsimp only
    split
    · rename_i none
      cases none
    · rename_i isDash
      cases isDash
      exact absurd rfl noDash
    · rfl
  · rcases classCode_inert high with ⟨first, others, isText, inert⟩
    have isFirst : ((classCode low.toNat ++ "-" ++ classCode high.toNat).toList ++ next :: rest) =
        (classCode low.toNat).toList ++ '-' :: ((classCode high.toNat).toList ++ next :: rest) := by
      simp [String.toList_append]
    have peeked : PatternFlags.initial.peek ((classCode high.toNat).toList ++ next :: rest) =
        some first := by
      rw [isText]
      rfl
    have goesOn : ¬(some first = some ']' ∨ some first = some '-') := by
      rintro (same | same)
      · cases same
        exact inert (by decide)
      · cases same
        exact inert (by decide)
    rw [isFirst, readItem, readElement_classCode]
    simp only [PatternFlags.skip_initial]
    rw [peeked, if_neg goesOn, readElement_classCode]
    exact if_pos ordered

/-- The text of ranges of characters, one after the other. -/
def rangesText (ranges : List (Char × Char)) : List Char :=
  ranges.flatMap fun range => (classRange (range.1.toNat, range.2.toNat)).toList

/-- Add ranges of characters. -/
def addRanges (bracket : Bracket) (ranges : List (Char × Char)) : Bracket :=
  ranges.foldl (fun bracket range => bracket.add ⟨.range range.1 range.2, 0⟩) bracket

theorem classRange_inert (low high : Char) :
    exists first rest, (classRange (low.toNat, high.toNat)).toList = first :: rest ∧ Inert first := by
  rcases classCode_inert low with ⟨first, rest, isText, inert⟩
  rw [classRange]
  split
  · exact ⟨first, rest, isText, inert⟩
  · exact ⟨first, _, by rw [String.toList_append, String.toList_append, isText]; rfl, inert⟩

/-- What follows a range within a bracket is no dash. -/
theorem rangesText_inert (ranges : List (Char × Char)) (rest : List Char) :
    exists first later, rangesText ranges ++ ']' :: rest = first :: later ∧ first ≠ '-' := by
  cases ranges with
  | nil => exact ⟨']', rest, rfl, by decide⟩
  | cons range ranges =>
      rcases classRange_inert range.1 range.2 with ⟨first, later, isText, inert⟩
      refine ⟨first, _, by rw [rangesText, List.flatMap_cons, isText]; rfl, ?_⟩
      rintro rfl
      exact inert (by decide)

/-- A character without a meaning of its own starts an item. -/
theorem readFrom_inert {first : Char} (inert : Inert first) (chars : List Char) (fuel : Nat)
    (bracket : Bracket) (outer : List Bracket) :
    readFrom PatternFlags.initial (fuel + 1) bracket outer (first :: chars) =
      (readItem PatternFlags.initial (first :: chars)).bind fun item =>
        readFrom PatternFlags.initial fuel (bracket.add ⟨item.1, 0⟩) outer item.2 := by
  rw [readFrom]
  simp only [PatternFlags.skip_initial]
  split
  · rename_i same
    cases same
  · rename_i same
    cases same
    exact absurd (by decide) inert
  · rename_i same
    cases same
    exact absurd (by decide) inert
  · rename_i same
    cases same
    exact absurd (by decide) inert
  · rename_i same
    cases same
    exact absurd (by decide) inert
  · rename_i same
    cases same
    exact absurd (by decide) inert
  · cases readItem PatternFlags.initial (first :: chars) <;> rfl

/-- Ranges up to the end of the bracket are added to it. -/
theorem readFrom_ranges {ranges : List (Char × Char)}
    (ordered : forall range, range ∈ ranges -> range.1 ≤ range.2) (bracket : Bracket)
    (rest : List Char) {fuel : Nat} (enough : ranges.length < fuel) :
    readFrom PatternFlags.initial fuel bracket [] (rangesText ranges ++ ']' :: rest) =
      some ((bracket.addRanges ranges).close false, rest) := by
  induction ranges generalizing bracket fuel with
  | nil =>
      rcases Nat.exists_eq_add_one_of_ne_zero (Nat.ne_of_gt enough) with ⟨fuel, rfl⟩
      rfl
  | cons range ranges inductionHypothesis =>
      rcases Nat.exists_eq_add_one_of_ne_zero (Nat.ne_zero_of_lt enough) with ⟨fuel, rfl⟩
      rcases List.forall_mem_cons.mp ordered with ⟨isOrdered, others⟩
      rcases classRange_inert range.1 range.2 with ⟨first, later, isText, inert⟩
      rcases rangesText_inert ranges rest with ⟨next, after, isRest, noDash⟩
      have isAll : rangesText (range :: ranges) ++ ']' :: rest =
          (classRange (range.1.toNat, range.2.toNat)).toList ++ next :: after := by
        rw [<- isRest, rangesText, List.flatMap_cons, List.append_assoc]
        rfl
      have read := readItem_classRange isOrdered noDash after
      rw [isAll]
      rw [isText, List.cons_append] at read ⊢
      rw [readFrom_inert inert, read, Option.bind_some, <- isRest]
      exact inductionHypothesis others _ (Nat.lt_of_succ_lt_succ enough)

/-- The members of a bracket after ranges have been added. -/
theorem members_addRanges (bracket : Bracket) (ranges : List (Char × Char)) :
    (bracket.addRanges ranges).negated = bracket.negated ∧
      (bracket.addRanges ranges).pending = bracket.pending ∧
      (bracket.addRanges ranges).members =
        (ranges.reverse.flatMap fun range => (CharSet.range range.1 range.2).ranges) ++
          bracket.members := by
  induction ranges generalizing bracket with
  | nil => exact ⟨rfl, rfl, rfl⟩
  | cons range ranges inductionHypothesis =>
      rcases inductionHypothesis (bracket.add ⟨.range range.1 range.2, 0⟩) with
        ⟨isNegated, isPending, areMembers⟩
      refine ⟨isNegated, isPending, areMembers.trans ?_⟩
      simp [add, List.flatMap_append]

theorem readDashes_inert {first : Char} (inert : Inert first) (chars : List Char) (fuel : Nat)
    (bracket : Bracket) :
    readDashes PatternFlags.initial fuel bracket (first :: chars) = (bracket, first :: chars) := by
  rw [readDashes.eq_def]
  split
  · rename_i same
    cases same
    exact absurd (by decide) inert
  · rfl

/-- A bracket is opened in front of its first range, behind the caret if it is
negated. -/
theorem readOpen_inert {first : Char} (inert : Inert first) (negated : Bool) (chars : List Char) :
    readOpen PatternFlags.initial ((if negated then ['^'] else []) ++ first :: chars) =
      (opened negated, first :: chars) := by
  have noBracket : first ≠ ']' := by
    rintro rfl
    exact absurd (by decide) inert
  cases negated with
  | true =>
      rw [readOpen]
      simp only [if_true, List.singleton_append, PatternFlags.skip_initial, readDashes_inert inert]
      split
      · rename_i same
        cases same
        exact absurd rfl noBracket
      · rfl
  | false =>
      rw [readOpen]
      split
      rename_i negated after isOpen
      split at isOpen
      · rename_i same
        cases same
        exact absurd (by decide) inert
      · cases isOpen
        simp only [Bool.false_eq_true, if_false, List.nil_append, PatternFlags.skip_initial,
          readDashes_inert inert]
        split
        · rename_i same
          cases same
          exact absurd rfl noBracket
        · rfl

open Text.CodeRanges in
/-- What ranges of characters hold is held by one of their sets. -/
theorem hasCode_ranges {ranges : List (Char × Char)}
    (ordered : forall range, range ∈ ranges -> range.1 ≤ range.2) (c : Char) :
    hasCode (ranges.reverse.flatMap fun range => (CharSet.range range.1 range.2).ranges) c.toNat =
      hasCode (ranges.map fun range => (range.1.toNat, range.2.toNat)) c.toNat := by
  rw [Bool.eq_iff_iff, hasCode_iff, hasCode_iff]
  have held : forall range, range ∈ ranges ->
      ((exists part, part ∈ (CharSet.range range.1 range.2).ranges ∧ part.1 ≤ c.toNat ∧
        c.toNat ≤ part.2) ↔ range.1.toNat ≤ c.toNat ∧ c.toNat ≤ range.2.toNat) := by
    intro range member
    have isOrdered : range.1.toNat ≤ range.2.toNat := ordered range member
    rw [<- hasCode_iff, CharSet.range, hasCode_ofRanges, and_iff_left (char_scalar c).2,
      Nat.min_eq_left isOrdered, Nat.max_eq_right isOrdered, hasCode_iff]
    simp
  constructor
  · rintro ⟨part, member, inside⟩
    rcases List.mem_flatMap.mp member with ⟨range, isRange, isPart⟩
    have isRange := List.mem_reverse.mp isRange
    exact ⟨_, List.mem_map_of_mem isRange, (held range isRange).mp ⟨part, isPart, inside⟩⟩
  · rintro ⟨_, member, inside⟩
    rcases List.mem_map.mp member with ⟨range, isRange, rfl⟩
    rcases (held range isRange).mpr inside with ⟨part, isPart, inside⟩
    exact ⟨part, List.mem_flatMap.mpr ⟨range, List.mem_reverse.mpr isRange, isPart⟩, inside⟩

/-- The set of a bracket that holds ranges of characters. -/
theorem contains_close (negated : Bool) {ranges : List (Char × Char)}
    (ordered : forall range, range ∈ ranges -> range.1 ≤ range.2) :
    (((opened negated).addRanges ranges).close false).set.ranges.Normal ∧
      forall c, (((opened negated).addRanges ranges).close false).set.contains c =
        (negated ^^ Text.CodeRanges.hasCode
          (ranges.map fun range => (range.1.toNat, range.2.toNat)) c.toNat) := by
  rcases members_addRanges (opened negated) ranges with ⟨isNegated, isPending, areMembers⟩
  have areMembers : ((opened negated).addRanges ranges).members =
      ranges.reverse.flatMap fun range => (CharSet.range range.1 range.2).ranges :=
    areMembers.trans (List.append_nil _)
  have bounded : Text.CodeRanges.Bounded ((opened negated).addRanges ranges).members := by
    rw [areMembers]
    intro part member
    rcases List.mem_flatMap.mp member with ⟨range, _, isPart⟩
    exact (Made.range range.1 range.2).normal.bounded part isPart
  have isClosed : (((opened negated).addRanges ranges).close false).set =
      (ofRanges ((opened negated).addRanges ranges).members).complementIf negated := by
    rw [close, combined, isPending, isNegated]
    rfl
  have normal := ofRanges_normal bounded
  have contains : forall c, (ofRanges ((opened negated).addRanges ranges).members).contains c =
      Text.CodeRanges.hasCode (ranges.map fun range => (range.1.toNat, range.2.toNat)) c.toNat := by
    intro c
    rw [contains_ofRanges bounded, areMembers, <- hasCode_ranges ordered]
    rfl
  rw [isClosed]
  cases negated with
  | false => exact ⟨normal, fun c => (contains c).trans (Bool.false_xor _).symm⟩
  | true =>
      refine ⟨complement_normal normal, fun c => ?_⟩
      rw [complementIf, if_pos rfl, contains_complement normal, contains, Bool.true_xor]

theorem length_le_rangesText (ranges : List (Char × Char)) :
    ranges.length ≤ (rangesText ranges).length := by
  induction ranges with
  | nil => exact Nat.le_refl _
  | cons range ranges inductionHypothesis =>
      rcases classRange_inert range.1 range.2 with ⟨first, later, isText, _⟩
      have inductionHypothesis : ranges.length ≤ (ranges.flatMap _).length := inductionHypothesis
      rw [rangesText, List.flatMap_cons, isText, List.length_append, List.length_cons, List.length_cons]
      omega

/-- A bracket with ranges of characters in it is read as their set. -/
theorem read_ranges (negated : Bool) {ranges : List (Char × Char)} (notEmpty : ranges ≠ [])
    (ordered : forall range, range ∈ ranges -> range.1 ≤ range.2) (rest : List Char) :
    read PatternFlags.initial
      ((if negated then ['^'] else []) ++ (rangesText ranges ++ ']' :: rest)) =
        some (((opened negated).addRanges ranges).close false, rest) := by
  rcases List.exists_cons_of_ne_nil notEmpty with ⟨range, others, rfl⟩
  rcases classRange_inert range.1 range.2 with ⟨first, later, isText, inert⟩
  have isFirst : rangesText (range :: others) ++ ']' :: rest =
      first :: (later ++ (rangesText others ++ ']' :: rest)) := by
    rw [rangesText, List.flatMap_cons, isText]
    simp [rangesText]
  have opens := readOpen_inert inert negated (later ++ (rangesText others ++ ']' :: rest))
  rw [<- isFirst] at opens
  rw [read, opens]
  apply readFrom_ranges ordered
  have enough := length_le_rangesText (range :: others)
  rw [List.length_append]
  omega

/-- A bracket is read as the set that has the same members. -/
theorem read_set {set : CharSet} (normal : set.ranges.Normal) (negated : Bool)
    {ranges : List (Char × Char)} (notEmpty : ranges ≠ [])
    (ordered : forall range, range ∈ ranges -> range.1 ≤ range.2)
    (contains : forall c, set.contains c = (negated ^^ Text.CodeRanges.hasCode
      (ranges.map fun range => (range.1.toNat, range.2.toNat)) c.toNat)) (rest : List Char) :
    exists nesting, read PatternFlags.initial
      ((if negated then ['^'] else []) ++ (rangesText ranges ++ [']']) ++ rest) =
        some (⟨set, nesting⟩, rest) := by
  rcases contains_close negated ordered with ⟨closedNormal, closedContains⟩
  have isSet : (((opened negated).addRanges ranges).close false).set = set :=
    eq_of_contains closedNormal normal fun c => (closedContains c).trans (contains c).symm
  have isClosed : ((opened negated).addRanges ranges).close false = ⟨set, _⟩ :=
    congrArg (NestedSet.mk · _) isSet
  have read := read_ranges negated notEmpty ordered rest
  rw [isClosed] at read
  rw [List.append_assoc, List.append_assoc]
  exact ⟨_, read⟩

/-- All characters. -/
def everything : List (Char × Char) := [(Char.ofNat 0, Char.ofNat 0x10FFFF)]

/-- The class of a set is read as the set. -/
theorem read_classText {set : CharSet} (normal : set.ranges.Normal) :
    exists chars, set.classText.toList = '[' :: chars ∧
      forall rest, exists nesting,
        read PatternFlags.initial (chars ++ rest) = some (⟨set, nesting⟩, rest) := by
  by_cases isEmpty : set.isEmpty = true
  · -- Nothing is left of everything.
    refine ⟨(if true then ['^'] else []) ++ (rangesText everything ++ [']']), ?_,
      read_set normal true (List.cons_ne_nil _ _) (List.forall_mem_singleton.mpr (by decide)) ?_⟩
    · rw [classText, if_pos isEmpty]
      decide
    · intro c
      have isCode : c.toNat ≤ 0x10FFFF := (char_scalar c).1
      have held : Text.CodeRanges.hasCode
          (everything.map fun range => (range.1.toNat, range.2.toNat)) c.toNat = true :=
        Text.CodeRanges.hasCode_iff.mpr ⟨(0, 0x10FFFF), List.mem_singleton_self _, Nat.zero_le _, isCode⟩
      rw [held, contains_eq_has normal, List.isEmpty_iff.mp isEmpty]
      rfl
  · have areRanges := charRanges_lists normal
    have ordered : forall range, range ∈ set.charRanges -> range.1 ≤ range.2 := by
      intro range member
      have isRange : (range.1.toNat, range.2.toNat) ∈ set.ranges := by
        rw [<- areRanges]
        exact List.mem_map_of_mem member
      exact (normal.bounded _ isRange).1
    have notEmpty : set.charRanges ≠ [] := by
      intro none
      rw [none] at areRanges
      exact isEmpty (by rw [CharSet.isEmpty, <- areRanges]; rfl)
    refine ⟨(if false then ['^'] else []) ++ (rangesText set.charRanges ++ [']']), ?_,
      read_set normal false notEmpty ordered ?_⟩
    · rw [classText, if_neg isEmpty, <- areRanges]
      simp [String.toList_append, String.toList_join, rangesText, List.flatMap_map]
    · intro c
      rw [areRanges, contains_eq_has normal, Bool.false_xor]
      rfl

end Bracket
end SeedGrammar
