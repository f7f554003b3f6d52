import SeedGrammar.CharSet.Compact

namespace SeedGrammar

/-!
# The normal form of ranges

Ranges are in normal form if there is a gap between each of them and the next
and all of them consist of characters.  Two things rest on that.  A search by
halving finds what is there, because all ranges on one side of the middle lie
on one side of the code point.  And the ranges are determined by the
characters that they hold: the first range begins at the least of these and
ends before the first code point that is missing.

Whatever ranges `CharSet.ofRanges` gets, it gives ranges in normal form that
hold the same characters.  It sorts the ranges, merges those that overlap or
touch, and cuts out the surrogates.
-/

namespace Text.CodeRanges

variable {ranges rest : CodeRanges} {range : Nat × Nat} {code : Nat}

/-- Whether there is a code point between each range and the later ones. -/
def Apart (ranges : CodeRanges) : Prop :=
  ranges.Pairwise fun range later => range.2 + 1 < later.1

/-- Whether the ranges are in the order of their lower ends. -/
def Ascending (ranges : CodeRanges) : Prop :=
  ranges.Pairwise fun range later => range.1 ≤ later.1

/-- Whether the ends of each range are in order and are code points. -/
def Bounded (ranges : CodeRanges) : Prop :=
  forall range, range ∈ ranges -> range.1 ≤ range.2 ∧ range.2 ≤ CharSet.maxCode

/-- Whether no range holds a surrogate. -/
def NoSurrogates (ranges : CodeRanges) : Prop :=
  forall range, range ∈ ranges ->
    range.2 < CharSet.surrogateFirst ∨ CharSet.surrogateLast < range.1

/-- The normal form: the ranges are in ascending order with gaps between them,
and every code point in them is that of a character. -/
structure Normal (ranges : CodeRanges) : Prop where
  apart : ranges.Apart
  bounded : ranges.Bounded
  noSurrogates : ranges.NoSurrogates

theorem hasCode_eq_false
    (beside : forall range, range ∈ ranges -> code < range.1 ∨ range.2 < code) :
    ranges.hasCode code = false := by
  rw [Bool.eq_false_iff]
  intro holds
  rcases hasCode_iff.mp holds with ⟨range, member, from_first, to_last⟩
  rcases beside range member with below | above
  · omega
  · omega

/-! ## Searching by halving -/

theorem halve_eq_hasCode {steps : Nat} (apart : ranges.Apart) (bounded : ranges.Bounded)
    (enough : ranges.length ≤ steps) : halve code steps ranges = ranges.hasCode code := by
  induction steps generalizing ranges with
  | zero =>
      rw [List.length_eq_zero_iff.mp (Nat.le_zero.mp enough)]
      rfl
  | succ steps inductionHypothesis =>
      rw [halve]
      have parts := List.take_append_drop (ranges.length / 2) ranges
      have belowLength := ranges.length_take_le (ranges.length / 2)
      cases upper : ranges.drop (ranges.length / 2) with
      | nil =>
          have short := List.drop_eq_nil_iff.mp upper
          have none : ranges.length = 0 := by omega
          rw [List.length_eq_zero_iff.mp none]
          rfl
      | cons middle above =>
          rw [upper] at parts
          dsimp only
          generalize (ranges.take (ranges.length / 2) : CodeRanges) = below at parts belowLength ⊢
          have total := congrArg List.length parts
          rw [List.length_append, List.length_cons] at total
          rw [<- parts] at apart bounded ⊢
          rcases List.pairwise_append.mp apart with ⟨belowApart, upperApart, beforeUpper⟩
          rcases List.pairwise_cons.mp upperApart with ⟨afterMiddle, aboveApart⟩
          have middleOrdered := (bounded middle (List.mem_append_right _ List.mem_cons_self)).1
          rw [hasCode_append, hasCode_cons]
          by_cases less : middle.2 < code
          · have belowFree : hasCode below code = false := by
              apply hasCode_eq_false
              intro range member
              have gap := beforeUpper range member middle List.mem_cons_self
              omega
            rw [if_pos less, belowFree, Bool.false_or, decide_eq_false (Nat.not_le_of_lt less),
              Bool.and_false, Bool.false_or]
            apply inductionHypothesis aboveApart _ (by omega)
            intro range member
            exact bounded range (List.mem_append_right _ (List.mem_cons_of_mem _ member))
          · rw [if_neg less]
            by_cases greater : code < middle.1
            · have aboveFree : hasCode above code = false := by
                apply hasCode_eq_false
                intro range member
                have gap := afterMiddle range member
                omega
              rw [if_pos greater, aboveFree, Bool.or_false,
                decide_eq_false (Nat.not_le_of_lt greater), Bool.false_and, Bool.or_false]
              apply inductionHypothesis belowApart _ (by omega)
              intro range member
              exact bounded range (List.mem_append_left _ member)
            · rw [if_neg greater, decide_eq_true (Nat.le_of_not_lt greater),
                decide_eq_true (Nat.le_of_not_lt less), Bool.and_self, Bool.true_or, Bool.or_true]

/-! ## Ranges in normal form are determined by what they hold -/

theorem Normal.tail (normal : Normal (range :: rest)) : rest.Normal where
  apart := (List.pairwise_cons.mp normal.apart).2
  bounded later member := normal.bounded later (List.mem_cons_of_mem _ member)
  noSurrogates later member := normal.noSurrogates later (List.mem_cons_of_mem _ member)

/-- What the later ranges hold lies above a gap. -/
theorem Normal.gap (normal : Normal (range :: rest)) (holds : rest.hasCode code = true) :
    range.2 + 1 < code := by
  rcases hasCode_iff.mp holds with ⟨later, member, from_first, _⟩
  have apart := (List.pairwise_cons.mp normal.apart).1 later member
  omega

/-- The first range starts at the least code point that is held. -/
theorem Normal.first_le (normal : Normal (range :: rest))
    (holds : hasCode (range :: rest) code = true) : range.1 ≤ code := by
  have ordered := (normal.bounded range List.mem_cons_self).1
  rcases hasCode_iff.mp holds with ⟨later, member, from_first, _⟩
  rcases List.mem_cons.mp member with rfl | member
  · exact from_first
  · have apart := (List.pairwise_cons.mp normal.apart).1 later member
    omega

/-- What is held from the start of the first range on without a gap lies in it. -/
theorem Normal.le_last (normal : Normal (range :: rest)) {last : Nat}
    (holds : forall code, range.1 ≤ code -> code ≤ last -> hasCode (range :: rest) code = true) :
    last ≤ range.2 := by
  have ordered := (normal.bounded range List.mem_cons_self).1
  apply Nat.le_of_not_lt
  intro beyond
  have next := holds (range.2 + 1) (by omega) (by omega)
  rw [hasCode_cons, decide_eq_false (by omega : ¬range.2 + 1 ≤ range.2), Bool.and_false,
    Bool.false_or] at next
  exact absurd (normal.gap next) (by omega)

theorem hasCode_first (rest : CodeRanges) (ordered : range.1 ≤ range.2) :
    hasCode (range :: rest) range.1 = true :=
  hasCode_iff.mpr ⟨range, List.mem_cons_self, Nat.le_refl _, ordered⟩

theorem hasCode_of_within (starts : range.1 ≤ code) (ends : code ≤ range.2) :
    hasCode (range :: rest) code = true :=
  hasCode_iff.mpr ⟨range, List.mem_cons_self, starts, ends⟩

/-- Ranges in normal form that hold the same code points are the same. -/
theorem Normal.eq_of_hasCode {others : CodeRanges} (normal : ranges.Normal)
    (otherNormal : others.Normal)
    (same : forall code, ranges.hasCode code = others.hasCode code) : ranges = others := by
  induction ranges generalizing others with
  | nil =>
      cases others with
      | nil => rfl
      | cons other tail =>
          have held := hasCode_first tail (otherNormal.bounded other List.mem_cons_self).1
          rw [<- same] at held
          cases held
  | cons range rest inductionHypothesis =>
      have ordered := (normal.bounded range List.mem_cons_self).1
      cases others with
      | nil =>
          have held := hasCode_first rest ordered
          rw [same] at held
          cases held
      | cons other tail =>
          have otherOrdered := (otherNormal.bounded other List.mem_cons_self).1
          have firsts : range.1 = other.1 := by
            apply Nat.le_antisymm
            · exact normal.first_le ((same _).trans (hasCode_first tail otherOrdered))
            · exact otherNormal.first_le ((same _).symm.trans (hasCode_first rest ordered))
          have lasts : range.2 = other.2 := by
            apply Nat.le_antisymm
            · apply otherNormal.le_last
              intro code starts ends
              rw [<- same]
              exact hasCode_of_within (by omega) ends
            · apply normal.le_last
              intro code starts ends
              rw [same]
              exact hasCode_of_within (by omega) ends
          have heads : range = other := Prod.ext firsts lasts
          subst heads
          rw [inductionHypothesis normal.tail otherNormal.tail]
          intro code
          by_cases above : range.2 + 1 < code
          · have both := same code
            rwa [hasCode_cons, hasCode_cons, decide_eq_false (by omega : ¬code ≤ range.2),
              Bool.and_false, Bool.false_or, Bool.false_or] at both
          · have absent : hasCode rest code = false :=
              Bool.eq_false_iff.mpr fun holds => above (normal.gap holds)
            have absent' : hasCode tail code = false :=
              Bool.eq_false_iff.mpr fun holds => above (otherNormal.gap holds)
            rw [absent, absent']

end Text.CodeRanges

/-! ## Making the normal form -/

namespace CharSet

open Text Text.CodeRanges

variable {ranges rest : CodeRanges} {range current : Nat × Nat} {code : Nat}

theorem hasCode_absorb (ascending : Ascending (current :: rest)) (code : Nat) :
    hasCode (absorb current rest) code = hasCode (current :: rest) code := by
  induction rest generalizing current with
  | nil => rfl
  | cons next rest inductionHypothesis =>
      rcases List.pairwise_cons.mp ascending with ⟨first, later⟩
      rcases List.pairwise_cons.mp later with ⟨afterNext, _⟩
      have nextStarts := first next List.mem_cons_self
      rw [absorb]
      by_cases touches : next.1 ≤ current.2 + 1
      · rw [if_pos touches, inductionHypothesis]
        · rw [hasCode_cons, hasCode_cons, hasCode_cons, <- Bool.or_assoc]
          congr 1
          -- The two ranges make one, since no code point lies between them.
          rw [Bool.eq_iff_iff]
          simp only [Bool.and_eq_true, Bool.or_eq_true, decide_eq_true_iff]
          omega
        · refine List.pairwise_cons.mpr ⟨?_, (List.pairwise_cons.mp later).2⟩
          intro range member
          exact first range (List.mem_cons_of_mem _ member)
      · rw [if_neg touches, hasCode_cons, inductionHypothesis later, <- hasCode_cons]

/-- A merged list has gaps, and starts where its first range does. -/
theorem absorb_apart (ascending : Ascending (current :: rest)) :
    Apart (absorb current rest) ∧
      forall range, range ∈ absorb current rest -> current.1 ≤ range.1 := by
  induction rest generalizing current with
  | nil =>
      refine ⟨List.pairwise_singleton _ _, ?_⟩
      intro range member
      have same := List.mem_singleton.mp member
      exact Nat.le_of_eq (congrArg Prod.fst same.symm)
  | cons next rest inductionHypothesis =>
      rcases List.pairwise_cons.mp ascending with ⟨first, later⟩
      rw [absorb]
      by_cases touches : next.1 ≤ current.2 + 1
      · rw [if_pos touches]
        apply inductionHypothesis
        refine List.pairwise_cons.mpr ⟨?_, (List.pairwise_cons.mp later).2⟩
        intro range member
        exact first range (List.mem_cons_of_mem _ member)
      · rw [if_neg touches]
        rcases inductionHypothesis later with ⟨apart, starts⟩
        constructor
        · refine List.pairwise_cons.mpr ⟨?_, apart⟩
          intro range member
          have start := starts range member
          omega
        · intro range member
          rcases List.mem_cons.mp member with rfl | member
          · exact Nat.le_refl _
          · exact Nat.le_trans (first next List.mem_cons_self) (starts range member)

theorem absorb_bounded (bounded : Bounded (current :: rest)) : Bounded (absorb current rest) := by
  induction rest generalizing current with
  | nil => exact bounded
  | cons next rest inductionHypothesis =>
      have currentBounded := bounded current List.mem_cons_self
      have nextBounded := bounded next (List.mem_cons_of_mem _ List.mem_cons_self)
      rw [absorb]
      by_cases touches : next.1 ≤ current.2 + 1
      · rw [if_pos touches]
        apply inductionHypothesis
        intro range member
        rcases List.mem_cons.mp member with rfl | member
        · dsimp only
          omega
        · exact bounded range (List.mem_cons_of_mem _ (List.mem_cons_of_mem _ member))
      · rw [if_neg touches]
        intro range member
        rcases List.mem_cons.mp member with rfl | member
        · exact currentBounded
        · apply inductionHypothesis _ range member
          intro later isLater
          exact bounded later (List.mem_cons_of_mem _ isLater)

theorem hasCode_merge (ascending : ranges.Ascending) (code : Nat) :
    hasCode (merge ranges) code = ranges.hasCode code := by
  cases ranges with
  | nil => rfl
  | cons range rest => exact hasCode_absorb ascending code

theorem merge_apart (ascending : ranges.Ascending) : Apart (merge ranges) := by
  cases ranges with
  | nil => exact .nil
  | cons range rest => exact (absorb_apart ascending).1

theorem merge_bounded (bounded : ranges.Bounded) : Bounded (merge ranges) := by
  cases ranges with
  | nil => exact bounded
  | cons range rest => exact absorb_bounded bounded

theorem surrogates_ordered : 0 < surrogateFirst ∧ surrogateFirst ≤ surrogateLast := by
  decide

/-- A range is kept whole, or it reaches into the surrogates and the parts on
either side of them are kept. -/
theorem withoutSurrogates_cases (range : Nat × Nat) :
    (withoutSurrogates range = [range] ∧
      (range.2 < surrogateFirst ∨ surrogateLast < range.1)) ∨
    (withoutSurrogates range =
        (if range.1 < surrogateFirst then [(range.1, surrogateFirst - 1)] else []) ++
          (if surrogateLast < range.2 then [(surrogateLast + 1, range.2)] else []) ∧
      surrogateFirst ≤ range.2 ∧ range.1 ≤ surrogateLast) := by
  rw [withoutSurrogates]
  by_cases outside : (range.2 < surrogateFirst || surrogateLast < range.1) = true
  · rw [if_pos outside]
    rw [Bool.or_eq_true, decide_eq_true_iff, decide_eq_true_iff] at outside
    exact Or.inl ⟨rfl, outside⟩
  · rw [if_neg outside]
    rw [Bool.or_eq_true, decide_eq_true_iff, decide_eq_true_iff] at outside
    exact Or.inr ⟨rfl, by omega, by omega⟩

/-- The parts that are left of a range hold what it holds except surrogates. -/
theorem hasCode_withoutSurrogates (range : Nat × Nat) (code : Nat) :
    hasCode (withoutSurrogates range) code = true ↔
      (range.1 ≤ code ∧ code ≤ range.2) ∧ (code < surrogateFirst ∨ surrogateLast < code) := by
  have ordered := surrogates_ordered
  rcases withoutSurrogates_cases range with ⟨whole, outside⟩ | ⟨parts, reaches⟩
  · rw [whole, hasCode_cons, hasCode_nil, Bool.or_false, Bool.and_eq_true, decide_eq_true_iff,
      decide_eq_true_iff]
    omega
  · rw [parts]
    by_cases below : range.1 < surrogateFirst <;> by_cases above : surrogateLast < range.2 <;>
      simp [below, above] <;> omega

/-- The parts that are left of a range lie in it and apart from the
surrogates. -/
theorem withoutSurrogates_within {part : Nat × Nat} (member : part ∈ withoutSurrogates range) :
    range.1 ≤ part.1 ∧ part.2 ≤ range.2 ∧ (range.1 ≤ range.2 -> part.1 ≤ part.2) ∧
      (part.2 < surrogateFirst ∨ surrogateLast < part.1) := by
  have ordered := surrogates_ordered
  rcases withoutSurrogates_cases range with ⟨whole, outside⟩ | ⟨parts, reaches⟩
  · rw [whole, List.mem_singleton] at member
    rw [member]
    omega
  · rw [parts, List.mem_append] at member
    rcases member with below | above
    · by_cases reachesBelow : range.1 < surrogateFirst
      · rw [if_pos reachesBelow, List.mem_singleton] at below
        rw [below]
        dsimp only
        omega
      · rw [if_neg reachesBelow] at below
        cases below
    · by_cases reachesAbove : surrogateLast < range.2
      · rw [if_pos reachesAbove, List.mem_singleton] at above
        rw [above]
        dsimp only
        omega
      · rw [if_neg reachesAbove] at above
        cases above

theorem withoutSurrogates_apart (range : Nat × Nat) : Apart (withoutSurrogates range) := by
  have ordered := surrogates_ordered
  rcases withoutSurrogates_cases range with ⟨whole, _⟩ | ⟨parts, _⟩
  · rw [whole]
    exact List.pairwise_singleton _ _
  · rw [parts, Apart]
    by_cases below : range.1 < surrogateFirst <;> by_cases above : surrogateLast < range.2 <;>
      simp [below, above]
    omega

theorem rangeLe_total (first second : Nat × Nat) :
    (rangeLe first second || rangeLe second first) = true := by
  simp only [rangeLe, Bool.or_eq_true, Bool.and_eq_true, decide_eq_true_iff, beq_iff_eq]
  omega

theorem rangeLe_trans (first second third : Nat × Nat) (before : rangeLe first second = true)
    (after : rangeLe second third = true) : rangeLe first third = true := by
  simp only [rangeLe, Bool.or_eq_true, Bool.and_eq_true, decide_eq_true_iff, beq_iff_eq] at *
  omega

theorem sorted_ascending (ranges : CodeRanges) : Ascending (ranges.mergeSort rangeLe) := by
  refine (List.pairwise_mergeSort rangeLe_trans rangeLe_total ranges).imp ?_
  intro first second ordered
  simp only [rangeLe, Bool.or_eq_true, Bool.and_eq_true, decide_eq_true_iff, beq_iff_eq] at ordered
  omega

/-- A set made of ranges holds the characters of some range. -/
theorem hasCode_ofRanges (ranges : CodeRanges) (code : Nat) :
    (ofRanges ranges).ranges.hasCode code = true ↔
      ranges.hasCode code = true ∧ (code < surrogateFirst ∨ surrogateLast < code) := by
  have merged : hasCode (merge (ranges.mergeSort rangeLe)) code = true ↔
      ranges.hasCode code = true := by
    rw [hasCode_merge (sorted_ascending ranges), hasCode_iff, hasCode_iff]
    simp only [List.mem_mergeSort]
  rw [<- merged, ofRanges]
  constructor
  · intro holds
    rcases hasCode_iff.mp holds with ⟨part, isPart, within⟩
    rcases List.mem_flatMap.mp isPart with ⟨range, member, ofRange⟩
    have parts := (hasCode_withoutSurrogates range code).mp
      (hasCode_iff.mpr ⟨part, ofRange, within⟩)
    exact ⟨hasCode_iff.mpr ⟨range, member, parts.1⟩, parts.2⟩
  · rintro ⟨holds, scalar⟩
    rcases hasCode_iff.mp holds with ⟨range, member, within⟩
    rcases hasCode_iff.mp ((hasCode_withoutSurrogates range code).mpr ⟨within, scalar⟩) with
      ⟨part, ofRange, inPart⟩
    exact hasCode_iff.mpr ⟨part, List.mem_flatMap.mpr ⟨range, member, ofRange⟩, inPart⟩

/-- A set made of ranges is in normal form. -/
theorem ofRanges_normal (bounded : ranges.Bounded) : (ofRanges ranges).ranges.Normal := by
  have sortedBounded : Bounded (ranges.mergeSort rangeLe) :=
    fun range member => bounded range (List.mem_mergeSort.mp member)
  have apart := merge_apart (sorted_ascending ranges)
  constructor
  · apply List.pairwise_flatMap.mpr
    refine ⟨fun range _ => withoutSurrogates_apart range, apart.imp ?_⟩
    intro range later gap part isPart laterPart isLaterPart
    have within := withoutSurrogates_within isPart
    have laterWithin := withoutSurrogates_within isLaterPart
    omega
  · intro part isPart
    rcases List.mem_flatMap.mp isPart with ⟨range, member, ofRange⟩
    have whole := merge_bounded sortedBounded range member
    have within := withoutSurrogates_within ofRange
    exact ⟨within.2.2.1 whole.1, Nat.le_trans within.2.1 whole.2⟩
  · intro part isPart
    rcases List.mem_flatMap.mp isPart with ⟨range, _, ofRange⟩
    exact (withoutSurrogates_within ofRange).2.2.2

end CharSet
end SeedGrammar
