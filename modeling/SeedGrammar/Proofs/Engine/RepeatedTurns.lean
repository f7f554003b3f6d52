import SeedGrammar.Proofs.Engine.LeafRepetition
import SeedGrammar.Proofs.Pattern.Surroundings

namespace SeedGrammar

/-!
# Turns of an expression and of its repetition

The loop of the engine looks for each match of an expression on what is left of the text,
as if nothing stood before, and does not come back to it.  A repetition within one
expression sees the whole text, and may give up a match for another one.  If the expression
does not look back, both go through the same preferred matches, so a repetition matches
what the turns of the expression exhaust if they are enough, `Pattern.ofProgram_repeated`.

If they are not enough the repetition may still match, by other matches of the expression.
It cannot if one match is enough, or if there is never a choice between matches,
`Pattern.ofProgram_repeated_few`.  Both together are what it means for one turn to do what
a loop does, `Turn.FusedBy`.
-/

namespace Turn

variable {turn : Turn} {already count count' min : Nat} {max : Option Nat}
  {rest left left' : List Char}

/-- So many turns lead to one place only. -/
theorem rounds_unique (rounds : Rounds turn.Takes count rest left)
    (rounds' : Rounds turn.Takes count rest left') : left = left' :=
  rounds.unique (fun _ _ _ takes takes' => Option.some.inj (takes.symm.trans takes')) rounds'

namespace Exhausts

/-- Where a loop over turns ends is determined. -/
theorem unique (exhausts : turn.Exhausts already max rest count left)
    (exhausts' : turn.Exhausts already max rest count' left') : count = count' ∧ left = left' := by
  have atMost : forall {early late : Nat} {left left' : List Char},
      turn.Exhausts already max rest early left -> turn.Exhausts already max rest late left' ->
      late ≤ early := by
    intro early late left left' exhausts exhausts'
    apply Nat.le_of_not_lt
    intro less
    rcases Nat.exists_eq_add_of_lt less with ⟨more, rfl⟩
    rcases exhausts.ends with full | isNone
    · have within := exhausts'.atMost _ full
      omega
    · -- There would be a turn where there is none.
      have rounds : Rounds turn.Takes (early + (more + 1)) rest left' := exhausts'.rounds
      rcases rounds.split with ⟨middle, begins, ends⟩
      obtain rfl := rounds_unique exhausts.rounds begins
      cases ends with
      | more takes _ => cases isNone.symm.trans takes
  obtain rfl := Nat.le_antisymm (atMost exhausts' exhausts) (atMost exhausts exhausts')
  exact ⟨rfl, rounds_unique exhausts.rounds exhausts'.rounds⟩

/-- A loop with too few turns has not ended because it may take no more of them. -/
theorem stops (exhausts : turn.Exhausts 0 max rest count left)
    (ordered : forall most, max = some most -> min ≤ most) (few : count < min) :
    turn left = none := by
  rcases exhausts.ends with full | isNone
  · have within := ordered _ full
    omega
  · exact isNone

/-- Where the turns are too few there are too few matches, if there is none where there is no
turn, and if one is enough or every match is a turn. -/
theorem no_rounds {spot after : Spot} {reaches : Spot -> Spot -> Prop}
    (exhausts : turn.Exhausts 0 max spot.rest count left)
    (ordered : forall most, max = some most -> min ≤ most) (few : count < min)
    (stuck : forall {spot after}, turn spot.rest = none -> ¬ reaches spot after)
    (simple : min ≤ 1 ∨ forall spot after, reaches spot after -> turn.Takes spot.rest after.rest) :
    ¬ Rounds reaches min spot after := by
  intro rounds
  rcases Nat.exists_eq_add_of_lt few with ⟨more, isMin⟩
  have isLeast : min = count + (more + 1) := isMin
  rw [isLeast] at rounds
  rcases rounds.split with ⟨middle, early, late⟩
  -- The matches so far are the turns, and there is another match.
  have isLeft : middle.rest = left := by
    rcases simple with atMost | areTurns
    · obtain rfl : count = 0 := by omega
      rw [<- early.zero, <- exhausts.rounds.zero]
    · exact rounds_unique (early.map (f := Spot.rest) areTurns) exhausts.rounds
  cases late with
  | more reached _ => exact stuck (isLeft ▸ exhausts.stops ordered few) reached

end Exhausts

end Turn

/-- Whether one turn does what a loop over turns does.  It takes what these exhaust if they
are enough.  Where they are not it takes nothing, at least in a simple case. -/
structure Turn.FusedBy (turn whole : Turn) (min : Nat) (max : Option Nat) (simple : Prop)
    (text : List Char) : Prop where
  enough : forall count left, turn.Exhausts 0 max text count left -> min ≤ count ->
    whole text = some left
  few : simple -> forall count left, turn.Exhausts 0 max text count left -> count < min ->
    whole text = none

namespace Pattern

/-- Whether all matches of an expression that start at one spot have the same end. -/
def Determinate (pattern : Pattern) : Prop :=
  forall (numbered : pattern.Numbered) (spot after after' : Spot),
    (pattern.fragment numbered).Matches spot after -> (pattern.fragment numbered).Matches spot after' ->
      after.rest = after'.rest

/-- The turns of an expression at the start of what is left of a text. -/
def turn (pattern : Pattern) : Turn :=
  Turn.ofProgram pattern.behindStart.toProgram

/-- An expression that neither looks back nor matches the empty text.  So it consumes. -/
structure Repeatable (inner : Pattern) : Prop where
  proper : inner.Proper
  ahead : inner.looksBack = false
  nonempty : inner.turn [] = none

variable {inner : Pattern} {numbered : inner.Numbered} {rest left : List Char} {count min : Nat}
  {max : Option Nat}

/-- A turn goes as far as the preferred match. -/
theorem turn_takes (numbered : inner.Numbered) {after : Spot}
    (prefers : (inner.fragment numbered).Prefers ⟨none, rest⟩ after) :
    inner.turn rest = some after.rest := by
  rcases find?_of_prefers prefers with ⟨found, isFound, isLeft⟩
  rw [turn, Turn.ofProgram, isFound, Option.map_some, isLeft]

theorem prefers_of_turn (numbered : inner.Numbered) (takes : inner.turn.Takes rest left) :
    exists last, (inner.fragment numbered).Prefers ⟨none, rest⟩ ⟨last, left⟩ := by
  rcases Option.map_eq_some_iff.mp takes with ⟨found, isFound, rfl⟩
  rcases prefers_of_find? numbered isFound with ⟨after, prefers, isLeft⟩
  exact ⟨after.previous, isLeft ▸ prefers⟩

theorem stuck_of_turn (numbered : inner.Numbered) (isNone : inner.turn rest = none) :
    (inner.fragment numbered).Stuck ⟨none, rest⟩ := by
  intro after matched
  rcases Comes.exists_way matched with ⟨last, way⟩
  cases isNone.symm.trans (turn_takes numbered way)

theorem turn_advances (consumes : (inner.fragment numbered).Consumes) (text : List Char) :
    inner.turn.Advances text := by
  intro rest left _ takes
  rcases prefers_of_turn numbered takes with ⟨last, prefers⟩
  exact consumes.shorter prefers.comes

namespace Repeatable

variable (repeatable : inner.Repeatable)

include repeatable

theorem atStart :
    Ahead (inner.fragment repeatable.proper.numbered).code
      (inner.fragment repeatable.proper.numbered).entry :=
  fragment_avoids repeatable.proper repeatable.ahead rfl

theorem consumes : (inner.fragment repeatable.proper.numbered).Consumes :=
  Fragment.consumes_of_stuck repeatable.atStart (stuck_of_turn _ repeatable.nonempty)

theorem advances (text : List Char) : inner.turn.Advances text :=
  turn_advances repeatable.consumes text

/-- Where there is no turn there is no match, whatever stands before. -/
theorem stuck (isNone : inner.turn rest = none) (previous : Option Char) :
    (inner.fragment repeatable.proper.numbered).Stuck ⟨previous, rest⟩ :=
  (stuck_of_turn _ isNone).elsewhere repeatable.atStart repeatable.consumes rfl

/-- Turns are preferred matches, whatever stands before. -/
theorem rounds (turns : Rounds inner.turn.Takes count rest left) (previous : Option Char) :
    exists last, Rounds (inner.fragment repeatable.proper.numbered).Prefers count
      ⟨previous, rest⟩ ⟨last, left⟩ := by
  induction turns generalizing previous with
  | none => exact ⟨previous, .none⟩
  | more takes _ inductionHypothesis =>
      rcases prefers_of_turn repeatable.proper.numbered takes with ⟨middle, prefers⟩
      rcases inductionHypothesis middle with ⟨last, rounds⟩
      exact ⟨last, .more (prefers.elsewhere repeatable.atStart repeatable.consumes rfl) rounds⟩

/-- If all matches at a spot have the same end then they are turns. -/
theorem takes_of_matches (determinate : inner.Determinate) {spot after : Spot}
    (matched : (inner.fragment repeatable.proper.numbered).Matches spot after) :
    inner.turn.Takes spot.rest after.rest := by
  have matched' : (inner.fragment repeatable.proper.numbered).Matches ⟨none, spot.rest⟩ after :=
    matched.elsewhere repeatable.atStart repeatable.consumes rfl
  rcases Comes.exists_way matched' with ⟨last, way⟩
  rw [Turn.Takes, turn_takes _ way, determinate _ _ _ _ way.comes matched']

end Repeatable

/-- An expression that consumes and only has empty matches takes no turns. -/
theorem Repeatable.no_turns (repeatable : inner.Repeatable) (isZeroWidth : inner.isZeroWidth = true)
    (turns : Rounds inner.turn.Takes count rest left) : count = 0 := by
  cases turns with
  | none => rfl
  | more takes _ =>
      rcases prefers_of_turn repeatable.proper.numbered takes with ⟨last, prefers⟩
      exact absurd prefers.comes
        (stuck_of_isZeroWidth repeatable.proper isZeroWidth repeatable.consumes _ _)

/-- The repetition matches what the turns exhaust, if they are enough. -/
theorem ofProgram_repeated (repeatable : inner.Repeatable) (enough : min ≤ count)
    (exhausts : inner.turn.Exhausts 0 max rest count left) :
    (repeated ⟨min, max⟩ true inner).turn rest = some left := by
  rcases repeatable.rounds exhausts.rounds none with ⟨last, rounds⟩
  have isStuck : inner.turn left = none ->
      (inner.fragment repeatable.proper.numbered).Stuck ⟨last, left⟩ :=
    fun isNone => repeatable.stuck isNone last
  have matched : exists found,
      (repeated ⟨min, max⟩ true inner).behindStart.toProgram.find? rest = some found ∧
        rest.drop found.stop = left := by
    cases isZeroWidth : inner.isZeroWidth with
    | true =>
        obtain rfl := repeatable.no_turns isZeroWidth exhausts.rounds
        obtain rfl : min = 0 := Nat.le_zero.mp enough
        refine find?_repeated repeatable.consumes rounds ?_ (fun _ _ => Nat.zero_le _) ?_
        · rw [isZeroWidth]
          exact Nat.le_refl _
        · exact Or.inr (stuck_of_isZeroWidth repeatable.proper isZeroWidth repeatable.consumes _)
    | false =>
        have atMost : forall most, max = some most -> count ≤ most := by
          intro most isMax
          have within := exhausts.atMost most isMax
          omega
        refine find?_repeated repeatable.consumes rounds ?_ ?_ ?_
        · rw [isZeroWidth]
          exact enough
        · rw [isZeroWidth]
          exact atMost
        · rw [isZeroWidth]
          rcases exhausts.ends with full | isNone
          · exact Or.inl (full.trans (congrArg some (Nat.zero_add count)))
          · exact Or.inr (isStuck isNone)
  rcases matched with ⟨found, isFound, isLeft⟩
  rw [turn, Turn.ofProgram, isFound, Option.map_some, isLeft]

/-- The repetition does not match where the turns are not enough, if one is enough or there
is no choice. -/
theorem ofProgram_repeated_few (repeatable : inner.Repeatable)
    (ordered : forall most, max = some most -> min ≤ most) (few : count < min)
    (simple : min ≤ 1 ∨ inner.Determinate) (exhausts : inner.turn.Exhausts 0 max rest count left) :
    (repeated ⟨min, max⟩ true inner).turn rest = none := by
  rw [turn, Turn.ofProgram, Option.map_eq_none_iff]
  by_contra matched
  rcases Option.ne_none_iff_exists'.mp matched with ⟨found, isFound⟩
  rcases rounds_of_find?_repeated repeatable.proper.numbered isFound with ⟨after, rounds⟩
  cases isZeroWidth : inner.isZeroWidth with
  | true =>
      have atLeast : 1 ≤ min := Nat.lt_of_le_of_lt (Nat.zero_le count) few
      have isOne : (RepeatBounds.capped ⟨min, max⟩ true).min = 1 := Nat.min_eq_right atLeast
      rw [isZeroWidth, isOne] at rounds
      exact stuck_of_isZeroWidth repeatable.proper isZeroWidth repeatable.consumes _ _ rounds.one
  | false =>
      rw [isZeroWidth] at rounds
      have isTurn : forall determinate : inner.Determinate, forall spot after,
          (inner.fragment repeatable.proper.numbered).Matches spot after ->
            inner.turn.Takes spot.rest after.rest :=
        fun determinate _ _ => repeatable.takes_of_matches determinate
      exact exhausts.no_rounds ordered few (fun isNone => repeatable.stuck isNone _ _)
        (simple.imp_right isTurn) rounds

/-- The repetition does what the loop over turns does.  It is simple if one match is enough or
there is no choice. -/
theorem Repeatable.fused (repeatable : inner.Repeatable)
    (ordered : forall most, max = some most -> min ≤ most) (text : List Char) :
    inner.turn.FusedBy (repeated ⟨min, max⟩ true inner).turn min max
      (min ≤ 1 ∨ inner.Determinate) text where
  enough _ _ exhausts reached := ofProgram_repeated repeatable reached exhausts
  few simple _ _ exhausts isFew := ofProgram_repeated_few repeatable ordered isFew simple exhausts

end Pattern
end SeedGrammar
