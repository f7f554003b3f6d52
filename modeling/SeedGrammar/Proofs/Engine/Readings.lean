import SeedGrammar.Proofs.Engine.RepeatedTurns

namespace SeedGrammar

/-!
# Readings of regular expressions

At each spot of a text an expression has matches, which end at various spots, and one of
two matches is preferred to the other.  Whoever matches the expression finds the match that
is preferred to all others.  In a greedy repetition one more iteration is preferred to
none, and the matches of an iteration are preferred in their own order.

This says what there is to find in a repetition, given what there is to find in the
expression, whatever the expression is written like and whoever matches it.  If the
expression does not look back, one match of its repetition does what a loop does that
looks for the expression again and again, `PatternProgram.FindsFirst.fused`.
-/

/-- What an expression matches: the spots where its matches end, the preferred one first. -/
structure Reading where
  ends : Spot -> List Spot
  inside : forall {spot after}, after ∈ ends spot -> after.rest <:+ spot.rest

namespace Reading

/-- Whether some match ends there. -/
def Reaches (reading : Reading) (spot after : Spot) : Prop :=
  after ∈ reading.ends spot

/-- Where a greedy repetition ends.  An iteration consumes, so as many iterations are enough
as there are characters. -/
def iterations (reading : Reading) : Nat -> Nat -> Option Nat -> Spot -> List Spot
  | 0, min, _, spot => if min = 0 then [spot] else []
  | fuel + 1, min, max, spot =>
    (if max = some 0 then []
      else (reading.ends spot).flatMap (reading.iterations fuel (min - 1) (max.map (· - 1)))) ++
    if min = 0 then [spot] else []

variable {reading : Reading} {min count fuel : Nat} {max : Option Nat} {spot after : Spot}
  {rest left text : List Char}

/-- What an iteration leads to is behind a match, or is where it starts. -/
theorem mem_iterations_succ (member : after ∈ reading.iterations (fuel + 1) min max spot) :
    (exists middle, reading.Reaches spot middle ∧
        after ∈ reading.iterations fuel (min - 1) (max.map (· - 1)) middle) ∨
      (min = 0 ∧ after = spot) := by
  rw [iterations] at member
  rcases List.mem_append.mp member with isFurther | stops
  · split at isFurther
    · cases isFurther
    · exact Or.inl (List.mem_flatMap.mp isFurther)
  · rw [List.mem_ite_nil_right, List.mem_singleton] at stops
    exact Or.inr stops

theorem iterations_inside (member : after ∈ reading.iterations fuel min max spot) :
    after.rest <:+ spot.rest := by
  induction fuel generalizing spot min max with
  | zero =>
      rw [iterations, List.mem_ite_nil_right, List.mem_singleton] at member
      exact member.2 ▸ List.suffix_refl _
  | succ fuel inductionHypothesis =>
      rcases mem_iterations_succ member with ⟨middle, reaches, later⟩ | ⟨_, rfl⟩
      · exact (inductionHypothesis later).trans (reading.inside reaches)
      · exact List.suffix_refl _

/-- The reading of a greedy repetition of an expression that consumes. -/
def repeated (reading : Reading) (min : Nat) (max : Option Nat) : Reading where
  ends spot := reading.iterations spot.rest.length min max spot
  inside := iterations_inside

/-- Turns that go as far as the first match. -/
def turn (reading : Reading) : Turn := fun rest =>
  (reading.ends ⟨none, rest⟩).head?.map Spot.rest

/-- Whether all matches that start at one spot have the same end. -/
def Determinate (reading : Reading) : Prop :=
  forall spot after after', reading.Reaches spot after -> reading.Reaches spot after' ->
    after.rest = after'.rest

/-- Whether an expression does not look back before it has consumed.  So what it matches does
not depend on the character before.  If it matches without consuming, it has only looked at
what follows; all that can be asked for there, such as the end of the text or of a line, is met
by the empty text, too, so it matches the empty text. -/
structure LooksAhead (reading : Reading) : Prop where
  same : forall previous previous' rest, (reading.ends ⟨previous, rest⟩).map Spot.rest =
    (reading.ends ⟨previous', rest⟩).map Spot.rest
  stays : forall spot after, reading.Reaches spot after -> after.rest = spot.rest ->
    reading.ends ⟨none, []⟩ ≠ []

theorem turn_eq_none : reading.turn rest = none ↔ reading.ends ⟨none, rest⟩ = [] := by
  rw [turn, Option.map_eq_none_iff, List.head?_eq_none_iff]

/-- A repetition has as many matches in it as are required. -/
theorem rounds_of_mem (member : after ∈ reading.iterations fuel min max spot) :
    exists middle, Rounds reading.Reaches min spot middle := by
  induction fuel generalizing spot min max with
  | zero =>
      rw [iterations, List.mem_ite_nil_right] at member
      exact ⟨spot, member.1 ▸ .none⟩
  | succ fuel inductionHypothesis =>
      rcases mem_iterations_succ member with ⟨middle, reaches, later⟩ | ⟨isZero, _⟩
      · rcases inductionHypothesis later with ⟨last, rounds⟩
        cases min with
        | zero => exact ⟨spot, .none⟩
        | succ min => exact ⟨last, .more reaches rounds⟩
      · exact ⟨spot, isZero ▸ .none⟩

namespace LooksAhead

variable (ahead : reading.LooksAhead)

include ahead

/-- Where there is a turn it is to the end of the first match, whatever stands before. -/
theorem exists_first (takes : reading.turn.Takes spot.rest left) :
    exists first others, reading.ends spot = first :: others ∧ first.rest = left := by
  have same := ahead.same none spot.previous spot.rest
  rcases Option.map_eq_some_iff.mp takes with ⟨first, isFirst, isLeft⟩
  rcases List.head?_eq_some_iff.mp isFirst with ⟨others, areEnds⟩
  rw [areEnds, List.map_cons] at same
  rcases List.map_eq_cons_iff.mp same.symm with ⟨first', others', areEnds', isRest, _⟩
  exact ⟨first', others', areEnds', isRest.trans isLeft⟩

/-- Where there is no turn there is no match, whatever stands before. -/
theorem stuck (isNone : reading.turn spot.rest = none) : reading.ends spot = [] := by
  have same := ahead.same none spot.previous spot.rest
  rw [turn_eq_none.mp isNone, List.map_nil] at same
  exact List.map_eq_nil_iff.mp same.symm

/-- If all matches at a spot have the same end then they are turns. -/
theorem takes_of_reaches (determinate : reading.Determinate) (reaches : reading.Reaches spot after) :
    reading.turn.Takes spot.rest after.rest := by
  cases taken : reading.turn spot.rest with
  | none =>
      rw [Reaches, ahead.stuck taken] at reaches
      cases reaches
  | some left =>
      rcases ahead.exists_first taken with ⟨first, others, areEnds, rfl⟩
      have isFirst : reading.Reaches spot first := by
        rw [Reaches, areEnds]
        exact List.mem_cons_self
      rw [Turn.Takes, taken, determinate spot first after isFirst reaches]

variable (nonempty : reading.turn [] = none)

include nonempty

theorem shorter (reaches : reading.Reaches spot after) : after.rest.length < spot.rest.length := by
  have isSuffix := reading.inside reaches
  apply Nat.lt_of_le_of_ne isSuffix.length_le
  intro same
  exact ahead.stays spot after reaches (isSuffix.eq_of_length same) (turn_eq_none.mp nonempty)

theorem ends_eq_nil (isEnd : spot.rest.length = 0) : reading.ends spot = [] := by
  rw [List.eq_nil_iff_forall_not_mem]
  intro after reaches
  have consumed := ahead.shorter nonempty reaches
  omega

/-- More iterations than there are characters make no difference. -/
theorem iterations_enough {further : Nat} (enough : spot.rest.length ≤ fuel)
    (enough' : spot.rest.length ≤ further) :
    reading.iterations fuel min max spot = reading.iterations further min max spot := by
  induction fuel generalizing further spot min max with
  | zero =>
      cases further with
      | zero => rfl
      | succ further =>
          rw [iterations, iterations, ahead.ends_eq_nil nonempty (Nat.le_zero.mp enough),
            List.flatMap_nil, ite_self, List.nil_append]
  | succ fuel inductionHypothesis =>
      cases further with
      | zero =>
          rw [iterations, iterations, ahead.ends_eq_nil nonempty (Nat.le_zero.mp enough'),
            List.flatMap_nil, ite_self, List.nil_append]
      | succ further =>
          have same : (reading.ends spot).flatMap
                (reading.iterations fuel (min - 1) (max.map (· - 1))) =
              (reading.ends spot).flatMap
                (reading.iterations further (min - 1) (max.map (· - 1))) := by
            apply List.flatMap_congr
            intro middle reaches
            have consumed := ahead.shorter nonempty reaches
            exact inductionHypothesis (by omega) (by omega)
          rw [iterations, iterations, same]

/-- A repetition goes on with one more iteration, if there may be one, and stops after that
if no more are required. -/
theorem repeated_ends : (reading.repeated min max).ends spot =
    (if max = some 0 then []
      else (reading.ends spot).flatMap (reading.repeated (min - 1) (max.map (· - 1))).ends) ++
    if min = 0 then [spot] else [] := by
  have further : (reading.repeated min max).ends spot =
      reading.iterations (spot.rest.length + 1) min max spot :=
    ahead.iterations_enough nonempty (Nat.le_refl _) (Nat.le_succ _)
  have same : (reading.ends spot).flatMap
        (reading.iterations spot.rest.length (min - 1) (max.map (· - 1))) =
      (reading.ends spot).flatMap (reading.repeated (min - 1) (max.map (· - 1))).ends := by
    apply List.flatMap_congr
    intro middle reaches
    have consumed := ahead.shorter nonempty reaches
    exact ahead.iterations_enough nonempty (by omega) (Nat.le_refl _)
  rw [further, iterations, same]

/-- The first match of a repetition goes through first matches for as long as there are any
and it may be repeated, if they are enough.  The induction is on them. -/
theorem head_repeated (rounds : Rounds reading.turn.Takes count rest left)
    (isRest : spot.rest = rest) (enough : min ≤ count)
    (atMost : forall most, max = some most -> count ≤ most)
    (ends : max = some count ∨ reading.turn left = none) :
    ((reading.repeated min max).ends spot).head?.map Spot.rest = some left := by
  induction rounds generalizing spot min max with
  | none =>
      obtain rfl : min = 0 := Nat.le_zero.mp enough
      rw [ahead.repeated_ends nonempty]
      rcases ends with rfl | isNone
      · exact congrArg some isRest
      · rw [ahead.stuck (isRest ▸ isNone), List.flatMap_nil, ite_self]
        exact congrArg some isRest
  | @more count rest middle left takes _ inductionHypothesis =>
      subst isRest
      rcases ahead.exists_first takes with ⟨first, others, areEnds, isMiddle⟩
      have mayRepeat : max ≠ some 0 := fun isNone => absurd (atMost 0 isNone) (by omega)
      have fewer : forall most, max.map (· - 1) = some most -> count ≤ most := by
        intro most isMost
        rcases Option.map_eq_some_iff.mp isMost with ⟨most', isMax, rfl⟩
        have within := atMost most' isMax
        omega
      have endsThere : max.map (· - 1) = some count ∨ reading.turn left = none :=
        ends.imp_left fun isMax => by rw [isMax]; rfl
      rcases Option.map_eq_some_iff.mp
          (inductionHypothesis isMiddle (Nat.sub_le_of_le_add enough) fewer endsThere) with
        ⟨last, isHead, isLeft⟩
      rw [ahead.repeated_ends nonempty, if_neg mayRepeat, areEnds, List.flatMap_cons,
        List.head?_append, List.head?_append, isHead]
      exact congrArg some isLeft

/-- The repetition does what the loop over first matches does.  It is simple if one match is
enough or if there is no choice. -/
theorem fused (ordered : forall most, max = some most -> min ≤ most) (text : List Char) :
    reading.turn.FusedBy (reading.repeated min max).turn min max (min ≤ 1 ∨ reading.Determinate)
      text where
  enough count left exhausts reached := by
    have atMost : forall most, max = some most -> count ≤ most := by
      intro most isMax
      have within := exhausts.atMost most isMax
      omega
    have ends : max = some count ∨ reading.turn left = none :=
      exhausts.ends.imp_left fun full => full.trans (congrArg some (Nat.zero_add count))
    have isText : (⟨none, text⟩ : Spot).rest = text := rfl
    exact ahead.head_repeated nonempty exhausts.rounds isText reached atMost ends
  few simple count left exhausts isFew := by
    have noMatch : forall {spot after}, reading.turn spot.rest = none ->
        ¬ reading.Reaches spot after := by
      intro spot after isNone
      rw [Reaches, ahead.stuck isNone]
      exact List.not_mem_nil
    have isTurn : forall determinate : reading.Determinate, forall spot after,
        reading.Reaches spot after -> reading.turn.Takes spot.rest after.rest :=
      fun determinate _ _ => ahead.takes_of_reaches determinate
    rw [turn_eq_none, List.eq_nil_iff_forall_not_mem]
    intro after member
    rcases rounds_of_mem member with ⟨_, rounds⟩
    exact exhausts.no_rounds ordered isFew noMatch (simple.imp_right isTurn) rounds

end LooksAhead

end Reading

/-- Whether a program finds the first match of an expression in all that may be left of a
text. -/
def PatternProgram.FindsFirst (program : PatternProgram) (reading : Reading) (text : List Char) :
    Prop :=
  forall rest, rest <:+ text -> Turn.ofProgram program rest = reading.turn rest

namespace PatternProgram.FindsFirst

variable {single whole : PatternProgram} {reading : Reading} {text : List Char}
  (finds : single.FindsFirst reading text)

include finds

theorem nonempty (noMatch : single.isMatch [] = false) : reading.turn [] = none := by
  rw [<- finds [] (List.nil_suffix), Turn.ofProgram, Option.map_eq_none_iff]
  exact Option.not_isSome_iff_eq_none.mp (ne_true_of_eq_false noMatch)

theorem advances (ahead : reading.LooksAhead) (nonempty : reading.turn [] = none) :
    (Turn.ofProgram single).Advances text := by
  intro rest left isSuffix takes
  rw [Turn.Takes, finds rest isSuffix] at takes
  rcases Option.map_eq_some_iff.mp takes with ⟨first, isFirst, rfl⟩
  exact ahead.shorter nonempty (List.mem_of_head? isFirst)

/-- The loop over what the program finds is that over first matches. -/
theorem rounds {count : Nat} {rest left : List Char} (isSuffix : rest <:+ text)
    (rounds : Rounds (Turn.ofProgram single).Takes count rest left) :
    left <:+ text ∧ Rounds reading.turn.Takes count rest left := by
  induction rounds with
  | none => exact ⟨isSuffix, .none⟩
  | @more count rest middle left takes _ inductionHypothesis =>
      have takes' : reading.turn.Takes rest middle := by
        rw [Turn.Takes, <- finds rest isSuffix]
        exact takes
      rcases Option.map_eq_some_iff.mp takes with ⟨found, _, rfl⟩
      rcases inductionHypothesis ((List.drop_suffix _ _).trans isSuffix) with ⟨inside, later⟩
      exact ⟨inside, .more takes' later⟩

/-- One match of the repetition does what the loop does that looks for the expression again
and again. -/
theorem fused {min : Nat} {max : Option Nat} (ahead : reading.LooksAhead)
    (nonempty : reading.turn [] = none) (ordered : forall most, max = some most -> min ≤ most)
    (finds' : whole.FindsFirst (reading.repeated min max) text) :
    (Turn.ofProgram single).FusedBy (Turn.ofProgram whole) min max (min ≤ 1 ∨ reading.Determinate)
      text := by
  have isWhole := finds' text (List.suffix_refl _)
  have isFused := ahead.fused nonempty ordered text
  have exhausts : forall count left, (Turn.ofProgram single).Exhausts 0 max text count left ->
      reading.turn.Exhausts 0 max text count left := by
    intro count left exhausts
    rcases finds.rounds (List.suffix_refl _) exhausts.rounds with ⟨inside, isRounds⟩
    exact ⟨isRounds, exhausts.atMost, exhausts.ends.imp_right fun isNone =>
      (finds left inside).symm.trans isNone⟩
  constructor
  · intro count left isExhausted reached
    exact isWhole.trans (isFused.enough count left (exhausts count left isExhausted) reached)
  · intro simple count left isExhausted isFew
    exact isWhole.trans (isFused.few simple count left (exhausts count left isExhausted) isFew)

end PatternProgram.FindsFirst
end SeedGrammar
