import SeedGrammar.Proofs.Pattern.Meeting
import SeedGrammar.Proofs.Pattern.Repetition

namespace SeedGrammar

/-!
# Matches that do not depend on what stands before

If an expression does not look back before it has consumed a character, then it prefers the
same matches at all spots with the same text behind them: up to the first character the
same ways are open, and behind it the spots are the same, `Way.elsewhere`.

Such an expression need only be tried on the empty text to see that it always consumes.
There all assertions that it can meet hold, so that a way without characters is open there
if it is open anywhere, `Fragment.consumes_of_stuck`.
-/

/-- Whether no way from a place comes to an assertion about the character before a
position until it consumes a character. -/
abbrev Ahead (code : Array Instruction) (place : Nat) : Prop :=
  Avoids Sought.behind code place

variable {code : Array Instruction} {spot spot' last : Spot} {place next stop : Nat}
  {passed : Set Nat}

theorem Spot.holds_elsewhere {assertion : Assertion} (ahead : assertion.looksBack = false)
    (same : spot.rest = spot'.rest) : spot.holds assertion = spot'.holds assertion := by
  cases assertion with
  | textEnd => exact congrArg List.isEmpty same
  | lineEnd => exact congrArg (fun rest => List.isEmpty rest || rest.head? == some '\n') same
  | _ => cases ahead

/-- At the end of a text all assertions hold that do not look back. -/
theorem Spot.holds_atEnd {assertion : Assertion} (ahead : assertion.looksBack = false) :
    (Spot.mk none []).holds assertion = true := by
  cases assertion with
  | textEnd => rfl
  | lineEnd => rfl
  | _ => cases ahead

namespace Ahead

/-- From such a place the same ways lead on wherever the text behind is the same. -/
theorem onward {instruction : Instruction} (ahead : Ahead code place)
    (found : code[place]? = some instruction) (same : spot.rest = spot'.rest) :
    instruction.onward spot.holds = instruction.onward spot'.holds := by
  cases instruction with
  | assert assertion target =>
      rw [Instruction.onward, Instruction.onward, Spot.holds_elsewhere (ahead.not_isAt found) same]
  | _ => rfl

theorem slips_elsewhere (ahead : Ahead code place) (slips : Slips code spot.holds place next)
    (same : spot.rest = spot'.rest) : Slips code spot'.holds place next := by
  rcases slips with ⟨instruction, found, member⟩
  exact ⟨instruction, found, ahead.onward found same ▸ member⟩

/-- A way without characters is open at the end of a text. -/
theorem reaches_atEnd {target : Nat} (ahead : Ahead code place)
    (reaches : Relation.ReflTransGen (Slips code spot.holds) place target) :
    Relation.ReflTransGen (Slips code (Spot.mk none []).holds) place target := by
  induction reaches using Relation.ReflTransGen.head_induction_on with
  | refl => exact .refl
  | @head place next slips _ inductionHypothesis =>
      refine .head ?_ (inductionHypothesis (ahead.slips slips))
      rcases slips with ⟨instruction, found, member⟩
      refine ⟨instruction, found, ?_⟩
      cases instruction with
      | assert assertion target =>
          rw [Instruction.onward, Spot.holds_atEnd (ahead.not_isAt found)]
          exact Instruction.onward_all member
      | _ => exact member

end Ahead

/-! ## Ways elsewhere -/

/-- What comes to the end does so elsewhere, at the same spot if it consumes a
character. -/
theorem Comes.elsewhere (comes : Comes code last place spot) (ahead : Ahead code place)
    (same : spot.rest = spot'.rest) :
    Comes code last place spot' ∨ last = spot ∧ Comes code spot' place spot' := by
  induction comes with
  | arrives found => exact Or.inr ⟨rfl, .arrives found⟩
  | slips slips _ inductionHypothesis =>
      have slips' := ahead.slips_elsewhere slips same
      rcases inductionHypothesis (ahead.slips slips) same with comes | ⟨isLast, comes⟩
      · exact Or.inl (.slips slips' comes)
      · exact Or.inr ⟨isLast, .slips slips' comes⟩
  | consumes found inSet comes _ =>
      rcases spot' with ⟨previous, rest⟩
      cases same
      exact Or.inl (.consumes found inSet comes)

theorem Live.elsewhere (live : Live code spot place) (ahead : Ahead code place)
    (same : spot.rest = spot'.rest) : Live code spot' place := by
  rcases live with ⟨halts, last, comes⟩
  rcases comes.elsewhere ahead same with comes | ⟨_, comes⟩
  · exact ⟨halts, _, comes⟩
  · exact ⟨halts, _, comes⟩

theorem Escapes.elsewhere (escapes : Escapes code spot passed place) (ahead : Ahead code place)
    (same : spot.rest = spot'.rest) : Escapes code spot' passed place := by
  induction escapes with
  | stop isNew live => exact .stop isNew (live.elsewhere ahead same)
  | slip isNew slips _ inductionHypothesis =>
      exact .slip isNew (ahead.slips_elsewhere slips same) (inductionHypothesis (ahead.slips slips))

theorem Leads.elsewhere (leads : Leads code spot passed place stop) (ahead : Ahead code place)
    (same : spot.rest = spot'.rest) : Leads code spot' passed place stop := by
  induction leads with
  | stop isNew live => exact .stop isNew (live.elsewhere ahead same)
  | step isNew found onward blocked leads inductionHypothesis =>
      have onward' := (ahead.onward found same).symm.trans onward
      refine .step isNew found onward' ?_ (inductionHypothesis (ahead.slips (Leads.slips found onward)))
      intro other member escapes
      have slips : Slips code spot.holds _ other :=
        ⟨_, found, onward ▸ List.mem_append_left _ member⟩
      exact blocked other member (escapes.elsewhere (ahead.slips slips) same.symm)

/-- A preferred way is preferred elsewhere, and ends at the same spot if it consumes a
character. -/
theorem Way.elsewhere (way : Way code last place spot) (ahead : Ahead code place)
    (same : spot.rest = spot'.rest) :
    Way code last place spot' ∨ last = spot ∧ Way code spot' place spot' := by
  cases way with
  | arrives leads found => exact Or.inr ⟨rfl, .arrives (leads.elsewhere ahead same) found⟩
  | consumes leads found inSet way =>
      rcases spot' with ⟨previous, rest⟩
      cases same
      exact Or.inl (.consumes (leads.elsewhere ahead rfl) found inSet way)

/-! ## Fragments that consume -/

/-- To come to an end is to consume, or to come there without a character. -/
theorem Comes.shorter (comes : Comes code last place spot) :
    last.rest.length < spot.rest.length ∨
      exists stop, code[stop]? = some .accept ∧
        Relation.ReflTransGen (Slips code spot.holds) place stop := by
  induction comes with
  | arrives found => exact Or.inr ⟨_, found, .refl⟩
  | slips slips _ inductionHypothesis =>
      rcases inductionHypothesis with shorter | ⟨stop, found, reaches⟩
      · exact Or.inl shorter
      · exact Or.inr ⟨stop, found, .head slips reaches⟩
  | consumes _ _ comes _ =>
      rcases comes.suffix with ⟨taken, isRest⟩
      have length := congrArg List.length isRest
      dsimp only at length
      rw [List.length_append] at length
      left
      rw [List.length_cons]
      omega

/-- Where no character is met a way ends where it begins. -/
theorem Comes.spot_eq (comes : Comes code last place spot)
    (avoids : Avoids Sought.aCharacter code place) : last = spot := by
  induction comes with
  | arrives _ => rfl
  | slips slips _ inductionHypothesis => exact inductionHypothesis (avoids.slips slips)
  | consumes found _ _ _ => cases avoids.not_isAt found

namespace Fragment

variable {fragment : Fragment} {after : Spot}

theorem Consumes.shorter (consumes : fragment.Consumes) (matched : fragment.Matches spot after) :
    after.rest.length < spot.rest.length := by
  rcases Comes.shorter matched with shorter | ⟨stop, found, reaches⟩
  · exact shorter
  · rcases Nat.eq_zero_or_pos stop with rfl | isOwn
    · exact absurd reaches (consumes spot)
    · exact absurd found (not_accept isOwn)

/-- A fragment that does not look back consumes if it does not match the empty text. -/
theorem consumes_of_stuck (ahead : Ahead fragment.code fragment.entry)
    (stuck : fragment.Stuck ⟨none, []⟩) : fragment.Consumes := by
  intro spot reaches
  exact stuck ⟨none, []⟩ (Comes.slipped (ahead.reaches_atEnd reaches) (.arrives fragment.ends))

theorem Matches.elsewhere (matched : fragment.Matches spot after)
    (ahead : Ahead fragment.code fragment.entry) (consumes : fragment.Consumes)
    (same : spot.rest = spot'.rest) : fragment.Matches spot' after := by
  rcases Comes.elsewhere matched ahead same with matched' | ⟨rfl, _⟩
  · exact matched'
  · exact absurd (consumes.shorter matched) (Nat.lt_irrefl _)

theorem Prefers.elsewhere (prefers : fragment.Prefers spot after)
    (ahead : Ahead fragment.code fragment.entry) (consumes : fragment.Consumes)
    (same : spot.rest = spot'.rest) : fragment.Prefers spot' after := by
  rcases Way.elsewhere prefers ahead same with prefers' | ⟨rfl, _⟩
  · exact prefers'
  · exact absurd (consumes.shorter prefers.comes) (Nat.lt_irrefl _)

theorem Stuck.elsewhere (stuck : fragment.Stuck spot) (ahead : Ahead fragment.code fragment.entry)
    (consumes : fragment.Consumes) (same : spot.rest = spot'.rest) : fragment.Stuck spot' :=
  fun after matched => stuck after (matched.elsewhere ahead consumes same.symm)

end Fragment

/-! ## Fragments of expressions -/

namespace Pattern

open Assembly

variable {pattern : Pattern} {sought : Sought}

/-- What cannot be met in an expression is not met in its fragment. -/
theorem fragment_avoids (proper : pattern.Proper) (avoids : pattern.mayMeet sought = false)
    (goesOn : sought.ending = false) :
    Avoids sought (pattern.fragment proper.numbered).code (pattern.fragment proper.numbered).entry := by
  intro count meets
  rcases assemble_passesThrough proper avoids (pattern.fragment proper.numbered).code #[.accept] count 0
    (fun _ _ _ => rfl) meets with ⟨_, earlier, _, meets⟩
  rcases meets.goesOn (pattern.fragment proper.numbered).ends goesOn with ⟨_, _, _, member, _⟩
  cases member

theorem meets_of_reaches {code : Array Instruction} {holds : Assertion -> Bool} {place : Nat}
    (ends : code[0]? = some .accept) (reaches : Relation.ReflTransGen (Slips code holds) place 0) :
    exists count, Meets Sought.theEnd code count place := by
  induction reaches using Relation.ReflTransGen.head_induction_on with
  | refl => exact ⟨0, .here ends rfl⟩
  | head slips _ inductionHypothesis =>
      rcases slips with ⟨instruction, found, member⟩
      rcases inductionHypothesis with ⟨count, meets⟩
      exact ⟨count + 1, .slips ⟨instruction, found, Instruction.onward_all member⟩ meets⟩

/-- An expression that is taken to consume does so. -/
theorem fragment_consumes (proper : pattern.Proper) (consumes : pattern.consumes = true) :
    (pattern.fragment proper.numbered).Consumes := by
  intro spot reaches
  rcases meets_of_reaches (pattern.fragment proper.numbered).ends reaches with ⟨count, meets⟩
  have passes := assemble_passesThrough proper pattern.mayMeet_theEnd
    (pattern.fragment proper.numbered).code #[.accept] count 0 (fun _ _ _ => rfl) meets
  rw [consumes] at passes
  cases passes.1

/-- An expression that consumes does not match if its matches are empty. -/
theorem stuck_of_isZeroWidth (proper : pattern.Proper) (isZeroWidth : pattern.isZeroWidth = true)
    (consumes : (pattern.fragment proper.numbered).Consumes) (spot : Spot) :
    (pattern.fragment proper.numbered).Stuck spot := by
  intro after matched
  have avoids := fragment_avoids proper (mayMeet_of_isZeroWidth isZeroWidth) rfl
  have shorter := consumes.shorter matched
  rw [Comes.spot_eq matched avoids] at shorter
  exact Nat.lt_irrefl _ shorter

end Pattern
end SeedGrammar
