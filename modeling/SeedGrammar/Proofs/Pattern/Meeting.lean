import SeedGrammar.Proofs.Pattern.Iteration
import SeedGrammar.Proofs.Pattern.Proper

namespace SeedGrammar

/-!
# What is met before the first character

A way through a program may meet assertions before it comes to a character, or come to
the end without one.  What it can meet shows in the expression: a sequence is passed
through only if its first part need not consume, and a repetition only meets what its body
meets.  If nothing that is sought can be met in an expression then a way from there that
meets it passes through the expression before, `Pattern.assemble_meets`.

Three questions are of this kind.  One is whether an expression looks back at what stands
before it, for behind a character there is no difference.  The others are whether a
character can be met at all, and whether the end can be met without one.
-/

/-- What is sought on the way to the first character: some assertions, this character
itself, or the end of the program. -/
structure Sought where
  assertion : Assertion -> Bool
  character : Bool
  ending : Bool

/-- Whether an instruction is one of those that are sought. -/
def Sought.isAt (sought : Sought) : Instruction -> Bool
  | .one _ _ => sought.character
  | .assert assertion _ => sought.assertion assertion
  | .accept => sought.ending
  | _ => false

/-- Whether an assertion is about the character before a position. -/
def Assertion.looksBack : Assertion -> Bool
  | textEnd => false
  | lineEnd => false
  | _ => true

namespace Sought

/-- Assertions about the character before a position. -/
def behind : Sought := ⟨Assertion.looksBack, false, false⟩

/-- A character, whatever it is. -/
def aCharacter : Sought := ⟨fun _ => false, true, false⟩

/-- The end of the program. -/
def theEnd : Sought := ⟨fun _ => false, false, true⟩

end Sought

namespace Pattern

/-- Whether something that is sought can be met up to the first character. -/
def mayMeet (sought : Sought) : Pattern -> Bool
  | empty => false
  | one _ => sought.character
  | assert assertion => sought.assertion assertion
  | group _ body => body.mayMeet sought
  | seq first second => first.mayMeet sought || (!first.consumes && second.mayMeet sought)
  | alt first second => first.mayMeet sought || second.mayMeet sought
  | times bounds _ body => bounds.max != some 0 && body.mayMeet sought

/-- Whether an assertion about the character before a position can be met before a
character has been consumed. -/
def looksBack (pattern : Pattern) : Bool :=
  pattern.mayMeet Sought.behind

/-- The end of the program is no part of an expression. -/
theorem mayMeet_theEnd (pattern : Pattern) : pattern.mayMeet Sought.theEnd = false := by
  induction pattern with
  | empty => rfl
  | one set => rfl
  | assert assertion => rfl
  | group index body inductionHypothesis => exact inductionHypothesis
  | seq first second firstHypothesis secondHypothesis =>
      rw [mayMeet, firstHypothesis, secondHypothesis, Bool.and_false, Bool.or_false]
  | alt first second firstHypothesis secondHypothesis =>
      rw [mayMeet, firstHypothesis, secondHypothesis, Bool.or_false]
  | times bounds greedy body inductionHypothesis => rw [mayMeet, inductionHypothesis, Bool.and_false]

/-- In an expression whose matches are empty no character is met. -/
theorem mayMeet_of_isZeroWidth {pattern : Pattern} (isZeroWidth : pattern.isZeroWidth = true) :
    pattern.mayMeet Sought.aCharacter = false := by
  induction pattern with
  | empty => rfl
  | one set => cases isZeroWidth
  | assert assertion => rfl
  | group index body inductionHypothesis => exact inductionHypothesis isZeroWidth
  | seq first second firstHypothesis secondHypothesis =>
      rcases Bool.and_eq_true_iff.mp isZeroWidth with ⟨isFirst, isSecond⟩
      rw [mayMeet, firstHypothesis isFirst, secondHypothesis isSecond, Bool.and_false, Bool.or_false]
  | alt first second firstHypothesis secondHypothesis =>
      rcases Bool.and_eq_true_iff.mp isZeroWidth with ⟨isFirst, isSecond⟩
      rw [mayMeet, firstHypothesis isFirst, secondHypothesis isSecond, Bool.or_false]
  | times bounds greedy body inductionHypothesis =>
      rcases Bool.or_eq_true_iff.mp isZeroWidth with isBody | isNone
      · rw [mayMeet, inductionHypothesis isBody, Bool.and_false]
      · rw [mayMeet, bne, isNone]
        rfl

end Pattern

/-- Whether a way from a place meets something that is sought after a number of steps, and
has not consumed until then.  All assertions are taken to hold. -/
inductive Meets (sought : Sought) (code : Array Instruction) : Nat -> Nat -> Prop where
  | here {place instruction} : code[place]? = some instruction -> sought.isAt instruction = true ->
      Meets sought code 0 place
  | slips {count place next} : Slips code (fun _ => true) place next -> Meets sought code count next ->
      Meets sought code (count + 1) place

section Meeting

variable {sought : Sought} {whole before middle after : Array Instruction}
  {count place next further entry : Nat}

/-- At an instruction that is not sought a way goes on. -/
theorem Meets.goesOn {instruction : Instruction} (meets : Meets sought whole count place)
    (found : whole[place]? = some instruction) (other : sought.isAt instruction = false) :
    exists earlier next, count = earlier + 1 ∧ next ∈ instruction.onward (fun _ => true) ∧
      Meets sought whole earlier next := by
  cases meets with
  | here found' isAt =>
      cases found.symm.trans found'
      rw [other] at isAt
      cases isAt
  | slips slips later =>
      rcases slips with ⟨_, found', member⟩
      cases found.symm.trans found'
      exact ⟨_, _, rfl, member, later⟩

theorem Instruction.onward_all {holds : Assertion -> Bool} {instruction : Instruction}
    (member : next ∈ instruction.onward holds) : next ∈ instruction.onward fun _ => true := by
  cases instruction with
  | assert assertion target =>
      rw [Instruction.onward] at member
      split at member
      · exact member
      · cases member
  | _ => exact member

/-- Whether nothing that is sought is met on any way from a place. -/
def Avoids (sought : Sought) (code : Array Instruction) (place : Nat) : Prop :=
  forall count, ¬Meets sought code count place

theorem Avoids.slips {holds : Assertion -> Bool} (avoids : Avoids sought whole place)
    (slips : Slips whole holds place next) : Avoids sought whole next := by
  rcases slips with ⟨instruction, found, member⟩
  intro count meets
  exact avoids (count + 1) (.slips ⟨instruction, found, Instruction.onward_all member⟩ meets)

theorem Avoids.not_isAt {instruction : Instruction} (avoids : Avoids sought whole place)
    (found : whole[place]? = some instruction) : sought.isAt instruction = false :=
  Bool.eq_false_of_not_eq_true fun isAt => avoids 0 (.here found isAt)

/-- What is met at a later place is met from an earlier one after more steps. -/
def MeetsWithin (sought : Sought) (whole : Array Instruction) (count place : Nat) : Prop :=
  exists earlier, earlier ≤ count ∧ Meets sought whole earlier place

theorem MeetsWithin.of_le {fewer : Nat} (within : MeetsWithin sought whole fewer place)
    (atMost : fewer ≤ count) : MeetsWithin sought whole count place := by
  rcases within with ⟨earlier, less, meets⟩
  exact ⟨earlier, Nat.le_trans less atMost, meets⟩

namespace Assembly

/-- Whether a program has what has been laid out between two layouts. -/
def Has (whole before after : Array Instruction) : Prop :=
  forall place, before.size ≤ place -> place < after.size -> whole[place]? = after[place]?

theorem Has.early (has : Has whole before after) (keeps : Keeps middle after) :
    Has whole before middle := by
  intro place isNew inRange
  rw [has place isNew (Nat.lt_of_lt_of_le inRange keeps.grows), keeps place inRange]

theorem Has.late (has : Has whole before after) (keeps : Keeps before middle) :
    Has whole middle after :=
  fun place isNew inRange => has place (Nat.le_trans keeps.grows isNew) inRange

theorem Has.last {instruction : Instruction} (has : Has whole before (middle.push instruction))
    (keeps : Keeps before middle) : whole[middle.size]? = some instruction := by
  have size : (middle.push instruction).size = middle.size + 1 := Array.size_push ..
  rw [has middle.size keeps.grows (by omega), Array.getElem?_push_size]

/-- Whether a way that meets something from where a part is entered passes through this
part before, if it can be passed through at all. -/
def PassesThrough (sought : Sought) (layout : Nat -> Assembly Nat) (consumes : Bool) : Prop :=
  forall (whole before : Array Instruction) (count next : Nat),
    Has whole before ((layout next).run before).2 ->
    Meets sought whole count ((layout next).run before).1 ->
    consumes = false ∧ MeetsWithin sought whole count next

variable {body : Nat -> Assembly Nat} {consumes greedy : Bool}

/-- A part in front of another one is passed through before that. -/
theorem PassesThrough.andThen {late : Nat -> Assembly Nat} {consumesLate : Bool} (uniform : Uniform body)
    (uniformLate : Uniform late) (passesLate : PassesThrough sought late consumesLate)
    (passes : consumesLate = false -> PassesThrough sought body consumes) :
    PassesThrough sought (fun next => body next >>= late) (consumesLate || consumes) := by
  intro whole before count next has meets
  rw [run_bind] at has meets
  have first := uniform.keeps next before
  have second := uniformLate.keeps ((body next).run before).1 ((body next).run before).2
  rcases passesLate _ _ _ _ (has.late first) meets with ⟨rfl, earlier, fewer, meets⟩
  rcases passes rfl _ _ _ _ (has.early second) meets with ⟨rfl, within⟩
  exact ⟨rfl, within.of_le fewer⟩

/-- An instruction that is not sought is passed. -/
theorem emit_passesThrough (make : Nat -> Instruction)
    (other : forall next, sought.isAt (make next) = false)
    (onward : forall next target, target ∈ (make next).onward (fun _ => true) ->
      consumes = false ∧ target = next) :
    PassesThrough sought (fun next => emit (make next)) consumes := by
  intro whole before count next has meets
  have found : whole[before.size]? = some (make next) := Has.last has fun _ _ => rfl
  rcases Meets.goesOn meets found (other next) with ⟨earlier, target, rfl, member, meets⟩
  rcases onward next target member with ⟨isThrough, isTarget⟩
  exact ⟨isThrough, earlier, Nat.le_succ _, isTarget ▸ meets⟩

theorem mark_passesThrough (slot : Nat) :
    PassesThrough sought (fun next => emit (.mark slot next)) false :=
  emit_passesThrough (.mark slot) (fun _ => rfl) fun _ _ member => ⟨rfl, List.mem_singleton.mp member⟩

theorem exactly_passesThrough (uniform : Uniform body) (passes : PassesThrough sought body consumes)
    (times : Nat) : PassesThrough sought (exactly body times) (times != 0 && consumes) := by
  induction times with
  | zero => exact fun _ _ _ _ _ meets => ⟨rfl, _, Nat.le_refl _, meets⟩
  | succ times inductionHypothesis =>
      intro whole before count next has meets
      have more := PassesThrough.andThen uniform (exactly_uniform uniform times) inductionHypothesis
        fun _ => passes
      rcases more _ _ _ _ has meets with ⟨isThrough, within⟩
      rw [(Bool.or_eq_false_iff.mp isThrough).2, Bool.and_false]
      exact ⟨rfl, within⟩

theorem fork_meets {again leave : Nat} (meets : Meets sought whole count place)
    (found : whole[place]? = some (fork greedy again leave)) :
    exists earlier, earlier < count ∧
      (Meets sought whole earlier again ∨ Meets sought whole earlier leave) := by
  have other : sought.isAt (fork greedy again leave) = false := by
    cases greedy <;> rfl
  rcases meets.goesOn found other with ⟨earlier, next, rfl, member, meets⟩
  refine ⟨earlier, Nat.lt_succ_self _, ?_⟩
  have isEither : next = again ∨ next = leave := by
    cases greedy with
    | true => exact List.mem_pair.mp member
    | false => exact (List.mem_pair.mp member).symm
  rcases isEither with rfl | rfl
  · exact Or.inl meets
  · exact Or.inr meets

theorem upTo_meets (uniform : Uniform body) (passes : PassesThrough sought body consumes) (times : Nat)
    (has : Has whole before ((upTo body greedy next times further).run before).2)
    (meets : Meets sought whole count ((upTo body greedy next times further).run before).1) :
    MeetsWithin sought whole count next ∨ MeetsWithin sought whole count further := by
  induction times generalizing before further count with
  | zero => exact Or.inr ⟨count, Nat.le_refl _, meets⟩
  | succ times inductionHypothesis =>
      rw [upTo, run_bind, run_bind] at has meets
      let once := (body further).run before
      let forked := once.2.push (fork greedy once.1 next)
      have first : Keeps before once.2 := uniform.keeps further before
      have second : Keeps once.2 forked := push_keeps once.2 _
      have later := upTo_keeps uniform greedy times next once.2.size forked
      have hasForked : Has whole before forked := has.early later
      rcases inductionHypothesis (has.late (first.trans second)) meets with leaves | isChoice
      · exact Or.inl leaves
      · rcases isChoice with ⟨earlier, fewer, meets⟩
        rcases fork_meets meets (hasForked.last first) with ⟨earlier', fewer', again | leaves⟩
        · rcases passes _ _ _ _ (hasForked.early second) again with ⟨_, within⟩
          exact Or.inr (within.of_le (by omega))
        · exact Or.inl ⟨earlier', by omega, leaves⟩

/-- A loop comes back to its choice before it is left. -/
theorem oneOrMore_meets (uniform : Uniform body) (passes : PassesThrough sought body consumes)
    (has : Has whole before ((oneOrMore body greedy next).run before).2) :
    (Meets sought whole count ((oneOrMore body greedy next).run before).1.2 ->
        MeetsWithin sought whole count next) ∧
      (Meets sought whole count ((oneOrMore body greedy next).run before).1.1 ->
        consumes = false ∧ MeetsWithin sought whole count next) := by
  let reserved := before.push .accept
  let looped := (body before.size).run reserved
  let filled := looped.2.setIfInBounds before.size (fork greedy looped.1 next)
  have isReserved : reserved.size = before.size + 1 := Array.size_push ..
  have isFilled : filled.size = looped.2.size := Array.size_setIfInBounds ..
  have grows : reserved.size ≤ looped.2.size := (uniform.keeps before.size reserved).grows
  have has : Has whole before filled := has
  have isChoice : whole[before.size]? = some (fork greedy looped.1 next) := by
    rw [has _ (Nat.le_refl _) (by omega), Array.getElem?_setIfInBounds_self_of_lt (by omega)]
  have hasBody : Has whole reserved looped.2 := by
    intro place isNew inRange
    rw [has place (by omega) (by omega), Array.getElem?_setIfInBounds_ne (by omega)]
  have choice : forall count, Meets sought whole count before.size ->
      MeetsWithin sought whole count next := by
    intro count
    induction count using Nat.strongRecOn with
    | ind count inductionHypothesis =>
        intro meets
        rcases fork_meets meets isChoice with ⟨earlier, fewer, again | leaves⟩
        · rcases passes _ _ _ _ hasBody again with ⟨_, earlier', fewer', meets⟩
          exact (inductionHypothesis earlier' (by omega) meets).of_le (by omega)
        · exact ⟨earlier, by omega, leaves⟩
  refine ⟨choice count, fun meets => ?_⟩
  rcases passes _ _ _ _ hasBody meets with ⟨isThrough, earlier, fewer, meets⟩
  exact ⟨isThrough, (choice earlier meets).of_le fewer⟩

theorem iterations_passesThrough (uniform : Uniform body) (passes : PassesThrough sought body consumes)
    (bounds : RepeatBounds) (greedy definite : Bool) :
    PassesThrough sought (iterations body definite bounds greedy) (bounds.min != 0 && consumes) := by
  intro whole before count next has meets
  rcases bounds with ⟨min, max⟩
  cases max with
  | some max =>
      rw [iterations, run_bind] at has meets
      let optional := (upTo body greedy next (max - min) next).run before
      have first : Keeps before optional.2 := upTo_keeps uniform greedy (max - min) next next before
      have second := exactly_keeps uniform min optional.1 optional.2
      rcases exactly_passesThrough uniform passes min _ _ _ _ (has.late first) meets with
        ⟨isThrough, earlier, fewer, meets⟩
      rcases upTo_meets uniform passes (max - min) (has.early second) meets with within | within
      · exact ⟨isThrough, within.of_le fewer⟩
      · exact ⟨isThrough, within.of_le fewer⟩
  | none =>
      let loop := (oneOrMore body greedy next).run before
      have same : Shifts id before before := fun _ => rfl
      have first : Keeps before loop.2 := (oneOrMore_uniform uniform greedy next same).2.keeps
      have inLoop := fun has count =>
        @oneOrMore_meets sought whole before count next body consumes greedy uniform passes has
      cases min with
      | zero =>
          cases definite with
          | true => exact ⟨rfl, (inLoop has count).1 meets⟩
          | false =>
              have has : Has whole before (loop.2.push (fork greedy loop.1.1 next)) := has
              rcases fork_meets meets (has.last first) with ⟨earlier, fewer, again | leaves⟩
              · have within := ((inLoop (has.early (push_keeps _ _)) earlier).2 again).2
                exact ⟨rfl, within.of_le (Nat.le_of_lt fewer)⟩
              · exact ⟨rfl, earlier, Nat.le_of_lt fewer, leaves⟩
      | succ min =>
          rw [iterations, run_bind] at has meets
          have second := exactly_keeps uniform min loop.1.1 loop.2
          rcases exactly_passesThrough uniform passes min _ _ _ _ (has.late first) meets with
            ⟨_, earlier, fewer, meets⟩
          rcases (inLoop (has.early second) earlier).2 meets with ⟨isThrough, within⟩
          rw [isThrough, Bool.and_false]
          exact ⟨rfl, within.of_le fewer⟩

end Assembly
end Meeting

namespace Pattern

open Assembly

variable {sought : Sought}

/-- A way that meets something from where an expression is entered in which this cannot be
met passes through the expression before. -/
theorem assemble_passesThrough {pattern : Pattern} (proper : pattern.Proper)
    (avoids : pattern.mayMeet sought = false) :
    PassesThrough sought pattern.assemble pattern.consumes := by
  induction pattern with
  | empty => exact fun _ _ _ _ _ meets => ⟨rfl, _, Nat.le_refl _, meets⟩
  | one set => exact emit_passesThrough (.one set) (fun _ => avoids) fun _ _ member => nomatch member
  | assert assertion =>
      exact emit_passesThrough (.assert assertion) (fun _ => avoids)
        fun _ _ member => ⟨rfl, List.mem_singleton.mp member⟩
  | group index body bodyPasses =>
      have marks := fun slot => Uniform.emit (.mark slot) fun _ _ => rfl
      have opened := PassesThrough.andThen body.assemble_uniform (marks (2 * index))
        (mark_passesThrough (2 * index)) fun _ => bodyPasses proper.2 avoids
      have closed := PassesThrough.andThen (marks (2 * index + 1))
        (body.assemble_uniform.andThen (marks (2 * index))) opened
        fun _ => mark_passesThrough (2 * index + 1)
      rw [Bool.or_false, Bool.false_or] at closed
      exact closed
  | seq first second firstPasses secondPasses =>
      rcases Bool.or_eq_false_iff.mp avoids with ⟨avoidsFirst, avoidsSecond⟩
      refine PassesThrough.andThen second.assemble_uniform first.assemble_uniform
        (firstPasses proper.1 avoidsFirst) fun isThrough => secondPasses proper.2 ?_
      rw [isThrough] at avoidsSecond
      exact avoidsSecond
  | alt first second firstPasses secondPasses =>
      intro whole before count next has meets
      rcases Bool.or_eq_false_iff.mp avoids with ⟨avoidsFirst, avoidsSecond⟩
      let preferred := (first.assemble next).run before
      let other := (second.assemble next).run preferred.2
      have has : Has whole before (other.2.push (fork true preferred.1 other.1)) := has
      have early : Keeps before preferred.2 := first.assemble_uniform.keeps next before
      have late : Keeps preferred.2 other.2 := second.assemble_uniform.keeps next preferred.2
      have hasBoth : Has whole before other.2 := has.early (push_keeps _ _)
      rcases fork_meets meets (has.last (early.trans late)) with ⟨earlier, fewer, meets | meets⟩
      · rcases firstPasses proper.1 avoidsFirst _ _ _ _ (hasBoth.early late) meets with
          ⟨isThrough, within⟩
        rw [consumes, isThrough]
        exact ⟨rfl, within.of_le (Nat.le_of_lt fewer)⟩
      · rcases secondPasses proper.2 avoidsSecond _ _ _ _ (hasBoth.late early) meets with
          ⟨isThrough, within⟩
        rw [consumes, isThrough, Bool.and_false]
        exact ⟨rfl, within.of_le (Nat.le_of_lt fewer)⟩
  | times bounds greedy body bodyPasses =>
      rcases Bool.and_eq_false_iff.mp avoids with isNone | avoidsBody
      · -- Nothing is laid out for a repetition that is not repeated at all.
        rcases bounds with ⟨min, max⟩
        have isNone : max = some 0 := by
          simpa using isNone
        subst isNone
        have isLeast : min = 0 := Nat.le_zero.mp (proper.1 0 rfl)
        subst isLeast
        exact fun _ _ _ _ _ meets => ⟨rfl, _, Nat.le_refl _, meets⟩
      · exact iterations_passesThrough body.assemble_uniform (bodyPasses proper.2 avoidsBody) bounds
          greedy body.consumes

end Pattern
end SeedGrammar
