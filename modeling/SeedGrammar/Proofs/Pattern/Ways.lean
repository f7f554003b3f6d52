import Mathlib.Data.Finset.Card
import Mathlib.Data.Set.Insert
import Mathlib.Logic.Relation
import SeedGrammar.Pattern.Matching

namespace SeedGrammar

/-!
# Ways through a program

A thread that stands somewhere in a program slips from instruction to instruction
without consuming, until it comes to one that consumes or accepts.  Which of these it
comes to is a choice, and the one that counts is the first in order of preference
from which the program can still come to its end.

An instruction that has been passed is not passed again, so a way that returns to it
is no way.  This does no harm: what is left of a way after its last visit to an
instruction is a way from there, `Escapes.beyond`.  So if the program can come to its
end at all, there is a way that takes the preferred choice everywhere,
`Comes.exists_way`.
-/

/-- What is around a position in a text: the character before it and the characters
after it. -/
structure Spot where
  previous : Option Char
  rest : List Char

namespace Spot

/-- Whether an assertion holds at a spot. -/
def holds (spot : Spot) (assertion : Assertion) : Bool :=
  assertion.holds ⟨spot.previous, spot.rest, 0⟩

end Spot

/-- The spot of a position. -/
def Cursor.spot (cursor : Cursor) : Spot := ⟨cursor.previous, cursor.rest⟩

/-- An assertion does not depend on how many characters have been passed. -/
theorem Cursor.spot_holds (cursor : Cursor) (assertion : Assertion) :
    cursor.spot.holds assertion = assertion.holds cursor := by
  cases assertion <;> rfl

/-- The places that an instruction leads to without consuming, the preferred one
first, given which assertions hold. -/
def Instruction.onward (holds : Assertion -> Bool) : Instruction -> List Nat
  | one _ _ => []
  | assert assertion next => if holds assertion then [next] else []
  | mark _ next => [next]
  | split preferred other => [preferred, other]
  | accept => []

/-- Whether a program leads from one place to another without consuming. -/
def Slips (code : Array Instruction) (holds : Assertion -> Bool) (place next : Nat) : Prop :=
  exists instruction, code[place]? = some instruction ∧ next ∈ instruction.onward holds

/-- Whether a program can come from a place to its end while the text goes on from
one spot to the last. -/
inductive Comes (code : Array Instruction) (last : Spot) : Nat -> Spot -> Prop where
  | arrives {place} : code[place]? = some .accept -> Comes code last place last
  | slips {place next spot} : Slips code spot.holds place next -> Comes code last next spot ->
      Comes code last place spot
  | consumes {place next set previous c rest} : code[place]? = some (.one set next) ->
      set.contains c = true -> Comes code last next ⟨some c, rest⟩ ->
      Comes code last place ⟨previous, c :: rest⟩

/-- Whether a place is one where a thread accepts or waits for a character. -/
def Halts (code : Array Instruction) (place : Nat) : Prop :=
  code[place]? = some .accept ∨ exists set next, code[place]? = some (.one set next)

/-- Whether a thread that halts at a place can still come to the end of the program. -/
def Live (code : Array Instruction) (spot : Spot) (place : Nat) : Prop :=
  Halts code place ∧ exists last, Comes code last place spot

/-- Whether there is a way from a place to a live one that avoids those that have been
passed. -/
inductive Escapes (code : Array Instruction) (spot : Spot) (passed : Set Nat) : Nat -> Prop where
  | stop {place} : place ∉ passed -> Live code spot place -> Escapes code spot passed place
  | slip {place next} : place ∉ passed -> Slips code spot.holds place next ->
      Escapes code spot passed next -> Escapes code spot passed place

/-- Whether the first live place in order of preference is a given one: at each place
the ways that are preferred to the one taken do not escape. -/
inductive Leads (code : Array Instruction) (spot : Spot) : Set Nat -> Nat -> Nat -> Prop where
  | stop {passed place} : place ∉ passed -> Live code spot place ->
      Leads code spot passed place place
  | step {passed place instruction preferred next others stop} : place ∉ passed ->
      code[place]? = some instruction ->
      instruction.onward spot.holds = preferred ++ next :: others ->
      (forall other, other ∈ preferred -> ¬Escapes code spot (insert place passed) other) ->
      Leads code spot (insert place passed) next stop -> Leads code spot passed place stop

/-- Whether the preferred way from a place and a spot ends at the last spot. -/
inductive Way (code : Array Instruction) (last : Spot) : Nat -> Spot -> Prop where
  | arrives {place stop} : Leads code last ∅ place stop -> code[stop]? = some .accept ->
      Way code last place last
  | consumes {place stop next set previous c rest} :
      Leads code ⟨previous, c :: rest⟩ ∅ place stop -> code[stop]? = some (.one set next) ->
      set.contains c = true -> Way code last next ⟨some c, rest⟩ ->
      Way code last place ⟨previous, c :: rest⟩

/-- Whether the preferred way goes on from a place where a thread halts, and ends at the
last spot. -/
inductive Ready (code : Array Instruction) (last : Spot) : Spot -> Nat -> Prop where
  | accepts {stop} : code[stop]? = some .accept -> Ready code last last stop
  | consumes {stop next set previous c rest} : code[stop]? = some (.one set next) ->
      set.contains c = true -> Way code last next ⟨some c, rest⟩ ->
      Ready code last ⟨previous, c :: rest⟩ stop

variable {code : Array Instruction} {spot last : Spot} {passed : Set Nat} {place next stop : Nat}

/-- A program that consumes or accepts somewhere does not slip from there. -/
theorem Slips.not_live (slips : Slips code spot.holds place next) :
    ¬Live code spot place := by
  rintro ⟨accepts | ⟨set, after, consumes⟩, _⟩
  · rcases slips with ⟨instruction, found, member⟩
    cases found.symm.trans accepts
    cases member
  · rcases slips with ⟨instruction, found, member⟩
    cases found.symm.trans consumes
    cases member

/-- What is left of the text at the end is the end of what was left before. -/
theorem Comes.suffix (comes : Comes code last place spot) :
    exists taken, spot.rest = taken ++ last.rest := by
  induction comes with
  | arrives accepts => exact ⟨[], rfl⟩
  | slips _ _ inductionHypothesis => exact inductionHypothesis
  | @consumes place next set previous c rest _ _ _ inductionHypothesis =>
      rcases inductionHypothesis with ⟨taken, isRest⟩
      exact ⟨c :: taken, congrArg (c :: ·) isRest⟩

/-- From a place where no thread halts the program goes on without a character. -/
theorem Comes.goesOn (comes : Comes code last place spot) (moves : ¬Halts code place) :
    exists next, Slips code spot.holds place next ∧ Comes code last next spot := by
  cases comes with
  | arrives accepts => exact absurd (Or.inl accepts) moves
  | slips slips comes => exact ⟨_, slips, comes⟩
  | consumes found _ _ => exact absurd (Or.inr ⟨_, _, found⟩) moves

theorem Comes.slipped (reaches : Relation.ReflTransGen (Slips code spot.holds) place next)
    (comes : Comes code last next spot) : Comes code last place spot := by
  induction reaches using Relation.ReflTransGen.head_induction_on with
  | refl => exact comes
  | head slips _ inductionHypothesis => exact .slips slips inductionHypothesis

/-! ## Escaping -/

theorem Escapes.not_passed (escapes : Escapes code spot passed place) : place ∉ passed := by
  cases escapes <;> assumption

theorem Escapes.lt_size (escapes : Escapes code spot passed place) : place < code.size := by
  cases escapes with
  | stop _ live =>
      rcases live.1 with found | ⟨set, next, found⟩
      · exact (Array.getElem?_eq_some_iff.mp found).1
      · exact (Array.getElem?_eq_some_iff.mp found).1
  | slip _ slips _ =>
      rcases slips with ⟨instruction, found, _⟩
      exact (Array.getElem?_eq_some_iff.mp found).1

theorem Escapes.fewer {fewer : Set Nat} (escapes : Escapes code spot passed place)
    (subset : fewer ⊆ passed) : Escapes code spot fewer place := by
  induction escapes with
  | stop isNew live => exact .stop (fun old => isNew (subset old)) live
  | slip isNew slips _ inductionHypothesis =>
      exact .slip (fun old => isNew (subset old)) slips inductionHypothesis

/-- A way that escapes comes to a live place. -/
theorem Escapes.comes (escapes : Escapes code spot passed place) :
    exists last, Comes code last place spot := by
  induction escapes with
  | stop _ live => exact live.2
  | slip _ slips _ inductionHypothesis =>
      rcases inductionHypothesis with ⟨last, comes⟩
      exact ⟨last, .slips slips comes⟩

theorem Comes.escapes (comes : Comes code last place spot) : Escapes code spot ∅ place := by
  induction comes with
  | arrives accepts => exact .stop (Set.notMem_empty _) ⟨Or.inl accepts, last, .arrives accepts⟩
  | slips slips _ inductionHypothesis => exact .slip (Set.notMem_empty _) slips inductionHypothesis
  | consumes found inside comes _ =>
      exact .stop (Set.notMem_empty _) ⟨Or.inr ⟨_, _, found⟩, last, .consumes found inside comes⟩

/-- A way that escapes avoids a further place, or it escapes from there. -/
theorem Escapes.avoids (escapes : Escapes code spot passed place) (other : Nat) :
    Escapes code spot (insert other passed) place ∨ Escapes code spot passed other := by
  induction escapes with
  | @stop place isNew live =>
      by_cases same : place = other
      · subst same
        exact Or.inr (.stop isNew live)
      · exact Or.inl (.stop (by simp [same, isNew]) live)
  | @slip place next isNew slips escapes inductionHypothesis =>
      by_cases same : place = other
      · subst same
        exact Or.inr (.slip isNew slips escapes)
      · exact inductionHypothesis.imp_left (.slip (by simp [same, isNew]) slips)

/-- A way that escapes avoids a further place, or else that place is live, or leads on
to one from which there is a way that does not return to it. -/
theorem Escapes.beyond (escapes : Escapes code spot passed place) (other : Nat) :
    Escapes code spot (insert other passed) place ∨ Live code spot other ∨
      exists after, Slips code spot.holds other after ∧
        Escapes code spot (insert other passed) after := by
  induction escapes with
  | @stop place isNew live =>
      by_cases same : place = other
      · subst same
        exact Or.inr (Or.inl live)
      · exact Or.inl (.stop (by simp [same, isNew]) live)
  | @slip place next isNew slips escapes inductionHypothesis =>
      rcases inductionHypothesis with avoids | found
      · by_cases same : place = other
        · subst same
          exact Or.inr (Or.inr ⟨next, slips, avoids⟩)
        · exact Or.inl (.slip (by simp [same, isNew]) slips avoids)
      · exact Or.inr found

/-! ## What has been reached -/

/-- Whether among the places that have been reached are all that have been passed, and
otherwise only such that do not escape. -/
structure Clears (code : Array Instruction) (spot : Spot) (passed reached : Set Nat) : Prop where
  includes : passed ⊆ reached
  blocked : forall place, place ∈ reached -> ¬Escapes code spot passed place

theorem Clears.refl (passed : Set Nat) : Clears code spot passed passed where
  includes _ member := member
  blocked _ member escapes := escapes.not_passed member

/-- What escapes avoids all places that have been reached. -/
theorem Clears.escapes {reached : Set Nat} (clears : Clears code spot passed reached)
    (escapes : Escapes code spot passed place) : Escapes code spot reached place := by
  induction escapes with
  | stop isNew live => exact .stop (fun old => clears.blocked _ old (.stop isNew live)) live
  | slip isNew slips escapes inductionHypothesis =>
      exact .slip (fun old => clears.blocked _ old (.slip isNew slips escapes)) slips
        inductionHypothesis

theorem Clears.trans {reached further : Set Nat} (clears : Clears code spot passed reached)
    (clears' : Clears code spot reached further) : Clears code spot passed further where
  includes _ member := clears'.includes (clears.includes member)
  blocked place member escapes := clears'.blocked place member (clears.escapes escapes)

/-- A place that does not escape can be reached. -/
theorem Clears.block (blocked : ¬Escapes code spot passed place) :
    Clears code spot passed (insert place passed) where
  includes := Set.subset_insert place passed
  blocked other member escapes := by
    rcases member with rfl | old
    · exact blocked escapes
    · exact escapes.not_passed old

/-- A place that is passed on a way is reached. -/
theorem Clears.pass {reached : Set Nat} (clears : Clears code spot passed reached) (place : Nat) :
    Clears code spot (insert place passed) (insert place reached) where
  includes := Set.insert_subset_insert clears.includes
  blocked other member escapes := by
    rcases member with rfl | old
    · exact escapes.not_passed (Set.mem_insert _ _)
    · exact clears.blocked other old (escapes.fewer (Set.subset_insert place passed))

/-! ## Preferred ways -/

theorem Leads.live (leads : Leads code spot passed place stop) : Live code spot stop := by
  induction leads with
  | stop _ live => exact live
  | step _ _ _ _ _ inductionHypothesis => exact inductionHypothesis

theorem Leads.slips {instruction : Instruction} {preferred others : List Nat}
    (found : code[place]? = some instruction)
    (onward : instruction.onward spot.holds = preferred ++ next :: others) :
    Slips code spot.holds place next :=
  ⟨instruction, found, by simp [onward]⟩

theorem Leads.escapes (leads : Leads code spot passed place stop) :
    Escapes code spot passed place := by
  induction leads with
  | stop isNew live => exact .stop isNew live
  | step isNew found onward _ _ inductionHypothesis =>
      exact .slip isNew (slips found onward) (inductionHypothesis.fewer (Set.subset_insert _ _))

theorem Leads.reaches (leads : Leads code spot passed place stop) :
    Relation.ReflTransGen (Slips code spot.holds) place stop := by
  induction leads with
  | stop _ _ => exact .refl
  | step _ found onward _ _ inductionHypothesis => exact .head (slips found onward) inductionHypothesis

/-- That places have been passed makes no difference to a way that cannot come to
them. -/
theorem Leads.more {others : Set Nat} (leads : Leads code spot passed place stop)
    (apart : forall reached, Relation.ReflTransGen (Slips code spot.holds) place reached ->
      reached ∉ others) : Leads code spot (passed ∪ others) place stop := by
  have notOther : forall {passed : Set Nat} {place : Nat}, place ∉ passed -> place ∉ others ->
      place ∉ passed ∪ others := fun isNew notOther member => member.elim isNew notOther
  induction leads with
  | stop isNew live => exact .stop (notOther isNew (apart _ .refl)) live
  | @step passed place instruction preferred next others' stop isNew found onward blocked _
      inductionHypothesis =>
      have further := inductionHypothesis fun reached reaches =>
        apart reached (.head (slips found onward) reaches)
      rw [Set.insert_union] at further
      refine .step (notOther isNew (apart _ .refl)) found onward ?_ further
      intro other member escapes
      exact blocked other member
        (escapes.fewer (Set.insert_subset_insert Set.subset_union_left))

/-- The first place of several that escapes. -/
theorem exists_first_escape {places : List Nat} (member : next ∈ places)
    (escapes : Escapes code spot passed next) :
    exists preferred first others, places = preferred ++ first :: others ∧
      (forall other, other ∈ preferred -> ¬Escapes code spot passed other) ∧
      Escapes code spot passed first := by
  induction places with
  | nil => cases member
  | cons head places inductionHypothesis =>
      by_cases isFirst : Escapes code spot passed head
      · exact ⟨[], head, places, rfl, by simp, isFirst⟩
      · rcases List.mem_cons.mp member with rfl | later
        · exact absurd escapes isFirst
        · rcases inductionHypothesis later with ⟨preferred, first, others, rfl, blocked, escapes⟩
          exact ⟨head :: preferred, first, others, rfl,
            List.forall_mem_cons.mpr ⟨isFirst, blocked⟩, escapes⟩

/-- Where there is a way that escapes there is a preferred one.  The induction is on
the number of instructions that have not been passed. -/
theorem Escapes.exists_leads (escapes : Escapes code spot passed place) :
    exists stop, Leads code spot passed place stop := by
  classical
  generalize isBound : ((Finset.range code.size).filter (· ∉ passed)).card = bound
  induction bound using Nat.strong_induction_on generalizing passed place with
  | h bound inductionHypothesis =>
      have isNew := escapes.not_passed
      rcases escapes.beyond place with again | live | ⟨after, ⟨instruction, found, member⟩, escapes'⟩
      · exact absurd (Set.mem_insert place passed) again.not_passed
      · exact ⟨place, .stop isNew live⟩
      · rcases exists_first_escape member escapes' with
          ⟨preferred, first, others, onward, blocked, firstEscapes⟩
        have inRange : place < code.size := (Array.getElem?_eq_some_iff.mp found).1
        have fewer : ((Finset.range code.size).filter (· ∉ insert place passed)).card < bound := by
          rw [<- isBound]
          apply Finset.card_lt_card
          rw [Finset.ssubset_iff_of_subset]
          · exact ⟨place, by simp [inRange, isNew], by simp⟩
          · intro other member
            simp only [Finset.mem_filter, Set.mem_insert_iff, not_or] at member ⊢
            exact ⟨member.1, member.2.2⟩
        rcases inductionHypothesis _ fewer firstEscapes (by congr) with ⟨stop, leads⟩
        exact ⟨stop, .step isNew found onward blocked leads⟩

theorem Way.comes (way : Way code last place spot) : Comes code last place spot := by
  induction way with
  | arrives leads accepts => exact .slipped leads.reaches (.arrives accepts)
  | consumes leads found inside _ inductionHypothesis =>
      exact .slipped leads.reaches (.consumes found inside inductionHypothesis)

/-- A preferred way leads to a place where it goes on. -/
theorem Way.ready (way : Way code last place spot) :
    exists stop, Leads code spot ∅ place stop ∧ Ready code last spot stop := by
  cases way with
  | arrives leads isAccept => exact ⟨_, leads, .accepts isAccept⟩
  | consumes leads found inside way => exact ⟨_, leads, .consumes found inside way⟩

theorem Ready.way (ready : Ready code last spot stop) (leads : Leads code spot ∅ place stop) :
    Way code last place spot := by
  cases ready with
  | accepts isAccept => exact .arrives leads isAccept
  | consumes found inside way => exact .consumes leads found inside way

/-- A preferred way from the successor of a place is one from the place, if it does not
return there and the ways that are preferred to it come to nothing. -/
theorem Way.step {instruction : Instruction} {preferred others : List Nat}
    (way : Way code last next spot) (found : code[place]? = some instruction)
    (onward : instruction.onward spot.holds = preferred ++ next :: others)
    (blocked : forall other, other ∈ preferred -> forall last, ¬Comes code last other spot)
    (apart : ¬Relation.ReflTransGen (Slips code spot.holds) next place) :
    Way code last place spot := by
  rcases way.ready with ⟨stop, leads, ready⟩
  apply ready.way
  refine .step (Set.notMem_empty _) found onward ?_ ?_
  · intro other member escapes
    rcases escapes.comes with ⟨last, comes⟩
    exact blocked other member last comes
  · have more : Leads code spot (∅ ∪ {place}) next stop :=
      leads.more fun reached reaches isPlace => apart (Set.mem_singleton_iff.mp isPlace ▸ reaches)
    rwa [Set.union_comm, Set.singleton_union] at more

/-- A program that can come to its end does so on a preferred way. -/
theorem Comes.exists_way (comes : Comes code last place spot) :
    exists last, Way code last place spot := by
  rcases spot with ⟨previous, rest⟩
  induction rest generalizing previous place last with
  | nil =>
      rcases comes.escapes.exists_leads with ⟨stop, leads⟩
      rcases leads.live with ⟨accepts | ⟨set, next, found⟩, last', comes'⟩
      · exact ⟨_, .arrives leads accepts⟩
      · cases comes' with
        | arrives accepts => exact ⟨_, .arrives leads accepts⟩
        | slips slips _ => exact absurd leads.live slips.not_live
  | cons c rest inductionHypothesis =>
      rcases comes.escapes.exists_leads with ⟨stop, leads⟩
      rcases leads.live with ⟨accepts | ⟨set, next, found⟩, last', comes'⟩
      · exact ⟨_, .arrives leads accepts⟩
      · cases comes' with
        | arrives accepts => exact ⟨_, .arrives leads accepts⟩
        | slips slips _ => exact absurd leads.live slips.not_live
        | consumes found' inside comes' =>
            rcases inductionHypothesis (some c) comes' with ⟨last, way⟩
            exact ⟨last, .consumes leads found' inside way⟩

end SeedGrammar
