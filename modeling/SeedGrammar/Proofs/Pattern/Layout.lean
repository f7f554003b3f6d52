import SeedGrammar.Pattern.Program

namespace SeedGrammar

/-!
# How a regular expression is laid out

Laying out an expression only appends instructions.  These lead to each other and
to the successor that the expression was laid out for, they do not accept, and they
mark the ends of numbered groups only, `Pattern.assemble_laid`.  So the whole program
consists of an end that accepts, two marks of the whole match, and between them the
instructions of the expression, which can be left only over the second mark,
`Pattern.assembled_framed`.

An expression that begins with the start of the text in each of its alternatives has
an entry from which every way leads to this condition before it leads to a character,
`Guarded`.
-/

/-- Whether an instruction leads to some places only, marks no end of the whole match
and does not accept. -/
def Instruction.Confined (places : Nat -> Prop) : Instruction -> Prop
  | one _ next => places next
  | assert _ next => places next
  | mark slot next => 2 ≤ slot ∧ places next
  | split preferred other => places preferred ∧ places other
  | accept => False

theorem Instruction.Confined.imp {places others : Nat -> Prop} {instruction : Instruction}
    (confined : instruction.Confined places) (weaker : forall place, places place -> others place) :
    instruction.Confined others := by
  cases instruction with
  | one set next => exact weaker next confined
  | assert assertion next => exact weaker next confined
  | mark slot next => exact ⟨confined.1, weaker next confined.2⟩
  | split preferred other => exact ⟨weaker preferred confined.1, weaker other confined.2⟩
  | accept => exact confined

namespace Assembly

variable {next further entry : Nat} {before middle after : Array Instruction}

/-- An instruction that is appended leaves the others where they are. -/
theorem push_keeps (code : Array Instruction) (instruction : Instruction) (place : Nat)
    (inRange : place < code.size) : (code.push instruction)[place]? = code[place]? := by
  rw [Array.getElem?_push_lt inRange, Array.getElem?_eq_getElem inRange]

/-- Whether a place is the successor of what has been laid out, or belongs to it. -/
def OwnPlace (next : Nat) (before after : Array Instruction) (place : Nat) : Prop :=
  place = next ∨ before.size ≤ place ∧ place < after.size

/-- What laying out a part for a successor comes to: the instructions before it stay
as they are, its own lead to each other and to the successor, and it is entered at
one of these places. -/
structure Laid (next : Nat) (before after : Array Instruction) (entry : Nat) : Prop where
  grows : before.size ≤ after.size
  keeps : forall place, place < before.size -> after[place]? = before[place]?
  entry : OwnPlace next before after entry
  inside : forall place instruction, before.size ≤ place -> after[place]? = some instruction ->
    instruction.Confined (OwnPlace next before after)

theorem OwnPlace.grown {place : Nat} (own : OwnPlace next before middle place)
    (grows : middle.size ≤ after.size) : OwnPlace next before after place :=
  own.imp_right fun inside => ⟨inside.1, Nat.lt_of_lt_of_le inside.2 grows⟩

/-- To lay out nothing is to go on at the successor. -/
theorem Laid.none (next : Nat) (code : Array Instruction) : Laid next code code next where
  grows := Nat.le_refl _
  keeps _ _ := rfl
  entry := Or.inl rfl
  inside place instruction beyond found := by
    have inRange := (Array.getElem?_eq_some_iff.mp found).1
    exact absurd inRange (Nat.not_lt_of_le beyond)

/-- A part that goes on at a place of another one. -/
theorem Laid.andThen (early : Laid next before middle further)
    (late : Laid further middle after entry) : Laid next before after entry := by
  have own : forall place, OwnPlace further middle after place -> OwnPlace next before after place := by
    rintro place (rfl | inside)
    · exact early.entry.grown late.grows
    · exact Or.inr ⟨Nat.le_trans early.grows inside.1, inside.2⟩
  constructor
  · exact Nat.le_trans early.grows late.grows
  · intro place isOlder
    rw [late.keeps place (Nat.lt_of_lt_of_le isOlder early.grows), early.keeps place isOlder]
  · exact own entry late.entry
  · intro place instruction beyond found
    by_cases isEarly : place < middle.size
    · rw [late.keeps place isEarly] at found
      exact (early.inside place instruction beyond found).imp fun _ inside => inside.grown late.grows
    · exact (late.inside place instruction (Nat.le_of_not_lt isEarly) found).imp own

/-- A part beside another one, for the same successor. -/
theorem Laid.beside {first : Nat} (early : Laid next before middle first)
    (late : Laid next middle after entry) :
    Laid next before after entry ∧ OwnPlace next before after first := by
  refine ⟨?_, early.entry.grown late.grows⟩
  have again : Laid next before middle next := { early with entry := Or.inl rfl }
  exact again.andThen late

/-- An instruction in front of a part. -/
theorem Laid.emit {instruction : Instruction} (early : Laid next before middle further)
    (confined : instruction.Confined (OwnPlace next before middle)) :
    Laid next before ((Assembly.emit instruction).run middle).2
      ((Assembly.emit instruction).run middle).1 := by
  have size : (middle.push instruction).size = middle.size + 1 := Array.size_push ..
  have grows : middle.size ≤ (middle.push instruction).size := by omega
  change Laid next before (middle.push instruction) middle.size
  constructor
  · exact Nat.le_trans early.grows grows
  · intro place isOlder
    have inMiddle := Nat.lt_of_lt_of_le isOlder early.grows
    rw [push_keeps _ _ place inMiddle, early.keeps place isOlder]
  · exact Or.inr ⟨early.grows, by omega⟩
  · intro place other beyond found
    by_cases isEarly : place < middle.size
    · rw [push_keeps _ _ place isEarly] at found
      exact (early.inside place other beyond found).imp fun _ inside => inside.grown grows
    · have inRange := (Array.getElem?_eq_some_iff.mp found).1
      have isLast : place = middle.size := by omega
      subst isLast
      rw [Array.getElem?_push_size] at found
      cases found
      exact confined.imp fun _ inside => inside.grown grows

/-! ## Repetitions -/

/-- Whether laying out a part for any successor lays it out. -/
def Lays (layout : Nat -> Assembly Nat) : Prop :=
  forall next before, Laid next before ((layout next).run before).2 ((layout next).run before).1

theorem run_bind {α β : Type} (first : Assembly α) (second : α -> Assembly β)
    (code : Array Instruction) :
    (first >>= second).run code = (second (first.run code).1).run (first.run code).2 :=
  rfl

variable {body : Nat -> Assembly Nat} {greedy : Bool}

theorem fork_confined {places : Nat -> Prop} {again leave : Nat} (isAgain : places again)
    (isLeave : places leave) : (fork greedy again leave).Confined places := by
  cases greedy with
  | true => exact ⟨isAgain, isLeave⟩
  | false => exact ⟨isLeave, isAgain⟩

theorem exactly_laid (lays : Lays body) (count : Nat) (early : Laid next before middle further) :
    Laid next before ((exactly body count further).run middle).2
      ((exactly body count further).run middle).1 := by
  induction count generalizing further middle with
  | zero => exact early
  | succ count inductionHypothesis =>
      rw [exactly, run_bind]
      exact inductionHypothesis (early.andThen (lays further middle))

theorem upTo_laid (lays : Lays body) (count : Nat) (early : Laid next before middle further) :
    Laid next before ((upTo body greedy next count further).run middle).2
      ((upTo body greedy next count further).run middle).1 := by
  induction count generalizing further middle with
  | zero => exact early
  | succ count inductionHypothesis =>
      rw [upTo, run_bind, run_bind]
      have again := early.andThen (lays further middle)
      exact inductionHypothesis (again.emit (fork_confined again.entry (Or.inl rfl)))

/-- A loop comes back to a place that has been reserved, and that is filled when all
else has been laid out. -/
theorem oneOrMore_laid (lays : Lays body) (greedy : Bool) (next : Nat)
    (before : Array Instruction) :
    Laid next before ((oneOrMore body greedy next).run before).2
        ((oneOrMore body greedy next).run before).1.1 ∧
      Laid next before ((oneOrMore body greedy next).run before).2
        ((oneOrMore body greedy next).run before).1.2 := by
  let choice := before.size
  let reserved := before.push .accept
  let looped := ((body choice).run reserved).2
  let again := ((body choice).run reserved).1
  let filled := looped.setIfInBounds choice (fork greedy again next)
  have loop : Laid choice reserved looped again := lays choice reserved
  have isReserved : reserved.size = before.size + 1 := Array.size_push ..
  have isLooped : reserved.size ≤ looped.size := loop.grows
  have isFilled : filled.size = looped.size := Array.size_setIfInBounds ..
  have own : forall place, OwnPlace choice reserved looped place ->
      OwnPlace next before filled place := by
    rintro place (rfl | inside)
    · exact Or.inr ⟨Nat.le_refl _, by omega⟩
    · exact Or.inr ⟨by omega, by omega⟩
  have isAgain : OwnPlace next before filled again := own again loop.entry
  have isChoice : OwnPlace next before filled choice := own choice (Or.inl rfl)
  have laid : forall place, OwnPlace next before filled place -> Laid next before filled place := by
    intro entry isEntry
    constructor
    · omega
    · intro place isOlder
      have other : choice ≠ place := Nat.ne_of_gt isOlder
      rw [Array.getElem?_setIfInBounds_ne other, loop.keeps place (by omega),
        push_keeps _ _ place isOlder]
    · exact isEntry
    · intro place instruction beyond found
      by_cases isFork : choice = place
      · subst isFork
        have inRange : choice < looped.size := by omega
        rw [Array.getElem?_setIfInBounds_self_of_lt inRange] at found
        cases found
        exact fork_confined isAgain (Or.inl rfl)
      · rw [Array.getElem?_setIfInBounds_ne isFork] at found
        have isLater : reserved.size ≤ place := by omega
        exact (loop.inside place instruction isLater found).imp own
  exact ⟨laid again isAgain, laid choice isChoice⟩

theorem iterations_laid (lays : Lays body) (consumes : Bool) (bounds : RepeatBounds)
    (greedy : Bool) : Lays (iterations body consumes bounds greedy) := by
  intro next before
  rcases bounds with ⟨min, max⟩
  cases max with
  | some max =>
      rw [iterations, run_bind]
      exact exactly_laid lays min (upTo_laid lays (max - min) (.none next before))
  | none =>
      have loop := oneOrMore_laid lays greedy next before
      cases min with
      | zero =>
          rw [iterations, run_bind]
          cases consumes with
          | true => exact loop.2
          | false => exact loop.1.emit (fork_confined loop.1.entry (Or.inl rfl))
      | succ min =>
          rw [iterations, run_bind]
          exact exactly_laid lays min loop.1

end Assembly

/-! ## Expressions -/

namespace Pattern

open Assembly

/-- Whether no group has the number of the whole match. -/
def Numbered : Pattern -> Prop
  | empty => True
  | one _ => True
  | assert _ => True
  | group index body => 0 < index ∧ body.Numbered
  | seq first second => first.Numbered ∧ second.Numbered
  | alt first second => first.Numbered ∧ second.Numbered
  | times _ _ body => body.Numbered

/-- Laying out an expression lays it out for its successor. -/
theorem assemble_laid {pattern : Pattern} (numbered : pattern.Numbered) :
    Lays pattern.assemble := by
  induction pattern with
  | empty => exact fun next before => .none next before
  | one set => exact fun next before => (Laid.none next before).emit (Or.inl rfl)
  | assert assertion => exact fun next before => (Laid.none next before).emit (Or.inl rfl)
  | group index body bodyLays =>
      intro next before
      have positive : 0 < index := numbered.1
      rw [assemble, run_bind, run_bind]
      have marks : (Instruction.mark (2 * index + 1) next).Confined (OwnPlace next before before) :=
        ⟨by omega, Or.inl rfl⟩
      have close := (Laid.none next before).emit marks
      have inner := close.andThen (bodyLays numbered.2 _ _)
      exact inner.emit ⟨by omega, inner.entry⟩
  | seq first second firstLays secondLays =>
      intro next before
      rw [assemble, run_bind]
      exact (secondLays numbered.2 next before).andThen (firstLays numbered.1 _ _)
  | alt first second firstLays secondLays =>
      intro next before
      rw [assemble, run_bind, run_bind]
      have both := (firstLays numbered.1 next before).beside (secondLays numbered.2 next _)
      exact both.1.emit ⟨both.2, both.1.entry⟩
  | times bounds greedy body bodyLays =>
      exact iterations_laid (bodyLays numbered) body.consumes bounds greedy

end Pattern

/-! ## Anchors -/

/-- Whether every way from a place comes to the start of the text before it comes to
a character. -/
inductive Guarded (code : Array Instruction) : Nat -> Prop where
  | assert {place next : Nat} : code[place]? = some (.assert .textStart next) ->
      Guarded code place
  | mark {place slot next : Nat} : code[place]? = some (.mark slot next) -> Guarded code next ->
      Guarded code place
  | split {place preferred other : Nat} : code[place]? = some (.split preferred other) ->
      Guarded code preferred -> Guarded code other -> Guarded code place

/-- What stands at a place that is guarded, given which places are. -/
def Instruction.Guards (guarded : Nat -> Prop) : Instruction -> Prop
  | one _ _ => False
  | assert assertion _ => assertion = .textStart
  | mark _ next => guarded next
  | split preferred other => guarded preferred ∧ guarded other
  | accept => False

theorem Guarded.guards {code : Array Instruction} {place : Nat} (guarded : Guarded code place)
    {instruction : Instruction} (found : code[place]? = some instruction) :
    instruction.Guards (Guarded code) := by
  cases guarded with
  | assert found' =>
      cases Option.some.inj (found.symm.trans found')
      rfl
  | mark found' next =>
      cases Option.some.inj (found.symm.trans found')
      exact next
  | split found' preferred other =>
      cases Option.some.inj (found.symm.trans found')
      exact ⟨preferred, other⟩

/-- What is laid out later removes no guard. -/
theorem Guarded.later {before after : Array Instruction} {place : Nat}
    (guarded : Guarded before place)
    (keeps : forall place, place < before.size -> after[place]? = before[place]?) :
    Guarded after place := by
  have found' : forall {place : Nat} {instruction}, before[place]? = some instruction ->
      after[place]? = some instruction := by
    intro place instruction found
    rw [keeps place (Array.getElem?_eq_some_iff.mp found).1, found]
  induction guarded with
  | assert found => exact .assert (found' found)
  | mark found _ inductionHypothesis => exact .mark (found' found) inductionHypothesis
  | split found _ _ preferredGuarded otherGuarded =>
      exact .split (found' found) preferredGuarded otherGuarded

namespace Pattern

open Assembly

/-- An anchored expression is entered at a place that is guarded. -/
theorem assemble_guarded {pattern : Pattern} (numbered : pattern.Numbered)
    (anchored : pattern.isAnchored = true) (next : Nat) (before : Array Instruction) :
    Guarded ((pattern.assemble next).run before).2 ((pattern.assemble next).run before).1 := by
  induction pattern generalizing next before with
  | assert assertion =>
      cases assertion with
      | textStart => exact .assert Array.getElem?_push_size
      | _ => cases anchored
  | group index body bodyGuarded =>
      rw [assemble, run_bind, run_bind]
      have inner := bodyGuarded numbered.2 anchored before.size
        (before.push (.mark (2 * index + 1) next))
      exact .mark Array.getElem?_push_size (inner.later (push_keeps _ _))
  | seq first second firstGuarded secondGuarded =>
      rw [assemble, run_bind]
      exact firstGuarded numbered.1 anchored _ _
  | alt first second firstGuarded secondGuarded =>
      rw [isAnchored, Bool.and_eq_true] at anchored
      rw [assemble, run_bind, run_bind]
      have preferred := firstGuarded numbered.1 anchored.1 next before
      have other := secondGuarded numbered.2 anchored.2 next ((first.assemble next).run before).2
      have keeps := (assemble_laid numbered.2 next ((first.assemble next).run before).2).keeps
      exact .split Array.getElem?_push_size ((preferred.later keeps).later (push_keeps _ _))
        (other.later (push_keeps _ _))
  | _ => cases anchored

end Pattern

/-! ## Programs -/

namespace AssembledProgram

/-- Whether a place of a program lies between its end and its entry. -/
def Between (program : AssembledProgram) (place : Nat) : Prop :=
  1 ≤ place ∧ place < program.entry

/-- A program of an expression as a whole. -/
structure Framed (program : AssembledProgram) : Prop where
  ends : program.code[0]? = some .accept
  closes : program.code[1]? = some (.mark 1 0)
  opens : exists inner, program.code[program.entry]? = some (.mark 0 inner) ∧
    program.Between inner ∧ (program.anchored = true -> Guarded program.code inner)
  inside : forall place instruction, 2 ≤ place -> place < program.entry ->
    program.code[place]? = some instruction -> instruction.Confined program.Between
  groups : 0 < program.groupCount

end AssembledProgram

namespace Pattern

open Assembly

theorem groupCount_pos (pattern : Pattern) : 0 < pattern.groupCount := by
  induction pattern with
  | group index body bodyPos => exact Nat.lt_of_lt_of_le bodyPos (Nat.le_max_right _ _)
  | seq first second firstPos _ => exact Nat.lt_of_lt_of_le firstPos (Nat.le_max_left _ _)
  | alt first second firstPos _ => exact Nat.lt_of_lt_of_le firstPos (Nat.le_max_left _ _)
  | times bounds greedy body bodyPos => exact bodyPos
  | _ => exact Nat.zero_lt_one

/-- The program of an expression is framed by the marks of the whole match. -/
theorem assembled_framed {pattern : Pattern} (numbered : pattern.Numbered) :
    pattern.assembled.Framed := by
  let start : Array Instruction := #[.accept, .mark 1 0]
  let inner := ((pattern.assemble 1).run start).1
  let code := ((pattern.assemble 1).run start).2
  have isProgram : pattern.assembled =
      ⟨code.push (.mark 0 inner), code.size, pattern.groupCount, pattern.isAnchored⟩ := rfl
  have laid : Laid 1 start code inner := assemble_laid numbered 1 start
  have isStart : start.size = 2 := rfl
  have isLonger : 2 ≤ code.size := laid.grows
  have between : forall place, OwnPlace 1 start code place -> 1 ≤ place ∧ place < code.size := by
    rintro place (rfl | inside)
    · exact ⟨Nat.le_refl _, isLonger⟩
    · exact ⟨by omega, inside.2⟩
  have kept := push_keeps code (.mark 0 inner)
  rw [isProgram]
  constructor
  · exact (kept 0 (by omega)).trans (laid.keeps 0 (by omega))
  · exact (kept 1 (by omega)).trans (laid.keeps 1 (by omega))
  · refine ⟨inner, Array.getElem?_push_size, between inner laid.entry, ?_⟩
    intro anchored
    exact (assemble_guarded numbered anchored 1 start).later kept
  · intro place instruction isOwn isInside found
    dsimp only at isInside found
    rw [kept place isInside] at found
    exact (laid.inside place instruction isOwn found).imp between
  · exact pattern.groupCount_pos

end Pattern
end SeedGrammar
