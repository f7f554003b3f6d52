import SeedGrammar.Proofs.Pattern.Copies

namespace SeedGrammar

/-!
# Iterations of a fragment

A repetition is laid out as copies of a fragment, with choices between one more
iteration and none.  If the fragment always consumes, then a greedy repetition goes
through it for as long as it matches or may be repeated, and each time takes the
preferred way: the program has a preferred way from the repetition if it has one from
where these iterations end, `Assembly.iterations_way`.

The converse is weaker.  If the program can come to its end from the repetition, then
there are as many iterations as are required, but an iteration need not be the preferred
one, `Assembly.iterations_comes`.
-/

/-- A number of steps one after the other. -/
inductive Rounds {α : Type} (step : α -> α -> Prop) : Nat -> α -> α -> Prop where
  | none {place} : Rounds step 0 place place
  | more {count first middle last} : step first middle -> Rounds step count middle last ->
      Rounds step (count + 1) first last

namespace Rounds

variable {α : Type} {step : α -> α -> Prop} {early late count : Nat} {first middle last : α}

theorem split (rounds : Rounds step (early + late) first last) :
    exists middle, Rounds step early first middle ∧ Rounds step late middle last := by
  induction early generalizing first with
  | zero => exact ⟨first, .none, Nat.zero_add late ▸ rounds⟩
  | succ early inductionHypothesis =>
      rw [Nat.succ_add] at rounds
      cases rounds with
      | more isFirst rest =>
          rcases inductionHypothesis rest with ⟨middle, begins, ends⟩
          exact ⟨middle, .more isFirst begins, ends⟩

theorem append (begins : Rounds step early first middle) (ends : Rounds step late middle last) :
    Rounds step (early + late) first last := by
  induction begins with
  | none => rwa [Nat.zero_add]
  | more isFirst _ inductionHypothesis =>
      rw [Nat.succ_add]
      exact .more isFirst (inductionHypothesis ends)

theorem zero (rounds : Rounds step 0 first last) : first = last := by
  cases rounds
  rfl

theorem one (rounds : Rounds step 1 first last) : step first last := by
  cases rounds with
  | more isFirst rest => exact rest.zero ▸ isFirst

theorem map {β : Type} {f : α -> β} {image : β -> β -> Prop}
    (maps : forall place next, step place next -> image (f place) (f next))
    (rounds : Rounds step count first last) : Rounds image count (f first) (f last) := by
  induction rounds with
  | none => exact .none
  | more isFirst _ inductionHypothesis => exact .more (maps _ _ isFirst) inductionHypothesis

/-- Steps that are determined end at the same place. -/
theorem unique (determined : forall place next next', step place next -> step place next' ->
      next = next') (rounds : Rounds step count first last) (rounds' : Rounds step count first middle) :
    last = middle := by
  induction rounds with
  | none => exact rounds'.zero
  | more isFirst _ inductionHypothesis =>
      cases rounds' with
      | more isFirst' rest =>
          cases determined _ _ _ isFirst isFirst'
          exact inductionHypothesis rest

end Rounds

namespace Fragment

variable (fragment : Fragment)

/-- Whether the preferred match of a fragment goes from one spot to another. -/
def Prefers (spot after : Spot) : Prop :=
  Way fragment.code after fragment.entry spot

/-- Whether a fragment can match from one spot to another. -/
def Matches (spot after : Spot) : Prop :=
  Comes fragment.code after fragment.entry spot

/-- Whether a fragment does not match at a spot. -/
def Stuck (spot : Spot) : Prop :=
  forall after, ¬fragment.Matches spot after

/-- Whether no way through a fragment is free of characters. -/
def Consumes : Prop :=
  forall spot : Spot, ¬Relation.ReflTransGen (Slips fragment.code spot.holds) fragment.entry 0

end Fragment

namespace Assembly

/-- Whether one list of instructions begins with another. -/
def Keeps (code whole : Array Instruction) : Prop :=
  forall place, place < code.size -> whole[place]? = code[place]?

/-- Whether instructions lead to each other only. -/
def Closed (code : Array Instruction) : Prop :=
  forall (holds : Assertion -> Bool) place next, Slips code holds place next -> next < code.size

/-- Whether a program ends with the mark of the end of the whole match. -/
structure Ends (whole : Array Instruction) : Prop where
  accepts : whole[0]? = some .accept
  marks : whole[1]? = some (.mark 1 0)

variable {whole before after : Array Instruction} {next further entry : Nat}

theorem Keeps.trans {code : Array Instruction} (early : Keeps before code)
    (late : Keeps code whole) : Keeps before whole := by
  intro place inRange
  have found := early place inRange
  rw [Array.getElem?_eq_getElem inRange] at found
  rw [late place (Array.getElem?_eq_some_iff.mp found).1, found, Array.getElem?_eq_getElem inRange]

/-- What is appended to keeps what is there. -/
theorem Appends.keeps {rename : Nat -> Nat} {before' after' : Array Instruction}
    (appends : Appends rename before before' after after') : Keeps before after := by
  rcases appends with ⟨own, isAfter, _⟩
  intro place inRange
  rw [<- Array.getElem?_toList, isAfter, List.getElem?_append_left (by simpa using inRange),
    Array.getElem?_toList]

theorem Keeps.grows {code : Array Instruction} (keeps : Keeps before code) :
    before.size ≤ code.size := by
  apply Nat.le_of_not_lt
  intro shorter
  have found := keeps code.size shorter
  rw [Array.getElem?_eq_none (Nat.le_refl _), Array.getElem?_eq_getElem shorter] at found
  cases found

theorem Uniform.keeps {layout : Nat -> Assembly Nat} (uniform : Uniform layout) (next : Nat)
    (before : Array Instruction) : Keeps before ((layout next).run before).2 :=
  have same : Shifts id before before := fun _ => rfl
  (uniform id next before before same).2.keeps

theorem exactly_keeps {body : Nat -> Assembly Nat} (uniform : Uniform body)
    (count next : Nat) (before : Array Instruction) :
    Keeps before ((exactly body count next).run before).2 :=
  (exactly_uniform uniform count).keeps next before

theorem upTo_keeps {body : Nat -> Assembly Nat} (uniform : Uniform body) (greedy : Bool)
    (count next further : Nat) (before : Array Instruction) :
    Keeps before ((upTo body greedy next count further).run before).2 :=
  have same : Shifts id before before := fun _ => rfl
  (upTo_uniform uniform greedy count next further same).2.keeps

theorem Laid.entry_lt (laid : Laid next before after entry) (behind : next < before.size) :
    entry < after.size := by
  rcases laid.entry with rfl | inside
  · exact Nat.lt_of_lt_of_le behind laid.grows
  · exact inside.2

theorem Closed.laid (closed : Closed before) (laid : Laid next before after entry)
    (behind : next < before.size) : Closed after := by
  rintro holds place target ⟨instruction, found, member⟩
  by_cases isOlder : place < before.size
  · rw [laid.keeps place isOlder] at found
    exact Nat.lt_of_lt_of_le (closed holds place target ⟨instruction, found, member⟩) laid.grows
  · have own := (laid.inside place instruction (Nat.le_of_not_lt isOlder) found).onward member
    rcases own with rfl | inside
    · exact Nat.lt_of_lt_of_le behind laid.grows
    · exact inside.2

theorem Closed.push (closed : Closed before) {instruction : Instruction}
    (confined : instruction.Confined (· < before.size)) : Closed (before.push instruction) := by
  rintro holds place target ⟨other, found, member⟩
  have inRange := (Array.getElem?_eq_some_iff.mp found).1
  rw [Array.size_push] at inRange ⊢
  by_cases isOlder : place < before.size
  · rw [push_keeps _ _ place isOlder] at found
    exact Nat.lt_succ_of_lt (closed holds place target ⟨other, found, member⟩)
  · obtain rfl : place = before.size := by omega
    rw [Array.getElem?_push_size] at found
    cases found
    exact Nat.lt_succ_of_lt (confined.onward member)

/-- Instructions that lead to each other only are not left. -/
theorem Closed.reaches (closed : Closed before) (keeps : Keeps before whole)
    {holds : Assertion -> Bool} {place target : Nat} (inRange : place < before.size)
    (reaches : Relation.ReflTransGen (Slips whole holds) place target) : target < before.size := by
  induction reaches with
  | refl => exact inRange
  | tail _ slips inductionHypothesis =>
      rcases slips with ⟨instruction, found, member⟩
      rw [keeps _ inductionHypothesis] at found
      exact closed holds _ _ ⟨instruction, found, member⟩

variable {pattern : Pattern} (numbered : pattern.Numbered) {last spot middle : Spot}

/-- An iteration is entered by the preferred way if this matches, and the program can go
on from there.  What it goes on to lies behind the iteration and does not lead back. -/
theorem iteration_way (closed : Closed before) (behind : further < before.size)
    (keeps : Keeps ((pattern.assemble further).run before).2 whole)
    (prefers : (pattern.fragment numbered).Prefers spot middle)
    (leaves : Way whole last further middle) :
    Way whole last ((pattern.assemble further).run before).1 spot := by
  have laid := Pattern.assemble_laid numbered further before
  rcases Pattern.assemble_copies numbered behind (fun place _ inRange => keeps place inRange) with
    ⟨copied, isEntry, _⟩
  rw [isEntry]
  apply copied.way prefers leaves
  intro passing isOwn _ returns
  have stays := closed.reaches (Keeps.trans laid.keeps keeps) behind returns
  rcases Nat.exists_eq_add_one_of_ne_zero (Nat.ne_of_gt isOwn) with ⟨place, rfl⟩
  rw [copyPlace] at stays
  omega

/-- The iterations that are required follow each other. -/
theorem exactly_way (count : Nat) (closed : Closed before) (behind : further < before.size)
    (keeps : Keeps ((exactly pattern.assemble count further).run before).2 whole)
    (rounds : Rounds (pattern.fragment numbered).Prefers count spot middle)
    (leaves : Way whole last further middle) :
    Way whole last ((exactly pattern.assemble count further).run before).1 spot := by
  induction count generalizing further before middle with
  | zero => exact rounds.zero ▸ leaves
  | succ count inductionHypothesis =>
      rw [exactly, run_bind] at keeps ⊢
      let once := (pattern.assemble further).run before
      have keepsOnce : Keeps once.2 whole :=
        (exactly_keeps pattern.assemble_uniform count once.1 once.2).trans keeps
      have laid : Laid further before once.2 once.1 := Pattern.assemble_laid numbered further before
      have closed' := closed.laid laid behind
      have inRange := laid.entry_lt behind
      rcases rounds.split with ⟨before, begins, ends⟩
      have iteration := iteration_way numbered closed behind keepsOnce ends.one leaves
      exact inductionHypothesis closed' inRange keeps begins iteration

/-- As many iterations as are required are needed to come through. -/
theorem exactly_comes (count : Nat) (behind : further < before.size)
    (keeps : Keeps ((exactly pattern.assemble count further).run before).2 whole)
    (comes : Comes whole last ((exactly pattern.assemble count further).run before).1 spot) :
    exists middle, Rounds (pattern.fragment numbered).Matches count spot middle ∧
      Comes whole last further middle := by
  induction count generalizing further before with
  | zero => exact ⟨spot, .none, comes⟩
  | succ count inductionHypothesis =>
      rw [exactly, run_bind] at keeps comes
      let once := (pattern.assemble further).run before
      have keepsOnce : Keeps once.2 whole :=
        (exactly_keeps pattern.assemble_uniform count once.1 once.2).trans keeps
      have inRange : once.1 < once.2.size :=
        (Pattern.assemble_laid numbered further before).entry_lt behind
      rcases inductionHypothesis inRange keeps comes with ⟨middle, rounds, comes'⟩
      rcases Pattern.assemble_copies numbered behind
        (fun place _ inRange => keepsOnce place inRange) with ⟨copied, isEntry, _⟩
      have comes' : Comes whole last once.1 middle := comes'
      rw [show once.1 = _ from isEntry] at comes'
      rcases copied.comes (Fragment.entered _) comes' with ⟨end', isMatch, leaves⟩
      exact ⟨end', rounds.append (.more isMatch .none), leaves⟩

/-! ## Choices -/

/-- Whether a place is a choice between one more iteration and going on, which is
preferred if the iteration comes to nothing. -/
def Chooses (whole : Array Instruction) (choice again : Nat) : Prop :=
  2 ≤ choice ∧ whole[choice]? = some (.split again 1)

variable {choice again : Nat}

theorem Ends.slips (isEnd : Ends whole) {holds : Assertion -> Bool} {place target : Nat}
    (isAtEnd : place ≤ 1) (slips : Slips whole holds place target) : target ≤ 1 := by
  rcases slips with ⟨instruction, found, member⟩
  obtain rfl | rfl : place = 0 ∨ place = 1 := by omega
  · cases found.symm.trans isEnd.accepts
    cases member
  · cases found.symm.trans isEnd.marks
    rw [List.mem_singleton.mp member]
    exact Nat.zero_le _

/-- A program does not come back from its end. -/
theorem Ends.apart (isEnd : Ends whole) {holds : Assertion -> Bool} {target : Nat}
    (reaches : Relation.ReflTransGen (Slips whole holds) 1 target) : target ≤ 1 := by
  induction reaches with
  | refl => exact Nat.le_refl _
  | tail _ slips isAtEnd => exact isEnd.slips isAtEnd slips

/-- From the mark of the end of the whole match a program has come through. -/
theorem Ends.way (isEnd : Ends whole) (spot : Spot) : Way whole spot 1 spot := by
  have accepts : Way whole spot 0 spot :=
    .arrives (.stop (Set.notMem_empty _) ⟨Or.inl isEnd.accepts, spot, .arrives isEnd.accepts⟩)
      isEnd.accepts
  have onward : (Instruction.mark 1 0).onward spot.holds = [] ++ 0 :: [] := rfl
  apply accepts.step isEnd.marks onward (List.forall_mem_nil _)
  intro returns
  rcases returns.cases_head with same | ⟨place, ⟨instruction, found, member⟩, _⟩
  · cases same
  · cases found.symm.trans isEnd.accepts
    cases member

theorem Chooses.leave (isEnd : Ends whole) (chooses : Chooses whole choice again)
    (stuck : forall last, ¬Comes whole last again spot) (leaves : Way whole last 1 spot) :
    Way whole last choice spot := by
  have onward : (Instruction.split again 1).onward spot.holds = [again] ++ 1 :: [] := rfl
  apply leaves.step chooses.2 onward (List.forall_mem_singleton.mpr stuck)
  intro returns
  exact absurd chooses.1 (Nat.not_le_of_lt (Nat.lt_succ_of_le (isEnd.apart returns)))

theorem Chooses.enter (chooses : Chooses whole choice again)
    (apart : ¬Relation.ReflTransGen (Slips whole spot.holds) again choice)
    (enters : Way whole last again spot) : Way whole last choice spot := by
  have onward : (Instruction.split again 1).onward spot.holds = [] ++ again :: [1] := rfl
  exact enters.step chooses.2 onward (List.forall_mem_nil _) apart

/-- A choice of an iteration that is copied to behind the choice, or in front of it.  It
is left where the fragment is stuck, and otherwise entered. -/
structure Offers (fragment : Fragment) (whole : Array Instruction) (choice next base : Nat) :
    Prop where
  chooses : Chooses whole choice (copyPlace next base fragment.entry)
  copied : fragment.CopiedTo whole next base
  apart : choice < base ∨ base + fragment.code.size ≤ choice + 1

variable {fragment : Fragment} {base : Nat}

theorem Offers.leave (offers : Offers fragment whole choice next base) (isEnd : Ends whole)
    (stuck : fragment.Stuck spot) (leaves : Way whole last 1 spot) : Way whole last choice spot := by
  apply offers.chooses.leave isEnd _ leaves
  intro last comes
  rcases offers.copied.comes fragment.entered comes with ⟨middle, isMatch, _⟩
  exact stuck middle isMatch

theorem Offers.enter (offers : Offers fragment whole choice next base)
    (consumes : fragment.Consumes)
    (enters : Way whole last (copyPlace next base fragment.entry) spot) :
    Way whole last choice spot := by
  apply offers.chooses.enter _ enters
  intro returns
  rcases offers.copied.slips_within (consumes spot) fragment.entered returns with
    ⟨reached, _, isOwn, inRange, isChoice⟩
  rcases Nat.exists_eq_add_one_of_ne_zero (Nat.ne_of_gt isOwn) with ⟨place, rfl⟩
  have apart := offers.apart
  rw [copyPlace] at isChoice
  omega

/-- Iterations that are not required are gone through until there are no more of them,
or the fragment does not match. -/
theorem upTo_way {count taken : Nat} (closed : Closed before) (isEnd : Ends whole)
    (long : 2 ≤ before.size) (behind : further < before.size)
    (keeps : Keeps ((upTo pattern.assemble true 1 count further).run before).2 whole)
    (consumes : (pattern.fragment numbered).Consumes)
    (rounds : Rounds (pattern.fragment numbered).Prefers taken spot middle)
    (leaves : taken = count ∧ Way whole last further middle ∨
      taken < count ∧ (pattern.fragment numbered).Stuck middle ∧ Way whole last 1 middle) :
    Way whole last ((upTo pattern.assemble true 1 count further).run before).1 spot := by
  induction count generalizing further before taken middle with
  | zero =>
      rcases leaves with ⟨rfl, leaves⟩ | ⟨none, _⟩
      · exact rounds.zero ▸ leaves
      · exact absurd none (Nat.not_lt_zero _)
  | succ count inductionHypothesis =>
      rw [upTo, run_bind, run_bind] at keeps ⊢
      let once := (pattern.assemble further).run before
      let forked := once.2.push (.split once.1 1)
      have laid : Laid further before once.2 once.1 := Pattern.assemble_laid numbered further before
      have inRange : once.1 < once.2.size := laid.entry_lt behind
      have closed' : Closed once.2 := closed.laid laid behind
      have isLong : 2 ≤ once.2.size := Nat.le_trans long laid.grows
      have closed'' : Closed forked := closed'.push ⟨inRange, by omega⟩
      have keepsForked : Keeps forked whole :=
        (upTo_keeps pattern.assemble_uniform true count 1 once.2.size forked).trans keeps
      have keepsOnce : Keeps once.2 whole := Keeps.trans (push_keeps once.2 _) keepsForked
      rcases Pattern.assemble_copies numbered behind (fun place _ inRange => keepsOnce place inRange)
        with ⟨copied, isEntry, isSize⟩
      have isSize : once.2.size + 1 = before.size + (pattern.fragment numbered).code.size := isSize
      have isEntry : once.1 = copyPlace further before.size (pattern.fragment numbered).entry := isEntry
      have size : forked.size = once.2.size + 1 := Array.size_push ..
      have isLast : once.2.size < forked.size := by omega
      have isFork : whole[once.2.size]? = some (.split once.1 1) := by
        rw [keepsForked _ isLast, Array.getElem?_push_size]
      have offers : Offers (pattern.fragment numbered) whole once.2.size further before.size :=
        ⟨⟨isLong, isEntry ▸ isFork⟩, copied, Or.inr (by omega)⟩
      have isLonger : 2 ≤ forked.size := by omega
      have goesOn := fun {taken middle} =>
        @inductionHypothesis forked once.2.size middle taken closed'' isLonger isLast keeps
      -- The choice comes after those of the iterations that are laid out later.
      rcases leaves with ⟨rfl, leaves⟩ | ⟨atMost, stuck, leaves⟩
      · rcases rounds.split with ⟨place, begins, ends⟩
        have again := iteration_way numbered closed behind keepsOnce ends.one leaves
        exact goesOn begins (Or.inl ⟨rfl, offers.enter consumes (isEntry ▸ again)⟩)
      · rcases Nat.lt_succ_iff_lt_or_eq.mp atMost with less | rfl
        · exact goesOn rounds (Or.inr ⟨less, stuck, leaves⟩)
        · exact goesOn rounds (Or.inl ⟨rfl, offers.leave isEnd stuck leaves⟩)

/-! ## Loops -/

/-- From the choice of a loop the program slips to the choice, to its end, or into the
iteration as far as the fragment slips from its entry. -/
theorem Offers.slips_from (offers : Offers fragment whole choice choice base) (isEnd : Ends whole)
    (consumes : fragment.Consumes) {target : Nat}
    (reaches : Relation.ReflTransGen (Slips whole spot.holds) choice target) :
    target = choice ∨ target ≤ 1 ∨ exists reached,
      Relation.ReflTransGen (Slips fragment.code spot.holds) fragment.entry reached ∧
        reached < fragment.code.size ∧ target = copyPlace choice base reached := by
  induction reaches with
  | refl => exact Or.inl rfl
  | @tail place target _ slips inductionHypothesis =>
      rcases inductionHypothesis with rfl | isAtEnd | ⟨reached, reaches, inRange, rfl⟩
      · rcases slips with ⟨instruction, found, member⟩
        cases found.symm.trans offers.chooses.2
        rcases List.mem_pair.mp member with rfl | rfl
        · exact Or.inr (Or.inr ⟨_, .refl, fragment.entered, rfl⟩)
        · exact Or.inr (Or.inl (Nat.le_refl _))
      · exact Or.inr (Or.inl (isEnd.slips isAtEnd slips))
      · have isOwn : 0 < reached := Nat.pos_of_ne_zero fun none => consumes spot (none ▸ reaches)
        rcases offers.copied.of_slips isOwn inRange slips with ⟨after, slips', rfl⟩
        exact Or.inr (Or.inr ⟨after, reaches.tail slips', (Fragment.slips_inside slips').2, rfl⟩)

/-- One more iteration of a loop. -/
theorem Offers.reenter (offers : Offers fragment whole choice choice base) (isEnd : Ends whole)
    (consumes : fragment.Consumes) (prefers : fragment.Prefers spot middle)
    (leaves : Way whole last choice middle) :
    Way whole last (copyPlace choice base fragment.entry) spot := by
  apply offers.copied.way prefers leaves
  intro passing isOwn through returns
  have behind := offers.copied.behind
  have long := offers.chooses.1
  rcases Nat.exists_eq_add_one_of_ne_zero (Nat.ne_of_gt isOwn) with ⟨place, rfl⟩
  rcases offers.slips_from isEnd consumes returns with isChoice | isAtEnd | ⟨reached, reaches, _, same⟩
  · rw [copyPlace] at isChoice
    omega
  · rw [copyPlace] at isAtEnd
    omega
  · rw [offers.copied.copyPlace_injective same] at through
    exact consumes middle (reaches.trans through)

/-- A loop is gone through until the fragment does not match. -/
theorem Offers.loop (offers : Offers fragment whole choice choice base) (isEnd : Ends whole)
    (consumes : fragment.Consumes) {count : Nat} (rounds : Rounds fragment.Prefers count spot middle)
    (stuck : fragment.Stuck middle) (leaves : Way whole last 1 middle) :
    Way whole last choice spot := by
  induction rounds with
  | none => exact offers.leave isEnd stuck leaves
  | more prefers _ inductionHypothesis =>
      exact offers.enter consumes
        (offers.reenter isEnd consumes prefers (inductionHypothesis stuck leaves))

/-- What a loop is laid out as. -/
theorem oneOrMore_offers (long : 2 ≤ before.size)
    (keeps : Keeps ((oneOrMore pattern.assemble true 1).run before).2 whole) :
    Offers (pattern.fragment numbered) whole before.size before.size (before.size + 1) ∧
      ((oneOrMore pattern.assemble true 1).run before).1 =
        (copyPlace before.size (before.size + 1) (pattern.fragment numbered).entry, before.size) ∧
      ((oneOrMore pattern.assemble true 1).run before).2.size =
        before.size + (pattern.fragment numbered).code.size := by
  let reserved := before.push .accept
  let looped := (pattern.assemble before.size).run reserved
  let filled := looped.2.setIfInBounds before.size (.split looped.1 1)
  have isReserved : reserved.size = before.size + 1 := Array.size_push ..
  have keeps : Keeps filled whole := keeps
  have isFilled : filled.size = looped.2.size := Array.size_setIfInBounds ..
  have grows : reserved.size ≤ looped.2.size :=
    (Pattern.assemble_laid numbered before.size reserved).grows
  have own : forall place, reserved.size ≤ place -> place < looped.2.size ->
      whole[place]? = looped.2[place]? := by
    intro place isOwn inRange
    rw [keeps place (by omega), Array.getElem?_setIfInBounds_ne (by omega)]
  rcases Pattern.assemble_copies numbered (by omega) own with ⟨copied, isEntry, isSize⟩
  rw [isReserved] at copied isEntry isSize
  have isEntry : looped.1 = _ := isEntry
  have isSize : looped.2.size + 1 = _ := isSize
  have isChoice : whole[before.size]? = some (.split looped.1 1) := by
    rw [keeps _ (by omega), Array.getElem?_setIfInBounds_self_of_lt (by omega)]
  rw [isEntry] at isChoice
  have isLength : filled.size = before.size + (pattern.fragment numbered).code.size := by omega
  exact ⟨⟨⟨long, isChoice⟩, copied, Or.inl (Nat.lt_succ_self _)⟩, Prod.ext isEntry rfl, isLength⟩

/-! ## Repetitions -/

variable {bounds : RepeatBounds} {definite : Bool} {count : Nat}

/-- A greedy repetition goes through preferred matches until there are no more of them,
or it is not repeated any more. -/
theorem iterations_way (closed : Closed before) (isEnd : Ends whole) (long : 2 ≤ before.size)
    (keeps : Keeps ((iterations pattern.assemble definite bounds true 1).run before).2 whole)
    (consumes : (pattern.fragment numbered).Consumes)
    (rounds : Rounds (pattern.fragment numbered).Prefers count spot middle)
    (enough : bounds.min ≤ count) (atMost : forall max, bounds.max = some max -> count ≤ max)
    (ends : bounds.max = some count ∨ (pattern.fragment numbered).Stuck middle)
    (leaves : Way whole last 1 middle) :
    Way whole last ((iterations pattern.assemble definite bounds true 1).run before).1 spot := by
  rcases bounds with ⟨min, max⟩
  have enough : min ≤ count := enough
  obtain ⟨more, rfl⟩ := Nat.exists_eq_add_of_le enough
  have lays := Pattern.assemble_laid numbered
  cases max with
  | some max =>
      let optional := (upTo pattern.assemble true 1 (max - min) 1).run before
      have laid : Laid 1 before optional.2 optional.1 := upTo_laid lays (max - min) (.none 1 before)
      have keepsOptional : Keeps optional.2 whole :=
        (exactly_keeps pattern.assemble_uniform min optional.1 optional.2).trans keeps
      rcases rounds.split with ⟨between, required, further⟩
      have leaves' : Way whole last optional.1 between := by
        apply upTo_way numbered closed isEnd long long keepsOptional consumes further
        have less := atMost max rfl
        rcases Nat.lt_or_eq_of_le less with less | isMax
        · rcases ends with isMax | stuck
          · have isMax : max = min + more := Option.some.inj isMax
            omega
          · exact Or.inr ⟨by omega, stuck, leaves⟩
        · exact Or.inl ⟨by omega, leaves⟩
      exact exactly_way numbered min (closed.laid laid long) (laid.entry_lt long) keeps required leaves'
  | none =>
      have stuck : (pattern.fragment numbered).Stuck middle := ends.resolve_left fun no => nomatch no
      let loop := (oneOrMore pattern.assemble true 1).run before
      have laid : Laid 1 before loop.2 loop.1.1 := (oneOrMore_laid lays true 1 before).1
      cases min with
      | zero =>
          rw [Nat.zero_add] at rounds
          cases definite with
          | true =>
              rcases oneOrMore_offers numbered long keeps with ⟨offers, isLoop, _⟩
              have isEntry : loop.1.2 = before.size := congrArg Prod.snd isLoop
              change Way whole last loop.1.2 spot
              rw [isEntry]
              exact offers.loop isEnd consumes rounds stuck leaves
          | false =>
              -- The choice in front of the loop is laid out behind it.
              have keepsFront : Keeps (loop.2.push (.split loop.1.1 1)) whole := keeps
              have keepsLoop : Keeps loop.2 whole := Keeps.trans (push_keeps loop.2 _) keepsFront
              rcases oneOrMore_offers numbered long keepsLoop with ⟨offers, isLoop, isSize⟩
              have isSize : loop.2.size = _ := isSize
              have isAgain : loop.1.1 = copyPlace before.size (before.size + 1)
                  (pattern.fragment numbered).entry := congrArg Prod.fst isLoop
              have isFront : whole[loop.2.size]? = some (.split loop.1.1 1) := by
                have isLast : loop.2.size < (loop.2.push (.split loop.1.1 1)).size := by
                  rw [Array.size_push]
                  exact Nat.lt_succ_self _
                rw [keepsFront _ isLast, Array.getElem?_push_size]
              rw [isAgain] at isFront
              have front : Offers (pattern.fragment numbered) whole loop.2.size before.size
                  (before.size + 1) :=
                ⟨⟨Nat.le_trans long laid.grows, isFront⟩, offers.copied, Or.inr (by omega)⟩
              change Way whole last loop.2.size spot
              cases rounds with
              | none => exact front.leave isEnd stuck leaves
              | more prefers rounds =>
                  exact front.enter consumes (offers.reenter isEnd consumes prefers
                    (offers.loop isEnd consumes rounds stuck leaves))
      | succ min =>
          have keepsLoop : Keeps loop.2 whole :=
            (exactly_keeps pattern.assemble_uniform min loop.1.1 loop.2).trans keeps
          rcases oneOrMore_offers numbered long keepsLoop with ⟨offers, isLoop, _⟩
          rw [Nat.add_assoc] at rounds
          rcases rounds.split with ⟨between, required, further⟩
          rw [Nat.add_comm] at further
          have leaves' : Way whole last loop.1.1 between := by
            rw [show loop.1 = _ from isLoop]
            cases further with
            | more prefers further =>
                exact offers.reenter isEnd consumes prefers
                  (offers.loop isEnd consumes further stuck leaves)
          exact exactly_way numbered min (closed.laid laid long) (laid.entry_lt long) keeps required
            leaves'

/-- To come through a repetition takes as many matches as are required. -/
theorem iterations_comes (long : 2 ≤ before.size)
    (keeps : Keeps ((iterations pattern.assemble definite bounds true 1).run before).2 whole)
    (comes : Comes whole last ((iterations pattern.assemble definite bounds true 1).run before).1
      spot) :
    exists middle, Rounds (pattern.fragment numbered).Matches bounds.min spot middle := by
  rcases bounds with ⟨min, max⟩
  have lays := Pattern.assemble_laid numbered
  cases max with
  | some max =>
      let optional := (upTo pattern.assemble true 1 (max - min) 1).run before
      have laid : Laid 1 before optional.2 optional.1 := upTo_laid lays (max - min) (.none 1 before)
      rcases exactly_comes numbered min (laid.entry_lt long) keeps comes with ⟨middle, rounds, _⟩
      exact ⟨middle, rounds⟩
  | none =>
      cases min with
      | zero => exact ⟨spot, .none⟩
      | succ min =>
          let loop := (oneOrMore pattern.assemble true 1).run before
          have laid : Laid 1 before loop.2 loop.1.1 := (oneOrMore_laid lays true 1 before).1
          have keepsLoop : Keeps loop.2 whole :=
            (exactly_keeps pattern.assemble_uniform min loop.1.1 loop.2).trans keeps
          rcases oneOrMore_offers numbered long keepsLoop with ⟨offers, isLoop, _⟩
          rcases exactly_comes numbered min (laid.entry_lt long) keeps comes with
            ⟨between, rounds, comes'⟩
          rw [show loop.1 = _ from isLoop] at comes'
          rcases offers.copied.comes (Fragment.entered _) comes' with ⟨middle, isMatch, _⟩
          exact ⟨middle, rounds.append (.more isMatch .none)⟩

end Assembly
end SeedGrammar
