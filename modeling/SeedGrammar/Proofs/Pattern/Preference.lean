import SeedGrammar.Proofs.Pattern.Ways

namespace SeedGrammar

/-!
# The matcher takes the preferred way

At each position of the text the matcher follows threads to the places where they
halt.  What it has reached before it follows a thread need not be looked at again, as
long as none of it escapes: `Spreads.drain` says that threads that do not escape leave
only dead ones behind, and `Spreads.lead` that a thread with a preferred way comes to
its end with none but dead ones before it.  Threads that are dead never accept and lead
to none but dead ones behind the next character.

So the first thread on the preferred way stays the first that is alive, whatever is
found by those after it, and its end is the end of the match,
`AssembledProgram.find?_of_way`.
-/

namespace Frontier

/-- The places that have been reached.  Those that do not exist count as reached. -/
def places (frontier : Frontier) : Set Nat :=
  fun place => frontier.reached.getD place true = true

/-- Reach a place. -/
def reach (frontier : Frontier) (place : Nat) : Frontier :=
  { frontier with reached := frontier.reached.setIfInBounds place true }

/-- How many places have not been reached. -/
def unreachedCount (frontier : Frontier) : Nat :=
  frontier.reached.toList.countP fun reached => !reached

variable {frontier : Frontier} {place : Nat}

theorem lt_of_new (isNew : place ∉ frontier.places) : place < frontier.reached.size := by
  apply Nat.lt_of_not_le
  intro beyond
  apply isNew
  change frontier.reached.getD place true = true
  rw [Array.getD_eq_getD_getElem?, Array.getElem?_eq_none beyond]
  rfl

theorem reached_of_new (isNew : place ∉ frontier.places) :
    frontier.reached[place]? = some false := by
  have inRange := lt_of_new isNew
  have notReached : frontier.reached.getD place true ≠ true := isNew
  rw [Array.getD_eq_getD_getElem?, Array.getElem?_eq_getElem inRange] at notReached
  rw [Array.getElem?_eq_getElem inRange]
  exact congrArg some (Bool.eq_false_of_not_eq_true notReached)

theorem places_reach (isNew : place ∉ frontier.places) :
    (frontier.reach place).places = insert place frontier.places := by
  have inRange := lt_of_new isNew
  apply Set.ext
  intro other
  change (frontier.reached.setIfInBounds place true).getD other true = true ↔
    other = place ∨ frontier.reached.getD other true = true
  rw [Array.getD_eq_getD_getElem?, Array.getD_eq_getD_getElem?, Array.getElem?_setIfInBounds]
  by_cases same : place = other
  · subst same
    simp [inRange]
  · simp [same, Ne.symm same]

theorem unreachedCount_reach (isNew : place ∉ frontier.places) :
    (frontier.reach place).unreachedCount + 1 = frontier.unreachedCount := by
  have inRange : place < frontier.reached.toList.length := lt_of_new isNew
  have isFalse : frontier.reached.toList[place] = false := by
    have found := reached_of_new isNew
    rw [<- Array.getElem?_toList, List.getElem?_eq_getElem inRange] at found
    exact Option.some.inj found
  have positive : 0 < frontier.reached.toList.countP fun reached => !reached :=
    List.countP_pos_iff.mpr ⟨_, List.getElem_mem inRange, by rw [isFalse]; rfl⟩
  rw [unreachedCount, unreachedCount, reach, Array.toList_setIfInBounds, List.countP_set inRange,
    isFalse]
  simp only [Bool.not_false, Bool.not_true, Bool.false_eq_true, if_true, if_false]
  omega

end Frontier

namespace AssembledProgram

/-- The threads that a thread goes on to without consuming, the preferred one first. -/
def onward (program : AssembledProgram) (cursor : Cursor) (thread : Thread) : List Thread :=
  match program.code[thread.place]? with
  | some (.assert assertion next) =>
    if assertion.holds cursor then [{ thread with place := next }] else []
  | some (.mark slot next) => [⟨next, (slot, cursor.offset) :: thread.marks⟩]
  | some (.split preferred other) =>
    [{ thread with place := preferred }, { thread with place := other }]
  | _ => []

variable {program : AssembledProgram} {cursor : Cursor}

theorem onward_places {thread : Thread} {instruction : Instruction}
    (found : program.code[thread.place]? = some instruction) :
    (program.onward cursor thread).map Thread.place = instruction.onward cursor.spot.holds := by
  rw [onward, found]
  cases instruction with
  | assert assertion next =>
      simp only [Instruction.onward, Cursor.spot_holds]
      split
      · rfl
      · rfl
  | _ => rfl

/-- A thread goes on to where the program slips to. -/
theorem onward_slips {thread after : Thread} (member : after ∈ program.onward cursor thread) :
    Slips program.code cursor.spot.holds thread.place after.place := by
  cases found : program.code[thread.place]? with
  | none =>
      rw [onward, found] at member
      cases member
  | some instruction =>
      exact ⟨instruction, found, onward_places found ▸ List.mem_map_of_mem member⟩

/-- Whether none of some threads can come to the end of the program. -/
def AllDead (program : AssembledProgram) (spot : Spot) (threads : List Thread) : Prop :=
  forall thread, thread ∈ threads -> ¬Live program.code spot thread.place

/-- Whether at a spot nothing has been added to what has been reached but dead threads
and places that do not escape. -/
structure Idles (program : AssembledProgram) (spot : Spot) (before after : Frontier) : Prop where
  size : after.reached.size = before.reached.size
  clears : Clears program.code spot before.places after.places
  threads : exists dead, after.threads.toList = before.threads.toList ++ dead ∧
    program.AllDead spot dead

/-- What following threads comes to, whatever the number of steps that it takes. -/
inductive Spreads (program : AssembledProgram) (cursor : Cursor) :
    List Thread -> Frontier -> Frontier -> Prop where
  | done {frontier} : Spreads program cursor [] frontier frontier
  | again {thread waiting frontier after} : thread.place ∈ frontier.places ->
      Spreads program cursor waiting frontier after ->
      Spreads program cursor (thread :: waiting) frontier after
  | halts {thread waiting frontier after} : thread.place ∉ frontier.places ->
      Halts program.code thread.place ->
      Spreads program cursor waiting
        { frontier.reach thread.place with threads := frontier.threads.push thread } after ->
      Spreads program cursor (thread :: waiting) frontier after
  | goesOn {thread waiting frontier after} : thread.place ∉ frontier.places ->
      ¬Halts program.code thread.place ->
      Spreads program cursor (program.onward cursor thread ++ waiting)
        (frontier.reach thread.place) after ->
      Spreads program cursor (thread :: waiting) frontier after

/-- Following threads with enough steps comes to what they spread to. -/
theorem spread_spreads (steps : Nat) {waiting : List Thread} {frontier : Frontier}
    (enough : waiting.length + 2 * frontier.unreachedCount ≤ steps) :
    program.Spreads cursor waiting frontier (program.spread cursor steps waiting frontier) := by
  induction steps generalizing waiting frontier with
  | zero =>
      have empty : waiting.length = 0 := by omega
      rw [List.eq_nil_of_length_eq_zero empty]
      exact .done
  | succ steps inductionHypothesis =>
      cases waiting with
      | nil => exact .done
      | cons thread waiting =>
          rw [List.length_cons] at enough
          by_cases reached : thread.place ∈ frontier.places
          · have isReached : frontier.reached.getD thread.place true = true := reached
            rw [spread, if_pos isReached]
            exact .again reached (inductionHypothesis (by omega))
          · have isNew : ¬frontier.reached.getD thread.place true = true := reached
            have fewer := Frontier.unreachedCount_reach reached
            have goesOn : ¬Halts program.code thread.place ->
                (program.onward cursor thread).length ≤ 2 ->
                program.Spreads cursor (thread :: waiting) frontier
                  (program.spread cursor steps (program.onward cursor thread ++ waiting)
                    (frontier.reach thread.place)) := by
              intro moves atMost
              apply Spreads.goesOn reached moves (inductionHypothesis _)
              rw [List.length_append]
              omega
            have halts : Halts program.code thread.place ->
                program.Spreads cursor (thread :: waiting) frontier
                  (program.spread cursor steps waiting
                    { frontier.reach thread.place with threads := frontier.threads.push thread }) := by
              intro halts
              apply Spreads.halts reached halts (inductionHypothesis _)
              change waiting.length + 2 * (frontier.reach thread.place).unreachedCount ≤ steps
              omega
            rw [spread, if_neg isNew]
            dsimp only
            rw [onward] at goesOn
            split
            case _ none =>
              simp only [none] at goesOn
              exact goesOn (by simp [Halts, none]) (by simp)
            case _ set next found => exact halts (Or.inr ⟨set, next, found⟩)
            case _ found => exact halts (Or.inl found)
            case _ assertion next found =>
              simp only [found] at goesOn
              split
              · rename_i holds
                rw [if_pos holds] at goesOn
                exact goesOn (by simp [Halts, found]) (by simp)
              · rename_i fails
                rw [if_neg fails] at goesOn
                exact goesOn (by simp [Halts, found]) (by simp)
            case _ slot next found =>
              simp only [found] at goesOn
              exact goesOn (by simp [Halts, found]) (by simp)
            case _ preferred other found =>
              simp only [found] at goesOn
              exact goesOn (by simp [Halts, found]) (by simp)

namespace Spreads

variable {waiting : List Thread} {frontier after : Frontier}

/-- Threads are followed one after the other. -/
theorem split {first second : List Thread}
    (spreads : program.Spreads cursor (first ++ second) frontier after) :
    exists middle, program.Spreads cursor first frontier middle ∧
      program.Spreads cursor second middle after := by
  generalize isWaiting : first ++ second = waiting at spreads
  induction spreads generalizing first with
  | done =>
      rcases List.append_eq_nil_iff.mp isWaiting with ⟨rfl, rfl⟩
      exact ⟨_, .done, .done⟩
  | @again thread waiting frontier after reached rest inductionHypothesis =>
      cases first with
      | nil =>
          obtain rfl : second = thread :: waiting := isWaiting
          exact ⟨_, .done, .again reached rest⟩
      | cons head first =>
          cases isWaiting
          rcases inductionHypothesis rfl with ⟨middle, early, late⟩
          exact ⟨middle, .again reached early, late⟩
  | @halts thread waiting frontier after isNew halts rest inductionHypothesis =>
      cases first with
      | nil =>
          obtain rfl : second = thread :: waiting := isWaiting
          exact ⟨_, .done, .halts isNew halts rest⟩
      | cons head first =>
          cases isWaiting
          rcases inductionHypothesis rfl with ⟨middle, early, late⟩
          exact ⟨middle, .halts isNew halts early, late⟩
  | @goesOn thread waiting frontier after isNew moves rest inductionHypothesis =>
      cases first with
      | nil =>
          obtain rfl : second = thread :: waiting := isWaiting
          exact ⟨_, .done, .goesOn isNew moves rest⟩
      | cons head first =>
          cases isWaiting
          rcases inductionHypothesis (List.append_assoc ..) with ⟨middle, early, late⟩
          exact ⟨middle, .goesOn isNew moves early, late⟩

theorem size (spreads : program.Spreads cursor waiting frontier after) :
    after.reached.size = frontier.reached.size := by
  induction spreads with
  | done => rfl
  | again _ _ inductionHypothesis => exact inductionHypothesis
  | halts _ _ _ inductionHypothesis =>
      exact inductionHypothesis.trans (Array.size_setIfInBounds ..)
  | goesOn _ _ _ inductionHypothesis =>
      exact inductionHypothesis.trans (Array.size_setIfInBounds ..)

/-- Threads that have come to a halt stay in front. -/
theorem grows (spreads : program.Spreads cursor waiting frontier after) :
    exists more, after.threads.toList = frontier.threads.toList ++ more := by
  induction spreads with
  | done => exact ⟨[], (List.append_nil _).symm⟩
  | again _ _ inductionHypothesis => exact inductionHypothesis
  | @halts thread waiting frontier after _ _ _ inductionHypothesis =>
      rcases inductionHypothesis with ⟨more, isAfter⟩
      refine ⟨thread :: more, ?_⟩
      rw [isAfter, Array.toList_push, List.append_assoc]
      rfl
  | goesOn _ _ _ inductionHypothesis => exact inductionHypothesis

/-- Threads that do not escape leave only dead ones behind, and reach only places that
do not escape. -/
theorem drain (spreads : program.Spreads cursor waiting frontier after)
    (blocked : forall thread, thread ∈ waiting ->
      ¬Escapes program.code cursor.spot frontier.places thread.place) :
    program.Idles cursor.spot frontier after := by
  suffices drained : Clears program.code cursor.spot frontier.places after.places ∧
      exists dead, after.threads.toList = frontier.threads.toList ++ dead ∧
        program.AllDead cursor.spot dead from ⟨spreads.size, drained.1, drained.2⟩
  induction spreads with
  | done => exact ⟨.refl _, [], (List.append_nil _).symm, List.forall_mem_nil _⟩
  | again _ _ inductionHypothesis =>
      exact inductionHypothesis (List.forall_mem_cons.mp blocked).2
  | @halts thread waiting frontier after isNew _ _ inductionHypothesis =>
      rcases List.forall_mem_cons.mp blocked with ⟨firstBlocked, restBlocked⟩
      have isReached : ({ frontier.reach thread.place with
          threads := frontier.threads.push thread } : Frontier).places =
          insert thread.place frontier.places := Frontier.places_reach isNew
      rw [isReached] at inductionHypothesis
      have later := inductionHypothesis fun other member escapes =>
        restBlocked other member (escapes.fewer (Set.subset_insert ..))
      rcases later with ⟨clears, dead, isAfter, areDead⟩
      refine ⟨(Clears.block firstBlocked).trans clears, thread :: dead, ?_, ?_⟩
      · rw [isAfter, Array.toList_push, List.append_assoc]
        rfl
      · exact List.forall_mem_cons.mpr ⟨fun live => firstBlocked (.stop isNew live), areDead⟩
  | @goesOn thread waiting frontier after isNew _ _ inductionHypothesis =>
      rcases List.forall_mem_cons.mp blocked with ⟨firstBlocked, restBlocked⟩
      rw [Frontier.places_reach isNew] at inductionHypothesis
      have later := inductionHypothesis fun other member escapes => by
        have fewer := escapes.fewer (Set.subset_insert ..)
        rcases List.mem_append.mp member with own | isLater
        · exact firstBlocked (.slip isNew (onward_slips own) fewer)
        · exact restBlocked other isLater fewer
      rcases later with ⟨clears, dead, isAfter, areDead⟩
      exact ⟨(Clears.block firstBlocked).trans clears, dead, isAfter, areDead⟩

/-- A thread with a preferred way comes to the end of this way, and there are only dead
threads before it. -/
theorem lead {passed : Set Nat} {stop : Nat} {thread : Thread}
    (spreads : program.Spreads cursor (thread :: waiting) frontier after)
    (leads : Leads program.code cursor.spot passed thread.place stop)
    (clears : Clears program.code cursor.spot passed frontier.places) :
    exists dead marks more,
      after.threads.toList = frontier.threads.toList ++ (dead ++ ⟨stop, marks⟩ :: more) ∧
      program.AllDead cursor.spot dead := by
  generalize isPlace : thread.place = place at leads
  induction leads generalizing thread waiting frontier with
  | @stop passed place isNew live =>
      subst isPlace
      have escapes : Escapes program.code cursor.spot passed thread.place := .stop isNew live
      cases spreads with
      | again reached _ => exact absurd escapes (clears.blocked _ reached)
      | halts _ _ rest =>
          rcases rest.grows with ⟨more, isAfter⟩
          refine ⟨[], thread.marks, more, ?_, List.forall_mem_nil _⟩
          rw [isAfter, Array.toList_push, List.append_assoc]
          rfl
      | goesOn _ moves _ => exact absurd live.1 moves
  | @step passed place instruction preferred next others stop isNew found isOnward blocked leads
      inductionHypothesis =>
      subst isPlace
      have slips := Leads.slips found isOnward
      have escapes : Escapes program.code cursor.spot passed thread.place :=
        .slip isNew slips (leads.escapes.fewer (Set.subset_insert ..))
      cases spreads with
      | again reached _ => exact absurd escapes (clears.blocked _ reached)
      | halts _ halts _ =>
          rcases leads.escapes.comes with ⟨last, comes⟩
          exact absurd ⟨halts, last, .slips slips comes⟩ slips.not_live
      | goesOn unreached _ rest =>
          -- Those that are preferred are followed first, then the one that is taken.
          have areOnward : (program.onward cursor thread).map Thread.place = _ := onward_places found
          rw [isOnward] at areOnward
          rcases List.map_eq_append_iff.mp areOnward with ⟨early, late, isSplit, areEarly, areLate⟩
          rcases List.map_eq_cons_iff.mp areLate with ⟨taken, later, rfl, isNext, _⟩
          rw [isSplit, List.append_assoc] at rest
          rcases rest.split with ⟨middle, drains, goesOn⟩
          have passes := clears.pass thread.place
          rw [<- Frontier.places_reach unreached] at passes
          have drained := drains.drain fun other member escapes => by
            have isPreferred : other.place ∈ preferred := areEarly ▸ List.mem_map_of_mem member
            exact blocked other.place isPreferred (escapes.fewer passes.includes)
          rcases drained.threads with ⟨dead, isMiddle, areDead⟩
          rcases inductionHypothesis goesOn (passes.trans drained.clears) isNext with
            ⟨dead', marks, more, isAfter, areDead'⟩
          refine ⟨dead ++ dead', marks, more, ?_, List.forall_mem_append.mpr ⟨areDead, areDead'⟩⟩
          rw [isAfter, isMiddle, List.append_assoc, List.append_assoc]
          rfl

end Spreads

/-! ## Threads of a position -/

theorem Idles.trans {spot : Spot} {before middle after : Frontier}
    (idles : program.Idles spot before middle) (idles' : program.Idles spot middle after) :
    program.Idles spot before after := by
  rcases idles.threads with ⟨dead, isMiddle, areDead⟩
  rcases idles'.threads with ⟨dead', isAfter, areDead'⟩
  refine ⟨idles'.size.trans idles.size, idles.clears.trans idles'.clears, dead ++ dead', ?_,
    List.forall_mem_append.mpr ⟨areDead, areDead'⟩⟩
  rw [isAfter, isMiddle, List.append_assoc]

theorem Idles.refl (spot : Spot) (frontier : Frontier) : program.Idles spot frontier frontier :=
  ⟨rfl, .refl _, [], (List.append_nil _).symm, List.forall_mem_nil _⟩

variable {frontier : Frontier} {thread : Thread}

/-- A thread that is added to a position is followed to the end. -/
theorem enter_spreads (fits : frontier.reached.size = program.code.size) :
    program.Spreads cursor [thread] frontier (program.enter cursor thread frontier) := by
  apply spread_spreads
  have atMost : frontier.unreachedCount ≤ frontier.reached.toList.length := List.countP_le_length
  rw [Array.length_toList, fits] at atMost
  rw [List.length_singleton]
  omega

theorem enter_idles (fits : frontier.reached.size = program.code.size)
    (stuck : forall last, ¬Comes program.code last thread.place cursor.spot) :
    program.Idles cursor.spot frontier (program.enter cursor thread frontier) := by
  apply (enter_spreads fits).drain
  intro other member escapes
  rw [List.mem_singleton.mp member] at escapes
  rcases escapes.comes with ⟨last, comes⟩
  exact stuck last comes

theorem accepts_iff : program.accepts thread = true ↔ program.code[thread.place]? = some .accept := by
  rw [accepts]
  split
  · rename_i isAccept
    exact ⟨fun _ => isAccept, fun _ => rfl⟩
  · rename_i notAccept
    constructor
    · intro no
      cases no
    · intro isAccept
      exact absurd isAccept notAccept

theorem not_accepts_of_dead {spot : Spot} (dead : ¬Live program.code spot thread.place) :
    program.accepts thread = false := by
  apply Bool.eq_false_of_not_eq_true
  intro accepts
  have isAccept := accepts_iff.mp accepts
  exact dead ⟨Or.inl isAccept, spot, .arrives isAccept⟩

variable {c : Char} {rest : List Char} {previous : Option Char} {offset : Nat}

/-- A dead thread leaves nothing alive behind a character. -/
theorem consume_idles (fits : frontier.reached.size = program.code.size)
    (dead : ¬Live program.code ⟨previous, c :: rest⟩ thread.place) :
    program.Idles ⟨some c, rest⟩ frontier
      (program.consume c ⟨some c, rest, offset⟩ frontier thread) := by
  rw [consume]
  split
  · rename_i set next found
    split
    · rename_i inside
      have stuck : forall last, ¬Comes program.code last next ⟨some c, rest⟩ :=
        fun last comes => dead ⟨Or.inr ⟨set, next, found⟩, last, .consumes found inside comes⟩
      change program.Idles (Cursor.spot ⟨some c, rest, offset⟩) _ _
      exact enter_idles fits stuck
    · exact .refl _ _
  · exact .refl _ _

theorem foldl_consume_idles (offset : Nat) {threads : List Thread}
    (fits : frontier.reached.size = program.code.size)
    (dead : program.AllDead ⟨previous, c :: rest⟩ threads) :
    program.Idles ⟨some c, rest⟩ frontier
      (threads.foldl (program.consume c ⟨some c, rest, offset⟩) frontier) := by
  induction threads generalizing frontier with
  | nil => exact .refl _ _
  | cons first threads inductionHypothesis =>
      rcases List.forall_mem_cons.mp dead with ⟨firstDead, restDead⟩
      have idles : program.Idles _ _ (program.consume c ⟨some c, rest, offset⟩ frontier first) :=
        consume_idles fits firstDead
      exact idles.trans (inductionHypothesis (idles.size.trans fits) restDead)

/-- Threads that consume only add threads behind those that are there. -/
theorem consume_grows (fits : frontier.reached.size = program.code.size) (c : Char)
    (cursor : Cursor) (thread : Thread) :
    (program.consume c cursor frontier thread).reached.size = program.code.size ∧
      exists more, (program.consume c cursor frontier thread).threads.toList =
        frontier.threads.toList ++ more := by
  rw [consume]
  split
  · rename_i set next found
    split
    · have spreads : program.Spreads cursor [{ thread with place := next }] frontier _ :=
        enter_spreads fits
      exact ⟨spreads.size.trans fits, spreads.grows⟩
    · exact ⟨fits, [], (List.append_nil _).symm⟩
  · exact ⟨fits, [], (List.append_nil _).symm⟩

theorem foldl_consume_grows (fits : frontier.reached.size = program.code.size) (c : Char)
    (cursor : Cursor) (threads : List Thread) :
    (threads.foldl (program.consume c cursor) frontier).reached.size = program.code.size ∧
      exists more, (threads.foldl (program.consume c cursor) frontier).threads.toList =
        frontier.threads.toList ++ more := by
  induction threads generalizing frontier with
  | nil => exact ⟨fits, [], (List.append_nil _).symm⟩
  | cons first threads inductionHypothesis =>
      rcases consume_grows fits c cursor first with ⟨fits', more, isAfter⟩
      rcases inductionHypothesis fits' with ⟨fits'', more', isAfter'⟩
      refine ⟨fits'', more ++ more', ?_⟩
      rw [List.foldl_cons, isAfter', isAfter, List.append_assoc]

/-! ## Passing over a text -/

theorem find?_of_allDead {spot : Spot} {threads : List Thread}
    (dead : program.AllDead spot threads) : threads.find? program.accepts = none := by
  rw [List.find?_eq_none]
  intro thread member
  rw [not_accepts_of_dead (dead thread member)]
  exact Bool.false_ne_true

theorem takeWhile_append_of_allDead {spot : Spot} {dead : List Thread}
    (areDead : program.AllDead spot dead) (more : List Thread) :
    (dead ++ more).takeWhile (fun thread => !program.accepts thread) =
      dead ++ more.takeWhile fun thread => !program.accepts thread := by
  apply List.takeWhile_append_of_pos
  intro thread member
  rw [not_accepts_of_dead (areDead thread member)]
  rfl

theorem unreached_fits (program : AssembledProgram) :
    program.unreached.reached.size = program.code.size := Array.size_replicate ..

/-- Nothing that exists has been reached. -/
theorem unreached_clears (program : AssembledProgram) (spot : Spot) :
    Clears program.code spot ∅ program.unreached.places where
  includes := Set.empty_subset _
  blocked place reached escapes := by
    have inRange := escapes.lt_size
    have isReached : program.unreached.reached.getD place true = true := reached
    rw [Array.getD_eq_getD_getElem?, unreached, Array.getElem?_replicate, if_pos inRange] at isReached
    cases isReached

/-- The threads with which a position is passed over: until there is a match, one is
started last. -/
theorem begin_grows {best : Option (Nat × List (Nat × Nat))}
    (fits : frontier.reached.size = program.code.size) (cursor : Cursor) :
    exists more, (if best.isSome then frontier
        else program.enter cursor ⟨program.entry, []⟩ frontier).threads.toList =
      frontier.threads.toList ++ more := by
  split
  · exact ⟨[], (List.append_nil _).symm⟩
  · exact (enter_spreads fits).grows

theorem begin_dead {best : Option (Nat × List (Nat × Nat))}
    (fits : frontier.reached.size = program.code.size)
    (dead : program.AllDead cursor.spot frontier.threads.toList)
    (starts : best = none -> forall last, ¬Comes program.code last program.entry cursor.spot) :
    program.AllDead cursor.spot (if best.isSome then frontier
      else program.enter cursor ⟨program.entry, []⟩ frontier).threads.toList := by
  split
  · exact dead
  · rename_i isNone
    have idles : program.Idles cursor.spot frontier
        (program.enter cursor ⟨program.entry, []⟩ frontier) :=
      enter_idles fits (starts (Option.not_isSome_iff_eq_none.mp isNone))
    rcases idles.threads with ⟨dead', areThreads, areDead⟩
    rw [areThreads]
    exact List.forall_mem_append.mpr ⟨dead, areDead⟩

/-- Nothing more is found if all threads are dead and, unless there is a match, so are
those that will be started. -/
theorem search_of_dead (rest : List Char) {previous : Option Char} {offset : Nat}
    {frontier : Frontier} {best : Option (Nat × List (Nat × Nat))}
    (fits : frontier.reached.size = program.code.size)
    (dead : program.AllDead ⟨previous, rest⟩ frontier.threads.toList)
    (starts : best = none -> (forall last, ¬Comes program.code last program.entry ⟨previous, rest⟩) ∧
      forall c rest last, ¬Comes program.code last program.entry ⟨some c, rest⟩) :
    program.search rest previous offset frontier best = best := by
  induction rest generalizing previous offset frontier with
  | nil =>
      have begun : program.AllDead ⟨previous, []⟩ (if best.isSome then frontier
          else program.enter ⟨previous, [], offset⟩ ⟨program.entry, []⟩ frontier).threads.toList :=
        begin_dead fits dead fun none => (starts none).1
      rw [search, find?_of_allDead begun]
      rfl
  | cons c rest inductionHypothesis =>
      have begun : program.AllDead ⟨previous, c :: rest⟩ (if best.isSome then frontier
          else program.enter ⟨previous, c :: rest, offset⟩ ⟨program.entry, []⟩
            frontier).threads.toList :=
        begin_dead fits dead fun none => (starts none).1
      rw [search]
      generalize (if best.isSome then frontier
        else program.enter ⟨previous, c :: rest, offset⟩ ⟨program.entry, []⟩ frontier) = started
        at begun
      rw [find?_of_allDead begun]
      change (if _ then best else _) = best
      split
      · rfl
      · have stay : program.AllDead ⟨previous, c :: rest⟩
            (started.threads.toList.takeWhile fun thread => !program.accepts thread) :=
          fun thread member => begun thread (List.takeWhile_subset _ member)
        have idles := foldl_consume_idles (offset + 1) program.unreached_fits stay
        rcases idles.threads with ⟨dead', areThreads, areDead⟩
        apply inductionHypothesis (idles.size.trans program.unreached_fits)
        · rw [areThreads]
          exact areDead
        · intro none
          exact ⟨(starts none).2 c rest, (starts none).2⟩

/-- A thread that is added at the start of the preferred way comes to where this goes
on, with none but dead threads added before it. -/
theorem enter_ready {last : Spot} (fits : frontier.reached.size = program.code.size)
    (cursor : Cursor) (thread : Thread)
    (clears : Clears program.code cursor.spot ∅ frontier.places)
    (way : Way program.code last thread.place cursor.spot) :
    exists stop dead marks more, Ready program.code last cursor.spot stop ∧
      program.AllDead cursor.spot dead ∧
      (program.enter cursor thread frontier).threads.toList =
        frontier.threads.toList ++ (dead ++ ⟨stop, marks⟩ :: more) ∧
      (program.enter cursor thread frontier).reached.size = program.code.size := by
  rcases way.ready with ⟨stop, leads, ready⟩
  have spreads : program.Spreads cursor [thread] frontier _ := enter_spreads fits
  rcases spreads.lead leads clears with ⟨dead, marks, more, areThreads, areDead⟩
  exact ⟨stop, dead, marks, more, ready, areDead, areThreads, spreads.size.trans fits⟩

/-- If a thread on the preferred way consumes a character, and only dead ones stand
before it, then behind the character the first that is alive is on the way again. -/
theorem foldl_consume_ready {last : Spot} {dead : List Thread} {stop next : Nat} {set : CharSet}
    (marks : List (Nat × Nat)) (others : List Thread)
    (areDead : program.AllDead ⟨previous, c :: rest⟩ dead)
    (found : program.code[stop]? = some (.one set next)) (inside : set.contains c = true)
    (way : Way program.code last next ⟨some c, rest⟩) :
    let behind := (dead ++ ⟨stop, marks⟩ :: others).foldl
      (program.consume c ⟨some c, rest, offset⟩) program.unreached
    behind.reached.size = program.code.size ∧
      exists dead' stop' marks' more, behind.threads.toList = dead' ++ ⟨stop', marks'⟩ :: more ∧
        program.AllDead ⟨some c, rest⟩ dead' ∧ Ready program.code last ⟨some c, rest⟩ stop' := by
  let after : Cursor := ⟨some c, rest, offset⟩
  let drained := dead.foldl (program.consume c after) program.unreached
  have idles : program.Idles ⟨some c, rest⟩ program.unreached drained :=
    foldl_consume_idles _ program.unreached_fits areDead
  have fits : drained.reached.size = program.code.size := idles.size.trans program.unreached_fits
  have clears := (program.unreached_clears ⟨some c, rest⟩).trans idles.clears
  rcases idles.threads with ⟨early, areEarly, earlyDead⟩
  rcases enter_ready fits after ⟨next, marks⟩ clears way with
    ⟨stop', dead', marks', more, ready, areDead', areEntered, entered⟩
  rcases foldl_consume_grows entered c after others with ⟨fits', later, areThreads⟩
  have isFirst : program.consume c after drained ⟨stop, marks⟩ =
      program.enter after ⟨next, marks⟩ drained := by
    rw [consume, found]
    exact if_pos inside
  have isBehind : (dead ++ ⟨stop, marks⟩ :: others).foldl (program.consume c after)
      program.unreached =
        others.foldl (program.consume c after) (program.enter after ⟨next, marks⟩ drained) := by
    rw [List.foldl_append, List.foldl_cons, isFirst]
  dsimp only
  rw [isBehind]
  refine ⟨fits', early ++ dead', stop', marks', more ++ later, ?_,
    List.forall_mem_append.mpr ⟨earlyDead, areDead'⟩, ready⟩
  have noneThere : program.unreached.threads.toList = [] := rfl
  rw [areThreads, areEntered, areEarly, noneThere]
  simp only [List.nil_append, List.append_assoc, List.cons_append]

/-- The first thread that is alive decides, if the preferred way goes on from there,
whatever has been found so far. -/
theorem search_of_ready {last : Spot} (rest : List Char) {previous : Option Char} {offset : Nat}
    {frontier : Frontier} {best : Option (Nat × List (Nat × Nat))} {dead more : List Thread}
    {stop : Nat} {marks : List (Nat × Nat)}
    (areThreads : (if best.isSome then frontier
        else program.enter ⟨previous, rest, offset⟩ ⟨program.entry, []⟩ frontier).threads.toList =
      dead ++ ⟨stop, marks⟩ :: more)
    (areDead : program.AllDead ⟨previous, rest⟩ dead)
    (ready : Ready program.code last ⟨previous, rest⟩ stop) :
    exists stop marks, program.search rest previous offset frontier best = some (stop, marks) ∧
      stop + last.rest.length = offset + rest.length := by
  induction rest generalizing previous offset frontier best dead more stop marks with
  | nil =>
      cases ready with
      | accepts isAccept =>
          have accepts : program.accepts ⟨stop, marks⟩ = true := accepts_iff.mpr isAccept
          refine ⟨offset, marks, ?_, rfl⟩
          rw [search, areThreads, List.find?_append, find?_of_allDead areDead,
            List.find?_cons_of_pos accepts]
          rfl
  | cons c rest inductionHypothesis =>
      rw [search, areThreads, takeWhile_append_of_allDead areDead, List.find?_append,
        find?_of_allDead areDead]
      cases ready with
      | accepts isAccept =>
          have accepts : program.accepts ⟨stop, marks⟩ = true := accepts_iff.mpr isAccept
          refine ⟨offset, marks, ?_, rfl⟩
          rw [List.find?_cons_of_pos accepts, List.takeWhile_cons_of_neg (by simp [accepts]),
            List.append_nil]
          change (if _ then some (offset, marks) else _) = some (offset, marks)
          split
          · rfl
          · have idles := foldl_consume_idles (offset + 1) program.unreached_fits areDead
            rcases idles.threads with ⟨dead', areBehind, areDead'⟩
            apply search_of_dead rest (idles.size.trans program.unreached_fits)
            · rw [areBehind]
              exact areDead'
            · intro none
              cases none
      | consumes found inside way =>
          have waits : program.accepts ⟨stop, marks⟩ = false := by
            apply Bool.eq_false_of_not_eq_true
            intro accepts
            cases found.symm.trans (accepts_iff.mp accepts)
          rw [List.find?_cons_of_neg (by simp [waits]), List.takeWhile_cons_of_pos (by simp [waits])]
          generalize more.takeWhile (fun thread => !program.accepts thread) = others
          have isAlive : (dead ++ ⟨stop, marks⟩ :: others).isEmpty = false := by simp
          rw [isAlive, Bool.false_and, if_neg Bool.false_ne_true]
          rcases foldl_consume_ready marks others areDead found inside way with
            ⟨fits, dead', stop', marks', more', areBehind, areDead', ready⟩
          rcases begin_grows fits ⟨some c, rest, offset + 1⟩ with ⟨started, areStarted⟩
          rw [areBehind, List.append_assoc] at areStarted
          rcases inductionHypothesis areStarted areDead' ready with ⟨stop, marks, isFound, ends⟩
          exact ⟨stop, marks, isFound, by rw [ends, List.length_cons]; omega⟩

/-! ## The match of a program -/

/-- The match of a program ends where the preferred way from the start of the text
does. -/
theorem find?_of_way {text : List Char} {last : Spot}
    (way : Way program.code last program.entry ⟨none, text⟩) :
    exists found, program.find? text = some found ∧ text.drop found.stop = last.rest := by
  rcases enter_ready program.unreached_fits ⟨none, text, 0⟩ ⟨program.entry, []⟩
    (program.unreached_clears _) way with
    ⟨stop, dead, marks, more, ready, areDead, areThreads, _⟩
  -- At the start there is neither a match nor a thread.
  have started : (if (none : Option (Nat × List (Nat × Nat))).isSome then program.unreached
      else program.enter ⟨none, text, 0⟩ ⟨program.entry, []⟩ program.unreached).threads.toList =
        dead ++ ⟨stop, marks⟩ :: more := areThreads
  rcases search_of_ready text started areDead ready with ⟨stop, marks, isFound, ends⟩
  rcases way.comes.suffix with ⟨taken, isText⟩
  have isText : text = taken ++ last.rest := isText
  refine ⟨_, congrArg (Option.map _) isFound, ?_⟩
  have isStop : stop = taken.length := by
    rw [isText, List.length_append] at ends
    omega
  change text.drop stop = last.rest
  rw [isText, isStop, List.drop_left]

/-- If a program that starts with the text only finds a match then it can come to its
end from the start of the text. -/
theorem comes_of_find? {text : List Char} {found : PatternMatch}
    (starts : forall c rest last, ¬Comes program.code last program.entry ⟨some c, rest⟩)
    (matched : program.find? text = some found) :
    exists last, Comes program.code last program.entry ⟨none, text⟩ := by
  by_contra stuck
  have none : program.search text none 0 program.unreached none = none :=
    search_of_dead text program.unreached_fits (List.forall_mem_nil _) fun _ =>
      ⟨fun last comes => stuck ⟨last, comes⟩, starts⟩
  rw [find?, none] at matched
  cases matched

end AssembledProgram
end SeedGrammar
