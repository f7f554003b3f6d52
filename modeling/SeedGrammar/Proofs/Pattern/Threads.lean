import SeedGrammar.Pattern.Matching
import SeedGrammar.Proofs.Pattern.Layout

namespace SeedGrammar

/-!
# The whole match in the marks of a thread

The matcher starts a thread at every position until there is a match.  What a thread
has marked says where it started: the first instruction of a program marks the start
of the whole match, nothing between that and the end marks it again, and the end of
the match is marked where the program accepts.  So the text of group zero is what has
been passed over since the thread started, `AssembledProgram.find?_captures`.

A thread of an anchored program that does not start with the text never comes to a
character, for it would have to pass the start of the text before.  All others start
with the text, hence a match does.
-/

/-- Whether a cursor is at the start of the text only if it has passed over
nothing. -/
def Cursor.Tells (cursor : Cursor) : Prop :=
  cursor.offset ≠ 0 -> cursor.previous.isNone = false

/-- Whether an instruction takes a thread on to another without consuming. -/
def Instruction.TakesOn (cursor : Cursor) (thread after : Thread) : Instruction -> Prop
  | one _ _ => False
  | assert assertion next =>
      assertion.holds cursor = true ∧ after = { thread with place := next }
  | mark slot next => after = ⟨next, (slot, cursor.offset) :: thread.marks⟩
  | split preferred other =>
      after = { thread with place := preferred } ∨ after = { thread with place := other }
  | accept => False

namespace AssembledProgram

/-- Whether a thread goes on to another without consuming. -/
def Follows (program : AssembledProgram) (cursor : Cursor) (thread after : Thread) : Prop :=
  exists instruction, program.code[thread.place]? = some instruction ∧
    instruction.TakesOn cursor thread after

variable {program : AssembledProgram} {cursor : Cursor}

/-- What holds of threads and is kept as they go on holds of all that they lead to at
a position. -/
theorem spread_keeps {good : Thread -> Prop}
    (keeps : forall thread after, good thread -> program.Follows cursor thread after -> good after)
    (steps : Nat) {waiting : List Thread} {frontier : Frontier}
    (areWaiting : forall thread, thread ∈ waiting -> good thread)
    (areThere : forall thread, thread ∈ frontier.threads.toList -> good thread) :
    forall thread, thread ∈ (program.spread cursor steps waiting frontier).threads.toList ->
      good thread := by
  induction steps generalizing waiting frontier with
  | zero => exact areThere
  | succ steps inductionHypothesis =>
      cases waiting with
      | nil => exact areThere
      | cons first waiting =>
          have isGood := areWaiting first List.mem_cons_self
          have others : forall thread, thread ∈ waiting -> good thread :=
            fun thread member => areWaiting thread (List.mem_cons_of_mem first member)
          have onward : forall after, program.Follows cursor first after ->
              forall thread, thread ∈ after :: waiting -> good thread := by
            intro after follows thread member
            rcases List.mem_cons.mp member with own | later
            · rw [own]
              exact keeps first after isGood follows
            · exact others thread later
          have stops : forall thread, thread ∈ (frontier.threads.push first).toList -> good thread := by
            intro thread member
            rw [Array.toList_push] at member
            rcases List.mem_append.mp member with older | own
            · exact areThere thread older
            · rw [List.mem_singleton.mp own]
              exact isGood
          rw [spread]
          split
          · exact inductionHypothesis others areThere
          · dsimp only
            split
            case _ => exact inductionHypothesis others areThere
            case _ => exact inductionHypothesis others stops
            case _ => exact inductionHypothesis others stops
            case _ assertion next found =>
              by_cases holds : assertion.holds cursor = true
              · rw [if_pos holds]
                exact inductionHypothesis (onward _ ⟨_, found, holds, rfl⟩) areThere
              · rw [if_neg holds]
                exact inductionHypothesis others areThere
            case _ slot next found =>
              exact inductionHypothesis (onward _ ⟨_, found, rfl⟩) areThere
            case _ preferred other found =>
              refine inductionHypothesis ?_ areThere
              intro thread member
              rcases List.mem_cons.mp member with own | later
              · rw [own]
                exact keeps first _ isGood ⟨_, found, Or.inl rfl⟩
              · exact onward _ ⟨_, found, Or.inr rfl⟩ thread later

/-! ## Where a thread stands -/

/-- Whether marks are those of a whole match that ends at some position. -/
def Spans (program : AssembledProgram) (marks : List (Nat × Nat)) (stop : Nat) : Prop :=
  exists start, marks.lookup 0 = some start ∧ start ≤ stop ∧ marks.lookup 1 = some stop ∧
    (program.anchored = true -> start = 0)

/-- What the marks of a thread say at a position: it has not marked anything yet, has
marked the start of the whole match, or has come to the end and marked this too.  A
thread of an anchored program that does not start with the text stands where it is
guarded. -/
inductive Stands (program : AssembledProgram) (offset : Nat) : Thread -> Prop where
  | fresh : Stands program offset ⟨program.entry, []⟩
  | inside {place marks start} : program.Between place -> marks.lookup 0 = some start ->
      start ≤ offset ->
      (program.anchored = true -> start ≠ 0 -> Guarded program.code place) ->
      Stands program offset ⟨place, marks⟩
  | ended {marks} : program.Spans marks offset -> Stands program offset ⟨0, marks⟩

/-- A thread that has marked the start of the whole match goes on to the end of the
program or to a place before it. -/
theorem Follows.stands_inside (framed : program.Framed) (tells : cursor.Tells) {place : Nat}
    {marks : List (Nat × Nat)} {start : Nat} {after : Thread} (between : program.Between place)
    (isStart : marks.lookup 0 = some start) (early : start ≤ cursor.offset)
    (guards : program.anchored = true -> start ≠ 0 -> Guarded program.code place)
    (follows : program.Follows cursor ⟨place, marks⟩ after) :
    program.Stands cursor.offset after := by
  rcases follows with ⟨instruction, found, takesOn⟩
  by_cases closes : place = 1
  · subst closes
    cases found.symm.trans framed.closes
    have isEnd : after = ⟨0, (1, cursor.offset) :: marks⟩ := takesOn
    subst isEnd
    refine .ended ⟨start, isStart, early, rfl, ?_⟩
    intro anchored
    apply Decidable.byContradiction
    intro late
    exact ((guards anchored late).guards framed.closes).guards framed.ends
  · have isInside : 2 ≤ place := by
      have first := between.1
      omega
    have confined := framed.inside place instruction isInside between.2 found
    have guarded : program.anchored = true -> start ≠ 0 ->
        instruction.Guards (Guarded program.code) :=
      fun anchored late => (guards anchored late).guards found
    cases instruction with
    | one set next => exact takesOn.elim
    | assert assertion next =>
        rcases takesOn with ⟨holds, rfl⟩
        refine .inside confined isStart early ?_
        intro anchored late
        have isTextStart : assertion = .textStart := guarded anchored late
        have isFirst : cursor.previous.isNone = true := by
          rw [isTextStart] at holds
          exact holds
        have notFirst := tells fun none => late (Nat.le_zero.mp (none ▸ early))
        rw [notFirst] at isFirst
        cases isFirst
    | mark slot next =>
        have isMarked : after = ⟨next, (slot, cursor.offset) :: marks⟩ := takesOn
        subst isMarked
        refine .inside confined.2 ?_ early guarded
        have other : (0 == slot) = false := beq_false_of_ne (by
          have numbered := confined.1
          omega)
        rw [List.lookup_cons, other]
        exact isStart
    | split preferred other =>
        rcases takesOn with rfl | rfl
        · exact .inside confined.1 isStart early fun anchored late => (guarded anchored late).1
        · exact .inside confined.2 isStart early fun anchored late => (guarded anchored late).2
    | accept => exact takesOn.elim

theorem Follows.stands (framed : program.Framed) (tells : cursor.Tells) {thread after : Thread}
    (stands : program.Stands cursor.offset thread) (follows : program.Follows cursor thread after) :
    program.Stands cursor.offset after := by
  cases stands with
  | fresh =>
      rcases framed.opens with ⟨inner, isEntry, between, guards⟩
      rcases follows with ⟨instruction, found, takesOn⟩
      cases found.symm.trans isEntry
      have isMarked : after = ⟨inner, [(0, cursor.offset)]⟩ := takesOn
      subst isMarked
      exact .inside between rfl (Nat.le_refl _) fun anchored _ => guards anchored
  | inside between isStart early guards =>
      exact follows.stands_inside framed tells between isStart early guards
  | ended _ =>
      rcases follows with ⟨instruction, found, takesOn⟩
      cases found.symm.trans framed.ends
      exact takesOn.elim

/-! ## Passing over a text -/

/-- Whether all threads at a position stand there. -/
def AllStand (program : AssembledProgram) (offset : Nat) (frontier : Frontier) : Prop :=
  forall thread, thread ∈ frontier.threads.toList -> program.Stands offset thread

theorem unreached_allStand (program : AssembledProgram) (offset : Nat) :
    program.AllStand offset program.unreached := by
  intro thread member
  cases member

theorem AllStand.enter (framed : program.Framed) (tells : cursor.Tells) {frontier : Frontier}
    (allStand : program.AllStand cursor.offset frontier) {thread : Thread}
    (stands : program.Stands cursor.offset thread) :
    program.AllStand cursor.offset (program.enter cursor thread frontier) := by
  apply spread_keeps (fun _ _ before follows => follows.stands framed tells before)
  · intro other member
    rwa [List.mem_singleton.mp member]
  · exact allStand

/-- Unless there is a match, a thread is started. -/
theorem AllStand.begin (framed : program.Framed) (tells : cursor.Tells) {frontier : Frontier}
    (allStand : program.AllStand cursor.offset frontier) (isFound : Bool) :
    program.AllStand cursor.offset
      (if isFound then frontier else program.enter cursor ⟨program.entry, []⟩ frontier) := by
  split
  · exact allStand
  · exact allStand.enter framed tells .fresh

/-- A thread that consumes stands between entry and end, and goes on there. -/
theorem Stands.consume (framed : program.Framed) {offset next : Nat} {thread : Thread}
    {set : CharSet} (stands : program.Stands offset thread)
    (found : program.code[thread.place]? = some (.one set next)) :
    program.Stands (offset + 1) { thread with place := next } := by
  cases stands with
  | fresh =>
      rcases framed.opens with ⟨inner, isEntry, _⟩
      cases found.symm.trans isEntry
  | @inside place marks start between isStart early guards =>
      have isInside : 2 ≤ place := by
        have first := between.1
        apply Nat.lt_of_le_of_ne first
        rintro rfl
        cases found.symm.trans framed.closes
      refine .inside (framed.inside place _ isInside between.2 found) isStart
        (Nat.le_succ_of_le early) ?_
      intro anchored late
      exact ((guards anchored late).guards found).elim
  | ended _ => cases found.symm.trans framed.ends

/-- A thread that accepts has marked both ends of the whole match. -/
theorem Stands.accepts (framed : program.Framed) {offset : Nat} {thread : Thread}
    (stands : program.Stands offset thread) (accepts : program.accepts thread = true) :
    program.Spans thread.marks offset := by
  have found : program.code[thread.place]? = some .accept := by
    rw [AssembledProgram.accepts] at accepts
    split at accepts
    · assumption
    · cases accepts
  cases stands with
  | fresh =>
      rcases framed.opens with ⟨inner, isEntry, _⟩
      cases found.symm.trans isEntry
  | @inside place marks start between isStart early guards =>
      by_cases closes : place = 1
      · subst closes
        cases found.symm.trans framed.closes
      · have isInside : 2 ≤ place := by
          have first := between.1
          omega
        exact (framed.inside place _ isInside between.2 found).elim
  | ended spans => exact spans

theorem AllStand.consume (framed : program.Framed) {c : Char} {rest : List Char} {offset : Nat}
    {threads : List Thread} (stand : forall thread, thread ∈ threads -> program.Stands offset thread)
    {frontier : Frontier} (allStand : program.AllStand (offset + 1) frontier) :
    program.AllStand (offset + 1)
      (threads.foldl (program.consume c ⟨some c, rest, offset + 1⟩) frontier) := by
  induction threads generalizing frontier with
  | nil => exact allStand
  | cons first others inductionHypothesis =>
      apply inductionHypothesis fun thread member => stand thread (List.mem_cons_of_mem first member)
      have stands := stand first List.mem_cons_self
      have tells : Cursor.Tells ⟨some c, rest, offset + 1⟩ := fun _ => rfl
      rw [AssembledProgram.consume]
      split
      · rename_i set next found
        by_cases inside : set.contains c = true
        · rw [if_pos inside]
          exact allStand.enter framed tells (stands.consume framed found)
        · rw [if_neg inside]
          exact allStand
      · exact allStand

/-- Whether a match that has been found ends where its marks say. -/
def EndsAt (program : AssembledProgram) (best : Option (Nat × List (Nat × Nat))) : Prop :=
  forall stop marks, best = some (stop, marks) -> program.Spans marks stop

/-- The first thread that accepts gives a match. -/
theorem EndsAt.accepted (framed : program.Framed) {offset : Nat} {frontier : Frontier}
    {best : Option (Nat × List (Nat × Nat))} (allStand : program.AllStand offset frontier)
    (ends : program.EndsAt best) :
    program.EndsAt (((frontier.threads.toList.find? program.accepts).map
      fun thread => (offset, thread.marks)).or best) := by
  intro stop marks found
  cases accepted : frontier.threads.toList.find? program.accepts with
  | none =>
      rw [accepted] at found
      exact ends stop marks found
  | some thread =>
      rw [accepted] at found
      cases found
      have stands := allStand thread (List.mem_of_find?_eq_some accepted)
      exact stands.accepts framed (List.find?_some accepted)

/-- A search comes to a match that ends where its marks say, if the threads that it
starts with stand and the match that it starts with does so. -/
theorem search_endsAt (framed : program.Framed) (rest : List Char) {previous : Option Char}
    {offset : Nat} {frontier : Frontier} {best : Option (Nat × List (Nat × Nat))}
    (tells : Cursor.Tells ⟨previous, rest, offset⟩) (allStand : program.AllStand offset frontier)
    (ends : program.EndsAt best) :
    program.EndsAt (program.search rest previous offset frontier best) := by
  induction rest generalizing previous offset frontier best with
  | nil =>
      rw [search]
      exact ends.accepted framed (allStand.begin framed tells best.isSome)
  | cons c rest inductionHypothesis =>
      have begun := allStand.begin framed tells best.isSome
      rw [search]
      generalize (if best.isSome then frontier
        else program.enter ⟨previous, c :: rest, offset⟩ ⟨program.entry, []⟩ frontier) = started
        at begun ⊢
      have accepted := ends.accepted framed begun
      split
      · exact accepted
      · refine inductionHypothesis (fun _ => rfl) ?_ accepted
        apply AllStand.consume framed _ (program.unreached_allStand (offset + 1))
        intro thread member
        exact begun thread (List.takeWhile_subset _ member)

/-! ## Matches -/

/-- A match is of what has been passed over since some position, and group zero is
this text.  If the program is anchored that position is the start. -/
theorem find?_captures (framed : program.Framed) {text : List Char} {found : PatternMatch}
    (matched : program.find? text = some found) :
    exists skipped cut after, text = skipped ++ (cut ++ after) ∧
      text.take found.stop = skipped ++ cut ∧
      found.captures.group? 0 = some (String.ofList cut) ∧
      (program.anchored = true -> skipped = []) := by
  rcases Option.map_eq_some_iff.mp matched with ⟨⟨stop, marks⟩, isMatch, rfl⟩
  have none : program.EndsAt none := by
    intro stop marks found
    cases found
  rcases search_endsAt framed text (fun late => absurd rfl late) (program.unreached_allStand 0) none
      stop marks isMatch with
    ⟨start, isStart, early, isEnd, starts⟩
  have isStop : start + (stop - start) = stop := by omega
  have isAfter : (text.drop start).drop (stop - start) = text.drop stop := by
    rw [List.drop_drop, isStop]
  have isCut : text.take stop = text.take start ++ (text.drop start).take (stop - start) := by
    rw [<- List.take_add, isStop]
  refine ⟨text.take start, (text.drop start).take (stop - start), text.drop stop, ?_, isCut, ?_, ?_⟩
  · rw [<- isAfter, List.take_append_drop, List.take_append_drop]
  · have isGroup : groupText text marks 0 =
        some (String.ofList ((text.drop start).take (stop - start))) := by
      rw [groupText, Nat.mul_zero, isStart, Nat.zero_add, isEnd]
      rfl
    rw [Captures.group?, List.getElem?_map, List.getElem?_range framed.groups]
    exact isGroup
  · intro anchored
    rw [starts anchored, List.take_zero]

end AssembledProgram
end SeedGrammar
