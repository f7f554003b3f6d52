import SeedGrammar.Proofs.Engine.LoopFree
import SeedGrammar.Proofs.Engine.Termination

namespace SeedGrammar

/-!
# Leftovers of a parse

The latest range and the seeds are kept by the whole parse and undone by
nothing.  When a node is called, both may hold whatever abandoned branches
have left, and calls that came later in another order would leave something
else.  A node from which no left recursion can be reached does not read them:
functions get the range of the match that they are applied to, which is set
immediately before, and only left recursion looks for seeds.

What can be seen of such a run is therefore a function of node, position and
state, whether it ends included.  Without a limit on nesting the depth of the
call is no part of it either.
-/

variable {L : Signature}

/-- What can be seen of a run that is over, apart from the range and the seeds
that it leaves. -/
inductive Conclusion (L : Signature) where
  | finished (outcome : Outcome L) (last : Snapshot L)
  | halted (error : ParseError L.Payload) (last : Snapshot L)
  | faulted (fault : Fault)

namespace Reply

/-- What is seen of a run, if its steps were enough. -/
def conclusion? : Reply L (Outcome L) -> Option (Conclusion L)
  | finished outcome after => some (.finished outcome after.snapshot)
  | halted error place => some (.halted error place.snapshot)
  | faulted fault => some (.faulted fault)
  | exhausted => none

theorem conclusion?_isSome {reply : Reply L (Outcome L)} :
    reply.conclusion?.isSome = true ↔ reply ≠ .exhausted := by
  cases reply with
  | exhausted => simp [conclusion?]
  | _ => simp [conclusion?]

theorem ne_exhausted_of_conclusion {reply : Reply L (Outcome L)} {conclusion : Conclusion L}
    (concludes : reply.conclusion? = some conclusion) : reply ≠ .exhausted :=
  conclusion?_isSome.mp (Option.isSome_of_eq_some concludes)

/-- A run that is followed, up to ranges and seeds, ends as the other does. -/
theorem Follows.conclusion?_eq {seeds seeds' : SeedTable L} {reply other : Reply L (Outcome L)}
    (follows : reply.Follows (Agreement.seedless seeds seeds') other)
    (ends : reply ≠ .exhausted) : other.conclusion? = reply.conclusion? := by
  cases follows with
  | finished alike same =>
      rw [conclusion?, conclusion?, alike.eq, Agreement.snapshot_eq same]
  | halted alike same =>
      rw [conclusion?, conclusion?, alike.eq, Agreement.snapshot_eq same]
  | faulted alike => rw [conclusion?, conclusion?, alike.eq]
  | exhausted => exact absurd rfl ends

end Reply

namespace Machine

variable {machine : Machine L} {id : NodeId}

theorem answers_iff_concludes {depth : Nat} {context : Context L} :
    machine.Answers depth id context ↔
      exists steps conclusion,
        (machine.run steps depth id context).conclusion? = some conclusion := by
  simp only [Answers, <- Reply.conclusion?_isSome, Option.isSome_iff_exists]

theorem conclusion?_more {steps more depth : Nat} {context : Context L}
    {conclusion : Conclusion L} (enough : steps ≤ more)
    (concludes : (machine.run steps depth id context).conclusion? = some conclusion) :
    (machine.run more depth id context).conclusion? = some conclusion := by
  rw [run_more enough (Reply.ne_exhausted_of_conclusion concludes), concludes]

/-- What is seen with some steps in one context is seen with as many in every
other at the same position in the same state. -/
theorem conclusion?_of_loopFree (loopFree : machine.grammar.LoopFree id) {depth depth' : Nat}
    (depths : machine.maxDepth = 0 ∨ depth = depth') {first second : Context L}
    (position : first.position = second.position) (state : first.state = second.state)
    {steps : Nat} {conclusion : Conclusion L}
    (concludes : (machine.run steps depth id first).conclusion? = some conclusion) :
    (machine.run steps depth' id second).conclusion? = some conclusion := by
  have covers := Agreement.seedless_covers machine.grammar first.seeds second.seeds
  have follows := machine.run_follows covers (Nat.le_refl steps) depths loopFree
    (show (Agreement.seedless first.seeds second.seeds).contexts first second from
      ⟨position, state, rfl, rfl⟩)
  rw [follows.conclusion?_eq (Reply.ne_exhausted_of_conclusion concludes), concludes]

/-- Without left recursion the engine is a pure function of node, position and
state.  In two contexts that may differ in latest range and seeds, and in the
depth of the call if there is no limit on nesting, a node comes to an end in
both or in neither, and the ends are the same. -/
theorem ends_alike_of_loopFree (loopFree : machine.grammar.LoopFree id) {depth depth' : Nat}
    (depths : machine.maxDepth = 0 ∨ depth = depth') {first second : Context L}
    (position : first.position = second.position) (state : first.state = second.state) :
    (machine.Answers depth id first ↔ machine.Answers depth' id second) ∧
      forall steps steps' conclusion conclusion',
        (machine.run steps depth id first).conclusion? = some conclusion ->
        (machine.run steps' depth' id second).conclusion? = some conclusion' ->
        conclusion = conclusion' := by
  have depths' : machine.maxDepth = 0 ∨ depth' = depth := depths.imp_right Eq.symm
  constructor
  · rw [answers_iff_concludes, answers_iff_concludes]
    constructor
    · rintro ⟨steps, conclusion, concludes⟩
      exact ⟨steps, conclusion,
        conclusion?_of_loopFree loopFree depths position state concludes⟩
    · rintro ⟨steps, conclusion, concludes⟩
      exact ⟨steps, conclusion,
        conclusion?_of_loopFree loopFree depths' position.symm state.symm concludes⟩
  · intro steps steps' conclusion conclusion' concludes concludes'
    have there := conclusion?_of_loopFree loopFree depths position state concludes
    have most := conclusion?_more (Nat.le_max_left steps steps') there
    have most' := conclusion?_more (Nat.le_max_right steps steps') concludes'
    exact Option.some.inj (most.symm.trans most')

/-- The operand of a left recursion: an `a` that counts and has a `c` behind it,
attempted, or else just an `a`.  A function replaces every `a` by what it
spans. -/
def respanning : Machine countedText :=
  ⟨⟨[.leftRecursion 1, .choice [2, 5], .attempt 3, .sequence [4, 7] (.pick 0),
      .update 5 fun (count : Nat) _ => count + 1,
      .map 6 fun _ token => .ok (.ok ⟨.text, token.span⟩),
      .leaf (.exact "a"), .leaf (.exact "c")], []⟩, "xab", 0⟩

/-- Nothing is left by other calls. -/
def respanningPlain : Context countedText :=
  ⟨1, (3 : Nat), (0, 0), SeedTable.empty⟩

/-- A range beyond the input, and a seed of the left recursion around. -/
def respanningLittered : Context countedText :=
  ⟨1, (3 : Nat), (7, 9), SeedTable.empty.set 0 1 ⟨3, (8 : Nat), .error (ParseError.bare 2)⟩⟩

theorem respanning_plain_concludes :
    (respanning.run 6 1 1 respanningPlain).conclusion? =
      some (.finished (.ok ⟨.text, ("a" : String)⟩) ⟨2, (3 : Nat)⟩) :=
  rfl

theorem respanning_ends_alike : respanning.grammar.LoopFree 1 ∧
    exists steps, (respanning.run steps 40 1 respanningLittered).conclusion? =
      some (.finished (.ok ⟨.text, ("a" : String)⟩) ⟨2, (3 : Nat)⟩) := by
  have loopFree : respanning.grammar.LoopFree 1 := by decide
  have alike := @ends_alike_of_loopFree countedText respanning 1 loopFree 1 40 (Or.inl rfl)
    respanningPlain respanningLittered rfl rfl
  have answers := alike.1.mp (answers_iff_concludes.mpr ⟨6, _, respanning_plain_concludes⟩)
  rcases answers_iff_concludes.mp answers with ⟨steps, conclusion, concludes⟩
  rw [alike.2 6 steps _ conclusion respanning_plain_concludes concludes]
  exact ⟨loopFree, steps, concludes⟩

end Machine
end SeedGrammar
