import SeedGrammar.Proofs.Engine.Steps
import SeedGrammar.Proofs.Engine.Trace
import SeedGrammar.Proofs.PlainText

namespace SeedGrammar

/-!
# The limit on nesting

A limit on nesting is compared with the deepest nesting of the parse without
one.  If the limit is not below it, the limit is never noticed.  Otherwise the
parse ends with the failure of the node that trips it: whatever surrounds that
node neither catches nor changes the failure, and the position and the state
stay as they were at that moment.

That nothing reacts to the limit is shown of the engine as it runs, where the
error is kept in the context: `Machine.parseNode_mirrors`.  A run of which the
limit is an ending can be taken instead.  The rest follows from one comparison
of a limited machine with the unlimited one, by induction on the steps.  A node
of the limited machine gets the same reply from each operand as long as none of
them trips the limit, and by `Dialogue.run_congr` it then does the same.  If one
of them does, the node ends there by `Dialogue.run_halted_of_call`.
-/

variable {L : Signature}

/-- The failure of a node that trips the limit, and the context in which the
parse stops: the failure is at the position of the context. -/
structure LimitTripped (error : ParseError L.Payload) (place : Context L) : Prop where
  position : error.position = place.position
  message : error.message = some "recursion limit exceeded"

namespace Machine

/-- The machine with a limit on nesting. -/
def limited (machine : Machine L) (limit : Nat) : Machine L :=
  { machine with maxDepth := limit }

theorem dialogue_limited {machine : Machine L} (unlimited : machine.maxDepth = 0) {limit : Nat}
    (rounds : Nat) {depth : Nat} (shallow : depth ≤ limit) (id : NodeId) (context : Context L) :
    (machine.limited limit).dialogue rounds depth id context =
      machine.dialogue rounds depth id context := by
  have free : ¬(0 < machine.maxDepth ∧ machine.maxDepth < depth) := by omega
  have within : ¬(0 < (machine.limited limit).maxDepth ∧
      (machine.limited limit).maxDepth < depth) := fun trips => Nat.not_lt_of_le shallow trips.2
  rw [dialogue, dialogue, if_neg free, if_neg within]
  rfl

theorem run_limited_of_deep (machine : Machine L) {limit : Nat} (positive : 0 < limit)
    (steps : Nat) {depth : Nat} (deep : limit < depth) (id : NodeId) (context : Context L) :
    exists error, (machine.limited limit).run (steps + 1) depth id context =
      .halted error context ∧ LimitTripped error context := by
  have trips : 0 < (machine.limited limit).maxDepth ∧
      (machine.limited limit).maxDepth < depth := ⟨positive, deep⟩
  rw [run, if_pos trips]
  exact ⟨_, rfl, rfl, rfl⟩

/-- A run whose events are all within the limit is not changed by it; one with
an event beyond the limit stops. -/
theorem run_limited {machine : Machine L} (unlimited : machine.maxDepth = 0) {limit : Nat}
    (positive : 0 < limit) {steps depth : Nat} {id : NodeId} {context : Context L}
    (ends : machine.run steps depth id context ≠ .exhausted) :
    (deepest (machine.trace steps depth id context) ≤ limit ∧
      (machine.limited limit).run steps depth id context =
        machine.run steps depth id context) ∨
    (limit < deepest (machine.trace steps depth id context) ∧
      exists error place, (machine.limited limit).run steps depth id context =
        .halted error place ∧ LimitTripped error place) := by
  induction steps generalizing depth id context with
  | zero => exact absurd rfl ends
  | succ steps inductionHypothesis =>
      by_cases deep : limit < depth
      · rcases machine.run_limited_of_deep positive steps deep id context with
          ⟨error, halted, tripped⟩
        have own : Event.entered depth id context ∈ machine.trace (steps + 1) depth id context :=
          mem_trace_succ.mpr (Or.inl rfl)
        have beyond : limit < deepest (machine.trace (steps + 1) depth id context) := by
          have bounds := deepest_le_iff.mp (Nat.le_refl _) _ own
          exact Nat.lt_of_lt_of_le deep bounds
        exact Or.inr ⟨beyond, error, context, halted, tripped⟩
      · have shallow : depth ≤ limit := Nat.le_of_not_lt deep
        rw [run_succ] at ends
        have replies : forall made, made ∈ machine.callsOf steps depth id context ->
            machine.run steps (depth + 1) made.1 made.2 ≠ .exhausted := by
          intro made member
          exact Dialogue.call_ne_exhausted _ ends member
        rw [run_succ, run_succ, dialogue_limited unlimited steps shallow]
        by_cases within : forall made, made ∈ machine.callsOf steps depth id context ->
            deepest (machine.trace steps (depth + 1) made.1 made.2) ≤ limit
        · refine Or.inl ⟨?_, ?_⟩
          · apply deepest_le_iff.mpr
            intro event member
            rcases mem_trace_succ.mp member with
              own | ⟨made, isCall, inner⟩ | ⟨outcome, after, _, last⟩
            · subst own
              exact shallow
            · exact deepest_le_iff.mp (within made isCall) event inner
            · subst last
              exact shallow
          · apply Dialogue.run_congr
            intro made isCall
            rcases inductionHypothesis (replies made isCall) with ⟨_, same⟩ | ⟨beyond, _⟩
            · exact same
            · exact absurd beyond (Nat.not_lt_of_le (within made isCall))
        · have outside : exists made, made ∈ machine.callsOf steps depth id context ∧
              limit < deepest (machine.trace steps (depth + 1) made.1 made.2) := by
            by_contra none
            apply within
            intro made isCall
            exact Nat.le_of_not_lt fun beyond => none ⟨made, isCall, beyond⟩
          rcases outside with ⟨made, isCall, beyond⟩
          refine Or.inr ⟨?_, ?_⟩
          · by_contra shallowTrace
            apply Nat.not_le_of_lt beyond
            apply deepest_le_iff.mpr
            intro event member
            exact deepest_le_iff.mp (Nat.le_of_not_lt shallowTrace) event
              (mem_trace_succ.mpr (Or.inr (Or.inl ⟨made, isCall, member⟩)))
          · have follows : forall call, call ∈ machine.callsOf steps depth id context ->
                (machine.limited limit).run steps (depth + 1) call.1 call.2 =
                    machine.run steps (depth + 1) call.1 call.2 ∨
                  exists error place, (machine.limited limit).run steps (depth + 1) call.1 call.2 =
                    .halted error place ∧ LimitTripped error place := by
              intro call isCall
              rcases inductionHypothesis (replies call isCall) with ⟨_, same⟩ | ⟨_, halts⟩
              · exact Or.inl same
              · exact Or.inr halts
            rcases inductionHypothesis (replies made isCall) with ⟨notBeyond, _⟩ | ⟨_, halts⟩
            · exact absurd beyond (Nat.not_lt_of_le notBeyond)
            · exact Dialogue.run_halted_of_call LimitTripped _ follows ⟨made, isCall, halts⟩

end Machine

namespace EntryPoint

variable {type : ValueType L.Kind}

/-- How deep the deepest node of a parse is nested.  An input that is refused
for its size is not parsed at all. -/
def nesting (entry : EntryPoint L type) (steps : Nat) (input : L.Input) (state : L.State) : Nat :=
  if 0 < entry.config.maxInputSize ∧ entry.config.maxInputSize < Stream.length input then 0
  else
    Machine.deepest
      ((entry.machine input).trace steps 1 entry.root (Context.start state))

/-- Replace the limit on nesting. -/
def withNestingLimit (entry : EntryPoint L type) (limit : Nat) : EntryPoint L type :=
  entry.withConfig { entry.config with maxRecursionDepth := limit }

/-- What a parse comes to with a positive limit on nesting, compared with the
parse without one. -/
theorem parseWithin_withNestingLimit {entry : EntryPoint L type}
    (unlimited : entry.config.maxRecursionDepth = 0) {limit : Nat} (positive : 0 < limit)
    {steps : Nat} {input : L.Input} {state : L.State}
    (ends : entry.parseWithin steps input state ≠ .exhausted) :
    (entry.nesting steps input state ≤ limit ∧
      (entry.withNestingLimit limit).parseWithin steps input state =
        entry.parseWithin steps input state) ∨
    (limit < entry.nesting steps input state ∧
      exists error final, (entry.withNestingLimit limit).parseWithin steps input state =
          .completed ⟨.error error, error.position, final⟩ ∧
        error.message = some "recursion limit exceeded") := by
  by_cases refuses : entry.Refuses input
  · have refuses' : (entry.withNestingLimit limit).Refuses input := refuses
    refine Or.inl ⟨?_, ?_⟩
    · exact Nat.le_trans (Nat.le_of_eq (if_pos refuses)) (Nat.zero_le limit)
    · exact (parseWithin_of_refuses refuses' steps state).trans
        (parseWithin_of_refuses refuses steps state).symm
  · have accepts : ¬(entry.withNestingLimit limit).Refuses input := refuses
    have nested : entry.nesting steps input state = Machine.deepest
        ((entry.machine input).trace steps 1 entry.root (Context.start state)) := if_neg refuses
    rw [nested, parseWithin_of_accepts refuses, parseWithin_of_accepts accepts]
    rcases Machine.run_limited unlimited positive (root_ne_exhausted refuses ends) with
      ⟨within, same⟩ | ⟨beyond, error, place, halted, tripped⟩
    · exact Or.inl ⟨within, congrArg (conclude entry.root) same⟩
    · refine Or.inr ⟨beyond, error, place.state, ?_, tripped.message⟩
      rw [tripped.position]
      exact congrArg (conclude entry.root) halted

/-- The limit on nesting is exact.  If the parse without it ends, then with no
limit or one that the parse stays within nothing changes.  With a smaller one
the parse fails for that reason, at the position that it has reached. -/
theorem nesting_limit_exact (entry : EntryPoint L type)
    (unlimited : entry.config.maxRecursionDepth = 0) (limit : Nat) {steps more : Nat}
    (input : L.Input) (state : L.State)
    (ends : entry.parseWithin steps input state ≠ .exhausted) (enough : steps ≤ more) :
    (limit = 0 ∨ entry.nesting steps input state ≤ limit ->
      (entry.withNestingLimit limit).parseWithin more input state =
        entry.parseWithin steps input state) ∧
    (0 < limit ∧ limit < entry.nesting steps input state ->
      exists error final, (entry.withNestingLimit limit).parseWithin more input state =
          .completed ⟨.error error, error.position, final⟩ ∧
        error.message = some "recursion limit exceeded") := by
  by_cases positive : 0 < limit
  · rcases parseWithin_withNestingLimit unlimited positive ends with
      ⟨within, same⟩ | ⟨beyond, error, final, failed, message⟩
    · have limitedEnds : (entry.withNestingLimit limit).parseWithin steps input state ≠
          .exhausted := by rwa [same]
      refine ⟨fun _ => (parseWithin_more enough limitedEnds).trans same, fun outside => ?_⟩
      exact absurd within (Nat.not_le_of_lt outside.2)
    · have limitedEnds := completed_ne_exhausted failed
      refine ⟨fun inside => ?_, fun _ => ?_⟩
      · rcases inside with none | within
        · exact absurd none (Nat.ne_of_gt positive)
        · exact absurd within (Nat.not_le_of_lt beyond)
      · exact ⟨error, final, (parseWithin_more enough limitedEnds).trans failed, message⟩
  · have isZero : limit = 0 := Nat.eq_zero_of_not_pos positive
    subst isZero
    have same : entry.withNestingLimit 0 = entry := by
      rcases entry with ⟨grammar, root, size, depth⟩
      cases unlimited
      rfl
    rw [same]
    exact ⟨fun _ => parseWithin_more enough ends, fun outside => absurd outside.1 positive⟩

/-- A literal below everything that reacts to failures: a function that turns every failure
into a value, an attempt, an option, a choice, a condition on what follows, a left recursion
and a repetition. -/
def recovering : EntryPoint plainText .unit :=
  ⟨⟨[.map 1 fun _ _ => .ok (.ok ⟨.unit, ()⟩), .attempt 2, .optional 3 (.list .text),
    .choice [4, 6], .lookahead 5 8 false, .leftRecursion 6, .repeated 7 .text 0 none,
    .leaf (.exact "a"), .leaf .empty], []⟩, 0, ParserConfig.unlimited⟩

/-- None of them catches the failure of the limit. -/
theorem recovering_nesting_limit :
    recovering.parseWithin 10 "a" () = .completed ⟨.ok (), 1, ()⟩ ∧
      recovering.nesting 10 "a" () = 8 ∧
      exists error final, (recovering.withNestingLimit 7).parseWithin 11 "a" () =
          .completed ⟨.error error, error.position, final⟩ ∧
        error.message = some "recursion limit exceeded" := by
  have parsed : recovering.parseWithin 10 "a" () = .completed ⟨.ok (), 1, ()⟩ := rfl
  have deep : recovering.nesting 10 "a" () = 8 := rfl
  refine ⟨parsed, deep, ?_⟩
  apply (nesting_limit_exact recovering rfl 7 "a" () (completed_ne_exhausted parsed)
    (Nat.le_succ 10)).2
  rw [deep]
  exact ⟨by decide, by decide⟩

end EntryPoint
end SeedGrammar
