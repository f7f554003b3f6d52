import SeedGrammar.Proofs.Engine.LoopFree

namespace SeedGrammar

/-!
# Parsing what lies behind

The engine compares positions with each other and with the input, and does
nothing else with them.  So if an input holds another one from some position
on, and the leaves and functions of a grammar do there what they do in the
other one, then a whole run there is the run in the other one, moved: ends,
failures, ranges and seeds lie farther by the same amount, and everything else
is the same.

A `Shift` moves what contains positions.  The engine's own data do so openly.
Whether the values of a type of the signature or its payloads contain
positions is for the signature to say, hence a shift says how it moves them.
-/

/-- A way to move positions farther by an amount, along with the values and
payloads of a signature that contain some. -/
structure Shift (L : Signature) where
  amount : Nat
  own : (kind : L.Kind) -> L.Carrier kind -> L.Carrier kind
  payload : L.Payload -> L.Payload

namespace Shift

variable {L : Signature} (shift : Shift L)

/-- Move the content of a value.  The built-in types contain no positions. -/
def content : (type : ValueType L.Kind) -> type.Carrier L -> type.Carrier L
  | .unit, nothing => nothing
  | .char, c => c
  | .text, text => text
  | .captures, captures => captures
  | .own kind, content => shift.own kind content
  | .pair first second, (left, right) => (content first left, content second right)
  | .list element, contents => List.map (content element) contents
  | .option element, contents => Option.map (content element) contents

/-- Move a value. -/
def value (value : Value L) : Value L :=
  ⟨value.type, shift.content value.type value.content⟩

/-- Move a failure. -/
def error (error : ParseError L.Payload) : ParseError L.Payload :=
  ⟨shift.amount + error.position, error.node, error.message, error.payload.map shift.payload⟩

section Answers

variable {β γ : Type}

/-- Move an answer, given how to move what it is if it is no failure. -/
def answer (move : β -> β) : Except (ParseError L.Payload) β -> Except (ParseError L.Payload) β
  | .ok value => .ok (move value)
  | .error error => .error (shift.error error)

/-- Move an outcome. -/
def outcome (outcome : Outcome L) : Outcome L :=
  shift.answer shift.value outcome

/-- Move both ends of a range. -/
def range (range : Nat × Nat) : Nat × Nat :=
  (shift.amount + range.1, shift.amount + range.2)

/-- Move a position, and keep the state there. -/
def snapshot (snapshot : Snapshot L) : Snapshot L :=
  ⟨shift.amount + snapshot.position, snapshot.state⟩

/-- Move the end and the outcome of a seed. -/
def seed (seed : Seed L) : Seed L :=
  ⟨shift.amount + seed.position, seed.state, shift.outcome seed.outcome⟩

/-- Move all seeds, and the positions that they are kept under. -/
def seeds (table : SeedTable L) : SeedTable L :=
  ⟨table.entries.map fun entry =>
    ((entry.1.1, shift.amount + entry.1.2), shift.seed entry.2)⟩

/-- Move position, latest range and seeds. -/
def context (context : Context L) : Context L :=
  ⟨shift.amount + context.position, context.state, shift.range context.range,
    shift.seeds context.seeds⟩

/-- Move all that a reply consists of. -/
def reply (move : β -> β) :
    Reply L (Except (ParseError L.Payload) β) -> Reply L (Except (ParseError L.Payload) β)
  | .finished answer context => .finished (shift.answer move answer) (shift.context context)
  | .halted error context => .halted (shift.error error) (shift.context context)
  | .faulted fault => .faulted fault
  | .exhausted => .exhausted

/-- A moved run is continued by a run that is moved itself. -/
theorem reply_andThen {move : β -> β} {moveNext : γ -> γ}
    (reply : Reply L (Except (ParseError L.Payload) β))
    {next next' : Except (ParseError L.Payload) β -> Context L ->
      Reply L (Except (ParseError L.Payload) γ)}
    (continued : forall answer context,
      next' (shift.answer move answer) (shift.context context) =
        shift.reply moveNext (next answer context)) :
    (shift.reply move reply).andThen next' = shift.reply moveNext (reply.andThen next) := by
  cases reply with
  | finished answer context => exact continued answer context
  | halted error context => rfl
  | faulted fault => rfl
  | exhausted => rfl

end Answers

/-! ## Values -/

@[simp] theorem value_mk (type : ValueType L.Kind) (content : type.Carrier L) :
    shift.value ⟨type, content⟩ = ⟨type, shift.content type content⟩ := rfl

/-- A moved value has the type that it had. -/
theorem get?_value (type : ValueType L.Kind) (value : Value L) :
    (shift.value value).get? type = (value.get? type).map (shift.content type) := by
  rcases value with ⟨own, content⟩
  by_cases same : own = type
  · subst same
    simp
  · simp [Value.get?, same]

theorem getAll?_values (type : ValueType L.Kind) (values : List (Value L)) :
    Value.getAll? type (values.map shift.value) =
      (Value.getAll? type values).map (List.map (shift.content type)) := by
  induction values with
  | nil => rfl
  | cons value rest inductionHypothesis =>
      rw [List.map_cons, Value.getAll?, Value.getAll?, get?_value, inductionHypothesis]
      cases value.get? type with
      | none => rfl
      | some content => cases Value.getAll? type rest <;> rfl

theorem collect_values (gather : Gather L.Kind) (values : List (Value L)) :
    gather.collect (values.map shift.value) = (gather.collect values).map shift.value := by
  cases gather with
  | pick index => simp [Gather.collect]
  | pair first second =>
      cases values with
      | nil => rfl
      | cons left values =>
          cases values with
          | nil => rfl
          | cons right rest =>
              simp only [Gather.collect, List.map_cons, get?_value]
              cases left.get? first with
              | none => rfl
              | some content => cases right.get? second <;> rfl
  | list element =>
      rw [Gather.collect, Gather.collect, getAll?_values]
      cases Value.getAll? element values <;> rfl

/-! ## Seeds -/

/-- Moved keys are equal if the keys are. -/
theorem key_beq (key : NodeId × Nat) (id : NodeId) (start : Nat) :
    ((key.1, shift.amount + key.2) == (id, shift.amount + start)) = (key == (id, start)) := by
  rcases key with ⟨other, place⟩
  rw [Bool.eq_iff_iff, beq_iff_eq, beq_iff_eq, Prod.mk.injEq, Prod.mk.injEq,
    Nat.add_left_cancel_iff]

theorem get?_seeds (table : SeedTable L) (id : NodeId) (start : Nat) :
    (shift.seeds table).get? id (shift.amount + start) =
      (table.get? id start).map shift.seed := by
  simp only [SeedTable.get?, seeds, List.find?_map, Function.comp_def, key_beq, Option.map_map]

theorem set_seeds (table : SeedTable L) (id : NodeId) (start : Nat) (seed : Seed L) :
    (shift.seeds table).set id (shift.amount + start) (shift.seed seed) =
      shift.seeds (table.set id start seed) := by
  simp only [SeedTable.set, seeds, List.filter_map, Function.comp_def, bne, key_beq, List.map_cons]

/-! ## Loops -/

/-- Whether a way to run operands does at moved positions what another one
does. -/
def Moves {α : Type} (call moved : Caller L α) : Prop :=
  forall operand context,
    moved operand (shift.context context) = shift.reply shift.value (call operand context)

variable {shift} {α : Type} {call moved : Caller L α}

theorem replay_shift (seed : Seed L) (context : Context L) :
    replay (shift.seed seed) (shift.context context) =
      shift.reply shift.value (replay seed context) := rfl

theorem finishWith_shift (self : NodeId) (value : Option (Value L)) (context : Context L) :
    finishWith self (value.map shift.value) (shift.context context) =
      shift.reply shift.value (finishWith self value context) := by
  cases value <;> rfl

theorem finishGathered_shift (self : NodeId) (gather : Gather L.Kind) (values : Values L)
    (context : Context L) :
    finishGathered self gather (shift.answer (List.map shift.value) values)
        (shift.context context) =
      shift.reply shift.value (finishGathered self gather values context) := by
  cases values with
  | error error => rfl
  | ok values =>
      rw [answer, finishGathered, finishGathered, collect_values, finishWith_shift]

theorem runSequence_shift (moves : shift.Moves call moved) (items : List α)
    (context : Context L) :
    runSequence moved items (shift.context context) =
      shift.reply (List.map shift.value) (runSequence call items context) := by
  induction items generalizing context with
  | nil => rfl
  | cons item rest inductionHypothesis =>
      rw [runSequence, runSequence, moves item context]
      apply shift.reply_andThen
      intro outcome after
      cases outcome with
      | error error => rfl
      | ok value =>
          simp only [answer, inductionHypothesis]
          apply shift.reply_andThen
          intro values last
          cases values <;> rfl

theorem runChoice_shift (moves : shift.Moves call moved) (self : NodeId) (start : Snapshot L)
    (last : Option (ParseError L.Payload)) (alts : List α) (context : Context L) :
    runChoice moved self (shift.snapshot start) (last.map shift.error) alts
        (shift.context context) =
      shift.reply shift.value (runChoice call self start last alts context) := by
  induction alts generalizing last context with
  | nil => cases last <;> rfl
  | cons alt rest inductionHypothesis =>
      rw [runChoice, runChoice, moves alt context]
      apply shift.reply_andThen
      intro outcome after
      cases outcome with
      | ok value => rfl
      | error error =>
          simp only [answer, Shift.context, snapshot, Nat.add_left_cancel_iff]
          by_cases stayed : after.position = start.position
          · rw [if_pos stayed, if_pos stayed]
            exact inductionHypothesis (some error) (after.restore start)
          · rw [if_neg stayed, if_neg stayed]
            rfl

theorem runRepeated_shift (moves : shift.Moves call moved) (keepState : Bool) (inner : α)
    (min : Nat) (max : Option Nat) (rounds : Nat) (values : List (Value L))
    (context : Context L) :
    runRepeated moved keepState inner min max rounds (values.map shift.value)
        (shift.context context) =
      shift.reply (List.map shift.value)
        (runRepeated call keepState inner min max rounds values context) := by
  induction rounds generalizing values context with
  | zero => rfl
  | succ rounds inductionHypothesis =>
      rw [runRepeated, runRepeated, List.length_map]
      by_cases full : max.any (· ≤ values.length) = true
      · rw [if_pos full, if_pos full, reply, answer, List.map_reverse]
      · rw [if_neg full, if_neg full, moves inner context]
        apply shift.reply_andThen
        intro outcome after
        cases outcome with
        | ok value =>
            simp only [answer, Shift.context, Nat.add_left_cancel_iff]
            by_cases idle : after.position = context.position ∧ min ≤ values.length + 1
            · rw [if_pos idle, if_pos idle, <- List.map_cons, <- List.map_reverse]
              rfl
            · rw [if_neg idle, if_neg idle]
              exact inductionHypothesis (value :: values) after
        | error error =>
            simp only [answer, Shift.context, ne_eq, Nat.add_left_cancel_iff]
            by_cases final : ¬after.position = context.position ∨ values.length < min
            · rw [if_pos final, if_pos final]
              rfl
            · rw [if_neg final, if_neg final, <- List.map_reverse]
              rfl

theorem runGrowth_shift (moves : shift.Moves call moved) (self : NodeId) (inner : α)
    (start : Snapshot L) (rounds : Nat) (context : Context L) :
    runGrowth moved self inner (shift.snapshot start) rounds (shift.context context) =
      shift.reply shift.value (runGrowth call self inner start rounds context) := by
  induction rounds generalizing context with
  | zero => rfl
  | succ rounds inductionHypothesis =>
      rw [runGrowth, runGrowth]
      have restarts : (shift.context context).restore (shift.snapshot start) =
          shift.context (context.restore start) := rfl
      rw [restarts, moves inner (context.restore start)]
      apply shift.reply_andThen
      intro outcome after
      have found : (shift.context after).seeds.get? self (shift.snapshot start).position =
          (after.seeds.get? self start.position).map shift.seed :=
        shift.get?_seeds after.seeds self start.position
      rw [found]
      cases after.seeds.get? self start.position with
      | none => rfl
      | some seed =>
          have compared : (shift.context after).position ≤ (shift.seed seed).position ↔
              after.position ≤ seed.position := Nat.add_le_add_iff_left
          simp only [Option.map_some, compared]
          by_cases shorter : after.position ≤ seed.position
          · rw [if_pos shorter, if_pos shorter]
            exact replay_shift seed after
          · rw [if_neg shorter, if_neg shorter]
            cases outcome with
            | error error => rfl
            | ok value =>
                simp only [answer]
                rw [<- inductionHypothesis]
                congr 1
                exact congrArg (fun seeds => { shift.context after with seeds := seeds })
                  (shift.set_seeds after.seeds self start.position
                    ⟨after.position, after.state, .ok value⟩)

end Shift

/-! ## Clauses -/

section Clauses

variable {L : Signature} (shift : Shift L) (whole part : L.Input)

/-- Whether a leaf does in the whole, farther by the amount, what it does in
the part. -/
def Leaf.Moves (atom : Leaf L PatternProgram) : Prop :=
  forall self context, atom.run whole self (shift.context context) =
    (shift.outcome (atom.run part self context).1, shift.context (atom.run part self context).2)

/-- Whether a function on outcomes commutes with moving positions. -/
def Transform.Moves (transform : Transform L) : Prop :=
  forall outcome range state node,
    transform (shift.outcome outcome) ⟨whole, shift.range range, state, node⟩ =
      (transform outcome ⟨part, range, state, node⟩).map shift.outcome

/-- Whether a function that replaces the state does not see that positions have
moved. -/
def UpdateMoves (next : L.State -> Token L -> L.State) : Prop :=
  forall state range after node,
    next state ⟨whole, shift.range range, after, node⟩ = next state ⟨part, range, after, node⟩

/-- Whether leaf and function of a clause commute with moving positions. -/
def Clause.Moves {ρ α : Type} (leaves : Leaf L ρ -> Prop) : Clause L ρ α -> Prop
  | .leaf atom => leaves atom
  | .map _ transform => transform.Moves shift whole part
  | .update _ next => UpdateMoves shift whole part next
  | _ => True

variable {shift whole part} {α : Type} {call moved : Caller L α}

/-- A clause does at moved positions what it does, if its operands do and its
leaf and function commute. -/
theorem Clause.run_shift (moves : shift.Moves call moved) (rounds : Nat) (writes : α -> Bool)
    (self : NodeId) {clause : Clause L PatternProgram α}
    (clauseMoves : clause.Moves shift whole part (Leaf.Moves shift whole part))
    (context : Context L) :
    clause.run moved rounds whole writes self (shift.context context) =
      shift.reply shift.value (clause.run call rounds part writes self context) := by
  cases clause with
  | leaf atom =>
      simp only [run, clauseMoves self context]
      rfl
  | map inner transform =>
      rw [run, run, moves inner context]
      apply shift.reply_andThen
      intro outcome after
      have result := clauseMoves outcome (context.position, after.position) after.state self
      simp only [Shift.outcome, Shift.range] at result
      simp only [Shift.context, Context.token, result]
      cases transform outcome ⟨part, (context.position, after.position), after.state, self⟩ <;> rfl
  | update inner next =>
      rw [run, run, moves inner context]
      apply shift.reply_andThen
      intro outcome after
      cases outcome with
      | error error => rfl
      | ok value =>
          have result :=
            clauseMoves after.state (context.position, after.position) after.state self
          simp only [Shift.answer, Context.token]
          rw [<- result]
          rfl
  | sequence items gather =>
      rw [run, run, Shift.runSequence_shift moves items context]
      apply shift.reply_andThen
      exact Shift.finishGathered_shift self gather
  | choice alts => exact Shift.runChoice_shift moves self context.snapshot none alts context
  | optional inner element =>
      rw [run, run, moves inner context]
      apply shift.reply_andThen
      intro outcome after
      cases outcome with
      | ok value =>
          simp only [Shift.answer, Shift.get?_value]
          rw [<- Shift.finishWith_shift]
          cases value.get? element <;> rfl
      | error error =>
          simp only [Shift.answer, Shift.context, Nat.add_left_cancel_iff]
          by_cases stayed : after.position = context.position
          · rw [if_pos stayed, if_pos stayed]
            rfl
          · rw [if_neg stayed, if_neg stayed]
            rfl
  | attempt inner =>
      rw [run, run, moves inner context]
      apply shift.reply_andThen
      intro outcome after
      cases outcome <;> rfl
  | lookahead inner look negative =>
      rw [run, run, moves inner context]
      apply shift.reply_andThen
      intro outcome middle
      cases outcome with
      | error error => rfl
      | ok value =>
          simp only [Shift.answer, moves look middle]
          apply shift.reply_andThen
          intro looked after
          have sameSide : (shift.answer shift.value looked).isOk = looked.isOk := by
            cases looked <;> rfl
          simp only [sameSide]
          by_cases matched : looked.isOk = negative
          · rw [if_pos matched, if_pos matched]
            rfl
          · rw [if_neg matched, if_neg matched]
            rfl
  | repeated inner element min max =>
      have loop := Shift.runRepeated_shift moves (!writes inner) inner min max rounds [] context
      rw [run, run]
      rw [List.map_nil] at loop
      rw [loop]
      apply shift.reply_andThen
      exact Shift.finishGathered_shift self (.list element)
  | reference name expected target => rfl
  | leftRecursion inner =>
      have found : (shift.context context).seeds.get? self (shift.context context).position =
          (context.seeds.get? self context.position).map shift.seed :=
        shift.get?_seeds context.seeds self context.position
      rw [run, run, found]
      cases context.seeds.get? self context.position with
      | some seed => rfl
      | none =>
          simp only [Option.map_none]
          rw [<- Shift.runGrowth_shift moves]
          congr 1
          exact congrArg (fun seeds => { shift.context context with seeds := seeds })
            (shift.set_seeds context.seeds self context.position
              ⟨context.position, context.state,
                .error ((ParseError.bare context.position).withNode self)⟩)

end Clauses

/-! ## Whole runs -/

section Runs

variable {L : Signature} {shift : Shift L} {whole part : L.Input}

/-- Whether all leaves and functions of a grammar commute with moving
positions. -/
def Grammar.Moves (shift : Shift L) (whole part : L.Input) (grammar : Grammar L) : Prop :=
  forall (id : NodeId) clause, grammar.nodes[id]? = some clause ->
    clause.Moves shift whole part (Leaf.Moves shift whole part)

/-- A node does at moved positions what it does, within the same limit on
nesting. -/
theorem Machine.run_shift {grammar : Grammar L} (moves : grammar.Moves shift whole part)
    (maxDepth steps depth : Nat) (id : NodeId) (context : Context L) :
    (Machine.mk grammar whole maxDepth).run steps depth id (shift.context context) =
      shift.reply shift.value ((Machine.mk grammar part maxDepth).run steps depth id context) := by
  induction steps generalizing depth id context with
  | zero => rfl
  | succ steps inductionHypothesis =>
      rw [run, run]
      by_cases trips : 0 < maxDepth ∧ maxDepth < depth
      · simp only [if_pos trips]
        rfl
      · simp only [if_neg trips]
        cases found : grammar.nodes[id]? with
        | none => rfl
        | some clause =>
            have operands := fun operand before => inductionHypothesis (depth + 1) operand before
            exact Clause.run_shift operands steps grammar.writesState id (moves id clause found)
              context

/-- The comparison that disregards the latest ranges as long as these are still
the ones of the start. -/
def Agreement.unranged (range range' : Nat × Nat) : Agreement L where
  nodes := Eq
  contexts first second :=
    first.position = second.position ∧ first.state = second.state ∧ first.seeds = second.seeds ∧
      (first.range = second.range ∨ (first.range = range ∧ second.range = range'))
  position same := same.1
  state same := same.2.1
  moved same _ _ := ⟨rfl, rfl, same.2.2⟩
  ranged same _ := ⟨same.1, same.2.1, same.2.2.1, Or.inl rfl⟩

theorem Agreement.unranged_covers (grammar : Grammar L) (range range' : Nat × Nat) :
    (Agreement.unranged range range').Covers grammar fun _ => True := by
  apply covers_of_seeds rfl
  · intro first second same
    exact same.2.2.1
  · intro first second same seeds
    exact ⟨same.1, same.2.1, rfl, same.2.2.2⟩

/-- Whether a context is another one, moved.  The range of a context in which no
function has been applied yet does not say anything, and is not moved. -/
structure Shift.Carries (shift : Shift L) (context moved : Context L) : Prop where
  position : moved.position = shift.amount + context.position
  state : moved.state = context.state
  seeds : moved.seeds = shift.seeds context.seeds
  range : moved.range = shift.range context.range ∨ (moved.range = (0, 0) ∧ context.range = (0, 0))

/-- Whether a reply is another one, moved: runs end alike, with the same outcome
up to positions and in contexts that are the same up to positions. -/
inductive Reply.MovedBy (shift : Shift L) : Reply L (Outcome L) -> Reply L (Outcome L) -> Prop where
  | finished {outcome last moved} : shift.Carries last moved ->
      MovedBy shift (.finished outcome last) (.finished (shift.outcome outcome) moved)
  | halted {error last moved} : shift.Carries last moved ->
      MovedBy shift (.halted error last) (.halted (shift.error error) moved)
  | faulted {fault} : MovedBy shift (.faulted fault) (.faulted fault)
  | exhausted : MovedBy shift .exhausted .exhausted

theorem Reply.MovedBy.of_finished {outcome : Outcome L} {last : Context L}
    {other : Reply L (Outcome L)} (moved : (Reply.finished outcome last).MovedBy shift other) :
    exists there, other = .finished (shift.outcome outcome) there ∧ shift.Carries last there := by
  cases moved with
  | finished carries => exact ⟨_, rfl, carries⟩

theorem Shift.carries_of_unranged {context moved : Context L}
    (same : (Agreement.unranged (shift.range (0, 0)) (0, 0)).contexts (shift.context context)
      moved) : shift.Carries context moved where
  position := same.1.symm
  state := same.2.1.symm
  seeds := same.2.2.1.symm
  range := by
    rcases same.2.2.2 with ranges | ⟨isFirst, isFirst'⟩
    · exact Or.inl ranges.symm
    · rcases Prod.mk.inj isFirst with ⟨start, stop⟩
      exact Or.inr ⟨isFirst', Prod.ext (Nat.add_left_cancel start) (Nat.add_left_cancel stop)⟩

/-- Runs that start afresh, one of them farther by the amount, end alike. -/
theorem Machine.run_fresh {grammar : Grammar L} (moves : grammar.Moves shift whole part)
    (maxDepth steps depth : Nat) (id : NodeId) (state : L.State) :
    ((Machine.mk grammar part maxDepth).run steps depth id (Snapshot.fresh ⟨0, state⟩)).MovedBy
      shift ((Machine.mk grammar whole maxDepth).run steps depth id
        (Snapshot.fresh ⟨shift.amount, state⟩)) := by
  let machine := Machine.mk grammar whole maxDepth
  let moved := shift.context (Snapshot.fresh ⟨0, state⟩)
  let fresh : Context L := Snapshot.fresh ⟨shift.amount, state⟩
  have follows : (machine.run steps depth id moved).Follows
      (Agreement.unranged (shift.range (0, 0)) (0, 0)) (machine.run steps depth id fresh) :=
    machine.run_follows (Agreement.unranged_covers grammar _ _) (Nat.le_refl steps) (Or.inr rfl)
      trivial ⟨rfl, rfl, rfl, Or.inr ⟨rfl, rfl⟩⟩
  have back : (machine.run steps depth id fresh).Follows
      (Agreement.unranged (0, 0) (shift.range (0, 0))) (machine.run steps depth id moved) :=
    machine.run_follows (Agreement.unranged_covers grammar _ _) (Nat.le_refl steps) (Or.inr rfl)
      trivial ⟨rfl, rfl, rfl, Or.inr ⟨rfl, rfl⟩⟩
  have shifted := Machine.run_shift moves maxDepth steps depth id (Snapshot.fresh ⟨0, state⟩)
  simp only [machine, moved, fresh, shifted] at follows back
  generalize (Machine.mk grammar part maxDepth).run steps depth id _ = reply at follows back ⊢
  generalize (Machine.mk grammar whole maxDepth).run steps depth id _ = other at follows back ⊢
  cases reply with
  | finished outcome last =>
      cases follows with
      | finished alike same =>
          rw [<- alike.eq]
          exact .finished (Shift.carries_of_unranged same)
  | halted error last =>
      cases follows with
      | halted alike same =>
          rw [<- alike.eq]
          exact .halted (Shift.carries_of_unranged same)
  | faulted fault =>
      cases follows with
      | faulted alike =>
          rw [<- alike.eq]
          exact .faulted
  | exhausted =>
      cases back with
      | exhausted => exact .exhausted

end Runs
end SeedGrammar
