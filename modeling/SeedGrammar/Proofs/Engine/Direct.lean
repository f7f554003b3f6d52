import SeedGrammar.Proofs.Engine.Steps
import SeedGrammar.Proofs.Grammar.Resolution

namespace SeedGrammar

/-!
# Running expressions directly

The rules of a grammar can be run without building it.  An expression runs as
its clause does, on operands that are expressions; a reference runs the
expression of the first rule of its name.  Keys take the place of the numbers of
nodes, so seeds are kept for each expression that is left-recursive and each
position.

Whether an operand can replace the state is read off the expressions too, through
references.  This is no computation, since rules may refer to each other in
circles; what runs when a grammar is built is compared with it.

Failures carry the number of a node, and functions of the author can see it.
The comparison therefore is about functions that are blind to it.
-/

variable {L : Signature}

namespace GrammarBuilder

/-- Whether running an expression can come to a clause that replaces the state. -/
inductive Writes (builder : GrammarBuilder L) : Expr L -> Prop where
  | update {expr inner : Expr L} {next : L.State -> Token L -> L.State} :
      expr.clause = .update inner next -> Writes builder expr
  | operand {expr child : Expr L} : child ∈ expr.clause.children -> Writes builder child ->
      Writes builder expr
  | reference {expr : Expr L} {name : String} {expected : ValueType L.Kind}
      {target : Option (Expr L)} {definition : Definition L} :
      expr.clause = .reference name expected target ->
      builder.definition? name = some definition -> Writes builder definition.parser.expr ->
      Writes builder expr

open Classical in
/-- Run an expression with a number of steps, of which following a reference
takes one.  A name without a rule and a clause that is not lowered are faults
here; a grammar with either is refused. -/
noncomputable def interpret (builder : GrammarBuilder L) (input : L.Input) :
    Nat -> Caller L (Expr L)
  | 0, _, _ => .exhausted
  | steps + 1, expr, context =>
    match expr.clause with
    | .reference name _ _ =>
      match builder.definition? name with
      | some definition => builder.interpret input steps definition.parser.expr context
      | none => .faulted (.unresolvedReference expr.key)
    | clause =>
      match clause.compiled? with
      | some compiled =>
        compiled.run (builder.interpret input steps) steps input
          (fun operand => decide (builder.Writes operand)) expr.key context
      | none => .faulted (.nodeOutOfRange expr.key)

/-- Run the expression of a rule from the start of an input. -/
noncomputable def interpretRule (builder : GrammarBuilder L) (definition : Definition L)
    (steps : Nat) (input : L.Input) (state : L.State) : ParseRun L definition.type :=
  EntryPoint.conclude definition.parser.expr.key
    (builder.interpret input steps definition.parser.expr (Context.start state))

variable {builder : GrammarBuilder L} {input : L.Input}

theorem interpret_reference {expr : Expr L} {name : String} {expected : ValueType L.Kind}
    {target : Option (Expr L)} {definition : Definition L}
    (isReference : expr.clause = .reference name expected target)
    (found : builder.definition? name = some definition) (steps : Nat) (context : Context L) :
    builder.interpret input (steps + 1) expr context =
      builder.interpret input steps definition.parser.expr context := by
  rw [interpret, isReference]
  simp only [found]

open Classical in
theorem interpret_operator {expr : Expr L} (isOperator : expr.clause.isReference = false)
    {compiled : Clause L PatternProgram (Expr L)}
    (isCompiled : expr.clause.compiled? = some compiled) (steps : Nat) (context : Context L) :
    builder.interpret input (steps + 1) expr context =
      compiled.run (builder.interpret input steps) steps input
        (fun operand => decide (builder.Writes operand)) expr.key context := by
  rw [interpret]
  split
  · rename_i name expected target isReference
    rw [isReference] at isOperator
    cases isOperator
  · rw [isCompiled]

/-- Following references takes as many steps as there are references. -/
theorem interpret_leads {length : Nat} {expr last : Expr L}
    (leads : builder.Leads length expr last) (steps : Nat) (context : Context L) :
    builder.interpret input (steps + length) expr context =
      builder.interpret input steps last context := by
  induction leads with
  | here _ => rfl
  | @follow length expr last _ _ _ definition isReference found _ inductionHypothesis =>
      calc builder.interpret input (steps + (length + 1)) expr context
          = builder.interpret input (steps + length) definition.parser.expr context :=
            interpret_reference isReference found (steps + length) context
        _ = builder.interpret input steps last context := inductionHypothesis

theorem Leads.writes {length : Nat} {expr last : Expr L}
    (leads : builder.Leads length expr last) (writes : builder.Writes last) :
    builder.Writes expr := by
  induction leads with
  | here _ => exact writes
  | follow isReference found _ inductionHypothesis =>
      exact .reference isReference found (inductionHypothesis writes)

end GrammarBuilder

/-! ## Functions that are blind to the numbers of nodes -/

/-- Whether a function does the same whatever the numbers of nodes are. -/
def Transform.NodeBlind (transform : Transform L) : Prop :=
  forall outcome outcome' input range state id id',
    AnswersAlike (fun _ _ => True) outcome outcome' ->
    ResultsAlike (fun _ _ => True) (transform outcome ⟨input, range, state, id⟩)
      (transform outcome' ⟨input, range, state, id'⟩)

/-- Whether the functions of a clause are blind to the numbers of nodes. -/
def Clause.NodeBlind {ρ α : Type} : Clause L ρ α -> Prop
  | .map _ transform => transform.NodeBlind
  | .update _ next => forall input range state id id',
      next state ⟨input, range, state, id⟩ = next state ⟨input, range, state, id'⟩
  | _ => True

/-- Whether all functions within an expression are blind to the numbers of
nodes. -/
def Expr.NodeBlind (root : Expr L) : Prop :=
  forall expr : Expr L, expr.Within root -> expr.clause.NodeBlind

theorem Expr.nodeBlind_node {key : Nat} {clause : Clause L Unit (Expr L)}
    (own : clause.NodeBlind)
    (operands : forall child, child ∈ clause.children -> child.NodeBlind) :
    (Expr.node key clause).NodeBlind := by
  intro expr within
  cases within with
  | self => exact own
  | operand isChild inner => exact operands _ isChild expr inner

/-- Whether all functions in the rules of a grammar are blind to the numbers of
nodes. -/
def GrammarBuilder.NodeBlind (builder : GrammarBuilder L) : Prop :=
  forall definition, definition ∈ builder.definitions -> definition.parser.expr.NodeBlind

theorem GrammarBuilder.NodeBlind.clause {builder : GrammarBuilder L} (blind : builder.NodeBlind)
    {expr : Expr L} (contained : builder.Contains expr) : expr.clause.NodeBlind := by
  rcases contained with ⟨definition, member, within⟩
  exact blind definition member expr within

namespace Clause

theorem Corresponds.nodeBlind {ρ σ α β : Type} {leaves : Leaf L ρ -> Leaf L σ -> Prop}
    {operands : α -> β -> Prop} {clause : Clause L ρ α} {other : Clause L σ β}
    (corresponds : clause.Corresponds leaves operands other) (blind : clause.NodeBlind) :
    other.NodeBlind := by
  cases corresponds with
  | map _ => exact blind
  | update _ => exact blind
  | _ => trivial

end Clause

/-! ## Comparing keys and nodes -/

namespace Agreement

/-- The comparison of runs that keep their seeds under different names: those of
some expressions are kept under the names on the left in one run and under the
names on the right in the other. -/
def renamed (left right : Expr L -> NodeId) (among : Expr L -> Prop) : Agreement L where
  nodes _ _ := True
  contexts first second :=
    first.position = second.position ∧ first.state = second.state ∧
      forall expr, among expr -> forall start,
        Option.Rel (SeedsAlike fun _ _ => True) (first.seeds.get? (left expr) start)
          (second.seeds.get? (right expr) start)
  position same := same.1
  state same := same.2.1
  moved same _ _ := ⟨rfl, rfl, same.2.2⟩
  ranged same _ := same

/-- Contexts without seeds are the same under any names. -/
theorem renamed_start (left right : Expr L -> NodeId) (among : Expr L -> Prop)
    (state : L.State) :
    (renamed left right among).contexts (Context.start state) (Context.start state) :=
  ⟨rfl, rfl, fun _ _ _ => .none⟩

/-- Clauses without functions that see numbers of nodes do not tell names apart
that are different for different expressions. -/
theorem renamed_bears {left right : Expr L -> NodeId} {among : Expr L -> Prop}
    (leftInjective : forall first second, among first -> among second ->
      left first = left second -> first = second)
    (rightInjective : forall first second, among first -> among second ->
      right first = right second -> first = second)
    {expr : Expr L} (member : among expr) {ρ α : Type} {clause : Clause L ρ α}
    (blind : clause.NodeBlind) :
    (renamed left right among).Bears (left expr) (right expr) clause := by
  cases clause with
  | map inner transform =>
      intro outcome outcome' input range state alike
      exact blind outcome outcome' input range state (left expr) (right expr) alike
  | update inner next =>
      intro input range state
      exact blind input range state (left expr) (right expr)
  | leftRecursion inner =>
      constructor
      · intro first second same start
        exact same.2.2 expr member start
      · intro first second same start seed seed' seeds
        refine ⟨same.1, same.2.1, ?_⟩
        intro other isOther place
        by_cases here : other = expr ∧ place = start
        · rcases here with ⟨rfl, rfl⟩
          simp only [SeedTable.get?_set_self]
          exact .some seeds
        · have elsewhere : (left other, place) ≠ (left expr, start) := by
            intro names
            rcases Prod.mk.inj names with ⟨sameName, samePlace⟩
            exact here ⟨leftInjective other expr isOther member sameName, samePlace⟩
          have elsewhere' : (right other, place) ≠ (right expr, start) := by
            intro names
            rcases Prod.mk.inj names with ⟨sameName, samePlace⟩
            exact here ⟨rightInjective other expr isOther member sameName, samePlace⟩
          simp only [SeedTable.get?_set_of_ne _ seed elsewhere,
            SeedTable.get?_set_of_ne _ seed' elsewhere']
          exact same.2.2 other isOther place
  | leaf atom => trivial
  | sequence items gather => trivial
  | choice alts => trivial
  | optional inner element => trivial
  | attempt inner => trivial
  | lookahead inner look negative => trivial
  | repeated inner element min max => trivial
  | reference name expected target => trivial

end Agreement
end SeedGrammar
