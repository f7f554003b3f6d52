import SeedGrammar.Grammar.Build

namespace SeedGrammar

/-!
# The expressions of a grammar

The expressions of a grammar are those of its rules and everything within
them.  Sharing is a matter of keys: that one key stands for one expression is
what makes it right to lower it once.  Such expressions are called coherent.

The combinators keep expressions coherent.  Each takes its key from a counter
and raises the counter, so the new key is greater than all keys within the
operands.
-/

variable {L : Signature}

namespace Expr

theorem sizeOf_child_lt {key : Nat} {clause : Clause L Unit (Expr L)} {child : Expr L}
    (member : child ∈ clause.children) : sizeOf child < sizeOf (Expr.node key clause) := by
  cases clause with
  | leaf atom => cases member
  | map inner transform =>
      rw [List.mem_singleton.mp member]
      simp only [node.sizeOf_spec, Clause.map.sizeOf_spec]
      omega
  | update inner next =>
      rw [List.mem_singleton.mp member]
      simp only [node.sizeOf_spec, Clause.update.sizeOf_spec]
      omega
  | sequence items gather =>
      have within := List.sizeOf_lt_of_mem member
      simp only [Clause.children] at within
      simp only [node.sizeOf_spec, Clause.sequence.sizeOf_spec]
      omega
  | choice alts =>
      have within := List.sizeOf_lt_of_mem member
      simp only [Clause.children] at within
      simp only [node.sizeOf_spec, Clause.choice.sizeOf_spec]
      omega
  | optional inner element =>
      rw [List.mem_singleton.mp member]
      simp only [node.sizeOf_spec, Clause.optional.sizeOf_spec]
      omega
  | attempt inner =>
      rw [List.mem_singleton.mp member]
      simp only [node.sizeOf_spec, Clause.attempt.sizeOf_spec]
      omega
  | lookahead inner look negative =>
      simp only [node.sizeOf_spec, Clause.lookahead.sizeOf_spec]
      rcases List.mem_cons.mp member with first | second
      · rw [first]
        omega
      · rw [List.mem_singleton.mp second]
        omega
  | repeated inner element min max =>
      rw [List.mem_singleton.mp member]
      simp only [node.sizeOf_spec, Clause.repeated.sizeOf_spec]
      omega
  | reference name expected target => cases member
  | leftRecursion inner =>
      rw [List.mem_singleton.mp member]
      simp only [node.sizeOf_spec, Clause.leftRecursion.sizeOf_spec]
      omega

/-- Induction over an expression: a property holds of it if it does whenever it
holds of all operands. -/
@[elab_as_elim, induction_eliminator]
theorem operandInduction {motive : Expr L -> Prop}
    (node : forall key clause, (forall child, child ∈ clause.children -> motive child) ->
      motive (.node key clause)) (expr : Expr L) : motive expr :=
  match expr with
  | .node key clause => node key clause fun child _ => operandInduction node child
termination_by sizeOf expr
decreasing_by exact sizeOf_child_lt ‹_›

/-- An expression is within another if it is the other or within one of its
operands. -/
inductive Within : Expr L -> Expr L -> Prop where
  | self (expr : Expr L) : Within expr expr
  | operand {expr child root : Expr L} : child ∈ root.clause.children -> Within expr child ->
      Within expr root

theorem Within.trans {expr middle root : Expr L} (inner : expr.Within middle)
    (outer : middle.Within root) : expr.Within root := by
  induction outer with
  | self => exact inner
  | operand member _ inductionHypothesis => exact .operand member inductionHypothesis

theorem Within.sizeOf_le {expr root : Expr L} (within : expr.Within root) :
    sizeOf expr ≤ sizeOf root := by
  induction within with
  | self => exact Nat.le_refl _
  | @operand child root member _ inductionHypothesis =>
      rcases root with ⟨key, clause⟩
      exact Nat.le_trans inductionHypothesis (Nat.le_of_lt (sizeOf_child_lt member))

/-- An expression is not within its operands. -/
theorem not_within_child {child expr : Expr L} (member : child ∈ expr.clause.children) :
    ¬expr.Within child := by
  intro within
  rcases expr with ⟨key, clause⟩
  exact absurd (sizeOf_child_lt member) (Nat.not_lt_of_le within.sizeOf_le)

theorem within_of_mem_children {child expr : Expr L} (member : child ∈ expr.clause.children) :
    child.Within expr :=
  .operand member (.self child)

end Expr

/-- Whether the operands of some expressions are among them. -/
def OperandClosed (among : Expr L -> Prop) : Prop :=
  forall expr child, among expr -> child ∈ expr.clause.children -> among child

theorem OperandClosed.within {among : Expr L -> Prop} (closed : OperandClosed among)
    {expr root : Expr L} (within : expr.Within root) (member : among root) : among expr := by
  induction within with
  | self => exact member
  | operand isChild _ inductionHypothesis =>
      exact inductionHypothesis (closed _ _ member isChild)

/-- Whether one key stands for one expression among some expressions. -/
def Coherent (among : Expr L -> Prop) : Prop :=
  forall first second, among first -> among second -> first.key = second.key -> first = second

namespace GrammarBuilder

/-- Whether an expression is within one of the rules. -/
def Contains (builder : GrammarBuilder L) (expr : Expr L) : Prop :=
  exists definition, definition ∈ builder.definitions ∧ expr.Within definition.parser.expr

theorem contains_operandClosed (builder : GrammarBuilder L) :
    OperandClosed builder.Contains := by
  intro expr child contained member
  rcases contained with ⟨definition, isDefinition, within⟩
  exact ⟨definition, isDefinition, (Expr.within_of_mem_children member).trans within⟩

theorem contains_root {builder : GrammarBuilder L} {definition : Definition L}
    (member : definition ∈ builder.definitions) : builder.Contains definition.parser.expr :=
  ⟨definition, member, .self _⟩

end GrammarBuilder

/-! ## Combinators keep keys apart -/

/-- Expressions whose keys are below a counter, and coherent. -/
structure KeysBelow (next : Nat) (roots : List (Expr L)) : Prop where
  below : forall root, root ∈ roots -> forall expr : Expr L, expr.Within root -> expr.key < next
  coherent : Coherent fun expr : Expr L => exists root, root ∈ roots ∧ expr.Within root

/-- Without expressions any counter will do. -/
theorem KeysBelow.none (next : Nat) : KeysBelow next ([] : List (Expr L)) := by
  constructor
  · intro root member
    cases member
  · rintro first second ⟨root, member, _⟩
    cases member

/-- A counter may be raised without making an expression. -/
theorem KeysBelow.raised {next more : Nat} {roots : List (Expr L)} (keys : KeysBelow next roots)
    (enough : next ≤ more) : KeysBelow more roots :=
  ⟨fun root isRoot expr within => Nat.lt_of_lt_of_le (keys.below root isRoot expr within) enough,
    keys.coherent⟩

/-- A new expression over operands that are within the old ones. -/
theorem KeysBelow.node {next : Nat} {roots : List (Expr L)} (keys : KeysBelow next roots)
    (clause : Clause L Unit (Expr L))
    (operands : forall child, child ∈ clause.children ->
      exists root, root ∈ roots ∧ child.Within root) :
    KeysBelow (next + 1) (.node next clause :: roots) := by
  have older : forall expr : Expr L, expr.Within (Expr.node next clause) -> expr ≠ .node next clause ->
      exists root, root ∈ roots ∧ expr.Within root := by
    intro expr within different
    cases within with
    | self => exact absurd rfl different
    | operand member inner =>
        rcases operands _ member with ⟨root, isRoot, outer⟩
        exact ⟨root, isRoot, inner.trans outer⟩
  have known : forall expr : Expr L, (exists root, root ∈ Expr.node next clause :: roots ∧
      expr.Within root) -> expr = .node next clause ∨
        exists root, root ∈ roots ∧ expr.Within root := by
    rintro expr ⟨root, member, within⟩
    by_cases same : expr = .node next clause
    · exact Or.inl same
    · rcases List.mem_cons.mp member with isNew | isOld
      · rw [isNew] at within
        exact Or.inr (older expr within same)
      · exact Or.inr ⟨root, isOld, within⟩
  constructor
  · intro root member expr within
    rcases known expr ⟨root, member, within⟩ with isNew | ⟨older, isRoot, inner⟩
    · rw [isNew]
      exact Nat.lt_succ_self next
    · exact Nat.lt_succ_of_lt (keys.below older isRoot expr inner)
  · intro first second isFirst isSecond sameKey
    rcases known first isFirst with firstNew | ⟨root, isRoot, within⟩
    · rcases known second isSecond with secondNew | ⟨root, isRoot, within⟩
      · rw [firstNew, secondNew]
      · have smaller := keys.below root isRoot second within
        rw [<- sameKey, firstNew] at smaller
        exact absurd smaller (Nat.lt_irrefl next)
    · rcases known second isSecond with secondNew | ⟨root', isRoot', within'⟩
      · have smaller := keys.below root isRoot first within
        rw [sameKey, secondNew] at smaller
        exact absurd smaller (Nat.lt_irrefl next)
      · exact keys.coherent first second ⟨root, isRoot, within⟩ ⟨root', isRoot', within'⟩ sameKey

/-- Making a parser uses the counter for a key and raises it. -/
theorem KeysBelow.make {next : Nat} {roots : List (Expr L)} (keys : KeysBelow next roots)
    {type : ValueType L.Kind} (clause : Clause L Unit (Expr L))
    (typed : forall key, (Expr.node key clause).HasType type)
    (operands : forall child, child ∈ clause.children ->
      exists root, root ∈ roots ∧ child.Within root) :
    KeysBelow (Parser.make clause typed next).2
      ((Parser.make clause typed next).1.expr :: roots) :=
  keys.node clause operands

/-- A new expression over operands that are among the old ones. -/
theorem KeysBelow.over {next : Nat} {roots : List (Expr L)} (keys : KeysBelow next roots)
    (clause : Clause L Unit (Expr L)) (operands : clause.children ⊆ roots) :
    KeysBelow (next + 1) (.node next clause :: roots) :=
  keys.node clause fun child member => ⟨child, operands member, .self child⟩

/-- The rules of a grammar are coherent if all were made with one counter. -/
theorem KeysBelow.contains_coherent {next : Nat} {roots : List (Expr L)}
    (keys : KeysBelow next roots) {builder : GrammarBuilder L}
    (rules : forall definition, definition ∈ builder.definitions ->
      definition.parser.expr ∈ roots) : Coherent builder.Contains := by
  intro first second ⟨rule, isRule, within⟩ ⟨rule', isRule', within'⟩
  exact keys.coherent first second ⟨_, rules rule isRule, within⟩ ⟨_, rules rule' isRule', within'⟩

end SeedGrammar
