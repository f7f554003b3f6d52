import SeedGrammar.Proofs.Engine.Direct

namespace SeedGrammar

/-!
# One expression in place of another

Two grammars may differ in one expression: where the first grammar has one, the
second may have another, and everything around it is the same, keys included.
The two expressions can occur in any number of places, shared or not, and the
first may have been left where it is in some of them.

Such grammars have the same rules, their references lead to the same places,
and where they may replace the state they do so alike, provided that the two
expressions do.
-/

variable {L : Signature}

/-- What is in one of two lists has something related to it in the other. -/
private theorem exists_related {α β : Type} {related : α -> β -> Prop} {items : List α}
    {items' : List β} (areRelated : List.Forall₂ related items items') {item : α}
    (member : item ∈ items) : exists item', item' ∈ items' ∧ related item item' := by
  induction areRelated with
  | nil => cases member
  | cons first _ inductionHypothesis =>
      rcases List.mem_cons.mp member with isFirst | later
      · rw [isFirst]
        exact ⟨_, List.mem_cons_self .., first⟩
      · rcases inductionHypothesis later with ⟨item', isMember, related⟩
        exact ⟨item', List.mem_cons_of_mem _ isMember, related⟩

/-- One expression has another in some of the places where the first has
`old`. -/
inductive Expr.Exchanged (old new : Expr L) : Expr L -> Expr L -> Prop where
  | swapped : Exchanged old new old new
  | kept {key : Nat} {clause clause' : Clause L Unit (Expr L)} :
      clause.Corresponds Eq (Exchanged old new) clause' ->
      Exchanged old new (.node key clause) (.node key clause')

namespace Expr.Exchanged

variable {old new : Expr L}

/-- Nothing has to be exchanged. -/
theorem refl (old new expr : Expr L) : Exchanged old new expr expr := by
  induction expr with
  | node key clause inductionHypothesis => exact .kept (.same inductionHypothesis)

/-- The exchange can be undone. -/
theorem flip {expr other : Expr L} (exchanged : Exchanged old new expr other) :
    Exchanged new old other expr := by
  induction expr generalizing other with
  | node key clause inductionHypothesis =>
      cases exchanged with
      | swapped => exact .swapped
      | @kept _ _ clause' corresponds =>
          have undone : clause.Corresponds Eq (fun operand operand' =>
              Exchanged new old operand' operand) clause' := by
            apply corresponds.imp
            intro operand operand' isChild related
            exact inductionHypothesis operand isChild related
          exact .kept undone.flip

end Expr.Exchanged

/-- A rule of the same name and type, with an expression exchanged. -/
structure Definition.Exchanged (old new : Expr L) (definition other : Definition L) : Prop where
  name : definition.name = other.name
  type : definition.type = other.type
  expr : Expr.Exchanged old new definition.parser.expr other.parser.expr

theorem Definition.Exchanged.flip {old new : Expr L} {definition other : Definition L}
    (exchanged : definition.Exchanged old new other) : other.Exchanged new old definition :=
  ⟨exchanged.name.symm, exchanged.type.symm, exchanged.expr.flip⟩

namespace GrammarBuilder

/-- Grammars of which one has `new` in places where the other has `old`.
Neither is a reference, and whether they can replace the state is the same in
every grammar. -/
structure Exchanges (builder other : GrammarBuilder L) (old new : Expr L) : Prop where
  definitions : List.Forall₂ (Definition.Exchanged old new) builder.definitions other.definitions
  operator : old.clause.isReference = false
  operator' : new.clause.isReference = false
  writes : forall among : GrammarBuilder L, among.Writes old ↔ among.Writes new

namespace Exchanges

variable {builder other : GrammarBuilder L} {old new : Expr L}

theorem flip (exchanges : builder.Exchanges other old new) : other.Exchanges builder new old where
  definitions := exchanges.definitions.flip.imp fun _ _ exchanged => exchanged.flip
  operator := exchanges.operator'
  operator' := exchanges.operator
  writes among := (exchanges.writes among).symm

/-- A name stands for rules that differ in the exchange only. -/
theorem definition? (exchanges : builder.Exchanges other old new) (name : String) :
    Option.Rel (Definition.Exchanged old new) (builder.definition? name)
      (other.definition? name) := by
  have related := exchanges.definitions
  rw [GrammarBuilder.definition?, GrammarBuilder.definition?]
  generalize builder.definitions = definitions at related
  generalize other.definitions = definitions' at related
  induction related with
  | nil => exact .none
  | @cons definition definition' rest rest' first _ inductionHypothesis =>
      rw [List.find?_cons, List.find?_cons, first.name]
      cases definition'.name == name with
      | true => exact .some first
      | false => exact inductionHypothesis

/-- A rule has one that differs from it in the exchange only. -/
theorem counterpart (exchanges : builder.Exchanges other old new) {definition : Definition L}
    (member : definition ∈ builder.definitions) :
    exists definition', definition' ∈ other.definitions ∧
      definition.Exchanged old new definition' :=
  exists_related exchanges.definitions member

/-- An expression with a counterpart that is no operator is a reference on both
sides, and the rules that are meant differ in the exchange only. -/
theorem followed (exchanges : builder.Exchanges other old new) {expr expr' : Expr L}
    (exchanged : Expr.Exchanged old new expr expr') {name : String}
    {expected : ValueType L.Kind} {target : Option (Expr L)} {definition : Definition L}
    (isReference : expr.clause = .reference name expected target)
    (found : builder.definition? name = some definition) :
    exists target' definition', expr'.clause = .reference name expected target' ∧
      other.definition? name = some definition' ∧
      definition.Exchanged old new definition' := by
  have rules := exchanges.definition? name
  rw [found] at rules
  cases exchanged with
  | swapped =>
      have isOperator := exchanges.operator
      rw [isReference] at isOperator
      cases isOperator
  | kept corresponds =>
      rw [Expr.clause] at isReference
      subst isReference
      cases corresponds with
      | @reference _ _ _ target' =>
          cases found' : other.definition? name with
          | none =>
              rw [found'] at rules
              cases rules
          | some definition' =>
              rw [found'] at rules
              cases rules with
              | some rules => exact ⟨target', definition', rfl, rfl, rules⟩

theorem isReference_eq (exchanges : builder.Exchanges other old new) {expr expr' : Expr L}
    (exchanged : Expr.Exchanged old new expr expr') :
    expr.clause.isReference = expr'.clause.isReference := by
  cases exchanged with
  | swapped => rw [exchanges.operator, exchanges.operator']
  | kept corresponds => exact corresponds.isReference_eq

/-- References lead to operators that differ in the exchange only. -/
theorem leads (exchanges : builder.Exchanges other old new) {length : Nat} {expr last : Expr L}
    (isLed : builder.Leads length expr last) {expr' : Expr L}
    (exchanged : Expr.Exchanged old new expr expr') :
    exists last', other.Leads length expr' last' ∧ Expr.Exchanged old new last last' := by
  induction isLed generalizing expr' with
  | here isOperator =>
      rw [exchanges.isReference_eq exchanged] at isOperator
      exact ⟨expr', .here isOperator, exchanged⟩
  | follow isReference found _ inductionHypothesis =>
      rcases exchanges.followed exchanged isReference found with
        ⟨target', definition', isReference', found', rules⟩
      rcases inductionHypothesis rules.expr with ⟨last', leads', ends⟩
      exact ⟨last', .follow isReference' found' leads', ends⟩

/-- What can replace the state still can after the exchange. -/
theorem writes_of_writes (exchanges : builder.Exchanges other old new) {expr expr' : Expr L}
    (exchanged : Expr.Exchanged old new expr expr') (writes : builder.Writes expr) :
    other.Writes expr' := by
  induction writes generalizing expr' with
  | @update expr inner next isUpdate =>
      cases exchanged with
      | swapped => exact (exchanges.writes other).mp (.update isUpdate)
      | kept corresponds =>
          rw [Expr.clause] at isUpdate
          subst isUpdate
          cases corresponds with
          | update inner => exact .update rfl
  | @operand expr child isChild _ inductionHypothesis =>
      cases exchanged with
      | swapped =>
          have same := inductionHypothesis (.refl old new child)
          exact (exchanges.writes other).mp (.operand isChild same)
      | kept corresponds =>
          rcases exists_related corresponds.children isChild with ⟨child', isChild', related⟩
          exact .operand isChild' (inductionHypothesis related)
  | reference isReference found _ inductionHypothesis =>
      rcases exchanges.followed exchanged isReference found with
        ⟨target', definition', isReference', found', rules⟩
      exact .reference isReference' found' (inductionHypothesis rules.expr)

theorem writes_iff (exchanges : builder.Exchanges other old new) {expr expr' : Expr L}
    (exchanged : Expr.Exchanged old new expr expr') :
    builder.Writes expr ↔ other.Writes expr' :=
  ⟨exchanges.writes_of_writes exchanged, exchanges.flip.writes_of_writes exchanged.flip⟩

end Exchanges
end GrammarBuilder
end SeedGrammar
