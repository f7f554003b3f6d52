import SeedGrammar.Proofs.Engine.Typing
import SeedGrammar.Proofs.Grammar.Resolution

namespace SeedGrammar

/-!
# Built grammars are typed

A node of a built grammar has the types of the expressions that it is the node
of.  For references this rests on the check of types when they are bound: what
is expected of a rule is what the rule produces.
-/

variable {L : Signature}

/-- The type of a reference is the one that it expects of its rule. -/
theorem Expr.HasType.eq_expected {expr : Expr L} {type : ValueType L.Kind}
    (hasType : expr.HasType type) {name : String} {expected : ValueType L.Kind}
    {target : Option (Expr L)} (isReference : expr.clause = .reference name expected target) :
    type = expected := by
  cases hasType with
  | reference =>
      cases isReference
      rfl
  | _ => cases isReference

/-- The types of an expression are types of the clause of its node, if the
operands' types are. -/
theorem Expr.HasType.clause {expr : Expr L} {type : ValueType L.Kind}
    (hasType : expr.HasType type) (isOperator : expr.clause.isReference = false)
    {types : NodeId -> ValueType L.Kind -> Prop} {related : Expr L -> NodeId -> Prop}
    {compiled : Clause L PatternProgram (Expr L)} {clause : Clause L PatternProgram NodeId}
    (isCompiled : expr.clause.compiled? = some compiled)
    (corresponds : compiled.Corresponds Eq related clause)
    (operands : forall child, child ∈ expr.clause.children -> forall id, related child id ->
      forall type, child.HasType type -> types id type) :
    clause.HasType Leaf.CompiledType types type := by
  have alone : forall inner : Expr L, inner ∈ [inner] := fun inner => List.mem_singleton.mpr rfl
  cases hasType with
  | @leaf key atom type typed =>
      rcases Option.map_eq_some_iff.mp isCompiled with ⟨atom', isAtom, rfl⟩
      cases corresponds with
      | leaf same => exact .leaf ⟨atom, same ▸ isAtom, typed⟩
  | @map key inner transform source target typed takes =>
      cases isCompiled
      cases corresponds with
      | map isInner => exact .map (operands inner (alone inner) _ isInner source typed) takes
  | @update key inner next type typed =>
      cases isCompiled
      cases corresponds with
      | update isInner => exact .update (operands inner (alone inner) _ isInner type typed)
  | @sequence key items gather type expected typed takes =>
      rw [Expr.clause, Clause.compiled?, Option.ite_none_left_eq_some] at isCompiled
      cases isCompiled.2
      cases corresponds with
      | @sequence _ ids _ areItems =>
          refine .sequence expected ?_ (areItems.length_eq ▸ takes)
          intro index id found
          rcases List.getElem?_eq_some_iff.mp found with ⟨bound, rfl⟩
          have inItems : index < items.length := by rwa [areItems.length_eq]
          exact operands items[index] (List.getElem_mem inItems) _ (areItems.get inItems bound)
            (expected index) (typed index _ (List.getElem?_eq_getElem inItems))
  | @choice key alts type typed =>
      rw [Expr.clause, Clause.compiled?, Option.ite_none_left_eq_some] at isCompiled
      cases isCompiled.2
      cases corresponds with
      | @choice _ ids areAlts =>
          refine .choice ?_ ?_
          · intro none
            rw [none] at areAlts
            cases areAlts
            exact isCompiled.1 rfl
          · intro id member
            rcases List.mem_iff_getElem.mp member with ⟨index, bound, rfl⟩
            have inAlts : index < alts.length := by rwa [areAlts.length_eq]
            have isAlt : alts[index] ∈ alts := List.getElem_mem inAlts
            exact operands alts[index] isAlt _ (areAlts.get inAlts bound) type (typed _ isAlt)
  | @optional key inner element typed =>
      cases isCompiled
      cases corresponds with
      | optional isInner => exact .optional (operands inner (alone inner) _ isInner element typed)
  | @attempt key inner type typed =>
      cases isCompiled
      cases corresponds with
      | attempt isInner => exact .attempt (operands inner (alone inner) _ isInner type typed)
  | @lookahead key inner look negative type seen typed lookTyped =>
      cases isCompiled
      cases corresponds with
      | lookahead isInner isLook =>
          exact .lookahead (operands inner (List.mem_cons_self ..) _ isInner type typed)
            (operands look (List.mem_cons_of_mem _ (alone look)) _ isLook seen lookTyped)
  | @repeated key inner element min max typed =>
      cases isCompiled
      cases corresponds with
      | repeated isInner => exact .repeated (operands inner (alone inner) _ isInner element typed)
  | reference => cases isOperator
  | @leftRecursion key inner type typed =>
      cases isCompiled
      cases corresponds with
      | leftRecursion isInner =>
          exact .leftRecursion (operands inner (alone inner) _ isInner type typed)

namespace GrammarBuilder.Resolution

variable {builder : GrammarBuilder L} {grammar : Grammar L} {node : Expr L -> NodeId}
  {longest : Nat}

/-- Whether a node is that of an expression of some type. -/
def Types (builder : GrammarBuilder L) (node : Expr L -> NodeId) (id : NodeId)
    (type : ValueType L.Kind) : Prop :=
  exists expr, builder.Contains expr ∧ expr.HasType type ∧ node expr = id

/-- References lead to expressions of the same types. -/
theorem leads_hasType (resolution : builder.Resolution grammar node longest) {length : Nat}
    {expr last : Expr L} (leads : builder.Leads length expr last)
    (contained : builder.Contains expr) {type : ValueType L.Kind} (hasType : expr.HasType type) :
    last.HasType type := by
  induction leads with
  | here _ => exact hasType
  | @follow _ expr _ name expected target definition isReference found _ inductionHypothesis =>
      rcases resolution.reference expr name expected target contained isReference with
        ⟨definition', found', sameType, _⟩
      rw [found] at found'
      cases found'
      apply inductionHypothesis (contains_root (mem_of_definition? found))
      rw [hasType.eq_expected isReference, <- sameType]
      exact definition.parser.typed

theorem typing (resolution : builder.Resolution grammar node longest) :
    grammar.Typing (Types builder node) where
  clause := by
    rintro id type ⟨expr, contained, hasType, rfl⟩
    rcases resolution.leads expr contained with ⟨length, last, _, leads⟩
    have lastContained := leads.contains contained
    rcases resolution.clause last lastContained leads.operator with
      ⟨compiled, clause, isCompiled, found, corresponds⟩
    refine ⟨clause, ?_, ?_⟩
    · rw [resolution.node_leads leads contained, found]
    · apply (resolution.leads_hasType leads contained hasType).clause leads.operator isCompiled
        corresponds
      intro child isChild id isNode type childType
      exact ⟨child, builder.contains_operandClosed last child lastContained isChild, childType,
        isNode⟩

end GrammarBuilder.Resolution
end SeedGrammar
