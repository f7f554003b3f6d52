import SeedGrammar.Engine.Parse
import SeedGrammar.Proofs.Grammar.Resolution
import SeedGrammar.Proofs.Text.Spans

namespace SeedGrammar

/-!
# Leaves of which the matched input is kept

A leaf, or a repeated leaf, of which only the matched input is kept is a small grammar
when it is compiled on its own.  Both are lowered from the leaf up: the leaf is lowered
first, and nothing but the cache can change by that.  Of the checks that follow only
one can refuse such a grammar if bounds are in order, which is whether the repeated
leaf consumes: `Parser.compile_leafSlice`, `Parser.compile_repeatedSlice`.
-/

variable {L : Signature} {type : ValueType L.Kind}

namespace Parser

/-- The input matched between a least and a greatest number of times, by the loop of the
engine whatever the operand is. -/
def repeatedSlice (parser : Parser L type) (min : Nat) (max : Option Nat) :
    Construction (Parser L .text) := do
  let general ← parser.repeated min max
  general.slice

end Parser

namespace Grammar

/-- The nodes of a leaf of which the matched input is kept. -/
def leafSlice (atom : Leaf L PatternProgram) (type : ValueType L.Kind) : Grammar L :=
  ⟨[.leaf atom, .map 0 (Transform.slicing type)], [⟨Parser.rootRule, .text, 1⟩]⟩

/-- The nodes of a repeated leaf of which the matched input is kept. -/
def repeatedSlice (atom : Leaf L PatternProgram) (type : ValueType L.Kind) (min : Nat)
    (max : Option Nat) : Grammar L :=
  ⟨[.leaf atom, .repeated 0 type min max, .map 1 (Transform.slicing (.list type))],
    [⟨Parser.rootRule, .text, 2⟩]⟩

/-- A repeated leaf is accepted if and only if it consumes, provided that its bounds are in
order. -/
theorem resolve_repeatedSlice {atom : Leaf L PatternProgram} {min : Nat} {max : Option Nat}
    (ordered : forall most, max = some most -> min ≤ most) {built : BuiltGrammar L} :
    GrammarBuilder.resolve (repeatedSlice atom type min max) = .ok built ↔
      atom.isNullable = false ∧
        built = ⟨repeatedSlice atom type min max, ⟨[.known false, .unknown, .unknown]⟩⟩ := by
  let nodes : List (Clause L PatternProgram NodeId) :=
    [.leaf atom, .repeated 0 type min max, .map 1 (Transform.slicing (.list type))]
  have bound : Grammar.bindAll [⟨Parser.rootRule, .text, 2⟩] nodes = .ok nodes := rfl
  have targets : Grammar.targets nodes = .ok [0, 1, 2] := rfl
  have asked : (repeatedSlice atom type min max).isNullable 0 (Nullability.unknown 3) =
      (atom.isNullable, ⟨[.known atom.isNullable, .unknown, .unknown]⟩) := rfl
  have valid : (repeatedSlice atom type min max).validate
      [.leaf atom, .repeated 0 type min max, .map 1 (Transform.slicing (.list type))]
      (Nullability.unknown 3) =
      if atom.isNullable then
        .error (.nullableRepeat ((repeatedSlice atom type min max).describe 0))
      else .ok ⟨[.known false, .unknown, .unknown]⟩ := by
    cases isNullable : atom.isNullable <;> rw [isNullable] at asked
    · cases max with
      | none => simp only [validate, asked, Bool.false_eq_true, if_false]
      | some most =>
          have inOrder : ¬most < min := Nat.not_lt_of_le (ordered most rfl)
          simp only [validate, asked, if_neg inOrder, Bool.false_eq_true, if_false]
    · cases max with
      | none => simp only [validate, asked, if_true]
      | some most =>
          have inOrder : ¬most < min := Nat.not_lt_of_le (ordered most rfl)
          simp only [validate, asked, if_neg inOrder, if_true]
  have redirected : Grammar.redirect [0, 1, 2] ⟨nodes, [⟨Parser.rootRule, .text, 2⟩]⟩ =
      repeatedSlice atom type min max := rfl
  have counted : Nullability.unknown (repeatedSlice atom type min max).nodeCount =
    Nullability.unknown 3 := rfl
  have areNodes : (repeatedSlice atom type min max).nodes = nodes := rfl
  have areRules : (repeatedSlice atom type min max).rules = [⟨Parser.rootRule, .text, 2⟩] := rfl
  rw [GrammarBuilder.resolve, areNodes, areRules, bound]
  simp only [targets, redirected, counted, areNodes]
  rw [valid]
  cases atom.isNullable with
  | true =>
      constructor
      · intro accepted
        cases accepted
      · rintro ⟨consumes, _⟩
        cases consumes
  | false =>
      constructor
      · intro accepted
        cases accepted
        exact ⟨rfl, rfl⟩
      · rintro ⟨_, rfl⟩
        rfl

end Grammar

namespace Lowering

variable {key : Nat} {after : LoweringState L} {id : NodeId}

variable {inner : Nat} {atom : Leaf L Unit} {cache : PatternCache}

/-- A leaf of which the matched input is kept is lowered to two nodes. -/
theorem yields_leafSlice :
    (Lowering.expr (.node key (.map (.node inner (.leaf atom)) (Transform.slicing type)))).Yields
        (start cache) id after ↔
      exists lowered later, (Lowering.leaf atom).Yields (start cache) lowered (start later) ∧
        id = 1 ∧ after = ⟨[.leaf lowered, .map 0 (Transform.slicing type)], [(key, 1), (inner, 0)],
          later⟩ := by
  constructor
  · intro yields
    rcases (yields_new rfl).mp yields with ⟨_, middle, isMap, placed⟩
    rcases yields_map.mp isMap with ⟨operand, isOperand, rfl⟩
    rcases (yields_new rfl).mp isOperand with ⟨_, ⟨nodes, taken, later⟩, isLeaf, placed'⟩
    rcases yields_leaf.mp isLeaf with ⟨lowered, isLowered, rfl⟩
    rcases leaf_places isLowered with ⟨noNodes, noneTaken⟩
    cases noNodes
    cases noneTaken
    cases placed'
    cases placed
    exact ⟨lowered, later, isLowered, rfl, rfl⟩
  · rintro ⟨lowered, later, isLowered, rfl, rfl⟩
    let first : LoweringState L := ⟨[.leaf lowered], [(inner, 0)], later⟩
    refine (yields_new rfl).mpr ⟨_, first, yields_map.mpr ⟨0, ?_, rfl⟩, rfl⟩
    exact (yields_new rfl).mpr ⟨_, _, yields_leaf.mpr ⟨lowered, isLowered, rfl⟩, rfl⟩

/-- A repeated leaf of which the matched input is kept is lowered to three nodes. -/
theorem yields_repeatedSlice {middle min : Nat} {max : Option Nat} :
    (Lowering.expr (.node key (.map (.node middle (.repeated (.node inner (.leaf atom)) type min max))
        (Transform.slicing (.list type))))).Yields (start cache) id after ↔
      exists lowered later, (Lowering.leaf atom).Yields (start cache) lowered (start later) ∧
        id = 2 ∧ after = ⟨[.leaf lowered, .repeated 0 type min max,
          .map 1 (Transform.slicing (.list type))], [(key, 2), (middle, 1), (inner, 0)], later⟩ := by
  constructor
  · intro yields
    rcases (yields_new rfl).mp yields with ⟨_, state, isMap, placed⟩
    rcases yields_map.mp isMap with ⟨operand, isOperand, rfl⟩
    rcases (yields_new rfl).mp isOperand with ⟨_, state', isRepeated, placed'⟩
    rcases yields_repeated.mp isRepeated with ⟨leaf, isInner, rfl⟩
    rcases (yields_new rfl).mp isInner with ⟨_, ⟨nodes, taken, later⟩, isLeaf, placed''⟩
    rcases yields_leaf.mp isLeaf with ⟨lowered, isLowered, rfl⟩
    rcases leaf_places isLowered with ⟨noNodes, noneTaken⟩
    cases noNodes
    cases noneTaken
    cases placed''
    cases placed'
    cases placed
    exact ⟨lowered, later, isLowered, rfl, rfl⟩
  · rintro ⟨lowered, later, isLowered, rfl, rfl⟩
    let first : LoweringState L := ⟨[.leaf lowered], [(inner, 0)], later⟩
    let second : LoweringState L := ⟨[.leaf lowered, .repeated 0 type min max],
      [(middle, 1), (inner, 0)], later⟩
    refine (yields_new rfl).mpr ⟨_, second, yields_map.mpr ⟨1, ?_, rfl⟩, rfl⟩
    refine (yields_new rfl).mpr ⟨_, first, yields_repeated.mpr ⟨0, ?_, rfl⟩, rfl⟩
    exact (yields_new rfl).mpr ⟨_, _, yields_leaf.mpr ⟨lowered, isLowered, rfl⟩, rfl⟩

end Lowering

namespace GrammarBuilder

variable {cache after : PatternCache}

/-- A parser that is accepted has been lowered. -/
theorem lowered_of_build {parser : Parser L type} {name : String} {built : BuiltGrammar L}
    (accepted : (empty.rule name parser).build cache = (.ok built, after)) :
    exists root state, (Lowering.expr parser.expr).Yields (Lowering.start cache) root state := by
  rcases build_accepted accepted with ⟨_, rules, state, areRules, _⟩
  change (lowerRules [⟨name, type, parser⟩]).Yields (Lowering.start cache) rules state at areRules
  rw [lowerRules] at areRules
  rcases Lowering.yields_bind.mp areRules with ⟨root, middle, isRoot, _⟩
  exact ⟨root, middle, isRoot⟩

end GrammarBuilder

namespace Parser

variable {parser : Parser L type} {key : Nat} {atom : Leaf L Unit}
  (isLeaf : parser.expr = .node key (.leaf atom)) {cache after : PatternCache}
  {next : Nat} {entry : EntryPoint L .text} {known : Nullability}

/-- A parser that is compiled on its own has been lowered. -/
theorem lowered_of_compile {parser : Parser L type} {entry : EntryPoint L type}
    (compiled : parser.compile cache = (.ok (entry, known), after)) :
    exists root state, (Lowering.expr parser.expr).Yields (Lowering.start cache) root state := by
  rw [compile] at compiled
  cases accepted : (GrammarBuilder.empty.rule rootRule parser).build cache with
  | mk outcome later =>
      rw [accepted] at compiled
      cases outcome with
      | error error => cases compiled
      | ok built => exact GrammarBuilder.lowered_of_build accepted

/-- A parser that has been lowered is resolved, and entered at its root. -/
theorem compile_of_lowered {parser : Parser L type} {root : NodeId} {state : LoweringState L}
    (isLowered : (Lowering.expr parser.expr).Yields (Lowering.start cache) root state) :
    parser.compile cache =
      ((GrammarBuilder.resolve ⟨state.nodes, [⟨rootRule, type, root⟩]⟩).bind fun built =>
        (built.grammar.entryPoint type rootRule).map fun entry => (entry, built.known),
        state.cache) := by
  rw [compile, GrammarBuilder.build_of_lowered isLowered]
  cases GrammarBuilder.resolve ⟨state.nodes, [⟨rootRule, type, root⟩]⟩ with
  | error error => rfl
  | ok built => rfl

include isLeaf

/-- A leaf of which the matched input is kept is compiled to two nodes. -/
theorem compile_leafSlice :
    (parser.slice next).1.compile cache = (.ok (entry, known), after) ↔
      exists lowered,
        (Lowering.leaf atom).Yields (Lowering.start cache) lowered (Lowering.start after) ∧
          entry = ⟨Grammar.leafSlice lowered type, 1, .unlimited⟩ ∧
          known = Nullability.unknown 2 := by
  have isExpr : (parser.slice next).1.expr =
      .node next (.map (.node key (.leaf atom)) (Transform.slicing type)) := by
    change Expr.node next (parser.expr.transformed (Transform.slicing type)) = _
    rw [isLeaf]
    rfl
  constructor
  · intro compiled
    rcases lowered_of_compile compiled with ⟨root, state, isLowered⟩
    rw [isExpr] at isLowered
    rcases Lowering.yields_leafSlice.mp isLowered with ⟨lowered, later, isAtom, rfl, rfl⟩
    rw [compile_of_lowered (isExpr ▸ isLowered)] at compiled
    cases compiled
    exact ⟨lowered, isAtom, rfl, rfl⟩
  · rintro ⟨lowered, isAtom, rfl, rfl⟩
    have isLowered : (Lowering.expr (parser.slice next).1.expr).Yields (Lowering.start cache) 1
        ⟨[.leaf lowered, .map 0 (Transform.slicing type)], [(next, 1), (key, 0)], after⟩ := by
      rw [isExpr]
      exact Lowering.yields_leafSlice.mpr ⟨lowered, after, isAtom, rfl, rfl⟩
    rw [compile_of_lowered isLowered]
    rfl

/-- A repeated leaf of which the matched input is kept is compiled to three nodes, if it
consumes. -/
theorem compile_repeatedSlice {min : Nat} {max : Option Nat}
    (ordered : forall most, max = some most -> min ≤ most) :
    (parser.repeatedSlice min max next).1.compile cache = (.ok (entry, known), after) ↔
      exists lowered,
        (Lowering.leaf atom).Yields (Lowering.start cache) lowered (Lowering.start after) ∧
          lowered.isNullable = false ∧
          entry = ⟨Grammar.repeatedSlice lowered type min max, 2, .unlimited⟩ ∧
          known = ⟨[.known false, .unknown, .unknown]⟩ := by
  have isExpr : (parser.repeatedSlice min max next).1.expr =
      .node (next + 1) (.map (.node next (.repeated (.node key (.leaf atom)) type min max))
        (Transform.slicing (.list type))) := by
    rw [<- isLeaf]
    rfl
  constructor
  · intro compiled
    rcases lowered_of_compile compiled with ⟨root, state, isLowered⟩
    rw [isExpr] at isLowered
    rcases Lowering.yields_repeatedSlice.mp isLowered with ⟨lowered, later, isAtom, rfl, rfl⟩
    rw [compile_of_lowered (isExpr ▸ isLowered)] at compiled
    cases resolved : GrammarBuilder.resolve (Grammar.repeatedSlice lowered type min max) with
    | error error =>
        rw [Grammar.repeatedSlice] at resolved
        rw [resolved] at compiled
        cases compiled
    | ok built =>
        rcases (Grammar.resolve_repeatedSlice ordered).mp resolved with ⟨consumes, rfl⟩
        rw [Grammar.repeatedSlice] at resolved
        rw [resolved] at compiled
        cases compiled
        exact ⟨lowered, isAtom, consumes, rfl, rfl⟩
  · rintro ⟨lowered, isAtom, consumes, rfl, rfl⟩
    have isLowered : (Lowering.expr (parser.repeatedSlice min max next).1.expr).Yields
        (Lowering.start cache) 2 ⟨[.leaf lowered, .repeated 0 type min max,
          .map 1 (Transform.slicing (.list type))], [(next + 1, 2), (next, 1), (key, 0)], after⟩ := by
      rw [isExpr]
      exact Lowering.yields_repeatedSlice.mpr ⟨lowered, after, isAtom, rfl, rfl⟩
    have resolved : GrammarBuilder.resolve (Grammar.repeatedSlice lowered type min max) = .ok _ :=
      (Grammar.resolve_repeatedSlice ordered).mpr ⟨consumes, rfl⟩
    rw [Grammar.repeatedSlice] at resolved
    rw [compile_of_lowered isLowered, resolved]
    rfl

end Parser
end SeedGrammar
