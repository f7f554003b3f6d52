import Mathlib.Data.List.Forall2
import SeedGrammar.Clause

namespace SeedGrammar

/-!
# Corresponding clauses

Two clauses correspond if they are the same operator on corresponding
operands.  Functions of the author, bounds and types have to be the same;
leaves correspond as a relation of their own says, and the targets of
references are left out, since a reference has no operands.

Lowering, binding and redirecting change a clause into a corresponding one,
and corresponding clauses run alike if their operands do.  Both are said
with the relation of this module.
-/

/-- The same operator, with leaves and operands that are related. -/
inductive Clause.Corresponds {L : Signature} {ρ σ α β : Type}
    (leaves : Leaf L ρ -> Leaf L σ -> Prop) (operands : α -> β -> Prop) :
    Clause L ρ α -> Clause L σ β -> Prop where
  | leaf {atom atom'} : leaves atom atom' -> Corresponds leaves operands (.leaf atom) (.leaf atom')
  | map {inner inner' transform} : operands inner inner' ->
      Corresponds leaves operands (.map inner transform) (.map inner' transform)
  | update {inner inner' next} : operands inner inner' ->
      Corresponds leaves operands (.update inner next) (.update inner' next)
  | sequence {items items' gather} : List.Forall₂ operands items items' ->
      Corresponds leaves operands (.sequence items gather) (.sequence items' gather)
  | choice {alts alts'} : List.Forall₂ operands alts alts' ->
      Corresponds leaves operands (.choice alts) (.choice alts')
  | optional {inner inner' element} : operands inner inner' ->
      Corresponds leaves operands (.optional inner element) (.optional inner' element)
  | attempt {inner inner'} : operands inner inner' ->
      Corresponds leaves operands (.attempt inner) (.attempt inner')
  | lookahead {inner inner' look look' negative} : operands inner inner' ->
      operands look look' ->
      Corresponds leaves operands (.lookahead inner look negative)
        (.lookahead inner' look' negative)
  | repeated {inner inner' element min max} : operands inner inner' ->
      Corresponds leaves operands (.repeated inner element min max)
        (.repeated inner' element min max)
  | reference {name expected target target'} :
      Corresponds leaves operands (.reference name expected target)
        (.reference name expected target')
  | leftRecursion {inner inner'} : operands inner inner' ->
      Corresponds leaves operands (.leftRecursion inner) (.leftRecursion inner')

theorem Clause.eq_reference_of_isReference {L : Signature} {ρ α : Type} {clause : Clause L ρ α}
    (isReference : clause.isReference = true) :
    exists name expected target, clause = .reference name expected target := by
  cases clause with
  | reference name expected target => exact ⟨name, expected, target, rfl⟩
  | _ => cases isReference

/-- The same operator on the images of its operands. -/
def Clause.mapOperands {L : Signature} {ρ α β : Type} (f : α -> β) : Clause L ρ α -> Clause L ρ β
  | leaf atom => .leaf atom
  | map inner transform => .map (f inner) transform
  | update inner next => .update (f inner) next
  | sequence items gather => .sequence (items.map f) gather
  | choice alts => .choice (alts.map f)
  | optional inner element => .optional (f inner) element
  | attempt inner => .attempt (f inner)
  | lookahead inner look negative => .lookahead (f inner) (f look) negative
  | repeated inner element min max => .repeated (f inner) element min max
  | reference name expected target => .reference name expected (target.map f)
  | leftRecursion inner => .leftRecursion (f inner)

namespace Clause.Corresponds

variable {L : Signature} {ρ σ α β : Type}
variable {leaves : Leaf L ρ -> Leaf L σ -> Prop} {operands : α -> β -> Prop}

/-- A clause corresponds to itself if each of its operands does. -/
theorem same {operands : α -> α -> Prop} {clause : Clause L ρ α}
    (related : forall operand, operand ∈ clause.children -> operands operand operand) :
    Corresponds Eq operands clause clause := by
  have alone : forall inner : α, inner ∈ [inner] := fun inner => List.mem_singleton.mpr rfl
  cases clause with
  | leaf atom => exact .leaf rfl
  | map inner transform => exact .map (related inner (alone inner))
  | update inner next => exact .update (related inner (alone inner))
  | sequence items gather => exact .sequence (List.forall₂_same.mpr related)
  | choice alts => exact .choice (List.forall₂_same.mpr related)
  | optional inner element => exact .optional (related inner (alone inner))
  | attempt inner => exact .attempt (related inner (alone inner))
  | lookahead inner look negative =>
      exact .lookahead (related inner (List.mem_cons_self ..))
        (related look (List.mem_cons_of_mem _ (alone look)))
  | repeated inner element min max => exact .repeated (related inner (alone inner))
  | reference name expected target => exact .reference
  | leftRecursion inner => exact .leftRecursion (related inner (alone inner))

private theorem forall₂_imp {weaker : α -> β -> Prop} {items : List α} {items' : List β}
    (implies : forall operand operand', operand ∈ items -> operands operand operand' ->
      weaker operand operand')
    (related : List.Forall₂ operands items items') : List.Forall₂ weaker items items' := by
  induction related with
  | nil => exact .nil
  | cons first _ inductionHypothesis =>
      refine .cons (implies _ _ (List.mem_cons_self ..) first) (inductionHypothesis ?_)
      intro operand operand' member
      exact implies operand operand' (List.mem_cons_of_mem _ member)

/-- The operands may be related in a weaker way. -/
theorem imp {weaker : α -> β -> Prop} {clause : Clause L ρ α} {other : Clause L σ β}
    (corresponds : Corresponds leaves operands clause other)
    (implies : forall operand operand', operand ∈ clause.children ->
      operands operand operand' -> weaker operand operand') :
    Corresponds leaves weaker clause other := by
  have alone : forall inner : α, inner ∈ [inner] := fun inner => List.mem_singleton.mpr rfl
  cases corresponds with
  | leaf atoms => exact .leaf atoms
  | map inner => exact .map (implies _ _ (alone _) inner)
  | update inner => exact .update (implies _ _ (alone _) inner)
  | sequence items => exact .sequence (forall₂_imp implies items)
  | choice alts => exact .choice (forall₂_imp implies alts)
  | optional inner => exact .optional (implies _ _ (alone _) inner)
  | attempt inner => exact .attempt (implies _ _ (alone _) inner)
  | lookahead inner look =>
      exact .lookahead (implies _ _ (List.mem_cons_self ..) inner)
        (implies _ _ (List.mem_cons_of_mem _ (alone _)) look)
  | repeated inner => exact .repeated (implies _ _ (alone _) inner)
  | reference => exact .reference
  | leftRecursion inner => exact .leftRecursion (implies _ _ (alone _) inner)

/-- Renumbering the operands of the second clause. -/
theorem redirect {f : β -> β} {clause : Clause L ρ α} {other : Clause L σ β}
    (corresponds : Corresponds leaves (fun operand place => operands operand (f place))
      clause other) : Corresponds leaves operands clause (other.redirect f) := by
  have mapped : forall items items', List.Forall₂ (fun operand place => operands operand (f place))
      items items' -> List.Forall₂ operands items (items'.map f) := by
    intro items items' related
    exact List.forall₂_map_right_iff.mpr related
  cases corresponds with
  | leaf atoms => exact .leaf atoms
  | map inner => exact .map inner
  | update inner => exact .update inner
  | sequence items => exact .sequence (mapped _ _ items)
  | choice alts => exact .choice (mapped _ _ alts)
  | optional inner => exact .optional inner
  | attempt inner => exact .attempt inner
  | lookahead inner look => exact .lookahead inner look
  | repeated inner => exact .repeated inner
  | reference => exact .reference
  | leftRecursion inner => exact .leftRecursion inner

/-- The same with the sides exchanged. -/
theorem flip {clause : Clause L ρ α} {other : Clause L ρ β}
    (corresponds : Corresponds Eq operands clause other) :
    Corresponds Eq (fun second first => operands first second) other clause := by
  cases corresponds with
  | leaf atoms => exact .leaf atoms.symm
  | map inner => exact .map inner
  | update inner => exact .update inner
  | sequence items => exact .sequence items.flip
  | choice alts => exact .choice alts.flip
  | optional inner => exact .optional inner
  | attempt inner => exact .attempt inner
  | lookahead inner look => exact .lookahead inner look
  | repeated inner => exact .repeated inner
  | reference => exact .reference
  | leftRecursion inner => exact .leftRecursion inner

/-- An operator that corresponds to another along a function is its image. -/
theorem eq_mapOperands {f : α -> β} {clause : Clause L ρ α} {other : Clause L ρ β}
    (corresponds : Corresponds Eq (fun operand operand' => f operand = operand') clause other)
    (isOperator : clause.isReference = false) : other = clause.mapOperands f := by
  have images : forall (items : List α) (items' : List β),
      List.Forall₂ (fun operand operand' => f operand = operand') items items' ->
        items' = items.map f := by
    intro items items' related
    rw [<- List.forall₂_map_left_iff, List.forall₂_eq_eq_eq] at related
    exact related.symm
  cases corresponds with
  | leaf same => rw [same, mapOperands]
  | map inner => rw [<- inner, mapOperands]
  | update inner => rw [<- inner, mapOperands]
  | sequence items => rw [images _ _ items, mapOperands]
  | choice alts => rw [images _ _ alts, mapOperands]
  | optional inner => rw [<- inner, mapOperands]
  | attempt inner => rw [<- inner, mapOperands]
  | lookahead inner look => rw [<- inner, <- look, mapOperands]
  | repeated inner => rw [<- inner, mapOperands]
  | reference => cases isOperator
  | leftRecursion inner => rw [<- inner, mapOperands]

theorem isReference_eq {clause : Clause L ρ α} {other : Clause L σ β}
    (corresponds : Corresponds leaves operands clause other) :
    clause.isReference = other.isReference := by
  cases corresponds <;> rfl

/-- Operands of corresponding clauses are related one by one. -/
theorem children {clause : Clause L ρ α} {other : Clause L σ β}
    (corresponds : Corresponds leaves operands clause other) :
    List.Forall₂ operands clause.children other.children := by
  cases corresponds with
  | leaf _ => exact .nil
  | map inner => exact .cons inner .nil
  | update inner => exact .cons inner .nil
  | sequence items => exact items
  | choice alts => exact alts
  | optional inner => exact .cons inner .nil
  | attempt inner => exact .cons inner .nil
  | lookahead inner look => exact .cons inner (.cons look .nil)
  | repeated inner => exact .cons inner .nil
  | reference => exact .nil
  | leftRecursion inner => exact .cons inner .nil

end Clause.Corresponds
end SeedGrammar
