import SeedGrammar.Pattern.Reader
import SeedGrammar.Proofs.Pattern.Layout

namespace SeedGrammar

/-!
# Proper expressions

What is read of a text is more than some expression: groups are numbered from one on,
so none of them has the number of the whole match, and the bounds of each repetition are
in order.  Both hold of the tokens that are read, `PatternScanner.readTokens_proper`, and
are kept as the tokens are put together, `PatternTree.ofTokens?_proper`.
-/

/-- Whether the least number of repetitions is within the greatest. -/
def RepeatBounds.InOrder (bounds : RepeatBounds) : Prop :=
  forall max, bounds.max = some max -> bounds.min ≤ max

/-- Bounds in order are still in order if nothing is repeated more than once. -/
theorem RepeatBounds.InOrder.capped {bounds : RepeatBounds} (inOrder : bounds.InOrder)
    (zeroWidth : Bool) : (bounds.capped zeroWidth).InOrder := by
  cases zeroWidth with
  | false => exact inOrder
  | true =>
      rcases bounds with ⟨min, max⟩
      rintro most isMost
      cases max with
      | none =>
          cases isMost
          exact Nat.min_le_right min 1
      | some max =>
          cases isMost
          exact Nat.le_min.mpr ⟨Nat.le_trans (Nat.min_le_left min 1) (inOrder max rfl),
            Nat.min_le_right min 1⟩

namespace Pattern

/-- Whether no group has the number of the whole match, and all bounds are in order. -/
def Proper : Pattern -> Prop
  | empty => True
  | one _ => True
  | assert _ => True
  | group index body => 0 < index ∧ body.Proper
  | seq first second => first.Proper ∧ second.Proper
  | alt first second => first.Proper ∧ second.Proper
  | times bounds _ body => bounds.InOrder ∧ body.Proper

theorem Proper.numbered {pattern : Pattern} (proper : pattern.Proper) : pattern.Numbered := by
  induction pattern with
  | empty => trivial
  | one set => trivial
  | assert assertion => trivial
  | group index body inductionHypothesis => exact ⟨proper.1, inductionHypothesis proper.2⟩
  | seq first second firstHypothesis secondHypothesis =>
      exact ⟨firstHypothesis proper.1, secondHypothesis proper.2⟩
  | alt first second firstHypothesis secondHypothesis =>
      exact ⟨firstHypothesis proper.1, secondHypothesis proper.2⟩
  | times bounds greedy body inductionHypothesis => exact inductionHypothesis proper.2

end Pattern

/-! ## Tokens -/

/-- Whether a token neither numbers a group as the whole match is numbered nor repeats
within bounds that are not in order. -/
def PatternToken.Proper : PatternToken -> Prop
  | operand tree => tree.toPattern.Proper
  | groupStart index => forall number, index = some number -> 0 < number
  | times bounds _ => bounds.InOrder
  | _ => True

namespace PatternScanner

/-- Whether a token that is read is proper. -/
def ReadsProper (read : Option (PatternToken × PatternScanner × List Char)) : Prop :=
  forall token after rest, read = some (token, after, rest) -> token.Proper

theorem readsProper_none : ReadsProper none := by
  intro token after rest isRead
  cases isRead

theorem readsProper_some {read : PatternToken × PatternScanner × List Char}
    (proper : read.1.Proper) : ReadsProper (some read) := by
  intro token after rest isRead
  cases isRead
  exact proper

variable {scanner : PatternScanner}

theorem enterNumbered_proper (scanner : PatternScanner) : scanner.enterNumbered.1.Proper := by
  intro number isNumber
  cases isNumber
  exact Nat.succ_pos _

theorem readNamedGroup_proper (chars : List Char) :
    ReadsProper (scanner.readNamedGroup chars) := by
  rw [readNamedGroup]
  split
  · exact readsProper_none
  · split
    · exact readsProper_some scanner.enterNumbered_proper
    · exact readsProper_none

theorem readFlagGroup_proper (chars : List Char) :
    ReadsProper (scanner.readFlagGroup chars) := by
  rw [readFlagGroup]
  split
  · apply readsProper_some
    intro number isNumber
    cases isNumber
  · split
    · exact readsProper_none
    · exact readsProper_some trivial
  · exact readsProper_none

theorem readGroup_proper (chars : List Char) : ReadsProper (scanner.readGroup chars) := by
  rw [readGroup]
  split
  case _ => exact readsProper_none
  case _ => exact readsProper_none
  case _ => exact readsProper_none
  case _ => exact readsProper_none
  case _ => exact readNamedGroup_proper _
  case _ => exact readNamedGroup_proper _
  case _ => exact readFlagGroup_proper _
  case _ => exact readsProper_some scanner.enterNumbered_proper

theorem readGreed_proper (scanner : PatternScanner) {bounds : RepeatBounds} (inOrder : bounds.InOrder)
    (chars : List Char) : ReadsProper (some (scanner.readGreed bounds chars)) := by
  rw [readGreed.eq_def]
  split
  · exact readsProper_some inOrder
  · exact readsProper_some inOrder

theorem unbounded_inOrder (min : Nat) : RepeatBounds.InOrder ⟨min, none⟩ := by
  rintro max ⟨⟩

theorem bounded_inOrder {min max : Nat} (ordered : min ≤ max) : RepeatBounds.InOrder ⟨min, some max⟩ := by
  rintro most ⟨⟩
  exact ordered

theorem readCounted_proper (chars : List Char) : ReadsProper (scanner.readCounted chars) := by
  rw [readCounted.eq_def]
  dsimp only
  split
  · exact readsProper_none
  · split
    · exact readGreed_proper _ (bounded_inOrder (Nat.le_refl _)) _
    · split
      · exact readGreed_proper _ (unbounded_inOrder _) _
      · split
        · split
          · exact readGreed_proper _ (bounded_inOrder ‹_›) _
          · exact readsProper_none
        · exact readsProper_none
    · exact readsProper_none

theorem simple_proper (flags : PatternFlags) (escape : PatternEscape) :
    (simple flags escape).toPattern.Proper := by
  cases escape <;> trivial

theorem readsProper_ite {condition : Prop} [Decidable condition]
    {first second : Option (PatternToken × PatternScanner × List Char)}
    (yes : ReadsProper first) (no : ReadsProper second) :
    ReadsProper (if condition then first else second) := by
  split
  · exact yes
  · exact no

theorem readsProper_map {α : Type} {read : Option α}
    {finish : α -> PatternToken × PatternScanner × List Char}
    (proper : forall result, (finish result).1.Proper) : ReadsProper (read.map finish) := by
  cases read with
  | none => exact readsProper_none
  | some result => exact readsProper_some (proper result)

theorem readToken_proper (scanner : PatternScanner) (c : Char) (rest : List Char) :
    ReadsProper (scanner.readToken c rest) := by
  rw [readToken]
  apply readsProper_ite
  · exact readGroup_proper rest
  apply readsProper_ite
  · split
    · exact readsProper_none
    · exact readsProper_some trivial
  apply readsProper_ite
  · exact readsProper_some trivial
  apply readsProper_ite
  · exact readsProper_map fun _ => trivial
  apply readsProper_ite
  · exact readGreed_proper _ (bounded_inOrder (Nat.zero_le 1)) _
  apply readsProper_ite
  · exact readGreed_proper _ (unbounded_inOrder 0) _
  apply readsProper_ite
  · exact readGreed_proper _ (unbounded_inOrder 1) _
  apply readsProper_ite
  · exact readCounted_proper rest
  apply readsProper_ite
  · exact readsProper_map fun _ => simple_proper _ _
  apply readsProper_ite
  · exact readsProper_some trivial
  apply readsProper_ite
  · exact readsProper_some trivial
  apply readsProper_ite
  · exact readsProper_some trivial
  · exact readsProper_some (simple_proper _ _)

/-- Reading goes on from the tokens that have been read, and all that follow are
proper. -/
theorem readTokens_proper {fuel : Nat} {before tokens : List PatternToken} {chars : List Char}
    (isRead : readTokens fuel scanner before chars = some tokens) :
    exists later, tokens = before.reverse ++ later ∧
      forall token, token ∈ later -> token.Proper := by
  induction fuel generalizing scanner before chars with
  | zero => cases isRead
  | succ fuel inductionHypothesis =>
      rw [readTokens] at isRead
      split at isRead
      · cases isRead
        refine ⟨[], (List.append_nil _).symm, ?_⟩
        intro token member
        cases member
      · rename_i c rest _
        cases next : scanner.readToken c rest with
        | none =>
            rw [next] at isRead
            cases isRead
        | some result =>
            rcases result with ⟨token, after, rest'⟩
            rw [next] at isRead
            rcases inductionHypothesis isRead with ⟨later, isTokens, proper⟩
            refine ⟨token :: later, ?_, ?_⟩
            · rw [isTokens, List.reverse_cons, List.append_assoc]
              rfl
            · intro other member
              rcases List.mem_cons.mp member with own | isLater
              · rw [own]
                exact scanner.readToken_proper c rest token after rest' next
              · exact proper other isLater

end PatternScanner

namespace Pattern

theorem sequence_proper {patterns : List Pattern}
    (proper : forall pattern, pattern ∈ patterns -> pattern.Proper) :
    (sequence patterns).Proper := by
  induction patterns with
  | nil => trivial
  | cons first rest inductionHypothesis =>
      rcases List.forall_mem_cons.mp proper with ⟨firstProper, restProper⟩
      cases rest with
      | nil => exact firstProper
      | cons second rest => exact ⟨firstProper, inductionHypothesis restProper⟩

theorem choice_proper {patterns : List Pattern}
    (proper : forall pattern, pattern ∈ patterns -> pattern.Proper) :
    (choice patterns).Proper := by
  induction patterns with
  | nil => trivial
  | cons first rest inductionHypothesis =>
      rcases List.forall_mem_cons.mp proper with ⟨firstProper, restProper⟩
      cases rest with
      | nil => exact firstProper
      | cons second rest => exact ⟨firstProper, inductionHypothesis restProper⟩

theorem repeated_proper {bounds : RepeatBounds} {greedy : Bool} {body : Pattern}
    (inOrder : bounds.InOrder) (proper : body.Proper) : (repeated bounds greedy body).Proper := by
  rw [repeated]
  split
  · trivial
  · split
    · exact proper
    · exact ⟨inOrder.capped _, proper⟩

end Pattern

namespace PatternTree

/-- Whether all expressions of some trees are proper. -/
def AllProper (trees : List PatternTree) : Prop :=
  forall tree, tree ∈ trees -> tree.toPattern.Proper

theorem toPatterns_proper {trees : List PatternTree} (proper : AllProper trees) :
    forall pattern, pattern ∈ toPatterns trees -> pattern.Proper := by
  induction trees with
  | nil =>
      intro pattern member
      cases member
  | cons first rest inductionHypothesis =>
      rcases List.forall_mem_cons.mp proper with ⟨firstProper, restProper⟩
      have later := inductionHypothesis restProper
      cases first with
      | flagChange => exact later
      | _ => exact List.forall_mem_cons.mpr ⟨firstProper, later⟩

theorem sequence_proper {trees : List PatternTree} (proper : AllProper trees) :
    (sequence trees).toPattern.Proper := by
  rw [sequence.eq_def]
  split
  · exact proper _ List.mem_cons_self
  · exact Pattern.sequence_proper (toPatterns_proper proper)

theorem choice_proper {trees : List PatternTree} (proper : AllProper trees) :
    (choice trees).toPattern.Proper := by
  rw [choice.eq_def]
  split
  · exact proper _ List.mem_cons_self
  · exact Pattern.choice_proper (toPatterns_proper proper)

end PatternTree

namespace PatternGroup

open PatternTree

/-- Whether an open group does not have the number of the whole match, and what has been
read of it is proper. -/
structure Proper (group : PatternGroup) : Prop where
  index : forall number, group.index = some number -> 0 < number
  branches : AllProper group.branches
  operands : AllProper group.operands

variable {group : PatternGroup}

theorem opened_proper {index : Option Nat}
    (isProper : forall number, index = some number -> 0 < number) :
    (PatternGroup.opened index).Proper where
  index := isProper
  branches := List.forall_mem_nil _
  operands := List.forall_mem_nil _

theorem Proper.push (proper : group.Proper) {operand : PatternTree}
    (isProper : operand.toPattern.Proper) : (group.push operand).Proper where
  index := proper.index
  branches := proper.branches
  operands := List.forall_mem_cons.mpr ⟨isProper, proper.operands⟩

theorem Proper.branch (proper : group.Proper) : group.branch.toPattern.Proper := by
  apply PatternTree.sequence_proper
  intro tree member
  exact proper.operands tree (List.mem_reverse.mp member)

theorem Proper.body (proper : group.Proper) : group.body.toPattern.Proper := by
  apply PatternTree.choice_proper
  intro tree member
  rcases List.mem_cons.mp (List.mem_reverse.mp member) with own | earlier
  · rw [own]
    exact proper.branch
  · exact proper.branches tree earlier

theorem Proper.nextBranch (proper : group.Proper) : group.nextBranch.Proper where
  index := proper.index
  branches := List.forall_mem_cons.mpr ⟨proper.branch, proper.branches⟩
  operands := List.forall_mem_nil _

theorem Proper.closed (proper : group.Proper) :
    (PatternTree.group group.index group.body).toPattern.Proper := by
  cases isIndex : group.index with
  | none => exact proper.body
  | some number => exact ⟨proper.index number isIndex, proper.body⟩

/-- A repetition takes the place of the last operand. -/
theorem repeatLast?_some {after : PatternGroup} {bounds : RepeatBounds} {greedy : Bool}
    (isRepeated : group.repeatLast? bounds greedy = some after) :
    exists last before, group.operands = last :: before ∧
      after = ⟨group.index, group.branches, .times bounds greedy last :: before⟩ := by
  rcases group with ⟨index, branches, operands⟩
  cases operands with
  | nil => cases isRepeated
  | cons last before =>
      refine ⟨last, before, rfl, ?_⟩
      cases last with
      | flagChange => cases isRepeated
      | _ => exact (Option.some.inj isRepeated).symm

theorem Proper.repeatLast? (proper : group.Proper) {bounds : RepeatBounds} {greedy : Bool}
    {after : PatternGroup} (inOrder : bounds.InOrder)
    (isRepeated : group.repeatLast? bounds greedy = some after) :
    after.Proper := by
  rcases repeatLast?_some isRepeated with ⟨last, before, areOperands, rfl⟩
  have operands := proper.operands
  rw [areOperands] at operands
  rcases List.forall_mem_cons.mp operands with ⟨lastProper, beforeProper⟩
  exact ⟨proper.index, proper.branches,
    List.forall_mem_cons.mpr ⟨Pattern.repeated_proper inOrder lastProper, beforeProper⟩⟩

end PatternGroup

namespace PatternTree

/-- Tokens that are proper keep open groups proper. -/
theorem takeToken_proper {inner inner' : PatternGroup} {outer outer' : List PatternGroup}
    {token : PatternToken} (isProper : token.Proper)
    (proper : forall group, group ∈ inner :: outer -> group.Proper)
    (taken : takeToken inner outer token = some (inner', outer')) :
    forall group, group ∈ inner' :: outer' -> group.Proper := by
  rcases List.forall_mem_cons.mp proper with ⟨innerProper, outerProper⟩
  cases token with
  | operand tree =>
      cases taken
      exact List.forall_mem_cons.mpr ⟨innerProper.push isProper, outerProper⟩
  | groupStart index =>
      cases taken
      exact List.forall_mem_cons.mpr ⟨PatternGroup.opened_proper isProper, proper⟩
  | groupEnd =>
      cases outer with
      | nil => cases taken
      | cons parent outer =>
          cases taken
          rcases List.forall_mem_cons.mp outerProper with ⟨parentProper, restProper⟩
          exact List.forall_mem_cons.mpr ⟨parentProper.push innerProper.closed, restProper⟩
  | bar =>
      cases taken
      exact List.forall_mem_cons.mpr ⟨innerProper.nextBranch, outerProper⟩
  | times bounds greedy =>
      rcases Option.map_eq_some_iff.mp taken with ⟨after, isRepeated, same⟩
      cases same
      exact List.forall_mem_cons.mpr ⟨innerProper.repeatLast? isProper isRepeated, outerProper⟩
  | flagChange =>
      cases taken
      exact List.forall_mem_cons.mpr ⟨innerProper.push trivial, outerProper⟩

/-- If tokens can be read, the first can be taken and the others read. -/
theorem ofTokens?_cons {inner : PatternGroup} {outer : List PatternGroup} {token : PatternToken}
    {rest : List PatternToken} {tree : PatternTree}
    (isTree : ofTokens? inner outer (token :: rest) = some tree) :
    exists inner' outer', takeToken inner outer token = some (inner', outer') ∧
      ofTokens? inner' outer' rest = some tree := by
  rw [ofTokens?] at isTree
  cases taken : takeToken inner outer token with
  | none =>
      rw [taken] at isTree
      cases isTree
  | some groups =>
      rw [taken] at isTree
      exact ⟨groups.1, groups.2, rfl, isTree⟩

theorem ofTokens?_proper {inner : PatternGroup} {outer : List PatternGroup}
    {tokens : List PatternToken} {tree : PatternTree}
    (areProper : forall token, token ∈ tokens -> token.Proper)
    (proper : forall group, group ∈ inner :: outer -> group.Proper)
    (isTree : ofTokens? inner outer tokens = some tree) : tree.toPattern.Proper := by
  induction tokens generalizing inner outer with
  | nil =>
      cases outer with
      | nil =>
          cases isTree
          exact (proper inner List.mem_cons_self).body
      | cons parent outer => cases isTree
  | cons token rest inductionHypothesis =>
      rcases List.forall_mem_cons.mp areProper with ⟨isProper, restProper⟩
      rcases ofTokens?_cons isTree with ⟨inner', outer', taken, restTree⟩
      exact inductionHypothesis restProper (takeToken_proper isProper proper taken) restTree

end PatternTree
end SeedGrammar
