import SeedGrammar.Pattern.Cache
import SeedGrammar.Proofs.Pattern.Proper
import SeedGrammar.Proofs.Pattern.Threads

namespace SeedGrammar

/-!
# Where an anchor holds

A source is anchored by its text: it is put into a group, behind the start of the
text.  The source may close that group itself and open another one, since only the
whole text has to be well-formed.  What it puts in between stands beside the anchor.
As long as this is not a bar, the anchor comes first in the only branch that there
is, and the expression is anchored, `Pattern.compile?_framed`.

A bar that stands outside of all groups starts a branch without an anchor.
-/

/-- Whether a bar stands outside of all groups, when so many are open. -/
def PatternToken.barOutside : Nat -> List PatternToken -> Bool
  | _, [] => false
  | depth, .groupStart _ :: rest => barOutside (depth + 1) rest
  | depth, .groupEnd :: rest => barOutside (depth - 1) rest
  | depth, .bar :: rest => depth == 0 || barOutside depth rest
  | depth, _ :: rest => barOutside depth rest

/-- Whether a source has a bar that stands outside of all groups when the source is
anchored. -/
def Pattern.Splits (source : String) : Prop :=
  exists tokens, PatternScanner.tokens? (anchored source).toList = some tokens ∧
    PatternToken.barOutside 0 tokens = true

namespace PatternScanner

/-- A source that is anchored is read as the start of the text and a group that is
opened, and what comes after that. -/
theorem tokens?_anchored {source : String} {tokens : List PatternToken}
    (isRead : tokens? (Pattern.anchored source).toList = some tokens) :
    exists later, tokens = .operand (.assert .textStart) :: .groupStart none :: later ∧
      forall token, token ∈ later -> token.Proper := by
  have isText : (Pattern.anchored source).toList =
      '^' :: '(' :: '?' :: ':' :: (source.toList ++ [')']) := by
    rw [Pattern.anchored, String.toList_append, String.toList_append]
    rfl
  rw [tokens?, isText] at isRead
  have isRest : readTokens _ (initial.enter PatternFlags.initial)
      [.groupStart none, .operand (.assert .textStart)] (source.toList ++ [')']) =
      some tokens := isRead
  exact readTokens_proper isRest

end PatternScanner

namespace PatternTree

/-- Whether the outermost of the open groups begins with the start of the text, in the
only branch that there is.  If no other group is open something else has been read
since, so what is repeated is not the anchor. -/
inductive Begins : PatternGroup -> List PatternGroup -> Prop where
  | outermost {inner last} (before : List PatternTree) : inner.branches = [] ->
      inner.operands = last :: (before ++ [.assert .textStart]) -> Begins inner []
  | within {inner first} (middle : List PatternGroup) (later : List PatternTree) :
      first.branches = [] -> first.operands = later ++ [.assert .textStart] ->
      Begins inner (middle ++ [first])

/-- Reading keeps the anchor where it is, unless it comes to a bar outside of all
other groups. -/
theorem takeToken_begins {inner inner' : PatternGroup} {outer outer' : List PatternGroup}
    {token : PatternToken} (begins : Begins inner outer)
    (taken : takeToken inner outer token = some (inner', outer'))
    (grouped : token = .bar -> outer ≠ []) : Begins inner' outer' := by
  cases begins with
  | outermost before noBranch isFirst =>
      have pushed : forall operand, Begins (inner.push operand) [] :=
        fun operand => .outermost (_ :: before) noBranch (congrArg (operand :: ·) isFirst)
      cases token with
      | operand tree =>
          cases taken
          exact pushed tree
      | groupStart index =>
          cases taken
          exact .within [] (_ :: before) noBranch isFirst
      | groupEnd => cases taken
      | bar => exact absurd rfl (grouped rfl)
      | times bounds greedy =>
          rcases Option.map_eq_some_iff.mp taken with ⟨after, isRepeated, same⟩
          cases same
          rcases PatternGroup.repeatLast?_some isRepeated with ⟨last, _, areOperands, rfl⟩
          cases areOperands.symm.trans isFirst
          exact .outermost before noBranch rfl
      | flagChange =>
          cases taken
          exact pushed .flagChange
  | within middle later noBranch isFirst =>
      cases token with
      | groupEnd =>
          cases middle with
          | nil =>
              cases taken
              exact .outermost later noBranch (congrArg (_ :: ·) isFirst)
          | cons parent middle =>
              cases taken
              exact .within middle later noBranch isFirst
      | groupStart index =>
          cases taken
          exact .within (_ :: middle) later noBranch isFirst
      | times bounds greedy =>
          rcases Option.map_eq_some_iff.mp taken with ⟨after, isRepeated, same⟩
          cases same
          exact .within middle later noBranch isFirst
      | _ =>
          cases taken
          exact .within middle later noBranch isFirst

/-- A group with one branch that begins with the start of the text is anchored. -/
theorem Begins.body_isAnchored {inner : PatternGroup} (begins : Begins inner []) :
    inner.body.toPattern.isAnchored = true := by
  generalize isOuter : ([] : List PatternGroup) = outer at begins
  cases begins with
  | within middle later noBranch isFirst =>
      exact absurd isOuter.symm (List.append_ne_nil_of_right_ne_nil _ (List.cons_ne_nil _ _))
  | @outermost last before noBranch isFirst =>
      have isReversed : (last :: (before ++ [.assert .textStart])).reverse =
          .assert .textStart :: (before.reverse ++ [last]) := by
        rw [List.reverse_cons, List.reverse_append]
        rfl
      have isBody : inner.body = .seq (.assert .textStart :: (before.reverse ++ [last])) := by
        rw [PatternGroup.body, PatternGroup.branch, noBranch, isFirst, isReversed]
        cases isRest : before.reverse ++ [last] with
        | nil => exact absurd isRest (List.append_ne_nil_of_right_ne_nil _ (List.cons_ne_nil _ _))
        | cons second rest => rfl
      have isPattern : inner.body.toPattern =
          .sequence (.assert .textStart :: toPatterns (before.reverse ++ [last])) := by
        rw [isBody]
        rfl
      rw [isPattern]
      cases toPatterns (before.reverse ++ [last]) with
      | nil => rfl
      | cons second rest => rfl

/-- The open groups are as many as there are around what follows. -/
theorem takeToken_grouped {inner inner' : PatternGroup} {outer outer' : List PatternGroup}
    {token : PatternToken} {rest : List PatternToken}
    (taken : takeToken inner outer token = some (inner', outer'))
    (grouped : PatternToken.barOutside outer.length (token :: rest) = false) :
    (token = .bar -> outer ≠ []) ∧ PatternToken.barOutside outer'.length rest = false := by
  cases token with
  | groupEnd =>
      cases outer with
      | nil => cases taken
      | cons parent outer =>
          cases taken
          refine ⟨?_, grouped⟩
          intro isBar
          cases isBar
  | bar =>
      cases taken
      rw [PatternToken.barOutside, Bool.or_eq_false_iff] at grouped
      refine ⟨?_, grouped.2⟩
      rintro _ rfl
      cases grouped.1
  | times bounds greedy =>
      rcases Option.map_eq_some_iff.mp taken with ⟨after, _, same⟩
      cases same
      refine ⟨?_, grouped⟩
      intro isBar
      cases isBar
  | _ =>
      cases taken
      refine ⟨?_, grouped⟩
      intro isBar
      cases isBar

/-- Without a bar outside of all groups the anchor holds for everything. -/
theorem ofTokens?_isAnchored {inner : PatternGroup} {outer : List PatternGroup}
    {tokens : List PatternToken} {tree : PatternTree} (begins : Begins inner outer)
    (grouped : PatternToken.barOutside outer.length tokens = false)
    (isTree : ofTokens? inner outer tokens = some tree) : tree.toPattern.isAnchored = true := by
  induction tokens generalizing inner outer with
  | nil =>
      cases outer with
      | nil =>
          cases isTree
          exact begins.body_isAnchored
      | cons parent outer => cases isTree
  | cons token rest inductionHypothesis =>
      rcases ofTokens?_cons isTree with ⟨inner', outer', taken, restTree⟩
      have later := takeToken_grouped taken grouped
      exact inductionHypothesis (takeToken_begins begins taken later.1) later.2 restTree

end PatternTree

/-- The matches of a source are those of a program that is framed by the marks of the
whole match.  It is anchored unless the source has a bar outside of all groups. -/
theorem Pattern.compile?_framed {source : String} {program : PatternProgram}
    (compiled : compile? source = some program) : exists assembled : AssembledProgram,
      program = ⟨assembled.find?⟩ ∧ assembled.Framed ∧
        (assembled.anchored = true ∨ Splits source) := by
  rcases Option.map_eq_some_iff.mp compiled with ⟨pattern, isPattern, rfl⟩
  rcases Option.map_eq_some_iff.mp isPattern with ⟨tree, isAdmissible, rfl⟩
  have isText := (Option.filter_eq_some_iff.mp isAdmissible).1
  rcases Option.bind_eq_some_iff.mp isText with ⟨tokens, areTokens, isTree⟩
  rcases PatternScanner.tokens?_anchored areTokens with ⟨later, rfl, proper⟩
  let first : PatternGroup := ⟨none, [], [.assert .textStart]⟩
  have restTree : PatternTree.ofTokens? (.opened none) [first] later = some tree := isTree
  refine ⟨tree.toPattern.assembled, rfl, ?_, ?_⟩
  · apply assembled_framed
    apply Pattern.Proper.numbered
    apply PatternTree.ofTokens?_proper proper _ restTree
    have opened : (PatternGroup.opened none).Proper := by
      apply PatternGroup.opened_proper
      intro number isNumber
      cases isNumber
    have isFirst : first.Proper := opened.push trivial
    exact List.forall_mem_cons.mpr ⟨opened, List.forall_mem_singleton.mpr isFirst⟩
  · cases splits : PatternToken.barOutside 1 later with
    | true => exact Or.inr ⟨_, areTokens, splits⟩
    | false =>
        left
        exact PatternTree.ofTokens?_isAnchored (.within [] [] rfl rfl) splits restTree

end SeedGrammar
