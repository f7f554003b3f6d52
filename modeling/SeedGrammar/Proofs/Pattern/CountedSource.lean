import SeedGrammar.Parser
import SeedGrammar.Proofs.Pattern.Anchoring
import SeedGrammar.Proofs.Pattern.ClassText
import SeedGrammar.Proofs.Pattern.Repetition

namespace SeedGrammar

/-!
# The source of a counted repetition

A source is repeated by its text: it is put into a group, and the bounds are written
behind.  The bounds are read as they were written, or else the source is refused,
`PatternScanner.readTokens_counted`.  A class that is written inside is read as its set,
so the expression is a repetition of this set behind the anchor,
`Pattern.compile?_repeatedClass`.
-/

namespace PatternScanner

open Text

variable {scanner after : PatternScanner} {before tokens : List PatternToken} {chars rest : List Char}

/-- Reading that succeeds has read the token that comes next. -/
theorem readTokens_next {fuel : Nat} {c : Char}
    (isRead : readTokens fuel scanner before chars = some tokens)
    (isNext : scanner.flags.skip chars = c :: rest) :
    exists token after rest' fuel', scanner.readToken c rest = some (token, after, rest') ∧
      readTokens fuel' after (token :: before) rest' = some tokens := by
  cases fuel with
  | zero => cases isRead
  | succ fuel =>
      rw [readTokens, isNext] at isRead
      cases next : scanner.readToken c rest with
      | none =>
          simp only [next] at isRead
          cases isRead
      | some result =>
          rcases result with ⟨token, after, rest'⟩
          simp only [next] at isRead
          exact ⟨token, after, rest', fuel, rfl, isRead⟩

/-- What ends a number in the bounds of a repetition. -/
def EndsNumber (c : Char) : Prop :=
  isDecimalDigit c = false ∧ Unicode.isBlank c = false

theorem readDigits_decimal {digits : List Char} (areDigits : forall c, c ∈ digits -> isDecimalDigit c = true)
    {next : Char} (ends : EndsNumber next) (rest : List Char) {fuel : Nat}
    (enough : digits.length < fuel) :
    readDigits PatternFlags.initial fuel (digits ++ next :: rest) = (digits, next :: rest) := by
  induction digits generalizing fuel with
  | nil =>
      rcases Nat.exists_eq_add_one_of_ne_zero (Nat.ne_of_gt enough) with ⟨fuel, rfl⟩
      rw [List.nil_append, readDigits, ends.1]
      rfl
  | cons c digits inductionHypothesis =>
      rcases Nat.exists_eq_add_one_of_ne_zero (Nat.ne_zero_of_lt enough) with ⟨fuel, rfl⟩
      rcases List.forall_mem_cons.mp areDigits with ⟨isDigit, others⟩
      rw [List.cons_append, readDigits, if_pos isDigit, PatternFlags.skip_initial,
        inductionHypothesis others (Nat.lt_of_succ_lt_succ enough)]

theorem decimal_noBlank {n : Nat} {c : Char} (member : c ∈ Nat.toDigits 10 n) :
    Unicode.isBlank c = false := by
  rcases exists_digit (by decide) member with ⟨digit, less, rfl⟩
  clear member
  revert digit
  decide

/-- A number in the bounds of a repetition is read as it was written, if it is read. -/
theorem readCount_decimal {n : Nat} {next : Char} (ends : EndsNumber next) {rest : List Char}
    {read : Nat × List Char}
    (isRead : readCount PatternFlags.initial ((decimal n).toList ++ next :: rest) = some read) :
    read = (n, next :: rest) := by
  have isText : (decimal n).toList = Nat.toDigits 10 n := String.toList_ofList
  rcases List.exists_cons_of_ne_nil (Nat.toDigits_ne_nil (n := n) (b := 10)) with
    ⟨first, later, isFirst⟩
  have startsPlain : Unicode.isBlank first = false :=
    decimal_noBlank (n := n) (isFirst ▸ List.mem_cons_self)
  have isStart : (Nat.toDigits 10 n ++ next :: rest).dropWhile Unicode.isBlank =
      Nat.toDigits 10 n ++ next :: rest := by
    rw [isFirst, List.cons_append,
      List.dropWhile_cons_of_neg (by rw [startsPlain]; exact Bool.false_ne_true)]
  have enough : (Nat.toDigits 10 n).length < (Nat.toDigits 10 n ++ next :: rest).length + 1 := by
    rw [List.length_append]
    omega
  have notEmpty : (Nat.toDigits 10 n).isEmpty = false := by
    rw [isFirst]
    rfl
  have isEnd : (next :: rest).dropWhile Unicode.isBlank = next :: rest :=
    List.dropWhile_cons_of_neg (by rw [ends.2]; exact Bool.false_ne_true)
  have digits := readDigits_decimal (fun c => isDecimalDigit_of_mem (n := n)) ends rest enough
  rw [isText, readCount, isStart] at isRead
  dsimp only at isRead
  rw [digits] at isRead
  simp only [notEmpty, Bool.false_eq_true, if_false, ofDecimal?_toDigits] at isRead
  split at isRead
  · rw [isEnd] at isRead
    exact (Option.some.inj isRead).symm
  · cases isRead

theorem decimal_ne_brace (n : Nat) (chars rest : List Char) :
    (decimal n).toList ++ chars ≠ '\x7d' :: rest := by
  intro same
  rw [decimal, String.toList_ofList] at same
  rcases List.exists_cons_of_ne_nil (Nat.toDigits_ne_nil (n := n) (b := 10)) with
    ⟨first, later, isFirst⟩
  have isDigit := isDecimalDigit_of_mem (n := n) (isFirst ▸ List.mem_cons_self)
  rw [isFirst, List.cons_append] at same
  cases same
  cases isDigit

/-- The upper bound of a repetition as it is written. -/
def maxText : Option Nat -> List Char
  | some max => (decimal max).toList
  | none => []

/-- The bounds of a repetition are read as they were written, if they are read. -/
theorem readCounted_bounds {min : Nat} {max : Option Nat}
    {read : PatternToken × PatternScanner × List Char} (isInitial : scanner.flags = .initial)
    (isRead : scanner.readCounted ((decimal min).toList ++ ',' :: (maxText max ++ '\x7d' :: rest)) =
      some read) : read = scanner.readGreed ⟨min, max⟩ rest := by
  have comma : EndsNumber ',' := ⟨by decide, by decide⟩
  have brace : EndsNumber '\x7d' := ⟨by decide, by decide⟩
  rw [readCounted.eq_def] at isRead
  dsimp only at isRead
  simp only [isInitial, PatternFlags.skip_initial] at isRead
  split at isRead
  · cases isRead
  · rename_i least rest' isLeast
    cases readCount_decimal comma isLeast
    simp only at isRead
    cases max with
    | none =>
        simp only [maxText, List.nil_append] at isRead
        exact (Option.some.inj isRead).symm
    | some max =>
        split at isRead
        · rename_i isBrace
          exact absurd isBrace (decimal_ne_brace max _ _)
        · split at isRead
          · rename_i most rest' isMost
            cases readCount_decimal brace isMost
            split at isRead
            · exact (Option.some.inj isRead).symm
            · cases isRead
          · cases isRead

/-- Nothing is ignored in front of a character that is neither blank nor the sign of a
comment. -/
theorem skip_plain (flags : PatternFlags) {c : Char} (noBlank : Unicode.isBlank c = false)
    (noComment : c ≠ '#') (rest : List Char) : flags.skip (c :: rest) = c :: rest := by
  rw [PatternFlags.skip]
  split
  · rw [PatternFlags.dropComments, noBlank, if_neg Bool.false_ne_true, if_neg noComment]
  · rfl

theorem readToken_close {flags : PatternFlags} {outer : List PatternFlags}
    (areOuter : scanner.outer = flags :: outer) (rest : List Char) :
    scanner.readToken ')' rest =
      some (.groupEnd, { scanner with flags := flags, outer := outer }, rest) := by
  rw [readToken, if_neg (by decide), if_pos rfl, areOuter]

theorem readToken_bracket (scanner : PatternScanner) (rest : List Char) :
    scanner.readToken '[' rest = (Bracket.read scanner.flags rest).map fun (closed, rest) =>
      (.operand (.element closed.set closed.nesting), scanner, rest) := by
  simp only [readToken, Char.reduceEq, if_true, if_false]

theorem readToken_counted (scanner : PatternScanner) (rest : List Char) :
    scanner.readToken '\x7b' rest = scanner.readCounted rest := by
  simp only [readToken, Char.reduceEq, if_true, if_false]

/-- What follows the source of a counted repetition is read as the end of its group, the
repetition, and the end of the group that it is wrapped into. -/
theorem readTokens_counted {fuel : Nat} {min : Nat} {max : Option Nat}
    (areOuter : scanner.outer = [.initial, .initial])
    (isRead : readTokens fuel scanner before (')' :: '\x7b' :: ((decimal min).toList ++ ',' ::
      (maxText max ++ '\x7d' :: [')']))) = some tokens) :
    tokens = before.reverse ++ [.groupEnd, .times ⟨min, max⟩ true, .groupEnd] := by
  -- The end of the group of the source.
  rcases readTokens_next isRead (skip_plain _ (by decide) (by decide) _) with
    ⟨_, _, _, fuel, isToken, isRead⟩
  cases (readToken_close areOuter _).symm.trans isToken
  -- The bounds.
  rcases readTokens_next isRead (skip_plain _ (by decide) (by decide) _) with
    ⟨_, _, _, fuel, isToken, isRead⟩
  rw [readToken_counted] at isToken
  cases readCounted_bounds rfl isToken
  -- The end of the group around.
  rcases readTokens_next isRead (skip_plain _ (by decide) (by decide) _) with
    ⟨_, _, _, fuel, isToken, isRead⟩
  cases (readToken_close rfl _).symm.trans isToken
  cases fuel with
  | zero => cases isRead
  | succ fuel =>
      have isRead : some _ = some tokens := isRead
      rw [<- Option.some.inj isRead]
      simp [PatternFlags.initial]

end PatternScanner

open Text in
/-- The text of a counted repetition behind an anchor. -/
theorem Parser.toList_repeatedSource (source : String) (min : Nat) (max : Option Nat) :
    (Pattern.anchored (Parser.repeatedSource source min max)).toList =
      '^' :: '(' :: '?' :: ':' :: '(' :: '?' :: ':' :: (source.toList ++ ')' :: '\x7b' ::
        ((decimal min).toList ++ ',' :: (PatternScanner.maxText max ++ '\x7d' :: [')']))) := by
  cases max <;>
    simp [Pattern.anchored, Parser.repeatedSource, String.toList_append, PatternScanner.maxText]

namespace Pattern

/-- What is built of a text is the program of the expression that its tokens stand
for. -/
theorem compile?_eq_some {source : String} {program : PatternProgram}
    (compiled : compile? source = some program) : exists tokens tree,
      PatternScanner.tokens? (anchored source).toList = some tokens ∧
        PatternTree.ofTokens? (.opened none) [] tokens = some tree ∧
        program = tree.toPattern.toProgram := by
  rcases Option.map_eq_some_iff.mp compiled with ⟨pattern, isPattern, rfl⟩
  rcases Option.map_eq_some_iff.mp isPattern with ⟨tree, isAdmissible, rfl⟩
  have isText := (Option.filter_eq_some_iff.mp isAdmissible).1
  rcases Option.bind_eq_some_iff.mp isText with ⟨tokens, areTokens, isTree⟩
  exact ⟨tokens, tree, areTokens, isTree, rfl⟩

/-- The counted repetition of the class of a set is a repetition of the set behind an
anchor. -/
theorem compile?_repeatedClass {set : CharSet} (normal : set.ranges.Normal) {min : Nat}
    {max : Option Nat} {program : PatternProgram}
    (compiled : compile? (Parser.repeatedSource set.classText min max) = some program) :
    program = (repeated ⟨min, max⟩ true (one set)).behindStart.toProgram := by
  rcases compile?_eq_some compiled with ⟨tokens, tree, areTokens, isTree, rfl⟩
  rw [Parser.toList_repeatedSource] at areTokens
  rcases Bracket.read_classText normal with ⟨chars, isText, reads⟩
  rw [isText] at areTokens
  -- What stands in front of the class, and the class.
  have isRead : PatternScanner.readTokens _
      ⟨.initial, [.initial, .initial], 0, []⟩
      [.groupStart none, .groupStart none, .operand (.assert .textStart)]
      ('[' :: (chars ++ _)) = some tokens := areTokens
  rcases PatternScanner.readTokens_next isRead (PatternScanner.skip_plain _ (by decide) (by decide) _)
    with ⟨_, _, _, fuel, isToken, isRead⟩
  rcases reads _ with ⟨nesting, isClass⟩
  rw [PatternScanner.readToken_bracket, isClass] at isToken
  cases isToken
  cases PatternScanner.readTokens_counted rfl isRead
  cases isTree
  rfl

end Pattern
end SeedGrammar
