import SeedGrammar.Proofs.Pattern.CountedSource
import SeedGrammar.Proofs.Pattern.Extension

namespace SeedGrammar

/-!
# Expressions in a group

A text that is an expression on its own is read as the same expression in a group, if the
group is closed at all: `PatternScanner.readTokens_within`.
-/

/-- How many groups are open behind a token, if so many are open in front of it. -/
def PatternToken.depthBehind : PatternToken -> Nat -> Nat
  | groupStart _, depth => depth + 1
  | groupEnd, depth => depth - 1
  | _, depth => depth

theorem GoesOn.dropBlanks {more chars longer : List Char} (ends : EndsGroup more)
    (goesOn : GoesOn more chars longer) :
    GoesOn more (chars.dropWhile Unicode.isBlank) (longer.dropWhile Unicode.isBlank) := by
  rcases goesOn with rfl | ⟨rfl, rfl⟩
  · by_cases areBlank : chars.dropWhile Unicode.isBlank = []
    · left
      rcases ends.begins with ⟨rest, rfl⟩
      have isBlank : (chars.dropWhile Unicode.isBlank).isEmpty = true := List.isEmpty_iff.mpr areBlank
      rw [List.dropWhile_append, if_pos isBlank, areBlank]
      rfl
    · left
      rw [PatternFlags.dropWhile_append areBlank]
  · exact Or.inr ⟨rfl, rfl⟩

theorem PatternFlags.read_append {flags after : PatternFlags} {seen seen' chars left : List Char}
    (isRead : flags.read seen chars = some (after, seen', left)) (more : List Char) :
    flags.read seen (chars ++ more) = some (after, seen', left ++ more) := by
  induction chars generalizing flags seen with
  | nil => cases isRead
  | cons c rest inductionHypothesis =>
      rw [read] at isRead
      rw [List.cons_append, read]
      split at isRead
      · rename_i isEnd
        rw [if_pos isEnd]
        split at isRead
        · cases isRead
        · rename_i noDash
          rw [if_neg noDash]
          cases isRead
          rfl
      · rename_i noEnd
        rw [if_neg noEnd]
        split at isRead
        · cases isRead
        · rename_i isNew
          rw [if_neg isNew]
          split at isRead
          · rename_i isDash
            rw [if_pos isDash]
            exact inductionHypothesis isRead
          · rename_i noDash
            rw [if_neg noDash]
            cases isSet : flags.set? c (!seen.contains '-') with
            | none =>
                rw [isSet] at isRead
                cases isRead
            | some flags' =>
                rw [isSet] at isRead
                exact inductionHypothesis isRead

namespace PatternScanner

/-- The scanner in further groups, given the flags outside of each. -/
def within (scanner : PatternScanner) (around : List PatternFlags) : PatternScanner :=
  { scanner with outer := scanner.outer ++ around }

/-- Whether a reader in further groups reads the token that a reader outside of them
does. -/
def ReadsToken (more : List Char) (around : List PatternFlags) (scanner : PatternScanner)
    (read longer : Option (PatternToken × PatternScanner × List Char)) : Prop :=
  forall token after left, read = some (token, after, left) ->
    after.outer.length = token.depthBehind scanner.outer.length ∧
      exists left', longer = some (token, after.within around, left') ∧ GoesOn more left left'

namespace ReadsToken

variable {more : List Char} {around : List PatternFlags} {scanner : PatternScanner}

theorem of_none (longer : Option (PatternToken × PatternScanner × List Char)) :
    ReadsToken more around scanner none longer := by
  intro token after left isRead
  cases isRead

theorem of_some (token : PatternToken) {after : PatternScanner}
    (depth : after.outer.length = token.depthBehind scanner.outer.length) {left left' : List Char}
    (goesOn : GoesOn more left left') :
    ReadsToken more around scanner (some (token, after, left))
      (some (token, after.within around, left')) := by
  intro token after left isRead
  cases isRead
  exact ⟨depth, left', rfl, goesOn⟩

theorem ite {condition : Prop} [Decidable condition]
    {read longer read' longer' : Option (PatternToken × PatternScanner × List Char)}
    (yes : ReadsToken more around scanner read longer)
    (no : ReadsToken more around scanner read' longer') :
    ReadsToken more around scanner (if condition then read else read')
      (if condition then longer else longer') := by
  split
  · exact yes
  · exact no

/-- What is read without a change of groups is an operand. -/
theorem operand {α : Type} {read longer : Option (α × List Char)} (readsOn : ReadsOn more read longer)
    (tree : α -> PatternTree) :
    ReadsToken more around scanner
      (read.map fun result => (.operand (tree result.1), scanner, result.2))
      (longer.map fun result => (.operand (tree result.1), scanner.within around, result.2)) := by
  intro token after left isRead
  rcases Option.map_eq_some_iff.mp isRead with ⟨⟨result, left⟩, isResult, same⟩
  cases same
  rcases readsOn result left isResult with ⟨left', isLonger, goesOn⟩
  rw [isLonger]
  exact ⟨rfl, left', rfl, goesOn⟩

end ReadsToken

/-! ## Groups -/

section Groups

variable {scanner : PatternScanner} {chars rest : List Char}

theorem readGroup_plain (noMark : forall rest, scanner.flags.skip chars ≠ '?' :: rest) :
    scanner.readGroup chars = some (.groupStart (some (scanner.groups + 1)), scanner.enterNumbered.2,
      scanner.flags.skip chars) := by
  rw [readGroup.eq_def]
  generalize scanner.flags.skip chars = start at noMark
  split <;> first | exact absurd rfl (noMark _) | rfl

theorem readGroup_named (isNamed : scanner.flags.skip chars = '?' :: '<' :: rest)
    (noCondition : forall c after, c = '=' ∨ c = '!' -> rest ≠ c :: after) :
    scanner.readGroup chars = scanner.readNamedGroup rest := by
  rw [readGroup.eq_def, isNamed]
  split
  case h_3 same =>
    cases same
    exact absurd rfl (noCondition _ _ (Or.inl rfl))
  case h_4 same =>
    cases same
    exact absurd rfl (noCondition _ _ (Or.inr rfl))
  case h_6 same =>
    cases same
    rfl
  case h_7 noName same =>
    cases same
    exact (noName _ rfl).elim
  case h_8 noName _ => exact (noName _ rfl).elim
  all_goals
    rename_i same
    cases same

theorem readGroup_flags (isMarked : scanner.flags.skip chars = '?' :: rest)
    (noCondition : forall c after, c = '=' ∨ c = '!' ∨ c = '<' -> rest ≠ c :: after)
    (noName : forall after, rest ≠ 'P' :: '<' :: after) :
    scanner.readGroup chars = scanner.readFlagGroup rest := by
  rw [readGroup.eq_def, isMarked]
  split
  case h_1 same =>
    cases same
    exact absurd rfl (noCondition _ _ (Or.inl rfl))
  case h_2 same =>
    cases same
    exact absurd rfl (noCondition _ _ (Or.inr (Or.inl rfl)))
  case h_5 same =>
    cases same
    exact absurd rfl (noName _)
  case h_7 same =>
    cases same
    rfl
  case h_8 noMark => exact (noMark _ rfl).elim
  all_goals
    rename_i same
    cases same
    exact absurd rfl (noCondition _ _ (Or.inr (Or.inr rfl)))

end Groups

/-! ## Counted repetitions -/

/-- The upper bound of a repetition, behind the comma. -/
def readUpper (scanner : PatternScanner) (min : Nat) (chars : List Char) :
    Option (PatternToken × PatternScanner × List Char) :=
  match chars with
  | '\x7d' :: rest => some (scanner.readGreed ⟨min, none⟩ (scanner.flags.skip rest))
  | rest =>
    match readCount scanner.flags rest with
    | some (max, '\x7d' :: rest) =>
      if min ≤ max then some (scanner.readGreed ⟨min, some max⟩ (scanner.flags.skip rest)) else none
    | _ => none

/-- What follows the lower bound of a repetition. -/
def readBehindMin (scanner : PatternScanner) (min : Nat) (chars : List Char) :
    Option (PatternToken × PatternScanner × List Char) :=
  match chars with
  | '\x7d' :: rest => some (scanner.readGreed ⟨min, some min⟩ (scanner.flags.skip rest))
  | ',' :: rest => scanner.readUpper min (scanner.flags.skip rest)
  | _ => none

theorem readCounted_eq (scanner : PatternScanner) (chars : List Char) :
    scanner.readCounted chars =
      (readCount scanner.flags (scanner.flags.skip chars)).bind fun (min, rest) =>
        scanner.readBehindMin min rest := by
  rw [readCounted.eq_def]
  dsimp only
  cases readCount scanner.flags (scanner.flags.skip chars) with
  | none => rfl
  | some read => rfl

section Readers

variable {more : List Char} (ends : EndsGroup more) (around : List PatternFlags)
  (scanner : PatternScanner) {chars longer : List Char}

theorem readNamedGroup_within (chars : List Char) :
    ReadsToken more around scanner (scanner.readNamedGroup chars)
      ((scanner.within around).readNamedGroup (chars ++ more)) := by
  cases isRest : chars.dropWhile (· ≠ '>') with
  | nil =>
      rw [readNamedGroup.eq_def]
      dsimp only
      rw [isRest]
      exact .of_none _
  | cons first rest =>
      have notEmpty : chars.dropWhile (· ≠ '>') ≠ [] := by
        rw [isRest]
        exact List.cons_ne_nil _ _
      have isName : (chars ++ more).takeWhile (· ≠ '>') = chars.takeWhile (· ≠ '>') := by
        rw [List.takeWhile_append, if_neg]
        intro same
        have length := congrArg List.length
          (List.takeWhile_append_dropWhile (p := (· ≠ '>')) (l := chars))
        rw [List.length_append, isRest, List.length_cons] at length
        omega
      rw [readNamedGroup.eq_def, readNamedGroup.eq_def]
      dsimp only
      rw [isName, PatternFlags.dropWhile_append notEmpty, isRest]
      apply ReadsToken.ite
      · exact .of_some (.groupStart (some _)) rfl (GoesOn.append more rest)
      · exact .of_none _

theorem readFlagGroup_within (chars : List Char) :
    ReadsToken more around scanner (scanner.readFlagGroup chars)
      ((scanner.within around).readFlagGroup (chars ++ more)) := by
  rw [readFlagGroup.eq_def]
  cases isRead : scanner.flags.read [] chars with
  | none => exact .of_none _
  | some read =>
      rcases read with ⟨flags, seen, left⟩
      have isLonger : (scanner.within around).flags.read [] (chars ++ more) =
          some (flags, seen, left ++ more) := PatternFlags.read_append isRead more
      rw [readFlagGroup.eq_def, isLonger]
      cases left with
      | nil => exact .of_none _
      | cons c rest =>
          by_cases isColon : c = ':'
          · subst isColon
            exact .of_some (.groupStart none) rfl (GoesOn.append more rest)
          · rw [List.cons_append]
            split
            · rename_i same
              cases same
              exact absurd rfl isColon
            · rename_i same
              cases same
              exact .ite (.of_none _) (.of_some .flagChange rfl (GoesOn.append more rest))
            · exact .of_none _

include ends

theorem readMarked_within {rest : List Char} (isMarked : scanner.flags.skip chars = '?' :: rest)
    (isMarked' : (scanner.within around).flags.skip longer = '?' :: (rest ++ more)) :
    ReadsToken more around scanner (scanner.readGroup chars)
      ((scanner.within around).readGroup longer) := by
  -- No sign that matters is that of the end of the group.
  have begins : forall {c : Char} {rest after}, c ≠ ')' -> rest ++ more = c :: after ->
      exists after, rest = c :: after := by
    intro c rest after other isRest
    rcases (isRest ▸ GoesOn.append more rest).head ends other with ⟨after, isRest, _⟩
    exact ⟨after, isRest⟩
  by_cases isCondition : exists c after,
      (c = '=' ∨ c = '!') ∧ (rest = c :: after ∨ rest = '<' :: c :: after)
  · rcases isCondition with ⟨c, after, isSign, rfl | rfl⟩
    all_goals
      rw [readGroup.eq_def, isMarked]
      rcases isSign with rfl | rfl
      · exact .of_none _
      · exact .of_none _
  · by_cases isNamed : exists after, rest = '<' :: after
    · rcases isNamed with ⟨after, rfl⟩
      rw [readGroup_named isMarked, readGroup_named isMarked']
      · exact readNamedGroup_within around scanner after
      · rintro c after' isSign same
        rcases begins (by rcases isSign with rfl | rfl <;> decide) same with ⟨after', rfl⟩
        exact isCondition ⟨c, after', isSign, Or.inr rfl⟩
      · rintro c after' isSign rfl
        exact isCondition ⟨c, after', isSign, Or.inr rfl⟩
    · by_cases isNamed' : exists after, rest = 'P' :: '<' :: after
      · rcases isNamed' with ⟨after, rfl⟩
        rw [readGroup.eq_def, readGroup.eq_def, isMarked, isMarked']
        exact readNamedGroup_within around scanner after
      · have noSign : forall c after, c = '=' ∨ c = '!' ∨ c = '<' -> rest ≠ c :: after := by
          rintro c after isSign rfl
          rcases isSign with isEqual | isNot | rfl
          · exact isCondition ⟨c, after, Or.inl isEqual, Or.inl rfl⟩
          · exact isCondition ⟨c, after, Or.inr isNot, Or.inl rfl⟩
          · exact isNamed ⟨after, rfl⟩
        rw [readGroup_flags isMarked noSign fun after same => isNamed' ⟨after, same⟩,
          readGroup_flags isMarked']
        · exact readFlagGroup_within around scanner rest
        · rintro c after isSign same
          rcases begins (by rcases isSign with rfl | rfl | rfl <;> decide) same with ⟨after, rfl⟩
          exact noSign c after isSign rfl
        · rintro after same
          rcases begins (by decide) same with ⟨after', rfl⟩
          rcases begins (by decide) (List.cons.inj same).2 with ⟨after'', rfl⟩
          exact isNamed' ⟨after'', rfl⟩

theorem readGroup_within (goesOn : GoesOn more chars longer) :
    ReadsToken more around scanner (scanner.readGroup chars)
      ((scanner.within around).readGroup longer) := by
  have skipped : GoesOn more (scanner.flags.skip chars) ((scanner.within around).flags.skip longer) :=
    goesOn.skip ends scanner.flags
  by_cases isMarked : exists rest, scanner.flags.skip chars = '?' :: rest
  · rcases isMarked with ⟨rest, isMarked⟩
    rw [isMarked] at skipped
    exact readMarked_within ends around scanner isMarked skipped.cons
  · have noMark : forall rest, (scanner.within around).flags.skip longer ≠ '?' :: rest := by
      intro rest isMarked'
      rw [isMarked'] at skipped
      rcases skipped.head ends (by decide) with ⟨rest, isMarked'', _⟩
      exact isMarked ⟨rest, isMarked''⟩
    rw [readGroup_plain fun rest same => isMarked ⟨rest, same⟩, readGroup_plain noMark]
    exact .of_some (.groupStart _) rfl skipped

theorem readDigits_goesOn (flags : PatternFlags) {fuel fuel' : Nat} (enough : chars.length < fuel)
    (enough' : longer.length < fuel') (goesOn : GoesOn more chars longer) :
    (readDigits flags fuel chars).1 = (readDigits flags fuel' longer).1 ∧
      GoesOn more (readDigits flags fuel chars).2 (readDigits flags fuel' longer).2 := by
  induction fuel generalizing fuel' chars longer with
  | zero => exact absurd enough (Nat.not_lt_zero _)
  | succ fuel inductionHypothesis =>
      rcases Nat.exists_eq_add_one_of_ne_zero (Nat.ne_zero_of_lt enough') with ⟨fuel', rfl⟩
      cases chars with
      | nil =>
          rcases goesOn with rfl | ⟨_, rfl⟩
          · rcases ends.begins with ⟨rest, rfl⟩
            have noDigit : Text.isDecimalDigit ')' = false := by decide
            rw [readDigits.eq_1 flags fuel' ')' rest, if_neg (by rw [noDigit]; decide)]
            exact ⟨rfl, Or.inl rfl⟩
          · exact ⟨rfl, Or.inr ⟨rfl, rfl⟩⟩
      | cons c rest =>
          obtain rfl := goesOn.cons
          have shorter := flags.skip_length_le rest
          have shorter' := flags.skip_length_le (rest ++ more)
          rw [List.length_cons] at enough enough'
          rw [readDigits, readDigits]
          by_cases isDigit : Text.isDecimalDigit c = true
          · rw [if_pos isDigit, if_pos isDigit]
            rcases @inductionHypothesis (flags.skip rest) (flags.skip (rest ++ more)) fuel' (by omega)
              (by omega) ((GoesOn.append more rest).skip ends flags) with ⟨same, goesOn⟩
            exact ⟨congrArg (c :: ·) same, goesOn⟩
          · rw [if_neg isDigit, if_neg isDigit]
            exact ⟨rfl, GoesOn.append more (c :: rest)⟩

theorem readCount_readsOn {flags : PatternFlags} (goesOn : GoesOn more chars longer) :
    ReadsOn more (readCount flags chars) (readCount flags longer) := by
  have start := goesOn.dropBlanks ends
  rcases readDigits_goesOn ends flags (Nat.lt_add_one _) (Nat.lt_add_one _) start with
    ⟨same, left⟩
  rw [readCount, readCount]
  dsimp only
  rw [← same]
  apply ReadsOn.ite
  · exact .of_none _
  · split
    · exact .ite (.of_some _ (left.dropBlanks ends)) (.of_none _)
    · exact .of_none _

theorem readGreed_within {bounds : RepeatBounds}
    (goesOn : GoesOn more chars longer) :
    ReadsToken more around scanner (some (scanner.readGreed bounds chars))
      (some ((scanner.within around).readGreed bounds longer)) := by
  by_cases isLazy : exists rest, chars = '?' :: rest
  · rcases isLazy with ⟨rest, rfl⟩
    obtain rfl := goesOn.cons
    exact .of_some (.times bounds _) rfl (GoesOn.append more rest)
  · have notLazy : forall rest, longer ≠ '?' :: rest := by
      rintro rest rfl
      rcases goesOn.head ends (by decide) with ⟨rest, isLazy', _⟩
      exact isLazy ⟨rest, isLazy'⟩
    rw [readGreed.eq_2 _ _ _ (fun rest same => isLazy ⟨rest, same⟩), readGreed.eq_2 _ _ _ notLazy]
    exact .of_some (.times bounds _) rfl goesOn

theorem readUpper_within {min : Nat} (goesOn : GoesOn more chars longer) :
    ReadsToken more around scanner (scanner.readUpper min chars)
      ((scanner.within around).readUpper min longer) := by
  by_cases isEnd : exists rest, chars = '\x7d' :: rest
  · rcases isEnd with ⟨rest, rfl⟩
    obtain rfl := goesOn.cons
    exact readGreed_within ends around scanner ((GoesOn.append more rest).skip ends scanner.flags)
  · have noEnd : forall rest, longer ≠ '\x7d' :: rest := by
      rintro rest rfl
      rcases goesOn.head ends (by decide) with ⟨rest, isEnd', _⟩
      exact isEnd ⟨rest, isEnd'⟩
    rw [readUpper.eq_2 _ _ _ (fun rest same => isEnd ⟨rest, same⟩), readUpper.eq_2 _ _ _ noEnd]
    intro token after left isRead
    split at isRead
    · rename_i max rest isMax
      rcases readCount_readsOn ends goesOn max _ isMax with ⟨_, isMax', behind⟩
      rw [behind.cons] at isMax'
      have isMax'' : readCount (scanner.within around).flags longer =
        some (max, '\x7d' :: (rest ++ more)) := isMax'
      rw [isMax'']
      have later := (GoesOn.append more rest).skip ends scanner.flags
      by_cases ordered : min ≤ max
      · rw [if_pos ordered] at isRead
        rcases readGreed_within ends around scanner later token after left isRead with
          ⟨depth, left', isLonger, goesOn'⟩
        exact ⟨depth, left', (if_pos ordered).trans isLonger, goesOn'⟩
      · rw [if_neg ordered] at isRead
        cases isRead
    · cases isRead

theorem readCounted_within (goesOn : GoesOn more chars longer) :
    ReadsToken more around scanner (scanner.readCounted chars)
      ((scanner.within around).readCounted longer) := by
  have skips : forall {chars longer}, GoesOn more chars longer ->
      GoesOn more (scanner.flags.skip chars) ((scanner.within around).flags.skip longer) :=
    fun goesOn => goesOn.skip ends scanner.flags
  rw [readCounted_eq, readCounted_eq]
  cases isMin : readCount scanner.flags (scanner.flags.skip chars) with
  | none => exact .of_none _
  | some read =>
      rcases read with ⟨min, rest⟩
      rcases readCount_readsOn ends (skips goesOn) min rest isMin with ⟨rest', isMin', behind⟩
      have isMin'' : readCount (scanner.within around).flags
        ((scanner.within around).flags.skip longer) = some (min, rest') := isMin'
      rw [isMin'']
      change ReadsToken more around scanner (scanner.readBehindMin min rest)
        ((scanner.within around).readBehindMin min rest')
      cases rest with
      | nil => exact .of_none _
      | cons c rest =>
          obtain rfl := behind.cons
          have later := skips (GoesOn.append more rest)
          by_cases isEnd : c = '\x7d'
          · subst isEnd
            exact readGreed_within ends around scanner later
          by_cases isComma : c = ','
          · subst isComma
            exact readUpper_within ends around scanner later
          · rw [readBehindMin.eq_3]
            · exact .of_none _
            · rintro rest' ⟨⟩
              exact isEnd rfl
            · rintro rest' ⟨⟩
              exact isComma rfl

theorem readToken_within (c : Char) (rest : List Char) :
    ReadsToken more around scanner (scanner.readToken c rest)
      ((scanner.within around).readToken c (rest ++ more)) := by
  have goesOn := GoesOn.append more rest
  have operand : forall tree, ReadsToken more around scanner (some (.operand tree, scanner, rest))
      (some (.operand tree, scanner.within around, rest ++ more)) :=
    fun tree => .of_some (.operand tree) rfl goesOn
  rw [readToken.eq_def, readToken.eq_def]
  apply ReadsToken.ite
  · exact readGroup_within ends around scanner goesOn
  apply ReadsToken.ite
  · cases isOuter : scanner.outer with
    | nil => exact .of_none _
    | cons before outer =>
        have isOuter' : (scanner.within around).outer = before :: (outer ++ around) :=
          congrArg (· ++ around) isOuter
        rw [isOuter']
        exact .of_some .groupEnd (by rw [isOuter]; rfl) goesOn
  apply ReadsToken.ite
  · exact .of_some .bar rfl goesOn
  apply ReadsToken.ite
  · exact .operand (Bracket.read_readsOn ends rest) fun closed => .element closed.set closed.nesting
  apply ReadsToken.ite
  · exact readGreed_within ends around scanner goesOn
  apply ReadsToken.ite
  · exact readGreed_within ends around scanner goesOn
  apply ReadsToken.ite
  · exact readGreed_within ends around scanner goesOn
  apply ReadsToken.ite
  · exact readCounted_within ends around scanner goesOn
  apply ReadsToken.ite
  · exact .operand (PatternEscape.read_readsOn ends goesOn) (simple scanner.flags)
  apply ReadsToken.ite
  · exact operand _
  apply ReadsToken.ite
  · exact operand _
  apply ReadsToken.ite
  · exact operand _
  · exact operand _

/-- The tokens of a text are read in further groups as well, from front to back.  At the
end the scanner is in these groups, where the longer text goes on, unless nothing is left
of it. -/
theorem readTokens_within {fuel fuel' : Nat} {before before' tokens tokens' : List PatternToken}
    (isRead : readTokens fuel scanner before chars = some tokens)
    (isLonger : readTokens fuel' (scanner.within around) before' longer = some tokens')
    (goesOn : GoesOn more chars longer) :
    exists (later : List PatternToken) (last : PatternScanner) (left : List Char) (fuel'' : Nat),
      tokens = before.reverse ++ later ∧
      last.outer.length = later.foldl (fun depth token => token.depthBehind depth) scanner.outer.length ∧
      readTokens fuel'' (last.within around) (later.reverse ++ before') left = some tokens' ∧
      GoesOn more [] (last.flags.skip left) := by
  induction fuel generalizing scanner fuel' before before' chars longer with
  | zero => cases isRead
  | succ fuel inductionHypothesis =>
      have skipped := goesOn.skip ends scanner.flags
      rw [readTokens] at isRead
      cases isRest : scanner.flags.skip chars with
      | nil =>
          rw [isRest] at isRead skipped
          cases isRead
          exact ⟨[], scanner, longer, fuel', (List.append_nil _).symm, rfl, isLonger, skipped⟩
      | cons c rest =>
          rw [isRest] at isRead skipped
          rcases readTokens_next isLonger skipped.cons with
            ⟨token', after', rest', fuel', isNext', isLonger⟩
          cases isNext : scanner.readToken c rest with
          | none =>
              simp only [isNext] at isRead
              cases isRead
          | some result =>
              rcases result with ⟨token, after, left⟩
              simp only [isNext] at isRead
              rcases readToken_within ends around scanner c rest token after left isNext with
                ⟨depth, left', isSame, later⟩
              cases isNext'.symm.trans isSame
              rcases inductionHypothesis after isRead isLonger later with
                ⟨tokens, last, left, fuel'', areTokens, isDepth, isEnd, atEnd⟩
              refine ⟨token' :: tokens, last, left, fuel'', ?_, ?_, ?_, atEnd⟩
              · rw [areTokens, List.reverse_cons, List.append_assoc]
                rfl
              · rw [isDepth, depth]
                rfl
              · rw [List.reverse_cons, List.append_assoc]
                exact isEnd

end Readers

/-- What is ignored in front of a token makes no difference. -/
theorem readTokens_skip {scanner : PatternScanner} {chars other : List Char}
    (same : scanner.flags.skip chars = scanner.flags.skip other) (fuel : Nat)
    (before : List PatternToken) :
    readTokens fuel scanner before chars = readTokens fuel scanner before other := by
  cases fuel with
  | zero => rfl
  | succ fuel => rw [readTokens, readTokens, same]

end PatternScanner

/-! ## Trees -/

namespace PatternTree

variable {inner inner' : PatternGroup} {outer outer' : List PatternGroup} {token : PatternToken}

/-- Tokens are taken in further groups as well. -/
theorem takeToken_within (taken : takeToken inner outer token = some (inner', outer'))
    (around : List PatternGroup) :
    takeToken inner (outer ++ around) token = some (inner', outer' ++ around) := by
  cases token with
  | groupEnd =>
      cases outer with
      | nil => cases taken
      | cons parent outer =>
          cases taken
          rfl
  | times bounds greedy =>
      rcases Option.map_eq_some_iff.mp taken with ⟨after, isRepeated, same⟩
      cases same
      rw [takeToken, isRepeated]
      rfl
  | _ =>
      cases taken
      rfl

theorem takeToken_depth (taken : takeToken inner outer token = some (inner', outer')) :
    outer'.length = token.depthBehind outer.length := by
  cases token with
  | groupEnd =>
      cases outer with
      | nil => cases taken
      | cons parent outer =>
          cases taken
          rfl
  | times bounds greedy =>
      rcases Option.map_eq_some_iff.mp taken with ⟨after, isRepeated, same⟩
      cases same
      rfl
  | _ =>
      cases taken
      rfl

/-- The number of the outermost of some groups. -/
def outermostIndex (inner : PatternGroup) (outer : List PatternGroup) : Option Nat :=
  (outer.getLast?.getD inner).index

theorem outermostIndex_cons (inner parent : PatternGroup) (outer : List PatternGroup) :
    outermostIndex inner (parent :: outer) = outermostIndex parent outer := by
  rw [outermostIndex, List.getLast?_cons, Option.getD_some, outermostIndex]

theorem outermostIndex_congr (same : inner'.index = inner.index) (outer : List PatternGroup) :
    outermostIndex inner' outer = outermostIndex inner outer := by
  cases outer with
  | nil => exact same
  | cons parent outer => rw [outermostIndex_cons, outermostIndex_cons]

theorem takeToken_outermostIndex (taken : takeToken inner outer token = some (inner', outer')) :
    outermostIndex inner' outer' = outermostIndex inner outer := by
  cases token with
  | groupStart index =>
      cases taken
      exact outermostIndex_cons _ _ _
  | groupEnd =>
      cases outer with
      | nil => cases taken
      | cons parent outer =>
          cases taken
          rw [outermostIndex_cons]
          apply outermostIndex_congr
          rfl
  | times bounds greedy =>
      rcases Option.map_eq_some_iff.mp taken with ⟨after, isRepeated, same⟩
      cases same
      rcases PatternGroup.repeatLast?_some isRepeated with ⟨last, before, _, rfl⟩
      apply outermostIndex_congr
      rfl
  | _ =>
      cases taken
      apply outermostIndex_congr
      rfl

/-- The tokens of an expression are put together in further groups as they are outside of
them. -/
theorem ofTokens?_within {tokens : List PatternToken} {tree : PatternTree}
    (isTree : ofTokens? inner outer tokens = some tree) :
    tokens.foldl (fun depth token => token.depthBehind depth) outer.length = 0 ∧
      exists last : PatternGroup, last.body = tree ∧
        last.index = outermostIndex inner outer ∧
        forall around rest, ofTokens? inner (outer ++ around) (tokens ++ rest) =
          ofTokens? last around rest := by
  induction tokens generalizing inner outer with
  | nil =>
      cases outer with
      | nil =>
          cases isTree
          exact ⟨rfl, inner, rfl, rfl, fun around rest => rfl⟩
      | cons parent outer => cases isTree
  | cons token tokens inductionHypothesis =>
      rcases ofTokens?_cons isTree with ⟨inner', outer', taken, restTree⟩
      rcases inductionHypothesis restTree with ⟨depth, last, isBody, isIndex, goesOn⟩
      rw [takeToken_depth taken] at depth
      refine ⟨depth, last, isBody, isIndex.trans (takeToken_outermostIndex taken), ?_⟩
      intro around rest
      rw [List.cons_append, ofTokens?, takeToken_within taken around]
      exact goesOn around rest

end PatternTree

/-! ## Sources -/

namespace Pattern

open PatternScanner PatternTree

variable {source : String} {tree : PatternTree}

/-- What is read of a source is proper. -/
theorem ofText?_proper (isTree : PatternTree.ofText? source = some tree) : tree.toPattern.Proper := by
  rcases Option.bind_eq_some_iff.mp isTree with ⟨tokens, areTokens, isTree⟩
  rcases readTokens_proper areTokens with ⟨later, rfl, proper⟩
  have opened : (PatternGroup.opened none).Proper := by
    apply PatternGroup.opened_proper
    rintro number ⟨⟩
  exact ofTokens?_proper proper (List.forall_mem_singleton.mpr opened) isTree

/-- A source that is an expression on its own is read as this expression in a group, if the
groups around are closed at all. -/
theorem readTokens_grouped (isTree : PatternTree.ofText? source = some tree) {more : List Char}
    (ends : EndsGroup more) {around : List PatternFlags} {before tokens : List PatternToken} {fuel : Nat}
    (isRead : readTokens fuel (initial.within around) before (source.toList ++ more) = some tokens) :
    exists (own : List PatternToken) (group : PatternGroup), group.body = tree ∧ group.index = none ∧
      (forall outer rest, ofTokens? (.opened none) outer (own ++ rest) = ofTokens? group outer rest) ∧
      (tokens = before.reverse ++ own ∨ exists (last : PatternScanner) (fuel' : Nat), last.outer = around ∧
        readTokens fuel' last (own.reverse ++ before) more = some tokens) := by
  rcases Option.bind_eq_some_iff.mp isTree with ⟨own, areTokens, isTree⟩
  rcases readTokens_within ends around initial areTokens isRead (GoesOn.append more _) with
    ⟨own, last, left, fuel', rfl, depth, isEnd, atEnd⟩
  rcases ofTokens?_within isTree with ⟨depth', group, isBody, isIndex, goesOn⟩
  refine ⟨own, group, isBody, isIndex, goesOn, ?_⟩
  rcases atEnd with isMore | ⟨_, isNothing⟩
  · right
    refine ⟨last.within around, fuel', ?_, ?_⟩
    · have noneOpen : last.outer = [] := List.eq_nil_of_length_eq_zero (depth.trans depth')
      rw [within, noneOpen]
      rfl
    · rcases ends.begins with ⟨rest, rfl⟩
      rw [<- isEnd]
      apply readTokens_skip
      exact (skip_plain last.flags (by decide) (by decide) rest).trans isMore.symm
  · left
    cases fuel' with
    | zero => cases isEnd
    | succ fuel' =>
        have isNothing' : (last.within around).flags.skip left = [] := isNothing
        rw [readTokens, isNothing'] at isEnd
        rw [<- Option.some.inj isEnd, List.reverse_append, List.reverse_reverse]

/-- The start of the text, which stands in front of a group that is opened. -/
def behindAnchor : PatternGroup := ⟨none, [], [.assert .textStart]⟩

/-- What is built of a source that is an expression on its own is this expression behind
the start of the text. -/
theorem compile?_anchored (isTree : PatternTree.ofText? source = some tree) {program : PatternProgram}
    (compiled : compile? source = some program) : program = tree.toPattern.behindStart.toProgram := by
  rcases compile?_eq_some compiled with ⟨tokens, whole, areTokens, isWhole, rfl⟩
  have isText : (anchored source).toList = '^' :: '(' :: '?' :: ':' :: (source.toList ++ [')']) := by
    rw [anchored, String.toList_append, String.toList_append]
    rfl
  rw [tokens?, isText] at areTokens
  have isRead : readTokens _ (initial.within [.initial]) [.groupStart none, .operand (.assert .textStart)]
    (source.toList ++ [')']) = some tokens := areTokens
  have ends : EndsGroup [')'] := ⟨⟨[], rfl⟩, by decide, by decide⟩
  rcases readTokens_grouped isTree ends isRead with ⟨own, group, rfl, isIndex, goesOn, rfl | closed⟩
  · have unclosed : ofTokens? (.opened none) [behindAnchor] own = some whole := isWhole
    rw [<- List.append_nil own, goesOn] at unclosed
    cases unclosed
  · rcases closed with ⟨last, fuel, areOuter, isEnd⟩
    rcases readTokens_next isEnd (skip_plain _ (by decide) (by decide) _) with
      ⟨_, _, _, fuel, isToken, isEnd⟩
    cases (readToken_close areOuter _).symm.trans isToken
    cases fuel with
    | zero => cases isEnd
    | succ fuel =>
        have areTokens : some _ = some tokens := isEnd
        rw [<- Option.some.inj areTokens, List.reverse_cons, List.reverse_append, List.reverse_reverse,
          List.append_assoc] at isWhole
        have isRest : ofTokens? (.opened none) [behindAnchor] (own ++ [.groupEnd]) = some whole := isWhole
        rw [goesOn] at isRest
        rcases group with ⟨index, branches, operands⟩
        cases isIndex
        cases isRest
        rfl

theorem not_mem_decimal {c : Char} (noDigit : Text.isDecimalDigit c = false) (n : Nat) :
    c ∉ (Text.decimal n).toList := by
  intro member
  rw [Text.decimal, String.toList_ofList] at member
  rw [Text.isDecimalDigit_of_mem member] at noDigit
  cases noDigit

/-- What follows the source of a counted repetition ends its group. -/
theorem counted_ends (min : Nat) (max : Option Nat) :
    EndsGroup
      (')' :: '\x7b' :: ((Text.decimal min).toList ++ ',' :: (maxText max ++ '\x7d' :: [')']))) := by
  have without : forall {c : Char}, Text.isDecimalDigit c = false -> c ∉ ")\x7b,\x7d".toList ->
      c ∉ ')' :: '\x7b' :: ((Text.decimal min).toList ++ ',' :: (maxText max ++ '\x7d' :: [')'])) := by
    intro c noDigit other member
    have notMin := not_mem_decimal noDigit min
    have notMax : c ∉ maxText max := by
      cases max with
      | none => exact List.not_mem_nil
      | some max => exact not_mem_decimal noDigit max
    simp_all
  exact ⟨⟨_, rfl⟩, without (by decide) (by decide), without (by decide) (by decide)⟩

/-- What is built of its counted repetition is the repetition of this expression behind the
start of the text. -/
theorem compile?_repeated (isTree : PatternTree.ofText? source = some tree) {min : Nat} {max : Option Nat}
    {program : PatternProgram}
    (compiled : compile? (Parser.repeatedSource source min max) = some program) :
    program = (repeated ⟨min, max⟩ true tree.toPattern).behindStart.toProgram := by
  rcases compile?_eq_some compiled with ⟨tokens, whole, areTokens, isWhole, rfl⟩
  rw [Parser.toList_repeatedSource] at areTokens
  have isRead : readTokens _ (initial.within [.initial, .initial])
    [.groupStart none, .groupStart none, .operand (.assert .textStart)]
    (source.toList ++ _) = some tokens := areTokens
  rcases readTokens_grouped isTree (counted_ends min max) isRead with
    ⟨own, group, rfl, isIndex, goesOn, rfl | closed⟩
  · have unclosed : ofTokens? (.opened none) [.opened none, behindAnchor] own = some whole := isWhole
    rw [<- List.append_nil own, goesOn] at unclosed
    cases unclosed
  · rcases closed with ⟨last, fuel, areOuter, isEnd⟩
    cases readTokens_counted areOuter isEnd
    rw [List.reverse_append, List.reverse_reverse, List.append_assoc] at isWhole
    have isRest : ofTokens? (.opened none) [.opened none, behindAnchor]
      (own ++ [.groupEnd, .times ⟨min, max⟩ true, .groupEnd]) = some whole := isWhole
    rw [goesOn] at isRest
    rcases group with ⟨index, branches, operands⟩
    cases isIndex
    cases isRest
    rfl

end Pattern
end SeedGrammar
