import Mathlib.Data.List.TakeWhile
import SeedGrammar.Pattern.Bracket
import SeedGrammar.Unicode.Blank

namespace SeedGrammar

/-!
# Reading in front of the end of a group

An expression that is put into a group is read as it is read on its own.  Nothing that
is read of an expression looks far ahead, and what does look ahead sees the parenthesis
that ends the group, where the text of the expression has come to its end.  This is
neither a sign nor a digit that could go on with something.

There is one exception.  If the expression ends with a comment, the comment takes in
whatever follows on the same line, so that nothing is left of it.
-/

/-- Whether a text can stand behind an expression that is put into a group.  It begins
with the end of the group and is not broken, and no name of a class ends in it. -/
structure EndsGroup (more : List Char) : Prop where
  begins : exists rest, more = ')' :: rest
  oneLine : '\n' ∉ more
  noColon : ':' ∉ more

/-- Whether a longer text goes on behind what is left of a text, or nothing is left of
either. -/
def GoesOn (more chars longer : List Char) : Prop :=
  longer = chars ++ more ∨ chars = [] ∧ longer = []

namespace GoesOn

variable {more chars longer rest rest' : List Char}

theorem append (more chars : List Char) : GoesOn more chars (chars ++ more) :=
  Or.inl rfl

theorem cons {c : Char} (goesOn : GoesOn more (c :: rest) longer) : longer = c :: (rest ++ more) := by
  rcases goesOn with isLonger | ⟨none, _⟩
  · exact isLonger
  · cases none

/-- A text that is left starts with what the longer text starts with, unless this is the
end of the group. -/
theorem head (ends : EndsGroup more) {c : Char} (goesOn : GoesOn more chars (c :: rest'))
    (other : c ≠ ')') : exists rest, chars = c :: rest ∧ rest' = rest ++ more := by
  cases chars with
  | nil =>
      rcases goesOn with isMore | ⟨_, none⟩
      · rcases ends.begins with ⟨rest, begins⟩
        rw [begins] at isMore
        cases isMore
        exact absurd rfl other
      · cases none
  | cons first rest =>
      cases goesOn.cons
      exact ⟨rest, rfl, rfl⟩

theorem dropComments (ends : EndsGroup more) (within : Bool) (chars : List Char) :
    GoesOn more (PatternFlags.dropComments within chars)
      (PatternFlags.dropComments within (chars ++ more)) := by
  induction chars generalizing within with
  | nil =>
      cases within with
      | false =>
          -- The end of the group is neither blank nor a comment.
          rcases ends.begins with ⟨rest, rfl⟩
          exact Or.inl rfl
      | true =>
          refine Or.inr ⟨rfl, ?_⟩
          have oneLine := ends.oneLine
          rw [List.nil_append]
          clear ends
          induction more with
          | nil => rfl
          | cons c more inductionHypothesis =>
              rw [List.mem_cons, not_or] at oneLine
              rw [PatternFlags.dropComments, if_neg (Ne.symm oneLine.1)]
              exact inductionHypothesis oneLine.2
  | cons c rest inductionHypothesis =>
      cases within with
      | true =>
          rw [List.cons_append, PatternFlags.dropComments, PatternFlags.dropComments]
          split
          · exact inductionHypothesis false
          · exact inductionHypothesis true
      | false =>
          rw [List.cons_append, PatternFlags.dropComments, PatternFlags.dropComments]
          split
          · exact inductionHypothesis false
          · split
            · exact inductionHypothesis true
            · exact append more (c :: rest)

/-- What is ignored does not depend on what follows. -/
theorem skip (ends : EndsGroup more) (goesOn : GoesOn more chars longer) (flags : PatternFlags) :
    GoesOn more (flags.skip chars) (flags.skip longer) := by
  rw [PatternFlags.skip, PatternFlags.skip]
  split
  · rcases goesOn with rfl | ⟨rfl, rfl⟩
    · exact dropComments ends false chars
    · exact Or.inr ⟨rfl, rfl⟩
  · exact goesOn

end GoesOn

/-- Whether a reader of a longer text reads what a reader of its beginning does. -/
def ReadsOn {α : Type} (more : List Char) (read longer : Option (α × List Char)) : Prop :=
  forall result left, read = some (result, left) ->
    exists left', longer = some (result, left') ∧ GoesOn more left left'

namespace ReadsOn

variable {α β : Type} {more : List Char}

theorem of_none (longer : Option (α × List Char)) : ReadsOn more none longer := by
  intro result left isRead
  cases isRead

theorem of_some (result : α) {left left' : List Char} (goesOn : GoesOn more left left') :
    ReadsOn more (some (result, left)) (some (result, left')) := by
  intro result left isRead
  cases isRead
  exact ⟨left', rfl, goesOn⟩

theorem map {read longer : Option (α × List Char)} (readsOn : ReadsOn more read longer) (f : α -> β) :
    ReadsOn more (read.map fun result => (f result.1, result.2))
      (longer.map fun result => (f result.1, result.2)) := by
  intro result left isRead
  rcases Option.map_eq_some_iff.mp isRead with ⟨⟨before, left⟩, isBefore, same⟩
  cases same
  rcases readsOn before left isBefore with ⟨left', isLonger, goesOn⟩
  rw [isLonger]
  exact ⟨left', rfl, goesOn⟩

theorem map_const (read : Option α) {left left' : List Char} (goesOn : GoesOn more left left') :
    ReadsOn more (read.map fun result => (result, left)) (read.map fun result => (result, left')) := by
  cases read with
  | none => exact of_none _
  | some result => exact of_some result goesOn

theorem ite {condition : Prop} [Decidable condition] {read longer read' longer' : Option (α × List Char)}
    (yes : ReadsOn more read longer) (no : ReadsOn more read' longer') :
    ReadsOn more (if condition then read else read') (if condition then longer else longer') := by
  split
  · exact yes
  · exact no

end ReadsOn

namespace PatternFlags

variable {flags : PatternFlags} {more chars : List Char}

theorem dropComments_length_le (within : Bool) (chars : List Char) :
    (dropComments within chars).length ≤ chars.length := by
  induction chars generalizing within with
  | nil => cases within <;> exact Nat.le_refl _
  | cons c rest inductionHypothesis =>
      have later := fun within => Nat.le_succ_of_le (inductionHypothesis within)
      cases within with
      | true =>
          rw [dropComments]
          split <;> exact later _
      | false =>
          rw [dropComments]
          split
          · exact later _
          · split
            · exact later _
            · exact Nat.le_refl _

theorem skip_length_le (flags : PatternFlags) (chars : List Char) :
    (flags.skip chars).length ≤ chars.length := by
  rw [skip]
  split
  · exact dropComments_length_le false chars
  · exact Nat.le_refl _

/-- What lies behind blanks lies there in front of more text. -/
theorem dropWhile_append {p : Char -> Bool} (notEmpty : chars.dropWhile p ≠ []) (more : List Char) :
    (chars ++ more).dropWhile p = chars.dropWhile p ++ more := by
  rw [List.dropWhile_append, if_neg (by simpa using notEmpty)]

/-- A character that is seen ahead is seen in front of more text. -/
theorem peek_append {c : Char} (isNext : flags.peek chars = some c) (more : List Char) :
    flags.peek (chars ++ more) = some c := by
  rw [peek.eq_def] at isNext ⊢
  split
  · rename_i extended
    rw [if_pos extended] at isNext
    split at isNext
    · rename_i rest isComment
      have notEmpty : rest.dropWhile Unicode.isBlank ≠ [] := by
        intro none
        rw [none] at isNext
        cases isNext
      rw [dropWhile_append (by simp [isComment]), isComment, List.cons_append]
      change ((rest ++ more).dropWhile Unicode.isBlank).head? = some c
      rw [dropWhile_append notEmpty, List.head?_append, isNext]
      rfl
    · rename_i notComment
      cases isRest : chars.dropWhile Unicode.isBlank with
      | nil =>
          rw [isRest] at isNext
          cases isNext
      | cons first rest =>
          rw [isRest] at isNext notComment
          rw [dropWhile_append (by simp [isRest]), isRest, List.cons_append]
          split
          · rename_i same
            cases same
            exact absurd rfl (notComment rest)
          · exact isNext
  · rename_i extended
    rw [if_neg extended] at isNext
    rw [List.head?_append, isNext]
    rfl

/-- Blanks are ignored, in a comment and otherwise. -/
theorem dropComments_blanks {within : Bool} (areBlank : forall c, c ∈ chars -> Unicode.isBlank c = true) :
    dropComments within chars = [] := by
  induction chars generalizing within with
  | nil => cases within <;> rfl
  | cons c rest inductionHypothesis =>
      rcases List.forall_mem_cons.mp areBlank with ⟨isBlank, areBlank⟩
      cases within with
      | false =>
          rw [dropComments, if_pos isBlank]
          exact inductionHypothesis areBlank
      | true =>
          rw [dropComments, inductionHypothesis areBlank, inductionHypothesis areBlank, ite_self]

theorem dropComments_dropWhile (chars : List Char) :
    dropComments false (chars.dropWhile Unicode.isBlank) = dropComments false chars := by
  induction chars with
  | nil => rfl
  | cons c rest inductionHypothesis =>
      rw [List.dropWhile_cons, dropComments]
      split
      · exact inductionHypothesis
      · rename_i noBlank
        rw [dropComments, if_neg noBlank]

/-- Something is seen ahead unless everything is ignored. -/
theorem exists_peek (notEmpty : flags.skip chars ≠ []) : exists c, flags.peek chars = some c := by
  have exists_head : forall {chars : List Char}, chars ≠ [] -> exists c, chars.head? = some c := by
    intro chars notEmpty
    rcases List.exists_cons_of_ne_nil notEmpty with ⟨c, rest, rfl⟩
    exact ⟨c, rfl⟩
  rw [skip] at notEmpty
  rw [peek.eq_def]
  split
  · rename_i extended
    rw [if_pos extended, <- dropComments_dropWhile] at notEmpty
    split
    · rename_i rest isComment
      rw [isComment, dropComments, if_neg (by decide), if_pos rfl] at notEmpty
      apply exists_head
      intro areBlank
      exact notEmpty (dropComments_blanks (List.dropWhile_eq_nil_iff.mp areBlank))
    · apply exists_head
      intro none
      rw [none] at notEmpty
      exact notEmpty rfl
  · rename_i extended
    rw [if_neg extended] at notEmpty
    exact exists_head notEmpty

end PatternFlags

namespace Bracket

/-- The start of a bracket behind the caret. -/
def readBehindCaret (flags : PatternFlags) (negated : Bool) (chars : List Char) :
    Bracket × List Char :=
  let dashes := readDashes flags (chars.length + 1) (opened negated) chars
  match chars with
  | ']' :: rest => (dashes.1.addChar ']', flags.skip rest)
  | _ => dashes

theorem readOpen_caret {flags : PatternFlags} {chars rest : List Char}
    (isCaret : flags.skip chars = '^' :: rest) :
    readOpen flags chars = readBehindCaret flags true (flags.skip rest) := by
  rw [readOpen, isCaret]
  rfl

theorem readOpen_plain {flags : PatternFlags} {chars : List Char}
    (noCaret : forall rest, flags.skip chars ≠ '^' :: rest) :
    readOpen flags chars = readBehindCaret flags false (flags.skip chars) := by
  rw [readOpen]
  generalize flags.skip chars = chars at noCaret
  split
  rename_i negated chars' same
  split at same
  · exact absurd rfl (noCaret _)
  · cases same
    rfl

/-- The name of a class, behind its colon and caret. -/
def readName (ignoreCase negated : Bool) (rest : List Char) : Option (CharSet × List Char) :=
  match rest.dropWhile (· ≠ ':') with
  | ':' :: ']' :: after =>
    (CharSet.named? (String.ofList (rest.takeWhile (· ≠ ':')))).map fun set =>
      ((set.closeCaseIf ignoreCase).complementIf negated, after)
  | _ => none

theorem readNamed_plain {ignoreCase : Bool} {rest : List Char}
    (noCaret : forall rest', rest ≠ '^' :: rest') :
    readNamed ignoreCase (':' :: rest) = readName ignoreCase false rest :=
  readNamed.eq_2 ignoreCase rest noCaret

theorem readNamed_other {ignoreCase : Bool} {c : Char} {rest : List Char} (noColon : c ≠ ':') :
    readNamed ignoreCase (c :: rest) = none := by
  rw [readNamed.eq_3]
  rintro rest' same
  exact noColon (List.cons.inj same).1

/-- What an element and the dash behind it stand for. -/
def readBehindDash (flags : PatternFlags) (first : PatternEscape) (chars : List Char) :
    Option (CharSet × List Char) :=
  if flags.peek chars = some ']' ∨ flags.peek chars = some '-' then
    (elementSet? first).map fun set => (set, '-' :: chars)
  else
    match first, readElement flags (flags.skip chars) with
    | .literal low, some (.literal high, rest) =>
      if low ≤ high then some (.range low high, rest) else none
    | _, _ => none

/-- What an element and the characters behind it stand for. -/
def readBehindElement (flags : PatternFlags) (first : PatternEscape) :
    List Char -> Option (CharSet × List Char)
  | [] => none
  | '-' :: afterDash => readBehindDash flags first afterDash
  | rest => (elementSet? first).map fun set => (set, rest)

theorem readItem_of_element {flags : PatternFlags} {chars rest : List Char} {first : PatternEscape}
    (isFirst : readElement flags chars = some (first, rest)) :
    readItem flags chars = readBehindElement flags first (flags.skip rest) := by
  rw [readItem, isFirst]
  rfl

/-- One round of reading a bracket, behind what is ignored. -/
def readRound (flags : PatternFlags)
    (again : Bracket -> List Bracket -> List Char -> Option (NestedSet × List Char))
    (bracket : Bracket) (outer : List Bracket) : List Char -> Option (NestedSet × List Char)
  | [] => none
  | '[' :: rest =>
    match readNamed flags.ignoreCase rest with
    | some (set, rest) => again (bracket.add ⟨set, 0⟩) outer rest
    | none => again (readOpen flags rest).1 (bracket :: outer) (readOpen flags rest).2
  | ']' :: rest =>
    match outer with
    | [] => some (bracket.close flags.ignoreCase, rest)
    | parent :: outer => again (parent.add (bracket.close flags.ignoreCase)) outer rest
  | '&' :: '&' :: rest => again (bracket.operate flags.ignoreCase .inter) outer rest
  | '-' :: '-' :: rest => again (bracket.operate flags.ignoreCase .diff) outer rest
  | '~' :: '~' :: rest => again (bracket.operate flags.ignoreCase .symmDiff) outer rest
  | chars =>
    match readItem flags chars with
    | some (set, rest) => again (bracket.add ⟨set, 0⟩) outer rest
    | none => none

theorem readFrom_succ (flags : PatternFlags) (fuel : Nat) (bracket : Bracket) (outer : List Bracket)
    (chars : List Char) : readFrom flags (fuel + 1) bracket outer chars =
      readRound flags (readFrom flags fuel) bracket outer (flags.skip chars) := by
  rw [readFrom]
  rfl

end Bracket

section Readers

variable {more : List Char} (ends : EndsGroup more) {flags : PatternFlags} {chars longer : List Char}

include ends

namespace PatternEscape

theorem readFixed_readsOn (count : Nat) (goesOn : GoesOn more chars longer) :
    ReadsOn more (readFixed flags count chars) (readFixed flags count longer) := by
  induction count generalizing chars longer with
  | zero => exact .of_some [] goesOn
  | succ count inductionHypothesis =>
      cases chars with
      | nil => exact .of_none _
      | cons c rest =>
          obtain rfl := goesOn.cons
          exact (inductionHypothesis ((GoesOn.append more rest).skip ends flags)).map (c :: ·)

theorem readBraced_readsOn {fuel further : Nat} (enough : fuel ≤ further)
    (goesOn : GoesOn more chars longer) :
    ReadsOn more (readBraced flags fuel chars) (readBraced flags further longer) := by
  induction fuel generalizing further chars longer with
  | zero => exact .of_none _
  | succ fuel inductionHypothesis =>
      rcases Nat.exists_eq_add_one_of_ne_zero (Nat.ne_zero_of_lt enough) with ⟨further, rfl⟩
      cases chars with
      | nil => exact .of_none _
      | cons c rest =>
          obtain rfl := goesOn.cons
          have skipped := (GoesOn.append more rest).skip ends flags
          rw [readBraced, readBraced]
          apply ReadsOn.ite
          · exact .of_some [] skipped
          · exact (inductionHypothesis (Nat.le_of_succ_le_succ enough) skipped).map (c :: ·)

theorem readCode_readsOn (count : Nat) (goesOn : GoesOn more chars longer) :
    ReadsOn more (readCode flags count chars) (readCode flags count longer) := by
  have skipped := goesOn.skip ends flags
  rw [readCode, readCode]
  generalize flags.skip chars = chars at skipped
  generalize flags.skip longer = longer at skipped
  intro escape left isRead
  split at isRead
  · rename_i rest
    obtain rfl := skipped.cons
    split at isRead
    · rename_i digits left' areDigits
      have enough : rest.length + 1 ≤ (rest ++ more).length + 1 := by
        rw [List.length_append]
        omega
      rcases readBraced_readsOn ends enough ((GoesOn.append more rest).skip ends flags) digits left'
        areDigits with ⟨longer, areDigits', goesOn'⟩
      simp only [areDigits']
      split at isRead
      · cases isRead
      · rename_i notEmpty
        rw [if_neg notEmpty]
        exact ReadsOn.map_const (ofHex? digits) goesOn' escape left isRead
    · cases isRead
  · rename_i notBrace
    split
    · rename_i rest'
      rcases skipped.head ends (by decide) with ⟨rest, rfl, _⟩
      exact absurd rfl (notBrace rest)
    · split at isRead
      · rename_i digits left' areDigits
        rcases readFixed_readsOn ends count skipped digits left' areDigits with
          ⟨longer, areDigits', goesOn'⟩
        simp only [areDigits']
        exact ReadsOn.map_const (ofHex? digits) goesOn' escape left isRead
      · cases isRead

theorem read_readsOn (goesOn : GoesOn more chars longer) :
    ReadsOn more (read flags chars) (read flags longer) := by
  cases chars with
  | nil => exact .of_none _
  | cons c rest =>
      obtain rfl := goesOn.cons
      have later := GoesOn.append more rest
      rw [read, read]
      refine .ite (readCode_readsOn ends 2 later) (.ite (readCode_readsOn ends 4 later)
        (.ite (readCode_readsOn ends 8 later) ?_))
      exact .map_const (single? c) later

end PatternEscape

namespace Bracket

theorem readDashes_goesOn {fuel fuel' : Nat} (enough : chars.length < fuel)
    (enough' : longer.length < fuel') (bracket : Bracket) (goesOn : GoesOn more chars longer) :
    (readDashes flags fuel bracket chars).1 = (readDashes flags fuel' bracket longer).1 ∧
      GoesOn more (readDashes flags fuel bracket chars).2 (readDashes flags fuel' bracket longer).2 := by
  induction fuel generalizing fuel' bracket chars longer with
  | zero => exact absurd enough (Nat.not_lt_zero _)
  | succ fuel inductionHypothesis =>
      rcases Nat.exists_eq_add_one_of_ne_zero (Nat.ne_zero_of_lt enough') with ⟨fuel', rfl⟩
      by_cases isDash : exists rest, chars = '-' :: rest
      · rcases isDash with ⟨rest, rfl⟩
        obtain rfl := goesOn.cons
        have shorter := flags.skip_length_le rest
        have shorter' := flags.skip_length_le (rest ++ more)
        rw [List.length_cons] at enough enough'
        exact inductionHypothesis (by omega) (by omega) (bracket.addChar '-')
          ((GoesOn.append more rest).skip ends flags)
      · have noDash : forall rest, longer ≠ '-' :: rest := by
          rintro rest rfl
          rcases goesOn.head ends (by decide) with ⟨rest, isDash', _⟩
          exact isDash ⟨rest, isDash'⟩
        rw [readDashes.eq_2 _ _ _ _ (fun _ rest _ same => isDash ⟨rest, same⟩),
          readDashes.eq_2 _ _ _ _ (fun _ rest _ same => noDash rest same)]
        exact ⟨rfl, goesOn⟩

theorem readBehindCaret_goesOn (negated : Bool) (goesOn : GoesOn more chars longer) :
    (readBehindCaret flags negated chars).1 = (readBehindCaret flags negated longer).1 ∧
      GoesOn more (readBehindCaret flags negated chars).2 (readBehindCaret flags negated longer).2 := by
  have dashes := @readDashes_goesOn more ends flags _ _ _ _ (Nat.lt_succ_self _)
    (Nat.lt_succ_self _) (opened negated) goesOn
  by_cases isClosing : exists rest, chars = ']' :: rest
  · rcases isClosing with ⟨rest, rfl⟩
    obtain rfl := goesOn.cons
    exact ⟨congrArg (addChar · ']') dashes.1, (GoesOn.append more rest).skip ends flags⟩
  · have notClosing : forall rest, longer ≠ ']' :: rest := by
      rintro rest rfl
      rcases goesOn.head ends (by decide) with ⟨rest, isClosing', _⟩
      exact isClosing ⟨rest, isClosing'⟩
    rw [readBehindCaret.eq_2 _ _ _ (fun rest same => isClosing ⟨rest, same⟩),
      readBehindCaret.eq_2 _ _ _ notClosing]
    exact dashes

theorem readOpen_goesOn (goesOn : GoesOn more chars longer) :
    (readOpen flags chars).1 = (readOpen flags longer).1 ∧
      GoesOn more (readOpen flags chars).2 (readOpen flags longer).2 := by
  have skipped := goesOn.skip ends flags
  by_cases isCaret : exists rest, flags.skip chars = '^' :: rest
  · rcases isCaret with ⟨rest, isCaret⟩
    rw [isCaret] at skipped
    rw [readOpen_caret isCaret, readOpen_caret skipped.cons]
    exact readBehindCaret_goesOn ends true ((GoesOn.append more rest).skip ends flags)
  · have noCaret : forall rest, flags.skip longer ≠ '^' :: rest := by
      intro rest isCaret'
      rw [isCaret'] at skipped
      rcases skipped.head ends (by decide) with ⟨rest, isCaret'', _⟩
      exact isCaret ⟨rest, isCaret''⟩
    rw [readOpen_plain (fun rest same => isCaret ⟨rest, same⟩), readOpen_plain noCaret]
    exact readBehindCaret_goesOn ends false skipped

theorem readName_append (ignoreCase negated : Bool) (rest : List Char) :
    readName ignoreCase negated (rest ++ more) =
      (readName ignoreCase negated rest).map fun named => (named.1, named.2 ++ more) := by
  cases isRest : rest.dropWhile (· ≠ ':') with
  | nil =>
      have noColon : more.dropWhile (· ≠ ':') = [] := by
        apply List.dropWhile_eq_nil_iff.mpr
        intro c member
        exact decide_eq_true fun isColon => ends.noColon (isColon ▸ member)
      have isLonger : (rest ++ more).dropWhile (· ≠ ':') = [] := by
        rw [List.dropWhile_append, isRest]
        exact noColon
      rw [readName, readName, isRest, isLonger]
      rfl
  | cons first after =>
      have notEmpty : rest.dropWhile (· ≠ ':') ≠ [] := by
        rw [isRest]
        exact List.cons_ne_nil _ _
      have isName : (rest ++ more).takeWhile (· ≠ ':') = rest.takeWhile (· ≠ ':') := by
        rw [List.takeWhile_append, if_neg]
        intro same
        have length := congrArg List.length (List.takeWhile_append_dropWhile (p := (· ≠ ':')) (l := rest))
        rw [List.length_append, isRest, List.length_cons] at length
        omega
      rw [readName, readName, isName, PatternFlags.dropWhile_append notEmpty, isRest]
      by_cases isEnd : exists left, after = ']' :: left ∧ first = ':'
      · rcases isEnd with ⟨left, rfl, rfl⟩
        change Option.map _ _ = Option.map _ (Option.map _ _)
        rw [Option.map_map]
        rfl
      · have noEnd : forall after', first :: after = ':' :: ']' :: after' -> False := by
          intro after' same
          cases same
          exact isEnd ⟨after', rfl, rfl⟩
        have noEnd' : forall after', first :: after ++ more = ':' :: ']' :: after' -> False := by
          intro after' same
          rw [List.cons_append] at same
          rcases List.cons.inj same with ⟨rfl, isSecond⟩
          have behind := GoesOn.append more after
          rw [isSecond] at behind
          rcases behind.head ends (by decide) with ⟨after'', isAfter, _⟩
          exact isEnd ⟨after'', isAfter, rfl⟩
        split
        · rename_i after' same
          exact (noEnd' after' same).elim
        · rfl

theorem readNamed_append (ignoreCase : Bool) (chars : List Char) :
    readNamed ignoreCase (chars ++ more) =
      (readNamed ignoreCase chars).map fun named => (named.1, named.2 ++ more) := by
  rcases ends.begins with ⟨later, isMore⟩
  cases chars with
  | nil =>
      rw [isMore]
      rfl
  | cons c rest =>
      by_cases isColon : c = ':'
      · subst isColon
        cases rest with
        | nil =>
            have noCaret : forall rest, more ≠ '^' :: rest := by
              rintro rest rfl
              cases isMore
            have noName := readName_append ends ignoreCase false []
            rw [List.cons_append, List.nil_append, readNamed_plain noCaret]
            exact noName
        | cons first rest =>
            by_cases isCaret : first = '^'
            · subst isCaret
              exact readName_append ends ignoreCase true rest
            · rw [List.cons_append, List.cons_append,
                readNamed_plain (fun _ same => isCaret (List.cons.inj same).1),
                readNamed_plain (fun _ same => isCaret (List.cons.inj same).1)]
              exact readName_append ends ignoreCase false (first :: rest)
      · rw [List.cons_append, readNamed_other isColon, readNamed_other isColon]
        rfl

theorem readElement_readsOn (goesOn : GoesOn more chars longer) :
    ReadsOn more (readElement flags chars) (readElement flags longer) := by
  cases chars with
  | nil => exact .of_none _
  | cons c rest =>
      obtain rfl := goesOn.cons
      by_cases escapes : c = '\\'
      · subst escapes
        exact PatternEscape.read_readsOn ends (GoesOn.append more rest)
      · rw [readElement.eq_3 _ _ _ escapes, readElement.eq_3 _ _ _ escapes]
        exact .of_some _ (GoesOn.append more rest)

theorem readBehindDash_readsOn (first : PatternEscape) (chars : List Char) :
    ReadsOn more (readBehindDash flags first chars) (readBehindDash flags first (chars ++ more)) := by
  intro set left isRead
  rw [readBehindDash.eq_def] at isRead
  split at isRead
  · rename_i isLiteral
    have isNext : flags.peek (chars ++ more) = flags.peek chars := by
      rcases isLiteral with isNext | isNext
      · rw [isNext, PatternFlags.peek_append isNext]
      · rw [isNext, PatternFlags.peek_append isNext]
    rw [readBehindDash.eq_def, isNext, if_pos isLiteral]
    exact ReadsOn.map_const (elementSet? first) (GoesOn.append more ('-' :: chars)) set left isRead
  · rename_i noLiteral
    split at isRead
    · rename_i low high after isHigh
      have behindDash := (GoesOn.append more chars).skip ends flags
      rcases readElement_readsOn ends behindDash _ after isHigh with ⟨after', isHigh', goesOn'⟩
      have notEmpty : flags.skip chars ≠ [] := by
        intro none
        rw [none] at isHigh
        cases isHigh
      rcases PatternFlags.exists_peek notEmpty with ⟨c, isNext⟩
      have isNext' : flags.peek (chars ++ more) = flags.peek chars := by
        rw [isNext, PatternFlags.peek_append isNext]
      rw [readBehindDash.eq_def, isNext', if_neg noLiteral, isHigh']
      exact ReadsOn.ite (.of_some _ goesOn') (.of_none _) set left isRead
    · cases isRead

theorem readBehindElement_readsOn (first : PatternEscape) (goesOn : GoesOn more chars longer) :
    ReadsOn more (readBehindElement flags first chars) (readBehindElement flags first longer) := by
  cases chars with
  | nil => exact .of_none _
  | cons c rest =>
      obtain rfl := goesOn.cons
      by_cases isDash : c = '-'
      · subst isDash
        exact readBehindDash_readsOn ends first rest
      · have noDash : forall rest' after, c :: rest' = '-' :: after -> False :=
          fun _ _ same => isDash (List.cons.inj same).1
        rw [readBehindElement.eq_3 _ _ _ (List.cons_ne_nil _ _) (noDash _),
          readBehindElement.eq_3 _ _ _ (List.cons_ne_nil _ _) (noDash _)]
        exact .map_const (elementSet? first) (GoesOn.append more (c :: rest))

theorem readItem_readsOn (goesOn : GoesOn more chars longer) :
    ReadsOn more (readItem flags chars) (readItem flags longer) := by
  cases isFirst : readElement flags chars with
  | none =>
      rw [readItem, isFirst]
      exact .of_none _
  | some read =>
      rcases readElement_readsOn ends goesOn read.1 read.2 isFirst with ⟨rest', isFirst', later⟩
      rw [readItem_of_element isFirst, readItem_of_element isFirst']
      exact readBehindElement_readsOn ends read.1 (later.skip ends flags)

variable {again again' : Bracket -> List Bracket -> List Char -> Option (NestedSet × List Char)}

theorem readRound_readsOn (agrees : forall bracket outer chars longer, GoesOn more chars longer ->
      ReadsOn more (again bracket outer chars) (again' bracket outer longer))
    (bracket : Bracket) (outer : List Bracket) (goesOn : GoesOn more chars longer) :
    ReadsOn more (readRound flags again bracket outer chars)
      (readRound flags again' bracket outer longer) := by
  intro result left isRead
  rw [readRound.eq_def] at isRead
  split at isRead
  · cases isRead
  · rename_i rest
    obtain rfl := goesOn.cons
    rw [readRound.eq_2, readNamed_append ends]
    split at isRead
    · rename_i set after isNamed
      simp only [isNamed, Option.map_some]
      exact agrees _ _ _ _ (GoesOn.append more after) result left isRead
    · rename_i isNone
      have opened := @readOpen_goesOn more ends flags _ _ (GoesOn.append more rest)
      simp only [isNone, Option.map_none, <- opened.1]
      exact agrees _ _ _ _ opened.2 result left isRead
  · rename_i rest
    obtain rfl := goesOn.cons
    cases outer with
    | nil => exact ReadsOn.of_some _ (GoesOn.append more rest) result left isRead
    | cons parent outer => exact agrees _ _ _ _ (GoesOn.append more rest) result left isRead
  · rename_i rest
    obtain rfl := goesOn.cons
    exact agrees _ _ _ _ (GoesOn.append more rest) result left isRead
  · rename_i rest
    obtain rfl := goesOn.cons
    exact agrees _ _ _ _ (GoesOn.append more rest) result left isRead
  · rename_i rest
    obtain rfl := goesOn.cons
    exact agrees _ _ _ _ (GoesOn.append more rest) result left isRead
  · rename_i notEmpty noBracket noEnd noInter noDiff noSymmDiff
    cases chars with
    | nil => exact absurd rfl notEmpty
    | cons c rest =>
        obtain rfl := goesOn.cons
        -- The second character of an operator is none that ends a group.
        have noOperator : forall {sign : Char}, sign ≠ ')' ->
            (forall after, c :: rest = sign :: sign :: after -> False) ->
              forall after, c :: (rest ++ more) = sign :: sign :: after -> False := by
          intro sign other noSign after same
          rcases List.cons.inj same with ⟨rfl, isSecond⟩
          have behind := GoesOn.append more rest
          rw [isSecond] at behind
          rcases behind.head ends other with ⟨after', isAfter, _⟩
          exact noSign after' (congrArg (c :: ·) isAfter)
        have noSign : forall {sign : Char}, (forall after, c :: rest = sign :: after -> False) ->
            forall after, c :: (rest ++ more) = sign :: after -> False := by
          intro sign none after same
          exact none rest (congrArg (· :: rest) (List.cons.inj same).1)
        rw [readRound.eq_8 _ _ _ _ (c :: (rest ++ more)) (List.cons_ne_nil _ _) (noSign noBracket)
          (noSign noEnd) (noOperator (by decide) noInter) (noOperator (by decide) noDiff)
          (noOperator (by decide) noSymmDiff)]
        split at isRead
        · rename_i set after isItem
          rcases readItem_readsOn ends (GoesOn.append more (c :: rest)) set after isItem with
            ⟨after', isItem', goesOn'⟩
          rw [List.cons_append] at isItem'
          simp only [isItem']
          exact agrees _ _ _ _ goesOn' result left isRead
        · cases isRead

theorem readFrom_readsOn {fuel further : Nat} (enough : fuel ≤ further) (bracket : Bracket)
    (outer : List Bracket) (goesOn : GoesOn more chars longer) :
    ReadsOn more (readFrom flags fuel bracket outer chars)
      (readFrom flags further bracket outer longer) := by
  induction fuel generalizing further bracket outer chars longer with
  | zero => exact .of_none _
  | succ fuel inductionHypothesis =>
      rcases Nat.exists_eq_add_one_of_ne_zero (Nat.ne_zero_of_lt enough) with ⟨further, rfl⟩
      rw [readFrom_succ, readFrom_succ]
      apply readRound_readsOn ends _ bracket outer (goesOn.skip ends flags)
      intro bracket outer chars longer goesOn
      exact inductionHypothesis (Nat.le_of_succ_le_succ enough) bracket outer goesOn

theorem read_readsOn (chars : List Char) :
    ReadsOn more (read flags chars) (read flags (chars ++ more)) := by
  have opened := @readOpen_goesOn more ends flags _ _ (GoesOn.append more chars)
  have enough : (readOpen flags chars).2.length + 1 ≤ (readOpen flags (chars ++ more)).2.length + 1 := by
    rcases opened.2 with isLonger | ⟨none, none'⟩
    · rw [isLonger, List.length_append]
      omega
    · rw [none, none']
  have isRead : read flags (chars ++ more) = readFrom flags ((readOpen flags (chars ++ more)).2.length + 1)
      (readOpen flags chars).1 [] (readOpen flags (chars ++ more)).2 := by
    rw [opened.1]
    rfl
  rw [isRead]
  exact readFrom_readsOn ends enough _ [] opened.2

end Bracket

end Readers
end SeedGrammar
