import SeedGrammar.Proofs.CharSet.Membership

namespace SeedGrammar
namespace CharSet

/-!
# What a compact form lists

A compact form is read from left to right, one character at a time, where an escape
counts as the character that it stands for.  Behind a character, a dash makes a range if
there is another character behind the dash; the dash has to stand there as such, since
an escape starts with a backslash.  `Reads` says this of the text itself.

The form is decoded in two steps, which see less at once: the first forgets where the
text was, and the second looks two items ahead.  Nevertheless the outcome is that of the
reading, `ofCompact_reads`.  A range whose ends are the wrong way round is the only reason
to refuse a form, and otherwise the set holds what the entries list.

Every list of entries has a form of its own.  In it no entry starts with a dash, so the
entries do not run into each other.
-/

open Text

/-- What a compact form lists: a character, or those from one to another. -/
inductive CompactEntry where
  | single (c : Char)
  | range (first last : Char)
deriving DecidableEq, Repr

namespace CompactEntry

/-- Whether a character is listed. -/
def Lists (c : Char) : CompactEntry -> Prop
  | single own => c = own
  | range first last => first ≤ c ∧ c ≤ last

/-- Whether the ends of a range are in order. -/
def Ordered : CompactEntry -> Prop
  | single _ => True
  | range first last => first ≤ last

instance (entry : CompactEntry) : Decidable entry.Ordered :=
  match entry with
  | single _ => inferInstanceAs (Decidable True)
  | range first last => inferInstanceAs (Decidable (first ≤ last))

/-- The ends of an entry as code points. -/
def codes : CompactEntry -> Nat × Nat
  | single own => (own.toNat, own.toNat)
  | range first last => (first.toNat, last.toNat)

/-- A character as it is written: by itself if a backslash would give it another
meaning, and after a backslash otherwise. -/
def writtenChar (c : Char) : List Char :=
  if c = 'n' ∨ c = 't' ∨ c = 'r' then [c] else ['\\', c]

/-- An entry as it is written. -/
def written : CompactEntry -> List Char
  | single own => writtenChar own
  | range first last => writtenChar first ++ '-' :: writtenChar last

/-- An entry lists the characters between its ends. -/
theorem lists_iff {entry : CompactEntry} {c : Char} :
    entry.Lists c ↔ entry.codes.1 ≤ c.toNat ∧ c.toNat ≤ entry.codes.2 := by
  cases entry with
  | single own =>
      refine ⟨?_, fun between => Char.toNat_inj.mp (Nat.le_antisymm between.2 between.1)⟩
      rintro rfl
      exact ⟨Nat.le_refl _, Nat.le_refl _⟩
  | range first last => exact Iff.rfl

/-- The ranges of entries whose ends are in order are bounded. -/
theorem codes_bounded {entries : List CompactEntry}
    (ordered : forall entry, entry ∈ entries -> entry.Ordered) :
    CodeRanges.Bounded (entries.map codes) := by
  intro ends member
  rcases List.mem_map.mp member with ⟨entry, isEntry, rfl⟩
  cases entry with
  | single own => exact ⟨Nat.le_refl _, (char_scalar own).1⟩
  | range first last => exact ⟨ordered _ isEntry, (char_scalar last).1⟩

/-- No entry starts with a dash. -/
theorem written_head (entry : CompactEntry) :
    exists head tail, entry.written = head :: tail ∧ head ≠ '-' := by
  have ofChar : forall c, exists head tail, writtenChar c = head :: tail ∧ head ≠ '-' := by
    intro c
    rw [writtenChar]
    split
    · rename_i named
      refine ⟨c, [], rfl, ?_⟩
      rintro rfl
      revert named
      decide
    · exact ⟨'\\', [c], rfl, by decide⟩
  cases entry with
  | single own => exact ofChar own
  | range first last =>
      rcases ofChar first with ⟨head, tail, isWritten, noDash⟩
      refine ⟨head, tail ++ '-' :: writtenChar last, ?_, noDash⟩
      rw [written, isWritten, List.cons_append]

end CompactEntry

/-! ## The reading -/

/-- Whether a text starts with a character, as such or as an escape, and what is behind
it.  A backslash at the end is itself. -/
inductive ReadsChar : List Char -> Char -> List Char -> Prop where
  | bare {c : Char} {rest : List Char} : c ≠ '\\' -> ReadsChar (c :: rest) c rest
  | escaped {c : Char} {rest : List Char} : ReadsChar ('\\' :: c :: rest) (unescape c) rest
  | last : ReadsChar ['\\'] '\\' []

/-- Whether a text, read from left to right, lists some entries.  A dash behind a
character makes a range unless it is the end of the text. -/
inductive Reads : List Char -> List CompactEntry -> Prop where
  | done : Reads [] []
  | range {text behind rest : List Char} {first last : Char} {entries : List CompactEntry} :
      ReadsChar text first ('-' :: behind) -> ReadsChar behind last rest -> Reads rest entries ->
        Reads text (.range first last :: entries)
  | single {text rest : List Char} {c : Char} {entries : List CompactEntry} :
      ReadsChar text c rest -> (forall behind, rest = '-' :: behind -> behind = []) ->
        Reads rest entries -> Reads text (.single c :: entries)

variable {text rest behind : List Char} {c first last : Char} {entries : List CompactEntry}

theorem compactItems_bare (isBare : c ≠ '\\') (rest : List Char) :
    compactItems (c :: rest) = ⟨c, false⟩ :: compactItems rest := by
  rw [compactItems.eq_def]
  exact if_neg isBare

namespace ReadsChar

theorem exists_of_ne_nil (notEmpty : text ≠ []) : exists c rest, ReadsChar text c rest := by
  cases text with
  | nil => exact absurd rfl notEmpty
  | cons c rest =>
      by_cases isEscape : c = '\\'
      · subst isEscape
        cases rest with
        | nil => exact ⟨_, _, .last⟩
        | cons next rest => exact ⟨_, _, .escaped⟩
      · exact ⟨_, _, .bare isEscape⟩

theorem ne_nil (reads : ReadsChar text c rest) : text ≠ [] := by
  cases reads <;> exact List.cons_ne_nil _ _

theorem shorter (reads : ReadsChar text c rest) : rest.length < text.length := by
  cases reads with
  | bare _ => exact Nat.lt_succ_self _
  | escaped => exact Nat.lt_succ_of_lt (Nat.lt_succ_self _)
  | last => exact Nat.zero_lt_one

/-- A text starts with one character only. -/
theorem unique {other : Char} {others : List Char} (reads : ReadsChar text c rest)
    (reads' : ReadsChar text other others) : c = other ∧ rest = others := by
  cases reads with
  | bare isBare =>
      cases reads' with
      | bare _ => exact ⟨rfl, rfl⟩
      | escaped => exact absurd rfl isBare
      | last => exact absurd rfl isBare
  | escaped =>
      cases reads' with
      | bare isBare => exact absurd rfl isBare
      | escaped => exact ⟨rfl, rfl⟩
  | last =>
      cases reads' with
      | bare isBare => exact absurd rfl isBare
      | last => exact ⟨rfl, rfl⟩

/-- The first step decodes the character, and notes whether it was an escape. -/
theorem compactItems_eq (reads : ReadsChar text c rest) :
    exists escaped, compactItems text = ⟨c, escaped⟩ :: compactItems rest ∧
      (escaped = false -> text = c :: rest) := by
  cases reads with
  | bare isBare => exact ⟨false, compactItems_bare isBare rest, fun _ => rfl⟩
  | @escaped c rest =>
      have isItem : compactItems ('\\' :: c :: rest) = ⟨unescape c, true⟩ :: compactItems rest := by
        rw [compactItems, if_pos rfl]
      exact ⟨true, isItem, fun isBare => absurd isBare.symm Bool.false_ne_true⟩
  | last => exact ⟨true, rfl, fun isBare => absurd isBare.symm Bool.false_ne_true⟩

theorem written (c : Char) (rest : List Char) :
    ReadsChar (CompactEntry.writtenChar c ++ rest) c rest := by
  rw [CompactEntry.writtenChar]
  by_cases named : c = 'n' ∨ c = 't' ∨ c = 'r'
  · rw [if_pos named]
    apply ReadsChar.bare
    rintro rfl
    revert named
    decide
  · rw [if_neg named]
    have same : unescape c = c := by
      simp only [not_or] at named
      rw [unescape, if_neg named.1, if_neg named.2.1, if_neg named.2.2]
    have reads : ReadsChar ('\\' :: c :: rest) (unescape c) rest := .escaped
    rwa [same] at reads

end ReadsChar

namespace Reads

/-- Every text can be read. -/
theorem exists_reading (text : List Char) : exists entries, Reads text entries := by
  induction length : text.length using Nat.strongRecOn generalizing text with
  | ind size inductionHypothesis =>
      subst length
      by_cases empty : text = []
      · exact ⟨[], empty ▸ .done⟩
      · rcases ReadsChar.exists_of_ne_nil empty with ⟨c, rest, reads⟩
        by_cases dash : exists behind, rest = '-' :: behind ∧ behind ≠ []
        · rcases dash with ⟨behind, rfl, notEmpty⟩
          rcases ReadsChar.exists_of_ne_nil notEmpty with ⟨last, rest, readsLast⟩
          have shorter : rest.length < text.length := by
            have first := reads.shorter
            have second := readsLast.shorter
            rw [List.length_cons] at first
            omega
          rcases inductionHypothesis _ shorter rest rfl with ⟨entries, isReading⟩
          exact ⟨_, .range reads readsLast isReading⟩
        · rcases inductionHypothesis _ reads.shorter rest rfl with ⟨entries, isReading⟩
          refine ⟨_, .single reads ?_ isReading⟩
          intro behind isRest
          exact Decidable.byContradiction fun notEmpty => dash ⟨behind, isRest, notEmpty⟩

/-- A text can be read in one way only. -/
theorem unique {others : List CompactEntry} (reads : Reads text entries)
    (reads' : Reads text others) : entries = others := by
  induction reads generalizing others with
  | done =>
      cases reads' with
      | done => rfl
      | range isFirst _ _ => exact absurd rfl isFirst.ne_nil
      | single isFirst _ _ => exact absurd rfl isFirst.ne_nil
  | range isFirst isLast _ inductionHypothesis =>
      cases reads' with
      | done => exact absurd rfl isFirst.ne_nil
      | range isFirst' isLast' reads' =>
          rcases isFirst.unique isFirst' with ⟨rfl, same⟩
          cases same
          rcases isLast.unique isLast' with ⟨rfl, rfl⟩
          rw [inductionHypothesis reads']
      | single isFirst' atEnd _ =>
          rcases isFirst.unique isFirst' with ⟨rfl, rfl⟩
          exact absurd (atEnd _ rfl) isLast.ne_nil
  | single isFirst atEnd _ inductionHypothesis =>
      cases reads' with
      | done => exact absurd rfl isFirst.ne_nil
      | range isFirst' isLast' _ =>
          rcases isFirst.unique isFirst' with ⟨rfl, rfl⟩
          exact absurd (atEnd _ rfl) isLast'.ne_nil
      | single isFirst' _ reads' =>
          rcases isFirst.unique isFirst' with ⟨rfl, rfl⟩
          rw [inductionHypothesis reads']

/-- Entries that are written are read again. -/
theorem written (entries : List CompactEntry) :
    Reads (entries.flatMap CompactEntry.written) entries := by
  induction entries with
  | nil => exact .done
  | cons entry entries inductionHypothesis =>
      rw [List.flatMap_cons]
      cases entry with
      | single c =>
          refine .single (ReadsChar.written c _) ?_ inductionHypothesis
          intro behind isRest
          cases entries with
          | nil => cases isRest
          | cons next entries =>
              rcases next.written_head with ⟨head, tail, isWritten, noDash⟩
              rw [List.flatMap_cons, isWritten, List.cons_append] at isRest
              exact absurd (List.cons.inj isRest).1 noDash
      | range first last =>
          rw [CompactEntry.written, List.append_assoc, List.cons_append]
          exact .range (ReadsChar.written first _) (ReadsChar.written last _) inductionHypothesis

end Reads

/-! ## The second step -/

/-- A dash behind a character makes a range. -/
theorem compactRanges_range (isFirst : ReadsChar text first ('-' :: behind))
    (isLast : ReadsChar behind last rest) :
    compactRanges (compactItems text) =
      if last < first then .error (first, last)
      else (compactRanges (compactItems rest)).map ((first.toNat, last.toNat) :: ·) := by
  rcases isFirst.compactItems_eq with ⟨firstEscaped, isItem, _⟩
  rcases isLast.compactItems_eq with ⟨lastEscaped, isLastItem, _⟩
  rw [isItem, compactItems_bare (by decide), isLastItem, compactRanges, if_pos ⟨rfl, rfl⟩]

/-- A character without a dash and another character behind it stands for itself. -/
theorem compactRanges_single (isFirst : ReadsChar text c rest)
    (atEnd : forall behind, rest = '-' :: behind -> behind = []) :
    compactRanges (compactItems text) =
      (compactRanges (compactItems rest)).map ((c.toNat, c.toNat) :: ·) := by
  rcases isFirst.compactItems_eq with ⟨escaped, isItem, _⟩
  rw [isItem]
  cases isRest : compactItems rest with
  | nil => rfl
  | cons dash others =>
      cases others with
      | nil => rfl
      | cons last others =>
          rw [compactRanges, if_neg]
          rintro ⟨isDash, isBare⟩
          have notEmpty : rest ≠ [] := by
            rintro rfl
            cases isRest
          rcases ReadsChar.exists_of_ne_nil notEmpty with ⟨c, behind, reads⟩
          rcases reads.compactItems_eq with ⟨escaped, isItem, bare⟩
          rw [isRest] at isItem
          rcases List.cons.inj isItem with ⟨rfl, isBehind⟩
          have atDash : rest = '-' :: behind := (bare isBare).trans (congrArg (· :: behind) isDash)
          rw [atEnd behind atDash] at isBehind
          cases isBehind

/-- What the second step makes of a text that lists entries whose ends are in order. -/
theorem Reads.compactRanges_ok (reads : Reads text entries)
    (ordered : forall entry, entry ∈ entries -> entry.Ordered) :
    compactRanges (compactItems text) = .ok (entries.map CompactEntry.codes) := by
  induction reads with
  | done => rfl
  | range isFirst isLast _ inductionHypothesis =>
      have own : CompactEntry.Ordered (.range _ _) := ordered _ List.mem_cons_self
      have rest := inductionHypothesis fun entry member => ordered entry (List.mem_cons_of_mem _ member)
      rw [compactRanges_range isFirst isLast, if_neg (Char.not_lt.mpr own), rest]
      rfl
  | single isFirst atEnd _ inductionHypothesis =>
      have rest := inductionHypothesis fun entry member => ordered entry (List.mem_cons_of_mem _ member)
      rw [compactRanges_single isFirst atEnd, rest]
      rfl

/-- The second step stops at the first range whose ends are the wrong way round. -/
theorem Reads.compactRanges_error {before after : List CompactEntry} (reads : Reads text entries)
    (split : entries = before ++ .range first last :: after)
    (ordered : forall entry, entry ∈ before -> entry.Ordered) (reversed : last < first) :
    compactRanges (compactItems text) = .error (first, last) := by
  induction reads generalizing before with
  | done => exact absurd split.symm (List.append_ne_nil_of_right_ne_nil _ (List.cons_ne_nil _ _))
  | range isFirst isLast _ inductionHypothesis =>
      rw [compactRanges_range isFirst isLast]
      cases before with
      | nil =>
          cases split
          exact if_pos reversed
      | cons entry before =>
          cases split
          have own : CompactEntry.Ordered (.range _ _) := ordered _ List.mem_cons_self
          rw [if_neg (Char.not_lt.mpr own), inductionHypothesis rfl
            fun entry member => ordered entry (List.mem_cons_of_mem _ member)]
          rfl
  | single isFirst atEnd _ inductionHypothesis =>
      rw [compactRanges_single isFirst atEnd]
      cases before with
      | nil => cases split
      | cons entry before =>
          cases split
          rw [inductionHypothesis rfl
            fun entry member => ordered entry (List.mem_cons_of_mem _ member)]
          rfl

/-! ## The set -/

/-- How a compact form is taken that lists some entries: which they are follows from the
text, a range whose ends are the wrong way round is the only reason to refuse the form, the
first one is reported, and otherwise the set holds what is listed. -/
structure TakenAs (pattern : String) (entries : List CompactEntry) : Prop where
  reading : forall others, Reads pattern.toList others ↔ others = entries
  refused : (exists error, ofCompact pattern = .error error) ↔
    exists entry, entry ∈ entries ∧ ¬entry.Ordered
  reason : forall before first last after, entries = before ++ .range first last :: after ->
    (forall entry, entry ∈ before -> entry.Ordered) -> last < first ->
      ofCompact pattern = .error (.invalidCharset pattern
        ("range " ++ quotedChar first ++ "-" ++ quotedChar last ++ " is reversed"))
  members : forall set, ofCompact pattern = .ok set -> forall c,
    set.contains c = true ↔ exists entry, entry ∈ entries ∧ entry.Lists c

/-- If there is a range whose ends are the wrong way round there is a first one. -/
theorem exists_first_reversed {entry : CompactEntry} (member : entry ∈ entries)
    (reversed : ¬entry.Ordered) : exists before first last after,
      entries = before ++ .range first last :: after ∧
        (forall entry, entry ∈ before -> entry.Ordered) ∧ last < first := by
  induction entries with
  | nil => cases member
  | cons head entries inductionHypothesis =>
      by_cases ordered : head.Ordered
      · have later : entry ∈ entries := by
          rcases List.mem_cons.mp member with rfl | later
          · exact absurd ordered reversed
          · exact later
        rcases inductionHypothesis later with ⟨before, first, last, after, rfl, inOrder, isReversed⟩
        refine ⟨head :: before, first, last, after, rfl, ?_, isReversed⟩
        intro other isOther
        rcases List.mem_cons.mp isOther with rfl | inBefore
        · exact ordered
        · exact inOrder other inBefore
      · cases head with
        | single own => exact absurd trivial ordered
        | range first last =>
            refine ⟨[], first, last, entries, rfl, ?_, Char.not_le.mp ordered⟩
            intro other isOther
            cases isOther

theorem Reads.takenAs {pattern : String} (reads : Reads pattern.toList entries) :
    TakenAs pattern entries := by
  have ofOrdered (ordered : forall entry, entry ∈ entries -> entry.Ordered) :
      ofCompact pattern = .ok (ofRanges (entries.map CompactEntry.codes)) := by
    rw [ofCompact, reads.compactRanges_ok ordered]
  have ofReversed : forall before first last after,
      entries = before ++ .range first last :: after ->
      (forall entry, entry ∈ before -> entry.Ordered) -> last < first ->
        ofCompact pattern = .error (.invalidCharset pattern
          ("range " ++ quotedChar first ++ "-" ++ quotedChar last ++ " is reversed")) := by
    intro before first last after split ordered reversed
    rw [ofCompact, reads.compactRanges_error split ordered reversed]
  refine ⟨?_, ?_, ofReversed, ?_⟩
  · intro others
    refine ⟨fun reads' => reads'.unique reads, ?_⟩
    rintro rfl
    exact reads
  · constructor
    · rintro ⟨error, isError⟩
      apply Decidable.byContradiction
      intro noneReversed
      have ordered : forall entry, entry ∈ entries -> entry.Ordered := by
        intro entry member
        exact Decidable.byContradiction fun reversed => noneReversed ⟨entry, member, reversed⟩
      rw [ofOrdered ordered] at isError
      cases isError
    · rintro ⟨entry, member, reversed⟩
      rcases exists_first_reversed member reversed with
        ⟨before, first, last, after, split, ordered, isReversed⟩
      exact ⟨_, ofReversed before first last after split ordered isReversed⟩
  · intro set isSet c
    have ordered : forall entry, entry ∈ entries -> entry.Ordered := by
      intro entry member
      apply Decidable.byContradiction
      intro reversed
      rcases exists_first_reversed member reversed with
        ⟨before, first, last, after, split, ordered, isReversed⟩
      rw [ofReversed before first last after split ordered isReversed] at isSet
      cases isSet
    rw [ofOrdered ordered] at isSet
    cases isSet
    rw [contains_ofRanges (CompactEntry.codes_bounded ordered), CodeRanges.has,
      CodeRanges.hasCode_iff]
    constructor
    · rintro ⟨ends, member, between⟩
      rcases List.mem_map.mp member with ⟨entry, isEntry, rfl⟩
      exact ⟨entry, isEntry, CompactEntry.lists_iff.mpr between⟩
    · rintro ⟨entry, isEntry, lists⟩
      exact ⟨entry.codes, List.mem_map_of_mem isEntry, CompactEntry.lists_iff.mp lists⟩

/-- A list of entries whose ends are in order has a compact form, and the form stands for
the set of what the entries list.  And every text is taken as what it lists when it is
read from left to right. -/
theorem ofCompact_reads :
    (forall entries : List CompactEntry, (forall entry, entry ∈ entries -> entry.Ordered) ->
      exists set, ofCompact (String.ofList (entries.flatMap CompactEntry.written)) = .ok set ∧
        forall c, set.contains c = true ↔ exists entry, entry ∈ entries ∧ entry.Lists c) ∧
    forall pattern, exists entries, TakenAs pattern entries := by
  constructor
  · intro entries ordered
    let pattern := String.ofList (entries.flatMap CompactEntry.written)
    have reads : Reads pattern.toList entries := by
      rw [String.toList_ofList]
      exact .written entries
    have taken := reads.takenAs
    cases outcome : ofCompact pattern with
    | ok set => exact ⟨set, rfl, taken.members set outcome⟩
    | error error =>
        rcases taken.refused.mp ⟨error, outcome⟩ with ⟨entry, member, reversed⟩
        exact absurd (ordered entry member) reversed
  · intro pattern
    rcases Reads.exists_reading pattern.toList with ⟨entries, reads⟩
    exact ⟨entries, reads.takenAs⟩

/-- Dashes as a character and as an end of a range, a backslash, and letters that a
backslash would turn into controls. -/
def dashEntries : List CompactEntry :=
  [.single '-', .range '-' 'n', .single '\\', .range 't' '~', .single '\n']

/-- The entries with dashes have a form.  And a text with dashes at the end is taken as
what it lists. -/
theorem dashes_read :
    dashEntries.flatMap CompactEntry.written =
        ['\\', '-', '\\', '-', '-', 'n', '\\', '\\', 't', '-', '\\', '~', '\\', '\n'] ∧
      (forall entry, entry ∈ dashEntries -> entry.Ordered) ∧
      (exists set, ofCompact (String.ofList (dashEntries.flatMap CompactEntry.written)) = .ok set ∧
        forall c, set.contains c = true ↔ exists entry, entry ∈ dashEntries ∧ entry.Lists c) ∧
      exists entries, TakenAs "a--" entries := by
  have ordered : forall entry, entry ∈ dashEntries -> entry.Ordered := by decide
  exact ⟨by decide, ordered, ofCompact_reads.1 dashEntries ordered, ofCompact_reads.2 "a--"⟩

end CharSet
end SeedGrammar
