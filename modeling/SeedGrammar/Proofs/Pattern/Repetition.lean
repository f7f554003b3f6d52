import SeedGrammar.Proofs.Pattern.Anchoring
import SeedGrammar.Proofs.Pattern.Iteration
import SeedGrammar.Proofs.Pattern.Preference

namespace SeedGrammar

/-!
# Repetitions behind an anchor

An expression behind the start of the text matches from there or not at all.  Its match
is the preferred one of its fragment, `Pattern.find?_of_prefers`.  That of a greedy
repetition goes through preferred matches of its fragment until there are no more of
them, or it is not repeated any more, `Pattern.find?_repeated`; and where there is a match
of the repetition, the fragment matches as often as is required,
`Pattern.rounds_of_find?_repeated`.
-/

namespace Pattern

open Assembly

/-- An expression behind the start of the text. -/
def behindStart (inner : Pattern) : Pattern :=
  seq (assert .textStart) inner

/-- What stands at the end of every program. -/
def programEnd : Array Instruction := #[.accept, .mark 1 0]

theorem programEnd_closed : Closed programEnd := by
  rintro holds place next ⟨instruction, found, member⟩
  have inRange : place < 2 := (Array.getElem?_eq_some_iff.mp found).1
  obtain rfl | rfl : place = 0 ∨ place = 1 := by omega
  · cases found
    cases member
  · cases found
    rw [List.mem_singleton.mp member]
    exact Nat.zero_lt_two

variable {inner : Pattern}

/-- What the program of an expression behind the start of the text consists of. -/
structure Starts (inner : Pattern) (program : AssembledProgram) : Prop where
  keeps : Keeps (((inner.assemble 1).run programEnd).2.push
    (.assert .textStart ((inner.assemble 1).run programEnd).1)) program.code
  opens : program.code[program.entry]? =
    some (.mark 0 ((inner.assemble 1).run programEnd).2.size)
  entry : program.entry = ((inner.assemble 1).run programEnd).2.size + 1

theorem starts_behindStart (inner : Pattern) : Starts inner inner.behindStart.assembled := by
  let laid := (inner.assemble 1).run programEnd
  let anchored := laid.2.push (.assert .textStart laid.1)
  have isProgram : inner.behindStart.assembled = ⟨anchored.push (.mark 0 laid.2.size), anchored.size,
    inner.behindStart.groupCount, inner.behindStart.isAnchored⟩ := rfl
  rw [isProgram]
  exact ⟨push_keeps anchored _, Array.getElem?_push_size, Array.size_push ..⟩

namespace Starts

variable {program : AssembledProgram} (starts : Starts inner program)

include starts

theorem keepsInner : Keeps ((inner.assemble 1).run programEnd).2 program.code :=
  Keeps.trans (push_keeps _ _) starts.keeps

theorem anchor : program.code[((inner.assemble 1).run programEnd).2.size]? =
    some (.assert .textStart ((inner.assemble 1).run programEnd).1) := by
  rw [starts.keeps _ (by rw [Array.size_push]; exact Nat.lt_succ_self _), Array.getElem?_push_size]

theorem ends (numbered : inner.Numbered) : Ends program.code := by
  have laid := assemble_laid numbered 1 programEnd
  have kept : Keeps programEnd program.code := Keeps.trans laid.keeps starts.keepsInner
  exact ⟨kept 0 Nat.zero_lt_two, kept 1 Nat.one_lt_two⟩

/-- From the start of the text the program goes on behind the anchor. -/
theorem way (numbered : inner.Numbered) {text : List Char} {last : Spot}
    (way : Way program.code last ((inner.assemble 1).run programEnd).1 ⟨none, text⟩) :
    Way program.code last program.entry ⟨none, text⟩ := by
  let laid := (inner.assemble 1).run programEnd
  have isLaid : Laid 1 programEnd laid.2 laid.1 := assemble_laid numbered 1 programEnd
  have inRange : laid.1 < laid.2.size := isLaid.entry_lt Nat.one_lt_two
  have closed : Closed laid.2 := programEnd_closed.laid isLaid Nat.one_lt_two
  have closed' : Closed (laid.2.push (.assert .textStart laid.1)) := closed.push inRange
  have size : (laid.2.push (.assert .textStart laid.1)).size = laid.2.size + 1 := Array.size_push ..
  have anchored : Way program.code last laid.2.size ⟨none, text⟩ := by
    have onward : (Instruction.assert .textStart laid.1).onward (Spot.holds ⟨none, text⟩) =
        [] ++ laid.1 :: [] := rfl
    apply way.step starts.anchor onward (List.forall_mem_nil _)
    intro returns
    exact Nat.lt_irrefl _ (closed.reaches starts.keepsInner inRange returns)
  have onward : (Instruction.mark 0 laid.2.size).onward (Spot.holds ⟨none, text⟩) =
      [] ++ laid.2.size :: [] := rfl
  apply anchored.step starts.opens onward (List.forall_mem_nil _)
  intro returns
  have inside := closed'.reaches starts.keeps (by omega) returns
  rw [size, starts.entry] at inside
  exact Nat.lt_irrefl _ inside

/-- The program comes to its end from the start of the text only, and from behind the
anchor. -/
theorem comes {last spot : Spot} (comes : Comes program.code last program.entry spot) :
    spot.previous = none ∧ Comes program.code last ((inner.assemble 1).run programEnd).1 spot := by
  rcases comes.goesOn (by simp [Halts, starts.opens]) with ⟨anchor, ⟨_, found, member⟩, comes'⟩
  cases found.symm.trans starts.opens
  rw [List.mem_singleton.mp member] at comes'
  rcases comes'.goesOn (by simp [Halts, starts.anchor]) with ⟨first, ⟨_, found, member⟩, comes''⟩
  cases found.symm.trans starts.anchor
  rw [Instruction.onward] at member
  split at member
  · rename_i holds
    rw [List.mem_singleton.mp member] at comes''
    exact ⟨Option.isNone_iff_eq_none.mp holds, comes''⟩
  · cases member

/-- The program finds a match only if it can come to its end from behind the anchor. -/
theorem comes_of_find? {text : List Char} {found : PatternMatch}
    (matched : program.find? text = some found) :
    exists last, Comes program.code last ((inner.assemble 1).run programEnd).1 ⟨none, text⟩ := by
  have atStart : forall c rest last, ¬Comes program.code last program.entry ⟨some c, rest⟩ := by
    intro c rest last comes
    cases (starts.comes comes).1
  rcases AssembledProgram.comes_of_find? atStart matched with ⟨last, comes⟩
  exact ⟨last, (starts.comes comes).2⟩

end Starts

variable {numbered : inner.Numbered} {text : List Char}

/-- A preferred match is the one that is found. -/
theorem find?_of_prefers {after : Spot} (prefers : (inner.fragment numbered).Prefers ⟨none, text⟩ after) :
    exists found, inner.behindStart.toProgram.find? text = some found ∧
      text.drop found.stop = after.rest := by
  have starts := starts_behindStart inner
  apply AssembledProgram.find?_of_way
  apply starts.way numbered
  exact iteration_way numbered programEnd_closed Nat.one_lt_two starts.keepsInner prefers
    ((starts.ends numbered).way after)

/-- What is found is a preferred match. -/
theorem prefers_of_find? (numbered : inner.Numbered) {found : PatternMatch}
    (matched : inner.behindStart.toProgram.find? text = some found) :
    exists after, (inner.fragment numbered).Prefers ⟨none, text⟩ after ∧
      text.drop found.stop = after.rest := by
  have starts := starts_behindStart inner
  rcases starts.comes_of_find? matched with ⟨last, comes⟩
  rcases assemble_copies numbered Nat.one_lt_two
    (fun place _ inRange => starts.keepsInner place inRange) with ⟨copied, isEntry, _⟩
  rw [isEntry] at comes
  rcases copied.comes (Fragment.entered _) comes with ⟨middle, comes', _⟩
  rcases comes'.exists_way with ⟨after, prefers⟩
  rcases find?_of_prefers prefers with ⟨found', matched', ends⟩
  cases matched.symm.trans matched'
  exact ⟨after, prefers, ends⟩

/-! ## Repetitions -/

/-- A repetition is laid out as iterations, also where it is only once or not at all. -/
theorem assemble_repeated (bounds : RepeatBounds) (greedy : Bool) (inner : Pattern) (next : Nat) :
    (repeated bounds greedy inner).assemble next =
      iterations inner.assemble inner.consumes (bounds.capped inner.isZeroWidth) greedy next := by
  rw [repeated]
  split
  · rename_i none
    rw [none]
    rfl
  · split
    · rename_i once
      rw [once]
      rfl
    · rfl

theorem repeated_numbered {bounds : RepeatBounds} {greedy : Bool} {body : Pattern}
    (numbered : body.Numbered) : (repeated bounds greedy body).Numbered := by
  rw [repeated]
  split
  · trivial
  · split
    · exact numbered
    · exact numbered

variable {bounds : RepeatBounds}

/-- A greedy repetition matches what its iterations match as long as there are any, and
as it may be repeated. -/
theorem find?_repeated {count : Nat} {after : Spot}
    (consumes : (inner.fragment numbered).Consumes)
    (rounds : Rounds (inner.fragment numbered).Prefers count ⟨none, text⟩ after)
    (enough : (bounds.capped inner.isZeroWidth).min ≤ count)
    (atMost : forall max, (bounds.capped inner.isZeroWidth).max = some max -> count ≤ max)
    (ends : (bounds.capped inner.isZeroWidth).max = some count ∨
      (inner.fragment numbered).Stuck after) :
    exists found, (repeated bounds true inner).behindStart.toProgram.find? text = some found ∧
      text.drop found.stop = after.rest := by
  have starts := starts_behindStart (repeated bounds true inner)
  have keeps := starts.keepsInner
  have isNumbered : (repeated bounds true inner).Numbered := repeated_numbered numbered
  apply AssembledProgram.find?_of_way
  apply starts.way isNumbered
  have isEnd := starts.ends isNumbered
  rw [assemble_repeated] at keeps ⊢
  exact iterations_way numbered programEnd_closed isEnd (Nat.le_refl _) keeps consumes rounds enough
    atMost ends (isEnd.way after)

/-- Where there is a match of a repetition there are as many of what is repeated as are
required. -/
theorem rounds_of_find?_repeated (numbered : inner.Numbered) {found : PatternMatch}
    (matched : (repeated bounds true inner).behindStart.toProgram.find? text = some found) :
    exists after, Rounds (inner.fragment numbered).Matches
      (bounds.capped inner.isZeroWidth).min ⟨none, text⟩ after := by
  have starts := starts_behindStart (repeated bounds true inner)
  have keeps := starts.keepsInner
  rcases starts.comes_of_find? matched with ⟨last, comes⟩
  rw [assemble_repeated] at keeps comes
  exact iterations_comes numbered (Nat.le_refl _) keeps comes

/-! ## Single characters -/

section One

variable {set : CharSet} {oneNumbered : (one set).Numbered}

/-- An expression for one character of a set matches such a character and nothing
else. -/
theorem one_matches {spot after : Spot}
    (matched : ((one set).fragment oneNumbered).Matches spot after) :
    exists c, set.contains c = true ∧ spot.rest = c :: after.rest ∧ after.previous = some c := by
  have reads : ((one set).fragment oneNumbered).code[1]? = some (.one set 0) := rfl
  have accepts : ((one set).fragment oneNumbered).code[0]? = some .accept := rfl
  cases matched with
  | arrives found => cases reads.symm.trans found
  | slips slips _ =>
      rcases slips with ⟨_, found, member⟩
      cases reads.symm.trans found
      cases member
  | @consumes _ _ _ _ c rest found inSet comes =>
      cases reads.symm.trans found
      refine ⟨c, inSet, ?_⟩
      cases comes with
      | arrives _ => exact ⟨rfl, rfl⟩
      | slips slips _ =>
          rcases slips with ⟨_, found, member⟩
          cases accepts.symm.trans found
          cases member
      | consumes found _ _ => cases accepts.symm.trans found

theorem one_prefers {c : Char} (inSet : set.contains c = true) (previous : Option Char)
    (rest : List Char) :
    ((one set).fragment oneNumbered).Prefers ⟨previous, c :: rest⟩ ⟨some c, rest⟩ := by
  have reads : ((one set).fragment oneNumbered).code[1]? = some (.one set 0) := rfl
  have comes : ((one set).fragment oneNumbered).Matches ⟨previous, c :: rest⟩ ⟨some c, rest⟩ :=
    .consumes reads inSet (.arrives rfl)
  rcases comes.exists_way with ⟨⟨before, left⟩, way⟩
  rcases one_matches way.comes with ⟨c', _, isRest, isBefore⟩
  cases isRest
  cases isBefore
  exact way

end One

end Pattern
end SeedGrammar
