import SeedGrammar.Proofs.Engine.Shift
import SeedGrammar.Proofs.PlainText
import SeedGrammar.Proofs.Text.Offsets

namespace SeedGrammar

/-!
# Texts behind texts

Behind a text in front, leaves find what they find without it: literals and
characters stand at the moved offsets, a regular expression is matched against
what is left of the text, and the end is as far away.  So parsing is invariant
under translation.  From the end of the text in front, a run does what it does
from the start of the other text alone.

The author's functions have to take part in this.  They commute with moving
positions if they give moved results for moved outcomes and ranges, and that
includes that they do not look at the text in front.  The matched part of the
input they may look at, since it is the same.
-/

variable {types : TextTypes}

/-- Whether a failure that a leaf always gives contains no positions. -/
def Leaf.KeepsPayload {L : Signature} {ρ : Type} (shift : Shift L) : Leaf L ρ -> Prop
  | .fail _ payload => payload.map shift.payload = payload
  | _ => True

/-- Whether the author's functions and payloads in a grammar commute with
moving positions from a text to a longer one. -/
def Grammar.Commutes (shift : Shift types.signature) (whole part : String)
    (grammar : Grammar types.signature) : Prop :=
  forall (id : NodeId) clause, grammar.nodes[id]? = some clause ->
    clause.Moves shift whole part (Leaf.KeepsPayload shift)

/-- Ranges that are moved behind a text in front span what they did. -/
theorem Token.span_moved {front text : String} {shift : Shift types.signature}
    (amount : shift.amount = Text.byteLength front.toList) (range : Nat × Nat)
    (state : types.State) (node : NodeId) :
    Token.span (⟨front ++ text, shift.range range, state, node⟩ : Token types.signature) =
      Token.span (⟨text, range, state, node⟩ : Token types.signature) := by
  change Text.slice _ (shift.amount + range.1) (shift.amount + range.2) = _
  rw [amount]
  exact Text.slice_append front text range.1 range.2

namespace Leaf

section Ends

variable {L : Signature} (shift : Shift L)

/-- What a leaf comes to, moved. -/
def movedEnd (reached : Outcome L × Context L) : Outcome L × Context L :=
  (shift.outcome reached.1, shift.context reached.2)

theorem failed_moved (context : Context L) (error : ParseError L.Payload) :
    failed (shift.context context) (shift.error error) =
      movedEnd shift (failed context error) := rfl

/-- Values of leaves contain no positions. -/
theorem matched_moved (context : Context L) {value : Value L} (keeps : shift.value value = value)
    {position width : Nat} :
    matched (shift.context context) value (shift.amount + position + width) =
      movedEnd shift (matched context value (position + width)) := by
  rw [Nat.add_assoc]
  conv_lhs => rw [<- keeps]
  rfl

end Ends

variable {front text : String} {shift : Shift types.signature}
  {atom : Leaf types.signature PatternProgram}

/-- Behind a text in front a leaf finds what it finds without it. -/
theorem moves_of_readsText (amount : shift.amount = Text.byteLength front.toList)
    (reads : atom.ReadsText) (keeps : atom.KeepsPayload shift) :
    atom.Moves shift (front ++ text) text := by
  intro self context
  change _ = movedEnd shift _
  have place : (shift.context context).position = shift.amount + context.position := rfl
  have failing : failure (shift.context context) self = shift.error (failure context self) := rfl
  have message : forall said, (shift.error (failure context self)).withMessage said =
      shift.error ((failure context self).withMessage said) := fun _ => rfl
  cases atom with
  | exact literal =>
      have stands : Stream.matchesAt (S := String) (front ++ text) (shift.amount + context.position)
          literal = Stream.matchesAt (S := String) text context.position literal := by
        rw [amount]
        exact Text.matchesAt_append front text context.position literal
      simp only [run, place, failing]
      rw [stands]
      split
      · exact matched_moved shift context rfl
      · exact failed_moved shift context _
  | charset set label read =>
      have isRead : read = Text.charAt := reads
      subst isRead
      have found : Text.charAt (front ++ text) (shift.amount + context.position) =
          Text.charAt text context.position := by
        rw [amount]
        exact Text.charAt_append front text context.position
      simp only [run, place, failing, found, message]
      split
      · split
        · exact matched_moved shift context rfl
        · exact failed_moved shift context _
      · exact failed_moved shift context _
  | pattern source program read =>
      have isRead : read = id := reads
      subst isRead
      have left : Text.dropBytes (shift.amount + context.position) (id (front ++ text)).toList =
          Text.dropBytes context.position (id text).toList := by
        rw [amount, id, id, String.toList_append, Text.dropBytes_append]
      simp only [run, place, failing, left]
      split
      · exact failed_moved shift context _
      · split
        · exact matched_moved shift context rfl
        · exact failed_moved shift context _
  | empty => rfl
  | eof =>
      have ended : Stream.length (S := String) (front ++ text) ≤ shift.amount + context.position ↔
          Stream.length (S := String) text ≤ context.position := by
        change Text.byteLength _ ≤ _ ↔ Text.byteLength _ ≤ _
        rw [amount, Text.toList_length_append, Nat.add_le_add_iff_left]
      simp only [run, place, failing, message]
      by_cases isEnd : Stream.length (S := String) text ≤ context.position
      · rw [if_pos isEnd, if_pos (ended.mpr isEnd)]
        rfl
      · rw [if_neg isEnd, if_neg (mt ended.mp isEnd)]
        exact failed_moved shift context _
  | fail said payload =>
      have kept : payload.map shift.payload = payload := keeps
      change failed _ _ = movedEnd shift (failed context _)
      rw [<- failed_moved]
      simp only [Shift.error, kept]
      rfl
  | custom name act => exact reads.elim

end Leaf

/-- Parsing is invariant under translation.  A node that runs afresh at the end of
a text in front comes to what it comes to at the start of the rest alone: with
as many steps it ends alike, with the same outcome and state, and ends, failures
and ranges lie farther by the length of the text in front. -/
theorem Machine.run_behind (grammar : Grammar types.signature) (front text : String)
    (shift : Shift types.signature) (amount : shift.amount = Text.byteLength front.toList)
    (reads : grammar.ReadsText) (commutes : grammar.Commutes shift (front ++ text) text)
    (maxDepth steps depth : Nat) (id : NodeId) (state : types.State) :
    ((Machine.mk grammar text maxDepth).run steps depth id (Snapshot.fresh ⟨0, state⟩)).MovedBy
      shift ((Machine.mk grammar (front ++ text) maxDepth).run steps depth id
        (Snapshot.fresh ⟨Text.byteLength front.toList, state⟩)) := by
  have moves : grammar.Moves shift (front ++ text) text := by
    intro id clause found
    have commute := commutes id clause found
    cases clause with
    | leaf atom => exact Leaf.moves_of_readsText amount (reads id atom found) commute
    | _ => exact commute
  rw [<- amount]
  exact Machine.run_fresh moves maxDepth steps depth id state

/-! ## Sums and where they are -/

/-- Text with a counter, and with ranges as values. -/
def rangeTypes : TextTypes :=
  ⟨Nat, Empty, Unit, fun _ => Nat × Nat, fun _ => "range", inferInstance⟩

/-- Ranges contain two positions. -/
def rangeShift (amount : Nat) : Shift rangeTypes.signature :=
  ⟨amount, fun _ range => (amount + range.1, amount + range.2), id⟩

/-- Replaces a value by where it was matched. -/
def located : Transform rangeTypes.signature :=
  fun outcome token => .ok (outcome.map fun _ => ⟨.own (), token.range⟩)

/-- Adds the length of what was matched. -/
def measured (count : Nat) (token : Token rangeTypes.signature) : Nat :=
  count + Text.byteLength (token.span : String).toList

/-- Sums, read from the left, that come to where they are.  The lengths of their
terms are counted. -/
def locatedSums : Grammar rangeTypes.signature :=
  ⟨[.leftRecursion 1, .choice [2, 4], .map 3 located, .sequence [0, 5] (.pick 0),
      .map 8 located, .sequence [7, 8] (.pick 1), .leaf (.exact "1"), .leaf (.exact "+"),
      .update 6 measured], []⟩

theorem locatedSums_commutes (front text : String) :
    locatedSums.Commutes (rangeShift (Text.byteLength front.toList)) (front ++ text) text := by
  have locates :
      located.Moves (rangeShift (Text.byteLength front.toList)) (front ++ text) text := by
    intro outcome range state node
    cases outcome <;> rfl
  have measures : UpdateMoves (rangeShift (Text.byteLength front.toList)) (front ++ text) text
      measured := by
    intro count range state node
    exact congrArg (fun span : String => Nat.add count (Text.byteLength span.toList))
      (Token.span_moved rfl range state node)
  intro id clause found
  match id with
  | 0 | 1 | 3 | 5 | 6 | 7 =>
      cases found
      trivial
  | 2 | 4 =>
      cases found
      exact locates
  | 8 =>
      cases found
      exact measures
  | _ + 9 => cases found

theorem locatedSums_readsText : locatedSums.ReadsText := by
  intro id atom found
  match id with
  | 6 | 7 =>
      cases found
      trivial
  | 0 | 1 | 2 | 3 | 4 | 5 | 8 => cases found
  | _ + 9 => cases found

/-- A sum behind a character of two bytes is found two bytes farther. -/
theorem locatedSums_behind :
    locatedSums.ReadsText ∧ locatedSums.Commutes (rangeShift 2) ("é" ++ "1+1") "1+1" ∧
      exists moved,
        (locatedSums.machine ("é" ++ "1+1")).run 12 1 0 (Snapshot.fresh ⟨2, (0 : Nat)⟩) =
          .finished (.ok ⟨.own (), (2, 5)⟩) moved ∧
        moved.position = 5 ∧ moved.state = (2 : Nat) ∧ moved.range = (2, 5) := by
  have commutes := locatedSums_commutes "é" "1+1"
  refine ⟨locatedSums_readsText, commutes, ?_⟩
  have alone : exists last, (locatedSums.machine "1+1").run 12 1 0 (Snapshot.fresh ⟨0, (0 : Nat)⟩) =
      .finished (.ok ⟨.own (), (0, 3)⟩) last ∧
      last.position = 3 ∧ last.state = (2 : Nat) ∧ last.range = (0, 3) := ⟨_, rfl, rfl, rfl, rfl⟩
  rcases alone with ⟨last, ends, position, state, range⟩
  have behind := Machine.run_behind locatedSums "é" "1+1" (rangeShift 2) rfl
    locatedSums_readsText commutes 0 12 1 0 (0 : Nat)
  have length : Text.byteLength "é".toList = 2 := rfl
  rw [Grammar.machine] at ends
  rw [ends, length] at behind
  rcases behind.of_finished with ⟨moved, endsThere, carries⟩
  refine ⟨moved, endsThere, ?_, ?_, ?_⟩
  · rw [carries.position, position]
    rfl
  · rw [carries.state, state]
  · rcases carries.range with ranges | ⟨_, unset⟩
    · rw [ranges, range]
      rfl
    · rw [range] at unset
      cases unset

end SeedGrammar
