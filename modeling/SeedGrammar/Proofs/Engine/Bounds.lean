import SeedGrammar.Proofs.Engine.Contract
import SeedGrammar.Proofs.Engine.SeedHistory
import SeedGrammar.Proofs.Text.Offsets

namespace SeedGrammar

/-!
# Positions inside the input

A context is within bounds if its position is inside the input and each of
its seeds ends between the place where it started and the end of the input.
A failure is sound if it is reported at a place that the engine can answer
for.  Runs lead from contexts within bounds to others, keep the seeds that
they find, and never go back.

The last part has one exception.  A leaf of the author's own reports how many
units it consumed, and this count is added to the position as machine words
are: a count that is too large wraps around, and the position goes back.  So
`Bounds.forward` is a condition under which no such thing happens, and the
other bounds do not depend on it.

What leaves read is their own affair.  That it lies inside the input is
assumed of them here, and shown of the leaves that the combinators make for
texts and for bytes.
-/

namespace Text

theorem byteLength_of_dropBytes {offset : Nat} {chars rest : List Char}
    (dropped : dropBytes offset chars = some rest) :
    offset + byteLength rest = byteLength chars := by
  rcases dropBytes_eq_some.mp dropped with ⟨before, rfl, rfl⟩
  rw [byteLength_append]

theorem byteLength_take_le (count : Nat) (chars : List Char) :
    byteLength (chars.take count) ≤ byteLength chars := by
  have split := byteLength_append (chars.take count) (chars.drop count)
  rw [List.take_append_drop] at split
  omega

end Text

/-- Inputs whose literals only stand where there is room for them. -/
class LawfulStream (S : Type) [Stream S] : Prop where
  room : forall {input literal : S} {position : Nat},
    Stream.matchesAt input position literal = true ->
      position + Stream.length literal ≤ Stream.length input

/-- Inputs whose characters take at least one unit and lie inside, and which
have at least as many units as their text has bytes. -/
class LawfulCharStream (S : Type) [Stream S] [CharStream S] : Prop where
  room : forall {input : S} {position : Nat} {c : Char} {width : Nat},
    CharStream.charAt input position = some (c, width) ->
      0 < width ∧ position + width ≤ Stream.length input
  text_le : forall input : S,
    Text.byteLength (CharStream.text input).toList ≤ Stream.length input

instance : LawfulStream String where
  room {input literal position} stands := by
    have found := Text.matchesAt_iff.mp stands
    have fits := found.2.length_le
    rw [List.length_drop, Text.length_bytes, Text.length_bytes] at fits
    have inside := found.1
    change position + Text.byteLength literal.toList ≤ Text.byteLength input.toList
    omega

instance : LawfulCharStream String where
  room {input position c width} isThere := by
    change Text.charAt input position = some (c, width) at isThere
    rw [Text.charAt] at isThere
    split at isThere
    · rename_i here rest dropped
      cases isThere
      have total := Text.byteLength_of_dropBytes dropped
      rw [Text.byteLength_cons] at total
      refine ⟨c.utf8Size_pos, ?_⟩
      change position + c.utf8Size ≤ Text.byteLength input.toList
      omega
    · cases isThere
  text_le _ := Nat.le_refl _

instance : LawfulStream (List UInt8) where
  room {input literal position} stands := by
    change (decide (position ≤ input.length) && literal.isPrefixOf (input.drop position)) = true
      at stands
    rw [Bool.and_eq_true, decide_eq_true_iff, List.isPrefixOf_iff_prefix] at stands
    have fits := stands.2.length_le
    rw [List.length_drop] at fits
    change position + literal.length ≤ input.length
    omega

variable {L : Signature}

/-! ## What leaves read -/

namespace Leaf

/-- Whether what a leaf reads lies inside the input. -/
def ReadsWithin (input : L.Input) : Leaf L PatternProgram -> Prop
  | exact literal => forall position, Stream.matchesAt input position literal = true ->
      position + Stream.length literal ≤ Stream.length input
  | charset _ _ read => forall position c width, read input position = some (c, width) ->
      0 < width ∧ position + width ≤ Stream.length input
  | pattern _ _ text => Text.byteLength (text input).toList ≤ Stream.length input
  | _ => True

/-- Whether the count that a leaf of the author's own reports in a context
makes the position wrap around. -/
def Wraps (input : L.Input) (context : Context L) : Leaf L PatternProgram -> Prop
  | custom _ act => exists value count,
      act input context.position context.state = .ok (value, count) ∧
        wordCount ≤ context.position + count
  | _ => False

theorem exact_readsWithin [LawfulStream L.Input] (input literal : L.Input) :
    (exact literal : Leaf L PatternProgram).ReadsWithin input :=
  fun _ => LawfulStream.room

theorem charset_readsWithin [CharStream L.Input] [LawfulCharStream L.Input] (input : L.Input)
    (set : CharSet) (label : String) :
    (charset set label CharStream.charAt : Leaf L PatternProgram).ReadsWithin input :=
  fun _ _ _ => LawfulCharStream.room

theorem pattern_readsWithin [CharStream L.Input] [LawfulCharStream L.Input] (input : L.Input)
    (source : String) (program : PatternProgram) :
    (pattern source program CharStream.text : Leaf L PatternProgram).ReadsWithin input :=
  LawfulCharStream.text_le input

/-- A leaf fails where it is, or moves to a place inside the input, which lies
behind only if the position wraps around. -/
theorem run_cases {input : L.Input} {atom : Leaf L PatternProgram}
    (reads : atom.ReadsWithin input) (self : NodeId) {context : Context L}
    (inside : context.position ≤ Stream.length input) :
    (exists error, atom.run input self context = (.error error, context) ∧
      error.position = context.position) ∨
    exists value position,
      atom.run input self context = (.ok value, { context with position := position }) ∧
        position ≤ Stream.length input ∧
        (¬atom.Wraps input context -> context.position ≤ position) := by
  cases atom with
  | exact literal =>
      rw [run]
      by_cases stands : Stream.matchesAt input context.position literal = true
      · rw [if_pos stands]
        exact Or.inr ⟨_, _, rfl, reads _ stands, fun _ => Nat.le_add_right _ _⟩
      · rw [if_neg stands]
        exact Or.inl ⟨_, rfl, rfl⟩
  | charset set label read =>
      simp only [run]
      cases isRead : read input context.position with
      | none => exact Or.inl ⟨_, rfl, rfl⟩
      | some found =>
          rcases found with ⟨c, width⟩
          by_cases member : set.contains c = true
          · simp only [if_pos member]
            exact Or.inr ⟨_, _, rfl, (reads _ _ _ isRead).2, fun _ => Nat.le_add_right _ _⟩
          · simp only [if_neg member]
            exact Or.inl ⟨_, rfl, rfl⟩
  | pattern source program text =>
      simp only [run]
      cases dropped : Text.dropBytes context.position (text input).toList with
      | none => exact Or.inl ⟨_, rfl, rfl⟩
      | some rest =>
          dsimp only
          cases found : program.find? rest with
          | none => exact Or.inl ⟨_, rfl, rfl⟩
          | some result =>
              have total := Text.byteLength_of_dropBytes dropped
              have part := Text.byteLength_take_le result.stop rest
              have textInside : Text.byteLength (text input).toList ≤ Stream.length input := reads
              refine Or.inr ⟨_, _, rfl, ?_, fun _ => Nat.le_add_right _ _⟩
              omega
  | empty => exact Or.inr ⟨_, _, rfl, inside, fun _ => Nat.le_refl _⟩
  | eof =>
      rw [run]
      by_cases ended : Stream.length input ≤ context.position
      · rw [if_pos ended]
        exact Or.inr ⟨_, _, rfl, inside, fun _ => Nat.le_refl _⟩
      · rw [if_neg ended]
        exact Or.inl ⟨_, rfl, rfl⟩
  | fail message payload =>
      rw [run]
      exact Or.inl ⟨_, rfl, rfl⟩
  | custom name act =>
      simp only [run]
      cases result : act input context.position context.state with
      | error rejection =>
          cases rejection with
          | plain => exact Or.inl ⟨_, rfl, rfl⟩
          | message message => exact Or.inl ⟨_, rfl, rfl⟩
          | payload payload => exact Or.inl ⟨_, rfl, rfl⟩
      | ok found =>
          rcases found with ⟨value, count⟩
          refine Or.inr ⟨_, _, rfl, Nat.min_le_right _ _, ?_⟩
          intro steady
          have small : context.position + count < wordCount := by
            apply Nat.lt_of_not_le
            intro wraps
            exact steady ⟨value, count, result, wraps⟩
          rw [wordAdd, Nat.mod_eq_of_lt small]
          exact Nat.le_min.mpr ⟨Nat.le_add_right _ _, inside⟩

/-- Where a count wraps around, the position does go back. -/
theorem wordAdd_lt_of_wraps {position count : Nat} (word : count < wordCount)
    (beyond : wordCount ≤ position + count) : wordAdd position count < position := by
  rw [wordAdd]
  by_cases isWord : position < wordCount
  · rw [Nat.mod_eq_sub_mod beyond, Nat.mod_eq_of_lt (by omega)]
    omega
  · exact Nat.lt_of_lt_of_le (Nat.mod_lt _ (by decide)) (Nat.le_of_not_lt isWord)

theorem run_wraps {input : L.Input} {atom : Leaf L PatternProgram} (self : NodeId)
    {context : Context L}
    (words : forall name act, atom = .custom name act ->
      forall position state value count, act input position state = .ok (value, count) ->
        count < wordCount)
    (wraps : atom.Wraps input context) :
    (atom.run input self context).2.position < context.position := by
  cases atom with
  | custom name act =>
      rcases wraps with ⟨value, count, result, beyond⟩
      have word := words name act rfl _ _ _ _ result
      simp only [run, result]
      exact Nat.lt_of_le_of_lt (Nat.min_le_left _ _) (wordAdd_lt_of_wraps word beyond)
  | exact literal => exact wraps.elim
  | charset set label read => exact wraps.elim
  | pattern source program text => exact wraps.elim
  | empty => exact wraps.elim
  | eof => exact wraps.elim
  | fail message payload => exact wraps.elim

end Leaf

/-! ## Bounds -/

/-- What holds of a parse: its input, which failures are sound, and a
condition under which positions never go back. -/
structure Bounds (L : Signature) where
  input : L.Input
  sound : ParseError L.Payload -> Prop
  forward : Prop
  inside : forall error, error.position ≤ Stream.length input -> sound error

/-- Where the input ends. -/
def Bounds.limit (bounds : Bounds L) : Nat :=
  Stream.length bounds.input

/-- Whether a seed that starts at some place ends in the input after it.  The
end of a match lies farther than its start, for only the first seed, which is
a failure, stays there. -/
structure Seed.Within (bounds : Bounds L) (start : Nat) (seed : Seed L) : Prop where
  after : start ≤ seed.position
  inside : seed.position ≤ bounds.limit
  advanced : forall value, seed.outcome = .ok value -> start < seed.position
  sound : forall error, seed.outcome = .error error -> bounds.sound error

/-- Whether position and seeds of a context are inside the input. -/
structure Context.Within (bounds : Bounds L) (context : Context L) : Prop where
  position : context.position ≤ bounds.limit
  seeds : forall key seed, context.seedAt key = some seed -> seed.Within bounds key.2

/-- Whether a run within bounds can lead from one context to another. -/
structure Context.Reaches (bounds : Bounds L) (first after : Context L) : Prop where
  within : after.Within bounds
  forward : bounds.forward -> first.position ≤ after.position
  keeps : forall key seed, first.seedAt key = some seed -> after.seedAt key = some seed

/-- Whether a context that is reached lies at the same place, and could not have
been elsewhere in between. -/
def Context.Stays (bounds : Bounds L) (first after : Context L) : Prop :=
  bounds.forward ∧ after.position ≤ first.position

namespace Context

variable {bounds : Bounds L}

/-- Any position of the input is one where a run can start afresh. -/
theorem within_of_no_seeds {bounds : Bounds L} {context : Context L}
    (inside : context.position ≤ bounds.limit) (none : context.seeds = SeedTable.empty) :
    context.Within bounds where
  position := inside
  seeds key seed planted := by
    rw [seedAt, none] at planted
    cases planted

theorem start_within (bounds : Bounds L) (state : L.State) :
    (Context.start state).Within bounds :=
  within_of_no_seeds (Nat.zero_le _) rfl

namespace Reaches

theorem refl {context : Context L} (within : context.Within bounds) :
    context.Reaches bounds context where
  within := within
  forward _ := Nat.le_refl _
  keeps _ _ planted := planted

theorem trans {first middle last : Context L} (before : first.Reaches bounds middle)
    (after : middle.Reaches bounds last) : first.Reaches bounds last where
  within := after.within
  forward steady := Nat.le_trans (before.forward steady) (after.forward steady)
  keeps key seed planted := after.keeps key seed (before.keeps key seed planted)

/-- Nothing else of a context matters than position and seeds. -/
theorem moved {first middle : Context L} (reaches : first.Reaches bounds middle)
    (position : Nat) (state : L.State) (range : Nat × Nat) (inside : position ≤ bounds.limit)
    (ahead : bounds.forward -> first.position ≤ position) :
    first.Reaches bounds ⟨position, state, range, middle.seeds⟩ where
  within := ⟨inside, reaches.within.seeds⟩
  forward := ahead
  keeps := reaches.keeps

/-- Going on from the same place with another state. -/
theorem updated {first middle : Context L} (reaches : first.Reaches bounds middle)
    (state : L.State) (range : Nat × Nat) :
    first.Reaches bounds ⟨middle.position, state, range, middle.seeds⟩ :=
  reaches.moved middle.position state range reaches.within.position reaches.forward

/-- Going back to where a run started. -/
theorem restored {first middle : Context L} (within : first.Within bounds)
    (reaches : first.Reaches bounds middle) :
    first.Reaches bounds (middle.restore first.snapshot) :=
  reaches.moved first.position first.state middle.range within.position fun _ => Nat.le_refl _

/-- Going to the end of a seed that started here. -/
theorem replayed {first middle : Context L} {seed : Seed L}
    (reaches : first.Reaches bounds middle) (within : seed.Within bounds first.position) :
    first.Reaches bounds { middle with position := seed.position, state := seed.state } :=
  reaches.moved seed.position seed.state middle.range within.inside fun _ => within.after

/-- A seed may be planted or replaced where the run found none at first. -/
theorem planted {first middle : Context L} {key : NodeId × Nat} {seed : Seed L}
    (reaches : first.Reaches bounds middle) (absent : first.seedAt key = none)
    (within : seed.Within bounds key.2) : first.Reaches bounds (middle.withSeed key seed) where
  within := by
    refine ⟨reaches.within.position, ?_⟩
    intro other found isThere
    by_cases same : other = key
    · rw [same, seedAt_withSeed_self] at isThere
      cases isThere
      rw [same]
      exact within
    · rw [seedAt_withSeed_of_ne _ _ same] at isThere
      exact reaches.within.seeds other found isThere
  forward := reaches.forward
  keeps other found isThere := by
    have foreign : other ≠ key := by
      intro same
      rw [same, absent] at isThere
      cases isThere
    rw [seedAt_withSeed_of_ne _ _ foreign]
    exact reaches.keeps other found isThere

end Reaches

/-- If a run stays at a place as a whole, its parts do. -/
theorem Stays.parts {first middle last : Context L} (stays : first.Stays bounds last)
    (before : first.Reaches bounds middle) (after : middle.Reaches bounds last) :
    first.Stays bounds middle ∧ middle.Stays bounds last := by
  have ahead := before.forward stays.1
  have later := after.forward stays.1
  have back := stays.2
  exact ⟨⟨stays.1, by omega⟩, ⟨stays.1, by omega⟩⟩

end Context

/-- How a run may end that stays where it is only if a condition holds. -/
def Bounds.ending (bounds : Bounds L) (idle : Prop) (first : Context L) : Ending L where
  matched after := first.Reaches bounds after ∧ (first.Stays bounds after -> idle)
  failed error after := first.Reaches bounds after ∧ bounds.sound error

end SeedGrammar
