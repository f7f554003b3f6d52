import SeedGrammar.Proofs.CharSet.Membership
import SeedGrammar.Proofs.Engine.RepeatedTurns
import SeedGrammar.Proofs.Grammar.SlicedLeaf
import SeedGrammar.Proofs.Pattern.CountedSource

namespace SeedGrammar

/-!
# Fused repetitions of sets of characters

A repetition of which only the matched input is kept is one regular expression if its
operand is a set of characters, and the loop of the engine otherwise.  The loop takes
characters of the set for as long as it may.  The regular expression is read from a
text, in which the set is written as a class.  It repeats the same set, so its match
takes as many characters: `Pattern.one_fused`.  Hence it does not matter which of the two
is chosen, `Parser.repeatedText_agrees`.
-/

variable {L : Signature} {type : ValueType L.Kind}

/-! ## Parses -/

/-- Whether two parses come to the same up to errors: both succeed with the same value
and have consumed the same, or both fail. -/
inductive ParseRun.Agrees : ParseRun L type -> ParseRun L type -> Prop where
  | succeeds (content : type.Carrier L) (consumed : Nat) (state : L.State) :
      Agrees (.completed ⟨.ok content, consumed, state⟩) (.completed ⟨.ok content, consumed, state⟩)
  | fails {error error' : ParseError L.Payload} {consumed consumed' : Nat} {state state' : L.State} :
      Agrees (.completed ⟨.error error, consumed, state⟩)
        (.completed ⟨.error error', consumed', state'⟩)

/-- A parse that agrees with one that succeeds is the same. -/
theorem ParseRun.Agrees.eq_of_succeeds {run other : ParseRun L type} {content : type.Carrier L}
    {consumed : Nat} {state : L.State} (agrees : run.Agrees other)
    (succeeds : other = .completed ⟨.ok content, consumed, state⟩) :
    run = .completed ⟨.ok content, consumed, state⟩ := by
  cases agrees with
  | succeeds _ _ _ => exact succeeds
  | fails => cases succeeds

namespace EntryPoint

/-- A parse without limits is a run of the root. -/
theorem parseWithin_unlimited (grammar : Grammar L) (root : NodeId) (type : ValueType L.Kind)
    (steps : Nat) (input : L.Input) (state : L.State) :
    (⟨grammar, root, .unlimited⟩ : EntryPoint L type).parseWithin steps input state =
      conclude root ((grammar.machine input).run steps 1 root (Context.start state)) := by
  apply parseWithin_of_accepts
  intro refuses
  exact Nat.lt_irrefl _ refuses.1

end EntryPoint

section Agreement

variable {types : TextTypes} {input : String} {context : Context types.signature}
  {reply reply' : Reply types.signature (Outcome types.signature)} {root root' : NodeId}

/-- Runs that keep the text up to the same place conclude with the same. -/
theorem KeepsUpTo.agrees {left : List Char} (keeps : KeepsUpTo input context left reply)
    (keeps' : KeepsUpTo input context left reply') :
    ParseRun.Agrees (EntryPoint.conclude root reply : ParseRun types.signature .text)
      (EntryPoint.conclude root' reply') := by
  rcases keeps with ⟨position, dropped, isReply⟩
  rcases keeps' with ⟨position', dropped', isReply'⟩
  cases Text.dropBytes_inj dropped dropped'
  rw [isReply, isReply']
  exact .succeeds _ _ _

/-- Runs that fail conclude with failures. -/
theorem Fails.agrees {type : ValueType types.Kind} (fails : Fails reply) (fails' : Fails reply') :
    ParseRun.Agrees (EntryPoint.conclude root reply : ParseRun types.signature type)
      (EntryPoint.conclude root' reply') := by
  rcases fails with ⟨error, after, isReply⟩
  rcases fails' with ⟨error', after', isReply'⟩
  rw [isReply, isReply']
  exact .fails

end Agreement

/-! ## Both forms -/

section Forms

variable {types : TextTypes} {type : ValueType types.Kind}
  {atom : Leaf types.signature PatternProgram} {turn : Turn}

/-- The loop over a leaf, of which the matched input is kept, takes the turns of the leaf. -/
theorem EntryPoint.parse_repeatedSlice (takesTurns : atom.TakesTurns turn type) {input : String}
    (advances : turn.Advances input.toList) {min : Nat} {max : Option Nat}
    (ordered : forall most, max = some most -> min ≤ most) (state : types.signature.State)
    {steps : Nat} (enough : input.toList.length + 3 ≤ steps) :
    exists count left reply, turn.Exhausts 0 max input.toList count left ∧
      (⟨Grammar.repeatedSlice atom type min max, 2, .unlimited⟩ :
          EntryPoint types.signature .text).parseWithin steps input state = conclude 2 reply ∧
      if min ≤ count then KeepsUpTo input (Context.start state) left reply else Fails reply := by
  let start : Context types.signature := Context.start state
  have dropped : Text.dropBytes start.position input.toList = some input.toList :=
    Text.dropBytes_byteLength [] input.toList
  let machine := (Grammar.repeatedSlice atom type min max).machine input
  have isLeaf : machine.grammar.nodes[0]? = some (.leaf atom) := rfl
  have isRepeated : machine.grammar.nodes[1]? = some (.repeated 0 type min max) := rfl
  have isMap : machine.grammar.nodes[2]? = some (.map 1 (Transform.slicing (.list type))) := rfl
  rcases machine.run_repeatedSlice rfl 1 isLeaf takesTurns dropped advances ordered isRepeated isMap
    enough with ⟨count, left, exhausts, isRun⟩
  exact ⟨count, left, _, exhausts, parseWithin_unlimited _ _ _ _ _ _, isRun⟩

/-- A leaf of which the matched input is kept takes one turn. -/
theorem EntryPoint.parse_leafSlice (takesTurns : atom.TakesTurns turn type) (input : String)
    (state : types.signature.State) (steps : Nat) :
    exists reply, (⟨Grammar.leafSlice atom type, 1, .unlimited⟩ :
          EntryPoint types.signature .text).parseWithin (steps + 2) input state = conclude 1 reply ∧
      match turn input.toList with
      | some left => KeepsUpTo input (Context.start state) left reply
      | none => Fails reply := by
  let start : Context types.signature := Context.start state
  have dropped : Text.dropBytes start.position input.toList = some input.toList :=
    Text.dropBytes_byteLength [] input.toList
  let machine := (Grammar.leafSlice atom type).machine input
  have isLeaf : machine.grammar.nodes[0]? = some (.leaf atom) := rfl
  have isMap : machine.grammar.nodes[1]? = some (.map 0 (Transform.slicing type)) := rfl
  exact ⟨_, parseWithin_unlimited _ _ _ _ _ _,
    machine.run_leafSlice rfl 1 isLeaf takesTurns dropped isMap steps⟩

/-- What the loop over a leaf keeps is kept by one regular expression whose match does what
the loop does, and in a simple case both come to the same. -/
theorem EntryPoint.parse_fused (takesTurns : atom.TakesTurns turn type) {input : String}
    (advances : turn.Advances input.toList) {min : Nat} {max : Option Nat}
    (ordered : forall most, max = some most -> min ≤ most) {source : String}
    {program : PatternProgram} {simple : Prop}
    (isFused : turn.FusedBy (Turn.ofProgram program) min max simple input.toList)
    (state : types.signature.State) {steps : Nat} (enough : input.toList.length + 3 ≤ steps)
    {general fused : EntryPoint types.signature .text}
    (isGeneral : general = ⟨Grammar.repeatedSlice atom type min max, 2, .unlimited⟩)
    (isWhole : fused = ⟨Grammar.leafSlice (.pattern source program id) .captures, 1, .unlimited⟩) :
    (forall content consumed final,
      general.parseWithin steps input state = .completed ⟨.ok content, consumed, final⟩ ->
        fused.parseWithin steps input state = .completed ⟨.ok content, consumed, final⟩) ∧
      (simple -> (fused.parseWithin steps input state).Agrees
        (general.parseWithin steps input state)) := by
  -- The general run goes through turns, the fused run takes one turn.
  rcases parse_repeatedSlice takesTurns advances ordered state enough with
    ⟨count, left, reply, exhausts, isLoop, loops⟩
  rcases parse_leafSlice (Leaf.pattern_takesTurns source program) input state (steps - 2) with
    ⟨reply', isMatch, matched⟩
  have isSteps : steps - 2 + 2 = steps := by omega
  rw [isSteps] at isMatch
  rw [isGeneral, isWhole, isLoop, isMatch]
  by_cases reached : min ≤ count
  · rw [if_pos reached] at loops
    rw [isFused.enough count left exhausts reached] at matched
    have agrees : ParseRun.Agrees (conclude 1 reply' : ParseRun types.signature .text)
        (conclude 2 reply) := matched.agrees loops
    exact ⟨fun content consumed final succeeds => agrees.eq_of_succeeds succeeds, fun _ => agrees⟩
  · rw [if_neg reached] at loops
    constructor
    · intro content consumed final succeeds
      rcases loops with ⟨error, failed, rfl⟩
      cases succeeds
    · intro isSimple
      rw [isFused.few isSimple count left exhausts (Nat.lt_of_not_le reached)] at matched
      exact matched.agrees loops

end Forms

/-! ## Sets of characters -/

namespace Pattern

variable {set : CharSet} {min count : Nat} {max : Option Nat} {rest left : List Char}

/-- The turns of the expression of a set take a character of the set. -/
theorem turn_one (set : CharSet) : (one set).turn = Turn.ofSet set := by
  have numbered : (one set).Numbered := trivial
  have isMember : forall {rest left}, (one set).turn.Takes rest left ->
      exists c, set.contains c = true ∧ rest = c :: left := by
    intro rest left takes
    rcases prefers_of_turn numbered takes with ⟨last, prefers⟩
    rcases one_matches prefers.comes with ⟨c, inSet, isRest, _⟩
    exact ⟨c, inSet, isRest⟩
  funext rest
  cases rest with
  | nil =>
      apply Option.eq_none_iff_forall_ne_some.mpr
      intro left takes
      rcases isMember takes with ⟨_, _, isRest⟩
      cases isRest
  | cons c rest =>
      rw [Turn.ofSet]
      split
      · rename_i inSet
        exact turn_takes numbered (one_prefers inSet none rest)
      · rename_i outside
        apply Option.eq_none_iff_forall_ne_some.mpr
        intro left takes
        rcases isMember takes with ⟨_, inSet, isRest⟩
        cases isRest
        exact outside inSet

theorem one_repeatable (set : CharSet) : (one set).Repeatable where
  proper := trivial
  ahead := rfl
  nonempty := congrFun (turn_one set) []

theorem one_determinate (set : CharSet) : (one set).Determinate := by
  intro numbered spot after after' matched matched'
  rcases one_matches matched with ⟨c, _, isRest, _⟩
  rcases one_matches matched' with ⟨c', _, isRest', _⟩
  exact (List.cons.inj (isRest.symm.trans isRest')).2

/-- The repetition of a set does what the loop over turns of the set does. -/
theorem one_fused (set : CharSet) (ordered : forall most, max = some most -> min ≤ most)
    (text : List Char) :
    (Turn.ofSet set).FusedBy (repeated ⟨min, max⟩ true (one set)).turn min max True text := by
  have fused := (one_repeatable set).fused ordered text
  rw [turn_one] at fused
  exact ⟨fused.enough, fun _ => fused.few (Or.inr (one_determinate set))⟩

end Pattern

/-- What an empty cache becomes by a source that is compiled. -/
theorem PatternCache.empty_getOrCompile {source : String} {program : PatternProgram}
    (compiled : Pattern.compile? source = some program) :
    empty.getOrCompile source = (some program, ⟨[(Pattern.anchored source, program)]⟩) := by
  rw [getOrCompile, compiled]
  rfl

namespace Parser

variable {types : TextTypes} {set : CharSet} {min : Nat} {max : Option Nat} {cache after : PatternCache}

/-- For a leaf that can be fused and bounds in order one regular expression does it. -/
theorem repeatedText_fused [CharStream L.Input] {parser : Parser L type} {source : String}
    (isSource : parser.expr.source? = some source)
    (ordered : forall most, max = some most -> min ≤ most) (next : Nat) :
    (parser.repeatedText min max next).1 =
      ((regex (repeatedSource source min max) next).1.slice (next + 1)).1 := by
  have inOrder : max.all (min ≤ ·) = true := by
    cases max with
    | none => rfl
    | some most => exact decide_eq_true (ordered most rfl)
  rw [repeatedText, isSource]
  simp only [if_pos inOrder]
  rfl

section Regex

variable {source : String} {key next : Nat} {entry : EntryPoint types.signature .text}
  {known : Nullability}

/-- A regular expression of which the matched input is kept is compiled to two nodes, with
the program that the cache gives for it. -/
theorem compile_regexSlice :
    ((regex source key).1.slice next).1.compile cache = (.ok (entry, known), after) ↔
      exists program, cache.getOrCompile source = (some program, after) ∧
        entry = ⟨Grammar.leafSlice (.pattern source program id) .captures, 1, .unlimited⟩ ∧
        known = Nullability.unknown 2 := by
  rw [compile_leafSlice rfl]
  constructor
  · rintro ⟨lowered, isLowered, isEntry, isKnown⟩
    rcases Lowering.yields_pattern_start.mp isLowered with ⟨program, asked, rfl⟩
    exact ⟨program, asked, isEntry, isKnown⟩
  · rintro ⟨program, asked, isEntry, isKnown⟩
    exact ⟨_, Lowering.yields_pattern_start.mpr ⟨program, asked, rfl⟩, isEntry, isKnown⟩

/-- A repeated regular expression of which the matched input is kept is compiled to three
nodes, if it does not match the empty text. -/
theorem compile_repeatedRegex (ordered : forall most, max = some most -> min ≤ most) :
    ((regex source key).1.repeatedSlice min max next).1.compile cache = (.ok (entry, known), after) ↔
      exists program, cache.getOrCompile source = (some program, after) ∧
        program.isMatch [] = false ∧
        entry =
          ⟨Grammar.repeatedSlice (.pattern source program id) .captures min max, 2, .unlimited⟩ ∧
        known = ⟨[.known false, .unknown, .unknown]⟩ := by
  rw [compile_repeatedSlice rfl ordered]
  constructor
  · rintro ⟨lowered, isLowered, consumes, isEntry, isKnown⟩
    rcases Lowering.yields_pattern_start.mp isLowered with ⟨program, asked, rfl⟩
    exact ⟨program, asked, consumes, isEntry, isKnown⟩
  · rintro ⟨program, asked, consumes, isEntry, isKnown⟩
    exact ⟨_, Lowering.yields_pattern_start.mpr ⟨program, asked, rfl⟩, consumes, isEntry, isKnown⟩

end Regex

/-- The fused repetition of a set of characters is accepted only if the general one is,
and both come to the same. -/
theorem repeatedText_agrees (made : CharSet.Made set) (label : String)
    (ordered : forall most, max = some most -> min ≤ most) (sound : cache.Sound)
    {key next : Nat} {entry : EntryPoint types.signature .text} {known : Nullability}
    (accepted : ((labelled set label key).1.repeatedText min max next).1.compile cache =
      (.ok (entry, known), after)) (next' : Nat) :
    exists (general : EntryPoint types.signature .text) (known' : Nullability),
      ((labelled set label key).1.repeatedSlice min max next').1.compile cache =
        (.ok (general, known'), cache) ∧
      forall (input : String) state steps, input.toList.length + 3 ≤ steps ->
        (entry.parseWithin steps input state).Agrees (general.parseWithin steps input state) := by
  let atom : Leaf types.signature PatternProgram := .charset set label Text.charAt
  have isCharset : (labelled (L := types.signature) set label key).1.expr =
      .node key (.leaf (.charset set label Text.charAt)) := rfl
  have general : exists known, ((labelled set label key).1.repeatedSlice min max next').1.compile cache =
      (.ok (⟨Grammar.repeatedSlice atom .char min max, 2, .unlimited⟩, known), cache) :=
    ⟨_, (compile_repeatedSlice isCharset ordered).mpr ⟨atom, rfl, rfl, rfl, rfl⟩⟩
  rcases general with ⟨known', isGeneral⟩
  refine ⟨_, known', isGeneral, ?_⟩
  intro input state steps enough
  rw [repeatedText_fused rfl ordered] at accepted
  rcases compile_regexSlice.mp accepted with ⟨program, kept, isFused, _⟩
  have cached := PatternCache.getOrCompile_sound sound (repeatedSource set.classText min max)
  rw [kept] at cached
  obtain rfl := Pattern.compile?_repeatedClass made.normal cached.1.symm
  exact (EntryPoint.parse_fused (Leaf.charset_takesTurns set label) (Turn.ofSet_advances set _) ordered
    (Pattern.one_fused set ordered _) state enough rfl isFused).2 trivial

/-! ### Two letters with accents -/

/-- Letters that take two bytes. -/
def accented : CharSet := ⟨[(0xE0, 0xE9)]⟩

theorem accented_made : accented.Made := by
  have isRange : accented = CharSet.range 'à' 'é' := by decide +kernel
  rw [isRange]
  exact .range 'à' 'é'

/-- The source of one or two of them. -/
def accentedSource : String := repeatedSource accented.classText 1 (some 2)

theorem accentedSource_compiled : exists program,
    Pattern.compile? accentedSource = some program := by
  apply Option.isSome_iff_exists.mp
  decide +kernel

/-- The fused form is accepted, and takes two of three letters. -/
theorem accented_agree : exists (cache after : PatternCache)
    (entry : EntryPoint EntryPoint.bareTypes.signature .text) (known : Nullability),
    ((charset accented 0).1.repeatedText 1 (some 2) 1).1.compile cache = (.ok (entry, known), after) ∧
      entry.parseWithin 6 "àéè" () = .completed ⟨.ok "àé", 4, ()⟩ := by
  have ordered : forall most, some 2 = some most -> 1 ≤ most := by
    rintro most ⟨⟩
    decide
  have sound := PatternCache.empty_sound
  rcases accentedSource_compiled with ⟨program, compiled⟩
  have kept := PatternCache.empty_getOrCompile compiled
  have accepted : exists known, ((charset (L := EntryPoint.bareTypes.signature) accented 0).1.repeatedText 1
      (some 2) 1).1.compile PatternCache.empty =
      (.ok (⟨Grammar.leafSlice (.pattern accentedSource program id) .captures, 1, .unlimited⟩, known),
        ⟨[(Pattern.anchored accentedSource, program)]⟩) := by
    rw [repeatedText_fused rfl ordered]
    exact ⟨_, compile_regexSlice.mpr ⟨program, kept, rfl, rfl⟩⟩
  rcases accepted with ⟨known, accepted⟩
  rcases repeatedText_agrees accented_made _ ordered sound accepted 1 with
    ⟨general, known', isGeneral, agrees⟩
  refine ⟨_, _, _, known, accepted, ?_⟩
  have isCharset : (charset (L := EntryPoint.bareTypes.signature) accented 0).1.expr =
    .node 0 (.leaf (.charset accented _ CharStream.charAt)) := rfl
  rcases (compile_repeatedSlice isCharset ordered).mp isGeneral with
    ⟨lowered, isLowered, _, rfl, _⟩
  cases isLowered
  exact (agrees "àéè" () 6 (by decide)).eq_of_succeeds rfl

end Parser
end SeedGrammar
