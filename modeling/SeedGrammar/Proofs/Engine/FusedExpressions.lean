import SeedGrammar.Proofs.Engine.FusedRepetition
import SeedGrammar.Proofs.Engine.Readings
import SeedGrammar.Proofs.Pattern.Grouped

namespace SeedGrammar

/-!
# Fused repetitions of regular expressions

A regular expression is fused with its repetition by its text, and the repetition within
one expression is not the loop of the engine.  It goes back to matches that it has given
up, it sees what stands before an iteration, and its text need not be that of the
expression at all, if this closes the group that it is put into.  So the fused form may
succeed where the loop fails, and fail where the loop succeeds.

If the text that is fused repeats an expression that does not look back before it has
consumed, then the fused form succeeds wherever the loop does, and keeps the same.  It
succeeds nowhere else if one match is enough, or if there is never a choice between
matches.  This takes no more than that both sources are matched as regular expressions are:
`Parser.repeatedRegex_agrees` does not depend on who compiles them, nor on what can be
written in them, since a cache may give any program for a source.

For the sources that can be read here nothing has to be assumed about how they are matched,
`Parser.repeatedExpression_agrees`.
-/

/-- Whether what a cache gives for a source finds the first match of an expression in all that
may be left of a text. -/
def PatternCache.Reads (cache : PatternCache) (source : String) (reading : Reading)
    (text : List Char) : Prop :=
  forall program, (cache.getOrCompile source).1 = some program -> program.FindsFirst reading text

/-- It is enough to look at the rests of the text. -/
theorem PatternCache.reads_of_tails {cache : PatternCache} {source : String} {reading : Reading}
    {text : List Char}
    (finds : (cache.getOrCompile source).1.map (fun program => text.tails.map (Turn.ofProgram program)) =
      some (text.tails.map reading.turn)) : cache.Reads source reading text := by
  intro program isProgram rest isSuffix
  rw [isProgram] at finds
  exact List.map_inj_left.mp (Option.some.inj finds) rest ((List.mem_tails rest text).mpr isSuffix)

namespace Parser

variable {types : TextTypes} {source : String} {min : Nat} {max : Option Nat}
  {cache cache' after after' : PatternCache} {key key' next next' : Nat}
  {general fused : EntryPoint types.signature .text} {known known' : Nullability}

/-- Both forms agree if one match of the fused form does what the loop does over matches of the
expression. -/
theorem forms_agree {simple : Prop} {input : String}
    (ordered : forall most, max = some most -> min ≤ most)
    (accepted : ((regex source key).1.repeatedSlice min max next).1.compile cache =
      (.ok (general, known), after))
    (accepted' : ((regex source key').1.repeatedText min max next').1.compile cache' =
      (.ok (fused, known'), after'))
    (state : types.signature.State) {steps : Nat} (enough : input.toList.length + 3 ≤ steps)
    (programs : forall single whole, (cache.getOrCompile source).1 = some single ->
      single.isMatch [] = false ->
      (cache'.getOrCompile (repeatedSource source min max)).1 = some whole ->
      (Turn.ofProgram single).Advances input.toList ∧
        (Turn.ofProgram single).FusedBy (Turn.ofProgram whole) min max simple input.toList) :
    (forall content consumed final,
      general.parseWithin steps input state = .completed ⟨.ok content, consumed, final⟩ ->
        fused.parseWithin steps input state = .completed ⟨.ok content, consumed, final⟩) ∧
      (simple -> (fused.parseWithin steps input state).Agrees (general.parseWithin steps input state)) := by
  rcases (compile_repeatedRegex ordered).mp accepted with ⟨single, kept, noMatch, isGeneral, _⟩
  rw [repeatedText_fused rfl ordered] at accepted'
  rcases compile_regexSlice.mp accepted' with ⟨whole, kept', isFused, _⟩
  rcases programs single whole (congrArg Prod.fst kept) noMatch (congrArg Prod.fst kept') with
    ⟨advances, fuses⟩
  exact EntryPoint.parse_fused (Leaf.pattern_takesTurns source single) advances ordered fuses state
    enough isGeneral isFused

/-- The loop over a regular expression and the fused form of it, whatever the expression is
and whoever matches it, as long as it does not look back before it has consumed: what the
loop keeps the fused form keeps as well, and both come to the same if one match is enough or
if all matches at one place have the same end. -/
theorem repeatedRegex_agrees {reading : Reading} {input : String}
    (reads : cache.Reads source reading input.toList)
    (reads' : cache'.Reads (repeatedSource source min max) (reading.repeated min max) input.toList)
    (ahead : reading.LooksAhead) (ordered : forall most, max = some most -> min ≤ most)
    (accepted : ((regex source key).1.repeatedSlice min max next).1.compile cache =
      (.ok (general, known), after))
    (accepted' : ((regex source key').1.repeatedText min max next').1.compile cache' =
      (.ok (fused, known'), after'))
    (state : types.signature.State) {steps : Nat} (enough : input.toList.length + 3 ≤ steps) :
    (forall content consumed final,
      general.parseWithin steps input state = .completed ⟨.ok content, consumed, final⟩ ->
        fused.parseWithin steps input state = .completed ⟨.ok content, consumed, final⟩) ∧
      (min ≤ 1 ∨ reading.Determinate ->
        (fused.parseWithin steps input state).Agrees (general.parseWithin steps input state)) := by
  apply forms_agree ordered accepted accepted' state enough
  intro single whole isSingle noMatch isWhole
  have finds := reads single isSingle
  have nonempty := finds.nonempty noMatch
  exact ⟨finds.advances ahead nonempty, finds.fused ahead nonempty ordered (reads' whole isWhole)⟩

/-- The same for an expression that can be read here and is one on its own. -/
theorem repeatedExpression_agrees {tree : PatternTree}
    (isTree : PatternTree.ofText? source = some tree) (ahead : tree.toPattern.looksBack = false)
    (ordered : forall most, max = some most -> min ≤ most) (sound : cache.Sound) (sound' : cache'.Sound)
    (accepted : ((regex source key).1.repeatedSlice min max next).1.compile cache =
      (.ok (general, known), after))
    (accepted' : ((regex source key').1.repeatedText min max next').1.compile cache' =
      (.ok (fused, known'), after'))
    (input : String) (state : types.signature.State) {steps : Nat}
    (enough : input.toList.length + 3 ≤ steps) :
    (forall content consumed final,
      general.parseWithin steps input state = .completed ⟨.ok content, consumed, final⟩ ->
        fused.parseWithin steps input state = .completed ⟨.ok content, consumed, final⟩) ∧
      (min ≤ 1 ∨ tree.toPattern.Determinate ->
        (fused.parseWithin steps input state).Agrees (general.parseWithin steps input state)) := by
  apply forms_agree ordered accepted accepted' state enough
  intro single whole isSingle noMatch isWhole
  -- The two programs are those of the expression and of its repetition.
  have cached := (PatternCache.getOrCompile_sound sound source).1
  have cached' := (PatternCache.getOrCompile_sound sound' (repeatedSource source min max)).1
  obtain rfl := Pattern.compile?_anchored isTree (cached.symm.trans isSingle)
  obtain rfl := Pattern.compile?_repeated isTree (cached'.symm.trans isWhole)
  have repeatable : tree.toPattern.Repeatable := {
    proper := Pattern.ofText?_proper isTree
    ahead := ahead
    nonempty := Option.map_eq_none_iff.mpr
      (Option.not_isSome_iff_eq_none.mp (ne_true_of_eq_false noMatch)) }
  exact ⟨repeatable.advances _, repeatable.fused ordered _⟩

/-! ### Sources that come apart -/

end Parser

/-- Whether a parse consumes so many bytes, or fails. -/
def ParseRun.Takes {L : Signature} {type : ValueType L.Kind} (run : ParseRun L type) :
    Option Nat -> Prop
  | some consumed => exists content state, run = .completed ⟨.ok content, consumed, state⟩
  | none => exists error consumed state, run = .completed ⟨.error error, consumed, state⟩

section Takes

variable {types : TextTypes} {input : String} {state : types.signature.State} {root : NodeId}
  {left : List Char} {reply : Reply types.signature (Outcome types.signature)}

theorem KeepsUpTo.takes (keeps : KeepsUpTo input (Context.start state) left reply) {stop : Nat}
    (dropped : Text.dropBytes stop input.toList = some left) :
    (EntryPoint.conclude root reply : ParseRun types.signature .text).Takes (some stop) := by
  rcases keeps with ⟨position, dropped', rfl⟩
  obtain rfl := Text.dropBytes_inj dropped dropped'
  exact ⟨_, _, rfl⟩

theorem Fails.takes (fails : Fails reply) :
    (EntryPoint.conclude root reply : ParseRun types.signature .text).Takes none := by
  rcases fails with ⟨error, after, rfl⟩
  exact ⟨_, _, _, rfl⟩

end Takes

namespace Parser

section Forms

variable {source : String} {min : Nat} {max : Option Nat} {program program' : PatternProgram}

/-- Whether the loop over a source and the fused form are accepted as two entry points. -/
structure Forms (source : String) (min : Nat) (max : Option Nat)
    (general fused : EntryPoint EntryPoint.bareTypes.signature .text) : Prop where
  general : exists after known,
    ((regex source 0).1.repeatedSlice min max 1).1.compile PatternCache.empty =
      (.ok (general, known), after)
  fused : exists after known,
    ((regex source 0).1.repeatedText min max 1).1.compile PatternCache.empty =
      (.ok (fused, known), after)

/-- Sources that are compiled are accepted in both forms, if the loop consumes. -/
theorem forms_of_compiled (ordered : forall most, max = some most -> min ≤ most)
    (compiled : Pattern.compile? source = some program) (nonempty : program.isMatch [] = false)
    (compiled' : Pattern.compile? (repeatedSource source min max) = some program') :
    Forms source min max
      ⟨Grammar.repeatedSlice (.pattern source program id) .captures min max, 2, .unlimited⟩
      ⟨Grammar.leafSlice (.pattern (repeatedSource source min max) program' id) .captures, 1,
        .unlimited⟩ where
  general := ⟨_, _, (compile_repeatedRegex ordered).mpr
    ⟨program, PatternCache.empty_getOrCompile compiled, nonempty, rfl, rfl⟩⟩
  fused := by
    rw [repeatedText_fused rfl ordered]
    exact ⟨_, _, compile_regexSlice.mpr
      ⟨program', PatternCache.empty_getOrCompile compiled', rfl, rfl⟩⟩

/-- The loop over a source takes what its turns exhaust, if they are enough. -/
theorem general_takes (ordered : forall most, max = some most -> min ≤ most)
    {input : String} (advances : (Turn.ofProgram program).Advances input.toList) {count stop : Nat}
    {left : List Char}
    (exhausts : (Turn.ofProgram program).Exhausts 0 max input.toList count left)
    (dropped : Text.dropBytes stop input.toList = some left) {steps : Nat}
    (enough : input.toList.length + 3 ≤ steps) :
    ((⟨Grammar.repeatedSlice (.pattern source program id) .captures min max, 2, .unlimited⟩ :
        EntryPoint EntryPoint.bareTypes.signature .text).parseWithin steps input ()).Takes
      (if min ≤ count then some stop else none) := by
  have takesTurns := @Leaf.pattern_takesTurns EntryPoint.bareTypes source program
  rcases EntryPoint.parse_repeatedSlice takesTurns advances ordered () enough with
    ⟨count', left', reply, exhausts', isRun, general⟩
  rcases exhausts.unique exhausts' with ⟨rfl, rfl⟩
  rw [isRun]
  split
  · rename_i reached
    rw [if_pos reached] at general
    exact general.takes dropped
  · rename_i few
    rw [if_neg few] at general
    exact general.takes

/-- The fused form takes one turn. -/
theorem fused_takes {input : String} {stop : Option Nat}
    (turn : Turn.ofProgram program input.toList = stop.bind (Text.dropBytes · input.toList))
    (inside : forall position, stop = some position -> Text.dropBytes position input.toList ≠ none)
    (steps : Nat) :
    ((⟨Grammar.leafSlice (.pattern source program id) .captures, 1, .unlimited⟩ :
        EntryPoint EntryPoint.bareTypes.signature .text).parseWithin (steps + 2) input ()).Takes stop := by
  have takesTurns := @Leaf.pattern_takesTurns EntryPoint.bareTypes source program
  rcases EntryPoint.parse_leafSlice takesTurns input () steps with ⟨reply, isRun, fused⟩
  rw [isRun]
  cases stop with
  | none =>
      rw [turn] at fused
      exact fused.takes
  | some position =>
      rcases Option.ne_none_iff_exists'.mp (inside position rfl) with ⟨left, dropped⟩
      have isLeft : Turn.ofProgram program input.toList = some left := turn.trans dropped
      rw [isLeft] at fused
      exact fused.takes dropped

/-! The expressions of three sources: one that can take a letter or two, one that starts
where a word starts or ends, and one that closes the group that it is put into. -/

/-- A letter that may be followed by another one, which is tried last. -/
def shortFirst : Pattern := .alt (.one (.single 'a')) (.seq (.one (.single 'a')) (.one (.single 'b')))

/-- A letter behind a boundary of words. -/
def behindBoundary : Pattern := .seq (.assert .wordBoundary) (.one (.single 'a'))

/-- A letter and a group with another one. -/
def outOfGroup : Pattern := .seq (.one (.single 'a')) (.group 1 (.one (.single 'b')))

theorem shortFirst_compiled : Pattern.compile? "a|ab" = some shortFirst.behindStart.toProgram := by
  have isRead : Pattern.ofText? (Pattern.anchored "a|ab") = some shortFirst.behindStart := by
    decide +kernel
  exact congrArg (Option.map Pattern.toProgram) isRead

theorem behindBoundary_compiled :
    Pattern.compile? "\\ba" = some behindBoundary.behindStart.toProgram := by
  have isRead : Pattern.ofText? (Pattern.anchored "\\ba") = some behindBoundary.behindStart := by
    decide +kernel
  exact congrArg (Option.map Pattern.toProgram) isRead

theorem outOfGroup_compiled : Pattern.compile? "a)(b" = some outOfGroup.behindStart.toProgram := by
  have isRead : Pattern.ofText? (Pattern.anchored "a)(b") = some outOfGroup.behindStart := by
    decide +kernel
  exact congrArg (Option.map Pattern.toProgram) isRead

/-- What both forms of a source take, if the turns of its expression and the match of the
fused form are known. -/
theorem exists_forms {inner : Pattern} {input : String} {count stop : Nat} {left : List Char}
    {stop' : Option Nat} (ordered : forall most, max = some most -> min ≤ most)
    (compiled : Pattern.compile? source = some inner.behindStart.toProgram)
    (nonempty : inner.behindStart.toProgram.isMatch [] = false)
    (proper : inner.Proper) (consumes : inner.consumes = true)
    (exhausts : inner.turn.Exhausts 0 max input.toList count left)
    (dropped : Text.dropBytes stop input.toList = some left)
    (fused : (Pattern.compile? (repeatedSource source min max)).map (Turn.ofProgram · input.toList) =
      some (stop'.bind (Text.dropBytes · input.toList)))
    (inside : forall position, stop' = some position -> Text.dropBytes position input.toList ≠ none)
    {steps : Nat} (enough : input.toList.length + 1 ≤ steps) :
    exists general fused, Forms source min max general fused ∧
      (general.parseWithin (steps + 2) input ()).Takes (if min ≤ count then some stop else none) ∧
      (fused.parseWithin (steps + 2) input ()).Takes stop' := by
  rcases Option.map_eq_some_iff.mp fused with ⟨program, compiled', turn⟩
  have advances : inner.turn.Advances input.toList :=
    Pattern.turn_advances (Pattern.fragment_consumes proper consumes) _
  exact ⟨_, _, forms_of_compiled ordered compiled nonempty compiled',
    general_takes ordered advances exhausts dropped (by omega), fused_takes turn inside steps⟩

/-- The loop does not go back to a match that it has chosen, and does not see what stands
before an iteration, and the fused form need not repeat the whole source. -/
theorem forms_come_apart :
    (exists general fused, Forms "a|ab" 2 (some 2) general fused ∧
      (general.parseWithin 6 "aba" ()).Takes none ∧ (fused.parseWithin 6 "aba" ()).Takes (some 3)) ∧
    (exists general fused, Forms "\\ba" 2 (some 2) general fused ∧
      (general.parseWithin 6 "aa" ()).Takes (some 2) ∧ (fused.parseWithin 6 "aa" ()).Takes none) ∧
    (exists general fused, Forms "a)(b" 2 (some 2) general fused ∧
      (general.parseWithin 7 "abab" ()).Takes (some 4) ∧ (fused.parseWithin 7 "abab" ()).Takes none) := by
  have ordered : forall most, some 2 = some most -> 2 ≤ most := by
    rintro most ⟨⟩
    exact Nat.le_refl 2
  have isCount : forall most : Nat, some 2 = some most -> 0 + 2 ≤ most := ordered
  have fails : forall {input : List Char} position, none = some position ->
      Text.dropBytes position input ≠ none := fun _ isStop => absurd isStop.symm (Option.some_ne_none _)
  refine ⟨?_, ?_, ?_⟩
  · have first : shortFirst.turn ['a', 'b', 'a'] = some ['b', 'a'] := by decide +kernel
    have exhausts : shortFirst.turn.Exhausts 0 (some 2) "aba".toList 1 ['b', 'a'] :=
      ⟨.more first .none, fun most isMost => Nat.le_of_succ_le (ordered most isMost),
        Or.inr (by decide +kernel)⟩
    have dropped : Text.dropBytes 1 "aba".toList = some ['b', 'a'] := rfl
    exact exists_forms ordered shortFirst_compiled (by decide +kernel) ⟨trivial, trivial, trivial⟩ rfl
      exhausts dropped (by decide +kernel) (by rintro _ ⟨⟩; decide) (by decide)
  · have first : behindBoundary.turn ['a', 'a'] = some ['a'] := by decide +kernel
    have second : behindBoundary.turn ['a'] = some [] := by decide +kernel
    have exhausts : behindBoundary.turn.Exhausts 0 (some 2) "aa".toList 2 [] :=
      ⟨.more first (.more second .none), isCount, Or.inl rfl⟩
    have dropped : Text.dropBytes 2 "aa".toList = some [] := rfl
    exact exists_forms ordered behindBoundary_compiled (by decide +kernel) ⟨trivial, trivial⟩ rfl
      exhausts dropped (by decide +kernel) fails (by decide)
  · have first : outOfGroup.turn ['a', 'b', 'a', 'b'] = some ['a', 'b'] := by decide +kernel
    have second : outOfGroup.turn ['a', 'b'] = some [] := by decide +kernel
    have exhausts : outOfGroup.turn.Exhausts 0 (some 2) "abab".toList 2 [] :=
      ⟨.more first (.more second .none), isCount, Or.inl rfl⟩
    have dropped : Text.dropBytes 4 "abab".toList = some [] := rfl
    exact exists_forms ordered outOfGroup_compiled (by decide +kernel)
      ⟨trivial, Nat.zero_lt_one, trivial⟩ rfl exhausts dropped (by decide +kernel) fails (by decide)

/-- Where the matches of the first of the three end: behind a letter, and then behind both if
the other one follows. -/
def shortFirstEnds : List Char -> List Spot
  | 'a' :: 'b' :: rest => [⟨some 'a', 'b' :: rest⟩, ⟨some 'b', rest⟩]
  | 'a' :: rest => [⟨some 'a', rest⟩]
  | _ => []

theorem shortFirstEnds_passes {chars : List Char} {after : Spot}
    (member : after ∈ shortFirstEnds chars) : exists c passed, chars = c :: passed ++ after.rest := by
  rw [shortFirstEnds.eq_def] at member
  split at member
  · rcases List.mem_pair.mp member with rfl | rfl
    · exact ⟨'a', [], rfl⟩
    · exact ⟨'a', ['b'], rfl⟩
  · cases List.mem_singleton.mp member
    exact ⟨'a', [], rfl⟩
  · cases member

/-- What the first of the three matches. -/
def shortFirstReading : Reading where
  ends spot := shortFirstEnds spot.rest
  inside member := by
    rcases shortFirstEnds_passes member with ⟨c, passed, isText⟩
    exact ⟨c :: passed, isText.symm⟩

theorem shortFirstReading_looksAhead : shortFirstReading.LooksAhead where
  same _ _ _ := rfl
  stays spot after reaches isRest := by
    rcases shortFirstEnds_passes reaches with ⟨c, passed, isText⟩
    have shorter := congrArg List.length isText
    rw [isRest, List.length_append, List.length_cons] at shorter
    omega

/-- Where one match is enough the alternative that is tried last makes no difference. -/
theorem shortFirst_agree : exists general fused, Forms "a|ab" 1 (some 2) general fused ∧
    shortFirstReading.LooksAhead ∧
    PatternCache.empty.Reads "a|ab" shortFirstReading "aba".toList ∧
    PatternCache.empty.Reads (repeatedSource "a|ab" 1 (some 2)) (shortFirstReading.repeated 1 (some 2))
      "aba".toList ∧
    (general.parseWithin 6 "aba" ()).Takes (some 1) ∧ (fused.parseWithin 6 "aba" ()).Takes (some 1) ∧
    (fused.parseWithin 6 "aba" ()).Agrees (general.parseWithin 6 "aba" ()) := by
  have ordered : forall most, some 2 = some most -> 1 ≤ most := by
    rintro most ⟨⟩
    decide
  have first : shortFirst.turn ['a', 'b', 'a'] = some ['b', 'a'] := by decide +kernel
  have exhausts : shortFirst.turn.Exhausts 0 (some 2) "aba".toList 1 ['b', 'a'] :=
    ⟨.more first .none, ordered, Or.inr (by decide +kernel)⟩
  have dropped : Text.dropBytes 1 "aba".toList = some ['b', 'a'] := rfl
  have isFused : (Pattern.compile? (repeatedSource "a|ab" 1 (some 2))).map
      (Turn.ofProgram · "aba".toList) = some ((some 1).bind (Text.dropBytes · "aba".toList)) := by
    decide +kernel
  have enough : "aba".toList.length + 1 ≤ 4 := by decide
  rcases exists_forms ordered shortFirst_compiled (by decide +kernel) ⟨trivial, trivial, trivial⟩ rfl
    exhausts dropped isFused (by rintro _ ⟨⟩; decide) enough with ⟨general, fused, forms, takes, _⟩
  have reads : PatternCache.empty.Reads "a|ab" shortFirstReading "aba".toList :=
    PatternCache.reads_of_tails (by decide +kernel)
  have reads' : PatternCache.empty.Reads (repeatedSource "a|ab" 1 (some 2))
      (shortFirstReading.repeated 1 (some 2)) "aba".toList :=
    PatternCache.reads_of_tails (by decide +kernel)
  rcases forms.general with ⟨_, _, accepted⟩
  rcases forms.fused with ⟨_, _, accepted'⟩
  rcases repeatedRegex_agrees reads reads' shortFirstReading_looksAhead ordered accepted accepted' ()
    (Nat.add_le_add_right enough 2) with ⟨kept, agrees⟩
  rcases takes with ⟨content, state, isRun⟩
  exact ⟨general, fused, forms, shortFirstReading_looksAhead, reads, reads', ⟨content, state, isRun⟩,
    ⟨content, state, kept _ _ _ isRun⟩, agrees (Or.inl (Nat.le_refl 1))⟩

end Forms

end Parser
end SeedGrammar
