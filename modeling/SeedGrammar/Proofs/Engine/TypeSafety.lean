import SeedGrammar.Proofs.Engine.Positions
import SeedGrammar.Proofs.Grammar.FoldingRules

namespace SeedGrammar

/-!
# Typed parses

A parse of a built grammar meets no fault.  That the root does not is not
enough to say so, since it says nothing about calls whose replies a clause
might drop; the same has to hold of every call that is made on the way.

Calls are typed because replies are.  If a node would call an operand without a
type, or with an untyped seed, then a caller that faults there would make the
node fault; but that caller is as safe as any other, and a typed clause does
not fault with a safe caller.
-/

variable {L : Signature}

namespace Caller

variable {α : Type}

open Classical in
/-- A caller that makes only calls that have some property, and faults on the
others. -/
noncomputable def guarded (allowed : α -> Context L -> Prop) (fault : Fault)
    (call : Caller L α) : Caller L α :=
  fun operand context => if allowed operand context then call operand context else .faulted fault

variable {allowed : α -> Context L -> Prop} {fault : Fault} {call : Caller L α}

theorem guarded_of_allowed {operand : α} {context : Context L}
    (isAllowed : allowed operand context) :
    call.guarded allowed fault operand context = call operand context :=
  if_pos isAllowed

theorem guarded_of_not {operand : α} {context : Context L} (isNot : ¬allowed operand context) :
    call.guarded allowed fault operand context = .faulted fault :=
  if_neg isNot

/-- What a guarded caller finishes, the caller finishes as well. -/
theorem finished_of_guarded {operand : α} {context : Context L} {outcome : Outcome L}
    {after : Context L}
    (finishes : call.guarded allowed fault operand context = .finished outcome after) :
    call operand context = .finished outcome after := by
  by_cases isAllowed : allowed operand context
  · rwa [guarded_of_allowed isAllowed] at finishes
  · rw [guarded_of_not isAllowed] at finishes
    cases finishes

theorem Keeps.guarded {key : NodeId × Nat} {seed : Seed L} (keeps : call.Keeps key seed) :
    (call.guarded allowed fault).Keeps key seed :=
  fun operand context outcome after planted finishes =>
    keeps operand context outcome after planted (finished_of_guarded finishes)

end Caller

/-- A dialogue that does not fault when calls are guarded makes only calls that
pass the guard. -/
theorem Dialogue.calls_allowed {α β : Type} {allowed : α -> Context L -> Prop} {fault : Fault}
    {call : Caller L α} {dialogue : Dialogue L α β}
    (clean : forall other, dialogue.run (call.guarded allowed fault) ≠ .faulted other) :
    forall made, made ∈ dialogue.calls call -> allowed made.1 made.2 := by
  induction dialogue with
  | answered reply =>
      intro made member
      cases member
  | ask operand context next inductionHypothesis =>
      have first : allowed operand context := by
        by_contra isNot
        apply clean fault
        rw [run_ask, Caller.guarded_of_not isNot, Reply.andThen_faulted]
      intro made member
      rcases mem_calls_ask.mp member with isFirst | ⟨outcome, after, reply, later⟩
      · rw [isFirst]
        exact first
      · apply inductionHypothesis outcome after _ made later
        intro other faults
        apply clean other
        rw [run_ask, Caller.guarded_of_allowed first, reply, Reply.andThen_finished, faults]

theorem Reply.Safe.not_faulted {β : Type} {types : NodeId -> ValueType L.Kind -> Prop}
    {limited : Prop} {post : β -> Prop} {reply : Reply L β}
    (safe : reply.Safe types limited post) (fault : Fault) : reply ≠ .faulted fault := by
  rintro rfl
  exact safe

/-- Whether a call is of a typed node, with typed seeds. -/
def TypedCall (types : NodeId -> ValueType L.Kind -> Prop) (id : NodeId) (context : Context L) :
    Prop :=
  (exists type, types id type) ∧ context.Typed types

theorem Caller.Safe.guarded {types : NodeId -> ValueType L.Kind -> Prop} {limited : Prop}
    {call : Caller L NodeId} (safe : call.Safe types limited) (fault : Fault) :
    (call.guarded (TypedCall types) fault).Safe types limited := by
  intro id context inhabited typed
  rw [guarded_of_allowed ⟨inhabited, typed⟩]
  exact safe id context inhabited typed

namespace Machine

variable {machine : Machine L} {types : NodeId -> ValueType L.Kind -> Prop}

/-- A typed call makes typed calls only. -/
theorem calls_typed (typing : machine.grammar.Typing types) {steps depth : Nat} {id : NodeId}
    {context : Context L} (typed : TypedCall types id context) :
    forall made, made ∈ machine.callsOf steps depth id context ->
      TypedCall types made.1 made.2 := by
  rcases typed with ⟨⟨type, isType⟩, typed⟩
  let unasked : Fault := .nodeOutOfRange id
  have clean : forall fault, (machine.dialogue steps depth id context).run
      ((machine.run steps (depth + 1)).guarded (TypedCall types) unasked) ≠ .faulted fault := by
    rw [dialogue]
    by_cases trips : 0 < machine.maxDepth ∧ machine.maxDepth < depth
    · rw [if_pos trips]
      intro fault faults
      cases faults
    · rw [if_neg trips]
      rcases typing.clause id type isType with ⟨clause, found, _⟩
      have callers := (machine.run_safe typing steps (depth + 1)).guarded unasked
      have keeps : forall key seed, Caller.Keeps key seed
          ((machine.run steps (depth + 1)).guarded (TypedCall types) unasked) :=
        fun _ _ => (machine.run_keeps steps (depth + 1)).guarded
      have safe := clause_safe callers keeps steps machine.input machine.grammar.writesState
        (fun _ isOther => typing.hasType found isOther) isType typed
      rw [Clause.run_eq_dialogue] at safe
      rw [found]
      exact safe.not_faulted
  exact Dialogue.calls_allowed clean

/-- All calls that a typed call leads to are typed. -/
theorem entered_typed (typing : machine.grammar.Typing types) {steps depth : Nat} {id : NodeId}
    {context : Context L} (typed : TypedCall types id context) {place : Nat} {node : NodeId}
    {first : Context L}
    (enters : Event.entered place node first ∈ machine.trace steps depth id context) :
    TypedCall types node first := by
  induction steps generalizing depth id context with
  | zero => cases enters
  | succ steps inductionHypothesis =>
      rcases mem_trace_succ.mp enters with own | ⟨made, isCall, later⟩ | ⟨_, _, _, isEnd⟩
      · cases own
        exact typed
      · exact inductionHypothesis (calls_typed typing typed made isCall) later
      · cases isEnd

end Machine

namespace EntryPoint

variable {type : ValueType L.Kind}

/-- Whether a parse and all calls in its course are without faults, and all
values are of the types of their nodes. -/
structure TypeSafe (entry : EntryPoint L type) (types : NodeId -> ValueType L.Kind -> Prop)
    (input : L.Input) (state : L.State) : Prop where
  parse : forall steps fault, entry.parseWithin steps input state ≠ .faulted fault
  typed : forall depth id first, entry.Calls input state depth id first -> exists type, types id type
  calls : forall depth id first, entry.Calls input state depth id first ->
    forall more fault, (entry.machine input).run more depth id first ≠ .faulted fault
  values : forall depth id first, entry.Calls input state depth id first ->
    forall more value last, (entry.machine input).run more depth id first = .finished (.ok value) last ->
      forall type, types id type -> value.type = type

theorem start_typedCall {types : NodeId -> ValueType L.Kind -> Prop} {id : NodeId}
    {type : ValueType L.Kind} (isTyped : types id type) (state : L.State) :
    TypedCall types id (Context.start state) := by
  refine ⟨⟨type, isTyped⟩, ?_⟩
  intro id start seed type planted
  cases planted

/-- A root whose values are of the type that is asked of it meets no fault at the
end of a parse either. -/
theorem conclude_not_faulted {root : NodeId} {reply : Reply L (Outcome L)}
    {types : NodeId -> ValueType L.Kind -> Prop} {limited : Prop}
    (safe : reply.Safe types limited fun outcome => Outcome.Fits outcome type) (fault : Fault) :
    (conclude root reply : ParseRun L type) ≠ .faulted fault := by
  intro faults
  cases reply with
  | finished outcome last =>
      cases outcome with
      | error error => cases faults
      | ok value =>
          rcases Value.get?_of_type (safe.1 value rfl) with ⟨content, isContent, _⟩
          rw [conclude, isContent] at faults
          cases faults
  | halted error last => cases faults
  | faulted other => exact safe
  | exhausted => cases faults

theorem typeSafe_of_typing {entry : EntryPoint L type} {types : NodeId -> ValueType L.Kind -> Prop}
    (typing : entry.grammar.Typing types) (isTyped : types entry.root type) (input : L.Input)
    (state : L.State) : entry.TypeSafe types input state := by
  have typed : forall depth id first, entry.Calls input state depth id first ->
      TypedCall types id first := by
    rintro depth id first ⟨steps, enters⟩
    exact Machine.entered_typed typing (start_typedCall isTyped state) enters
  have safe : forall {depth id first}, entry.Calls input state depth id first -> forall more,
      ((entry.machine input).run more depth id first).Safe types
        (0 < entry.config.maxRecursionDepth) fun outcome => forall type, types id type ->
          Outcome.Fits outcome type := by
    intro depth id first isCall more
    rcases typed depth id first isCall with ⟨inhabited, seeds⟩
    exact Machine.run_safe typing more depth id first inhabited seeds
  constructor
  · intro steps fault
    by_cases refuses : entry.Refuses input
    · rw [parseWithin_of_refuses refuses]
      intro faults
      cases faults
    · rw [parseWithin_of_accepts refuses]
      have start := start_typedCall isTyped state
      have root : ((entry.machine input).run steps 1 entry.root (Context.start state)).Safe types
          (0 < entry.config.maxRecursionDepth) fun outcome => forall type, types entry.root type ->
            Outcome.Fits outcome type :=
        Machine.run_safe typing steps 1 entry.root (Context.start state) start.1 start.2
      exact conclude_not_faulted (root.imp fun _ fits => fits type isTyped) fault
  · intro depth id first isCall
    exact (typed depth id first isCall).1
  · intro depth id first isCall more
    exact (safe isCall more).not_faulted
  · intro depth id first isCall more value last finishes other isOther
    have ends := safe isCall more
    rw [finishes] at ends
    exact ends.1 other isOther value rfl

end EntryPoint

namespace GrammarBuilder

/-- A parse of a grammar that was accepted, from any of its rules as the type
that the rule has, within any limits, meets no fault, and all values in its
course are of the types of the expressions that their nodes are those of. -/
theorem build_typeSafe {builder : GrammarBuilder L} {cache after : PatternCache}
    {built : BuiltGrammar L} (sound : cache.Sound) (coherent : Coherent builder.Contains)
    (accepted : builder.build cache = (.ok built, after)) :
    exists node longest, builder.Resolution built.grammar node longest ∧
      forall {type : ValueType L.Kind} {name : String} {entry : EntryPoint L type},
        built.grammar.entryPoint type name = .ok entry ->
          forall (config : ParserConfig) (input : L.Input) (state : L.State),
            (entry.withConfig config).TypeSafe (Resolution.Types builder node) input state := by
  rcases build_resolves sound coherent accepted with ⟨node, longest, resolution⟩
  refine ⟨node, longest, resolution, ?_⟩
  intro type name entry isEntry config input state
  rcases Grammar.rule?_of_entryPoint isEntry with ⟨sameGrammar, rule, isRule, sameType, isRoot⟩
  have isName : rule.name ∈ built.grammar.ruleNames :=
    List.mem_map_of_mem (List.mem_of_find?_eq_some isRule)
  rw [build_ruleNames sound coherent accepted] at isName
  rcases List.mem_map.mp isName with ⟨definition, member, sameName⟩
  have ownName : rule.name = name := by
    simpa using List.find?_some isRule
  have found := resolution.rule definition member
  rw [sameName, ownName, isRule] at found
  cases found
  subst sameType
  apply EntryPoint.typeSafe_of_typing
  · change entry.grammar.Typing _
    rw [sameGrammar]
    exact resolution.typing
  · exact ⟨definition.parser.expr, contains_root member, definition.parser.typed, isRoot⟩

/-- The sum of three terms is a text, whatever is asked of its nodes. -/
theorem sums_typeSafe :
    sumGrammar.entryPoint .text "sum" = .ok ⟨sumGrammar, 7, ParserConfig.unlimited⟩ ∧
    exists node, (⟨sumGrammar, 7, ⟨0, 20⟩⟩ : EntryPoint plainText .text).TypeSafe
      (Resolution.Types sums node) "1+1+1" () := by
  have isEntry : sumGrammar.entryPoint .text "sum" = .ok ⟨sumGrammar, 7, ParserConfig.unlimited⟩ :=
    rfl
  rcases sums_accepted with ⟨known, accepted⟩
  rcases build_typeSafe PatternCache.empty_sound sums_coherent accepted with
    ⟨node, longest, resolution, safe⟩
  exact ⟨isEntry, node, safe isEntry ⟨0, 20⟩ "1+1+1" ()⟩

end GrammarBuilder
end SeedGrammar
