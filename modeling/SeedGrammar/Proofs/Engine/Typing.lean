import SeedGrammar.Proofs.Engine.SeedHistory
import SeedGrammar.Proofs.Grammar.Lowering

namespace SeedGrammar

/-!
# Types of nodes

Expressions are typed, and the nodes of a grammar inherit their types.  A node may
have several, since what always fails is of any type; its values are of all of
them.  Typed nodes come to values of their types and never to a fault.

Seeds come into both.  What a left recursion replays was found earlier, so all
seeds have to be typed before a call, and are typed after it.  And growth asks
for a seed that it has planted, which its calls have kept.
-/

variable {L : Signature}

/-- Whether a clause produces values of a type, given the types of leaves and
operands.  References have been replaced by what they lead to, hence have no
type here. -/
inductive Clause.HasType {ρ α : Type} (leaves : Leaf L ρ -> ValueType L.Kind -> Prop)
    (operands : α -> ValueType L.Kind -> Prop) : Clause L ρ α -> ValueType L.Kind -> Prop where
  | leaf {atom type} : leaves atom type -> HasType leaves operands (.leaf atom) type
  | map {inner transform source target} : operands inner source ->
      transform.Takes source target -> HasType leaves operands (.map inner transform) target
  | update {inner next type} : operands inner type ->
      HasType leaves operands (.update inner next) type
  | sequence {items gather type} (types : Nat -> ValueType L.Kind) :
      (forall index item, items[index]? = some item -> operands item (types index)) ->
      gather.Takes types items.length type ->
      HasType leaves operands (.sequence items gather) type
  | choice {alts type} : alts ≠ [] -> (forall alt, alt ∈ alts -> operands alt type) ->
      HasType leaves operands (.choice alts) type
  | optional {inner element} : operands inner element ->
      HasType leaves operands (.optional inner element) (.option element)
  | attempt {inner type} : operands inner type -> HasType leaves operands (.attempt inner) type
  | lookahead {inner look negative type seen} : operands inner type -> operands look seen ->
      HasType leaves operands (.lookahead inner look negative) type
  | repeated {inner element min max} : operands inner element ->
      HasType leaves operands (.repeated inner element min max) (.list element)
  | leftRecursion {inner type} : operands inner type ->
      HasType leaves operands (.leftRecursion inner) type

/-- Whether a compiled leaf comes from one that produces values of a type. -/
def Leaf.CompiledType (atom : Leaf L PatternProgram) (type : ValueType L.Kind) : Prop :=
  exists source : Leaf L Unit, source.compiled? = some atom ∧ source.HasType type

/-- Types of the nodes of a grammar.  Whatever has a type is a node whose clause
produces values of that type. -/
structure Grammar.Typing (grammar : Grammar L) (types : NodeId -> ValueType L.Kind -> Prop) :
    Prop where
  clause : forall id type, types id type ->
    exists clause, grammar.nodes[id]? = some clause ∧
      clause.HasType Leaf.CompiledType types type

/-- The clause at a typed node has all types of the node. -/
theorem Grammar.Typing.hasType {grammar : Grammar L} {types : NodeId -> ValueType L.Kind -> Prop}
    (typing : grammar.Typing types) {id : NodeId} {clause : Clause L PatternProgram NodeId}
    (found : grammar.nodes[id]? = some clause) {type : ValueType L.Kind} (isType : types id type) :
    clause.HasType Leaf.CompiledType types type := by
  rcases typing.clause id type isType with ⟨clause', found', hasType⟩
  rw [found] at found'
  cases found'
  exact hasType

/-- Whether the seeds of typed nodes are of their types. -/
def Context.Typed (types : NodeId -> ValueType L.Kind -> Prop) (context : Context L) : Prop :=
  forall id start seed type, context.seeds.get? id start = some seed -> types id type ->
    Outcome.Fits seed.outcome type

/-- Whether a reply is no fault, trips a limit only if there is one, and after an
answer, which has some property, all seeds are typed. -/
def Reply.Safe {β : Type} (types : NodeId -> ValueType L.Kind -> Prop) (limited : Prop)
    (post : β -> Prop) : Reply L β -> Prop
  | finished answer after => post answer ∧ after.Typed types
  | halted _ _ => limited
  | faulted _ => False
  | exhausted => True

namespace Reply.Safe

variable {β γ : Type} {types : NodeId -> ValueType L.Kind -> Prop} {limited : Prop}

theorem andThen_of_finished {post : β -> Prop} {last : γ -> Prop} {reply : Reply L β}
    {next : β -> Context L -> Reply L γ} (safe : reply.Safe types limited post)
    (continued : forall answer after, reply = .finished answer after -> post answer ->
      after.Typed types -> (next answer after).Safe types limited last) :
    (reply.andThen next).Safe types limited last := by
  cases reply with
  | finished answer after => exact continued answer after rfl safe.1 safe.2
  | halted error place => exact safe
  | faulted fault => exact safe
  | exhausted => trivial

theorem andThen {post : β -> Prop} {last : γ -> Prop} {reply : Reply L β}
    {next : β -> Context L -> Reply L γ} (safe : reply.Safe types limited post)
    (continued : forall answer after, post answer -> after.Typed types ->
      (next answer after).Safe types limited last) : (reply.andThen next).Safe types limited last :=
  safe.andThen_of_finished fun answer after _ => continued answer after

theorem imp {post weaker : β -> Prop} {reply : Reply L β} (safe : reply.Safe types limited post)
    (implies : forall answer, post answer -> weaker answer) : reply.Safe types limited weaker := by
  cases reply with
  | finished answer after => exact ⟨implies answer safe.1, safe.2⟩
  | halted error place => exact safe
  | faulted fault => exact safe
  | exhausted => trivial

/-- A reply that is safe for each of several properties is so for all of them. -/
theorem all {κ : Type} {among : κ -> Prop} {post : κ -> β -> Prop} {reply : Reply L β}
    (inhabited : exists index, among index)
    (safe : forall index, among index -> reply.Safe types limited (post index)) :
    reply.Safe types limited fun answer => forall index, among index -> post index answer := by
  rcases inhabited with ⟨index, isAmong⟩
  cases reply with
  | finished answer after =>
      exact ⟨fun other isOther => (safe other isOther).1, (safe index isAmong).2⟩
  | halted error place => exact safe index isAmong
  | faulted fault => exact safe index isAmong
  | exhausted => trivial

end Reply.Safe

/-- Whether calls of typed nodes come to values of all their types. -/
def Caller.Safe (types : NodeId -> ValueType L.Kind -> Prop) (limited : Prop)
    (call : Caller L NodeId) : Prop :=
  forall id context, (exists type, types id type) -> context.Typed types ->
    (call id context).Safe types limited fun outcome => forall type, types id type ->
      Outcome.Fits outcome type

namespace Outcome

theorem fits_error (error : ParseError L.Payload) (type : ValueType L.Kind) :
    Outcome.Fits (.error error : Outcome L) type := by
  intro value isValue
  cases isValue

theorem fits_ok {value : Value L} {type : ValueType L.Kind} (isType : value.type = type) :
    Outcome.Fits (.ok value : Outcome L) type := by
  intro other isValue
  cases isValue
  exact isType

end Outcome

theorem Value.get?_of_type {type : ValueType L.Kind} {value : Value L}
    (isType : value.type = type) :
    exists content, value.get? type = some content ∧ value = ⟨type, content⟩ := by
  rcases value with ⟨own, content⟩
  have sameType : own = type := isType
  subst sameType
  exact ⟨content, Value.get?_mk own content, rfl⟩

theorem Value.getAll?_of_types {type : ValueType L.Kind} {values : List (Value L)}
    (areTypes : forall value, value ∈ values -> value.type = type) :
    exists contents, Value.getAll? type values = some contents := by
  induction values with
  | nil => exact ⟨[], rfl⟩
  | cons value rest inductionHypothesis =>
      rcases List.forall_mem_cons.mp areTypes with ⟨isType, others⟩
      rcases Value.get?_of_type isType with ⟨content, isContent, _⟩
      rcases inductionHypothesis others with ⟨contents, areContents⟩
      refine ⟨content :: contents, ?_⟩
      rw [Value.getAll?, isContent, areContents]

/-- Values of items with the types that are expected of them are gathered into
a value of the type that is meant. -/
theorem Gather.collect_typed {gather : Gather L.Kind} {types : Nat -> ValueType L.Kind}
    {values : List (Value L)} {type : ValueType L.Kind}
    (takes : gather.Takes types values.length type)
    (areTypes : forall index value, values[index]? = some value -> value.type = types index) :
    exists value, gather.collect values = some value ∧ value.type = type := by
  cases gather with
  | pick index =>
      rcases takes with ⟨inRange, isType⟩
      have found := List.getElem?_eq_getElem inRange
      refine ⟨values[index], found, ?_⟩
      rw [areTypes index values[index] found, isType]
  | pair first second =>
      rcases takes with ⟨atLeastTwo, isFirst, isSecond, rfl⟩
      match values, atLeastTwo with
      | left :: right :: rest, _ =>
          rcases Value.get?_of_type ((areTypes 0 left rfl).trans isFirst) with ⟨one, isOne, _⟩
          rcases Value.get?_of_type ((areTypes 1 right rfl).trans isSecond) with ⟨two, isTwo, _⟩
          refine ⟨⟨.pair first second, (one, two)⟩, ?_, rfl⟩
          simp only [Gather.collect, isOne, isTwo]
  | list element =>
      rcases takes with ⟨allSame, rfl⟩
      have elements : forall value, value ∈ values -> value.type = element := by
        intro value member
        rcases List.mem_iff_getElem?.mp member with ⟨index, found⟩
        rw [areTypes index value found, allSame index (List.getElem?_eq_some_iff.mp found).1]
      rcases Value.getAll?_of_types elements with ⟨contents, areContents⟩
      refine ⟨⟨.list element, contents⟩, ?_, rfl⟩
      rw [Gather.collect, areContents]
      rfl

/-! ## Leaves -/

/-- Values of a leaf have the types of the leaf that it was compiled from. -/
theorem Leaf.run_fits {atom : Leaf L PatternProgram} {type : ValueType L.Kind}
    (isType : atom.CompiledType type) (input : L.Input) (self : NodeId) (context : Context L) :
    Outcome.Fits (atom.run input self context).1 type := by
  rcases isType with ⟨source, isCompiled, typed⟩
  cases typed with
  | exact =>
      rw [Leaf.compiled?, Option.ite_none_left_eq_some] at isCompiled
      cases isCompiled.2
      simp only [Leaf.run]
      split
      · exact Outcome.fits_ok rfl
      · exact Outcome.fits_error _ _
  | charset =>
      cases isCompiled
      simp only [Leaf.run]
      split
      · split
        · exact Outcome.fits_ok rfl
        · exact Outcome.fits_error _ _
      · exact Outcome.fits_error _ _
  | pattern =>
      rw [Leaf.compiled?] at isCompiled
      rcases Option.map_eq_some_iff.mp isCompiled with ⟨program, _, rfl⟩
      simp only [Leaf.run]
      split
      · exact Outcome.fits_error _ _
      · split
        · exact Outcome.fits_ok rfl
        · exact Outcome.fits_error _ _
  | empty =>
      cases isCompiled
      exact Outcome.fits_ok rfl
  | eof =>
      cases isCompiled
      simp only [Leaf.run]
      split
      · exact Outcome.fits_ok rfl
      · exact Outcome.fits_error _ _
  | fail =>
      cases isCompiled
      exact Outcome.fits_error _ _
  | custom yields =>
      cases isCompiled
      simp only [Leaf.run]
      split
      · rename_i value count accepted
        exact Outcome.fits_ok (yields _ _ _ _ _ accepted)
      · exact Outcome.fits_error _ _
      · exact Outcome.fits_error _ _
      · exact Outcome.fits_error _ _

/-! ## Clauses -/

section Clauses

variable {types : NodeId -> ValueType L.Kind -> Prop} {limited : Prop} {call : Caller L NodeId}

theorem Caller.Safe.fits (callers : call.Safe types limited) {id : NodeId} {type : ValueType L.Kind}
    (isType : types id type) {context : Context L} (typed : context.Typed types) :
    (call id context).Safe types limited fun outcome => Outcome.Fits outcome type :=
  (callers id context ⟨type, isType⟩ typed).imp fun _ fits => fits type isType

/-- Values of as many types as there are items, in their order. -/
def Values.Fit (values : Values L) (count : Nat) (types : Nat -> ValueType L.Kind) : Prop :=
  forall list, values = .ok list -> list.length = count ∧
    forall index value, list[index]? = some value -> value.type = types index

theorem runSequence_safe (callers : call.Safe types limited) {items : List NodeId}
    {expected : Nat -> ValueType L.Kind}
    (isTyped : forall index item, items[index]? = some item -> types item (expected index))
    {context : Context L} (typed : context.Typed types) :
    (runSequence call items context).Safe types limited fun values =>
      Values.Fit values items.length expected := by
  induction items generalizing expected context with
  | nil =>
      refine ⟨?_, typed⟩
      intro list isList
      cases isList
      exact ⟨rfl, fun index value found => by cases found⟩
  | cons item rest inductionHypothesis =>
      rw [runSequence]
      apply (callers.fits (isTyped 0 item rfl) typed).andThen
      intro outcome after fits typed
      cases outcome with
      | error error =>
          refine ⟨?_, typed⟩
          intro list isList
          cases isList
      | ok value =>
          have later := @inductionHypothesis (fun index => expected (index + 1))
            (fun index item found => isTyped (index + 1) item found) after typed
          apply later.andThen
          intro values last fit typed
          refine ⟨?_, typed⟩
          intro list isList
          cases values with
          | error error => cases isList
          | ok others =>
              cases isList
              rcases fit others rfl with ⟨sameLength, areTypes⟩
              refine ⟨congrArg Nat.succ sameLength, ?_⟩
              intro index found isFound
              cases index with
              | zero =>
                  cases isFound
                  exact fits value rfl
              | succ index => exact areTypes index found isFound

theorem runChoice_safe (callers : call.Safe types limited) (self : NodeId) (start : Snapshot L)
    {last : Option (ParseError L.Payload)} {alts : List NodeId} {type : ValueType L.Kind}
    (isTyped : forall alt, alt ∈ alts -> types alt type) (ends : last = none -> alts ≠ [])
    {context : Context L} (typed : context.Typed types) :
    (runChoice call self start last alts context).Safe types limited fun outcome =>
      Outcome.Fits outcome type := by
  induction alts generalizing last context with
  | nil =>
      cases last with
      | some error => exact ⟨Outcome.fits_error error type, typed⟩
      | none => exact absurd rfl (ends rfl)
  | cons alt rest inductionHypothesis =>
      rw [runChoice]
      apply (callers.fits (isTyped alt (List.mem_cons_self ..)) typed).andThen
      intro outcome after fits typed
      cases outcome with
      | ok value => exact ⟨fits, typed⟩
      | error error =>
          by_cases stayed : after.position = start.position
          · simp only [if_pos stayed]
            apply inductionHypothesis (fun other isOther => isTyped other (List.mem_cons_of_mem _ isOther))
            · intro isNone
              cases isNone
            · exact typed
          · simp only [if_neg stayed]
            exact ⟨fits, typed⟩

/-- A list of values of one type. -/
def Values.AllOf (values : Values L) (type : ValueType L.Kind) : Prop :=
  forall list, values = .ok list -> forall value, value ∈ list -> value.type = type

theorem runRepeated_safe (callers : call.Safe types limited) (keepState : Bool) {inner : NodeId}
    {element : ValueType L.Kind} (isTyped : types inner element) (min : Nat) (max : Option Nat)
    (rounds : Nat) {values : List (Value L)}
    (areTypes : forall value, value ∈ values -> value.type = element) {context : Context L}
    (typed : context.Typed types) :
    (runRepeated call keepState inner min max rounds values context).Safe types limited fun values =>
      Values.AllOf values element := by
  have reversed : forall values : List (Value L),
      (forall value, value ∈ values -> value.type = element) ->
        Values.AllOf (.ok values.reverse : Values L) element := by
    intro values areTypes list isList value member
    cases isList
    exact areTypes value (List.mem_reverse.mp member)
  induction rounds generalizing values context with
  | zero => trivial
  | succ rounds inductionHypothesis =>
      rw [runRepeated]
      by_cases full : max.any (· ≤ values.length) = true
      · rw [if_pos full]
        exact ⟨reversed values areTypes, typed⟩
      · rw [if_neg full]
        apply (callers.fits isTyped typed).andThen
        intro outcome after fits typed
        cases outcome with
        | ok value =>
            have longer : forall other, other ∈ value :: values -> other.type = element := by
              intro other member
              rcases List.mem_cons.mp member with own | older
              · rw [own]
                exact fits value rfl
              · exact areTypes other older
            by_cases idle : after.position = context.position ∧ min ≤ values.length + 1
            · simp only [if_pos idle]
              exact ⟨reversed (value :: values) longer, typed⟩
            · simp only [if_neg idle]
              exact inductionHypothesis longer typed
        | error error =>
            by_cases final : after.position ≠ context.position ∨ values.length < min
            · simp only [if_pos final]
              refine ⟨?_, typed⟩
              intro list isList
              cases isList
            · simp only [if_neg final]
              exact ⟨reversed values areTypes, typed⟩

theorem Context.Typed.withSeed {context : Context L} (typed : context.Typed types)
    (key : NodeId × Nat) {seed : Seed L}
    (fits : forall type, types key.1 type -> Outcome.Fits seed.outcome type) :
    (context.withSeed key seed).Typed types := by
  intro id start found type isFound isType
  by_cases here : (id, start) = key
  · subst here
    have same := (context.seedAt_withSeed_self (id, start) seed).symm.trans isFound
    cases same
    exact fits type isType
  · have same := (context.seedAt_withSeed_of_ne seed here).symm.trans isFound
    exact typed id start found type same isType

theorem replay_safe {self : NodeId} {start : Nat} {seed : Seed L} {context : Context L}
    (found : context.seeds.get? self start = some seed) (typed : context.Typed types) :
    (replay seed context).Safe types limited fun outcome =>
      forall type, types self type -> Outcome.Fits outcome type := by
  refine ⟨?_, typed⟩
  intro type isType
  exact typed self start seed type found isType

theorem runGrowth_safe (callers : call.Safe types limited) (keeps : forall key seed, call.Keeps key seed)
    {self inner : NodeId} (inhabited : exists type, types inner type)
    (isTyped : forall type, types self type -> types inner type) (start : Snapshot L)
    (rounds : Nat) {seed : Seed L} {context : Context L}
    (planted : context.seedAt (self, start.position) = some seed)
    (typed : context.Typed types) :
    (runGrowth call self inner start rounds context).Safe types limited fun outcome =>
      forall type, types self type -> Outcome.Fits outcome type := by
  induction rounds generalizing seed context with
  | zero => trivial
  | succ rounds inductionHypothesis =>
      rw [runGrowth]
      apply (callers inner (context.restore start) inhabited typed).andThen_of_finished
      intro outcome after ends fits typed
      have left : after.seeds.get? self start.position = some seed :=
        keeps _ seed inner (context.restore start) outcome after planted ends
      simp only [left]
      by_cases shorter : after.position ≤ seed.position
      · rw [if_pos shorter]
        exact replay_safe left typed
      · rw [if_neg shorter]
        cases outcome with
        | error error => exact ⟨fun type _ => Outcome.fits_error error type, typed⟩
        | ok value =>
            apply inductionHypothesis
            · exact after.seedAt_withSeed_self (self, start.position) _
            · apply typed.withSeed (self, start.position)
              intro type isType
              exact fits type (isTyped type isType)

theorem finishWith_safe (self : NodeId) {value : Option (Value L)} {type : ValueType L.Kind}
    (isTyped : exists content, value = some content ∧ content.type = type)
    {context : Context L} (typed : context.Typed types) :
    (finishWith self value context).Safe types limited fun outcome => Outcome.Fits outcome type := by
  rcases isTyped with ⟨content, rfl, isType⟩
  exact ⟨Outcome.fits_ok isType, typed⟩

/-- A typed clause comes to a value of its type, if its calls do so and keep the
seeds that are there. -/
theorem clause_safe (callers : call.Safe types limited) (keeps : forall key seed, call.Keeps key seed)
    (rounds : Nat) (input : L.Input) (writes : NodeId -> Bool) {self : NodeId}
    {clause : Clause L PatternProgram NodeId}
    (each : forall type, types self type -> clause.HasType Leaf.CompiledType types type)
    {type : ValueType L.Kind} (isTyped : types self type) {context : Context L}
    (typed : context.Typed types) :
    (clause.run call rounds input writes self context).Safe types limited fun outcome =>
      Outcome.Fits outcome type := by
  cases each type isTyped with
  | @leaf atom _ isLeaf =>
      have kept : (atom.run input self context).2.Typed types := by
        rw [Context.Typed, Leaf.run_seeds]
        exact typed
      exact ⟨Leaf.run_fits isLeaf input self context, kept⟩
  | @map inner transform source _ innerType takes =>
      apply (callers.fits innerType typed).andThen
      intro outcome after fits typed
      rcases takes outcome
          ({ after with range := (context.position, after.position) }.token input self) fits with
        ⟨result, isResult, resultFits⟩
      simp only [isResult]
      exact ⟨resultFits, typed⟩
  | update innerType =>
      apply (callers.fits innerType typed).andThen
      intro outcome after fits typed
      cases outcome with
      | error error => exact ⟨fits, typed⟩
      | ok value => exact ⟨fits, typed⟩
  | @sequence items gather _ expected itemTypes takes =>
      apply (runSequence_safe callers itemTypes typed).andThen
      intro values after fit typed
      cases values with
      | error error => exact ⟨Outcome.fits_error error type, typed⟩
      | ok list =>
          rcases fit list rfl with ⟨sameLength, areTypes⟩
          rw [<- sameLength] at takes
          exact finishWith_safe self (Gather.collect_typed takes areTypes) typed
  | choice notEmpty altTypes =>
      exact runChoice_safe callers self context.snapshot altTypes (fun _ => notEmpty) typed
  | @optional inner element innerType =>
      apply (callers.fits innerType typed).andThen
      intro outcome after fits typed
      cases outcome with
      | ok value =>
          rcases Value.get?_of_type (fits value rfl) with ⟨content, isContent, _⟩
          refine finishWith_safe self ⟨⟨.option element, some content⟩, ?_, rfl⟩ typed
          rw [isContent]
          rfl
      | error error =>
          by_cases stayed : after.position = context.position
          · simp only [if_pos stayed]
            exact ⟨Outcome.fits_ok rfl, typed⟩
          · simp only [if_neg stayed]
            exact ⟨Outcome.fits_error error _, typed⟩
  | attempt innerType =>
      apply (callers.fits innerType typed).andThen
      intro outcome after fits typed
      cases outcome with
      | ok value => exact ⟨fits, typed⟩
      | error error => exact ⟨fits, typed⟩
  | @lookahead inner look negative _ seen innerType lookType =>
      apply (callers.fits innerType typed).andThen
      intro outcome middle fits typed
      cases outcome with
      | error error => exact ⟨fits, typed⟩
      | ok value =>
          apply (callers.fits lookType typed).andThen
          intro looked after _ typed
          by_cases matched : looked.isOk = negative
          · simp only [if_pos matched]
            exact ⟨Outcome.fits_error _ type, typed⟩
          · simp only [if_neg matched]
            exact ⟨fits, typed⟩
  | @repeated inner element min max innerType =>
      have none : forall value : Value L, value ∈ [] -> value.type = element := by
        intro value member
        cases member
      apply (runRepeated_safe callers (!writes inner) innerType min max rounds none typed).andThen
      intro values after areTypes typed
      cases values with
      | error error => exact ⟨Outcome.fits_error error _, typed⟩
      | ok list =>
          rcases Value.getAll?_of_types (areTypes list rfl) with ⟨contents, areContents⟩
          refine finishWith_safe self ⟨⟨.list element, contents⟩, ?_, rfl⟩ typed
          rw [Gather.collect, areContents]
          rfl
  | @leftRecursion inner _ innerType =>
      have innerTypes : forall other, types self other -> types inner other := by
        intro other isOther
        cases each other isOther with
        | leftRecursion otherType => exact otherType
      have safe : (Clause.run call rounds input writes self (.leftRecursion inner)
          context).Safe types limited fun outcome => forall other, types self other ->
            Outcome.Fits outcome other := by
        simp only [Clause.run]
        cases found : context.seeds.get? self context.position with
        | some seed => exact replay_safe found typed
        | none =>
            apply runGrowth_safe callers keeps ⟨type, innerType⟩ innerTypes context.snapshot
            · exact context.seedAt_withSeed_self (self, context.position) _
            · apply typed.withSeed (self, context.position)
              intro other _
              exact Outcome.fits_error _ other
      exact safe.imp fun _ fits => fits type isTyped

end Clauses

/-! ## Runs -/

/-- A typed node of a grammar comes to a value of its types, to a failure, to a
limit on nesting if there is one, or to the end of the steps.  It does not come
to a fault. -/
theorem Machine.run_safe {machine : Machine L} {types : NodeId -> ValueType L.Kind -> Prop}
    (typing : machine.grammar.Typing types) (steps depth : Nat) :
    Caller.Safe types (0 < machine.maxDepth) (machine.run steps depth) := by
  induction steps generalizing depth with
  | zero =>
      intro id context _ typed
      trivial
  | succ steps inductionHypothesis =>
      intro id context inhabited typed
      apply Reply.Safe.all inhabited
      intro type isTyped
      rw [run]
      by_cases trips : 0 < machine.maxDepth ∧ machine.maxDepth < depth
      · rw [if_pos trips]
        exact trips.1
      · rw [if_neg trips]
        rcases typing.clause id type isTyped with ⟨clause, found, _⟩
        rw [found]
        exact clause_safe (inductionHypothesis (depth + 1))
          (fun _ _ => machine.run_keeps steps (depth + 1)) steps machine.input
          machine.grammar.writesState (fun _ isOther => typing.hasType found isOther) isTyped typed

end SeedGrammar
