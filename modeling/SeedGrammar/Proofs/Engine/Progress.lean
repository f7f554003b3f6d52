import SeedGrammar.Proofs.Engine.Bounds

namespace SeedGrammar

/-!
# Progress of clauses

Every clause obeys a contract, `Clause.dialogue_obeys`.  Its calls lead to
contexts within bounds, never back.  A call at the place where the clause
itself started is one of a left operand, or belongs to a left recursion that
has planted its seed there.  If the clause matches without having advanced,
its operands have made that possible.  And its loops end within a number of
rounds that depends on the input and the clause only.

Which operands can match without advancing is a parameter.  Where it does not
matter every operand can; what the operands of a grammar can do is the
subject of nullability.
-/

variable {L : Signature} {α : Type}

/-- Whether a leaf can match somewhere in an input without consuming. -/
def Leaf.Idles (input : L.Input) (atom : Leaf L PatternProgram) : Prop :=
  exists self context value after, context.position ≤ Stream.length input ∧
    atom.run input self context = (.ok value, after) ∧ after.position = context.position

/-- Whether a transform makes a value of some failure. -/
def Transform.Recovers (transform : Transform L) : Prop :=
  exists error token value, transform (.error error) token = .ok (.ok value)

/-- Whether a token is of a match that lies within an input. -/
structure Token.Within (input : L.Input) (token : Token L) : Prop where
  same : token.input = input
  start : token.start ≤ Stream.length input
  stop : token.stop ≤ Stream.length input

namespace Clause

/-- Whether an operand can run at the place where the clause starts, given
which operands can match without advancing.  The operand of a left recursion
is not meant, for it runs only after a seed has been planted there. -/
def LeftOperand {ρ : Type} (nullable : α -> Prop) (operand : α) : Clause L ρ α -> Prop
  | leaf _ => False
  | map inner _ => operand = inner
  | update inner _ => operand = inner
  | sequence items _ => exists before after, items = before ++ operand :: after ∧
      forall item, item ∈ before -> nullable item
  | choice alts => operand ∈ alts
  | optional inner _ => operand = inner
  | attempt inner => operand = inner
  | lookahead inner look _ => operand = inner ∨ operand = look ∧ nullable inner
  | repeated inner _ _ _ => operand = inner
  | reference _ _ _ => False
  | leftRecursion _ => False

theorem LeftOperand.imp {ρ : Type} {nullable other : α -> Prop} {operand : α}
    {clause : Clause L ρ α} (isLeft : clause.LeftOperand nullable operand)
    (weaker : forall item, nullable item -> other item) : clause.LeftOperand other operand := by
  cases clause with
  | sequence items gather =>
      rcases isLeft with ⟨before, after, split, nullable⟩
      exact ⟨before, after, split, fun item member => weaker item (nullable item member)⟩
  | lookahead inner look negative =>
      rcases isLeft with asInner | ⟨asLook, nullable⟩
      · exact Or.inl asInner
      · exact Or.inr ⟨asLook, weaker inner nullable⟩
  | _ => exact isLeft

/-- Whether a clause can match without advancing, given which operands can. -/
def NullableBy (input : L.Input) (nullable : α -> Prop) : Clause L PatternProgram α -> Prop
  | leaf atom => atom.Idles input
  | map inner transform => nullable inner ∨ transform.Recovers
  | update inner _ => nullable inner
  | sequence items _ => forall item, item ∈ items -> nullable item
  | choice alts => exists alt, alt ∈ alts ∧ nullable alt
  | optional _ _ => True
  | attempt inner => nullable inner
  | lookahead inner _ _ => nullable inner
  | repeated inner _ min max => min = 0 ∨ max = some 0 ∨ nullable inner
  | reference _ _ _ => False
  | leftRecursion _ => False

/-- Whether what a clause does on its own is within bounds: what a leaf reads,
and the failures that a transform makes. -/
def Inside (bounds : Bounds L) : Clause L PatternProgram α -> Prop
  | leaf atom => atom.ReadsWithin bounds.input
  | map _ transform => forall outcome token error, Token.Within bounds.input token ->
      (forall before, outcome = .error before -> bounds.sound before) ->
      transform outcome token = .ok (.error error) -> bounds.sound error
  | _ => True

/-- Whether a clause makes the position wrap around. -/
def Wraps (input : L.Input) (context : Context L) : Clause L PatternProgram α -> Prop
  | leaf atom => atom.Wraps input context
  | _ => False

/-- How many rounds the loop of a clause makes at most where positions never go
back. -/
def budget {ρ : Type} (limit : Nat) : Clause L ρ α -> Nat
  | repeated _ _ min _ => limit + min
  | leftRecursion _ => limit
  | _ => 0

/-- Whether a context is one after a left recursion has planted its seed. -/
def Plants {ρ : Type} (self : NodeId) (context reached : Context L) : Clause L ρ α -> Prop
  | leftRecursion _ => context.seedAt (self, context.position) = none ∧
      reached.seedAt (self, context.position) ≠ none
  | _ => False

/-- The contract of a clause that starts in a context.  What an operand promises
about matches that do not advance is needed only where the clause itself
started. -/
def contract (bounds : Bounds L) (nullable : α -> Prop) (self : NodeId)
    (clause : Clause L PatternProgram α) (context : Context L) : Contract L α where
  asks operand reached := operand ∈ clause.children ∧ context.Reaches bounds reached ∧
    (context.Stays bounds reached ->
      clause.LeftOperand nullable operand ∨ clause.Plants self context reached)
  ends operand reached :=
    bounds.ending (reached.position ≤ context.position -> nullable operand) reached

section Contract

variable {bounds : Bounds L} {nullable : α -> Prop} {self : NodeId} {context : Context L}

/-- An operand that runs first, at the place where the clause starts. -/
theorem asks_first {clause : Clause L PatternProgram α} {operand : α}
    (within : context.Within bounds) (isChild : operand ∈ clause.children)
    (isLeft : clause.LeftOperand nullable operand) :
    (clause.contract bounds nullable self context).asks operand context :=
  ⟨isChild, .refl within, fun _ => Or.inl isLeft⟩

/-- If a clause has not advanced when an operand matches, neither had it when the
operand was called, and the operand can match without advancing. -/
theorem stays_before {clause : Clause L PatternProgram α} {operand : α} {reached after : Context L}
    (reaches : context.Reaches bounds reached)
    (matched : ((clause.contract bounds nullable self context).ends operand reached).matched after)
    (stays : context.Stays bounds after) :
    context.Stays bounds reached ∧ nullable operand :=
  have parts := stays.parts reaches matched.1
  ⟨parts.1, matched.2 parts.2 parts.1.2⟩

theorem leaf_obeys {atom : Leaf L PatternProgram} (within : context.Within bounds)
    (reads : atom.ReadsWithin bounds.input)
    (steady : bounds.forward -> ¬atom.Wraps bounds.input context) :
    (bounds.ending (atom.Idles bounds.input) context).Allows
      (atom.run bounds.input self context).1 (atom.run bounds.input self context).2 := by
  rcases atom.run_cases reads self within.position with
    ⟨error, isRun, atStart⟩ | ⟨value, position, isRun, inside, ahead⟩
  · rw [isRun]
    refine ⟨.refl within, bounds.inside error ?_⟩
    rw [atStart]
    exact within.position
  · rw [isRun]
    have reaches : context.Reaches bounds { context with position := position } :=
      (Context.Reaches.refl within).moved position context.state context.range inside
        fun forward => ahead (steady forward)
    refine ⟨reaches, ?_⟩
    intro stays
    have same : position = context.position :=
      Nat.le_antisymm stays.2 (reaches.forward stays.1)
    exact ⟨self, context, value, _, within.position, isRun, same⟩

theorem map_obeys {inner : α} {transform : Transform L} (within : context.Within bounds)
    (inside : (map inner transform : Clause L PatternProgram α).Inside bounds)
    (rounds : Nat) (writes : α -> Bool) {spent : Prop} :
    ((map inner transform : Clause L PatternProgram α).dialogue rounds bounds.input writes self
      context).Obeys ((map inner transform).contract bounds nullable self context) spent
      (bounds.ending (nullable inner ∨ transform.Recovers) context) := by
  have token : forall {after : Context L}, context.Reaches bounds after ->
      Token.Within bounds.input
        (Context.token { after with range := (context.position, after.position) } bounds.input
          self) :=
    fun reaches => ⟨rfl, within.position, reaches.within.position⟩
  apply Dialogue.obeys_ask
  · exact asks_first within (List.mem_singleton_self inner) rfl
  · intro error after failed
    have isToken := token failed.1
    dsimp only
    split
    · rename_i result isResult
      cases result with
      | error error' =>
          refine ⟨failed.1.updated after.state _, ?_⟩
          apply inside _ _ _ isToken _ isResult
          intro before isBefore
          cases isBefore
          exact failed.2
      | ok value =>
          refine ⟨failed.1.updated after.state _, ?_⟩
          intro _
          exact Or.inr ⟨_, _, _, isResult⟩
    · trivial
  · intro value after matched
    have isToken := token matched.1
    dsimp only
    split
    · rename_i result isResult
      cases result with
      | error error =>
          refine ⟨matched.1.updated after.state _, ?_⟩
          apply inside _ _ _ isToken _ isResult
          intro before isBefore
          cases isBefore
      | ok value =>
          refine ⟨matched.1.updated after.state _, ?_⟩
          intro stays
          exact Or.inl (stays_before (.refl within) matched stays).2
    · trivial

theorem sequence_obeys {items : List α} {gather : Gather L.Kind}
    (within : context.Within bounds) {spent : Prop} :
    (Dialogue.sequence items context).Obeys
      ((sequence items gather : Clause L PatternProgram α).contract bounds nullable self context)
      spent (bounds.ending (forall item, item ∈ items -> nullable item) context) := by
  -- All items before the rest have matched, and did not advance if the whole
  -- has not.
  let invariant (rest : List α) (reached : Context L) : Prop :=
    context.Reaches bounds reached ∧ exists before, items = before ++ rest ∧
      (context.Stays bounds reached -> forall item, item ∈ before -> nullable item)
  apply Dialogue.obeys_sequence invariant
  · rintro item rest reached ⟨reaches, before, rfl, idle⟩
    refine ⟨List.mem_append_right before List.mem_cons_self, reaches, ?_⟩
    intro stays
    exact Or.inl ⟨before, rest, rfl, idle stays⟩
  · rintro item rest reached error after ⟨reaches, _⟩ failed
    exact ⟨reaches.trans failed.1, failed.2⟩
  · rintro item rest reached after ⟨reaches, before, rfl, idle⟩ matched
    refine ⟨reaches.trans matched.1, before ++ [item], by simp, ?_⟩
    intro stays other member
    have stood := stays_before reaches matched stays
    rcases List.mem_append.mp member with earlier | last
    · exact idle stood.1 other earlier
    · rw [List.mem_singleton.mp last]
      exact stood.2
  · rintro reached ⟨reaches, before, rfl, idle⟩
    refine ⟨reaches, ?_⟩
    intro stays item member
    rw [List.append_nil] at member
    exact idle stays item member
  · refine ⟨.refl within, [], rfl, ?_⟩
    intro _ item member
    cases member

theorem choice_obeys {alts : List α} (within : context.Within bounds) {spent : Prop} :
    (Dialogue.choice self context.snapshot none alts context).Obeys
      ((choice alts : Clause L PatternProgram α).contract bounds nullable self context) spent
      (bounds.ending (exists alt, alt ∈ alts ∧ nullable alt) context) := by
  let invariant (last : Option (ParseError L.Payload)) (rest : List α) (reached : Context L) :
      Prop :=
    context.Reaches bounds reached ∧ reached.position = context.position ∧
      (forall alt, alt ∈ rest -> alt ∈ alts) ∧
      forall error, last = some error -> bounds.sound error
  apply Dialogue.obeys_choice invariant
  · rintro last alt rest reached ⟨reaches, _, known, _⟩
    have member := known alt List.mem_cons_self
    exact ⟨member, reaches, fun _ => Or.inl member⟩
  · rintro last alt rest reached after ⟨reaches, here, known, _⟩ matched
    refine ⟨reaches.trans matched.1, ?_⟩
    intro stays
    exact ⟨alt, known alt List.mem_cons_self, (stays_before reaches matched stays).2⟩
  · rintro last alt rest reached error after ⟨reaches, here, known, _⟩ failed _
    refine ⟨Context.Reaches.restored within (reaches.trans failed.1), rfl, ?_, ?_⟩
    · intro other member
      exact known other (List.mem_cons_of_mem alt member)
    · rintro _ ⟨rfl⟩
      exact failed.2
  · rintro last alt rest reached error after ⟨reaches, _⟩ failed
    exact ⟨reaches.trans failed.1, failed.2⟩
  · rintro error reached ⟨reaches, _, _, sound⟩
    exact ⟨reaches, sound error rfl⟩
  · refine ⟨.refl within, rfl, fun _ member => member, ?_⟩
    rintro _ ⟨⟩

theorem repeated_obeys {inner : α} {element : ValueType L.Kind} {min : Nat} {max : Option Nat}
    (within : context.Within bounds) (keepState : Bool) {rounds : Nat} :
    (Dialogue.repeated keepState inner min max rounds [] context).Obeys
      ((repeated inner element min max : Clause L PatternProgram α).contract bounds nullable self
        context)
      (bounds.forward -> rounds ≤ bounds.limit + min)
      (bounds.ending (min = 0 ∨ max = some 0 ∨ nullable inner) context) := by
  -- Every round either advances or is one of those that are still needed.
  let invariant (needed count : Nat) (reached : Context L) : Prop :=
    needed = (bounds.limit - reached.position) + (min - count) ∧
      context.Reaches bounds reached ∧
      (context.Stays bounds reached -> count = 0 ∨ nullable inner)
  apply Dialogue.obeys_repeated invariant
  · rintro needed count reached ⟨_, reaches, idle⟩ full
    refine ⟨reaches, ?_⟩
    intro stays
    rcases idle stays with rfl | innerIdle
    · cases max with
      | none => cases full
      | some max =>
          have none : max = 0 := by simpa using full
          rw [none]
          exact Or.inr (Or.inl rfl)
    · exact Or.inr (Or.inr innerIdle)
  · rintro needed count reached ⟨_, reaches, _⟩
    exact ⟨List.mem_singleton_self inner, reaches, fun _ => Or.inl rfl⟩
  · rintro needed count reached after ⟨_, reaches, _⟩ matched _
    refine ⟨reaches.trans matched.1, ?_⟩
    intro stays
    exact Or.inr (Or.inr (stays_before reaches matched stays).2)
  · rintro needed count reached after ⟨rfl, reaches, _⟩ matched again
    refine ⟨_, ⟨rfl, reaches.trans matched.1, ?_⟩, ?_⟩
    · intro stays
      exact Or.inr (stays_before reaches matched stays).2
    · by_cases forward : bounds.forward
      · have ahead := matched.1.forward forward
        have inside := matched.1.within.position
        exact Or.inl (by omega)
      · exact Or.inr fun isForward => absurd isForward forward
  · rintro needed count reached error after ⟨_, reaches, _⟩ failed
    exact ⟨reaches.trans failed.1, failed.2⟩
  · rintro needed count reached error after state ⟨_, reaches, idle⟩ failed enough _
    refine ⟨(reaches.trans failed.1).moved reached.position state after.range
      reaches.within.position reaches.forward, ?_⟩
    intro stays
    rcases idle stays with rfl | innerIdle
    · exact Or.inl (Nat.le_zero.mp enough)
    · exact Or.inr (Or.inr innerIdle)
  · intro few _
    have start : bounds.limit - context.position + (min - 0) ≤ bounds.limit + min := by omega
    exact Nat.le_trans few start
  · exact ⟨rfl, .refl within, fun _ => Or.inl rfl⟩

/-- The first seed of a left recursion. -/
theorem firstSeed_within (within : context.Within bounds) (self : NodeId) :
    Seed.Within bounds context.position
      ⟨context.position, context.state,
        .error ((ParseError.bare context.position).withNode self)⟩ where
  after := Nat.le_refl _
  inside := within.position
  advanced _ isValue := by cases isValue
  sound error isError := by
    cases isError
    exact bounds.inside _ within.position

/-- Answering with a seed is no match that stays. -/
theorem replay_allowed {seed : Seed L} {after : Context L}
    (seedWithin : seed.Within bounds context.position) (reaches : context.Reaches bounds after) :
    (bounds.ending False context).Allows seed.outcome
      { after with position := seed.position, state := seed.state } := by
  have replayed := reaches.replayed seedWithin
  cases isOutcome : seed.outcome with
  | error error => exact ⟨replayed, seedWithin.sound error isOutcome⟩
  | ok value =>
      refine ⟨replayed, ?_⟩
      intro stays
      have advanced := seedWithin.advanced value isOutcome
      have back : seed.position ≤ context.position := stays.2
      omega

theorem growth_obeys {inner : α} (within : context.Within bounds)
    (absent : context.seedAt (self, context.position) = none) {rounds : Nat} {spent : Prop}
    (enough : rounds ≤ bounds.limit -> spent) :
    (Dialogue.growth self inner context.snapshot rounds
      (context.withSeed (self, context.position)
        ⟨context.position, context.state,
          .error ((ParseError.bare context.position).withNode self)⟩)).Obeys
      ((leftRecursion inner : Clause L PatternProgram α).contract bounds nullable self context)
      spent (bounds.ending False context) := by
  let key := (self, context.position)
  let invariant (seed : Seed L) (reached : Context L) : Prop :=
    context.Reaches bounds reached ∧ reached.seedAt key = some seed
  have back : forall {seed reached}, invariant seed reached ->
      context.Reaches bounds (reached.restore context.snapshot) :=
    fun holds => Context.Reaches.restored within holds.1
  have onward : forall {seed reached idle} {outcome : Outcome L} {after}, invariant seed reached ->
      (bounds.ending idle (reached.restore context.snapshot)).Allows outcome after ->
      invariant seed after := by
    intro seed reached idle outcome after holds allowed
    have reaches : (reached.restore context.snapshot).Reaches bounds after := by
      cases outcome with
      | error error => exact allowed.1
      | ok value => exact allowed.1
    exact ⟨(back holds).trans reaches, reaches.keeps key seed holds.2⟩
  have seedWithin : forall {seed reached}, invariant seed reached ->
      seed.Within bounds context.position :=
    fun holds => holds.1.within.seeds key _ holds.2
  apply Dialogue.obeys_growth bounds.limit invariant
  · intro seed reached holds
    refine ⟨List.mem_singleton_self inner, back holds, ?_⟩
    intro _
    refine Or.inr ⟨absent, ?_⟩
    intro lost
    have planted : reached.seedAt key = some seed := holds.2
    rw [show reached.seedAt key = none from lost] at planted
    cases planted
  · intro seed reached outcome after holds allowed
    exact (onward holds allowed).2
  · intro seed reached outcome after holds allowed
    exact replay_allowed (seedWithin holds) (onward holds allowed).1
  · intro seed reached error after holds failed
    exact ⟨(back holds).trans failed.1, failed.2⟩
  · intro seed reached after value holds matched longer
    have reaches := (back holds).trans matched.1
    refine ⟨Or.inl reaches.within.position, reaches.planted absent ?_,
      after.seedAt_withSeed_self key _⟩
    have old := seedWithin holds
    refine ⟨?_, reaches.within.position, ?_, ?_⟩
    · exact Nat.le_trans old.after (Nat.le_of_lt longer)
    · intro _ _
      exact Nat.lt_of_le_of_lt old.after longer
    · intro _ isError
      cases isError
  · intro few
    exact enough (Nat.le_trans few (Nat.sub_le _ _))
  · exact ⟨(Context.Reaches.refl within).planted absent (firstSeed_within within self),
      context.seedAt_withSeed_self key _⟩

/-- Every clause keeps to its contract. -/
theorem dialogue_obeys {clause : Clause L PatternProgram α} (within : context.Within bounds)
    (inside : clause.Inside bounds)
    (steady : bounds.forward -> ¬clause.Wraps bounds.input context) (rounds : Nat)
    (writes : α -> Bool) :
    (clause.dialogue rounds bounds.input writes self context).Obeys
      (clause.contract bounds nullable self context)
      (bounds.forward -> rounds ≤ clause.budget bounds.limit)
      (bounds.ending (clause.NullableBy bounds.input nullable) context) := by
  cases clause with
  | leaf atom => exact leaf_obeys within inside steady
  | map inner transform => exact map_obeys within inside rounds writes
  | update inner next =>
      apply Dialogue.obeys_ask
      · exact asks_first within (List.mem_singleton_self inner) rfl
      · intro error after failed
        exact failed
      · intro value after matched
        exact ⟨matched.1.updated _ _, fun stays => (stays_before (.refl within) matched stays).2⟩
  | sequence items gather =>
      apply Dialogue.obeys_andThen (sequence_obeys within)
      intro values after allowed
      exact Dialogue.obeys_finishGathered self gather allowed
  | choice alts => exact choice_obeys within
  | optional inner element =>
      apply Dialogue.obeys_ask
      · exact asks_first within (List.mem_singleton_self inner) rfl
      · intro error after failed
        by_cases stayed : after.position = context.position
        · simp only [if_pos stayed]
          exact ⟨Context.Reaches.restored within failed.1, fun _ => trivial⟩
        · simp only [if_neg stayed]
          exact failed
      · intro value after matched
        exact Dialogue.obeys_finishWith self _ ⟨matched.1, fun _ => trivial⟩
  | attempt inner =>
      apply Dialogue.obeys_ask
      · exact asks_first within (List.mem_singleton_self inner) rfl
      · intro error after failed
        exact ⟨Context.Reaches.restored within failed.1, failed.2⟩
      · intro value after matched
        exact ⟨matched.1, fun stays => (stays_before (.refl within) matched stays).2⟩
  | lookahead inner look negative =>
      apply Dialogue.obeys_ask
      · exact asks_first within List.mem_cons_self (Or.inl rfl)
      · intro error middle failed
        exact failed
      · intro value middle matched
        have undone : forall {after}, middle.Reaches bounds after ->
            context.Reaches bounds (after.restore middle.snapshot) :=
          fun reaches => matched.1.trans (Context.Reaches.restored matched.1.within reaches)
        refine ⟨⟨List.mem_cons_of_mem _ List.mem_cons_self, matched.1, ?_⟩, ?_⟩
        · intro stays
          exact Or.inl (Or.inr ⟨rfl, (stays_before (.refl within) matched stays).2⟩)
        · intro looked after allowed
          have reaches : middle.Reaches bounds after := by
            cases looked with
            | error error => exact allowed.1
            | ok value => exact allowed.1
          by_cases isLooked : looked.isOk = negative
          · simp only [if_pos isLooked]
            exact ⟨undone reaches, bounds.inside _ matched.1.within.position⟩
          · simp only [if_neg isLooked]
            exact ⟨undone reaches, fun stays => (stays_before (.refl within) matched stays).2⟩
  | repeated inner element min max =>
      apply Dialogue.obeys_andThen (repeated_obeys within _)
      intro values after allowed
      exact Dialogue.obeys_finishGathered self (.list element) allowed
  | reference name expected target => trivial
  | leftRecursion inner =>
      rw [Clause.dialogue]
      cases found : context.seeds.get? self context.position with
      | some seed =>
          exact replay_allowed (within.seeds (self, context.position) seed found) (.refl within)
      | none =>
          apply growth_obeys within found
          intro few _
          exact few

end Contract
end Clause
end SeedGrammar
