import Mathlib.Data.Nat.Find
import SeedGrammar.Proofs.Grammar.QueryHistory

namespace SeedGrammar

/-!
# Answers that rest on no assumption

An answer may rest on the assumption that a node which is being computed is nullable, and
is kept when the assumption has turned out wrong.  So there are nodes whose answer depends
on which node of a cycle was asked about first.  For others it does not.

Nodes that are nullable as long as all nodes of some set are get the answer yes, since a no
never relies on an assumption.

For a no it matters what is being computed.  If a node is denied because of an operand, then
the operand must not count as nullable for the time being when it is asked about.  Only a node
can be being computed then that has asked about the node at hand, directly or not, and
questions stop where the answer is certain.  So it takes a set of nodes, and for each node
what can be being computed when it is asked about, to see that all nodes of the set are denied
in any case: `Firm`.

In particular a node is answered in one way if it can be decided without assumptions, by
asking about operands in order until the answer is certain.  Any decision needs more steps
than those of the operands, so none of them is being computed.
-/

variable {L : Signature}

namespace Grammar

/-- Whether a node is in a set of nodes that are nullable by the rules if all of
them are. -/
def Tenable (grammar : Grammar L) : NodeId -> Prop :=
  grammar.nullableStep.gfp

/-- Whether a node is denied, and is not around another one, that is, it cannot be being
computed when the other one is asked about. -/
def DeniedFor (denied : NodeId -> Prop) (around : NodeId -> NodeId -> Prop)
    (id other : NodeId) : Prop :=
  denied other ∧ ¬around other id

/-- Whether some nodes are denied in any case, given which nodes may be being computed around
each.  The latter covers all questions that a node may ask, and the rules deny the former even
if all their operands are nullable but those that are denied for them. -/
structure Firm (grammar : Grammar L) (denied : NodeId -> Prop)
    (around : NodeId -> NodeId -> Prop) : Prop where
  own : forall id, around id id
  onward : forall {id operand} {clause : Clause L PatternProgram NodeId},
    grammar.nodes[id]? = some clause ->
      clause.inquiry.MayAsk (DeniedFor denied around id) grammar.Tenable operand ->
        forall outer, around outer id -> around outer operand
  refuses : forall {id} {clause : Clause L PatternProgram NodeId}, denied id ->
    grammar.nodes[id]? = some clause ->
      ¬clause.inquiry.Holds fun operand => ¬DeniedFor denied around id operand

/-- Whether a node is denied in any case. -/
def FirmlyDenied (grammar : Grammar L) (id : NodeId) : Prop :=
  exists denied around, grammar.Firm denied around ∧ denied id

/-- The answer about a node that is found within some steps without keeping
anything, if there is one.  A number of no node is not nullable. -/
def decide? (grammar : Grammar L) : Nat -> NodeId -> Option Bool
  | 0, _ => none
  | steps + 1, id =>
    match grammar.nodes[id]? with
    | none => some false
    | some clause => clause.inquiry.decide? (grammar.decide? steps)

variable {grammar : Grammar L}

theorem tenable_supports (grammar : Grammar L) : grammar.Supports grammar.Tenable := by
  intro id tenable
  have solves := congrFun grammar.nullableStep.map_gfp id
  exact (iff_of_eq solves).mpr tenable

/-! ## Questions -/

/-- Whether what is known denies nothing tenable, affirms nothing denied, and leaves so much
fuel that a question is never cut short. -/
structure Heeds (grammar : Grammar L) (denied : NodeId -> Prop) (fuel : Nat)
    (known : Nullability) : Prop where
  length : known.cells.length = grammar.nodeCount
  enough : known.unknownCount ≤ fuel
  spares : grammar.Spares grammar.Tenable known
  refuses : forall id, denied id -> known.get? id ≠ some (.known true)

section Questions

variable {denied : NodeId -> Prop} {around : NodeId -> NodeId -> Prop} {fuel : Nat}
  {known : Nullability} {id : NodeId}

/-- Fuel lasts as long as there are unknown nodes, and all that is listed exists. -/
theorem Heeds.not_spent (heeds : grammar.Heeds denied fuel known)
    (status : known.get? id = some .unknown) : ¬(fuel = 0 ∨ grammar.nodes[id]? = none) := by
  rintro (rfl | noNode)
  · have positive : 0 < known.unknownCount :=
      List.count_pos_iff.mpr (List.mem_of_getElem? status)
    exact absurd heeds.enough (Nat.not_le_of_lt positive)
  · have inRange : id < grammar.nodeCount := by
      rw [<- heeds.length]
      exact (List.getElem?_eq_some_iff.mp status).1
    exact absurd inRange (Nat.not_lt_of_le (List.getElem?_eq_none_iff.mp noNode))

theorem Heeds.begin (heeds : grammar.Heeds denied (fuel + 1) known)
    (status : known.get? id = some .unknown) :
    grammar.Heeds denied fuel (known.set id .computing) where
  length := Nullability.length_set.trans heeds.length
  enough := by
    have used := Nullability.unknownCount_begun status
    have enough := heeds.enough
    omega
  spares := heeds.spares.set fun isKnown => by cases isKnown
  refuses other isDenied found := by
    rcases Nullability.found_of_set found with ⟨_, isKnown⟩ | ⟨_, old⟩
    · cases isKnown
    · exact heeds.refuses other isDenied old

theorem Heeds.answer (heeds : grammar.Heeds denied fuel known) {answer : Bool}
    (spared : answer = false -> ¬grammar.Tenable id) (refused : denied id -> answer = false) :
    grammar.Heeds denied (fuel + 1) (known.set id (.known answer)) where
  length := Nullability.length_set.trans heeds.length
  enough := Nat.le_succ_of_le
    (Nat.le_trans (Nullability.unknownCount_answered known id answer) heeds.enough)
  spares := heeds.spares.set fun isNo => spared (NullStatus.known.inj isNo)
  refuses other isDenied found := by
    rcases Nullability.found_of_set found with ⟨rfl, isYes⟩ | ⟨_, old⟩
    · exact Bool.noConfusion ((refused isDenied).symm.trans (NullStatus.known.inj isYes))
    · exact heeds.refuses other isDenied old

/-- Denied nodes are answered with no unless they are being computed, as long as everything
that is being computed is around the node that is asked about.  The induction is on the
nesting of questions. -/
theorem isNullableWithin_heeds (firm : grammar.Firm denied around) (fuel : Nat) (id : NodeId)
    {known : Nullability} (heeds : grammar.Heeds denied fuel known)
    (inside : forall outer, known.get? outer = some .computing -> around outer id) :
    grammar.Heeds denied fuel (grammar.isNullableWithin fuel id known).2 ∧
      (denied id -> known.get? id ≠ some .computing ->
        (grammar.isNullableWithin fuel id known).1 = false) := by
  induction fuel using Nat.strong_induction_on generalizing id known with
  | _ fuel inductionHypothesis =>
      have spared := grammar.isNullableWithin_spares grammar.tenable_supports fuel id heeds.spares
      have question := grammar.isNullableWithin_question fuel id known
      generalize grammar.isNullableWithin fuel id known = result at spared question ⊢
      cases question with
      | unlisted status => exact ⟨heeds, fun _ _ => rfl⟩
      | known status =>
          refine ⟨heeds, ?_⟩
          intro isDenied _
          apply Bool.eq_false_of_not_eq_true
          rintro rfl
          exact heeds.refuses id isDenied status
      | computing status => exact ⟨heeds, fun _ notComputing => absurd status notComputing⟩
      | spent status reason => exact absurd reason (heeds.not_spent status)
      | @computed fewer clause answer after status found asked =>
          -- Everything that is being computed stays around the node, the node included.
          have asks : forall operand before,
              clause.inquiry.MayAsk (DeniedFor denied around id) grammar.Tenable operand ->
              (grammar.Heeds denied fewer before ∧
                forall outer, before.get? outer = some .computing -> around outer id) ->
              (grammar.Heeds denied fewer (grammar.isNullableWithin fewer operand before).2 ∧
                forall outer, (grammar.isNullableWithin fewer operand before).2.get? outer =
                  some .computing -> around outer id) ∧
              (DeniedFor denied around id operand ->
                (grammar.isNullableWithin fewer operand before).1 = false) ∧
              (grammar.Tenable operand ->
                (grammar.isNullableWithin fewer operand before).1 = true) := by
            rintro operand before mayAsk ⟨isHeeding, isInside⟩
            have ends := inductionHypothesis fewer (Nat.lt_succ_self fewer) operand isHeeding
              fun outer computing => firm.onward found mayAsk outer (isInside outer computing)
            have longer := grammar.isNullableWithin_extends fewer operand before
            refine ⟨⟨ends.1, ?_⟩, ?_, ?_⟩
            · exact fun outer computing => isInside outer ((longer.computing outer).mp computing)
            · rintro ⟨isDenied, apart⟩
              exact ends.2 isDenied fun computing => apart (isInside operand computing)
            · intro tenable
              have yes := (grammar.isNullableWithin_spares grammar.tenable_supports fewer operand
                isHeeding.spares).2
              exact Bool.eq_true_of_not_eq_false fun no => yes no tenable
          have begun : forall outer, (known.set id .computing).get? outer = some .computing ->
              around outer id := by
            intro outer computing
            rcases Nullability.found_of_set computing with ⟨rfl, _⟩ | ⟨_, old⟩
            · exact firm.own _
            · exact inside outer old
          have ran := Inquiry.run_mayAsk asks ⟨heeds.begin status, begun⟩
          rw [asked] at ran
          have refused : denied id -> answer = false := fun isDenied =>
            Bool.eq_false_of_not_eq_true fun yes => firm.refuses isDenied found (ran.2 yes)
          exact ⟨ran.1.1.answer spared.2 refused, fun isDenied _ => refused isDenied⟩

end Questions

/-! ## Decisions -/

theorem decide?_succ {steps : Nat} {id : NodeId} {answer : Bool}
    (decided : grammar.decide? steps id = some answer) :
    grammar.decide? (steps + 1) id = some answer := by
  induction steps generalizing id answer with
  | zero => cases decided
  | succ steps inductionHypothesis =>
      rw [decide?] at decided ⊢
      cases found : grammar.nodes[id]? with
      | none =>
          rw [found] at decided
          exact decided
      | some clause =>
          rw [found] at decided
          exact Inquiry.decide?_of_agree (fun _ _ => inductionHypothesis) decided

theorem decide?_more {steps more : Nat} (enough : steps ≤ more) {id : NodeId} {answer : Bool}
    (decided : grammar.decide? steps id = some answer) :
    grammar.decide? more id = some answer := by
  induction enough with
  | refl => exact decided
  | step _ inductionHypothesis => exact decide?_succ inductionHypothesis

/-- The clause of a node that has been decided is decided in one step less. -/
theorem inquiry_decided {steps : Nat} {id : NodeId} {answer : Bool}
    {clause : Clause L PatternProgram NodeId} (found : grammar.nodes[id]? = some clause)
    (decided : grammar.decide? (steps + 1) id = some answer) :
    clause.inquiry.decide? (grammar.decide? steps) = some answer := by
  rw [decide?, found] at decided
  exact decided

/-- A node that is decided with yes is tenable. -/
theorem tenable_of_decided {steps : Nat} {id : NodeId}
    (decided : grammar.decide? steps id = some true) : grammar.Tenable id := by
  let affirmed : NodeId -> Prop := fun id => exists steps, grammar.decide? steps id = some true
  have supported : affirmed ≤ grammar.nullableStep affirmed := by
    rintro id ⟨steps, decided⟩
    cases steps with
    | zero => cases decided
    | succ steps =>
        cases found : grammar.nodes[id]? with
        | none =>
            rw [decide?, found] at decided
            cases decided
        | some clause =>
            have holds := Inquiry.holds_of_decided (inquiry_decided found decided)
            exact ⟨clause, found,
              (Clause.nullableFrom_iff.mpr holds).imp fun other isYes => ⟨steps, isYes⟩⟩
  exact grammar.nullableStep.le_gfp supported id ⟨steps, decided⟩

/-- Whether a node is decided within some steps. -/
def DecidedWithin (grammar : Grammar L) (steps : Nat) (id : NodeId) : Prop :=
  exists answer, grammar.decide? steps id = some answer

theorem DecidedWithin.more {steps more : Nat} {id : NodeId} (enough : steps ≤ more)
    (decided : grammar.DecidedWithin steps id) : grammar.DecidedWithin more id := by
  rcases decided with ⟨answer, isDecided⟩
  exact ⟨answer, decide?_more enough isDecided⟩

/-- A node that is decided within some steps is decided within a least number of them. -/
theorem DecidedWithin.least {steps : Nat} {id : NodeId} (decided : grammar.DecidedWithin steps id) :
    exists least, grammar.DecidedWithin (least + 1) id ∧ ¬grammar.DecidedWithin least id ∧
      least < steps := by
  classical
  have decidable : exists steps, grammar.DecidedWithin steps id := ⟨steps, decided⟩
  have isLeast := Nat.find_spec decidable
  have minimal : Nat.find decidable ≤ steps := Nat.find_min' decidable decided
  have before := fun fewer => Nat.find_min (m := fewer) decidable
  generalize Nat.find decidable = least at isLeast minimal before
  cases least with
  | zero =>
      rcases isLeast with ⟨_, none⟩
      cases none
  | succ least => exact ⟨least, isLeast, before least (Nat.lt_succ_self least), minimal⟩

/-- What may be being computed around a node when decisions are followed: the node itself,
what is decided later, and what is not decided at all. -/
def DecidedLater (grammar : Grammar L) (outer id : NodeId) : Prop :=
  outer = id ∨ (exists steps, grammar.DecidedWithin steps id ∧ ¬grammar.DecidedWithin steps outer) ∨
    forall steps, ¬grammar.DecidedWithin steps outer

/-- An operand that is decided before a node is not around it. -/
theorem deniedFor_of_decided {least : Nat} {id operand : NodeId}
    (notYet : ¬grammar.DecidedWithin least id)
    (decided : grammar.decide? least operand = some false) :
    DeniedFor (fun other => exists steps, grammar.decide? steps other = some false)
      grammar.DecidedLater id operand := by
  refine ⟨⟨least, decided⟩, ?_⟩
  rintro (rfl | ⟨steps, isDecided, late⟩ | never)
  · exact notYet ⟨false, decided⟩
  · by_cases early : steps ≤ least
    · exact notYet (isDecided.more early)
    · exact late ⟨false, decide?_more (Nat.le_of_not_le early) decided⟩
  · exact never least ⟨false, decided⟩

/-- Nodes that are decided with no are denied in any case. -/
theorem decided_firm (grammar : Grammar L) :
    grammar.Firm (fun id => exists steps, grammar.decide? steps id = some false)
      grammar.DecidedLater where
  own id := Or.inl rfl
  onward {id operand clause} found mayAsk outer isAround := by
    by_cases decidable : exists steps, grammar.DecidedWithin steps outer
    · -- Then the node is decided, too, and its operands before it.
      have bounded : exists steps, grammar.DecidedWithin steps id ∧
          forall fewer, fewer < steps -> grammar.DecidedWithin fewer outer ->
            grammar.DecidedWithin fewer id := by
        rcases isAround with rfl | ⟨steps, isDecided, late⟩ | never
        · rcases decidable with ⟨steps, isDecided⟩
          exact ⟨steps, isDecided, fun _ _ => id⟩
        · refine ⟨steps, isDecided, ?_⟩
          intro fewer less early
          exact absurd (early.more (Nat.le_of_lt less)) late
        · rcases decidable with ⟨steps, isDecided⟩
          exact absurd isDecided (never steps)
      rcases bounded with ⟨steps, isDecided, later⟩
      rcases isDecided.least with ⟨least, ⟨answer, isLeast⟩, notYet, less⟩
      have answered := Inquiry.answered_of_mayAsk (fun _ => deniedFor_of_decided notYet)
        (fun _ => tenable_of_decided) (inquiry_decided found isLeast) mayAsk
      exact Or.inr (Or.inl ⟨least, answered, fun early => notYet (later least less early)⟩)
    · exact Or.inr (Or.inr fun steps isDecided => decidable ⟨steps, isDecided⟩)
  refuses {id clause} isDenied found := by
    rcases isDenied with ⟨steps, decided⟩
    have isDecided : grammar.DecidedWithin steps id := ⟨false, decided⟩
    rcases isDecided.least with ⟨least, ⟨answer, isLeast⟩, notYet, less⟩
    have same := decide?_more less isLeast
    cases decided.symm.trans same
    exact Inquiry.not_holds_of_decided (fun _ => deniedFor_of_decided notYet)
      (inquiry_decided found isLeast)

theorem firmlyDenied_of_decided {steps : Nat} {id : NodeId}
    (decided : grammar.decide? steps id = some false) : grammar.FirmlyDenied id :=
  ⟨_, _, grammar.decided_firm, steps, decided⟩

/-- What is decided with yes is not refuted by nodes that are decided with no. -/
theorem nullableFrom_of_decided {steps : Nat} {id : NodeId}
    {clause : Clause L PatternProgram NodeId} (found : grammar.nodes[id]? = some clause)
    (decided : grammar.decide? steps id = some true) :
    clause.NullableFrom fun operand => ¬exists steps, grammar.decide? steps operand = some false := by
  cases steps with
  | zero => cases decided
  | succ steps =>
      have holds := Inquiry.holds_of_decided (inquiry_decided found decided)
      apply (Clause.nullableFrom_iff.mpr holds).imp
      rintro operand yes ⟨more, no⟩
      cases (decide?_more (Nat.le_max_left steps more) yes).symm.trans
        (decide?_more (Nat.le_max_right steps more) no)

/-- A node is denied in any case if the rules deny it even if all nodes are nullable but those
that are decided with no. -/
theorem firmlyDenied_of_operands {id : NodeId} {clause : Clause L PatternProgram NodeId}
    (found : grammar.nodes[id]? = some clause)
    (refuted : ¬clause.NullableFrom fun operand =>
      ¬exists steps, grammar.decide? steps operand = some false) :
    grammar.FirmlyDenied id := by
  let decidedNo : NodeId -> Prop := fun other =>
    exists steps, grammar.decide? steps other = some false
  by_cases decided : exists steps, grammar.DecidedWithin steps id
  · rcases decided with ⟨steps, answer, isDecided⟩
    cases answer with
    | true => exact absurd (nullableFrom_of_decided found isDecided) refuted
    | false => exact firmlyDenied_of_decided isDecided
  · let denied : NodeId -> Prop := fun other => decidedNo other ∨ other = id
    have more : forall outer other, DeniedFor decidedNo grammar.DecidedLater outer other ->
        DeniedFor denied grammar.DecidedLater outer other :=
      fun outer other isDenied => ⟨Or.inl isDenied.1, isDenied.2⟩
    refine ⟨denied, grammar.DecidedLater, ⟨grammar.decided_firm.own, ?_, ?_⟩, Or.inr rfl⟩
    · intro other operand clause' found' mayAsk
      exact grammar.decided_firm.onward found' (mayAsk.stops (more other))
    · rintro other clause' (isNo | rfl) found' holds
      · apply grammar.decided_firm.refuses isNo found'
        apply Clause.nullableFrom_iff.mp
        exact (Clause.nullableFrom_iff.mpr holds).imp fun operand notDenied isDenied =>
          notDenied (more other operand isDenied)
      · -- The node is not decided, so nothing decided is around it.
        cases found.symm.trans found'
        apply refuted
        apply (Clause.nullableFrom_iff.mpr holds).imp
        rintro operand notDenied ⟨steps, no⟩
        apply notDenied
        refine ⟨Or.inl ⟨steps, no⟩, ?_⟩
        rintro (rfl | ⟨late, isDecided, _⟩ | never)
        · exact decided ⟨steps, false, no⟩
        · exact decided ⟨late, isDecided⟩
        · exact never steps ⟨false, no⟩

end Grammar
end SeedGrammar
