import Mathlib.Order.FixedPoints
import SeedGrammar.Grammar.Build
import SeedGrammar.Proofs.Grammar.Inquiry

namespace SeedGrammar

/-!
# What the question about nullability refutes

The nullable nodes of a grammar are the least solution of the rules by which
the question is answered.  The answers themselves depend on what has been
asked before: a node whose answer is being computed counts as nullable, and
answers that rest on this are kept.  So a node may be taken to be nullable
though it is not.

The other direction holds whatever was asked, and in whichever order: a node
for which the answer is no is not nullable.  It is not even in a set of nodes
that would be nullable if all of them were, since a node that counts as nullable
for the time being only speaks for the nodes around it.  A grammar that has been
checked therefore repeats nothing nullable and starts no left recursion with it.
-/

variable {L : Signature}

namespace Clause

/-- Whether a clause is nullable by the rules of the question, given which nodes
are. -/
def NullableFrom (nullable : NodeId -> Prop) : Clause L PatternProgram NodeId -> Prop
  | leaf atom => atom.isNullable = true
  | map inner _ => nullable inner
  | update inner _ => nullable inner
  | sequence items _ => forall item, item ∈ items -> nullable item
  | choice alts => exists alt, alt ∈ alts ∧ nullable alt
  | optional _ _ => True
  | attempt inner => nullable inner
  | lookahead _ look _ => nullable look
  | repeated _ _ min _ => min = 0
  | reference _ _ target => exists id, target = some id ∧ nullable id
  | leftRecursion _ => False

/-- The operand of a clause that loops. -/
def looped? {ρ α : Type} : Clause L ρ α -> Option α
  | repeated inner _ _ _ => some inner
  | leftRecursion inner => some inner
  | _ => none

theorem NullableFrom.imp {nullable weaker : NodeId -> Prop}
    (implies : forall id, nullable id -> weaker id) {clause : Clause L PatternProgram NodeId}
    (holds : clause.NullableFrom nullable) : clause.NullableFrom weaker := by
  cases clause with
  | leaf atom => exact holds
  | map inner transform => exact implies inner holds
  | update inner next => exact implies inner holds
  | sequence items gather => exact fun item member => implies item (holds item member)
  | choice alts =>
      rcases holds with ⟨alt, member, isNullable⟩
      exact ⟨alt, member, implies alt isNullable⟩
  | optional inner element => trivial
  | attempt inner => exact implies inner holds
  | lookahead inner look negative => exact implies look holds
  | repeated inner element min max => exact holds
  | reference name expected target =>
      rcases holds with ⟨id, isTarget, isNullable⟩
      exact ⟨id, isTarget, implies id isNullable⟩
  | leftRecursion inner => exact holds

/-- The rules are what the questions ask for. -/
theorem nullableFrom_iff {nullable : NodeId -> Prop} {clause : Clause L PatternProgram NodeId} :
    clause.NullableFrom nullable ↔ clause.inquiry.Holds nullable := by
  have all : forall ids : List NodeId, (forall id, id ∈ ids -> nullable id) ↔
      (ids.foldr .needs (.answered true) : Inquiry).Holds nullable := by
    intro ids
    induction ids with
    | nil => simp [Inquiry.Holds]
    | cons id rest inductionHypothesis =>
        rw [List.forall_mem_cons, inductionHypothesis]
        rfl
  have any : forall ids : List NodeId, (exists id, id ∈ ids ∧ nullable id) ↔
      (ids.foldr .offers (.answered false) : Inquiry).Holds nullable := by
    intro ids
    induction ids with
    | nil => simp [Inquiry.Holds]
    | cons id rest inductionHypothesis =>
        rw [List.foldr_cons, Inquiry.Holds, <- inductionHypothesis]
        simp only [List.mem_cons, exists_eq_or_imp]
  have alone : forall inner, nullable inner ↔
      (Inquiry.needs inner (.answered true)).Holds nullable :=
    fun inner => (and_iff_left rfl).symm
  cases clause with
  | leaf atom => exact Iff.rfl
  | map inner transform => exact alone inner
  | update inner next => exact alone inner
  | sequence items gather => exact all items
  | choice alts => exact any alts
  | optional inner element => exact (iff_true_intro rfl).symm
  | attempt inner => exact alone inner
  | lookahead inner look negative => exact alone look
  | repeated inner element min max => exact beq_iff_eq.symm
  | reference name expected target =>
      cases target with
      | none => simp [NullableFrom, inquiry, Inquiry.Holds]
      | some target => simp [NullableFrom, inquiry, Inquiry.Holds]
  | leftRecursion inner => exact (iff_false_intro Bool.false_ne_true).symm

end Clause

namespace Nullability

variable {known : Nullability} {id other : NodeId} {status : NullStatus}

theorem get?_set_self {old : NullStatus} (listed : known.get? id = some old) :
    (known.set id status).get? id = some status := by
  have inRange : id < known.cells.length := (List.getElem?_eq_some_iff.mp listed).1
  exact List.getElem?_set_self inRange

theorem get?_set_of_ne (different : id ≠ other) :
    (known.set id status).get? other = known.get? other :=
  List.getElem?_set_ne different

/-- What is found after a replacement is the new status or was there before. -/
theorem found_of_set {found : NullStatus} (isFound : (known.set id status).get? other = some found) :
    (id = other ∧ status = found) ∨ (id ≠ other ∧ known.get? other = some found) := by
  by_cases same : id = other
  · subst same
    have inRange : id < (known.set id status).cells.length := (List.getElem?_eq_some_iff.mp isFound).1
    rw [set, List.length_set] at inRange
    rw [get?_set_self (List.getElem?_eq_getElem inRange)] at isFound
    exact Or.inl ⟨rfl, Option.some.inj isFound⟩
  · rw [get?_set_of_ne same] at isFound
    exact Or.inr ⟨same, isFound⟩

theorem length_set : (known.set id status).cells.length = known.cells.length :=
  List.length_set

end Nullability

namespace Grammar

/-- One application of the rules to all nodes. -/
def nullableStep (grammar : Grammar L) : (NodeId -> Prop) →o (NodeId -> Prop) where
  toFun nullable id := exists clause, grammar.nodes[id]? = some clause ∧
    clause.NullableFrom nullable
  monotone' nullable weaker implies id := by
    rintro ⟨clause, found, holds⟩
    exact ⟨clause, found, holds.imp implies⟩

/-- Whether a node is nullable. -/
def Nullable (grammar : Grammar L) : NodeId -> Prop :=
  grammar.nullableStep.lfp

variable {grammar : Grammar L}

theorem nullable_iff {id : NodeId} :
    grammar.Nullable id ↔ exists clause, grammar.nodes[id]? = some clause ∧
      clause.NullableFrom grammar.Nullable := by
  have solves := congrFun grammar.nullableStep.map_lfp id
  exact iff_of_eq solves.symm

theorem nullable_iff_of_found {id : NodeId} {clause : Clause L PatternProgram NodeId}
    (found : grammar.nodes[id]? = some clause) :
    grammar.Nullable id ↔ clause.NullableFrom grammar.Nullable := by
  rw [nullable_iff]
  constructor
  · rintro ⟨clause', found', holds⟩
    rw [found] at found'
    cases found'
    exact holds
  · intro holds
    exact ⟨clause, found, holds⟩

/-- Whether some nodes are nullable by the rules if all of them are. -/
def Supports (grammar : Grammar L) (nullable : NodeId -> Prop) : Prop :=
  forall id, nullable id -> exists clause, grammar.nodes[id]? = some clause ∧
    clause.NullableFrom nullable

theorem nullable_supports (grammar : Grammar L) : grammar.Supports grammar.Nullable :=
  fun _ isNullable => nullable_iff.mp isNullable

/-! ## Questions -/

/-- What comes of a question about a node: what is known about it answers, or
its clause is asked about while the node itself counts as nullable. -/
inductive Question (grammar : Grammar L) (id : NodeId) (known : Nullability) :
    Nat -> Bool × Nullability -> Prop where
  | unlisted {fuel} : known.get? id = none -> Question grammar id known fuel (false, known)
  | known {fuel answer} : known.get? id = some (.known answer) ->
      Question grammar id known fuel (answer, known)
  | computing {fuel} : known.get? id = some .computing ->
      Question grammar id known fuel (true, known)
  | spent {fuel} : known.get? id = some .unknown -> fuel = 0 ∨ grammar.nodes[id]? = none ->
      Question grammar id known fuel (true, known)
  | computed {fuel clause answer after} : known.get? id = some .unknown ->
      grammar.nodes[id]? = some clause ->
      clause.inquiry.run (grammar.isNullableWithin fuel) (known.set id .computing) =
        (answer, after) ->
      Question grammar id known (fuel + 1) (answer, after.set id (.known answer))

theorem isNullableWithin_question (grammar : Grammar L) (fuel : Nat) (id : NodeId)
    (known : Nullability) :
    grammar.Question id known fuel (grammar.isNullableWithin fuel id known) := by
  unfold isNullableWithin
  cases status : known.get? id with
  | none => exact .unlisted status
  | some own =>
      cases own with
      | known answer => exact .known status
      | computing => exact .computing status
      | unknown =>
          cases fuel with
          | zero => exact .spent status (Or.inl rfl)
          | succ fuel =>
              cases found : grammar.nodes[id]? with
              | none => exact .spent status (Or.inr found)
              | some clause =>
                  exact .computed status found (Clause.isNullable_eq_run _ clause _).symm

/-- An answer that is known is given, and nothing else is asked. -/
theorem isNullableWithin_of_known (grammar : Grammar L) (fuel : Nat) {id : NodeId}
    {known : Nullability} {answer : Bool} (status : known.get? id = some (.known answer)) :
    grammar.isNullableWithin fuel id known = (answer, known) := by
  unfold isNullableWithin
  rw [status]

/-- Whether what is known covers all nodes, and denies none of some nodes. -/
structure Spares (grammar : Grammar L) (nullable : NodeId -> Prop) (known : Nullability) :
    Prop where
  covers : grammar.nodeCount ≤ known.cells.length
  denies : forall id, known.get? id = some (.known false) -> ¬nullable id

theorem spares_unknown (grammar : Grammar L) (nullable : NodeId -> Prop) :
    grammar.Spares nullable (Nullability.unknown grammar.nodeCount) where
  covers := by simp [Nullability.unknown]
  denies id found := by
    have isUnknown := List.eq_of_mem_replicate (List.mem_of_getElem? found)
    cases isUnknown

/-- What is known about one node may be replaced by anything but a wrong no. -/
theorem Spares.set {nullable : NodeId -> Prop} {known : Nullability}
    (spares : grammar.Spares nullable known) {id : NodeId} {status : NullStatus}
    (right : status = .known false -> ¬nullable id) :
    grammar.Spares nullable (known.set id status) where
  covers := Nullability.length_set.symm ▸ spares.covers
  denies other found := by
    rcases Nullability.found_of_set found with ⟨rfl, isNo⟩ | ⟨_, old⟩
    · exact right isNo
    · exact spares.denies other old

/-- A number of no node is not nullable. -/
theorem Spares.not_of_unlisted {nullable : NodeId -> Prop} {known : Nullability}
    (supports : grammar.Supports nullable) (spares : grammar.Spares nullable known)
    {id : NodeId} (unlisted : known.get? id = none) : ¬nullable id := by
  intro isNullable
  rcases supports id isNullable with ⟨clause, found, _⟩
  have outside := List.getElem?_eq_none_iff.mp unlisted
  have inside := (List.getElem?_eq_some_iff.mp found).1
  exact absurd inside (Nat.not_lt_of_le (Nat.le_trans spares.covers outside))

/-- The induction is on the nesting of questions.  While the clause of a node is
asked about, the node itself counts as nullable, so a no that comes out has not
relied on anything that was only assumed. -/
theorem isNullableWithin_spares {nullable : NodeId -> Prop} (supports : grammar.Supports nullable)
    (fuel : Nat) (id : NodeId) {known : Nullability} (spares : grammar.Spares nullable known) :
    grammar.Spares nullable (grammar.isNullableWithin fuel id known).2 ∧
      ((grammar.isNullableWithin fuel id known).1 = false -> ¬nullable id) := by
  induction fuel using Nat.strong_induction_on generalizing id known with
  | _ fuel inductionHypothesis =>
      have question := grammar.isNullableWithin_question fuel id known
      generalize grammar.isNullableWithin fuel id known = result at question ⊢
      cases question with
      | unlisted status => exact ⟨spares, fun _ => spares.not_of_unlisted supports status⟩
      | known status =>
          refine ⟨spares, ?_⟩
          rintro ⟨rfl⟩
          exact spares.denies id status
      | computing _ => exact ⟨spares, fun no => by cases no⟩
      | spent _ _ => exact ⟨spares, fun no => by cases no⟩
      | @computed fewer clause answer after status found asked =>
          have asks : forall other before, grammar.Spares nullable before ->
              grammar.Spares nullable (grammar.isNullableWithin fewer other before).2 ∧
                Inquiry.Denies (fun _ node => ¬nullable node) other before
                  (grammar.isNullableWithin fewer other before) := by
            intro other before holds
            have ends := inductionHypothesis fewer (Nat.lt_succ_self fewer) other holds
            exact ⟨ends.1, fun _ old => old, ends.2⟩
          have begun : grammar.Spares nullable (known.set id .computing) :=
            spares.set fun isKnown => by cases isKnown
          have kept := clause.inquiry.run_keeps (fun other before holds => (asks other before holds).1)
            begun
          have denies := (clause.inquiry.run_denies asks begun).2
          rw [asked] at kept denies
          have not : answer = false -> ¬nullable id := by
            intro no isNullable
            rcases supports id isNullable with ⟨clause', found', holds⟩
            rw [found] at found'
            cases found'
            apply denies no
            exact Clause.nullableFrom_iff.mp (holds.imp fun _ isNode => not_not_intro isNode)
          exact ⟨kept.set fun isNo => not (NullStatus.known.inj isNo), not⟩

/-- Whether what is known covers all nodes, and refutes none that is nullable. -/
structure Knows (grammar : Grammar L) (known : Nullability) : Prop where
  covers : grammar.nodeCount ≤ known.cells.length
  refutes : forall id, known.get? id = some (.known false) -> ¬grammar.Nullable id

theorem knows_iff {known : Nullability} :
    grammar.Knows known ↔ grammar.Spares grammar.Nullable known :=
  ⟨fun knows => ⟨knows.covers, knows.refutes⟩, fun spares => ⟨spares.covers, spares.denies⟩⟩

theorem knows_unknown (grammar : Grammar L) :
    grammar.Knows (Nullability.unknown grammar.nodeCount) :=
  knows_iff.mpr (grammar.spares_unknown grammar.Nullable)

/-- Whether a question keeps what is known right, and is right if it says no. -/
def Refutes (grammar : Grammar L) (ask : NullQuestion) : Prop :=
  forall id known, grammar.Knows known ->
    grammar.Knows (ask id known).2 ∧ ((ask id known).1 = false -> ¬grammar.Nullable id)

/-- A node for which the answer is no is not nullable. -/
theorem isNullable_refutes (grammar : Grammar L) : grammar.Refutes grammar.isNullable := by
  intro id known knows
  have spares := grammar.isNullableWithin_spares grammar.nullable_supports grammar.nodeCount id
    (knows_iff.mp knows)
  exact ⟨knows_iff.mpr spares.1, spares.2⟩

/-! ## Checked grammars -/

/-- Whether a clause that loops has an operand that is not nullable, and bounds
that are in order. -/
def Advances (grammar : Grammar L) : Clause L PatternProgram NodeId -> Prop
  | .repeated inner _ min max =>
    ¬grammar.Nullable inner ∧ forall greatest, max = some greatest -> min ≤ greatest
  | .leftRecursion inner => ¬grammar.Nullable inner
  | _ => True

theorem advances_of_isNullable {known later : Nullability} (knows : grammar.Knows known)
    {id : NodeId} (no : grammar.isNullable id known = (false, later)) :
    ¬grammar.Nullable id ∧ grammar.Knows later := by
  have asked := grammar.isNullable_refutes id known knows
  rw [no] at asked
  exact ⟨asked.2 rfl, asked.1⟩

/-- What the check of a clause finds: the operand of a loop is answered with no,
and bounds are in order. -/
inductive Checked (grammar : Grammar L) (known : Nullability) :
    Clause L PatternProgram NodeId -> Nullability -> Prop where
  | repeated {inner element min max next} : grammar.isNullable inner known = (false, next) ->
      (forall greatest, max = some greatest -> min ≤ greatest) ->
      Checked grammar known (.repeated inner element min max) next
  | leftRecursion {inner next} : grammar.isNullable inner known = (false, next) ->
      Checked grammar known (.leftRecursion inner) next
  | other {clause} : clause.looped? = none -> Checked grammar known clause known

/-- How a check goes on once the operand of a loop was asked for. -/
def validateAfter (grammar : Grammar L) (rest : List (Clause L PatternProgram NodeId))
    (refusal : GrammarError) : Bool × Nullability -> Except GrammarError Nullability
  | (true, _) => .error refusal
  | (false, next) => grammar.validate rest next

theorem validateAfter_ok {rest : List (Clause L PatternProgram NodeId)} {refusal : GrammarError}
    {answer : Bool × Nullability} {later : Nullability} :
    grammar.validateAfter rest refusal answer = .ok later ↔
      exists next, answer = (false, next) ∧ grammar.validate rest next = .ok later := by
  rcases answer with ⟨yes, next⟩
  cases yes <;> simp [validateAfter]

/-- A check that succeeds has found its first clause right and goes on with what
is then known. -/
theorem validate_cons_ok {first : Clause L PatternProgram NodeId}
    {rest : List (Clause L PatternProgram NodeId)} {known later : Nullability} :
    grammar.validate (first :: rest) known = .ok later ↔
      exists next, grammar.Checked known first next ∧ grammar.validate rest next = .ok later := by
  have asks : forall (inner : NodeId) (error : GrammarError),
      grammar.validateAfter rest error (grammar.isNullable inner known) = .ok later ↔
        exists next, grammar.isNullable inner known = (false, next) ∧
          grammar.validate rest next = .ok later :=
    fun inner error => validateAfter_ok
  cases first with
  | repeated inner element min max =>
      have inverse : forall {next}, grammar.Checked known (.repeated inner element min max) next ->
          grammar.isNullable inner known = (false, next) ∧
            forall greatest, max = some greatest -> min ≤ greatest := by
        intro next checked
        cases checked with
        | repeated no ordered => exact ⟨no, ordered⟩
        | other noLoop => cases noLoop
      cases max with
      | some greatest =>
          rw [validate]
          by_cases reversed : greatest < min
          · rw [if_pos reversed]
            constructor
            · intro refused
              cases refused
            · rintro ⟨next, checked, _⟩
              exact absurd reversed (Nat.not_lt_of_le ((inverse checked).2 greatest rfl))
          · rw [if_neg reversed]
            apply (asks inner (.nullableRepeat (grammar.describe inner))).trans
            constructor
            · rintro ⟨next, no, valid⟩
              refine ⟨next, .repeated no ?_, valid⟩
              rintro _ ⟨rfl⟩
              exact Nat.le_of_not_lt reversed
            · rintro ⟨next, checked, valid⟩
              exact ⟨next, (inverse checked).1, valid⟩
      | none =>
          rw [validate]
          apply (asks inner (.nullableRepeat (grammar.describe inner))).trans
          constructor
          · rintro ⟨next, no, valid⟩
            refine ⟨next, .repeated no ?_, valid⟩
            intro greatest isBound
            cases isBound
          · rintro ⟨next, checked, valid⟩
            exact ⟨next, (inverse checked).1, valid⟩
  | leftRecursion inner =>
      rw [validate]
      apply (asks inner (.nullableLeftRecursion (grammar.describe inner))).trans
      constructor
      · rintro ⟨next, no, valid⟩
        exact ⟨next, .leftRecursion no, valid⟩
      · rintro ⟨next, checked, valid⟩
        cases checked with
        | leftRecursion no => exact ⟨next, no, valid⟩
        | other noLoop => cases noLoop
  | _ =>
      constructor
      · intro valid
        exact ⟨known, .other rfl, valid⟩
      · rintro ⟨next, checked, valid⟩
        cases checked
        exact valid

theorem Checked.advances {known next : Nullability} (knows : grammar.Knows known)
    {clause : Clause L PatternProgram NodeId} (checked : grammar.Checked known clause next) :
    grammar.Knows next ∧ grammar.Advances clause := by
  cases checked with
  | repeated no ordered =>
      have refuted := advances_of_isNullable knows no
      exact ⟨refuted.2, refuted.1, ordered⟩
  | leftRecursion no =>
      have refuted := advances_of_isNullable knows no
      exact ⟨refuted.2, refuted.1⟩
  | other noLoop =>
      refine ⟨knows, ?_⟩
      cases clause with
      | repeated inner element min max => cases noLoop
      | leftRecursion inner => cases noLoop
      | _ => trivial

/-- A grammar that passes the check advances wherever it loops. -/
theorem validate_ok {clauses : List (Clause L PatternProgram NodeId)} {known later : Nullability}
    (knows : grammar.Knows known) (valid : grammar.validate clauses known = .ok later) :
    grammar.Knows later ∧ forall clause, clause ∈ clauses -> grammar.Advances clause := by
  induction clauses generalizing known with
  | nil =>
      cases valid
      refine ⟨knows, ?_⟩
      intro clause member
      cases member
  | cons first rest inductionHypothesis =>
      rcases validate_cons_ok.mp valid with ⟨next, checked, restValid⟩
      rcases checked.advances knows with ⟨nextKnows, firstAdvances⟩
      rcases inductionHypothesis nextKnows restValid with ⟨laterKnows, restAdvance⟩
      refine ⟨laterKnows, ?_⟩
      intro clause member
      rcases List.mem_cons.mp member with own | inRest
      · rw [own]
        exact firstAdvances
      · exact restAdvance clause inRest

end Grammar

namespace GrammarBuilder

theorem resolve_valid {lowered : Grammar L} {built : BuiltGrammar L}
    (resolved : resolve lowered = .ok built) :
    built.grammar.validate built.grammar.nodes (Nullability.unknown built.grammar.nodeCount) =
      .ok built.known := by
  rw [resolve] at resolved
  split at resolved
  · cases resolved
  · split at resolved
    · cases resolved
    · dsimp only at resolved
      split at resolved
      · cases resolved
      · rename_i known valid
        cases resolved
        exact valid

/-- A grammar that is accepted has been checked, and what is known about it is
what the check has found out. -/
theorem build_valid {builder : GrammarBuilder L} {cache after : PatternCache}
    {built : BuiltGrammar L} (accepted : builder.build cache = (.ok built, after)) :
    built.grammar.validate built.grammar.nodes (Nullability.unknown built.grammar.nodeCount) =
      .ok built.known := by
  rw [build] at accepted
  split at accepted
  · cases accepted
  · split at accepted
    · cases accepted
    · exact resolve_valid (congrArg Prod.fst accepted)

/-- A grammar that is accepted advances wherever it loops, and what is known
about it is right. -/
theorem build_advances {builder : GrammarBuilder L} {cache after : PatternCache}
    {built : BuiltGrammar L} (accepted : builder.build cache = (.ok built, after)) :
    built.grammar.Knows built.known ∧
      forall (id : NodeId) clause, built.grammar.nodes[id]? = some clause ->
        built.grammar.Advances clause := by
  rcases Grammar.validate_ok built.grammar.knows_unknown (build_valid accepted) with
    ⟨knows, advance⟩
  refine ⟨knows, ?_⟩
  intro id clause found
  exact advance clause (List.mem_of_getElem? found)

end GrammarBuilder
end SeedGrammar
