import SeedGrammar.Grammar.Nullability

namespace SeedGrammar

/-!
# What is asked about a clause

Whether a clause is nullable is found out by asking about its operands, in order
and no further than needed.  An inquiry is the plan of these questions: a node
that is not nullable settles a sequence, a node that is nullable settles a
choice, and everything else asks at most one question.  An inquiry says nothing
about who answers.  The same one is put to nodes whose answers are kept and
change what is known, to a predicate, and to answers that may be missing.

Answers count in one direction only: with more nodes nullable an inquiry never
turns from yes to no.  There is no way to write down one that does.
-/

/-- A plan of questions: the answer is there, or a node has to be nullable and
the rest too, or a node may be nullable and otherwise the rest. -/
inductive Inquiry where
  | answered (answer : Bool)
  | needs (id : NodeId) (rest : Inquiry)
  | offers (id : NodeId) (rest : Inquiry)

namespace Inquiry

/-- Ask nodes whose answers change what is known. -/
def run (ask : NullQuestion) : Inquiry -> Nullability -> Bool × Nullability
  | answered answer, known => (answer, known)
  | needs id rest, known =>
    match ask id known with
    | (true, known) => rest.run ask known
    | (false, known) => (false, known)
  | offers id rest, known =>
    match ask id known with
    | (true, known) => (true, known)
    | (false, known) => rest.run ask known

/-- Whether the answer is yes, given which nodes are nullable. -/
def Holds (nullable : NodeId -> Prop) : Inquiry -> Prop
  | answered answer => answer = true
  | needs id rest => nullable id ∧ rest.Holds nullable
  | offers id rest => nullable id ∨ rest.Holds nullable

/-- The answer if every question on the way to it has one. -/
def decide? (answer? : NodeId -> Option Bool) : Inquiry -> Option Bool
  | answered answer => some answer
  | needs id rest =>
    match answer? id with
    | some true => rest.decide? answer?
    | some false => some false
    | none => none
  | offers id rest =>
    match answer? id with
    | some true => some true
    | some false => rest.decide? answer?
    | none => none

/-- Whether an inquiry can come to a node, if some nodes are answered with no and some with
yes for certain. -/
def MayAsk (refused granted : NodeId -> Prop) : Inquiry -> NodeId -> Prop
  | answered _, _ => False
  | needs id rest, other => other = id ∨ ¬refused id ∧ rest.MayAsk refused granted other
  | offers id rest, other => other = id ∨ ¬granted id ∧ rest.MayAsk refused granted other

variable {ask : NullQuestion}

/-- What every question preserves is preserved by an inquiry. -/
theorem run_keeps {invariant : Nullability -> Prop}
    (keeps : forall id known, invariant known -> invariant (ask id known).2) (inquiry : Inquiry)
    {known : Nullability} (holds : invariant known) : invariant (inquiry.run ask known).2 := by
  induction inquiry generalizing known with
  | answered answer => exact holds
  | needs id rest inductionHypothesis =>
      have first := keeps id known holds
      rw [run]
      cases asked : ask id known with
      | mk answer next =>
          rw [asked] at first
          cases answer with
          | true => exact inductionHypothesis first
          | false => exact first
  | offers id rest inductionHypothesis =>
      have first := keeps id known holds
      rw [run]
      cases asked : ask id known with
      | mk answer next =>
          rw [asked] at first
          cases answer with
          | true => exact first
          | false => exact inductionHypothesis first

/-- An inquiry that stops at more nodes comes to fewer. -/
theorem MayAsk.stops {refused further granted : NodeId -> Prop}
    (refuses : forall id, refused id -> further id) {inquiry : Inquiry} {id : NodeId}
    (mayAsk : inquiry.MayAsk further granted id) : inquiry.MayAsk refused granted id := by
  induction inquiry with
  | answered answer => exact mayAsk
  | needs first rest inductionHypothesis =>
      exact mayAsk.imp_right fun behind =>
        ⟨fun isRefused => behind.1 (refuses first isRefused), inductionHypothesis behind.2⟩
  | offers first rest inductionHypothesis =>
      exact mayAsk.imp_right fun behind => ⟨behind.1, inductionHypothesis behind.2⟩

/-- Whether what is known later denies at least what was denied before, and an
answer of no denies its node. -/
structure Denies (denied : Nullability -> NodeId -> Prop) (id : NodeId) (known : Nullability)
    (asked : Bool × Nullability) : Prop where
  keeps : forall other, denied known other -> denied asked.2 other
  refuses : asked.1 = false -> denied asked.2 id

/-- An inquiry that is answered with no does not hold of the nodes that have not
been denied by then. -/
theorem run_denies {invariant : Nullability -> Prop} {denied : Nullability -> NodeId -> Prop}
    (denies : forall id known, invariant known ->
      invariant (ask id known).2 ∧ Denies denied id known (ask id known))
    (inquiry : Inquiry) {known : Nullability} (holds : invariant known) :
    (forall other, denied known other -> denied (inquiry.run ask known).2 other) ∧
      ((inquiry.run ask known).1 = false ->
        ¬inquiry.Holds fun id => ¬denied (inquiry.run ask known).2 id) := by
  induction inquiry generalizing known with
  | answered answer =>
      refine ⟨fun other isDenied => isDenied, ?_⟩
      intro no yes
      exact Bool.false_ne_true (Eq.trans no.symm yes)
  | needs id rest inductionHypothesis =>
      have first := denies id known holds
      rw [run]
      cases asked : ask id known with
      | mk answer next =>
          rw [asked] at first
          cases answer with
          | true =>
              have later := inductionHypothesis first.1
              refine ⟨fun other isDenied => later.1 other (first.2.keeps other isDenied), ?_⟩
              intro no yes
              exact later.2 no yes.2
          | false =>
              refine ⟨first.2.keeps, ?_⟩
              intro _ yes
              exact yes.1 (first.2.refuses rfl)
  | offers id rest inductionHypothesis =>
      have first := denies id known holds
      rw [run]
      cases asked : ask id known with
      | mk answer next =>
          rw [asked] at first
          cases answer with
          | true =>
              refine ⟨first.2.keeps, ?_⟩
              intro no
              cases no
          | false =>
              have later := inductionHypothesis first.1
              refine ⟨fun other isDenied => later.1 other (first.2.keeps other isDenied), ?_⟩
              rintro no (offered | yes)
              · exact offered (later.1 id (first.2.refuses rfl))
              · exact later.2 no yes

/-- An inquiry that is answered with yes holds if all nodes are nullable but those that are
refused for certain.  Only nodes count that it can come to. -/
theorem run_mayAsk {invariant : Nullability -> Prop} {refused granted : NodeId -> Prop}
    {inquiry : Inquiry}
    (asks : forall id known, inquiry.MayAsk refused granted id -> invariant known ->
      invariant (ask id known).2 ∧ (refused id -> (ask id known).1 = false) ∧
        (granted id -> (ask id known).1 = true))
    {known : Nullability} (holds : invariant known) :
    invariant (inquiry.run ask known).2 ∧
      ((inquiry.run ask known).1 = true -> inquiry.Holds fun id => ¬refused id) := by
  induction inquiry generalizing known with
  | answered answer => exact ⟨holds, id⟩
  | needs id rest inductionHypothesis =>
      rcases asks id known (Or.inl rfl) holds with ⟨kept, refuses, _⟩
      rw [run]
      cases asked : ask id known with
      | mk answer next =>
          rw [asked] at kept refuses
          cases answer with
          | true =>
              have notRefused : ¬refused id := fun isRefused => Bool.noConfusion (refuses isRefused)
              have later := inductionHypothesis
                (fun other before mayAsk => asks other before (Or.inr ⟨notRefused, mayAsk⟩)) kept
              exact ⟨later.1, fun yes => ⟨notRefused, later.2 yes⟩⟩
          | false => exact ⟨kept, fun yes => Bool.noConfusion yes⟩
  | offers id rest inductionHypothesis =>
      rcases asks id known (Or.inl rfl) holds with ⟨kept, refuses, grants⟩
      rw [run]
      cases asked : ask id known with
      | mk answer next =>
          rw [asked] at kept refuses grants
          cases answer with
          | true =>
              exact ⟨kept, fun _ => Or.inl fun isRefused => Bool.noConfusion (refuses isRefused)⟩
          | false =>
              have notGranted : ¬granted id := fun isGranted => Bool.noConfusion (grants isGranted)
              have later := inductionHypothesis
                (fun other before mayAsk => asks other before (Or.inr ⟨notGranted, mayAsk⟩)) kept
              exact ⟨later.1, fun yes => Or.inr (later.2 yes)⟩

section Decided

variable {answer? : NodeId -> Option Bool} {inquiry rest : Inquiry} {id : NodeId} {answer : Bool}

theorem needs_decided : (needs id rest).decide? answer? = some answer ↔
    answer? id = some true ∧ rest.decide? answer? = some answer ∨
      answer? id = some false ∧ answer = false := by
  rw [decide?]
  cases answer? id with
  | none => simp
  | some own => cases own <;> simp [eq_comm]

theorem offers_decided : (offers id rest).decide? answer? = some answer ↔
    answer? id = some true ∧ answer = true ∨
      answer? id = some false ∧ rest.decide? answer? = some answer := by
  rw [decide?]
  cases answer? id with
  | none => simp
  | some own => cases own <;> simp [eq_comm]

/-- Answers that have been found stay, and others do not matter. -/
theorem decide?_of_agree {other? : NodeId -> Option Bool}
    (agree : forall id answer, answer? id = some answer -> other? id = some answer)
    (decided : inquiry.decide? answer? = some answer) :
    inquiry.decide? other? = some answer := by
  induction inquiry with
  | answered own => exact decided
  | needs id rest inductionHypothesis =>
      rcases needs_decided.mp decided with ⟨yes, later⟩ | ⟨no, isNo⟩
      · exact needs_decided.mpr (Or.inl ⟨agree id true yes, inductionHypothesis later⟩)
      · exact needs_decided.mpr (Or.inr ⟨agree id false no, isNo⟩)
  | offers id rest inductionHypothesis =>
      rcases offers_decided.mp decided with ⟨yes, isYes⟩ | ⟨no, later⟩
      · exact offers_decided.mpr (Or.inl ⟨agree id true yes, isYes⟩)
      · exact offers_decided.mpr (Or.inr ⟨agree id false no, inductionHypothesis later⟩)

/-- What is decided with yes holds of the nodes that are. -/
theorem holds_of_decided (decided : inquiry.decide? answer? = some true) :
    inquiry.Holds fun id => answer? id = some true := by
  induction inquiry with
  | answered answer => exact Option.some.inj decided
  | needs id rest inductionHypothesis =>
      rcases needs_decided.mp decided with ⟨yes, later⟩ | ⟨_, isNo⟩
      · exact ⟨yes, inductionHypothesis later⟩
      · cases isNo
  | offers id rest inductionHypothesis =>
      rcases offers_decided.mp decided with ⟨yes, _⟩ | ⟨_, later⟩
      · exact Or.inl yes
      · exact Or.inr (inductionHypothesis later)

/-- What is decided with no does not hold even if all nodes are nullable but those that are
refused for being decided so. -/
theorem not_holds_of_decided {refused : NodeId -> Prop}
    (refuses : forall id, answer? id = some false -> refused id)
    (decided : inquiry.decide? answer? = some false) : ¬inquiry.Holds fun id => ¬refused id := by
  induction inquiry with
  | answered answer => exact fun yes => Bool.noConfusion ((Option.some.inj decided).symm.trans yes)
  | needs id rest inductionHypothesis =>
      rintro ⟨notRefused, restHolds⟩
      rcases needs_decided.mp decided with ⟨_, later⟩ | ⟨no, _⟩
      · exact inductionHypothesis later restHolds
      · exact notRefused (refuses id no)
  | offers id rest inductionHypothesis =>
      rcases offers_decided.mp decided with ⟨_, isYes⟩ | ⟨no, later⟩
      · cases isYes
      · rintro (notRefused | restHolds)
        · exact notRefused (refuses id no)
        · exact inductionHypothesis later restHolds

/-- All nodes that a decided inquiry can come to have answers, if it stops where those are
certain. -/
theorem answered_of_mayAsk {refused granted : NodeId -> Prop}
    (refuses : forall id, answer? id = some false -> refused id)
    (grants : forall id, answer? id = some true -> granted id)
    (decided : inquiry.decide? answer? = some answer)
    (mayAsk : inquiry.MayAsk refused granted id) : exists own, answer? id = some own := by
  induction inquiry with
  | answered own => exact mayAsk.elim
  | needs first rest inductionHypothesis =>
      rcases needs_decided.mp decided with ⟨yes, later⟩ | ⟨no, _⟩
      · rcases mayAsk with rfl | ⟨_, inRest⟩
        · exact ⟨true, yes⟩
        · exact inductionHypothesis later inRest
      · rcases mayAsk with rfl | ⟨notRefused, _⟩
        · exact ⟨false, no⟩
        · exact absurd (refuses first no) notRefused
  | offers first rest inductionHypothesis =>
      rcases offers_decided.mp decided with ⟨yes, _⟩ | ⟨no, later⟩
      · rcases mayAsk with rfl | ⟨notGranted, _⟩
        · exact ⟨true, yes⟩
        · exact absurd (grants first yes) notGranted
      · rcases mayAsk with rfl | ⟨_, inRest⟩
        · exact ⟨false, no⟩
        · exact inductionHypothesis later inRest

end Decided

end Inquiry

variable {L : Signature}

/-- The plan of questions about a clause. -/
def Clause.inquiry : Clause L PatternProgram NodeId -> Inquiry
  | leaf atom => .answered atom.isNullable
  | map inner _ => .needs inner (.answered true)
  | update inner _ => .needs inner (.answered true)
  | sequence items _ => items.foldr .needs (.answered true)
  | choice alts => alts.foldr .offers (.answered false)
  | optional _ _ => .answered true
  | attempt inner => .needs inner (.answered true)
  | lookahead _ look _ => .needs look (.answered true)
  | repeated _ _ min _ => .answered (min == 0)
  | reference _ _ target =>
    match target with
    | some target => .needs target (.answered true)
    | none => .answered false
  | leftRecursion _ => .answered false

theorem allNullable_eq_run (ask : NullQuestion) (ids : List NodeId) (known : Nullability) :
    allNullable ask ids known = (ids.foldr .needs (.answered true) : Inquiry).run ask known := by
  induction ids generalizing known with
  | nil => rfl
  | cons id rest inductionHypothesis =>
      rw [List.foldr_cons, Inquiry.run, allNullable]
      cases ask id known with
      | mk answer next =>
          cases answer with
          | true => exact inductionHypothesis next
          | false => rfl

theorem anyNullable_eq_run (ask : NullQuestion) (ids : List NodeId) (known : Nullability) :
    anyNullable ask ids known = (ids.foldr .offers (.answered false) : Inquiry).run ask known := by
  induction ids generalizing known with
  | nil => rfl
  | cons id rest inductionHypothesis =>
      rw [List.foldr_cons, Inquiry.run, anyNullable]
      cases ask id known with
      | mk answer next =>
          cases answer with
          | true => rfl
          | false => exact inductionHypothesis next

/-- Asking about a clause is asking as its plan says. -/
theorem Clause.isNullable_eq_run (ask : NullQuestion) (clause : Clause L PatternProgram NodeId)
    (known : Nullability) : clause.isNullable ask known = clause.inquiry.run ask known := by
  have alone : forall inner, ask inner known =
      (Inquiry.needs inner (.answered true)).run ask known := by
    intro inner
    rw [Inquiry.run]
    cases ask inner known with
    | mk answer next => cases answer <;> rfl
  cases clause with
  | map inner transform => exact alone inner
  | update inner next => exact alone inner
  | sequence items gather => exact allNullable_eq_run ask items known
  | choice alts => exact anyNullable_eq_run ask alts known
  | attempt inner => exact alone inner
  | lookahead inner look negative => exact alone look
  | reference name expected target =>
      cases target with
      | none => rfl
      | some target => exact alone target
  | _ => rfl

end SeedGrammar
