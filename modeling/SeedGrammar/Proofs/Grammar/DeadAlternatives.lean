import SeedGrammar.Grammar.Lint
import SeedGrammar.Proofs.Text.Digits

namespace SeedGrammar

/-!
# Alternatives that are reported as dead

An alternative is dead after one that always succeeds, and if it is a literal that is among
those before it.  A warning about one names the choice as a related node, and the alternative
by its index at the start of the text.  The text can be read back, for an index is followed by
a blank, so the alternatives that warnings name are dead (`unflagged_prunes`).
-/

variable {L : Signature}

/-- Whether a warning reports the alternative at an index of a choice as dead. -/
def GrammarWarning.flags (warning : GrammarWarning) (choice : NodeId) (index : Nat) : Bool :=
  warning.kind = .unreachableAlternative && warning.related = [choice] &&
    ("Alternative " ++ Text.decimal index ++ " ").toList.isPrefixOf warning.message.toList

/-- A warning does not report two indices. -/
theorem GrammarWarning.index_of_flags {warning : GrammarWarning} {choice : NodeId}
    {index other : Nat} {rest : String}
    (message : warning.message = "Alternative " ++ Text.decimal other ++ " " ++ rest)
    (flags : warning.flags choice index = true) : index = other := by
  simp only [GrammarWarning.flags, Bool.and_eq_true, message, String.toList_append,
    List.isPrefixOf_iff_prefix, List.append_assoc, List.prefix_append_right_inj] at flags
  have digits := flags.2
  simp only [Text.decimal, String.toList_ofList] at digits
  exact Text.toDigits_of_blank digits

namespace Grammar

/-- Whether an alternative is dead after what others have shown. -/
def IsDead (grammar : Grammar L) (earlier : Earlier L) (alt : NodeId) : Prop :=
  earlier.succeeds = true ∨ exists literal,
    grammar.nodes[alt]? = some (.leaf (.exact literal)) ∧ literal ∈ earlier.literals

/-- Whether some alternatives are others without dead ones. -/
inductive Prunes (grammar : Grammar L) : Earlier L -> List NodeId -> List NodeId -> Prop where
  | nil {earlier : Earlier L} : Prunes grammar earlier [] []
  | keep {earlier : Earlier L} {alt : NodeId} {rest kept : List NodeId} :
      Prunes grammar (earlier.add grammar alt) rest kept ->
      Prunes grammar earlier (alt :: rest) (alt :: kept)
  | drop {earlier : Earlier L} {alt : NodeId} {rest kept : List NodeId} :
      grammar.IsDead earlier alt -> Prunes grammar (earlier.add grammar alt) rest kept ->
      Prunes grammar earlier (alt :: rest) kept

/-- The alternatives of a choice, from one of an index on, that no warning reports as dead. -/
def unflagged (warnings : List GrammarWarning) (choice : NodeId) : Nat -> List NodeId -> List NodeId
  | _, [] => []
  | index, alt :: rest =>
    if warnings.any (·.flags choice index) then unflagged warnings choice (index + 1) rest
    else alt :: unflagged warnings choice (index + 1) rest

/-- A grammar with other alternatives for one choice. -/
def withAlternatives (grammar : Grammar L) (choice : NodeId) (alts : List NodeId) : Grammar L :=
  { grammar with nodes := grammar.nodes.set choice (.choice alts) }

/-! ## Reading a warning -/

/-- A dead alternative has one of two reasons, and the text names it by its index. -/
theorem isDead_of_deadReason? {grammar : Grammar L} {earlier : Earlier L} {index : Nat}
    {alt : NodeId} {message : String}
    (reason : grammar.deadReason? earlier index alt = some message) :
    grammar.IsDead earlier alt ∧
      exists rest, message = "Alternative " ++ Text.decimal index ++ " " ++ rest := by
  rw [deadReason?] at reason
  by_cases succeeds : earlier.succeeds = true
  · rw [if_pos succeeds] at reason
    cases reason
    refine ⟨Or.inl succeeds, "follows an alternative that always succeeds", ?_⟩
    simp only [String.append_assoc]
    rfl
  · rw [if_neg succeeds] at reason
    split at reason
    · rename_i literal found
      by_cases repeats : literal ∈ earlier.literals
      · rw [if_pos repeats] at reason
        cases reason
        refine ⟨Or.inr ⟨literal, found, repeats⟩,
          "repeats an earlier literal " ++ grammar.describe alt, ?_⟩
        have blank : (" repeats an earlier literal " : String) =
            " " ++ "repeats an earlier literal " := rfl
        rw [blank]
        simp only [String.append_assoc]
      · rw [if_neg repeats] at reason
        cases reason
    · cases reason

/-- What an alternative that is reported is called, and that it is dead after those before. -/
theorem dead_of_mem_deadAlternatives {grammar : Grammar L} {choice : NodeId}
    {warning : GrammarWarning} {earlier : Earlier L} {start : Nat} {alts : List NodeId}
    (reported : warning ∈ grammar.deadAlternatives choice earlier start alts) :
    exists index rest,
      warning.message = "Alternative " ++ Text.decimal (start + index) ++ " " ++ rest ∧
        warning.related = [choice] ∧
        forall alt, alts[index]? = some alt ->
          grammar.IsDead ((alts.take index).foldl (·.add grammar) earlier) alt := by
  induction alts generalizing earlier start with
  | nil => cases reported
  | cons first alts inductionHypothesis =>
      have ofLater : warning ∈ grammar.deadAlternatives choice (earlier.add grammar first)
          (start + 1) alts -> exists index rest,
            warning.message = "Alternative " ++ Text.decimal (start + index) ++ " " ++ rest ∧
              warning.related = [choice] ∧
              forall alt, (first :: alts)[index]? = some alt ->
                grammar.IsDead (((first :: alts).take index).foldl (·.add grammar) earlier) alt := by
        intro member
        rcases inductionHypothesis member with ⟨index, rest, message, related, dead⟩
        refine ⟨index + 1, rest, ?_, related, dead⟩
        rw [message, Nat.add_assoc, Nat.add_comm 1]
      rw [deadAlternatives] at reported
      cases reason : grammar.deadReason? earlier start first with
      | none =>
          rw [reason] at reported
          exact ofLater reported
      | some message =>
          rw [reason] at reported
          rcases List.mem_cons.mp reported with rfl | member
          · rcases isDead_of_deadReason? reason with ⟨dead, rest, isMessage⟩
            refine ⟨0, rest, isMessage, rfl, ?_⟩
            intro alt isFirst
            cases isFirst
            exact dead
          · exact ofLater member

theorem kind_of_mem_leftRecursionWarnings {grammar : Grammar L} {rules : List (Rule L)}
    {known : Nullability} {warning : GrammarWarning}
    (reported : warning ∈ (grammar.leftRecursionWarnings rules known).1) :
    warning.kind = .unguardedLeftRecursion := by
  induction rules generalizing known with
  | nil => cases reported
  | cons rule rules inductionHypothesis =>
      rw [leftRecursionWarnings] at reported
      rcases cycle : grammar.leftCycle rule.root known with ⟨_ | path, later⟩
      · rw [cycle] at reported
        exact inductionHypothesis reported
      · rw [cycle] at reported
        rcases List.mem_cons.mp reported with rfl | member
        · rfl
        · exact inductionHypothesis member

/-- An alternative that is reported under its index is dead after those before it. -/
theorem isDead_of_flags {grammar : Grammar L} {choice : NodeId} {alts : List NodeId}
    (isChoice : grammar.nodes[choice]? = some (.choice alts)) {root : NodeId} {known : Nullability}
    {warning : GrammarWarning} (reported : warning ∈ (grammar.analyze root known).1)
    {index : Nat} (flags : warning.flags choice index = true) {alt : NodeId}
    (found : alts[index]? = some alt) :
    grammar.IsDead ((alts.take index).foldl (·.add grammar) ⟨false, []⟩) alt := by
  have named := flags
  simp only [GrammarWarning.flags, Bool.and_eq_true, decide_eq_true_eq] at named
  rcases List.mem_append.mp reported with early | unused
  · rcases List.mem_append.mp early with recursive | dead
    · rw [kind_of_mem_leftRecursionWarnings recursive] at named
      cases named.1.1
    · rcases List.mem_flatMap.mp dead with ⟨id, _, ofId⟩
      split at ofId
      · split at ofId
        · rename_i others isOther
          rcases dead_of_mem_deadAlternatives ofId with ⟨place, rest, message, related, dead⟩
          have same : [id] = [choice] := related.symm.trans named.1.2
          cases same
          rw [isChoice] at isOther
          cases isOther
          rw [Nat.zero_add] at message
          cases warning.index_of_flags message flags
          exact dead alt found
        · cases ofId
      · cases ofId
  · rcases List.mem_map.mp unused with ⟨rule, _, rfl⟩
    cases named.1.1

/-- Without the alternatives that are reported as dead, a choice lacks dead ones only. -/
theorem unflagged_prunes {grammar : Grammar L} {warnings : List GrammarWarning} {choice : NodeId}
    {earlier : Earlier L} {start : Nat} {alts : List NodeId}
    (dead : forall index alt, warnings.any (·.flags choice (start + index)) = true ->
      alts[index]? = some alt ->
        grammar.IsDead ((alts.take index).foldl (·.add grammar) earlier) alt) :
    grammar.Prunes earlier alts (unflagged warnings choice start alts) := by
  induction alts generalizing earlier start with
  | nil => exact .nil
  | cons alt alts inductionHypothesis =>
      have rest : grammar.Prunes (earlier.add grammar alt) alts
          (unflagged warnings choice (start + 1) alts) := by
        apply inductionHypothesis
        intro index other flagged found
        refine dead (index + 1) other ?_ found
        rwa [Nat.add_comm index, ← Nat.add_assoc]
      rw [unflagged]
      split
      · rename_i flagged
        exact .drop (dead 0 alt flagged rfl) rest
      · exact .keep rest

end Grammar
end SeedGrammar
