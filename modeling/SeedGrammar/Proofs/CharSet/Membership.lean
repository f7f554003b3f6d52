import SeedGrammar.Proofs.CharSet.NormalForm

namespace SeedGrammar
namespace CharSet

/-!
# Sets of characters and their members

A set that is made with the operations of this library has its ranges in
normal form.  So it can be searched by halving, its members are those of the
operands as the operation says, and two sets with the same members are the
same list of ranges.  The laws of a Boolean algebra therefore hold as
equations between sets, although merging and the gaps of a complement look at
nothing but the ends of ranges.

The surrogates need care on both ways: a complement finds them in a gap and
has to leave them out, and a range from below to above them falls into two,
which nevertheless count as separate.
-/

open Text Text.CodeRanges

variable {set first second third : CharSet} {ranges : CodeRanges} {code : Nat}

/-- The sets that can be made. -/
inductive Made : CharSet -> Prop where
  | empty : Made empty
  | range (start stop : Char) : Made (range start stop)
  | ofChars (chars : List Char) : Made (ofChars chars)
  | ofCompact {pattern : String} {set : CharSet} : ofCompact pattern = .ok set -> Made set
  | union {first second : CharSet} : Made first -> Made second -> Made (first.union second)
  | complement {set : CharSet} : Made set -> Made set.complement

/-! ## Characters and code points -/

/-- The code point of a character is in range and no surrogate. -/
theorem char_scalar (c : Char) :
    c.toNat ≤ maxCode ∧ (c.toNat < surrogateFirst ∨ surrogateLast < c.toNat) := by
  have valid : c.toNat < 0xD800 ∨ 0xDFFF < c.toNat ∧ c.toNat < 0x110000 := c.valid
  rw [maxCode, surrogateFirst, surrogateLast]
  omega

/-- Every other code point is that of a character. -/
theorem exists_char {code : Nat} (inside : code ≤ maxCode)
    (scalar : code < surrogateFirst ∨ surrogateLast < code) :
    exists c, Text.scalar? code = some c ∧ c.toNat = code := by
  have valid : code.isValidChar := by
    rw [maxCode] at inside
    rw [surrogateFirst, surrogateLast] at scalar
    change code < 0xD800 ∨ 0xDFFF < code ∧ code < 0x110000
    omega
  refine ⟨Char.ofNat code, if_pos valid, ?_⟩
  rw [Char.ofNat, dif_pos valid]
  rfl

/-- What ranges in normal form hold are code points of characters. -/
theorem exists_char_of_hasCode (normal : ranges.Normal) (holds : ranges.hasCode code = true) :
    exists c : Char, c.toNat = code := by
  rcases hasCode_iff.mp holds with ⟨range, member, starts, ends⟩
  have bounded := normal.bounded range member
  have scalar := normal.noSurrogates range member
  have inside : code ≤ maxCode := Nat.le_trans ends bounded.2
  rcases exists_char inside (by omega) with ⟨c, _, isCode⟩
  exact ⟨c, isCode⟩

/-! ## Members of one set -/

/-- In normal form the search by halving finds all members. -/
theorem contains_eq_has (normal : set.ranges.Normal) (c : Char) :
    set.contains c = set.ranges.has c :=
  halve_eq_hasCode normal.apart normal.bounded (Nat.le_refl _)

theorem contains_iff (normal : set.ranges.Normal) (c : Char) :
    set.contains c = true ↔
      exists range, range ∈ set.ranges ∧ range.1 ≤ c.toNat ∧ c.toNat ≤ range.2 := by
  rw [contains_eq_has normal]
  exact hasCode_iff

/-- Sets in normal form with the same members are the same. -/
theorem eq_of_contains (normal : first.ranges.Normal) (otherNormal : second.ranges.Normal)
    (same : forall c, first.contains c = second.contains c) : first = second := by
  have held : forall code, first.ranges.hasCode code = second.ranges.hasCode code := by
    intro code
    by_cases isChar : exists c : Char, c.toNat = code
    · rcases isChar with ⟨c, rfl⟩
      have sameChar := same c
      rwa [contains_eq_has normal, contains_eq_has otherNormal] at sameChar
    · have absent : first.ranges.hasCode code = false :=
        Bool.eq_false_iff.mpr fun holds => isChar (exists_char_of_hasCode normal holds)
      have absent' : second.ranges.hasCode code = false :=
        Bool.eq_false_iff.mpr fun holds => isChar (exists_char_of_hasCode otherNormal holds)
      rw [absent, absent']
  have ranges := normal.eq_of_hasCode otherNormal held
  cases first
  cases second
  exact congrArg CharSet.mk ranges

/-- None of the ranges is lost when their ends are read as characters. -/
theorem charRanges_lists (normal : set.ranges.Normal) :
    set.charRanges.map (fun ends => (ends.1.toNat, ends.2.toNat)) = set.ranges := by
  rcases set with ⟨ranges⟩
  change ranges.Normal at normal
  induction ranges with
  | nil => rfl
  | cons range rest inductionHypothesis =>
      have bounded := normal.bounded range List.mem_cons_self
      have scalar := normal.noSurrogates range List.mem_cons_self
      have startInside : range.1 ≤ maxCode := Nat.le_trans bounded.1 bounded.2
      rcases exists_char startInside (by omega) with ⟨start, isStart, startCode⟩
      rcases exists_char bounded.2 (by omega) with ⟨stop, isStop, stopCode⟩
      have tail := inductionHypothesis normal.tail
      simp only [charRanges] at tail ⊢
      rw [List.filterMap_cons, isStart, isStop]
      simp only [List.map_cons, tail, startCode, stopCode]

/-! ## Members of what the operations make -/

/-- A set made of ranges contains the characters of these. -/
theorem contains_ofRanges (bounded : ranges.Bounded) (c : Char) :
    (ofRanges ranges).contains c = ranges.has c := by
  rw [contains_eq_has (ofRanges_normal bounded), Bool.eq_iff_iff, has, has, hasCode_ofRanges]
  exact and_iff_left (char_scalar c).2

theorem union_bounded (normal : first.ranges.Normal) (otherNormal : second.ranges.Normal) :
    Bounded (first.ranges ++ second.ranges) := by
  intro range member
  rcases List.mem_append.mp member with ofFirst | ofSecond
  · exact normal.bounded range ofFirst
  · exact otherNormal.bounded range ofSecond

theorem union_normal (normal : first.ranges.Normal) (otherNormal : second.ranges.Normal) :
    (first.union second).ranges.Normal :=
  ofRanges_normal (union_bounded normal otherNormal)

/-- A union has the members of both sets. -/
theorem contains_union (normal : first.ranges.Normal) (otherNormal : second.ranges.Normal)
    (c : Char) : (first.union second).contains c = (first.contains c || second.contains c) := by
  rw [union, contains_ofRanges (union_bounded normal otherNormal), has, hasCode_append,
    contains_eq_has normal, contains_eq_has otherNormal, has, has]

theorem gaps_bounded {next : Nat} (bounded : ranges.Bounded) : Bounded (gaps next ranges) := by
  induction ranges generalizing next with
  | nil =>
      intro gap member
      rw [gaps] at member
      by_cases inside : next ≤ maxCode
      · rw [if_pos inside, List.mem_singleton] at member
        rw [member]
        exact ⟨inside, Nat.le_refl _⟩
      · rw [if_neg inside] at member
        cases member
  | cons range rest inductionHypothesis =>
      have first := bounded range List.mem_cons_self
      intro gap member
      rw [gaps, List.mem_append] at member
      rcases member with before | later
      · by_cases isGap : next < range.1
        · rw [if_pos isGap, List.mem_singleton] at before
          rw [before]
          dsimp only
          omega
        · rw [if_neg isGap] at before
          cases before
      · apply inductionHypothesis _ gap later
        intro other isOther
        exact bounded other (List.mem_cons_of_mem _ isOther)

/-- The gaps from a place on that is not after the first range hold what the
ranges do not hold from there on. -/
theorem hasCode_gaps (next : Nat) (normal : ranges.Normal)
    (ahead : forall range, range ∈ ranges -> next ≤ range.1) (code : Nat) :
    hasCode (gaps next ranges) code = true ↔
      next ≤ code ∧ code ≤ maxCode ∧ ranges.hasCode code = false := by
  induction ranges generalizing next with
  | nil =>
      rw [gaps]
      by_cases inside : next ≤ maxCode
      · simp [inside]
      · simp [inside]
        omega
  | cons range rest inductionHypothesis =>
      have bounded := normal.bounded range List.mem_cons_self
      have start := ahead range List.mem_cons_self
      have later := inductionHypothesis (range.2 + 1) normal.tail (by
        intro other member
        exact Nat.le_of_lt ((List.pairwise_cons.mp normal.apart).1 other member))
      have above : CodeRanges.hasCode rest code = true -> range.2 + 1 < code := normal.gap
      rw [gaps, hasCode_append, Bool.or_eq_true, later, hasCode_cons]
      cases held : CodeRanges.hasCode rest code with
      | true =>
          have beyond := above held
          by_cases isGap : next < range.1 <;> simp [isGap]
          omega
      | false => by_cases isGap : next < range.1 <;> simp [isGap] <;> omega

theorem complement_normal (normal : set.ranges.Normal) : set.complement.ranges.Normal :=
  ofRanges_normal (gaps_bounded normal.bounded)

/-- A complement has the other characters as members. -/
theorem contains_complement (normal : set.ranges.Normal) (c : Char) :
    set.complement.contains c = !set.contains c := by
  rw [complement, contains_ofRanges (gaps_bounded normal.bounded), contains_eq_has normal,
    Bool.eq_iff_iff, has, has, hasCode_gaps 0 normal (fun _ _ => Nat.zero_le _), Bool.not_eq_true']
  exact ⟨fun holds => holds.2.2, fun absent => ⟨Nat.zero_le _, (char_scalar c).1, absent⟩⟩

/-! ## All sets that can be made -/

/-- Another range of characters, whose ends are in order. -/
theorem bounded_cons {start stop : Char} (ordered : start.toNat ≤ stop.toNat)
    (bounded : ranges.Bounded) : Bounded ((start.toNat, stop.toNat) :: ranges) := by
  intro range member
  rcases List.mem_cons.mp member with rfl | member
  · exact ⟨ordered, (char_scalar stop).1⟩
  · exact bounded range member

theorem exists_of_map_ok {α β ε : Type} {f : α -> β} {read : Except ε α} {result : β}
    (isOk : read.map f = .ok result) : exists content, read = .ok content ∧ f content = result := by
  cases read with
  | error error => cases isOk
  | ok content =>
      cases isOk
      exact ⟨content, rfl, rfl⟩

/-- The ranges of a compact form have their ends in order, since a range whose
ends are the wrong way round is refused. -/
theorem compactRanges_bounded {items : List CompactItem} (read : compactRanges items = .ok ranges) :
    ranges.Bounded := by
  fun_induction compactRanges items generalizing ranges with
  | case1 =>
      cases read
      intro range member
      cases member
  | case2 first dash last rest isRange reversed => cases read
  | case3 first dash last rest isRange ordered inductionHypothesis =>
      rcases exists_of_map_ok read with ⟨tail, isTail, rfl⟩
      exact bounded_cons (Nat.le_of_not_lt ordered) (inductionHypothesis isTail)
  | case4 first dash last rest notRange inductionHypothesis =>
      rcases exists_of_map_ok read with ⟨tail, isTail, rfl⟩
      exact bounded_cons (Nat.le_refl _) (inductionHypothesis isTail)
  | case5 first rest short inductionHypothesis =>
      rcases exists_of_map_ok read with ⟨tail, isTail, rfl⟩
      exact bounded_cons (Nat.le_refl _) (inductionHypothesis isTail)

/-- A set that can be made is in normal form. -/
theorem Made.normal (made : Made set) : set.ranges.Normal := by
  induction made with
  | empty =>
      exact ⟨.nil, fun _ member => absurd member List.not_mem_nil,
        fun _ member => absurd member List.not_mem_nil⟩
  | range start stop =>
      apply ofRanges_normal
      intro range member
      rw [List.mem_singleton.mp member]
      have startInside := (char_scalar start).1
      have stopInside := (char_scalar stop).1
      dsimp only
      omega
  | ofChars chars =>
      apply ofRanges_normal
      intro range member
      rcases List.mem_map.mp member with ⟨c, _, rfl⟩
      exact ⟨Nat.le_refl _, (char_scalar c).1⟩
  | @ofCompact pattern set isSet =>
      rw [CharSet.ofCompact] at isSet
      cases read : compactRanges (compactItems pattern.toList) with
      | error ends =>
          rw [read] at isSet
          cases isSet
      | ok ranges =>
          rw [read] at isSet
          cases isSet
          exact ofRanges_normal (compactRanges_bounded read)
  | union _ _ firstNormal secondNormal => exact union_normal firstNormal secondNormal
  | complement _ normal => exact complement_normal normal

/-! ## Laws -/

theorem complement_complement (normal : set.ranges.Normal) :
    set.complement.complement = set := by
  apply eq_of_contains (complement_normal (complement_normal normal)) normal
  intro c
  rw [contains_complement (complement_normal normal), contains_complement normal, Bool.not_not]

theorem union_self (normal : set.ranges.Normal) : set.union set = set := by
  apply eq_of_contains (union_normal normal normal) normal
  intro c
  rw [contains_union normal normal, Bool.or_self]

theorem union_comm (normal : first.ranges.Normal) (otherNormal : second.ranges.Normal) :
    first.union second = second.union first := by
  apply eq_of_contains (union_normal normal otherNormal) (union_normal otherNormal normal)
  intro c
  rw [contains_union normal otherNormal, contains_union otherNormal normal, Bool.or_comm]

theorem union_assoc (normal : first.ranges.Normal) (otherNormal : second.ranges.Normal)
    (lastNormal : third.ranges.Normal) :
    (first.union second).union third = first.union (second.union third) := by
  have left := union_normal normal otherNormal
  have right := union_normal otherNormal lastNormal
  apply eq_of_contains (union_normal left lastNormal) (union_normal normal right)
  intro c
  rw [contains_union left lastNormal, contains_union normal otherNormal,
    contains_union normal right, contains_union otherNormal lastNormal, Bool.or_assoc]

/-- Whether a set is as it should be kept: its ranges are in normal form, all
of them are listed as characters, and it contains what some range holds. -/
structure Canonical (set : CharSet) : Prop where
  normal : set.ranges.Normal
  listed : set.charRanges.map (fun ends => (ends.1.toNat, ends.2.toNat)) = set.ranges
  members : forall c, set.contains c = true ↔
    exists range, range ∈ set.ranges ∧ range.1 ≤ c.toNat ∧ c.toNat ≤ range.2

/-- The sets that can be made are kept as they should be.  Unions and
complements have the members that their names say, sets with the same members
are equal, and therefore the laws hold. -/
theorem made_isBooleanAlgebra (madeFirst : Made first) (madeSecond : Made second)
    (madeThird : Made third) :
    first.Canonical ∧
    (forall c, (first.union second).contains c = (first.contains c || second.contains c)) ∧
    (forall c, first.complement.contains c = !first.contains c) ∧
    (first = second ↔ forall c, first.contains c = second.contains c) ∧
    first.complement.complement = first ∧
    first.union first = first ∧
    first.union second = second.union first ∧
    (first.union second).union third = first.union (second.union third) := by
  have normal := madeFirst.normal
  have secondNormal := madeSecond.normal
  refine ⟨⟨normal, charRanges_lists normal, contains_iff normal⟩,
    contains_union normal secondNormal, contains_complement normal, ?_,
    complement_complement normal, union_self normal, union_comm normal secondNormal,
    union_assoc normal secondNormal madeThird.normal⟩
  constructor
  · rintro rfl c
    rfl
  · exact eq_of_contains normal secondNormal

/-- A range from below the surrogates to above them, a complement without the
least and the greatest character, and a compact form. -/
theorem straddling_isBooleanAlgebra :
    exists set, ofCompact "a-c\\-" = .ok set ∧
      let straddling := range '\ud7ff' '\ue000'
      let inner := (ofChars ['\x00', Char.ofNat 0x10FFFF]).complement
      straddling.ranges = [(0xD7FF, 0xD7FF), (0xE000, 0xE000)] ∧
      straddling.Canonical ∧ straddling.complement.complement = straddling ∧
      (straddling = inner ↔ forall c, straddling.contains c = inner.contains c) ∧
      (straddling.union inner).union set = straddling.union (inner.union set) := by
  have isSet : ofCompact "a-c\\-" = .ok (ofRanges [(0x61, 0x63), (0x2D, 0x2D)]) := rfl
  have laws := made_isBooleanAlgebra (.range '\ud7ff' '\ue000')
    (.complement (.ofChars ['\x00', Char.ofNat 0x10FFFF])) (.ofCompact isSet)
  refine ⟨_, isSet, ?_, laws.1, laws.2.2.2.2.1, laws.2.2.2.1, laws.2.2.2.2.2.2.2⟩
  rw [range, ofRanges, List.mergeSort_singleton]
  rfl

end CharSet
end SeedGrammar
