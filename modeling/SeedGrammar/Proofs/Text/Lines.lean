import Mathlib.Data.Prod.Lex
import SeedGrammar.Proofs.Text.Offsets
import SeedGrammar.Text.SourcePosition

namespace SeedGrammar

open Text

/-!
# Lines and columns against the text

The line and the column of an offset are counted from the start of the text,
whereas the line that is shown is searched for around the offset.  Both speak
of the pieces into which newlines split the text: the number of the line
counts the pieces up to the one that is shown, the column counts the
characters of that piece in front of the offset, and together they tell all
the bytes in front of it.

What stands in front of an offset is taken apart once, into whole lines and
the begun line behind them (`exists_begun`).  The count and the search are
then read off these parts.  Places are compared like lines and columns: each
further character moves the place forward.
-/

/-- The pieces of a text between its newlines. -/
def Text.lines (text : String) : List (List Char) :=
  text.toList.splitOn '\n'

/-- Lines with the newlines that end them. -/
def Text.ended (lines : List (List Char)) : List Char :=
  lines.flatMap fun line => line ++ ['\n']

example : lines "ab\n\nc\n" = [['a', 'b'], [], ['c'], []] := by decide

/-! ## Whole lines and a begun one -/

/-- Every text consists of whole lines and a line that has begun. -/
theorem exists_begun (chars : List Char) :
    exists whole begun, chars = ended whole ++ begun ∧ (forall line, line ∈ whole -> '\n' ∉ line) ∧
      '\n' ∉ begun := by
  induction chars with
  | nil => exact ⟨[], [], rfl, fun _ isLine => absurd isLine List.not_mem_nil, List.not_mem_nil⟩
  | cons c rest inductionHypothesis =>
      rcases inductionHypothesis with ⟨whole, begun, rfl, plainLines, plainBegun⟩
      by_cases newline : c = '\n'
      · -- A newline in front is an empty line more.
        subst newline
        refine ⟨[] :: whole, begun, rfl, ?_, plainBegun⟩
        exact List.forall_mem_cons.mpr ⟨List.not_mem_nil, plainLines⟩
      · -- Any other character is put in front of the first line.
        have plain : forall {line}, '\n' ∉ line -> '\n' ∉ c :: line := fun notIn isIn =>
          (List.mem_cons.mp isIn).elim (fun same => newline same.symm) notIn
        cases whole with
        | nil => exact ⟨[], c :: begun, rfl, plainLines, plain plainBegun⟩
        | cons line whole =>
            rcases List.forall_mem_cons.mp plainLines with ⟨plainLine, plainWhole⟩
            exact ⟨(c :: line) :: whole, begun, rfl,
              List.forall_mem_cons.mpr ⟨plain plainLine, plainWhole⟩, plainBegun⟩

/-- Behind whole lines the text is split as if they were not there. -/
theorem splitOn_ended {whole : List (List Char)} {rest : List Char}
    (plainLines : forall line, line ∈ whole -> '\n' ∉ line) :
    (ended whole ++ rest).splitOn '\n' = whole ++ rest.splitOn '\n' := by
  induction whole with
  | nil => rfl
  | cons line whole inductionHypothesis =>
      rcases List.forall_mem_cons.mp plainLines with ⟨plainLine, plainWhole⟩
      have isSplit : forall c, c ∈ line -> (c == '\n') = false := fun c isIn =>
        beq_false_of_ne fun newline => plainLine (newline ▸ isIn)
      calc (ended (line :: whole) ++ rest).splitOn '\n'
        _ = (line ++ '\n' :: (ended whole ++ rest)).splitOn '\n' := by
            simp only [ended, List.flatMap_cons, List.append_assoc, List.cons_append,
              List.nil_append]
        _ = line :: (ended whole ++ rest).splitOn '\n' :=
            List.splitOnP_append_cons_of_forall_mem isSplit '\n' rfl _
        _ = (line :: whole) ++ rest.splitOn '\n' := by
            rw [inductionHypothesis plainWhole, List.cons_append]

/-- The first piece of a text reaches up to its first newline. -/
theorem splitOn_head (chars : List Char) :
    exists more, chars.splitOn '\n' = chars.takeWhile (· ≠ '\n') :: more := by
  induction chars with
  | nil => exact ⟨[], rfl⟩
  | cons c rest inductionHypothesis =>
      by_cases newline : c = '\n'
      · subst newline
        exact ⟨rest.splitOn '\n', List.splitOnP_append_cons [] rest rfl⟩
      · rcases inductionHypothesis with ⟨more, isMore⟩
        refine ⟨more, ?_⟩
        rw [List.splitOn, List.splitOnP_cons_eq_if_modifyHead, if_neg (by simpa using newline),
          <- List.splitOn, isMore, List.takeWhile_cons_of_pos (by simpa using newline)]
        rfl

/-- Looking back from behind whole lines, a newline stands there or nothing. -/
theorem takeWhile_reverse_ended (whole : List (List Char)) :
    (ended whole).reverse.takeWhile (· ≠ '\n') = [] := by
  rcases List.eq_nil_or_concat whole with rfl | ⟨first, last, rfl⟩
  · rfl
  · rw [List.concat_eq_append, ended, List.flatMap_append, List.flatMap_singleton,
      List.reverse_append, List.reverse_append]
    rfl

section Begun

variable {whole : List (List Char)} {begun after : List Char}

theorem takeWhile_begun (plainBegun : '\n' ∉ begun) :
    (begun ++ after).takeWhile (· ≠ '\n') = begun ++ after.takeWhile (· ≠ '\n') :=
  List.takeWhile_append_of_pos fun _ isIn =>
    decide_eq_true fun newline => plainBegun (newline ▸ isIn)

/-- The search backwards finds the line that has begun. -/
theorem takeWhile_reverse_begun (plainBegun : '\n' ∉ begun) :
    ((ended whole ++ begun).reverse.takeWhile (· ≠ '\n')).reverse = begun := by
  rw [List.reverse_append, takeWhile_begun (List.mem_reverse.not.mpr plainBegun),
    takeWhile_reverse_ended, List.append_nil, List.reverse_reverse]

/-- The piece behind the whole lines is the begun line with what is left of it. -/
theorem splitOn_begun (after : List Char) (plainLines : forall line, line ∈ whole -> '\n' ∉ line)
    (plainBegun : '\n' ∉ begun) :
    exists more, (ended whole ++ (begun ++ after)).splitOn '\n' =
      whole ++ (begun ++ after.takeWhile (· ≠ '\n')) :: more := by
  rcases splitOn_head (begun ++ after) with ⟨more, isMore⟩
  rw [takeWhile_begun plainBegun] at isMore
  exact ⟨more, by rw [splitOn_ended plainLines, isMore]⟩

end Begun

namespace SourcePosition

/-! ## Counting -/

theorem byteLength_front_le {text : String} {before after : List Char}
    (isText : text.toList = before ++ after) : byteLength before ≤ byteLength text.toList := by
  rw [isText, byteLength_append]
  exact Nat.le_add_right _ _

/-- At a boundary exactly the characters in front of it have been read. -/
theorem scan_boundary (before after : List Char) (place : Nat × Nat) :
    scan (byteLength before) (before ++ after) place = before.foldl advance place := by
  induction before generalizing place with
  | nil => cases after <;> rfl
  | cons c rest inductionHypothesis =>
      have positive := c.utf8Size_pos
      rw [byteLength_cons, List.cons_append, List.foldl_cons, <- inductionHypothesis]
      rcases Nat.exists_eq_add_one_of_ne_zero
          (show c.utf8Size + byteLength rest ≠ 0 by omega) with ⟨less, isLess⟩
      rw [isLess, scan, <- isLess, Nat.add_sub_cancel_left]

/-- Inside a line only the column counts. -/
theorem foldl_advance_plain {line : List Char} (plain : '\n' ∉ line) (number column : Nat) :
    line.foldl advance (number, column) = (number, column + line.length) := by
  induction line generalizing column with
  | nil => rfl
  | cons c rest inductionHypothesis =>
      rcases not_or.mp (List.mem_cons.not.mp plain) with ⟨differs, plainRest⟩
      rw [List.foldl_cons, advance, if_neg (Ne.symm differs), inductionHypothesis plainRest,
        List.length_cons, Nat.add_assoc, Nat.add_comm 1]

/-- Whole lines are counted, and leave the place at the start of a line. -/
theorem foldl_advance_ended {whole : List (List Char)}
    (plainLines : forall line, line ∈ whole -> '\n' ∉ line) (number : Nat) :
    (ended whole).foldl advance (number, 1) = (number + whole.length, 1) := by
  induction whole generalizing number with
  | nil => rfl
  | cons line whole inductionHypothesis =>
      rcases List.forall_mem_cons.mp plainLines with ⟨plainLine, plainWhole⟩
      calc (ended (line :: whole)).foldl advance (number, 1)
        _ = (ended whole).foldl advance (advance (line.foldl advance (number, 1)) '\n') := by
            simp only [ended, List.flatMap_cons, List.foldl_append, List.foldl_cons,
              List.foldl_nil]
        _ = (ended whole).foldl advance (number + 1, 1) := by
            rw [foldl_advance_plain plainLine, advance, if_pos rfl]
        _ = (number + (line :: whole).length, 1) := by
            rw [inductionHypothesis plainWhole, List.length_cons, Nat.add_assoc,
              Nat.add_comm 1]

/-- The place of a boundary. -/
theorem ofOffset_boundary {text : String} {before after : List Char}
    (isText : text.toList = before ++ after) :
    ofOffset text (byteLength before) =
      ⟨byteLength before, (before.foldl advance (1, 1)).1, (before.foldl advance (1, 1)).2⟩ := by
  simp only [ofOffset, Nat.min_eq_left (byteLength_front_le isText)]
  rw [isText, scan_boundary]

/-- An offset past the end has the place of the end. -/
theorem ofOffset_clamped (text : String) (offset : Nat) :
    ofOffset text (min offset (byteLength text.toList)) = ofOffset text offset := by
  simp only [ofOffset, Nat.min_assoc, Nat.min_self]

/-! ## The line around a place -/

/-- The line that a boundary is in, as its two halves. -/
theorem lineText?_boundary {text : String} {before after : List Char} {position : SourcePosition}
    (isText : text.toList = before ++ after) (isOffset : position.offset = byteLength before) :
    position.lineText? text = some (String.ofList
      ((before.reverse.takeWhile (· ≠ '\n')).reverse ++ after.takeWhile (· ≠ '\n'))) := by
  simp only [lineText?, isOffset, Nat.min_eq_left (byteLength_front_le isText)]
  rw [isText, takeBytes_append, dropBytes_byteLength]

/-- A place tells where an offset is: its line is a piece of the text, its
column lies in or behind that piece, and the two account for all bytes in
front of the offset. -/
structure Locates (text : String) (offset : Nat) (position : SourcePosition)
    (piece : List Char) : Prop where
  lineFrom : 1 ≤ position.line
  isPiece : (lines text)[position.line - 1]? = some piece
  lineText : position.lineText? text = some (String.ofList piece)
  columnFrom : 1 ≤ position.column
  columnTo : position.column - 1 ≤ piece.length
  bytesBefore : (bytes text.toList).take offset =
    bytes (ended ((lines text).take (position.line - 1)) ++ piece.take (position.column - 1))

theorem boundary_locates {text : String} {before after : List Char}
    (isText : text.toList = before ++ after) :
    exists piece, Locates text (byteLength before) (ofOffset text (byteLength before)) piece := by
  rcases exists_begun before with ⟨whole, begun, isBefore, plainLines, plainBegun⟩
  have placed : before.foldl advance (1, 1) = (1 + whole.length, 1 + begun.length) := by
    rw [isBefore, List.foldl_append, foldl_advance_ended plainLines,
      foldl_advance_plain plainBegun]
  have isPosition : ofOffset text (byteLength before) =
      ⟨byteLength before, 1 + whole.length, 1 + begun.length⟩ := by
    rw [ofOffset_boundary isText, placed]
  rcases splitOn_begun after plainLines plainBegun with ⟨more, isSplit⟩
  have areLines : lines text = whole ++ (begun ++ after.takeWhile (· ≠ '\n')) :: more := by
    rw [lines, isText, isBefore, List.append_assoc, isSplit]
  refine ⟨begun ++ after.takeWhile (· ≠ '\n'), ?_⟩
  constructor <;> simp only [isPosition, Nat.add_sub_cancel_left]
  case lineFrom | columnFrom => exact Nat.le_add_right _ _
  case isPiece => rw [areLines, List.getElem?_append_right (Nat.le_refl _), Nat.sub_self]; rfl
  case lineText =>
    rw [lineText?_boundary isText rfl, isBefore, takeWhile_reverse_begun plainBegun]
  case columnTo => rw [List.length_append]; exact Nat.le_add_right _ _
  case bytesBefore =>
    rw [areLines, List.take_left, List.take_left, <- isBefore, isText, bytes_append,
      <- length_bytes, List.take_left]

/-! ## Places in order -/

/-- Line and column, compared as they are read: the line decides first. -/
def shown (position : SourcePosition) : Nat ×ₗ Nat :=
  toLex (position.line, position.column)

theorem lt_advance (place : Nat × Nat) (c : Char) : toLex place < toLex (advance place c) := by
  rw [Prod.Lex.toLex_lt_toLex, advance]
  split
  · exact Or.inl (Nat.lt_succ_self _)
  · exact Or.inr ⟨rfl, Nat.lt_succ_self _⟩

/-- Reading on moves the place forward. -/
theorem lt_foldl_advance {chars : List Char} (isNonempty : chars ≠ []) (place : Nat × Nat) :
    toLex place < toLex (chars.foldl advance place) := by
  induction chars generalizing place with
  | nil => exact absurd rfl isNonempty
  | cons c rest inductionHypothesis =>
      cases rest with
      | nil => exact lt_advance place c
      | cons d rest =>
          exact lt_trans (lt_advance place c)
            (inductionHypothesis (List.cons_ne_nil d rest) (advance place c))

/-- The later of two boundaries is shown later. -/
theorem shown_strictMonoOn (text : String) :
    StrictMonoOn (fun offset => (ofOffset text offset).shown)
      {offset | IsBoundary text.toList offset} := by
  intro first isFirst second isSecond less
  rcases IsBoundary.cut isFirst isSecond less.le with ⟨before, cut, after, isText, rfl, length⟩
  have later : second = byteLength (before ++ cut) := by
    rw [byteLength_append]
    omega
  have moved : cut ≠ [] := fun nothing => by
    rw [nothing, byteLength_nil] at length
    omega
  have isLonger : text.toList = (before ++ cut) ++ after := by rw [isText, List.append_assoc]
  subst later
  dsimp only [shown]
  rw [ofOffset_boundary isText, ofOffset_boundary isLonger, List.foldl_append]
  exact lt_foldl_advance moved _

/-- Line, column and line text agree with the text at every offset between
characters and past the end.  Hence no two boundaries are shown alike, and
they are shown in their order. -/
theorem ofOffset_locates (text : String) :
    (forall offset,
      IsBoundary text.toList offset ∨ byteLength text.toList ≤ offset ->
      exists piece, Locates text (min offset (byteLength text.toList)) (ofOffset text offset)
        piece) ∧
    (forall first second, IsBoundary text.toList first -> IsBoundary text.toList second ->
      (first ≠ second -> (ofOffset text first).shown ≠ (ofOffset text second).shown) ∧
      (first < second ↔ (ofOffset text first).shown < (ofOffset text second).shown)) := by
  constructor
  · intro offset placed
    have boundary : IsBoundary text.toList (min offset (byteLength text.toList)) := by
      rcases placed with isBoundary | past
      · rcases isBoundary with ⟨before, after, isText, rfl⟩
        exact ⟨before, after, isText, (Nat.min_eq_left (byteLength_front_le isText)).symm⟩
      · exact ⟨text.toList, [], (List.append_nil _).symm, (Nat.min_eq_right past).symm⟩
    rcases boundary with ⟨before, after, isText, isOffset⟩
    rcases boundary_locates isText with ⟨piece, located⟩
    rw [isOffset, ofOffset_clamped] at located
    exact ⟨piece, located⟩
  · intro first second isFirst isSecond
    have increasing := shown_strictMonoOn text
    exact ⟨fun differ same => differ (increasing.injOn isFirst isSecond same),
      (increasing.lt_iff_lt isFirst isSecond).symm⟩

/-- Behind characters of several bytes, in a text that ends with a newline. -/
theorem multibyte_located :
    ofOffset "é\n€x\n" 6 = ⟨6, 2, 2⟩ ∧
    (exists piece, Locates "é\n€x\n" 6 (ofOffset "é\n€x\n" 6) piece) ∧
    (exists piece, Locates "é\n€x\n" 8 (ofOffset "é\n€x\n" 20) piece) ∧
    (ofOffset "é\n€x\n" 2).shown < (ofOffset "é\n€x\n" 6).shown := by
  have located := ofOffset_locates "é\n€x\n"
  refine ⟨by decide, located.1 6 (Or.inl (by decide)), located.1 20 (Or.inr (by decide)), ?_⟩
  exact ((located.2 2 6 (by decide) (by decide)).2).mp (by decide)

end SourcePosition
end SeedGrammar
