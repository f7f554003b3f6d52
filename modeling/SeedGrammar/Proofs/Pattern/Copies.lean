import SeedGrammar.Proofs.Pattern.Layout
import SeedGrammar.Proofs.Pattern.Ways

namespace SeedGrammar

/-!
# Copies of a part of a program

Wherever an expression is laid out, the instructions are the same up to the places that
they name: those of the expression itself are shifted, and the successor is put in for
the end, `Pattern.assemble_copies`.  So there is one fragment of an expression, laid out
in front of an end that accepts, and every other layout is a copy of it.

A way from within a copy follows the fragment until it comes to the end of this, and
goes on at the successor, `Copies.comes`.  Conversely a preferred way of the fragment is
one of the copy if the program can come to its end from where it leaves the copy,
`Copies.way`; for what is preferred to it does not even come to the end of the fragment.
-/

/-! ## Renamed places -/

/-- An instruction with other names for the places that it leads to. -/
def Instruction.relocate (rename : Nat -> Nat) : Instruction -> Instruction
  | one set next => one set (rename next)
  | assert assertion next => assert assertion (rename next)
  | mark slot next => mark slot (rename next)
  | split preferred other => split (rename preferred) (rename other)
  | accept => accept

theorem Instruction.onward_relocate (rename : Nat -> Nat) (holds : Assertion -> Bool)
    (instruction : Instruction) :
    (instruction.relocate rename).onward holds = (instruction.onward holds).map rename := by
  cases instruction with
  | assert assertion next =>
      rw [relocate, onward, onward]
      split
      · rfl
      · rfl
  | _ => rfl

theorem Instruction.Confined.onward {places : Nat -> Prop} {instruction : Instruction}
    (confined : instruction.Confined places) {holds : Assertion -> Bool} {next : Nat}
    (member : next ∈ instruction.onward holds) : places next := by
  cases instruction with
  | one set after => cases member
  | assert assertion after =>
      rw [Instruction.onward] at member
      split at member
      · rw [List.mem_singleton.mp member]
        exact confined
      · cases member
  | mark slot after =>
      rw [List.mem_singleton.mp member]
      exact confined.2
  | split preferred other =>
      rcases List.mem_pair.mp member with rfl | rfl
      · exact confined.1
      · exact confined.2
  | accept => cases member

namespace Assembly

/-- Whether a renaming moves all places from the end of one layout on to those from the
end of another on. -/
def Shifts (rename : Nat -> Nat) (before before' : Array Instruction) : Prop :=
  forall count, rename (before.size + count) = before'.size + count

/-- Whether the same has been laid out behind two layouts, up to a renaming. -/
def Appends (rename : Nat -> Nat) (before before' after after' : Array Instruction) : Prop :=
  exists own : List Instruction, after.toList = before.toList ++ own ∧
    after'.toList = before'.toList ++ own.map (·.relocate rename)

/-- Whether a way to lay something out does the same behind all layouts, up to
renaming. -/
def Uniform (layout : Nat -> Assembly Nat) : Prop :=
  forall rename next before before', Shifts rename before before' ->
    ((layout (rename next)).run before').1 = rename ((layout next).run before).1 ∧
      Appends rename before before' ((layout next).run before).2
        ((layout (rename next)).run before').2

variable {rename : Nat -> Nat} {before before' middle middle' after after' : Array Instruction}

theorem Appends.refl (rename : Nat -> Nat) (before before' : Array Instruction) :
    Appends rename before before' before before' :=
  ⟨[], by simp, by simp⟩

theorem Appends.trans (early : Appends rename before before' middle middle')
    (late : Appends rename middle middle' after after') :
    Appends rename before before' after after' := by
  rcases early with ⟨own, isMiddle, isMiddle'⟩
  rcases late with ⟨later, isAfter, isAfter'⟩
  refine ⟨own ++ later, ?_, ?_⟩
  · rw [isAfter, isMiddle, List.append_assoc]
  · rw [isAfter', isMiddle', List.append_assoc, List.map_append]

theorem Shifts.appended (shifts : Shifts rename before before')
    (appends : Appends rename before before' after after') : Shifts rename after after' := by
  rcases appends with ⟨own, isAfter, isAfter'⟩
  intro count
  have size : after.size = before.size + own.length := by
    rw [<- Array.length_toList, isAfter, List.length_append, Array.length_toList]
  have size' : after'.size = before'.size + own.length := by
    rw [<- Array.length_toList, isAfter', List.length_append, List.length_map, Array.length_toList]
  rw [size, size', Nat.add_assoc, shifts, Nat.add_assoc]

theorem Appends.push {instruction instruction' : Instruction}
    (relocates : instruction.relocate rename = instruction') :
    Appends rename before before' (before.push instruction) (before'.push instruction') :=
  ⟨[instruction], by simp, by simp [relocates]⟩

theorem Uniform.emit (make : Nat -> Instruction)
    (relocates : forall rename next, (make next).relocate rename = make (rename next)) :
    Uniform fun next => Assembly.emit (make next) := by
  intro rename next before before' shifts
  exact ⟨(shifts 0).symm, .push (relocates rename next)⟩

theorem Uniform.andThen {early late : Nat -> Assembly Nat} (isEarly : Uniform early)
    (isLate : Uniform late) : Uniform fun next => early next >>= late := by
  intro rename next before before' shifts
  rcases isEarly rename next before before' shifts with ⟨isEntry, appends⟩
  have later := isLate rename ((early next).run before).1 _ _ (shifts.appended appends)
  rw [<- isEntry] at later
  exact ⟨later.1, appends.trans later.2⟩

theorem fork_relocate (greedy : Bool) (again leave : Nat) :
    (fork greedy again leave).relocate rename = fork greedy (rename again) (rename leave) := by
  cases greedy <;> rfl

variable {body : Nat -> Assembly Nat}

theorem exactly_uniform (uniform : Uniform body) (count : Nat) : Uniform (exactly body count) := by
  induction count with
  | zero => exact fun rename next before before' _ => ⟨rfl, .refl ..⟩
  | succ count inductionHypothesis => exact uniform.andThen inductionHypothesis

theorem upTo_uniform (uniform : Uniform body) (greedy : Bool) (count next further : Nat)
    (shifts : Shifts rename before before') :
    ((upTo body greedy (rename next) count (rename further)).run before').1 =
        rename ((upTo body greedy next count further).run before).1 ∧
      Appends rename before before' ((upTo body greedy next count further).run before).2
        ((upTo body greedy (rename next) count (rename further)).run before').2 := by
  induction count generalizing further before before' with
  | zero => exact ⟨rfl, .refl ..⟩
  | succ count inductionHypothesis =>
      rcases uniform rename further before before' shifts with ⟨isAgain, appends⟩
      have shifted := shifts.appended appends
      have pushed : Appends rename ((body further).run before).2
          ((body (rename further)).run before').2
          (((body further).run before).2.push (fork greedy ((body further).run before).1 next))
          (((body (rename further)).run before').2.push
            (fork greedy ((body (rename further)).run before').1 (rename next))) :=
        .push (by rw [fork_relocate, isAgain])
      have later := inductionHypothesis ((body further).run before).2.size (shifted.appended pushed)
      have isChoice := shifted 0
      rw [Nat.add_zero, Nat.add_zero] at isChoice
      rw [isChoice] at later
      exact ⟨later.1, (appends.trans pushed).trans later.2⟩

/-- A loop fills a place that is reserved before what it repeats is laid out. -/
theorem oneOrMore_uniform (uniform : Uniform body) (greedy : Bool) (next : Nat)
    (shifts : Shifts rename before before') :
    let here := (oneOrMore body greedy next).run before
    let there := (oneOrMore body greedy (rename next)).run before'
    there.1 = (rename here.1.1, rename here.1.2) ∧ Appends rename before before' here.2 there.2 := by
  have reserved : Appends rename before before' (before.push .accept) (before'.push .accept) :=
    .push rfl
  have isChoice : rename before.size = before'.size := shifts 0
  rcases uniform rename before.size _ _ (shifts.appended reserved) with ⟨isAgain, own, isAfter, isAfter'⟩
  rw [isChoice] at isAgain isAfter'
  refine ⟨Prod.ext isAgain isChoice.symm, fork greedy ((body before.size).run
    (before.push .accept)).1 next :: own, ?_, ?_⟩
  · change (((body before.size).run (before.push .accept)).2.setIfInBounds before.size
      (fork greedy ((body before.size).run (before.push .accept)).1 next)).toList = _
    rw [Array.toList_setIfInBounds, isAfter]
    simp
  · change (((body before'.size).run (before'.push .accept)).2.setIfInBounds before'.size
      (fork greedy ((body before'.size).run (before'.push .accept)).1 (rename next))).toList = _
    rw [Array.toList_setIfInBounds, isAfter', isAgain, List.map_cons, fork_relocate]
    simp

theorem iterations_uniform (uniform : Uniform body) (consumes : Bool) (bounds : RepeatBounds)
    (greedy : Bool) : Uniform (iterations body consumes bounds greedy) := by
  intro rename next before before' shifts
  rcases bounds with ⟨min, max⟩
  cases max with
  | some max =>
      rcases upTo_uniform uniform greedy (max - min) next next shifts with ⟨isFurther, appends⟩
      have required := exactly_uniform uniform min rename
        ((upTo body greedy next (max - min) next).run before).1 _ _ (shifts.appended appends)
      rw [<- isFurther] at required
      exact ⟨required.1, appends.trans required.2⟩
  | none =>
      rcases oneOrMore_uniform uniform greedy next shifts with ⟨isLoop, appends⟩
      have shifted := shifts.appended appends
      cases min with
      | zero =>
          rw [iterations, iterations, run_bind, run_bind, isLoop]
          cases consumes with
          | true => exact ⟨rfl, appends⟩
          | false =>
              exact ⟨(shifted 0).symm, appends.trans (.push (fork_relocate ..))⟩
      | succ min =>
          rw [iterations, iterations, run_bind, run_bind, isLoop]
          have required := exactly_uniform uniform min rename
            ((oneOrMore body greedy next).run before).1.1 _ _ shifted
          exact ⟨required.1, appends.trans required.2⟩

end Assembly

namespace Pattern

open Assembly

/-- An expression is laid out in the same way everywhere. -/
theorem assemble_uniform (pattern : Pattern) : Uniform pattern.assemble := by
  induction pattern with
  | empty => exact fun rename next before before' _ => ⟨rfl, .refl ..⟩
  | one set => exact .emit (.one set) fun _ _ => rfl
  | assert assertion => exact .emit (.assert assertion) fun _ _ => rfl
  | group index body bodyUniform =>
      exact (Uniform.emit (.mark (2 * index + 1)) fun _ _ => rfl).andThen
        (bodyUniform.andThen (.emit (.mark (2 * index)) fun _ _ => rfl))
  | seq first second firstUniform secondUniform => exact secondUniform.andThen firstUniform
  | alt first second firstUniform secondUniform =>
      intro rename next before before' shifts
      rcases firstUniform rename next before before' shifts with ⟨isFirst, appends⟩
      have shifted := shifts.appended appends
      rcases secondUniform rename next _ _ shifted with ⟨isSecond, appends'⟩
      have splits : Instruction.relocate rename (.split ((first.assemble next).run before).1
          ((second.assemble next).run ((first.assemble next).run before).2).1) = _ :=
        congrArg₂ Instruction.split isFirst.symm isSecond.symm
      exact ⟨((shifted.appended appends') 0).symm, (appends.trans appends').trans (.push splits)⟩
  | times bounds greedy body bodyUniform =>
      exact iterations_uniform bodyUniform body.consumes bounds greedy

end Pattern

/-! ## Fragments -/

/-- What an expression is laid out as in front of an end that accepts.  Its own
instructions lead to each other and to the end. -/
structure Fragment where
  code : Array Instruction
  entry : Nat
  ends : code[0]? = some .accept
  entered : entry < code.size
  inside : forall place instruction, 0 < place -> code[place]? = some instruction ->
    instruction.Confined (· < code.size)

/-- The place of a copy for each place of a fragment: the successor for the end, and the
others from the base of the copy on. -/
def copyPlace (next base : Nat) : Nat -> Nat
  | 0 => next
  | place + 1 => base + place

namespace Fragment

/-- Whether a program has a copy of a fragment, for a successor that comes before it. -/
structure CopiedTo (fragment : Fragment) (whole : Array Instruction) (next base : Nat) : Prop where
  behind : next < base
  own : forall place instruction, fragment.code[place + 1]? = some instruction ->
    whole[base + place]? = some (instruction.relocate (copyPlace next base))

end Fragment

namespace Pattern

open Assembly

/-- The fragment of an expression. -/
def fragment (pattern : Pattern) (numbered : pattern.Numbered) : Fragment :=
  have laid := assemble_laid numbered 0 #[.accept]
  have own : forall place,
      OwnPlace 0 #[.accept] ((pattern.assemble 0).run #[.accept]).2 place ->
        place < ((pattern.assemble 0).run #[.accept]).2.size := by
    have grows : 1 ≤ ((pattern.assemble 0).run #[.accept]).2.size := laid.grows
    rintro place (rfl | inside)
    · exact grows
    · exact inside.2
  { code := ((pattern.assemble 0).run #[.accept]).2
    entry := ((pattern.assemble 0).run #[.accept]).1
    ends := laid.keeps 0 Nat.zero_lt_one
    entered := own _ laid.entry
    inside := fun place instruction beyond found =>
      (laid.inside place instruction beyond found).imp own }

variable {pattern : Pattern} {whole : Array Instruction}

/-- Wherever an expression is laid out there is a copy of its fragment. -/
theorem assemble_copies (numbered : pattern.Numbered) {next : Nat} {before : Array Instruction}
    (behind : next < before.size)
    (keeps : forall place, before.size ≤ place -> place < ((pattern.assemble next).run before).2.size ->
      whole[place]? = ((pattern.assemble next).run before).2[place]?) :
    (pattern.fragment numbered).CopiedTo whole next before.size ∧
      ((pattern.assemble next).run before).1 =
        copyPlace next before.size (pattern.fragment numbered).entry ∧
      ((pattern.assemble next).run before).2.size + 1 =
        before.size + (pattern.fragment numbered).code.size := by
  have shifts : Shifts (copyPlace next before.size) #[.accept] before := by
    intro count
    change copyPlace next before.size (1 + count) = before.size + count
    rw [Nat.add_comm]
    rfl
  rcases pattern.assemble_uniform _ 0 _ _ shifts with ⟨isEntry, own, isCode, isAfter⟩
  have isCode : (pattern.fragment numbered).code.toList = [.accept] ++ own := isCode
  have isAfter : ((pattern.assemble next).run before).2.toList = _ := isAfter
  have size : ((pattern.assemble next).run before).2.size = before.size + own.length := by
    rw [<- Array.length_toList, isAfter, List.length_append, List.length_map, Array.length_toList]
  refine ⟨⟨behind, ?_⟩, isEntry, ?_⟩
  · intro place instruction found
    rw [<- Array.getElem?_toList, isCode, List.singleton_append, List.getElem?_cons_succ] at found
    have inRange := (List.getElem?_eq_some_iff.mp found).1
    rw [keeps _ (by omega) (by omega), <- Array.getElem?_toList, isAfter,
      List.getElem?_append_right (by simp), List.getElem?_map]
    simp [found]
  · have length : (pattern.fragment numbered).code.size = 1 + own.length := by
      rw [<- Array.length_toList, isCode, List.length_append, List.length_singleton]
    omega

end Pattern

namespace Fragment

variable {fragment : Fragment} {whole : Array Instruction} {next base place : Nat}

theorem place_pos {instruction : Instruction} (found : fragment.code[place]? = some instruction)
    (goesOn : instruction ≠ .accept) : 0 < place := by
  apply Nat.pos_of_ne_zero
  rintro rfl
  exact goesOn (Option.some.inj (found.symm.trans fragment.ends))

theorem not_accept (isOwn : 0 < place) : fragment.code[place]? ≠ some .accept :=
  fun found => fragment.inside place .accept isOwn found

/-- A fragment slips from places of its own only, to places of its own or to its end. -/
theorem slips_inside {holds : Assertion -> Bool} {after : Nat}
    (slips : Slips fragment.code holds place after) : 0 < place ∧ after < fragment.code.size := by
  rcases slips with ⟨instruction, found, member⟩
  have isOwn : 0 < place := place_pos found (by rintro rfl; cases member)
  exact ⟨isOwn, (fragment.inside place instruction isOwn found).onward member⟩

namespace CopiedTo

variable (copied : fragment.CopiedTo whole next base)

include copied

theorem copyPlace_injective {place place' : Nat} (same : copyPlace next base place = copyPlace next base place') :
    place = place' := by
  have behind := copied.behind
  cases place with
  | zero =>
      cases place' with
      | zero => rfl
      | succ place' => simp only [copyPlace] at same; omega
  | succ place =>
      cases place' with
      | zero => simp only [copyPlace] at same; omega
      | succ place' => simp only [copyPlace] at same; omega

theorem of_mem_image {passed : Set Nat}
    (member : copyPlace next base place ∈ copyPlace next base '' passed) : place ∈ passed := by
  rcases member with ⟨place', member, same⟩
  exact copied.copyPlace_injective same ▸ member

theorem found {instruction : Instruction} (isOwn : 0 < place)
    (found : fragment.code[place]? = some instruction) :
    whole[copyPlace next base place]? = some (instruction.relocate (copyPlace next base)) := by
  rcases Nat.exists_eq_add_one_of_ne_zero (Nat.ne_of_gt isOwn) with ⟨before, rfl⟩
  exact copied.own before instruction found

/-- What stands at a place of a copy stands in the fragment. -/
theorem of_found {instruction : Instruction} (isOwn : 0 < place) (inRange : place < fragment.code.size)
    (found : whole[copyPlace next base place]? = some instruction) :
    exists original, fragment.code[place]? = some original ∧
      original.relocate (copyPlace next base) = instruction := by
  refine ⟨fragment.code[place], Array.getElem?_eq_getElem inRange, ?_⟩
  have isCopy := copied.found isOwn (Array.getElem?_eq_getElem inRange)
  exact Option.some.inj (isCopy.symm.trans found)

theorem not_accept (isOwn : 0 < place) (inRange : place < fragment.code.size) :
    whole[copyPlace next base place]? ≠ some .accept := by
  intro accepts
  rcases copied.of_found isOwn inRange accepts with ⟨original, found, same⟩
  cases original with
  | accept => exact Fragment.not_accept isOwn found
  | _ => cases same

theorem of_one {set : CharSet} {target : Nat} (isOwn : 0 < place)
    (inRange : place < fragment.code.size)
    (found : whole[copyPlace next base place]? = some (.one set target)) :
    exists after, fragment.code[place]? = some (.one set after) ∧
      target = copyPlace next base after := by
  rcases copied.of_found isOwn inRange found with ⟨original, found', same⟩
  cases original with
  | one set' after =>
      cases same
      exact ⟨after, found', rfl⟩
  | _ => cases same

theorem slips {holds : Assertion -> Bool} {after : Nat}
    (slips : Slips fragment.code holds place after) :
    Slips whole holds (copyPlace next base place) (copyPlace next base after) := by
  rcases slips with ⟨instruction, found, member⟩
  have isOwn := (slips_inside ⟨instruction, found, member⟩).1
  refine ⟨_, copied.found isOwn found, ?_⟩
  rw [Instruction.onward_relocate]
  exact List.mem_map_of_mem member

/-- A copy slips where the fragment does. -/
theorem of_slips {holds : Assertion -> Bool} {target : Nat} (isOwn : 0 < place)
    (inRange : place < fragment.code.size)
    (slips : Slips whole holds (copyPlace next base place) target) :
    exists after, Slips fragment.code holds place after ∧ target = copyPlace next base after := by
  rcases slips with ⟨instruction, found, member⟩
  rcases copied.of_found isOwn inRange found with ⟨original, found', rfl⟩
  rw [Instruction.onward_relocate] at member
  rcases List.mem_map.mp member with ⟨after, isAfter, rfl⟩
  exact ⟨after, ⟨original, found', isAfter⟩, rfl⟩

/-- A way from a copy comes to the end of the fragment, and goes on at the
successor. -/
theorem comes {last spot : Spot} (inRange : place < fragment.code.size)
    (comes : Comes whole last (copyPlace next base place) spot) :
    exists middle, Comes fragment.code middle place spot ∧ Comes whole last next middle := by
  generalize isPlace : copyPlace next base place = target at comes
  induction comes generalizing place with
  | arrives accepts =>
      rcases Nat.eq_zero_or_pos place with rfl | isOwn
      · obtain rfl : next = _ := isPlace
        exact ⟨_, .arrives fragment.ends, .arrives accepts⟩
      · exact absurd (isPlace ▸ accepts) (copied.not_accept isOwn inRange)
  | slips slips comes inductionHypothesis =>
      rcases Nat.eq_zero_or_pos place with rfl | isOwn
      · obtain rfl : next = _ := isPlace
        exact ⟨_, .arrives fragment.ends, .slips slips comes⟩
      · subst isPlace
        rcases copied.of_slips isOwn inRange slips with ⟨after, slips', isAfter⟩
        rcases inductionHypothesis (slips_inside slips').2 isAfter.symm with ⟨middle, comes', leaves⟩
        exact ⟨middle, .slips slips' comes', leaves⟩
  | consumes found inside comes inductionHypothesis =>
      rcases Nat.eq_zero_or_pos place with rfl | isOwn
      · obtain rfl : next = _ := isPlace
        exact ⟨_, .arrives fragment.ends, .consumes found inside comes⟩
      · subst isPlace
        rcases copied.of_one isOwn inRange found with ⟨after, found', isAfter⟩
        have inRange' := fragment.inside place _ isOwn found'
        rcases inductionHypothesis inRange' isAfter.symm with ⟨middle, comes', leaves⟩
        exact ⟨middle, .consumes found' inside comes', leaves⟩

theorem live {spot : Spot} (isOwn : 0 < place) (inRange : place < fragment.code.size)
    (live : Live whole spot (copyPlace next base place)) : Live fragment.code spot place := by
  rcases live with ⟨halts, last, comes⟩
  rcases copied.comes inRange comes with ⟨middle, comes', _⟩
  refine ⟨?_, middle, comes'⟩
  rcases halts with accepts | ⟨set, target, found⟩
  · exact absurd accepts (copied.not_accept isOwn inRange)
  · rcases copied.of_one isOwn inRange found with ⟨after, found', _⟩
    exact Or.inr ⟨set, after, found'⟩

/-- What escapes from a copy, avoiding places of this, escapes from the fragment. -/
theorem escapes {spot : Spot} {passed : Set Nat} (inRange : place < fragment.code.size)
    (notEnd : 0 ∉ passed)
    (escapes : Escapes whole spot (copyPlace next base '' passed) (copyPlace next base place)) :
    Escapes fragment.code spot passed place := by
  have atEnd : Escapes fragment.code spot passed 0 :=
    .stop notEnd ⟨Or.inl fragment.ends, spot, .arrives fragment.ends⟩
  generalize isPlace : copyPlace next base place = target at escapes
  induction escapes generalizing place with
  | stop isNew live =>
      subst isPlace
      rcases Nat.eq_zero_or_pos place with rfl | isOwn
      · exact atEnd
      · exact .stop (fun old => isNew (Set.mem_image_of_mem _ old)) (copied.live isOwn inRange live)
  | slip isNew slips _ inductionHypothesis =>
      subst isPlace
      rcases Nat.eq_zero_or_pos place with rfl | isOwn
      · exact atEnd
      · rcases copied.of_slips isOwn inRange slips with ⟨after, slips', isAfter⟩
        exact .slip (fun old => isNew (Set.mem_image_of_mem _ old)) slips'
          (inductionHypothesis (slips_inside slips').2 isAfter.symm)

/-- A preferred way to a place of the fragment is one of the copy, if it is one where it
ends, whatever has been passed on the way. -/
theorem leads {spot : Spot} {passed : Set Nat} {stop target : Nat}
    (leads : Leads fragment.code spot passed place stop) (notEnd : 0 ∉ passed)
    (isWay : forall passing, passing ∈ passed ->
      Relation.ReflTransGen (Slips fragment.code spot.holds) passing place)
    (finish : forall passed', 0 ∉ passed' -> stop ∉ passed' ->
      (forall passing, passing ∈ passed' ->
        Relation.ReflTransGen (Slips fragment.code spot.holds) passing stop) ->
      Leads whole spot (copyPlace next base '' passed') (copyPlace next base stop) target) :
    Leads whole spot (copyPlace next base '' passed) (copyPlace next base place) target := by
  induction leads with
  | stop isNew _ => exact finish _ notEnd isNew isWay
  | @step passed place instruction preferred after others stop isNew found onward blocked _
      inductionHypothesis =>
      have slips := Leads.slips found onward
      have isOwn := (slips_inside slips).1
      have notEnd' : 0 ∉ insert place passed := by
        rintro (isPlace | old)
        · exact Nat.ne_of_gt isOwn isPlace.symm
        · exact notEnd old
      have isWay' : forall passing, passing ∈ insert place passed ->
          Relation.ReflTransGen (Slips fragment.code spot.holds) passing after := by
        rintro passing (rfl | old)
        · exact .single slips
        · exact (isWay passing old).tail slips
      have onward' : (instruction.relocate (copyPlace next base)).onward spot.holds =
          preferred.map (copyPlace next base) ++ copyPlace next base after ::
            others.map (copyPlace next base) := by
        rw [Instruction.onward_relocate, onward, List.map_append, List.map_cons]
      refine .step (fun old => isNew (copied.of_mem_image old)) (copied.found isOwn found) onward' ?_ ?_
      · intro other member escapes
        rcases List.mem_map.mp member with ⟨original, isPreferred, rfl⟩
        have inRange := (slips_inside ⟨instruction, found, onward ▸
          List.mem_append_left _ isPreferred⟩).2
        rw [<- Set.image_insert_eq] at escapes
        exact blocked original isPreferred (copied.escapes inRange notEnd' escapes)
      · rw [<- Set.image_insert_eq]
        exact inductionHypothesis notEnd' isWay' finish

/-- A preferred way of the fragment is one of the copy, followed by the preferred way
from the successor, if the successor does not lead back to where the fragment came
through at the end. -/
theorem way {last middle spot : Spot} (way : Way fragment.code middle place spot)
    (leaves : Way whole last next middle)
    (apart : forall passing, 0 < passing ->
      Relation.ReflTransGen (Slips fragment.code middle.holds) passing 0 ->
      ¬Relation.ReflTransGen (Slips whole middle.holds) next (copyPlace next base passing)) :
    Way whole last (copyPlace next base place) spot := by
  induction way with
  | @arrives place stop leads accepts =>
      have isEnd : stop = 0 := Nat.eq_zero_of_not_pos fun isOwn => Fragment.not_accept isOwn accepts
      subst isEnd
      rcases leaves.ready with ⟨target, leads', ready⟩
      apply ready.way
      rw [<- Set.image_empty (copyPlace next base)]
      apply copied.leads leads (Set.notMem_empty _) (fun _ none => none.elim)
      intro passed notEnd _ isWay
      rw [<- Set.empty_union (copyPlace next base '' passed)]
      apply leads'.more
      rintro reached reaches ⟨passing, member, rfl⟩
      have isOwn : 0 < passing := Nat.pos_of_ne_zero fun isEnd => notEnd (isEnd ▸ member)
      exact apart passing isOwn (isWay passing member) reaches
  | consumes leads found inside _ inductionHypothesis =>
      have isOwn := place_pos found (by rintro ⟨⟩)
      have found' := copied.found isOwn found
      have further := inductionHypothesis
      refine .consumes ?_ found' inside further
      rw [<- Set.image_empty (copyPlace next base)]
      apply copied.leads leads (Set.notMem_empty _) (fun _ none => none.elim)
      intro passed _ isNew _
      exact .stop (fun old => isNew (copied.of_mem_image old))
        ⟨Or.inr ⟨_, _, found'⟩, last, .consumes found' inside further.comes⟩

/-- From a copy the program slips to places of the copy, unless the fragment slips to its
end. -/
theorem slips_within {holds : Assertion -> Bool} {target : Nat}
    (notThrough : ¬Relation.ReflTransGen (Slips fragment.code holds) place 0)
    (inRange : place < fragment.code.size)
    (reaches : Relation.ReflTransGen (Slips whole holds) (copyPlace next base place) target) :
    exists reached, Relation.ReflTransGen (Slips fragment.code holds) place reached ∧
      0 < reached ∧ reached < fragment.code.size ∧ target = copyPlace next base reached := by
  have isOwn : forall {reached : Nat},
      Relation.ReflTransGen (Slips fragment.code holds) place reached -> 0 < reached :=
    fun reaches => Nat.pos_of_ne_zero fun isEnd => notThrough (isEnd ▸ reaches)
  induction reaches with
  | refl => exact ⟨place, .refl, isOwn .refl, inRange, rfl⟩
  | tail _ slips inductionHypothesis =>
      rcases inductionHypothesis with ⟨reached, reaches, positive, inRange', rfl⟩
      rcases copied.of_slips positive inRange' slips with ⟨after, slips', rfl⟩
      have reaches' := reaches.tail slips'
      exact ⟨after, reaches', isOwn reaches', (slips_inside slips').2, rfl⟩

end CopiedTo
end Fragment
end SeedGrammar
