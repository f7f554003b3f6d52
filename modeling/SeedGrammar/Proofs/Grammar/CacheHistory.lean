import Mathlib.Data.List.Dedup
import SeedGrammar.Proofs.Grammar.Requests

namespace SeedGrammar

/-!
# The cache of regular expressions cannot be told from compiling afresh

All grammars share one cache, and it can be asked for regular expressions, cleared
and used for building in any order.  At no time does this make a difference for what
is compiled or built, `PatternCache.after_transparent`.  What the cache holds are the
programs of the sources that it has been asked for since it was cleared last, as far
as these can be read, each once.

An entry is found under the anchored text of its source.  Different sources have
different anchored texts, so there are as many entries as sources.
-/

/-- Something that is done with the cache: asking for a regular expression, clearing,
or building a grammar, of any signature. -/
inductive CacheUse where
  | request (source : String)
  | clear
  | build {L : Signature} (builder : GrammarBuilder L)

namespace CacheUse

/-- The cache after a use. -/
def run (cache : PatternCache) : CacheUse -> PatternCache
  | request source => (cache.getOrCompile source).2
  | clear => .empty
  | build builder => (builder.build cache).2

/-- The sources that have been asked for since the cache was cleared, after a use. -/
def asked (before : List String) : CacheUse -> List String
  | request source => before ++ [source]
  | clear => []
  | build builder => before ++ builder.sources

end CacheUse

namespace PatternCache

/-- The cache after some uses of one that is empty at first. -/
def after (history : List CacheUse) : PatternCache :=
  history.foldl CacheUse.run empty

/-- The sources that some uses have asked for since the cache was cleared last. -/
def askedAfter (history : List CacheUse) : List String :=
  history.foldl CacheUse.asked []

/-- Whether a cache cannot be told from compiling afresh, given the sources that it has
been asked for: it answers with what is compiled, for a source that cannot be read it
neither holds anything nor changes, builds do not depend on it, and it holds a program
for each source that has been asked for and can be read, and nothing else. -/
structure Transparent (cache : PatternCache) (asked : List String) : Prop where
  answers : forall source, (cache.getOrCompile source).1 = Pattern.compile? source
  refuses : forall source, Pattern.compile? source = none ->
    cache.get? (Pattern.anchored source) = none ∧ (cache.getOrCompile source).2 = cache
  builds : forall {L : Signature} (builder : GrammarBuilder L), cache.BuildsAfresh builder
  holds : forall text program, cache.get? text = some program ↔ exists source, source ∈ asked ∧
    Pattern.anchored source = text ∧ Pattern.compile? source = some program
  size : cache.size = (asked.filter fun source => (Pattern.compile? source).isSome).dedup.length

/-! ## Entries -/

/-- Whether a cache has an entry for each source that it has been asked for and that can
be read, and no others. -/
structure Keeps (cache : PatternCache) (asked : List String) : Prop where
  different : (cache.entries.map (·.1)).Nodup
  exactly : forall text program, (text, program) ∈ cache.entries ↔ exists source, source ∈ asked ∧
    Pattern.anchored source = text ∧ Pattern.compile? source = some program

variable {cache : PatternCache} {asked : List String} {source : String}

theorem keeps_empty : empty.Keeps [] where
  different := List.nodup_nil
  exactly text program := by
    constructor
    · intro member
      cases member
    · rintro ⟨source, member, _⟩
      cases member

theorem anchored_injective : Function.Injective Pattern.anchored := by
  intro first second same
  exact (String.append_right_inj _).mp ((String.append_left_inj _).mp same)

/-- What is found is the entry of a key, which there is at most one of. -/
theorem get?_eq_some_iff (different : (cache.entries.map (·.1)).Nodup) {text : String}
    {program : PatternProgram} : cache.get? text = some program ↔ (text, program) ∈ cache.entries := by
  rw [get?, Option.map_eq_some_iff]
  constructor
  · rintro ⟨⟨key, held⟩, found, rfl⟩
    have sameKey := List.find?_some found
    rw [<- beq_iff_eq.mp sameKey]
    exact List.mem_of_find?_eq_some found
  · intro member
    have isFound : (cache.entries.find? (·.1 == text)).isSome :=
      List.find?_isSome.mpr ⟨_, member, beq_self_eq_true text⟩
    rcases Option.isSome_iff_exists.mp isFound with ⟨entry, found⟩
    have sameKey := List.find?_some found
    have isEntry := List.inj_on_of_nodup_map different (List.mem_of_find?_eq_some found) member
      (beq_iff_eq.mp sameKey)
    exact ⟨entry, found, congrArg Prod.snd isEntry⟩

theorem Keeps.sound (keeps : cache.Keeps asked) : cache.Sound := by
  intro source program found
  rcases (keeps.exactly _ _).mp ((get?_eq_some_iff keeps.different).mp found) with
    ⟨other, _, sameText, compiled⟩
  rwa [<- anchored_injective sameText]

/-- What is compiled from one source more. -/
theorem compiled_append {text : String} {program : PatternProgram} :
    (exists other, other ∈ asked ++ [source] ∧ Pattern.anchored other = text ∧
        Pattern.compile? other = some program) ↔
      (exists other, other ∈ asked ∧ Pattern.anchored other = text ∧
          Pattern.compile? other = some program) ∨
        Pattern.anchored source = text ∧ Pattern.compile? source = some program := by
  simp only [List.mem_append, List.mem_singleton, or_and_right, exists_or, exists_eq_left]

/-- A source with nothing to be added leaves the entries right. -/
theorem Keeps.again (keeps : cache.Keeps asked)
    (noMore : forall program, Pattern.compile? source = some program ->
      (Pattern.anchored source, program) ∈ cache.entries) : cache.Keeps (asked ++ [source]) where
  different := keeps.different
  exactly text program := by
    rw [compiled_append, <- keeps.exactly]
    constructor
    · exact Or.inl
    · rintro (isEntry | ⟨rfl, compiled⟩)
      · exact isEntry
      · exact noMore program compiled

/-- A new entry for a source that can be read. -/
theorem Keeps.enter {program : PatternProgram} (keeps : cache.Keeps asked)
    (fresh : cache.get? (Pattern.anchored source) = none)
    (compiled : Pattern.compile? source = some program) :
    Keeps ⟨(Pattern.anchored source, program) :: cache.entries⟩ (asked ++ [source]) where
  different := by
    refine List.nodup_cons.mpr ⟨?_, keeps.different⟩
    intro member
    rcases List.mem_map.mp member with ⟨⟨text, held⟩, isEntry, isText⟩
    have sameText : text = Pattern.anchored source := isText
    rw [<- sameText, (get?_eq_some_iff keeps.different).mpr isEntry] at fresh
    cases fresh
  exactly text other := by
    rw [compiled_append, <- keeps.exactly, List.mem_cons, or_comm, compiled]
    apply or_congr_right
    constructor
    · rintro ⟨⟩
      exact ⟨rfl, rfl⟩
    · rintro ⟨rfl, ⟨⟩⟩
      rfl

/-- Asking for a source enters it, if it can be read and is not held already. -/
theorem Keeps.request (keeps : cache.Keeps asked) (source : String) :
    (cache.getOrCompile source).2.Keeps (asked ++ [source]) := by
  rw [getOrCompile]
  cases held : cache.get? (Pattern.anchored source) with
  | some program =>
      apply keeps.again
      intro program' compiled
      rw [keeps.sound source program held] at compiled
      cases compiled
      exact (get?_eq_some_iff keeps.different).mp held
  | none =>
      cases compiled : Pattern.compile? source with
      | some program => exact keeps.enter held compiled
      | none =>
          apply keeps.again
          intro program compiled'
          rw [compiled] at compiled'
          cases compiled'

theorem Keeps.requested (keeps : cache.Keeps asked) (sources : List String) :
    (cache.requested sources).Keeps (asked ++ sources) := by
  induction sources generalizing cache asked with
  | nil =>
      rw [List.append_nil]
      exact keeps
  | cons source rest inductionHypothesis =>
      have later := inductionHypothesis (keeps.request source)
      rwa [List.append_assoc] at later

/-- There are as many entries as different sources that can be read. -/
theorem Keeps.size_eq (keeps : cache.Keeps asked) : cache.size =
    (asked.filter fun source => (Pattern.compile? source).isSome).dedup.length := by
  have texts : (cache.entries.map (·.1)).Perm
      ((asked.filter fun source => (Pattern.compile? source).isSome).dedup.map Pattern.anchored) := by
    apply (List.perm_ext_iff_of_nodup keeps.different
      ((List.nodup_dedup _).map anchored_injective)).mpr
    intro text
    constructor
    · intro member
      rcases List.mem_map.mp member with ⟨⟨_, program⟩, isEntry, rfl⟩
      rcases (keeps.exactly _ program).mp isEntry with ⟨source, isAsked, isText, compiled⟩
      refine List.mem_map.mpr ⟨source, List.mem_dedup.mpr (List.mem_filter.mpr ⟨isAsked, ?_⟩), isText⟩
      rw [compiled, Option.isSome_some]
    · intro member
      rcases List.mem_map.mp member with ⟨source, isSource, isText⟩
      rcases List.mem_filter.mp (List.mem_dedup.mp isSource) with ⟨isAsked, valid⟩
      rcases Option.isSome_iff_exists.mp valid with ⟨program, compiled⟩
      exact List.mem_map.mpr
        ⟨(text, program), (keeps.exactly _ _).mpr ⟨source, isAsked, isText, compiled⟩, rfl⟩
  have lengths := texts.length_eq
  rwa [List.length_map, List.length_map] at lengths

end PatternCache

/-! ## Histories -/

namespace PatternCache

variable {cache : PatternCache} {asked : List String}

theorem Keeps.use (keeps : cache.Keeps asked) (use : CacheUse) :
    (use.run cache).Keeps (use.asked asked) := by
  cases use with
  | request source => exact keeps.request source
  | clear => exact keeps_empty
  | build builder =>
      have requests := (builder.buildsAfresh keeps.sound).requests
      rw [CacheUse.run, requests]
      exact keeps.requested builder.sources

theorem Keeps.transparent (keeps : cache.Keeps asked) : cache.Transparent asked where
  answers source := (getOrCompile_sound keeps.sound source).1
  refuses _ := getOrCompile_invalid keeps.sound
  builds builder := builder.buildsAfresh keeps.sound
  holds text program := (get?_eq_some_iff keeps.different).trans (keeps.exactly text program)
  size := keeps.size_eq

/-- Whatever the cache has been used for, it cannot be told from compiling afresh. -/
theorem after_transparent (history : List CacheUse) :
    (after history).Transparent (askedAfter history) := by
  suffices keeps : forall cache asked, cache.Keeps asked ->
      (history.foldl CacheUse.run cache).Keeps (history.foldl CacheUse.asked asked) from
    (keeps empty [] keeps_empty).transparent
  induction history with
  | nil => exact fun _ _ keeps => keeps
  | cons use rest inductionHypothesis =>
      exact fun cache asked keeps => inductionHypothesis _ _ (keeps.use use)

example : (after [.request "[0-9]+", .request "[invalid", .request "[0-9]+",
    .request "[a-z]+"]).size = 2 := by
  decide +kernel

end PatternCache
end SeedGrammar
