import Mathlib.Data.List.Forall2
import SeedGrammar.Error.Record
import SeedGrammar.Proofs.Json.Written

namespace SeedGrammar
namespace ParseError

open Json

/-!
# Failures survive JSON

Which values record a failure is said by `Records`: the list of the four
parts, or an object whose keys have texts, with the position under exactly one
key and each of the other parts under exactly one key or none.  The reader
accepts these and no others, `ofRecord?_iff`.

A failure whose position and node are machine words is written as an object
of the second kind, so it is read back.  The words that a reader accepts are
such words.  Hence whatever was read can be written and read again, however
liberal the first text was.
-/

/-! ## Values that record a failure -/

section Parts

variable {α : Type} {read : Json -> Option α}

/-- A value is null for an absent part, and otherwise read as the part. -/
inductive Gives (read : Json -> Option α) : Json -> Option α -> Prop
  | absent : Gives read .null none
  | present {value : Json} {part : α} (isRead : read value = some part) :
      Gives read value (some part)

theorem nullable?_iff (notNull : read .null = none) {value : Json} {part : Option α} :
    nullable? read value = some part <-> Gives read value part := by
  constructor
  · intro isPart
    rw [nullable?.eq_def] at isPart
    split at isPart
    · cases isPart
      exact .absent
    · rcases Option.map_eq_some_iff.mp isPart with ⟨given, isRead, rfl⟩
      exact .present isRead
  · rintro (_ | isRead)
    · rfl
    · rw [nullable?, isRead]
      · rfl
      · rintro rfl
        rw [notNull] at isRead
        cases isRead

end Parts

/-- Four values give the parts of a failure. -/
structure Parts (position node message payload : Json) (error : ParseError String) : Prop where
  position : word? position = some error.position
  node : Gives word? node error.node
  message : Gives string? message error.message
  payload : Gives string? payload error.payload

theorem ofParts?_iff {position node message payload : Json} {error : ParseError String} :
    ofParts? position node message payload = some error <->
      Parts position node message payload error := by
  have words := @nullable?_iff Nat word? rfl
  have texts := @nullable?_iff String string? rfl
  simp only [ofParts?, Option.bind_eq_bind, Option.bind_eq_some_iff, words, texts]
  constructor
  · rintro ⟨_, isPosition, _, isNode, _, isMessage, _, isPayload, same⟩
    cases same
    exact ⟨isPosition, isNode, isMessage, isPayload⟩
  · intro parts
    exact ⟨_, parts.position, _, parts.node, _, parts.message, _, parts.payload, rfl⟩

section Members

variable {keyed : List (String × Json)} {key : String} {value : Json}

/-- A value is the only one under a key. -/
def Only (keyed : List (String × Json)) (key : String) (value : Json) : Prop :=
  exists before after, keyed = before ++ (key, value) :: after ∧
    forall member, member ∈ before ++ after -> member.1 ≠ key

/-- Nothing is under a key. -/
def Lacks (keyed : List (String × Json)) (key : String) : Prop :=
  forall member, member ∈ keyed -> member.1 ≠ key

theorem filter_eq_nil_iff : keyed.filter (·.1 == key) = [] <-> Lacks keyed key := by
  simp [List.filter_eq_nil_iff, Lacks]

theorem filter_eq_singleton_iff :
    keyed.filter (·.1 == key) = [(key, value)] <-> Only keyed key value := by
  simp only [List.filter_eq_cons_iff, filter_eq_nil_iff, Only, List.forall_mem_append, Lacks,
    beq_iff_eq, true_and]

theorem part?_iff {absent : Option Json} :
    part? keyed key absent = some value <->
      Only keyed key value ∨ Lacks keyed key ∧ absent = some value := by
  constructor
  · intro isPart
    rw [part?] at isPart
    split at isPart
    next isEmpty => exact Or.inr ⟨filter_eq_nil_iff.mp isEmpty, isPart⟩
    next name given isSingle =>
      cases isPart
      have member : (name, value) ∈ keyed.filter (·.1 == key) := by simp [isSingle]
      have sameName : name = key := beq_iff_eq.mp (List.mem_filter.mp member).2
      exact Or.inl (filter_eq_singleton_iff.mp (sameName ▸ isSingle))
    next => cases isPart
  · rintro (isOnly | ⟨isMissing, isAbsent⟩)
    · rw [part?, filter_eq_singleton_iff.mpr isOnly]
    · rw [part?, filter_eq_nil_iff.mpr isMissing, isAbsent]

/-- An optional part that is missing counts as null. -/
def OnlyOrNull (keyed : List (String × Json)) (key : String) (value : Json) : Prop :=
  Only keyed key value ∨ Lacks keyed key ∧ value = .null

theorem requiredPart_iff : part? keyed key none = some value <-> Only keyed key value := by
  simp [part?_iff]

theorem optionalPart_iff :
    part? keyed key (some .null) = some value <-> OnlyOrNull keyed key value := by
  simp only [part?_iff, OnlyOrNull, Option.some_inj, @eq_comm Json .null]

end Members

/-- Members are named by the texts of their keys. -/
def Named (members : List (List JsonUnit × Json)) (keyed : List (String × Json)) : Prop :=
  List.Forall₂ (fun member named => text? member.1 = some named.1 ∧ member.2 = named.2)
    members keyed

theorem keyedMembers?_iff {members : List (List JsonUnit × Json)}
    {keyed : List (String × Json)} :
    keyedMembers? members = some keyed <-> Named members keyed := by
  induction members generalizing keyed with
  | nil =>
      rw [Named, List.forall₂_nil_left_iff, keyedMembers?, Option.some_inj]
      exact eq_comm
  | cons member members inductionHypothesis =>
      rcases member with ⟨units, value⟩
      rw [keyedMembers?, Named, List.forall₂_cons_left_iff]
      constructor
      · intro areKeyed
        split at areKeyed
        next name others isName areOthers =>
          cases areKeyed
          exact ⟨_, others, ⟨isName, rfl⟩, inductionHypothesis.mp areOthers, rfl⟩
        next => cases areKeyed
      · rintro ⟨⟨name, _⟩, others, ⟨isName, rfl⟩, named, rfl⟩
        rw [isName, inductionHypothesis.mpr named]

/-- A value records a failure as the list of its parts, or as an object that has
them under their names in any order, with null for a part that is missing. -/
inductive Records : Json -> ParseError String -> Prop
  | list {position node message payload : Json} {error : ParseError String}
      (parts : Parts position node message payload error) :
      Records (.array [position, node, message, payload]) error
  | object {members : List (List JsonUnit × Json)} {keyed : List (String × Json)}
      {position node message payload : Json} {error : ParseError String}
      (named : Named members keyed) (hasPosition : Only keyed "position" position)
      (mayHaveNode : OnlyOrNull keyed "parser" node)
      (mayHaveMessage : OnlyOrNull keyed "message" message)
      (mayHavePayload : OnlyOrNull keyed "user_error" payload)
      (parts : Parts position node message payload error) :
      Records (.object members) error

theorem ofRecord?_iff {value : Json} {error : ParseError String} :
    ofRecord? value = some error <-> Records value error := by
  constructor
  · intro isRecord
    rw [ofRecord?.eq_def] at isRecord
    split at isRecord
    next => exact .list (ofParts?_iff.mp isRecord)
    next members =>
      simp only [Option.bind_eq_bind, Option.bind_eq_some_iff, keyedMembers?_iff,
        requiredPart_iff, optionalPart_iff, ofParts?_iff] at isRecord
      rcases isRecord with ⟨keyed, named, position, hasPosition, node, mayHaveNode, message,
        mayHaveMessage, payload, mayHavePayload, parts⟩
      exact .object named hasPosition mayHaveNode mayHaveMessage mayHavePayload parts
    next => cases isRecord
  · rintro (parts | ⟨named, hasPosition, mayHaveNode, mayHaveMessage, mayHavePayload, parts⟩)
    · exact ofParts?_iff.mpr parts
    · simp only [ofRecord?, Option.bind_eq_bind, keyedMembers?_iff.mpr named,
        requiredPart_iff.mpr hasPosition, optionalPart_iff.mpr mayHaveNode,
        optionalPart_iff.mpr mayHaveMessage, optionalPart_iff.mpr mayHavePayload,
        Option.bind_some, ofParts?_iff.mpr parts]

/-! ## What is written -/

/-- The numbers in a failure are machine words. -/
structure OfWords (error : ParseError String) : Prop where
  position : error.position < wordCount
  node : forall id, error.node = some id -> id < wordCount

theorem word?_digits {n : Nat} (isWord : n < wordCount) :
    word? (.number (Nat.toDigits 10 n)) = some n := by
  simp [word?, Text.ofDecimal?_toDigits, isWord]

theorem lt_of_word? {value : Json} {n : Nat} (isRead : word? value = some n) :
    n < wordCount := by
  rw [word?.eq_def] at isRead
  split at isRead
  · split at isRead
    · split at isRead
      · next less =>
          cases isRead
          exact less
      · cases isRead
    · cases isRead
  · cases isRead

theorem Records.ofWords {value : Json} {error : ParseError String}
    (records : Records value error) : error.OfWords := by
  have ofParts : forall {position node message payload : Json},
      Parts position node message payload error -> error.OfWords := by
    intro position node message payload parts
    refine ⟨lt_of_word? parts.position, ?_⟩
    have given := parts.node
    intro id isNode
    rw [isNode] at given
    cases given with
    | present isRead => exact lt_of_word? isRead
  cases records with
  | list parts => exact ofParts parts
  | object _ _ _ _ _ parts => exact ofParts parts

/-- A part that may be absent is written as a value that gives it. -/
theorem optionText_written {α : Type} {read : Json -> Option α} {write : α -> String}
    (part : Option α) (writes : forall a, part = some a ->
      exists value, Written (write a).toList value ∧ read value = some a) :
    exists value, Written (optionText write part).toList value ∧ Gives read value part := by
  cases part with
  | none => exact ⟨.null, null_written, .absent⟩
  | some a =>
      rcases writes a rfl with ⟨value, written, isRead⟩
      exact ⟨value, written, .present isRead⟩

theorem toList_toJson (error : ParseError String) :
    (error.toJson stringText).toList =
      '{' :: memberText "position".toList (Text.decimal error.position).toList
        (',' :: memberText "parser".toList (optionText Text.decimal error.node).toList
          (',' :: memberText "message".toList (optionText stringText error.message).toList
            (',' :: memberText "user_error".toList
              (optionText stringText error.payload).toList ['}']))) := by
  have position : "\x7b\"position\":".toList = '{' :: '"' :: ("position".toList ++ ['"', ':']) := by
    decide
  have node : ",\"parser\":".toList = ',' :: '"' :: ("parser".toList ++ ['"', ':']) := by
    decide
  have message : ",\"message\":".toList = ',' :: '"' :: ("message".toList ++ ['"', ':']) := by
    decide
  have payload :
      ",\"user_error\":".toList = ',' :: '"' :: ("user_error".toList ++ ['"', ':']) := by
    decide
  have closing : "\x7d".toList = ['}'] := by decide
  unfold toJson memberText
  simp only [String.toList_append, position, node, message, payload, closing, List.append_assoc,
    List.cons_append, List.nil_append]

/-- The object that is written for four values. -/
def fullRecord (position node message payload : Json) : Json :=
  .object [("position".toList.map .char, position), ("parser".toList.map .char, node),
    ("message".toList.map .char, message), ("user_error".toList.map .char, payload)]

section Values

variable {error : ParseError String} {position node message payload : Json}

theorem fullRecord_records (parts : Parts position node message payload error) :
    Records (fullRecord position node message payload) error := by
  have named : Named
      [("position".toList.map .char, position), ("parser".toList.map .char, node),
        ("message".toList.map .char, message), ("user_error".toList.map .char, payload)]
      [("position", position), ("parser", node), ("message", message), ("user_error", payload)] :=
    .cons ⟨text?_key "position", rfl⟩ (.cons ⟨text?_key "parser", rfl⟩
      (.cons ⟨text?_key "message", rfl⟩ (.cons ⟨text?_key "user_error", rfl⟩ .nil)))
  refine .object named ?_ (Or.inl ?_) (Or.inl ?_) (Or.inl ?_) parts
  · exact ⟨[], _, rfl, by simp⟩
  · exact ⟨[_], _, rfl, by simp⟩
  · exact ⟨[_, _], _, rfl, by simp⟩
  · exact ⟨[_, _, _], [], rfl, by simp⟩

theorem ofText?_toJson
    (isPosition : Written (Text.decimal error.position).toList position)
    (isNode : Written (optionText Text.decimal error.node).toList node)
    (isMessage : Written (optionText stringText error.message).toList message)
    (isPayload : Written (optionText stringText error.payload).toList payload) :
    ofText? (error.toJson stringText) = some (fullRecord position node message payload) := by
  have isText := toList_toJson error
  -- Five rounds of reading suffice, one for the object and one for each member.
  have longEnough : 5 ≤ (error.toJson stringText).toList.length := by
    rw [isText]
    simp [memberText]
  rcases Nat.exists_eq_add_of_le' longEnough with ⟨fuel, isFuel⟩
  have isBlank (chars : List Char) : skipBlank ('{' :: chars) = '{' :: chars := rfl
  unfold ofText?
  dsimp only
  rw [isFuel, isText, isBlank, readValue_object, readMembers_more (by decide) isPosition,
    readMembers_more (by decide) isNode, readMembers_more (by decide) isMessage,
    readMembers_last (by decide) isPayload]
  rfl

end Values

/-- The text of a failure holds an object that records it. -/
theorem toJson_records {error : ParseError String} (ofWords : error.OfWords) :
    exists value, ofText? (error.toJson stringText) = some value ∧ Records value error := by
  have words {n : Nat} (isWord : n < wordCount) :
      exists value, Written (Text.decimal n).toList value ∧ word? value = some n :=
    ⟨_, decimal_written n, word?_digits isWord⟩
  have texts (text : String) :
      exists value, Written (stringText text).toList value ∧ string? value = some text := by
    rcases string_written text with ⟨units, isText, written⟩
    exact ⟨_, written, isText⟩
  rcases words ofWords.position with ⟨position, isPosition, givesPosition⟩
  rcases optionText_written error.node fun id isId => words (ofWords.node id isId) with
    ⟨node, isNode, givesNode⟩
  rcases optionText_written error.message fun text _ => texts text with
    ⟨message, isMessage, givesMessage⟩
  rcases optionText_written error.payload fun text _ => texts text with
    ⟨payload, isPayload, givesPayload⟩
  exact ⟨_, ofText?_toJson isPosition isNode isMessage isPayload,
    fullRecord_records ⟨givesPosition, givesNode, givesMessage, givesPayload⟩⟩

/-- Failures survive JSON.  What is written for a failure whose numbers are words is read
back; accepted are the texts of values that record a failure, and no others; and what was
read from any of them is read again when it is written. -/
theorem json_roundTrip :
    (forall error : ParseError String, error.OfWords ->
      ofJson? (error.toJson stringText) = some error) ∧
    (forall text (error : ParseError String), ofJson? text = some error <->
      exists value, ofText? text = some value ∧ Records value error) ∧
    (forall text (error : ParseError String), ofJson? text = some error ->
      ofJson? (error.toJson stringText) = some error) := by
  have accepted (text : String) (error : ParseError String) : ofJson? text = some error <->
      exists value, ofText? text = some value ∧ Records value error := by
    simp only [ofJson?, Option.bind_eq_some_iff, ofRecord?_iff]
  have readBack (error : ParseError String) (ofWords : error.OfWords) :
      ofJson? (error.toJson stringText) = some error :=
    (accepted _ error).mpr (toJson_records ofWords)
  refine ⟨readBack, accepted, fun text error isRead => ?_⟩
  rcases (accepted text error).mp isRead with ⟨value, _, records⟩
  exact readBack error records.ofWords

/-- A failure with the last word and with quotes, backslashes and controls in its texts, and a
text with its members out of order, one of them unknown and two missing. -/
theorem awkward_read_back :
    ofJson? (toJson stringText ⟨18446744073709551615, some 3, some "\"\\\x01é\n", some ""⟩) =
      some ⟨18446744073709551615, some 3, some "\"\\\x01é\n", some ""⟩ ∧
    ofJson? "\x7b\"user_error\":\"\\u0000\\/\", \"note\":[1e5,\x7b\x7d],\"position\":7\x7d" =
      some ⟨7, none, none, some "\x00/"⟩ ∧
    ofJson? (toJson stringText ⟨7, none, none, some "\x00/"⟩) =
      some ⟨7, none, none, some "\x00/"⟩ := by
  have liberal : ofJson?
      "\x7b\"user_error\":\"\\u0000\\/\", \"note\":[1e5,\x7b\x7d],\"position\":7\x7d" =
        some ⟨7, none, none, some "\x00/"⟩ := by
    decide +kernel
  refine ⟨json_roundTrip.1 _ ⟨by decide, ?_⟩, liberal, json_roundTrip.2.2 _ _ liberal⟩
  intro id isNode
  cases isNode
  decide

end ParseError
end SeedGrammar
