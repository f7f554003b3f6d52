import SeedGrammar.Clause

namespace SeedGrammar

/-!
# The state of a parse

A parse moves a position through the input and threads the state of the
grammar's author along.  A snapshot of the two can be restored.  The range
of the latest match that a function was applied to is kept for the next
function, and the seeds of left recursion for the rest of the parse; neither
is part of a snapshot.
-/

/-- The best match of a left-recursive node at some position so far: where it
ends, the state there, and what it came to. -/
structure Seed (L : Signature) where
  position : Nat
  state : L.State
  outcome : Outcome L

/-- The seeds of a parse, each under its node and the position where the node
started. -/
structure SeedTable (L : Signature) where
  entries : List ((NodeId × Nat) × Seed L)

namespace SeedTable

variable {L : Signature}

/-- The table without seeds. -/
def empty : SeedTable L := ⟨[]⟩

/-- The seed of a node at a position. -/
def get? (table : SeedTable L) (id : NodeId) (start : Nat) : Option (Seed L) :=
  (table.entries.find? (·.1 == (id, start))).map (·.2)

/-- Add a seed, or replace the one that is there. -/
def set (table : SeedTable L) (id : NodeId) (start : Nat) (seed : Seed L) : SeedTable L :=
  ⟨((id, start), seed) :: table.entries.filter (·.1 != (id, start))⟩

@[simp] theorem get?_empty (id : NodeId) (start : Nat) :
    (empty : SeedTable L).get? id start = none := rfl

theorem get?_set_self (table : SeedTable L) (id : NodeId) (start : Nat) (seed : Seed L) :
    (table.set id start seed).get? id start = some seed := by
  simp [set, get?]

theorem get?_set_of_ne (table : SeedTable L) {id other : NodeId} {start place : Nat}
    (seed : Seed L) (different : (other, place) ≠ (id, start)) :
    (table.set id start seed).get? other place = table.get? other place := by
  have unlike : ((id, start) == (other, place)) = false := by
    simpa using fun sameId => fun samePlace => different (by rw [sameId, samePlace])
  simp only [set, get?, List.find?_cons, unlike, List.find?_filter]
  congr 2
  funext entry
  by_cases here : entry.1 = (other, place)
  · simp [here, different]
  · simp [here]

end SeedTable

/-- Position, state, latest range and seeds. -/
structure Context (L : Signature) where
  position : Nat
  state : L.State
  range : Nat × Nat
  seeds : SeedTable L

/-- A position with the state there. -/
structure Snapshot (L : Signature) where
  position : Nat
  state : L.State

namespace Context

variable {L : Signature}

/-- The context at the start of a parse. -/
def start (state : L.State) : Context L :=
  ⟨0, state, (0, 0), SeedTable.empty⟩

/-- Position and state, to be restored later. -/
def snapshot (context : Context L) : Snapshot L :=
  ⟨context.position, context.state⟩

/-- Go back to an earlier position and state. -/
def restore (context : Context L) (snapshot : Snapshot L) : Context L :=
  { context with position := snapshot.position, state := snapshot.state }

/-- What a function sees of the latest match. -/
def token (context : Context L) (input : L.Input) (node : NodeId) : Token L :=
  ⟨input, context.range, context.state, node⟩

end Context
end SeedGrammar
