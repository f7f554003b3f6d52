import SeedGrammar.Pattern.ByteClass
import Std.Data.TreeMap

namespace SeedGrammar

/-!
# The size of an automaton over bytes

A regular expression is accepted only if the automaton that reads it byte by
byte fits into a limited memory.  The automaton itself is not needed, only
its size, so laying it out is counting its nodes and the memory that they
take.

Within a class of characters equal nodes are shared.  What may be shared is
remembered in the slot that its content selects, and displaced by the next
node of that slot.  The content includes the numbers of other nodes, so the
count of nodes is also the source of their numbers.
-/

/-- The ways out of a node that reads a byte, each with the number of the
node that it leads to. -/
abbrev ByteWays := List (Text.ByteRange × Nat)

/-- An automaton as far as it has been laid out: the number of its nodes, the
bytes of memory that they take, and the nodes that may be shared, by slot. -/
structure AutomatonSize where
  nodes : Nat
  memory : Nat
  shared : Std.TreeMap Nat (ByteWays × Nat)

/-- Laying out a part of an automaton, as long as the memory suffices. -/
abbrev AutomatonLayout := StateT AutomatonSize Option

/-- Where a part of an automaton ends: at a node with one way to go on, or
at a choice that is open to further ways. -/
inductive AutomatonEnd where
  | single
  | choice
deriving DecidableEq, Repr

/-- The direction in which an automaton reads. -/
inductive ReadingDirection where
  | forward
  | backward
deriving DecidableEq, Repr

namespace AutomatonSize

/-- An automaton of which nothing has been laid out. -/
def initial : AutomatonSize := ⟨0, 0, ∅⟩

/-- The memory that an automaton may take: ten binary megabytes. -/
def memoryLimit : Nat := 0xA00000

/-- The memory of a node apart from its ways. -/
def nodeMemory : Nat := 32

/-- The memory of a way that is taken by reading a byte. -/
def byteWayMemory : Nat := 8

/-- The memory of a way that is taken without reading. -/
def freeWayMemory : Nat := 4

end AutomatonSize

namespace AutomatonLayout

open AutomatonSize

/-- Take memory. -/
def take (memory : Nat) : AutomatonLayout Unit := fun size =>
  if size.memory + memory ≤ memoryLimit then
    some ((), { size with memory := size.memory + memory })
  else none

/-- Lay out a node whose ways take some memory, and give its number. -/
def node (wayMemory : Nat) : AutomatonLayout Nat := fun size =>
  let memory := size.memory + nodeMemory + wayMemory
  if memory ≤ memoryLimit then
    some (size.nodes, { size with nodes := size.nodes + 1, memory := memory })
  else none

/-- A node with one way. -/
def step : AutomatonLayout Nat := node 0

/-- A number of nodes with one way each. -/
def steps : Nat -> AutomatonLayout Unit
  | 0 => pure ()
  | count + 1 => do
    let _ ← step
    steps count

/-- A node that goes on by the byte that it reads. -/
def byteChoice (ways : Nat) : AutomatonLayout Nat :=
  node (ways * byteWayMemory)

/-- A node that goes on without reading. -/
def freeChoice (ways : Nat) : AutomatonLayout Nat :=
  node (ways * freeWayMemory)

/-- Go on from an end.  Only a choice keeps a list of its ways. -/
def goOn : AutomatonEnd -> AutomatonLayout Unit
  | .single => pure ()
  | .choice => take freeWayMemory

/-- Stop sharing the nodes laid out so far. -/
def forget : AutomatonLayout Unit :=
  modify fun size => { size with shared := ∅ }

/-- The node with the given ways: the one that its slot remembers, or else
a new one. -/
def share (slot : Nat) (ways : ByteWays) (new : AutomatonLayout Nat) : AutomatonLayout Nat := do
  match ((← get).shared.get? slot).filter (·.1 == ways) with
  | some (_, place) => return place
  | none =>
    let place ← new
    modify fun size => { size with shared := size.shared.insert slot (ways, place) }
    return place

/-- Mix a value into the number that selects a slot. -/
def mix (mixed value : UInt64) : UInt64 :=
  (mixed ^^^ value) * 1099511628211

/-- The number that values select a slot by. -/
def mixed (values : List UInt64) : Nat :=
  (values.foldl mix 14695981039346656037).toNat

/-- The slot of a node with several ways. -/
def waysSlot (ways : ByteWays) : Nat :=
  mixed (ways.flatMap fun (range, next) =>
    [range.1.toUInt64, range.2.toUInt64, next.toUInt64]) % 10000

/-- The slot of a node with one way. -/
def waySlot (range : Text.ByteRange) (next : Nat) : Nat :=
  mixed [next.toUInt64, range.1.toUInt64, range.2.toUInt64] % 1000

/-- A node that reads a byte in some ways. -/
def shareWays (ways : ByteWays) : AutomatonLayout Nat :=
  share (waysSlot ways) ways (byteChoice ways.length)

/-- Lay out what lies below the ways of a tree, whose sequences all lead to
one node, and give the ways. -/
def treeWays (last : Nat) : ByteTree -> AutomatonLayout ByteWays
  | .nil => pure []
  | .way range below beside => do
    let waysBelow ← treeWays last below
    let next ← if waysBelow.isEmpty then pure last else shareWays waysBelow
    let waysBeside ← treeWays last beside
    return (range, next) :: waysBeside

/-- Lay out a sequence that is read from its end, in front of a node, and
give the number of its first node. -/
def backwardSequence (last : Nat) : List Text.ByteRange -> AutomatonLayout Nat
  | [] => pure last
  | range :: rest => do
    let place ← share (waySlot range last) [(range, last)] step
    backwardSequence place rest

/-- Lay out a class.  Single bytes are one choice.  Longer sequences form a
tree when they are read forward; backward each is a way of its own, except
for what it ends with in common with others. -/
def ofClass (direction : ReadingDirection) (cls : ByteClass) : AutomatonLayout AutomatonEnd := do
  if cls.isAscii then
    let _ ← step
    let _ ← byteChoice cls.sequences.length
  else
    forget
    match direction with
    | .forward =>
      let last ← step
      let _ ← shareWays (← treeWays last cls.tree)
    | .backward =>
      let _ ← freeChoice cls.sequences.length
      let last ← step
      cls.sequences.forM fun sequence => do
        let _ ← backwardSequence last sequence
  return .single

end AutomatonLayout
end SeedGrammar
