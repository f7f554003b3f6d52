import SeedGrammar.Engine.Context

namespace SeedGrammar

/-!
# Replies of the engine

To reason about a run it is convenient to have the limit on nesting end it in
a way of its own.  So running something for an answer of type `α` ends in one
of four ways.  It may finish with an answer, which for a node is a value or a
failure that the nodes around it can react to.  It may trip the limit on
nesting, with the error and the context of that moment.  It may meet a fault,
or use up the steps it was given.

Only a finished run is continued, so the other three pass through every
combination of runs unchanged.  For the limit that is a claim about the engine
as it runs, which has no such ending: `Machine.parseNode_mirrors` shows that
nothing in it reacts to the limit either.
-/

/-- How a run for an answer of type `α` ends. -/
inductive Reply (L : Signature) (α : Type) where
  | finished (answer : α) (context : Context L)
  | halted (error : ParseError L.Payload) (context : Context L)
  | faulted (fault : Fault)
  | exhausted

namespace Reply

variable {L : Signature} {α β γ : Type}

/-- Continue a run that finished. -/
@[inline] def andThen (reply : Reply L α) (next : α -> Context L -> Reply L β) : Reply L β :=
  match reply with
  | finished answer context => next answer context
  | halted error context => halted error context
  | faulted fault => faulted fault
  | exhausted => exhausted

/-- Whether the limit on nesting has ended the run. -/
def isHalted : Reply L α -> Bool
  | halted _ _ => true
  | _ => false

@[simp] theorem andThen_finished (answer : α) (context : Context L)
    (next : α -> Context L -> Reply L β) :
    (finished answer context).andThen next = next answer context := rfl

@[simp] theorem andThen_halted (error : ParseError L.Payload) (context : Context L)
    (next : α -> Context L -> Reply L β) :
    (halted error context : Reply L α).andThen next = halted error context := rfl

@[simp] theorem andThen_faulted (fault : Fault) (next : α -> Context L -> Reply L β) :
    (faulted fault : Reply L α).andThen next = faulted fault := rfl

@[simp] theorem andThen_exhausted (next : α -> Context L -> Reply L β) :
    (exhausted : Reply L α).andThen next = exhausted := rfl

theorem andThen_assoc (reply : Reply L α) (next : α -> Context L -> Reply L β)
    (last : β -> Context L -> Reply L γ) :
    (reply.andThen next).andThen last =
      reply.andThen fun answer context => (next answer context).andThen last := by
  cases reply <;> rfl

/-- A continued run that finishes has finished before it was continued. -/
theorem andThen_eq_finished {reply : Reply L α} {next : α -> Context L -> Reply L β} {last : β}
    {after : Context L} (ends : reply.andThen next = finished last after) :
    exists answer context, reply = finished answer context ∧
      next answer context = finished last after := by
  cases reply with
  | finished answer context => exact ⟨answer, context, rfl, ends⟩
  | halted error place => cases ends
  | faulted fault => cases ends
  | exhausted => cases ends

theorem finished_ne_exhausted {reply : Reply L α} {answer : α} {context : Context L}
    (finishes : reply = finished answer context) : reply ≠ exhausted := by
  rw [finishes]
  intro spent
  cases spent

end Reply
end SeedGrammar
