set_option autoImplicit false

/-!
# Loops

A loop is a queue of tasks that are taken in the order they were posted. Once closed it has no
tasks and takes none.
-/

namespace PollSocket

/-- Queue of tasks. -/
structure Loop (τ : Type) where
  queue : List τ := []
  closed : Bool := false
  deriving DecidableEq, Inhabited

namespace Loop

variable {τ : Type}

/-- Queues a task; says whether it was accepted. -/
def post (l : Loop τ) (t : τ) : Loop τ × Bool :=
  if l.closed then (l, false) else ({ l with queue := l.queue ++ [t] }, true)

/-- Takes the oldest task. -/
def next? (l : Loop τ) : Option (τ × Loop τ) :=
  if l.closed then none
  else
    match l.queue with
    | [] => none
    | t :: more => some (t, { l with queue := more })

/-- Closes the loop and drops its tasks. -/
def close (_ : Loop τ) : Loop τ := { queue := [], closed := true }

/-- Number of queued tasks. -/
def size (l : Loop τ) : Nat := l.queue.length

end Loop

end PollSocket
