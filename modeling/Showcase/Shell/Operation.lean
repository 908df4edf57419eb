import Showcase.Shell.Key

/-!
# Operations

Everything that can happen to a shell from outside, as data: what the user does, and what the
clock does. A run is a list of operations; `Shell.run` gives the state after it.
-/

namespace Showcase

inductive Operation where
  | setInput (text : Text)
  | key (k : Key)
  | submit
  | execute (line : Text)
  | complete
  | recallPrevious
  | recallNext
  | poll
  | settle
  | cancel
  /-- What is due settles, and no time goes by. -/
  | ready
  | sleep (ms : Nat)
  deriving DecidableEq, Repr

namespace Shell

/-- The shell after an operation. -/
def apply (s : Shell) : Operation → Shell
  | .setInput text => { s with session := s.session.setInput text }
  | .key k => (s.handleKey k).2
  | .submit => s.submit
  | .execute line => s.execute line
  | .complete => s.complete
  | .recallPrevious => s.recallPrevious
  | .recallNext => s.recallNext
  | .poll => s.poll.2
  | .settle => s.settle
  | .cancel => s.cancel
  | .ready => { s with outbox := s.outbox.ready }
  | .sleep ms => { s with outbox := s.outbox.sleep ms }

/-- The shell after operations, in order. -/
def run (s : Shell) (ops : List Operation) : Shell := ops.foldl apply s

end Shell

end Showcase
