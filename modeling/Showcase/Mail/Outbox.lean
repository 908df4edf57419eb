import Showcase.Mail.Notifier

/-!
# The outbox

Messages that were handed to the notifier, and the deliveries that report on them.

**Channels.** Deliveries come back through a channel. Each send keeps the channel that was open
when it was dispatched; cancelling opens a new one, so that whatever the old sends still put into
theirs is never received.

**Time.** The clock stands still unless it is moved. A send settles at the time at which its reply
or the wait for it ends; pending sends are kept in that order, those of one time in the order of
dispatch. Settled sends become deliveries only when the clock is allowed to run.

**Counting.** `inFlight` is the number of sends of the open channel that were not received yet.
-/

namespace Showcase

/-- The report on a message. -/
structure Delivery where
  /-- The number of messages that were handed to the notifier before. -/
  ticket : Nat
  sender : Text
  recipient : Text
  /-- Why the message was not sent, if it was not. -/
  failure : Option SendFailure
  deriving DecidableEq, Repr

/-- A message on its way. -/
structure Send where
  /-- The channel that was open at dispatch. -/
  channel : Nat
  /-- The time at which it settles. -/
  due : Nat
  delivery : Delivery
  deriving DecidableEq, Repr

structure Outbox where
  timeoutMs : Nat
  now : Nat := 0
  /-- The number of the open channel. -/
  channel : Nat := 0
  /-- All messages that were handed to the notifier, oldest first. -/
  sent : List Message := []
  /-- The sends that have not settled, in the order in which they will. -/
  pending : List Send := []
  /-- What the open channel holds, oldest first. -/
  queue : List Delivery := []
  inFlight : Nat := 0
  deriving DecidableEq, Repr

namespace Outbox

/-- Puts a send behind all that settle no later. -/
def schedule (send : Send) : List Send → List Send
  | [] => [send]
  | s :: rest => if s.due ≤ send.due then s :: schedule send rest else send :: s :: rest

theorem schedule_perm (send : Send) (sends : List Send) :
    (schedule send sends).Perm (send :: sends) := by
  induction sends with
  | nil => exact .refl _
  | cons s rest ih =>
    rw [schedule]
    split
    · exact (ih.cons s).trans (.swap send s rest)
    · exact .refl _

/-- Hands a message to the notifier. -/
def dispatch (o : Outbox) (notifier : Notifier) (m : Message) : Outbox :=
  let (delay, failure) := (notifier o.sent.length m).settlement o.timeoutMs
  let delivery : Delivery :=
    { ticket := o.sent.length, sender := m.sender, recipient := m.recipient, failure }
  { o with
    sent := o.sent ++ [m]
    pending := schedule { channel := o.channel, due := o.now + delay, delivery } o.pending
    inFlight := o.inFlight + 1 }

/-- Puts the delivery of a send into the channel that it kept. -/
def deliver (o : Outbox) (send : Send) : Outbox :=
  if send.channel = o.channel then { o with queue := o.queue ++ [send.delivery] } else o

/-- Delivering sends changes nothing but the queue, which gets those of the open channel. -/
theorem foldl_deliver (sends : List Send) (o : Outbox) :
    sends.foldl deliver o =
      { o with
        queue := o.queue ++
          (sends.filter fun s => s.channel = o.channel).map Send.delivery } := by
  induction sends generalizing o with
  | nil => simp
  | cons s rest ih =>
    rw [List.foldl_cons, ih]
    by_cases h : s.channel = o.channel <;> simp [deliver, h]

/-- Settles what is due, in order. -/
def ready (o : Outbox) : Outbox :=
  (o.pending.takeWhile fun s => s.due ≤ o.now).foldl deliver
    { o with pending := o.pending.dropWhile fun s => s.due ≤ o.now }

/-- Lets time go by. -/
def sleep (o : Outbox) (ms : Nat) : Outbox := ready { o with now := o.now + ms }

/-- Takes a delivery that is there already. -/
def tryReceive (o : Outbox) : Option Delivery × Outbox :=
  match o.queue with
  | [] => (none, o)
  | d :: rest => (some d, { o with queue := rest, inFlight := o.inFlight - 1 })

/-- The time at which the next send of the open channel settles. -/
def nextDue? (o : Outbox) : Option Nat :=
  (o.pending.find? fun s => s.channel = o.channel).map Send.due

/-- Moves the clock on to that time, unless it is past. -/
def advance (o : Outbox) : Outbox :=
  match o.nextDue? with
  | none => o
  | some due => ready { o with now := max o.now due }

/-- Waits for a delivery, if one is still to come. -/
def receive (o : Outbox) : Option Delivery × Outbox :=
  if o.inFlight = 0 then (none, o)
  else
    match o.queue with
    | [] => tryReceive o.advance
    | _ :: _ => tryReceive o

/-- Takes deliveries in the given way, so many at most and as long as there are any. -/
def collect (take : Outbox → Option Delivery × Outbox) : Nat → Outbox → List Delivery × Outbox
  | 0, o => ([], o)
  | n + 1, o =>
    match take o with
    | (none, o) => ([], o)
    | (some d, o) =>
      let (ds, o) := collect take n o
      (d :: ds, o)

/-- Takes all deliveries that are there already. -/
def poll (o : Outbox) : List Delivery × Outbox := collect tryReceive o.queue.length o

/-- Waits for all deliveries that are still to come. -/
def settle (o : Outbox) : List Delivery × Outbox := collect receive o.inFlight o

/-- Gives up on everything that was not received: a new channel is opened. -/
def cancel (o : Outbox) : Outbox :=
  { o with channel := o.channel + 1, queue := [], inFlight := 0 }

end Outbox

end Showcase
