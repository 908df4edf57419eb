import Mathlib.Data.List.DropRight
import Mathlib.Data.List.Nodup
import Showcase.Mail.Outbox

/-!
# The outbox under every interleaving

What an outbox does on its own time comes in any order: a send may complete at once or after many
others, before or after a cancellation. `Step` has one rule for each thing that can happen to an
outbox, in any state in which it can happen, and `Run` is a finite sequence of steps with the
events it consists of.

**Histories.** What a run did can be read off its events alone: the messages it dispatched, the
deliveries it received, and which of its sends are still owed (`unreceived`), namely those since the
last cancellation that were not received.

**Invariants.** `Consistent` is about the state: the count is right, no send keeps a channel that
was not opened yet, and pending sends are in the order in which they are due. `Recorded` ties the
state to the history: what waits in the open channel or on its way there is what the history owes.
One step keeps both (`Step.consistent`, `Step.recorded`), so a run does.

**Cancellation.** A delivery is received with the events before it as its history, so it is among
what they owe; nothing from before a cancellation is (`Run.le_ticket_of_cancel`).

Main results: `Run.consistent`, `Run.recorded`, `Run.le_ticket_of_cancel`.
-/

namespace Showcase

/-- The delivery is about a message that was sent, which it names by its number. -/
def Delivery.ReportsOn (d : Delivery) (sent : List Message) : Prop :=
  ∃ m, sent[d.ticket]? = some m ∧ d.sender = m.sender ∧ d.recipient = m.recipient

theorem Delivery.ReportsOn.append {d : Delivery} {sent : List Message} (h : d.ReportsOn sent)
    (more : List Message) : d.ReportsOn (sent ++ more) := by
  obtain ⟨m, hm, hd⟩ := h
  exact ⟨m, by rw [List.getElem?_append_left (List.getElem?_eq_some_iff.1 hm).1, hm], hd⟩

theorem Delivery.ReportsOn.ticket_lt {d : Delivery} {sent : List Message} (h : d.ReportsOn sent) :
    d.ticket < sent.length := by
  obtain ⟨m, hm, -⟩ := h
  exact (List.getElem?_eq_some_iff.1 hm).1

namespace Outbox

/-! ## Steps -/

/-- What can happen to an outbox, with what a receive gives back. -/
inductive Event where
  | dispatch (m : Message)
  /-- A send puts its delivery into the channel that it kept. -/
  | complete (send : Send)
  /-- A send that was cancelled ends without a delivery. -/
  | drop (send : Send)
  | wait (ms : Nat)
  | tryReceive (d? : Option Delivery)
  | receive (d? : Option Delivery)
  | cancel
  deriving DecidableEq, Repr

/-- One event leads from a state to another. Any pending send may complete at any time, and the
notifier may be another one each time. Receiving waits while something is owed and nothing is
there, so it has no rule for that case. -/
inductive Step : Outbox → Event → Outbox → Prop
  | dispatch (o : Outbox) (notifier : Notifier) (m : Message) :
      Step o (.dispatch m) (o.dispatch notifier m)
  | complete {o : Outbox} {send : Send} : send ∈ o.pending →
      Step o (.complete send) (deliver { o with pending := o.pending.erase send } send)
  | drop {o : Outbox} {send : Send} : send ∈ o.pending → send.channel ≠ o.channel →
      Step o (.drop send) { o with pending := o.pending.erase send }
  | wait (o : Outbox) (ms : Nat) : Step o (.wait ms) { o with now := o.now + ms }
  | tryReceive (o : Outbox) : Step o (.tryReceive o.tryReceive.1) o.tryReceive.2
  | receiveNone {o : Outbox} : o.inFlight = 0 → Step o (.receive none) o
  | receive {o : Outbox} : o.inFlight ≠ 0 → o.queue ≠ [] →
      Step o (.receive o.tryReceive.1) o.tryReceive.2
  | cancel (o : Outbox) : Step o .cancel o.cancel

/-- Steps one after the other, with their events. -/
inductive Run (start : Outbox) : List Event → Outbox → Prop
  | nil : Run start [] start
  | snoc {es : List Event} {e : Event} {o o' : Outbox} :
      Run start es o → Step o e o' → Run start (es ++ [e]) o'

theorem Run.single {o o' : Outbox} {e : Event} (h : Step o e o') : Run o [e] o' :=
  Run.nil.snoc h

theorem Run.append {o o' o'' : Outbox} {es es' : List Event} (h : Run o es o')
    (h' : Run o' es' o'') : Run o (es ++ es') o'' := by
  induction h' with
  | nil => simpa using h
  | snoc _ hs ih =>
    rw [← List.append_assoc]
    exact ih.snoc hs

theorem Run.cons {o o' o'' : Outbox} {e : Event} {es : List Event} (h : Step o e o')
    (h' : Run o' es o'') : Run o (e :: es) o'' :=
  (Run.single h).append h'

/-- What there is to receive, and what receiving it does. -/
theorem tryReceive_cases (o : Outbox) :
    (o.queue = [] ∧ o.tryReceive = (none, o)) ∨
      ∃ d rest, o.queue = d :: rest ∧
        o.tryReceive = (some d, { o with queue := rest, inFlight := o.inFlight - 1 }) := by
  cases hq : o.queue with
  | nil => exact .inl ⟨rfl, by simp only [tryReceive, hq]⟩
  | cons d rest => exact .inr ⟨d, rest, rfl, by simp only [tryReceive, hq]⟩

/-! ## Histories -/

namespace Event

def message? : Event → Option Message
  | .dispatch m => some m
  | _ => none

def delivery? : Event → Option Delivery
  | .tryReceive d? => d?
  | .receive d? => d?
  | _ => none

end Event

/-- The messages that were handed to the notifier, oldest first. -/
def dispatched (es : List Event) : List Message := es.filterMap Event.message?

/-- The deliveries that were received, oldest first. -/
def received (es : List Event) : List Delivery := es.filterMap Event.delivery?

/-- The events up to the last cancellation. -/
def untilCancel (es : List Event) : List Event := es.rdropWhile fun e => e ≠ .cancel

/-- The sends, by number, that were dispatched after the last cancellation and whose delivery was
not received. -/
def unreceived (es : List Event) : List Nat :=
  (List.range (dispatched es).length).filter fun ticket =>
    (dispatched (untilCancel es)).length ≤ ticket ∧ ticket ∉ (received es).map Delivery.ticket

variable {es : List Event} {e : Event} {o o' : Outbox} {d : Delivery} {m : Message}

theorem dispatched_append (es es' : List Event) :
    dispatched (es ++ es') = dispatched es ++ dispatched es' :=
  List.filterMap_append

theorem received_append (es es' : List Event) :
    received (es ++ es') = received es ++ received es' :=
  List.filterMap_append

theorem dispatched_concat (es : List Event) (e : Event) :
    dispatched (es ++ [e]) = dispatched es ++ e.message?.toList := by
  rw [dispatched_append]
  cases h : e.message? <;> simp [dispatched, h]

theorem received_concat (es : List Event) (e : Event) :
    received (es ++ [e]) = received es ++ e.delivery?.toList := by
  rw [received_append]
  cases h : e.delivery? <;> simp [received, h]

theorem untilCancel_concat (h : e ≠ .cancel) : untilCancel (es ++ [e]) = untilCancel es := by
  simp [untilCancel, h]

theorem untilCancel_cancel (es : List Event) :
    untilCancel (es ++ [.cancel]) = es ++ [.cancel] := by
  simp [untilCancel]

theorem length_dispatched_untilCancel_le (es : List Event) :
    (dispatched (untilCancel es)).length ≤ (dispatched es).length :=
  ((List.rdropWhile_prefix _ es).filterMap Event.message?).length_le

theorem nodup_unreceived (es : List Event) : (unreceived es).Nodup :=
  List.nodup_range.filter _

theorem unreceived_quiet (hm : e.message? = none) (hd : e.delivery? = none) (hc : e ≠ .cancel) :
    unreceived (es ++ [e]) = unreceived es := by
  simp [unreceived, dispatched_concat, received_concat, untilCancel_concat hc, hm, hd]

theorem unreceived_dispatch (h : ∀ d ∈ received es, d.ticket < (dispatched es).length)
    (m : Message) :
    unreceived (es ++ [.dispatch m]) = unreceived es ++ [(dispatched es).length] := by
  have hnew : ∀ d ∈ received es, d.ticket ≠ (dispatched es).length := fun d hd =>
    (h d hd).ne
  have hle := length_dispatched_untilCancel_le es
  have hc : Event.dispatch m ≠ .cancel := nofun
  simp only [unreceived, dispatched_concat, received_concat, untilCancel_concat hc,
    Event.message?, Event.delivery?, Option.toList_some, Option.toList_none, List.append_nil,
    List.length_append, List.length_singleton, List.range_succ, List.filter_append]
  simpa [hle] using hnew

theorem unreceived_take (hm : e.message? = none) (hd : e.delivery? = some d) (hc : e ≠ .cancel) :
    unreceived (es ++ [e]) = (unreceived es).erase d.ticket := by
  rw [(nodup_unreceived es).erase_eq_filter]
  simp only [unreceived, dispatched_concat, received_concat, untilCancel_concat hc, hm, hd,
    Option.toList_some, Option.toList_none, List.append_nil, List.filter_filter]
  refine List.filter_congr fun ticket _ => ?_
  by_cases ht : ticket = d.ticket <;> simp [ht]

theorem unreceived_cancel (es : List Event) : unreceived (es ++ [.cancel]) = [] := by
  simp only [unreceived, untilCancel_cancel, List.filter_eq_nil_iff, List.mem_range]
  intro ticket hlt
  simp only [decide_eq_true_eq, not_and]
  intro hle
  omega

/-! ## What waits -/

/-- The sends, by number, whose delivery is on its way into the open channel or in it. -/
def waiting (o : Outbox) : List Nat :=
  (o.pending.filter fun s => s.channel = o.channel).map (fun s => s.delivery.ticket) ++
    o.queue.map Delivery.ticket

/-- What a send puts into the schedule. -/
def sendOf (o : Outbox) (notifier : Notifier) (m : Message) : Send :=
  let settlement := (notifier o.sent.length m).settlement o.timeoutMs
  { channel := o.channel
    due := o.now + settlement.1
    delivery :=
      { ticket := o.sent.length, sender := m.sender, recipient := m.recipient,
        failure := settlement.2 } }

theorem dispatch_eq (o : Outbox) (notifier : Notifier) (m : Message) :
    o.dispatch notifier m =
      { o with
        sent := o.sent ++ [m]
        pending := schedule (o.sendOf notifier m) o.pending
        inFlight := o.inFlight + 1 } :=
  rfl

theorem deliver_pending (o : Outbox) (send : Send) (sends : List Send) :
    deliver { o with pending := sends } send = { deliver o send with pending := sends } := by
  simp only [deliver]
  split <;> rfl

theorem waiting_dispatch (o : Outbox) (notifier : Notifier) (m : Message) :
    (o.dispatch notifier m).waiting.Perm (o.waiting ++ [o.sent.length]) := by
  have hp := ((schedule_perm (o.sendOf notifier m) o.pending).filter
    fun s => s.channel = o.channel).map fun s => s.delivery.ticket
  rw [List.filter_cons_of_pos (by simp [sendOf]), List.map_cons] at hp
  rw [dispatch_eq]
  exact (hp.append_right _).trans (List.perm_append_singleton _ _).symm

/-- Taking a pending send out of the schedule takes it out of what waits, if its channel is open. -/
theorem waiting_erase {send : Send} (h : send ∈ o.pending) :
    o.waiting.Perm ((if send.channel = o.channel then [send.delivery.ticket] else []) ++
      waiting { o with pending := o.pending.erase send }) := by
  have hp := ((List.perm_cons_erase h).filter
    fun s => s.channel = o.channel).map fun s => s.delivery.ticket
  by_cases hc : send.channel = o.channel
  · rw [List.filter_cons_of_pos (by simpa using hc), List.map_cons] at hp
    rw [if_pos hc]
    exact hp.append_right _
  · rw [List.filter_cons_of_neg (by simpa using hc)] at hp
    rw [if_neg hc]
    exact hp.append_right _

theorem waiting_deliver (o : Outbox) (send : Send) :
    (deliver o send).waiting =
      o.waiting ++ if send.channel = o.channel then [send.delivery.ticket] else [] := by
  by_cases hc : send.channel = o.channel <;> simp [deliver, waiting, hc]

theorem waiting_complete {send : Send} (h : send ∈ o.pending) :
    (deliver { o with pending := o.pending.erase send } send).waiting.Perm o.waiting := by
  rw [waiting_deliver]
  exact List.perm_append_comm.trans (waiting_erase h).symm

theorem waiting_drop {send : Send} (h : send ∈ o.pending) (hc : send.channel ≠ o.channel) :
    (waiting { o with pending := o.pending.erase send }).Perm o.waiting := by
  have hp := waiting_erase h
  rw [if_neg hc, List.nil_append] at hp
  exact hp.symm

theorem mem_waiting_of_mem_queue (h : d ∈ o.queue) : d.ticket ∈ o.waiting :=
  List.mem_append_right _ (List.mem_map_of_mem h)

theorem waiting_of_closed (h : ∀ s ∈ o.pending, s.channel ≠ o.channel) :
    o.waiting = o.queue.map Delivery.ticket := by
  rw [waiting, List.filter_eq_nil_iff.2 (by simpa using h)]
  rfl

theorem waiting_take {rest : List Delivery} (h : o.queue = d :: rest) (n : Nat) :
    o.waiting.Perm (d.ticket :: waiting { o with queue := rest, inFlight := n }) := by
  simp only [waiting, h, List.map_cons]
  exact List.perm_middle

/-! ## What the state keeps -/

/-- What holds of the state alone. -/
structure Consistent (o : Outbox) : Prop where
  counted : o.inFlight = o.waiting.length
  opened : ∀ s ∈ o.pending, s.channel ≤ o.channel
  ordered : o.pending.Pairwise fun s s' => s.due ≤ s'.due

/-- Scheduling a send keeps an order in which it stands behind all that settle no later. -/
theorem pairwise_schedule {R : Send → Send → Prop} {send : Send} {sends : List Send}
    (hord : sends.Pairwise fun s s' => s.due ≤ s'.due) (h : sends.Pairwise R)
    (before : ∀ s ∈ sends, s.due ≤ send.due → R s send)
    (after : ∀ s ∈ sends, send.due < s.due → R send s) : (schedule send sends).Pairwise R := by
  induction sends with
  | nil => exact List.pairwise_singleton _ _
  | cons s rest ih =>
    obtain ⟨hs, hrest⟩ := List.pairwise_cons.1 h
    obtain ⟨hle, hord⟩ := List.pairwise_cons.1 hord
    rw [schedule]
    split
    · rename_i hdue
      refine List.pairwise_cons.2 ⟨?_, ih hord hrest ?_ ?_⟩
      · intro s' hs'
        rcases List.mem_cons.1 ((schedule_perm send rest).mem_iff.1 hs') with rfl | hs'
        · exact before s List.mem_cons_self hdue
        · exact hs s' hs'
      · intro s' hs'
        exact before s' (List.mem_cons_of_mem s hs')
      · intro s' hs'
        exact after s' (List.mem_cons_of_mem s hs')
    · rename_i hdue
      refine List.pairwise_cons.2 ⟨?_, h⟩
      intro s' hs'
      refine after s' hs' ?_
      rcases List.mem_cons.1 hs' with rfl | hmem
      · omega
      · have hlater := hle s' hmem
        omega

theorem consistent_start (timeoutMs : Nat) : Consistent { timeoutMs } :=
  ⟨rfl, nofun, .nil⟩

theorem Consistent.tryReceive (h : o.Consistent) : o.tryReceive.2.Consistent := by
  rcases tryReceive_cases o with ⟨-, ht⟩ | ⟨d, rest, hq, ht⟩
  · rw [ht]
    exact h
  · have hlen := (waiting_take hq (o.inFlight - 1)).length_eq
    rw [ht]
    refine ⟨?_, h.opened, h.ordered⟩
    have hcount := h.counted
    rw [List.length_cons] at hlen
    show o.inFlight - 1 = (waiting { o with queue := rest, inFlight := o.inFlight - 1 }).length
    omega

theorem Step.consistent (hs : Step o e o') (h : o.Consistent) : o'.Consistent := by
  cases hs with
  | dispatch notifier m =>
    have hordered : (schedule (o.sendOf notifier m) o.pending).Pairwise fun s s' => s.due ≤ s'.due :=
      pairwise_schedule h.ordered h.ordered (fun _ _ => id) fun _ _ => Nat.le_of_lt
    refine ⟨?_, fun s hs => ?_, hordered⟩
    · rw [(waiting_dispatch o notifier m).length_eq, List.length_append, ← h.counted]
      rfl
    · rcases List.mem_cons.1 ((schedule_perm _ _).mem_iff.1 hs) with rfl | hs
      · exact le_rfl
      · exact h.opened s hs
  | complete hp =>
    rename_i send
    have hw := (waiting_complete hp).length_eq
    refine ⟨?_, ?_, ?_⟩
    · rw [hw, ← h.counted, deliver]
      split <;> rfl
    · rw [deliver_pending, deliver]
      intro s hs
      split <;> exact h.opened s (List.mem_of_mem_erase hs)
    · rw [deliver_pending]
      exact h.ordered.sublist List.erase_sublist
  | drop hp hc =>
    refine ⟨?_, fun s hs => h.opened s (List.mem_of_mem_erase hs),
      h.ordered.sublist List.erase_sublist⟩
    rw [(waiting_drop hp hc).length_eq]
    exact h.counted
  | wait ms => exact ⟨h.counted, h.opened, h.ordered⟩
  | tryReceive => exact h.tryReceive
  | receiveNone hn => exact h
  | receive hn hq => exact h.tryReceive
  | cancel =>
    have hclosed : ∀ s ∈ o.cancel.pending, s.channel ≠ o.cancel.channel := fun s hs =>
      (Nat.lt_succ_of_le (h.opened s hs)).ne
    refine ⟨?_, fun s hs => Nat.le_succ_of_le (h.opened s hs), h.ordered⟩
    rw [waiting_of_closed hclosed]
    rfl

theorem Run.consistent (hr : Run o es o') (h : o.Consistent) : o'.Consistent := by
  induction hr with
  | nil => exact h
  | snoc _ hs ih => exact hs.consistent ih

theorem Step.timeoutMs_eq (hs : Step o e o') : o'.timeoutMs = o.timeoutMs := by
  have htake : o.tryReceive.2.timeoutMs = o.timeoutMs := by
    rcases tryReceive_cases o with ⟨-, ht⟩ | ⟨d, rest, -, ht⟩ <;> rw [ht]
  cases hs with
  | complete hmem =>
    rw [deliver]
    split <;> rfl
  | tryReceive => exact htake
  | receive hn hq => exact htake
  | _ => rfl

theorem Run.timeoutMs_eq (hr : Run o es o') : o'.timeoutMs = o.timeoutMs := by
  induction hr with
  | nil => rfl
  | snoc _ hs ih => exact hs.timeoutMs_eq.trans ih

/-! ## What the state owes to the history -/

/-- What ties the state to the events that led to it. -/
structure Recorded (es : List Event) (o : Outbox) : Prop where
  sent : o.sent = dispatched es
  owed : o.waiting.Perm (unreceived es)
  once : ((received es).map Delivery.ticket).Nodup
  own : ∀ d ∈ received es, d.ReportsOn (dispatched es)
  ownQueued : ∀ d ∈ o.queue, d.ReportsOn (dispatched es)
  ownPending : ∀ s ∈ o.pending, s.delivery.ReportsOn (dispatched es)

theorem recorded_start (timeoutMs : Nat) : Recorded [] { timeoutMs } :=
  ⟨rfl, .refl _, .nil, nofun, nofun, nofun⟩

/-- An event that neither sends nor receives changes at most which sends are owed. -/
theorem Recorded.silent (h : Recorded es o) (hm : e.message? = none) (hd : e.delivery? = none)
    (hsent : o'.sent = o.sent) (howed : o'.waiting.Perm (unreceived (es ++ [e])))
    (hq : ∀ d ∈ o'.queue, d ∈ o.queue ∨ ∃ s ∈ o.pending, s.delivery = d)
    (hp : ∀ s ∈ o'.pending, s ∈ o.pending) : Recorded (es ++ [e]) o' := by
  have hdis : dispatched (es ++ [e]) = dispatched es := by simp [dispatched_concat, hm]
  have hrec : received (es ++ [e]) = received es := by simp [received_concat, hd]
  refine ⟨?_, howed, ?_, ?_, ?_, ?_⟩
  · rw [hsent, h.sent, hdis]
  · rw [hrec]
    exact h.once
  · rw [hrec, hdis]
    exact h.own
  · rw [hdis]
    intro d hd
    rcases hq d hd with hd | ⟨s, hs, rfl⟩
    · exact h.ownQueued d hd
    · exact h.ownPending s hs
  · rw [hdis]
    exact fun s hs => h.ownPending s (hp s hs)

/-- If it is no cancellation either, the same sends are owed. -/
theorem Recorded.quiet (h : Recorded es o) (hm : e.message? = none) (hd : e.delivery? = none)
    (hc : e ≠ .cancel) (hsent : o'.sent = o.sent) (hw : o'.waiting.Perm o.waiting)
    (hq : ∀ d ∈ o'.queue, d ∈ o.queue ∨ ∃ s ∈ o.pending, s.delivery = d)
    (hp : ∀ s ∈ o'.pending, s ∈ o.pending) : Recorded (es ++ [e]) o' := by
  refine h.silent hm hd hsent ?_ hq hp
  rw [unreceived_quiet hm hd hc]
  exact hw.trans h.owed

theorem Recorded.dispatch (h : Recorded es o) (notifier : Notifier) (m : Message) :
    Recorded (es ++ [.dispatch m]) (o.dispatch notifier m) := by
  have hdis : dispatched (es ++ [.dispatch m]) = dispatched es ++ [m] := by
    rw [dispatched_concat]
    rfl
  have hrec : received (es ++ [.dispatch m]) = received es := by
    simp [received_concat, Event.delivery?]
  refine ⟨?_, ?_, ?_, ?_, ?_, ?_⟩
  · rw [hdis, ← h.sent]
    rfl
  · rw [unreceived_dispatch (fun d hd => (h.own d hd).ticket_lt), ← h.sent]
    exact (waiting_dispatch o notifier m).trans (h.owed.append_right _)
  · rw [hrec]
    exact h.once
  · rw [hrec, hdis]
    exact fun d hd => (h.own d hd).append [m]
  · rw [hdis]
    exact fun d hd => (h.ownQueued d hd).append [m]
  · rw [hdis]
    intro s hs
    rcases List.mem_cons.1 ((schedule_perm _ _).mem_iff.1 hs) with rfl | hs
    · exact ⟨m, by simp [h.sent], rfl, rfl⟩
    · exact (h.ownPending s hs).append [m]

/-- Taking a delivery pays one of the sends that are owed. -/
theorem Recorded.take (h : Recorded es o) {rest : List Delivery} (hq : o.queue = d :: rest)
    (hm : e.message? = none) (hd : e.delivery? = some d) (hc : e ≠ .cancel) (n : Nat) :
    Recorded (es ++ [e]) { o with queue := rest, inFlight := n } := by
  have hdis : dispatched (es ++ [e]) = dispatched es := by simp [dispatched_concat, hm]
  have hrec : received (es ++ [e]) = received es ++ [d] := by simp [received_concat, hd]
  have hmem : d.ticket ∈ unreceived es :=
    h.owed.mem_iff.1 (mem_waiting_of_mem_queue (hq ▸ List.mem_cons_self))
  have hnew : d.ticket ∉ (received es).map Delivery.ticket := by
    simp only [unreceived, List.mem_filter, decide_eq_true_eq] at hmem
    exact hmem.2.2
  refine ⟨?_, ?_, ?_, ?_, ?_, ?_⟩
  · rw [hdis, ← h.sent]
  · rw [unreceived_take hm hd hc]
    have hw := ((waiting_take hq n).symm.trans h.owed).erase d.ticket
    rwa [List.erase_cons_head] at hw
  · rw [hrec, List.map_append, List.map_singleton]
    exact List.Nodup.append h.once (List.nodup_singleton _) (by simpa using hnew)
  · rw [hrec, hdis]
    intro d' hd'
    rcases List.mem_append.1 hd' with hd' | hd'
    · exact h.own d' hd'
    · rw [List.mem_singleton.1 hd']
      exact h.ownQueued d (hq ▸ List.mem_cons_self)
  · rw [hdis]
    exact fun d' hd' => h.ownQueued d' (hq ▸ List.mem_cons_of_mem d hd')
  · rw [hdis]
    exact h.ownPending

theorem Recorded.cancel (h : Recorded es o) (ho : o.Consistent) :
    Recorded (es ++ [.cancel]) o.cancel := by
  have hnone := ((Step.cancel o).consistent ho).counted
  refine h.silent rfl rfl rfl ?_ nofun fun _ => id
  rw [unreceived_cancel, List.length_eq_zero_iff.1 hnone.symm]

theorem Recorded.idle (h : Recorded es o) (hm : e.message? = none) (hd : e.delivery? = none)
    (hc : e ≠ .cancel) : Recorded (es ++ [e]) o :=
  h.quiet hm hd hc rfl (.refl _) (fun _ => .inl) (fun _ => id)

theorem Recorded.tryReceive (h : Recorded es o) (hm : e.message? = none)
    (hd : e.delivery? = o.tryReceive.1) (hc : e ≠ .cancel) :
    Recorded (es ++ [e]) o.tryReceive.2 := by
  rcases tryReceive_cases o with ⟨-, ht⟩ | ⟨d, rest, hq, ht⟩
  · rw [ht] at hd ⊢
    exact h.idle hm hd hc
  · rw [ht] at hd ⊢
    exact h.take hq hm hd hc _

theorem Step.recorded (hs : Step o e o') (ho : o.Consistent) (h : Recorded es o) :
    Recorded (es ++ [e]) o' := by
  cases hs with
  | dispatch notifier m => exact h.dispatch notifier m
  | complete hp =>
    rename_i send
    refine h.quiet rfl rfl (by simp) ?_ (waiting_complete hp) (fun d hd => ?_) (fun s hs => ?_)
    · rw [deliver]
      split <;> rfl
    · rw [deliver_pending, deliver] at hd
      split at hd
      · rcases List.mem_append.1 hd with hd | hd
        · exact .inl hd
        · exact .inr ⟨send, hp, (List.mem_singleton.1 hd).symm⟩
      · exact .inl hd
    · rw [deliver_pending] at hs
      exact List.mem_of_mem_erase hs
  | drop hp hc =>
    exact h.quiet rfl rfl (by simp) rfl (waiting_drop hp hc) (fun _ => .inl)
      (fun _ => List.mem_of_mem_erase)
  | wait ms => exact h.quiet rfl rfl (by simp) rfl (.refl _) (fun _ => .inl) (fun _ => id)
  | tryReceive => exact h.tryReceive rfl rfl (by simp)
  | receiveNone hn => exact h.idle rfl rfl (by simp)
  | receive hn hq => exact h.tryReceive rfl rfl (by simp)
  | cancel => exact h.cancel ho

theorem Run.recorded {timeoutMs : Nat} (hr : Run { timeoutMs } es o) : Recorded es o := by
  induction hr with
  | nil => exact recorded_start timeoutMs
  | snoc hr hs ih => exact hs.recorded (hr.consistent (consistent_start timeoutMs)) ih

/-! ## After a cancellation -/

theorem mem_queue_of_tryReceive (h : o.tryReceive.1 = some d) : d ∈ o.queue := by
  rcases tryReceive_cases o with ⟨-, ht⟩ | ⟨d', rest, hq, ht⟩
  · rw [ht] at h
    cases h
  · rw [ht] at h
    cases h
    exact hq ▸ List.mem_cons_self

/-- A step that gives a delivery takes it out of the open channel. -/
theorem Step.mem_queue (hs : Step o e o') (hd : e.delivery? = some d) : d ∈ o.queue := by
  cases hs with
  | tryReceive => exact mem_queue_of_tryReceive hd
  | receive hn hq => exact mem_queue_of_tryReceive hd
  | _ => cases hd

theorem prefix_untilCancel (before after : List Event) :
    before <+: untilCancel (before ++ .cancel :: after) := by
  induction after using List.reverseRecOn with
  | nil =>
    rw [untilCancel_cancel]
    exact List.prefix_append _ _
  | append_singleton after e ih =>
    rw [← List.cons_append, ← List.append_assoc]
    by_cases hc : e = .cancel
    · rw [hc, untilCancel_cancel, List.append_assoc]
      exact List.prefix_append _ _
    · rwa [untilCancel_concat hc]

/-- What is received after a cancellation was dispatched after it. -/
theorem Run.le_ticket_of_cancel {timeoutMs : Nat} (hr : Run { timeoutMs } es o)
    {before after : List Event} (hes : es = before ++ .cancel :: after) :
    ∀ d ∈ received after, (dispatched before).length ≤ d.ticket := by
  induction hr generalizing after with
  | nil => simp at hes
  | @snoc es e o o' hr hs ih =>
    cases after using List.reverseRecOn with
    | nil => exact nofun
    | append_singleton after e' =>
      rw [← List.cons_append, ← List.append_assoc] at hes
      obtain ⟨hinit, hlast⟩ := List.append_inj' hes rfl
      cases hlast
      intro d hd
      rw [received_concat] at hd
      rcases List.mem_append.1 hd with hd | hd
      · exact ih hinit d hd
      · -- What this step gives is owed by the events before it, so it is as young as they say.
        have hq := hs.mem_queue (Option.mem_toList.1 hd)
        have hmem := hr.recorded.owed.mem_iff.1 (mem_waiting_of_mem_queue hq)
        simp only [unreceived, List.mem_filter, decide_eq_true_eq] at hmem
        have hpre := (prefix_untilCancel before after).filterMap Event.message?
        rw [← hinit] at hpre
        exact hpre.length_le.trans hmem.2.1

end Outbox

end Showcase
