import Showcase.Proofs.Mail.Interleaving

/-!
# What an outbox accounts for

The operations of an outbox are runs of its steps: letting time go by completes what is due, one
send after the other (`run_ready`), and waiting for a delivery moves the clock on until there is
one. So what holds of every run holds of the outbox that a program works with.

**Waiting ends.** While something is in flight, the next send of the open channel is pending or its
delivery is there already; as pending sends are kept in the order in which they are due, moving the
clock on brings it (`Consistent.queue_advance_ne_nil`).

Main results: `Consistent.receive_cases`, `Consistent.receives_collect`.
-/

namespace Showcase.Outbox

variable {es : List Event} {e : Event} {o o' : Outbox} {d : Delivery}

/-! ## Operations as runs -/

theorem ready_eq (o : Outbox) :
    o.ready = { o with
      pending := o.pending.dropWhile fun s => s.due ≤ o.now
      queue := o.queue ++ ((o.pending.takeWhile fun s => s.due ≤ o.now).filter
        fun s => s.channel = o.channel).map Send.delivery } :=
  foldl_deliver _ _

/-- Sends at the head of the schedule may complete one after the other. -/
theorem run_deliver (first rest : List Send) (o : Outbox) :
    Run { o with pending := first ++ rest } (first.map .complete)
      (first.foldl deliver { o with pending := rest }) := by
  induction first generalizing o with
  | nil => exact .nil
  | cons s first ih =>
    have hs : Step { o with pending := s :: (first ++ rest) } (.complete s)
        (deliver { o with pending := (s :: (first ++ rest)).erase s } s) :=
      .complete List.mem_cons_self
    rw [List.erase_cons_head, deliver_pending] at hs
    rw [List.foldl_cons, deliver_pending]
    exact .cons hs (ih (deliver o s))

theorem run_ready (o : Outbox) :
    Run o ((o.pending.takeWhile fun s => s.due ≤ o.now).map .complete) o.ready := by
  have h := run_deliver (o.pending.takeWhile fun s => s.due ≤ o.now)
    (o.pending.dropWhile fun s => s.due ≤ o.now) o
  rwa [List.takeWhile_append_dropWhile] at h

/-- A run that sends nothing and receives just the given deliveries. -/
def Receives (o : Outbox) (ds : List Delivery) (o' : Outbox) : Prop :=
  ∃ es, Run o es o' ∧ dispatched es = [] ∧ received es = ds

theorem Receives.refl (o : Outbox) : o.Receives [] o :=
  ⟨[], .nil, rfl, rfl⟩

theorem Receives.trans {o'' : Outbox} {ds ds' : List Delivery} (h : o.Receives ds o')
    (h' : o'.Receives ds' o'') : o.Receives (ds ++ ds') o'' := by
  obtain ⟨es, hr, hdis, hrec⟩ := h
  obtain ⟨es', hr', hdis', hrec'⟩ := h'
  refine ⟨es ++ es', hr.append hr', ?_, ?_⟩
  · rw [dispatched_append, hdis, hdis', List.append_nil]
  · rw [received_append, hrec, hrec']

theorem Step.receives (hs : Step o e o') (hm : e.message? = none) :
    o.Receives e.delivery?.toList o' :=
  ⟨[e], .single hs, by simp [dispatched, hm], received_concat [] e⟩

theorem receives_ready (o : Outbox) : o.Receives [] o.ready := by
  refine ⟨_, run_ready o, ?_, ?_⟩
  · simp [dispatched, List.filterMap_map, Function.comp_def, Event.message?]
  · simp [received, List.filterMap_map, Function.comp_def, Event.delivery?]

theorem receives_sleep (o : Outbox) (ms : Nat) : o.Receives [] (o.sleep ms) :=
  ((Step.wait o ms).receives rfl).trans (receives_ready _)

theorem receives_advance (o : Outbox) : o.Receives [] o.advance := by
  rw [advance]
  split
  · exact .refl o
  · rename_i due _
    have hw := (Step.wait o (max o.now due - o.now)).receives rfl
    rw [Nat.add_sub_cancel' (Nat.le_max_left ..)] at hw
    exact hw.trans (receives_ready _)

theorem advance_inFlight (o : Outbox) : o.advance.inFlight = o.inFlight := by
  rw [advance]
  split
  · rfl
  · rw [ready_eq]

/-! ## Receiving -/

theorem Consistent.exists_open_send (h : o.Consistent) (hn : o.inFlight ≠ 0) (hq : o.queue = []) :
    ∃ s ∈ o.pending, s.channel = o.channel := by
  have hne : (o.pending.filter fun s => s.channel = o.channel) ≠ [] := by
    intro hnil
    have hcount := h.counted
    simp [waiting, hnil, hq] at hcount
    exact hn hcount
  obtain ⟨s, hs⟩ := List.exists_mem_of_ne_nil _ hne
  exact ⟨s, by simpa using hs⟩

theorem Consistent.queue_advance_ne_nil (h : o.Consistent) (hn : o.inFlight ≠ 0)
    (hq : o.queue = []) : o.advance.queue ≠ [] := by
  have hfind : (o.pending.find? fun s => s.channel = o.channel).isSome := by
    simpa using h.exists_open_send hn hq
  obtain ⟨s, hs⟩ := Option.isSome_iff_exists.1 hfind
  obtain ⟨hchannel, first, rest, hsplit, -⟩ := List.find?_eq_some_iff_append.1 hs
  have hdue : ∀ s' ∈ first ++ [s], s'.due ≤ max o.now s.due := by
    have hord := h.ordered
    rw [hsplit] at hord
    intro s' hs'
    rcases List.mem_append.1 hs' with hs' | hs'
    · exact ((List.pairwise_append.1 hord).2.2 s' hs' s List.mem_cons_self).trans
        (Nat.le_max_right ..)
    · rw [List.mem_singleton.1 hs']
      exact Nat.le_max_right ..
  have hmem : s ∈ o.pending.takeWhile fun s' => s'.due ≤ max o.now s.due := by
    rw [hsplit, List.append_cons, List.takeWhile_append_of_pos (by simpa using hdue)]
    simp
  simp only [advance, nextDue?, hs, Option.map_some, ready_eq, hq, List.nil_append]
  rw [Ne, List.map_eq_nil_iff]
  exact List.ne_nil_of_mem (List.mem_filter.2 ⟨hmem, hchannel⟩)

/-- No count goes below zero. -/
theorem Consistent.tryReceive_inFlight (h : o.Consistent) (hd : o.tryReceive.1 = some d) :
    o.tryReceive.2.inFlight + 1 = o.inFlight := by
  rcases tryReceive_cases o with ⟨-, ht⟩ | ⟨d', rest, hq, ht⟩
  · rw [ht] at hd
    cases hd
  · have hlen := (waiting_take hq 0).length_eq
    have hcount := h.counted
    rw [List.length_cons] at hlen
    rw [ht]
    show o.inFlight - 1 + 1 = o.inFlight
    omega

/-- Waiting for a delivery ends: there is nothing to wait for, or it comes by itself. -/
theorem Consistent.receive_cases (h : o.Consistent) :
    (o.inFlight = 0 ∧ o.receive = (none, o)) ∨
      ∃ later, o.Receives [] later ∧ later.inFlight = o.inFlight ∧ o.inFlight ≠ 0 ∧
        later.queue ≠ [] ∧ o.receive = later.tryReceive := by
  by_cases hn : o.inFlight = 0
  · exact .inl ⟨hn, by rw [receive, if_pos hn]⟩
  · refine .inr ?_
    cases hq : o.queue with
    | nil =>
      refine ⟨o.advance, receives_advance o, advance_inFlight o, hn,
        h.queue_advance_ne_nil hn hq, ?_⟩
      simp only [receive, if_neg hn, hq]
    | cons d rest =>
      refine ⟨o, .refl o, rfl, hn, by simp [hq], ?_⟩
      simp only [receive, if_neg hn, hq]

theorem Receives.consistent {ds : List Delivery} (hr : o.Receives ds o') (h : o.Consistent) :
    o'.Consistent := by
  obtain ⟨es, hrun, -, -⟩ := hr
  exact hrun.consistent h

theorem tryReceive_ne_none (h : o.queue ≠ []) : o.tryReceive.1 ≠ none := by
  rcases tryReceive_cases o with ⟨hq, -⟩ | ⟨d, rest, -, ht⟩
  · exact absurd hq h
  · simp [ht]

theorem Consistent.receive_eq_none_iff (h : o.Consistent) :
    o.receive.1 = none ↔ o.inFlight = 0 := by
  rcases h.receive_cases with ⟨hn, hr⟩ | ⟨later, -, -, hn, hq, hr⟩
  · simp [hr, hn]
  · simp [hr, hn, tryReceive_ne_none hq]

theorem Consistent.receive_inFlight (h : o.Consistent) (hd : o.receive.1 = some d) :
    o.receive.2.inFlight + 1 = o.inFlight := by
  rcases h.receive_cases with ⟨-, hr⟩ | ⟨later, hlater, hcount, -, -, hr⟩
  · rw [hr] at hd
    cases hd
  · rw [hr] at hd ⊢
    rw [(hlater.consistent h).tryReceive_inFlight hd, hcount]

theorem receives_tryReceive (o : Outbox) : o.Receives o.tryReceive.1.toList o.tryReceive.2 :=
  (Step.tryReceive o).receives rfl

theorem Consistent.receives_receive (h : o.Consistent) :
    o.Receives o.receive.1.toList o.receive.2 := by
  rcases h.receive_cases with ⟨hn, hr⟩ | ⟨later, hlater, hcount, hn, hq, hr⟩
  · rw [hr]
    exact .refl o
  · rw [hr]
    exact hlater.trans ((Step.receive (hcount ▸ hn) hq).receives rfl)

theorem Consistent.receives_collect {take : Outbox → Option Delivery × Outbox}
    (ht : ∀ o, Consistent o → o.Receives (take o).1.toList (take o).2) (n : Nat)
    (h : o.Consistent) : o.Receives (collect take n o).1 (collect take n o).2 := by
  induction n generalizing o with
  | zero => exact .refl o
  | succ n ih =>
    have hone := ht o h
    rw [collect]
    split
    · rename_i later heq
      rwa [heq] at hone
    · rename_i d later heq
      rw [heq] at hone
      exact hone.trans (ih (hone.consistent h))

theorem Consistent.receives_poll (h : o.Consistent) : o.Receives o.poll.1 o.poll.2 :=
  h.receives_collect (fun o _ => receives_tryReceive o) o.queue.length

theorem Consistent.receives_settle (h : o.Consistent) : o.Receives o.settle.1 o.settle.2 :=
  h.receives_collect (fun _ ho => ho.receives_receive) o.inFlight

theorem Consistent.length_settle (h : o.Consistent) : o.settle.1.length = o.inFlight := by
  suffices ∀ n, o.inFlight = n → (collect receive n o).1.length = n from this o.inFlight rfl
  -- Each delivery takes one off the count, and none is missing while the count is not zero.
  intro n hn
  induction n generalizing o with
  | zero => rfl
  | succ n ih =>
    have hsome : o.receive.1 ≠ none := fun hnone => by
      rw [h.receive_eq_none_iff.1 hnone] at hn
      cases hn
    have hlater := h.receives_receive.consistent h
    rw [collect]
    split
    · next heq => exact absurd (congrArg Prod.fst heq) hsome
    · next d later heq =>
      have hcount := h.receive_inFlight (congrArg Prod.fst heq)
      rw [heq] at hcount hlater
      rw [List.length_cons, ih hlater (by omega)]

theorem receives_cancel (o : Outbox) : o.Receives [] o.cancel :=
  (Step.cancel o).receives rfl

/-! ## The account -/

theorem Step.inFlight_of_delivery (hs : Step o e o') (h : o.Consistent)
    (hd : e.delivery? = some d) : o'.inFlight + 1 = o.inFlight := by
  cases hs with
  | tryReceive => exact h.tryReceive_inFlight hd
  | receive hn hq => exact h.tryReceive_inFlight hd
  | _ => cases hd

theorem exists_step_receive_none_iff (o : Outbox) :
    (∃ o', Step o (.receive none) o') ↔ o.inFlight = 0 := by
  refine ⟨?_, fun hn => ⟨o, .receiveNone hn⟩⟩
  rintro ⟨o', hs⟩
  generalize he : Event.receive none = e at hs
  cases hs with
  | receiveNone hn => exact hn
  | receive hn hq =>
    injection he with hnone
    exact absurd hnone.symm (tryReceive_ne_none hq)
  | _ => cases he

/-- What a state accounts for, given the events that led to it. -/
structure Accounts (es : List Event) (o : Outbox) : Prop where
  /-- The count is of the sends since the last cancellation that were not received. -/
  owed : o.inFlight = (unreceived es).length
  /-- They are on their way into the open channel or in it. -/
  held : o.waiting.Perm (unreceived es)
  sum : o.inFlight = (o.pending.filter fun s => s.channel = o.channel).length + o.queue.length
  once : ((received es).map Delivery.ticket).Nodup
  /-- What was received is about a message that was sent, with its sender and recipient. -/
  own : ∀ d ∈ received es, d.ReportsOn (dispatched es)
  /-- What was sent before a cancellation is not received after it. -/
  cancelled : ∀ before after, es = before ++ .cancel :: after →
    ∀ d ∈ received after, (dispatched before).length ≤ d.ticket
  /-- Waiting ends without a delivery just when nothing is in flight. -/
  ends : (∃ o', Step o (.receive none) o') ↔ o.inFlight = 0
  /-- Otherwise there is something to wait for. -/
  awaited : o.inFlight ≠ 0 → o.queue ≠ [] ∨ ∃ s ∈ o.pending, s.channel = o.channel
  receives : o.receive.1 = none ↔ o.inFlight = 0
  /-- Whatever is received was counted. -/
  counted : ∀ e o' d, Step o e o' → e.delivery? = some d → o'.inFlight + 1 = o.inFlight
  countedLater : ∀ d, o.receive.1 = some d → o.receive.2.inFlight + 1 = o.inFlight

/-- **The account is right** in every state that any order of dispatches, completions,
cancellations and receives can lead to. -/
theorem Run.accounts {timeoutMs : Nat} (hr : Run { timeoutMs } es o) : Accounts es o := by
  have hrec := hr.recorded
  have hcon := hr.consistent (consistent_start timeoutMs)
  refine
    { owed := hcon.counted.trans hrec.owed.length_eq
      held := hrec.owed
      sum := ?_
      once := hrec.once
      own := hrec.own
      cancelled := fun before after hes => hr.le_ticket_of_cancel hes
      ends := exists_step_receive_none_iff o
      awaited := fun hn => or_iff_not_imp_left.2 fun hq => hcon.exists_open_send hn (not_not.1 hq)
      receives := hcon.receive_eq_none_iff
      counted := fun e o' d hs hd => hs.inFlight_of_delivery hcon hd
      countedLater := fun d hd => hcon.receive_inFlight hd }
  rw [hcon.counted, waiting, List.length_append, List.length_map, List.length_map]

/-- A send that is cancelled completes all the same, into the channel it kept, before the next
one is received. -/
theorem accounts_of_late_completion :
    ∃ es o, Run { timeoutMs := 10 } es o ∧ Accounts es o ∧
      es.map Event.message? =
        [some ⟨['a'], ['x'], ['c']⟩, none, none, some ⟨['b'], ['y'], ['c']⟩, none, none] ∧
      Event.cancel ∈ es ∧ (received es).map Delivery.ticket = [1] := by
  have hstart : Run { timeoutMs := 10 } [] { timeoutMs := 10 } := .nil
  have hr := hstart
    |>.snoc (.dispatch _ (.scripted []) ⟨['a'], ['x'], ['c']⟩)
    |>.snoc (.cancel _)
    |>.snoc (.complete List.mem_cons_self)
    |>.snoc (.dispatch _ (.scripted []) ⟨['b'], ['y'], ['c']⟩)
    |>.snoc (.complete List.mem_cons_self)
    |>.snoc (.tryReceive _)
  exact ⟨_, _, hr, Run.accounts hr, rfl, by decide, rfl⟩

end Showcase.Outbox
