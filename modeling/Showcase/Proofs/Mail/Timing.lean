import Showcase.Proofs.Mail.Accounting

/-!
# When messages settle

The clock of an outbox only goes forward, and what has settled by a given time is settled in the
order of the times at which it was due, sends of one time in the order in which they were
dispatched.

**Postings.** A posting is what is known of a message before its send settles: when it was
dispatched and what the notifier will reply. From it alone follow the time at which the send settles
(`Posting.settlesAt`) and the delivery that reports on it.

**Later states** (`Later`). Letting time go by, receiving and cancelling put nothing into the
schedule: deliveries arrive when they are due, and whatever is left keeps its order.

**The timetable** (`Timed`). So the sends that are left, those in the open channel first, are in the
order in which they settle, and a dispatch puts the new one where it belongs.

**Waiting for all** (`Drains`). To receive until nothing is in flight comes to an end, and gives the
deliveries of the open channel in that order (`Consistent.drains`).

Main results: `Timed.later`, `Timed.dispatch`, `Consistent.drains`, `Drains.eq_toCome`.
-/

namespace Showcase

/-! ## Postings -/

/-- The time after which the reply is there, if it ever is. -/
def Reply.delay? : Reply → Option Nat
  | .answer delay _ => some delay
  | .breakdown delay => some delay
  | .silence => none

/-- The reply is yes, and it comes in time. -/
def Reply.AcceptsWithin (timeoutMs : Nat) (r : Reply) : Prop :=
  ∃ delay ≤ timeoutMs, r = .answer delay true

/-- The reply is no, or the notifier breaks down, and it comes in time. -/
def Reply.FailsWithin (timeoutMs : Nat) (r : Reply) : Prop :=
  ∃ delay ≤ timeoutMs, r = .answer delay false ∨ r = .breakdown delay

/-- There is no reply in time. -/
def Reply.Outlasts (timeoutMs : Nat) (r : Reply) : Prop :=
  ∀ delay, r.delay? = some delay → timeoutMs < delay

/-- A message, the time at which it was dispatched, and the reply of the notifier. -/
structure Posting where
  time : Nat
  message : Message
  reply : Reply
  deriving DecidableEq, Repr

namespace Posting

/-- The time at which the send settles: the timeout cuts the wait for the reply short. -/
def settlesAt (timeoutMs : Nat) (p : Posting) : Nat :=
  p.time + min timeoutMs (p.reply.delay?.getD timeoutMs)

/-- The delivery that reports on the send of that number. -/
def delivery (timeoutMs ticket : Nat) (p : Posting) : Delivery where
  ticket
  sender := p.message.sender
  recipient := p.message.recipient
  failure := (p.reply.settlement timeoutMs).2

/-- The send of that number settles before another one. -/
def Precedes (timeoutMs : Nat) (ps : List Posting) (ticket ticket' : Nat) : Prop :=
  ∃ p p', ps[ticket]? = some p ∧ ps[ticket']? = some p' ∧
    (p.settlesAt timeoutMs < p'.settlesAt timeoutMs ∨
      p.settlesAt timeoutMs = p'.settlesAt timeoutMs ∧ ticket < ticket')

/-- The delivery is that of a posting, and it is due at that time. -/
def Makes (timeoutMs : Nat) (ps : List Posting) (d : Delivery) (due : Nat) : Prop :=
  ∃ p, ps[d.ticket]? = some p ∧ p.settlesAt timeoutMs = due ∧ d = p.delivery timeoutMs d.ticket

end Posting

theorem Reply.settlement_fst (timeoutMs : Nat) (r : Reply) :
    (r.settlement timeoutMs).1 = min timeoutMs (r.delay?.getD timeoutMs) := by
  cases r with
  | answer delay accepted =>
    by_cases h : delay ≤ timeoutMs <;> simp [settlement, delay?, h, Nat.le_of_not_le]
  | breakdown delay =>
    by_cases h : delay ≤ timeoutMs <;> simp [settlement, delay?, h, Nat.le_of_not_le]
  | silence => simp [settlement, delay?]

namespace Posting

variable {timeoutMs ticket ticket' due : Nat} {ps : List Posting} {d : Delivery}

theorem Precedes.append (h : Precedes timeoutMs ps ticket ticket') (more : List Posting) :
    Precedes timeoutMs (ps ++ more) ticket ticket' := by
  obtain ⟨p, p', hp, hp', hlt⟩ := h
  refine ⟨p, p', ?_, ?_, hlt⟩
  · rw [List.getElem?_append_left (List.getElem?_eq_some_iff.1 hp).1, hp]
  · rw [List.getElem?_append_left (List.getElem?_eq_some_iff.1 hp').1, hp']

theorem Makes.append (h : Makes timeoutMs ps d due) (more : List Posting) :
    Makes timeoutMs (ps ++ more) d due := by
  obtain ⟨p, hp, hd⟩ := h
  exact ⟨p, by rw [List.getElem?_append_left (List.getElem?_eq_some_iff.1 hp).1, hp], hd⟩

/-- What is due no later than a new posting settles before it. -/
theorem Makes.precedes_new (h : Makes timeoutMs ps d due) (p : Posting)
    (hdue : due ≤ p.settlesAt timeoutMs) :
    Precedes timeoutMs (ps ++ [p]) d.ticket ps.length := by
  obtain ⟨q, hq, rfl, -⟩ := h
  have hlt := (List.getElem?_eq_some_iff.1 hq).1
  refine ⟨q, p, by rw [List.getElem?_append_left hlt, hq], List.getElem?_concat_length, ?_⟩
  rcases Nat.lt_or_eq_of_le hdue with hbefore | htie
  · exact .inl hbefore
  · exact .inr ⟨htie, hlt⟩

/-- What is due later settles after it. -/
theorem Makes.new_precedes (h : Makes timeoutMs ps d due) (p : Posting)
    (hdue : p.settlesAt timeoutMs < due) :
    Precedes timeoutMs (ps ++ [p]) ps.length d.ticket := by
  obtain ⟨q, hq, rfl, -⟩ := h
  have hlt := (List.getElem?_eq_some_iff.1 hq).1
  exact ⟨p, q, List.getElem?_concat_length, by rw [List.getElem?_append_left hlt, hq], .inl hdue⟩

end Posting

namespace Outbox

variable {o o' o'' : Outbox} {ds : List Delivery} {ps : List Posting}

/-! ## Later states -/

/-- The sends that are left, by number: first those whose delivery is in the open channel, then
those that are pending in any. -/
def line (o : Outbox) : List Nat :=
  o.queue.map Delivery.ticket ++ o.pending.map fun s => s.delivery.ticket

/-- Nothing was dispatched in between, and deliveries have arrived only when they were due. -/
structure Later (o o' : Outbox) : Prop where
  sent : o'.sent = o.sent
  timeoutMs : o'.timeoutMs = o.timeoutMs
  now : o.now ≤ o'.now
  pending : ∀ s ∈ o'.pending, s ∈ o.pending
  arrived : ∀ d ∈ o'.queue, d ∈ o.queue ∨ ∃ s ∈ o.pending, s.delivery = d ∧ s.due ≤ o'.now
  line : o'.line.Sublist o.line

theorem Later.refl (o : Outbox) : o.Later o :=
  ⟨rfl, rfl, le_rfl, fun _ => id, fun _ => .inl, .refl _⟩

theorem Later.trans (h : o.Later o') (h' : o'.Later o'') : o.Later o'' := by
  refine ⟨h'.sent.trans h.sent, h'.timeoutMs.trans h.timeoutMs, h.now.trans h'.now, ?_, ?_,
    h'.line.trans h.line⟩
  · intro s hs
    exact h.pending s (h'.pending s hs)
  · intro d hd
    rcases h'.arrived d hd with hd | ⟨s, hs, hds, hdue⟩
    · rcases h.arrived d hd with hd | ⟨s, hs, hds, hdue⟩
      · exact .inl hd
      · exact .inr ⟨s, hs, hds, hdue.trans h'.now⟩
    · exact .inr ⟨s, h.pending s hs, hds, hdue⟩

theorem later_now {now : Nat} (h : o.now ≤ now) : o.Later { o with now } :=
  ⟨rfl, rfl, h, fun _ => id, fun _ => .inl, .refl _⟩

theorem later_ready (o : Outbox) : o.Later o.ready := by
  rw [ready_eq]
  refine ⟨rfl, rfl, le_rfl, ?_, ?_, ?_⟩
  · intro s hs
    exact (List.dropWhile_sublist _).subset hs
  · intro d hd
    rcases List.mem_append.1 hd with hd | hd
    · exact .inl hd
    · obtain ⟨s, hs, rfl⟩ := List.mem_map.1 hd
      have htake := (List.mem_filter.1 hs).1
      exact .inr ⟨s, (List.takeWhile_sublist _).subset htake, rfl,
        by simpa using List.mem_takeWhile_imp htake⟩
  · -- What settles moves from the head of the schedule to the end of the queue.
    have hsplit : o.line = o.queue.map Delivery.ticket ++
        (((o.pending.takeWhile fun s => s.due ≤ o.now).map fun s => s.delivery.ticket) ++
          (o.pending.dropWhile fun s => s.due ≤ o.now).map fun s => s.delivery.ticket) := by
      rw [← List.map_append, List.takeWhile_append_dropWhile, line]
    rw [hsplit]
    simp only [line, List.map_append, List.map_map, List.append_assoc]
    refine List.Sublist.append_left (List.Sublist.append_right ?_ _) _
    exact List.filter_sublist.map _

theorem later_sleep (o : Outbox) (ms : Nat) : o.Later (o.sleep ms) :=
  (later_now (Nat.le_add_right o.now ms)).trans (later_ready _)

theorem later_advance (o : Outbox) : o.Later o.advance := by
  rw [advance]
  split
  · exact .refl o
  · exact (later_now (Nat.le_max_left ..)).trans (later_ready _)

theorem later_tryReceive (o : Outbox) : o.Later o.tryReceive.2 := by
  rcases tryReceive_cases o with ⟨-, ht⟩ | ⟨d, rest, hq, ht⟩
  · rw [ht]
    exact .refl o
  · rw [ht]
    refine ⟨rfl, rfl, le_rfl, fun _ => id, ?_, ?_⟩
    · intro d' hd'
      exact .inl (hq ▸ List.mem_cons_of_mem d hd')
    · simp [line, hq]

theorem later_receive (o : Outbox) : o.Later o.receive.2 := by
  rw [receive]
  split
  · exact .refl o
  · split
    · exact (later_advance o).trans (later_tryReceive _)
    · exact later_tryReceive o

theorem later_collect {take : Outbox → Option Delivery × Outbox} (h : ∀ o, Later o (take o).2)
    (n : Nat) (o : Outbox) : o.Later (collect take n o).2 := by
  induction n generalizing o with
  | zero => exact .refl o
  | succ n ih =>
    have hone := h o
    rw [collect]
    split
    · rename_i later heq
      rwa [heq] at hone
    · rename_i d later heq
      rw [heq] at hone
      exact hone.trans (ih later)

theorem later_poll (o : Outbox) : o.Later o.poll.2 := later_collect later_tryReceive _ o

theorem later_settle (o : Outbox) : o.Later o.settle.2 := later_collect later_receive _ o

theorem later_cancel (o : Outbox) : o.Later o.cancel :=
  ⟨rfl, rfl, le_rfl, fun _ => id, nofun, List.sublist_append_right _ _⟩

/-! ## The timetable -/

/-- The sends that are left are those of postings, in the order in which they settle. -/
structure Timed (ps : List Posting) (o : Outbox) : Prop where
  sent : ps.map Posting.message = o.sent
  pending : ∀ s ∈ o.pending, Posting.Makes o.timeoutMs ps s.delivery s.due
  arrived : ∀ d ∈ o.queue, ∃ due ≤ o.now, Posting.Makes o.timeoutMs ps d due
  ordered : o.line.Pairwise (Posting.Precedes o.timeoutMs ps)

theorem timed_start (timeoutMs : Nat) : Timed [] { timeoutMs } :=
  ⟨rfl, nofun, nofun, .nil⟩

theorem Timed.later (h : o.Timed ps) (hl : o.Later o') : o'.Timed ps := by
  obtain ⟨hsent, htimeout, hnow, hpending, harrived, hline⟩ := hl
  refine ⟨h.sent.trans hsent.symm, ?_, ?_, ?_⟩
  · rw [htimeout]
    intro s hs
    exact h.pending s (hpending s hs)
  · rw [htimeout]
    intro d hd
    rcases harrived d hd with hd | ⟨s, hs, rfl, hdue⟩
    · obtain ⟨due, hle, hmakes⟩ := h.arrived d hd
      exact ⟨due, hle.trans hnow, hmakes⟩
    · exact ⟨s.due, hdue, h.pending s hs⟩
  · rw [htimeout]
    exact h.ordered.sublist hline

/-- What is known of a message when it is dispatched. -/
def posting (o : Outbox) (notifier : Notifier) (m : Message) : Posting where
  time := o.now
  message := m
  reply := notifier o.sent.length m

/-- A dispatch puts the new send where it belongs. -/
theorem Timed.dispatch (h : o.Timed ps) (hord : o.pending.Pairwise fun s s' => s.due ≤ s'.due)
    (notifier : Notifier) (m : Message) :
    (o.dispatch notifier m).Timed (ps ++ [o.posting notifier m]) := by
  have hlength : o.sent.length = ps.length := by rw [← h.sent, List.length_map]
  have hdue : (o.sendOf notifier m).due = (o.posting notifier m).settlesAt o.timeoutMs :=
    congrArg (o.now + ·) (Reply.settlement_fst ..)
  have hticket : (o.sendOf notifier m).delivery.ticket = ps.length := hlength
  have hmem : ∀ s ∈ schedule (o.sendOf notifier m) o.pending,
      s = o.sendOf notifier m ∨ s ∈ o.pending := fun s hs =>
    List.mem_cons.1 ((schedule_perm _ _).mem_iff.1 hs)
  rw [dispatch_eq]
  refine ⟨?_, ?_, ?_, ?_⟩
  · rw [List.map_append, h.sent]
    rfl
  · intro s hs
    rcases hmem s hs with rfl | hs
    · refine ⟨o.posting notifier m, ?_, hdue.symm, rfl⟩
      rw [hticket, List.getElem?_concat_length]
    · exact (h.pending s hs).append _
  · intro d hd
    obtain ⟨due, hle, hmakes⟩ := h.arrived d hd
    exact ⟨due, hle, hmakes.append _⟩
  · have hold := h.ordered.imp fun hp => hp.append [o.posting notifier m]
    obtain ⟨hqueue, hpending, hcross⟩ := List.pairwise_append.1 hold
    refine List.pairwise_append.2 ⟨hqueue, ?_, ?_⟩
    · rw [List.pairwise_map] at hpending ⊢
      refine pairwise_schedule hord hpending ?_ ?_
      · intro s hs hle
        rw [hticket]
        exact (h.pending s hs).precedes_new _ (hdue ▸ hle)
      · intro s hs hlt
        rw [hticket]
        exact (h.pending s hs).new_precedes _ (hdue ▸ hlt)
    · intro ticket hin ticket' hin'
      obtain ⟨s, hs, rfl⟩ := List.mem_map.1 hin'
      rcases hmem s hs with rfl | hs
      · -- What has arrived was due by now, and the new send is not due earlier.
        obtain ⟨d, hd, rfl⟩ := List.mem_map.1 hin
        obtain ⟨due, hle, hmakes⟩ := h.arrived d hd
        rw [hticket]
        exact hmakes.precedes_new _ (hle.trans (Nat.le_add_right ..))
      · exact hcross ticket hin _ (List.mem_map_of_mem hs)

/-! ## Waiting for all -/

/-- The deliveries that the open channel holds, and those that will come into it. -/
def toCome (o : Outbox) : List Delivery :=
  o.queue ++ (o.pending.filter fun s => s.channel = o.channel).map Send.delivery

theorem toCome_sublist (o : Outbox) : (o.toCome.map Delivery.ticket).Sublist o.line := by
  rw [toCome, List.map_append, List.map_map]
  exact (List.Sublist.refl _).append (List.filter_sublist.map _)

theorem perm_waiting (o : Outbox) : (o.toCome.map Delivery.ticket).Perm o.waiting := by
  rw [toCome, List.map_append, List.map_map]
  exact List.perm_append_comm

theorem Consistent.length_toCome (h : o.Consistent) : o.toCome.length = o.inFlight := by
  rw [h.counted, ← o.perm_waiting.length_eq, List.length_map]

theorem Timed.mem_toCome {d : Delivery} (h : o.Timed ps) (hd : d ∈ o.toCome) :
    ∃ due, Posting.Makes o.timeoutMs ps d due := by
  rcases List.mem_append.1 hd with hd | hd
  · obtain ⟨due, -, hmakes⟩ := h.arrived d hd
    exact ⟨due, hmakes⟩
  · obtain ⟨s, hs, rfl⟩ := List.mem_map.1 hd
    exact ⟨s.due, h.pending s (List.mem_filter.1 hs).1⟩

theorem toCome_ready (o : Outbox) : o.ready.toCome = o.toCome := by
  rw [ready_eq]
  simp only [toCome, List.append_assoc]
  rw [← List.map_append, ← List.filter_append, List.takeWhile_append_dropWhile]

theorem toCome_advance (o : Outbox) : o.advance.toCome = o.toCome := by
  rw [advance]
  split
  · rfl
  · exact toCome_ready _

theorem toCome_tryReceive (h : o.queue ≠ []) :
    ∃ d, o.tryReceive.1 = some d ∧ o.toCome = d :: o.tryReceive.2.toCome := by
  rcases tryReceive_cases o with ⟨hq, -⟩ | ⟨d, rest, hq, ht⟩
  · exact absurd hq h
  · refine ⟨d, by rw [ht], ?_⟩
    rw [ht, toCome, hq]
    rfl

/-- While something is in flight, receiving gives the next delivery. -/
theorem Consistent.toCome_receive (h : o.Consistent) (hn : o.inFlight ≠ 0) :
    ∃ d, o.receive.1 = some d ∧ o.toCome = d :: o.receive.2.toCome := by
  rw [receive, if_neg hn]
  split
  · next hq =>
    obtain ⟨d, hd, hrest⟩ := toCome_tryReceive (h.queue_advance_ne_nil hn hq)
    rw [toCome_advance] at hrest
    exact ⟨d, hd, hrest⟩
  · next hq => exact toCome_tryReceive (by simp [hq])

/-- To receive one delivery after the other, until nothing is in flight. There is no rule for a
wait that does not end. -/
inductive Drains : Outbox → List Delivery → Outbox → Prop
  | done {o : Outbox} (h : o.inFlight = 0) : Drains o [] o
  | more {o o' : Outbox} {d : Delivery} {ds : List Delivery} (h : o.inFlight ≠ 0)
      (received : o.receive.1 = some d) (rest : Drains o.receive.2 ds o') : Drains o (d :: ds) o'

/-- Waiting for all ends, and it is what settling does. -/
theorem Consistent.drains (h : o.Consistent) : Drains o o.settle.1 o.settle.2 := by
  suffices ∀ n, o.inFlight = n → Drains o (collect receive n o).1 (collect receive n o).2 from
    this o.inFlight rfl
  intro n hn
  induction n generalizing o with
  | zero => exact .done hn
  | succ n ih =>
    have hne : o.inFlight ≠ 0 := by omega
    obtain ⟨d, hd, -⟩ := h.toCome_receive hne
    have hlater := h.receives_receive.consistent h
    have hcount := h.receive_inFlight hd
    have hrest := ih hlater (by omega)
    rw [collect]
    split
    · next heq =>
      rw [heq] at hd
      cases hd
    · next d' later heq =>
      rw [heq] at hrest hd
      cases hd
      exact .more hne (by rw [heq]) (by rwa [heq])

/-- A reply that takes as long as the wait is in time; the breakdown comes first, though it was
dispatched last. -/
example :
    let notifier := Notifier.scripted [.answer 10 true, .silence, .breakdown 3]
    let o := [['x'], ['y'], ['z']].foldl (fun o sender => o.dispatch notifier ⟨sender, [], ['c']⟩)
      ({ timeoutMs := 10 } : Outbox)
    o.settle.1.map (fun d => (d.ticket, d.failure)) =
      [(2, some .refused), (0, none), (1, some (.timedOut 10))] := by
  decide

/-- What it gives is what was to come, in that order; nothing is in flight afterwards. -/
theorem Drains.eq_toCome (hd : o.Drains ds o') (h : o.Consistent) :
    ds = o.toCome ∧ o'.Consistent ∧ o'.inFlight = 0 := by
  induction hd with
  | @done o hn =>
    have hlength := h.length_toCome
    exact ⟨(List.length_eq_zero_iff.1 (hlength.trans hn)).symm, h, hn⟩
  | more hn hreceived hrest ih =>
    obtain ⟨hds, hlater⟩ := ih (h.receives_receive.consistent h)
    obtain ⟨d, hd, htoCome⟩ := h.toCome_receive hn
    rw [hreceived] at hd
    cases hd
    exact ⟨by rw [htoCome, hds], hlater⟩

theorem Consistent.queue_eq_nil (h : o.Consistent) (hn : o.inFlight = 0) : o.queue = [] := by
  have hnil := List.length_eq_zero_iff.1 (h.length_toCome.trans hn)
  exact (List.append_eq_nil_iff.1 hnil).1

theorem Consistent.poll_eq_of_inFlight (h : o.Consistent) (hn : o.inFlight = 0) :
    o.poll = ([], o) := by
  rw [poll, h.queue_eq_nil hn]
  rfl

theorem settle_eq_of_inFlight (hn : o.inFlight = 0) : o.settle = ([], o) := by
  rw [settle, hn]
  rfl

end Outbox

end Showcase
