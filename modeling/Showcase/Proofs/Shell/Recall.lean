import Showcase.Proofs.Shell.History

/-!
# Walking through the history

Between two entered lines the entries of a history stay as they are, and all that a walk remembers
is where it is. Its *stop* is a position, from the oldest entry to one past the newest (where there
is no walk), with the text of the input.

**Where an edit leads** (`Stop.next`) is a matter of the stop and the entries. A step back goes one
position down but not below the oldest entry (`Stop.back`), a step forward goes one up but not past
the end (`Stop.forward`), and the input is cleared only in coming to the end. A session does just
this (`stop_edit`), and so does a run of edits (`stop_edits`), as long as no line is entered.

Main result: `edits_walk`.
-/

namespace Showcase

namespace Session

variable {s : Session} {limit : Nat} {log : List Text} {e : Edit}

/-! ## Stops -/

/-- A position in a walk, the end of the entries if there is none, and the text of the input. -/
structure Stop where
  position : Nat
  input : Text
  deriving DecidableEq, Repr

/-- Where a session is in its history. -/
def stop (s : Session) : Stop where
  position := s.history.cursor.getD s.history.entries.length
  input := s.input

namespace Stop

/-- A step back: one position down, but not below the oldest entry. -/
def back (entries : List Text) (p : Stop) : Stop :=
  if entries = [] then p else ⟨p.position - 1, entries.getD (p.position - 1) []⟩

/-- A step forward: one position up, but not past the end, and nothing to show on coming there. -/
def forward (entries : List Text) (p : Stop) : Stop :=
  if p.position = entries.length then p
  else if p.position + 1 = entries.length then ⟨entries.length, []⟩
  else ⟨p.position + 1, entries.getD (p.position + 1) []⟩

/-- Where an edit that enters no line leads. -/
def next (entries : List Text) (p : Stop) : Edit → Stop
  | .recallPrevious => p.back entries
  | .recallNext => p.forward entries
  | .setInput text => { p with input := text }
  | .pushChar c => { p with input := p.input ++ [c] }
  | .backspace => { p with input := p.input.dropLast }
  | .takeInput => { p with input := [] }
  | .commit _ | .pushLine _ | .pushLines _ | .clearScrollback => p

variable {entries : List Text} {p : Stop}

theorem back_of_ne_nil (hne : entries ≠ []) (p : Stop) :
    p.back entries = ⟨p.position - 1, entries.getD (p.position - 1) []⟩ :=
  if_neg hne

/-- Coming to the end shows nothing, as there is no entry. -/
theorem forward_of_lt (hp : p.position < entries.length) :
    p.forward entries = ⟨p.position + 1, entries.getD (p.position + 1) []⟩ := by
  rw [forward, if_neg hp.ne]
  split_ifs with hlast
  · simp [hlast]
  · rfl

end Stop

/-- The edit enters a line, blank or not. -/
def Edit.commits : Edit → Bool
  | .commit _ => true
  | _ => false

theorem cursor_eq_stop (hk : s.history.Keeps limit log) :
    s.stop.position ≤ s.history.entries.length ∧
      s.history.cursor =
        if s.stop.position < s.history.entries.length then some s.stop.position else none := by
  cases hc : s.history.cursor with
  | none => simp [stop, hc]
  | some position =>
    have hinside := hk.inside position hc
    simp [stop, hc, hinside, hinside.le]

/-! ## Edits -/

theorem previousPosition_eq (s : Session) : s.history.previousPosition = s.stop.position - 1 := by
  rw [History.previousPosition, stop]
  cases s.history.cursor <;> rfl

theorem stop_recallPrevious (hk : s.history.Keeps limit log) :
    s.recallPrevious.stop = s.stop.back s.history.entries := by
  rcases hk.back_cases with ⟨hnil, hnone⟩ | ⟨entry, hget, hsome⟩
  · have hstay : s.recallPrevious = s := by rw [recallPrevious, hnone, follow]
    rw [hstay, Stop.back, if_pos hnil]
  · have hne : s.history.entries ≠ [] := by
      intro hnil
      simp [hnil] at hget
    rw [recallPrevious_of_back hsome, Stop.back_of_ne_nil hne, ← previousPosition_eq,
      List.getD_eq_getElem?_getD, hget]
    rfl

theorem stop_recallNext (hk : s.history.Keeps limit log) :
    s.recallNext.stop = s.stop.forward s.history.entries := by
  rcases hk.forward_cases with ⟨hend, hnone⟩ | ⟨position, hcursor, hstep⟩
  · have hstay : s.recallNext = s := by rw [recallNext, hnone, follow]
    rw [hstay, Stop.forward, if_pos (by simp [stop, hend])]
  · have hposition : s.stop.position = position := by simp [stop, hcursor]
    have hinside := hk.inside position hcursor
    rw [Stop.forward, hposition, if_neg hinside.ne]
    rcases hstep with ⟨hlast, hnext⟩ | ⟨entry, hget, hnext⟩
    · rw [recallNext_of_forward hnext, if_pos hlast]
      rfl
    · have hnot : position + 1 ≠ s.history.entries.length :=
        (List.getElem?_eq_some_iff.1 hget).1.ne
      rw [recallNext_of_forward hnext, if_neg hnot, List.getD_eq_getElem?_getD, hget]
      rfl

/-- **One edit** leads where it should and leaves the entries alone. -/
theorem stop_edit (hk : s.history.Keeps limit log) (he : e.commits = false) :
    (s.edit e).stop = s.stop.next s.history.entries e ∧
      (s.edit e).history.entries = s.history.entries := by
  cases e with
  | commit line => cases he
  | recallPrevious =>
    refine ⟨stop_recallPrevious hk, ?_⟩
    show s.recallPrevious.history.entries = _
    rcases hk.back_cases with ⟨-, hnone⟩ | ⟨entry, -, hsome⟩
    · rw [recallPrevious, hnone, follow]
    · rw [recallPrevious_of_back hsome]
  | recallNext =>
    refine ⟨stop_recallNext hk, ?_⟩
    show s.recallNext.history.entries = _
    rcases hk.forward_cases with ⟨-, hnone⟩ | ⟨position, -, ⟨-, hsome⟩ | ⟨entry, -, hsome⟩⟩
    · rw [recallNext, hnone, follow]
    · rw [recallNext_of_forward hsome]
    · rw [recallNext_of_forward hsome]
  | _ => exact ⟨rfl, rfl⟩

/-- **A run of edits** does so too, as long as no line is entered. -/
theorem stop_edits (hk : s.history.Keeps limit log) {walk : List Edit}
    (hwalk : ∀ e ∈ walk, e.commits = false) :
    (s.edits walk).stop = walk.foldl (Stop.next s.history.entries) s.stop ∧
      (s.edits walk).history.entries = s.history.entries := by
  induction walk generalizing s log with
  | nil => exact ⟨rfl, rfl⟩
  | cons e walk ih =>
    obtain ⟨he, hwalk⟩ := List.forall_mem_cons.1 hwalk
    obtain ⟨hstop, hentries⟩ := stop_edit hk he
    have hrest := ih (keeps_edit hk e) hwalk
    rw [hstop, hentries] at hrest
    exact hrest

/-! ## Presses in a row -/

theorem Stop.foldl_back {entries : List Text} (hne : entries ≠ []) (p : Stop) (k : Nat) :
    (List.replicate (k + 1) Edit.recallPrevious).foldl (Stop.next entries) p =
      ⟨p.position - (k + 1), entries.getD (p.position - (k + 1)) []⟩ := by
  induction k with
  | zero => exact back_of_ne_nil hne p
  | succ k ih =>
    rw [List.replicate_succ', List.foldl_append, ih, List.foldl_cons, List.foldl_nil, next,
      back_of_ne_nil hne, Nat.sub_sub]

theorem Stop.foldl_forward {entries : List Text} {p : Stop} {k : Nat}
    (hk : p.position + k < entries.length) :
    (List.replicate (k + 1) Edit.recallNext).foldl (Stop.next entries) p =
      ⟨p.position + (k + 1), entries.getD (p.position + (k + 1)) []⟩ := by
  induction k with
  | zero => exact forward_of_lt hk
  | succ k ih =>
    rw [List.replicate_succ', List.foldl_append, ih (by omega), List.foldl_cons, List.foldl_nil,
      next, forward_of_lt hk, Nat.add_assoc]

theorem exists_entry {entries : List Text} {position : Nat} (h : position < entries.length) :
    ∃ entry, entries[position]? = some entry ∧ entries.getD position [] = entry :=
  ⟨entries[position], by simp [h], by simp [h]⟩

theorem stop_replicate (hk : s.history.Keeps limit log) (he : e.commits = false) (k : Nat) :
    (s.edits (.replicate k e)).stop =
      (List.replicate k e).foldl (Stop.next s.history.entries) s.stop := by
  refine (stop_edits hk fun e' he' => ?_).1
  rw [List.eq_of_mem_replicate he', he]

/-- Steps back in a row show the entry as many positions before, or the oldest one. -/
theorem exists_stop_back (hk : s.history.Keeps limit log) (hne : s.history.entries ≠ []) {k : Nat}
    (hpos : 0 < k) :
    ∃ entry, s.history.entries[s.stop.position - k]? = some entry ∧
      (s.edits (.replicate k .recallPrevious)).stop = ⟨s.stop.position - k, entry⟩ := by
  obtain ⟨k, rfl⟩ : ∃ m, k = m + 1 := ⟨k - 1, by omega⟩
  have hinside : s.stop.position - (k + 1) < s.history.entries.length := by
    have hlength := List.length_pos_of_ne_nil hne
    have hle := (cursor_eq_stop hk).1
    omega
  obtain ⟨entry, hget, hshown⟩ := exists_entry hinside
  refine ⟨entry, hget, ?_⟩
  rw [stop_replicate hk rfl, Stop.foldl_back hne, hshown]

/-- Steps forward in a row show the entry as many positions after. -/
theorem exists_stop_forward (hk : s.history.Keeps limit log) {k : Nat} (hpos : 0 < k)
    (hinside : s.stop.position + k < s.history.entries.length) :
    ∃ entry, s.history.entries[s.stop.position + k]? = some entry ∧
      (s.edits (.replicate k .recallNext)).stop = ⟨s.stop.position + k, entry⟩ := by
  obtain ⟨k, rfl⟩ : ∃ m, k = m + 1 := ⟨k - 1, by omega⟩
  obtain ⟨entry, hget, hshown⟩ := exists_entry hinside
  refine ⟨entry, hget, ?_⟩
  rw [stop_replicate hk rfl, Stop.foldl_forward (by omega), hshown]

theorem stop_forward_end (hk : s.history.Keeps limit log) {k : Nat} (hpos : 0 < k)
    (hend : s.stop.position + k = s.history.entries.length) :
    (s.edits (.replicate k .recallNext)).stop = ⟨s.history.entries.length, []⟩ := by
  obtain ⟨k, rfl⟩ : ∃ m, k = m + 1 := ⟨k - 1, by omega⟩
  rw [stop_replicate hk rfl, Stop.foldl_forward (by omega), hend]
  simp

theorem recallPrevious_of_nil (hk : s.history.Keeps limit log) (hnil : s.history.entries = []) :
    s.recallPrevious = s := by
  rcases hk.back_cases with ⟨-, hnone⟩ | ⟨entry, hget, -⟩
  · rw [recallPrevious, hnone, follow]
  · rw [hnil] at hget
    cases hget

theorem recallNext_of_end (hk : s.history.Keeps limit log)
    (hend : s.stop.position = s.history.entries.length) : s.recallNext = s := by
  have hcursor := (cursor_eq_stop hk).2
  rw [if_neg hend.not_lt] at hcursor
  rw [recallNext, History.forward, hcursor]
  rfl

/-- **A walk through the history is clamped.** Between entered lines the entries stay as they are,
and the edits lead from stop to stop: a step back to the position before but never below the oldest
entry, a step forward to the position after but never past the end, and other edits only change the
input. So steps back show the entries in turn down to the oldest, which is shown again from then on.
Steps forward show them in order and clear the input in coming to the end, where they do nothing any
more. Without entries neither does anything. -/
theorem edits_walk (limit : Nat) (es walk : List Edit) (hwalk : ∀ e ∈ walk, e.commits = false) :
    let s := (start limit).edits es
    let t := s.edits walk
    let entries := s.history.entries
    (t.history.entries = entries ∧ t.stop = walk.foldl (Stop.next entries) s.stop) ∧
      (t.stop.position ≤ entries.length ∧ t.history.cursor =
        if t.stop.position < entries.length then some t.stop.position else none) ∧
      (entries = [] → t.recallPrevious = t ∧ t.recallNext = t) ∧
      (∀ k, entries ≠ [] → 0 < k → ∃ entry, entries[t.stop.position - k]? = some entry ∧
        (t.edits (.replicate k .recallPrevious)).stop = ⟨t.stop.position - k, entry⟩) ∧
      (∀ k, 0 < k → t.stop.position + k < entries.length →
        ∃ entry, entries[t.stop.position + k]? = some entry ∧
          (t.edits (.replicate k .recallNext)).stop = ⟨t.stop.position + k, entry⟩) ∧
      (∀ k, 0 < k → t.stop.position + k = entries.length →
        (t.edits (.replicate k .recallNext)).stop = ⟨entries.length, []⟩) ∧
      (t.stop.position = entries.length → t.recallNext = t) := by
  intro s t entries
  have hs : s.history.Keeps (max limit 1) ([] ++ entered es) :=
    keeps_edits (History.keeps_start limit) es
  have ht : t.history.Keeps (max limit 1) (([] ++ entered es) ++ entered walk) :=
    keeps_edits hs walk
  obtain ⟨hstop, hentries⟩ : t.stop = walk.foldl (Stop.next entries) s.stop ∧
    t.history.entries = entries := stop_edits hs hwalk
  rw [← hentries]
  refine ⟨⟨rfl, hentries ▸ hstop⟩, cursor_eq_stop ht, fun hnil => ⟨?_, ?_⟩, ?_, ?_, ?_, ?_⟩
  · exact recallPrevious_of_nil ht hnil
  · refine recallNext_of_end ht ?_
    have hle := (cursor_eq_stop ht).1
    rw [hnil] at hle ⊢
    exact Nat.le_zero.1 hle
  · intro k hne hpos
    exact exists_stop_back ht hne hpos
  · intro k hpos hinside
    exact exists_stop_forward ht hpos hinside
  · intro k hpos hend
    exact stop_forward_end ht hpos hend
  · exact recallNext_of_end ht

/-- Two steps back and one forward, with a letter typed on the way. -/
theorem edits_walk_edited :
    let s := (start 2).edits [.commit "ls", .commit "pwd"]
    let walk : List Edit := [.recallPrevious, .recallPrevious, .pushChar 'x', .recallNext]
    (∀ e ∈ walk, e.commits = false) ∧ (s.edits walk).stop = ⟨1, "pwd"⟩ ∧
      ((s.edits walk).edits (.replicate 1 .recallNext)).stop = ⟨2, []⟩ := by
  intro s walk
  have hwalk : ∀ e ∈ walk, e.commits = false := by decide
  have hstop : (s.edits walk).stop = ⟨1, "pwd"⟩ := by decide
  obtain ⟨-, -, -, -, -, hend, -⟩ := edits_walk 2 [.commit "ls", .commit "pwd"] walk hwalk
  exact ⟨hwalk, hstop, hend 1 Nat.one_pos rfl⟩

end Session

end Showcase
