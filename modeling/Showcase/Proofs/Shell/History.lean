import Mathlib.Data.List.DropRight
import Showcase.Proofs.Text.Cutting
import Showcase.Shell.Session

/-!
# What a history remembers

A history is a queue of bounded length, and the lines that were entered are a list that only grows.

**The log** (`Session.entered`). The lines that a sequence of edits enters can be read off the edits
alone: all that are not blank, as they were typed.

**The window** (`History.Keeps`). The queue is the end of the log, as much of it as the limit allows,
and a walk shows one of its entries. Entering a line moves the window on, so that every entry gets
another position; the walk does not go wrong because entering a line ends it (`Keeps.commit`). A
step through the history stays inside the window (`Keeps.back`, `Keeps.forward`).

Main result: `Session.edits_keeps_end`.
-/

namespace Showcase

/-! ## Edits -/

namespace Session

/-- What can be done to a session. -/
inductive Edit where
  | setInput (text : Text)
  | pushChar (c : Char)
  | backspace
  | takeInput
  | commit (line : Text)
  | recallPrevious
  | recallNext
  | pushLine (line : Line)
  | pushLines (lines : List Line)
  | clearScrollback
  deriving DecidableEq, Repr

/-- The session after an edit. -/
def edit (s : Session) : Edit → Session
  | .setInput text => s.setInput text
  | .pushChar c => s.pushChar c
  | .backspace => s.backspace
  | .takeInput => s.takeInput.2
  | .commit line => s.commit line
  | .recallPrevious => s.recallPrevious
  | .recallNext => s.recallNext
  | .pushLine line => s.pushLine line
  | .pushLines lines => s.pushLines lines
  | .clearScrollback => s.clearScrollback

/-- The session after edits, in order. -/
def edits (s : Session) (es : List Edit) : Session := es.foldl edit s

/-- The line that an edit enters, if it is not blank. -/
def Edit.entered? : Edit → Option Text
  | .commit line => if line.all isBlank then none else some line
  | _ => none

/-- The lines that edits enter, oldest first. -/
def entered (es : List Edit) : List Text := es.filterMap Edit.entered?

end Session

/-! ## The window -/

namespace History

variable {h h' : History} {limit : Nat} {log : List Text} {line : Text} {shown : Option Text}

/-- The history holds the end of a log, and a walk through it is at one of its entries. -/
structure Keeps (limit : Nat) (log : List Text) (h : History) : Prop where
  limited : h.limit = limit
  positive : 1 ≤ limit
  window : h.entries = log.rtake limit
  inside : ∀ position, h.cursor = some position → position < h.entries.length

theorem keeps_start (limit : Nat) : Keeps (max limit 1) [] (start limit) :=
  ⟨rfl, Nat.le_max_right limit 1, (List.rtake_nil _).symm, nofun⟩

theorem length_rtake (limit : Nat) (log : List Text) :
    (log.rtake limit).length = min limit log.length := by
  rw [List.rtake, List.length_drop]
  omega

/-- A log that grows by a line loses its oldest one from a window that is full. -/
theorem rtake_concat (hlimit : 1 ≤ limit) (log : List Text) (line : Text) :
    (log ++ [line]).rtake limit =
      (if limit ≤ (log.rtake limit).length then (log.rtake limit).drop 1 else log.rtake limit) ++
        [line] := by
  obtain ⟨n, rfl⟩ : ∃ n, limit = n + 1 := ⟨limit - 1, by omega⟩
  rw [List.rtake_concat_succ, length_rtake]
  congr 1
  by_cases hfull : n + 1 ≤ log.length
  · rw [if_pos (by omega), List.rtake, List.rtake, List.drop_drop]
    congr 1
    omega
  · rw [if_neg (by omega), List.rtake, List.rtake]
    congr 1
    omega

theorem commit_of_isBlank (hline : Text.IsBlank line) :
    h.commit line = { h with cursor := none } := by
  simp [commit, Text.trim_eq_nil_iff.2 hline]

theorem commit_of_not_isBlank (hline : ¬ Text.IsBlank line) :
    h.commit line =
      { h with
        entries := (if h.limit ≤ h.entries.length then h.entries.drop 1 else h.entries) ++ [line]
        cursor := none } := by
  simp [commit, mt Text.trim_eq_nil_iff.1 hline]

/-- Entering a line moves the window on and ends the walk. -/
theorem Keeps.commit (hk : h.Keeps limit log) (line : Text) :
    (h.commit line).Keeps limit (log ++ (Session.Edit.commit line).entered?.toList) := by
  have hall : line.all isBlank = true ↔ Text.IsBlank line := List.all_eq_true
  by_cases hline : Text.IsBlank line
  · simp only [commit_of_isBlank hline, Session.Edit.entered?, hall.2 hline, if_true,
      Option.toList_none, List.append_nil]
    exact ⟨hk.limited, hk.positive, hk.window, nofun⟩
  · simp only [commit_of_not_isBlank hline, Session.Edit.entered?, mt hall.1 hline]
    refine ⟨hk.limited, hk.positive, ?_, nofun⟩
    show _ = (log ++ [line]).rtake limit
    rw [rtake_concat hk.positive, ← hk.window, hk.limited]

theorem Keeps.previousPosition_lt (hk : h.Keeps limit log) (hne : h.entries ≠ []) :
    h.previousPosition < h.entries.length := by
  have hpos := List.length_pos_of_ne_nil hne
  rw [previousPosition]
  cases hc : h.cursor with
  | none => exact Nat.sub_lt hpos Nat.one_pos
  | some position => exact (Nat.sub_le position 1).trans_lt (hk.inside position hc)

/-- A step back shows the entry at that position; there is none only if there are no entries. -/
theorem Keeps.back_cases (hk : h.Keeps limit log) :
    (h.entries = [] ∧ h.back = none) ∨
      ∃ entry, h.entries[h.previousPosition]? = some entry ∧
        h.back = some (some entry, { h with cursor := some h.previousPosition }) := by
  by_cases hne : h.entries = []
  · exact .inl ⟨hne, by simp [History.back, hne]⟩
  · have hget := List.getElem?_eq_getElem (hk.previousPosition_lt hne)
    exact .inr ⟨_, hget, by simp [History.back, hget, hne]⟩

/-- A step forward shows the next entry; there is none only after the newest one. -/
theorem Keeps.forward_cases (hk : h.Keeps limit log) :
    (h.cursor = none ∧ h.forward = none) ∨
      ∃ position, h.cursor = some position ∧
        ((position + 1 = h.entries.length ∧
            h.forward = some (some [], { h with cursor := none })) ∨
          ∃ entry, h.entries[position + 1]? = some entry ∧
            h.forward = some (some entry, { h with cursor := some (position + 1) })) := by
  cases hc : h.cursor with
  | none => exact .inl ⟨rfl, by simp [History.forward, hc]⟩
  | some position =>
    have hinside := hk.inside position hc
    refine .inr ⟨position, rfl, ?_⟩
    by_cases hlast : position + 1 = h.entries.length
    · exact .inl ⟨hlast, by simp [History.forward, hc, hlast]⟩
    · have hlt : position + 1 < h.entries.length := by omega
      have hget := List.getElem?_eq_getElem hlt
      exact .inr ⟨_, hget, by simp [History.forward, hc, hget, hlt.not_ge]⟩

theorem Keeps.moveTo (hk : h.Keeps limit log) {position : Nat} {entry : Text}
    (hget : h.entries[position]? = some entry) :
    Keeps limit log { h with cursor := some position } := by
  refine ⟨hk.limited, hk.positive, hk.window, ?_⟩
  intro position' hposition
  cases hposition
  exact (List.getElem?_eq_some_iff.1 hget).1

theorem Keeps.back (hk : h.Keeps limit log) (hstep : h.back = some (shown, h')) :
    h'.Keeps limit log := by
  rcases hk.back_cases with ⟨-, hnone⟩ | ⟨entry, hget, hsome⟩
  · rw [hnone] at hstep
    cases hstep
  · rw [hsome] at hstep
    cases hstep
    exact hk.moveTo hget

theorem Keeps.forward (hk : h.Keeps limit log) (hstep : h.forward = some (shown, h')) :
    h'.Keeps limit log := by
  rcases hk.forward_cases with ⟨-, hnone⟩ | ⟨position, -, ⟨-, hend⟩ | ⟨entry, hget, hsome⟩⟩
  · rw [hnone] at hstep
    cases hstep
  · rw [hend] at hstep
    cases hstep
    exact ⟨hk.limited, hk.positive, hk.window, nofun⟩
  · rw [hsome] at hstep
    cases hstep
    exact hk.moveTo hget

end History

/-! ## Runs of edits -/

namespace Session

variable {s : Session} {limit : Nat} {log : List Text} {step : Option (Option Text × History)}

theorem keeps_follow (hk : s.history.Keeps limit log)
    (hstep : ∀ shown h, step = some (shown, h) → h.Keeps limit log) :
    (s.follow step).history.Keeps limit log := by
  cases step with
  | none => exact hk
  | some next => exact hstep next.1 next.2 rfl

theorem recallPrevious_of_back {text : Text} {h : History}
    (hback : s.history.back = some (some text, h)) :
    s.recallPrevious = { s with input := text, history := h } := by
  rw [recallPrevious, hback, follow, Option.getD_some]

theorem recallNext_of_forward {text : Text} {h : History}
    (hforward : s.history.forward = some (some text, h)) :
    s.recallNext = { s with input := text, history := h } := by
  rw [recallNext, hforward, follow, Option.getD_some]

/-- **One edit** moves the window on with the log. -/
theorem keeps_edit (hk : s.history.Keeps limit log) (e : Edit) :
    (s.edit e).history.Keeps limit (log ++ e.entered?.toList) := by
  cases e with
  | commit line => exact hk.commit line
  | recallPrevious =>
    simp only [Edit.entered?, Option.toList_none, List.append_nil]
    exact keeps_follow hk fun _ _ => hk.back
  | recallNext =>
    simp only [Edit.entered?, Option.toList_none, List.append_nil]
    exact keeps_follow hk fun _ _ => hk.forward
  | _ =>
    simp only [Edit.entered?, Option.toList_none, List.append_nil]
    exact hk

/-- **A run of edits** does so with all that it enters. -/
theorem keeps_edits (hk : s.history.Keeps limit log) (es : List Edit) :
    (s.edits es).history.Keeps limit (log ++ entered es) := by
  induction es generalizing s log with
  | nil =>
    rw [entered, List.filterMap_nil, List.append_nil]
    exact hk
  | cons e es ih =>
    have hentered : entered (e :: es) = e.entered?.toList ++ entered es := by
      cases he : e.entered? <;> simp [entered, he]
    rw [hentered, ← List.append_assoc]
    exact ih (keeps_edit hk e)

/-- **A history is the end of what was entered**, up to its limit and as it was typed. A walk
through it is always at one of its entries, so that a step back shows an entry whenever there are
any, and a step forward shows the next one unless the newest was shown. -/
theorem edits_keeps_end (limit : Nat) (es : List Edit) :
    let s := (start limit).edits es
    let h := s.history
    h.entries = (entered es).rtake (max limit 1) ∧
      h.entries.length ≤ max limit 1 ∧
      (∀ position, h.cursor = some position → position < h.entries.length) ∧
      (h.entries ≠ [] → ∃ entry, h.entries[h.previousPosition]? = some entry ∧
        s.recallPrevious.input = entry ∧
          s.recallPrevious.history = { h with cursor := some h.previousPosition }) ∧
      ∀ position, h.cursor = some position →
        (position + 1 = h.entries.length ∧ s.recallNext.input = [] ∧
            s.recallNext.history = { h with cursor := none }) ∨
          ∃ entry, h.entries[position + 1]? = some entry ∧ s.recallNext.input = entry ∧
            s.recallNext.history = { h with cursor := some (position + 1) } := by
  intro s h
  have hstart : (start limit).history.Keeps (max limit 1) [] := History.keeps_start limit
  have hk : h.Keeps (max limit 1) (entered es) := keeps_edits hstart es
  refine ⟨hk.window, ?_, hk.inside, ?_, ?_⟩
  · rw [hk.window, History.length_rtake]
    exact Nat.min_le_left ..
  · intro hne
    rcases hk.back_cases with ⟨hnil, -⟩ | ⟨entry, hget, hback⟩
    · exact absurd hnil hne
    · rw [recallPrevious_of_back hback]
      exact ⟨entry, hget, rfl, rfl⟩
  · intro position hcursor
    rcases hk.forward_cases with ⟨hnone, -⟩ | ⟨position', hcursor', hstep⟩
    · rw [hnone] at hcursor
      cases hcursor
    · rw [hcursor] at hcursor'
      cases hcursor'
      rcases hstep with ⟨hlast, hend⟩ | ⟨entry, hget, hnext⟩
      · rw [recallNext_of_forward hend]
        exact .inl ⟨hlast, rfl, rfl⟩
      · rw [recallNext_of_forward hnext]
        exact .inr ⟨entry, hget, rfl, rfl⟩

/-- A limit of zero keeps one line, blanks and all. -/
example : ((start 0).edits [.commit "ls", .recallPrevious, .commit " ", .commit " cd "]).history =
    { entries := [" cd ".toList], limit := 1 } := by
  decide

end Session

end Showcase
