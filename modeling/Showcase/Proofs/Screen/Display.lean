import Mathlib.Tactic.SplitIfs
import Showcase.Proofs.Screen.Rows
import Showcase.Screen.Terminal

/-!
# A display

What a terminal makes of the characters that it is sent. It reads them one by one: a character is
shown at the cursor in the style of the pen, and `ESC [` starts a sequence of parameters and one
final letter that says what to do.

**A display is strict.** It has no answer (`none`) to a character for which there is no column left,
to a move off the screen, to a control character, and to a sequence that it does not know. So a
stream that a display can read writes nowhere but on the screen.

**Streams of controls** (`run_encode`). The characters of a list of controls do to a display what
the controls do one after the other (`perform`).
-/

namespace Showcase.Screen

/-- A character of the Unicode category `Cc`, which is no text but an order to a terminal. -/
def isControl (c : Char) : Bool := c.toNat < 0x20 || (0x7F ≤ c.toNat && c.toNat ≤ 0x9F)

/-- The style in which a terminal writes. -/
structure Pen where
  /-- Red, green and blue, unless it is the terminal's own color. -/
  color : Option (UInt8 × UInt8 × UInt8) := none
  bold : Bool := false
  deriving DecidableEq, Repr

/-- A character on a screen. -/
structure Cell where
  char : Char
  pen : Pen
  deriving DecidableEq, Repr

/-- What the characters to come belong to. -/
inductive Reading where
  | characters
  /-- An escape character was read. -/
  | escape
  /-- A sequence has begun, and these characters of it were read. -/
  | sequence (parameters : Text)
  deriving DecidableEq, Repr

structure Display where
  width : Nat
  height : Nat
  /-- What is in a row and column; `none` is blank. -/
  cells : Nat → Nat → Option Cell := fun _ _ => none
  row : Nat := 0
  column : Nat := 0
  pen : Pen := {}
  cursorShown : Bool := false
  reading : Reading := .characters

/-- The number that decimal digits stand for. -/
def number? (digits : Text) : Option Nat :=
  if digits ≠ [] ∧ digits.all Char.isDigit then some (Nat.ofDigitChars 10 digits 0) else none

/-- The numbers between semicolons. -/
def numbers? (parameters : Text) : Option (List Nat) := (parameters.splitOn ';').mapM number?

/-- The character ends a sequence. -/
def isFinal (c : Char) : Bool := 0x40 ≤ c.toNat && c.toNat ≤ 0x7E

/-- The cells with some of them, from a column of a row on, exchanged. -/
def lay (cells : Nat → Nat → Option Cell) (row column : Nat) (text : List Cell) :
    Nat → Nat → Option Cell := fun r k =>
  if r = row ∧ column ≤ k then (text[k - column]?).or (cells r k) else cells r k

namespace Display

/-- A display on which nothing is shown. -/
def blank (width height : Nat) : Display := { width, height }

/-! ## What a display can do -/

def erase (d : Display) : Display := { d with cells := fun _ _ => none }

/-- Moves the cursor to a row and column of the screen. -/
def moveTo? (d : Display) (row column : Nat) : Option Display :=
  if row < d.height ∧ column < d.width then some { d with row, column } else none

/-- Puts cells where the cursor is and the cursor behind them. -/
def type (d : Display) (text : List Cell) : Display :=
  { d with cells := lay d.cells d.row d.column text, column := d.column + text.length }

/-- Writes one character, if it is text and there is a column for it. -/
def write? (d : Display) (c : Char) : Option Display :=
  if isControl c = false ∧ d.row < d.height ∧ d.column < d.width then
    some (d.type [{ char := c, pen := d.pen }])
  else none

/-- Changes the pen as a sequence of numbers says. -/
def setPen? (d : Display) : List Nat → Option Display
  | [0] => some { d with pen := {} }
  | [1] => some { d with pen := { d.pen with bold := true } }
  | [38, 2, red, green, blue] =>
    if red < 256 ∧ green < 256 ∧ blue < 256 then
      some { d with pen.color := some (.ofNat red, .ofNat green, .ofNat blue) }
    else none
  | _ => none

/-- Moves to a position that is counted from one. -/
def place? (d : Display) : List Nat → Option Display
  | [row + 1, column + 1] => d.moveTo? row column
  | _ => none

/-- Obeys a sequence. -/
def obey? (d : Display) (parameters : Text) (final : Char) : Option Display :=
  if final = 'm' then (numbers? parameters).bind d.setPen?
  else if final = 'H' then (numbers? parameters).bind d.place?
  else if final = 'J' ∧ parameters = "2".toList then some d.erase
  else if final = 'h' ∧ parameters = "?25".toList then some { d with cursorShown := true }
  else none

/-- Reads one character. -/
def read? (d : Display) (c : Char) : Option Display :=
  match d.reading with
  | .characters => if c = '\x1b' then some { d with reading := .escape } else d.write? c
  | .escape => if c = '[' then some { d with reading := .sequence [] } else none
  | .sequence parameters =>
    if isFinal c then { d with reading := .characters }.obey? parameters c
    else some { d with reading := .sequence (parameters ++ [c]) }

/-- Reads characters in order. -/
def run (d : Display) (stream : Text) : Option Display := stream.foldlM read? d

/-- What a control does to a display. -/
def perform (d : Display) : Control → Option Display
  | .clear => some d.erase
  | .moveTo column row => d.moveTo? row.toNat column.toNat
  | .foreground red green blue => some { d with pen.color := some (red, green, blue) }
  | .bold => some { d with pen.bold := true }
  | .print text => text.foldlM write? d
  | .resetAttribute => some { d with pen := {} }
  | .resetColor => some { d with pen := {} }
  | .showCursor => some { d with cursorShown := true }

end Display

/-- The control holds no text with control characters. -/
def Control.IsPlain : Control → Prop
  | .print text => ∀ c ∈ text, isControl c = false
  | _ => True

/-! ## Numbers -/

theorem isDigit_decimal (n : Nat) : ∀ c ∈ decimal n, c.isDigit = true := fun _ hc =>
  Nat.isDigit_of_mem_toDigits (by decide) (by decide) hc

theorem number?_decimal (n : Nat) : number? (decimal n) = some n := by
  have hdigits : (decimal n).all Char.isDigit := by simpa using isDigit_decimal n
  rw [number?, if_pos ⟨Nat.toDigits_ne_nil, hdigits⟩]
  exact congrArg some Nat.ofDigitChars_ten_toDigits

theorem splitOn_decimal (n : Nat) : (decimal n).splitOn ';' = [decimal n] := by
  rw [List.splitOn_eq_splitOnP]
  refine List.splitOnP_eq_singleton fun c hc => ?_
  have hdigit := isDigit_decimal n c hc
  rw [beq_eq_false_iff_ne]
  rintro rfl
  exact absurd hdigit (by decide)

theorem numbers?_decimal (n : Nat) : numbers? (decimal n) = some [n] := by
  simp [numbers?, splitOn_decimal, number?_decimal]

theorem numbers?_decimal_append (n : Nat) (rest : Text) :
    numbers? (decimal n ++ ';' :: rest) = (numbers? rest).map (n :: ·) := by
  have hn := splitOn_decimal n
  rw [List.splitOn_eq_splitOnP] at hn
  rw [numbers?, numbers?, List.splitOn_eq_splitOnP, List.splitOn_eq_splitOnP,
    List.splitOnP_append_cons _ _ (by simp), hn, List.singleton_append, List.mapM_cons,
    number?_decimal]
  cases (rest.splitOnP fun c => c == ';').mapM number? <;> rfl

/-! ## Reading what controls are written as -/

namespace Display

variable {d : Display}

theorem run_append (d : Display) (s t : Text) :
    d.run (s ++ t) = (d.run s).bind fun d' => d'.run t := List.foldlM_append

theorem run_cons (d : Display) (c : Char) (s : Text) :
    d.run (c :: s) = (d.read? c).bind fun d' => d'.run s := List.foldlM_cons

theorem run_parameters {parameters : Text} (hp : ∀ c ∈ parameters, isFinal c = false)
    (before : Text) :
    { d with reading := .sequence before }.run parameters =
      some { d with reading := .sequence (before ++ parameters) } := by
  induction parameters generalizing before with
  | nil => rw [List.append_nil]; rfl
  | cons c parameters ih =>
    have hc : isFinal c = false := hp c List.mem_cons_self
    have hread : { d with reading := .sequence before }.read? c =
        some { d with reading := .sequence (before ++ [c]) } := by
      simp [read?, hc]
    rw [run_cons, hread, Option.bind_some, ih fun c hc => hp c (List.mem_cons_of_mem _ hc),
      List.append_assoc, List.singleton_append]

/-- A sequence is obeyed when its final letter is read. -/
theorem run_escapeSequence (hd : d.reading = .characters) (parameters : Text) {final : Char}
    (hp : ∀ c ∈ parameters, isFinal c = false) (hf : isFinal final = true) :
    d.run (escapeSequence (parameters ++ [final])) = d.obey? parameters final := by
  have hescape : d.read? '\x1b' = some { d with reading := .escape } := by simp [read?, hd]
  have hopen : { d with reading := .escape }.read? '[' =
      some { d with reading := .sequence [] } := rfl
  have hself : { d with reading := .characters } = d := by rw [← hd]
  have hfinal : { d with reading := .sequence parameters }.read? final =
      d.obey? parameters final := by
    simp [read?, hf, hself]
  rw [escapeSequence, run_cons, hescape, Option.bind_some, run_cons, hopen, Option.bind_some,
    run_append, run_parameters hp, Option.bind_some, List.nil_append, run_cons, hfinal]
  exact Option.bind_fun_some _

theorem isFinal_of_isDigit {c : Char} (h : c.isDigit = true) : isFinal c = false := by
  simp only [Char.isDigit, Bool.and_eq_true, decide_eq_true_eq] at h
  have hc : c.toNat ≤ 57 := h.2
  simp [isFinal]
  omega

theorem isFinal_decimal (n : Nat) : ∀ c ∈ decimal n, isFinal c = false := fun c hc =>
  isFinal_of_isDigit (isDigit_decimal n c hc)

theorem isFinal_decimal_append {n : Nat} {rest : Text} (h : ∀ c ∈ rest, isFinal c = false) :
    ∀ c ∈ decimal n ++ ';' :: rest, isFinal c = false := by
  intro c hc
  rcases List.mem_append.1 hc with hc | hc
  · exact isFinal_decimal n c hc
  · rcases List.mem_cons.1 hc with rfl | hc
    · decide
    · exact h c hc

theorem run_moveTo (hd : d.reading = .characters) (column row : UInt16) :
    d.run (Control.moveTo column row).encode = d.perform (.moveTo column row) := by
  rw [Control.encode,
    run_escapeSequence hd _ (isFinal_decimal_append (isFinal_decimal _)) (by decide)]
  simp [obey?, numbers?_decimal_append, numbers?_decimal, place?, perform]

theorem run_foreground (hd : d.reading = .characters) (red green blue : UInt8) :
    d.run (Control.foreground red green blue).encode = d.perform (.foreground red green blue) := by
  have hencode : (Control.foreground red green blue).encode =
      escapeSequence ((decimal 38 ++ ';' :: (decimal 2 ++ ';' :: (decimal red.toNat ++ ';' ::
        (decimal green.toNat ++ ';' :: decimal blue.toNat)))) ++ ['m']) := by
    have hstart : "38;2;".toList = decimal 38 ++ ';' :: (decimal 2 ++ [';']) := by decide
    simp [Control.encode, hstart]
  rw [hencode, run_escapeSequence hd _ (isFinal_decimal_append <| isFinal_decimal_append <|
    isFinal_decimal_append <| isFinal_decimal_append <| isFinal_decimal _) (by decide)]
  have hbyte (b : UInt8) : b.toNat < 256 := b.toNat_lt
  simp [obey?, numbers?_decimal_append, numbers?_decimal, setPen?, perform, hbyte]

theorem eq_of_moveTo? {row column : Nat} {d' : Display} (h : d.moveTo? row column = some d') :
    d' = { d with row, column } := by
  rw [moveTo?] at h
  split_ifs at h
  exact (Option.some.inj h).symm

theorem exists_write?_eq {c : Char} {d' : Display} (h : d.write? c = some d') :
    ∃ cells column, d' = { d with cells, column } := by
  rw [write?] at h
  split_ifs at h
  cases h
  exact ⟨_, _, rfl⟩

theorem exists_foldlM_write?_eq {text : Text} {d' : Display} (h : text.foldlM write? d = some d') :
    ∃ cells column, d' = { d with cells, column } := by
  induction text generalizing d with
  | nil =>
    cases h
    exact ⟨_, _, rfl⟩
  | cons c text ih =>
    rw [List.foldlM_cons] at h
    obtain ⟨d₁, hwrite, hrest⟩ := Option.bind_eq_some_iff.1 h
    obtain ⟨_, _, rfl⟩ := exists_write?_eq hwrite
    obtain ⟨cells, column, rfl⟩ := ih hrest
    exact ⟨cells, column, rfl⟩

theorem run_text (hd : d.reading = .characters) {text : Text}
    (ht : ∀ c ∈ text, isControl c = false) : d.run text = text.foldlM write? d := by
  induction text generalizing d with
  | nil => rfl
  | cons c text ih =>
    have hescape : c ≠ '\x1b' := by
      rintro rfl
      exact absurd (ht _ List.mem_cons_self) (by decide)
    have hread : d.read? c = d.write? c := by simp [read?, hd, hescape]
    rw [run_cons, hread, List.foldlM_cons]
    cases hwrite : d.write? c with
    | none => rfl
    | some d' =>
      obtain ⟨_, _, rfl⟩ := exists_write?_eq hwrite
      exact ih hd fun c hc => ht c (List.mem_cons_of_mem _ hc)

/-- **What a control is written as does what the control does.** -/
theorem run_encode_control (hd : d.reading = .characters) {c : Control} (hc : c.IsPlain) :
    d.run c.encode = d.perform c := by
  cases c with
  | clear => exact run_escapeSequence hd "2".toList (by simp [isFinal]) (by decide)
  | moveTo column row => exact run_moveTo hd column row
  | foreground red green blue => exact run_foreground hd red green blue
  | bold => exact run_escapeSequence hd "1".toList (by simp [isFinal]) (by decide)
  | print text => exact run_text hd hc
  | resetAttribute => exact run_escapeSequence hd "0".toList (by simp [isFinal]) (by decide)
  | resetColor => exact run_escapeSequence hd "0".toList (by simp [isFinal]) (by decide)
  | showCursor =>
    exact run_escapeSequence hd "?25".toList (by simp [isFinal]) (by decide)

theorem reading_of_perform {c : Control} {d' : Display} (h : d.perform c = some d') :
    d'.reading = d.reading := by
  cases c with
  | moveTo column row => rw [eq_of_moveTo? h]
  | print text =>
    obtain ⟨_, _, rfl⟩ := exists_foldlM_write?_eq h
    rfl
  | _ =>
    cases h
    rfl

/-- **What controls are written as does what the controls do**, one after the other. -/
theorem run_encode (hd : d.reading = .characters) {controls : List Control}
    (hc : ∀ c ∈ controls, c.IsPlain) :
    d.run (encode controls) = controls.foldlM perform d := by
  induction controls generalizing d with
  | nil => rfl
  | cons c controls ih =>
    rw [encode, List.flatMap_cons, run_append, List.foldlM_cons,
      run_encode_control hd (hc c List.mem_cons_self)]
    cases hperform : d.perform c with
    | none => rfl
    | some d' =>
      exact ih ((reading_of_perform hperform).trans hd) fun c hmem =>
        hc c (List.mem_cons_of_mem _ hmem)

end Display

end Showcase.Screen
