import Mathlib.Tactic.SplitIfs
import Showcase.Style.Color

/-!
# Colors in base sixteen

What a text has to look like to be read as a color, and what becomes of it when the color is
written again.

**Digits.** A digit has a value below sixteen and a form in either case (`IsHexDigit`), and it is
written in upper case (`IsHexDigit.toUpper_eq`).

**Channels.** A channel is given by two digits (`IsChannel`). The reader is more lenient: a plus
sign is taken for a zero in front of the second digit (`IsSignedChannel`), and for nothing else.

**Colors.** A text that writes a color is `#` and three channels, or four with the last for the
alpha channel (`WrittenBy`). What is read are exactly these texts, with the lenient channels;
those that have no plus sign are exactly the ones with digits alone. The color that was read is
written as the text in upper case, with zeros for plus signs and without a last `FF` for alpha.

Main result: `parse?_eq_some_iff_written`.
-/

namespace Showcase

/-! ## Digits -/

/-- The digits in base sixteen by value, in upper case. -/
def upperHexDigits : List Char :=
  ['0', '1', '2', '3', '4', '5', '6', '7', '8', '9', 'A', 'B', 'C', 'D', 'E', 'F']

/-- The digits in base sixteen by value, in lower case. -/
def lowerHexDigits : List Char :=
  ['0', '1', '2', '3', '4', '5', '6', '7', '8', '9', 'a', 'b', 'c', 'd', 'e', 'f']

/-- The character is the digit of that value, in either case. -/
def IsHexDigit (c : Char) (n : Nat) : Prop :=
  upperHexDigits[n]? = some c ∨ lowerHexDigits[n]? = some c

instance (c : Char) (n : Nat) : Decidable (IsHexDigit c n) := inferInstanceAs (Decidable (_ ∨ _))

variable {c : Char} {n : Nat}

/-- What holds of sixteen characters of either case holds of all digits. -/
theorem IsHexDigit.of_all {P : Char → Nat → Prop} (h : IsHexDigit c n)
    (upper : ∀ n (hn : n < 16), P (upperHexDigits.get ⟨n, hn⟩) n)
    (lower : ∀ n (hn : n < 16), P (lowerHexDigits.get ⟨n, hn⟩) n) : P c n := by
  rcases h with h | h
  · obtain ⟨hn, rfl⟩ := List.getElem?_eq_some_iff.1 h
    exact upper n hn
  · obtain ⟨hn, rfl⟩ := List.getElem?_eq_some_iff.1 h
    exact lower n hn

theorem IsHexDigit.lt (h : IsHexDigit c n) : n < 16 :=
  h.of_all (P := fun _ n => n < 16) (fun _ hn => hn) (fun _ hn => hn)

theorem IsHexDigit.toUpper_eq (h : IsHexDigit c n) : c.toUpper = upperHexDigit n :=
  h.of_all (P := fun c n => c.toUpper = upperHexDigit n) (by decide) (by decide)

theorem IsHexDigit.ne_plus (h : IsHexDigit c n) : c ≠ '+' :=
  h.of_all (P := fun c _ => c ≠ '+') (by decide) (by decide)

/-- What holds of the code points in a range holds of the characters. -/
theorem of_le_of_le {P : Char → Prop} {first last : Char} (h : first ≤ c ∧ c ≤ last)
    (all : ∀ k ≤ last.toNat, first.toNat ≤ k → P (Char.ofNat k)) : P c := by
  rw [← Char.ofNat_toNat c]
  exact all c.toNat h.2 h.1

/-- The digits are read with their values, and nothing else is. -/
theorem hexDigit?_eq_some_iff : hexDigit? c = some n ↔ IsHexDigit c n := by
  refine ⟨fun h => ?_, fun h => ?_⟩
  · rw [hexDigit?] at h
    split_ifs at h with hdigit hlower hupper
    · cases h
      exact of_le_of_le (P := fun c => IsHexDigit c (c.toNat - '0'.toNat)) hdigit (by decide)
    · cases h
      exact of_le_of_le (P := fun c => IsHexDigit c (c.toNat - 'a'.toNat + 10)) hlower (by decide)
    · cases h
      exact of_le_of_le (P := fun c => IsHexDigit c (c.toNat - 'A'.toNat + 10)) hupper (by decide)
  · exact h.of_all (P := fun c n => hexDigit? c = some n) (by decide) (by decide)

/-! ## Channels -/

namespace Color

variable {high low : Char} {v : UInt8} {s : Text} {color : Color}

/-- The channel that two digits write. -/
def IsChannel (high low : Char) (v : UInt8) : Prop :=
  ∃ h l, IsHexDigit high h ∧ IsHexDigit low l ∧ v.toNat = 16 * h + l

/-- The character, or a zero for a plus sign. -/
def unsigned (c : Char) : Char := if c = '+' then '0' else c

/-- The channel that two characters write if a plus sign in front counts as a zero. -/
def IsSignedChannel (high low : Char) (v : UInt8) : Prop := IsChannel (unsigned high) low v

theorem ofNat_eq_iff {h l : Nat} (hh : h < 16) (hl : l < 16) :
    UInt8.ofNat (16 * h + l) = v ↔ v.toNat = 16 * h + l := by
  have hfits : 16 * h + l < 256 := by omega
  constructor
  · rintro rfl
    exact UInt8.toNat_ofNat_of_lt' hfits
  · intro hv
    rw [← hv, UInt8.ofNat_toNat]

theorem channel?_eq (high low : Char) :
    channel? high low = (hexDigit? (unsigned high)).bind fun h =>
      (hexDigit? low).map fun l => UInt8.ofNat (16 * h + l) := by
  rw [channel?, unsigned]
  split_ifs with hplus
  · show _ = (hexDigit? low).map fun l => UInt8.ofNat (16 * 0 + l)
    simp only [Nat.mul_zero, Nat.zero_add]
  · rfl

theorem channel?_eq_some_iff : channel? high low = some v ↔ IsSignedChannel high low v := by
  simp only [channel?_eq, Option.bind_eq_some_iff, Option.map_eq_some_iff, hexDigit?_eq_some_iff]
  constructor
  · rintro ⟨h, hh, l, hl, hv⟩
    exact ⟨h, l, hh, hl, (ofNat_eq_iff hh.lt hl.lt).1 hv⟩
  · rintro ⟨h, l, hh, hl, hv⟩
    exact ⟨h, hh, l, hl, (ofNat_eq_iff hh.lt hl.lt).2 hv⟩

theorem IsSignedChannel.plus_ne_low (h : IsSignedChannel high low v) : '+' ≠ low := by
  obtain ⟨-, l, -, hl, -⟩ := h
  exact hl.ne_plus.symm

theorem isChannel_iff : IsChannel high low v ↔ IsSignedChannel high low v ∧ '+' ≠ high := by
  constructor
  · rintro ⟨h, l, hh, hl, hv⟩
    exact ⟨⟨h, l, by rwa [unsigned, if_neg hh.ne_plus], hl, hv⟩, hh.ne_plus.symm⟩
  · rintro ⟨hsigned, hne⟩
    rwa [IsSignedChannel, unsigned, if_neg hne.symm] at hsigned

/-- The character in upper case, or a zero for a plus sign. -/
def shown (c : Char) : Char := (unsigned c).toUpper

theorem IsSignedChannel.hexByte_eq (h : IsSignedChannel high low v) :
    hexByte v = [shown high, shown low] := by
  have hlow : unsigned low = low := if_neg h.plus_ne_low.symm
  obtain ⟨n, m, hn, hm, hv⟩ := h
  have hlt : m < 16 := hm.lt
  have hdiv : v.toNat / 16 = n := by omega
  have hmod : v.toNat % 16 = m := by omega
  rw [hexByte, hdiv, hmod, shown, shown, hlow, hn.toUpper_eq, hm.toUpper_eq]

/-! ## Colors -/

/-- The text writes the color: `#` and its channels, each given by two characters, with or without
the one for alpha. -/
inductive WrittenBy (channel : Char → Char → UInt8 → Prop) : Text → Color → Prop where
  | six {r₁ r₂ g₁ g₂ b₁ b₂ : Char} {red green blue : UInt8} (hr : channel r₁ r₂ red)
      (hg : channel g₁ g₂ green) (hb : channel b₁ b₂ blue) :
      WrittenBy channel ['#', r₁, r₂, g₁, g₂, b₁, b₂] { red, green, blue, alpha := 255 }
  | eight {r₁ r₂ g₁ g₂ b₁ b₂ a₁ a₂ : Char} {red green blue alpha : UInt8} (hr : channel r₁ r₂ red)
      (hg : channel g₁ g₂ green) (hb : channel b₁ b₂ blue) (ha : channel a₁ a₂ alpha) :
      WrittenBy channel ['#', r₁, r₂, g₁, g₂, b₁, b₂, a₁, a₂] { red, green, blue, alpha }

theorem parse?_eq_some_iff : parse? s = some color ↔ WrittenBy IsSignedChannel s color := by
  constructor
  · intro h
    rw [parse?.eq_def] at h
    split at h
    · simp only [Option.bind_eq_bind, Option.bind_eq_some_iff, channel?_eq_some_iff,
        Option.pure_def, Option.some.injEq] at h
      obtain ⟨red, hr, green, hg, blue, hb, rfl⟩ := h
      exact .six hr hg hb
    · simp only [Option.bind_eq_bind, Option.bind_eq_some_iff, channel?_eq_some_iff,
        Option.pure_def, Option.some.injEq] at h
      obtain ⟨red, hr, green, hg, blue, hb, alpha, ha, rfl⟩ := h
      exact .eight hr hg hb ha
    · cases h
  · intro h
    cases h with
    | six hr hg hb =>
      simp only [← channel?_eq_some_iff] at hr hg hb
      rw [parse?, hr, hg, hb]
      rfl
    | eight hr hg hb ha =>
      simp only [← channel?_eq_some_iff] at hr hg hb ha
      rw [parse?, hr, hg, hb, ha]
      rfl

theorem writtenBy_isChannel_iff :
    WrittenBy IsChannel s color ↔ WrittenBy IsSignedChannel s color ∧ '+' ∉ s := by
  constructor
  · intro h
    cases h with
    | six hr hg hb =>
      rw [isChannel_iff] at hr hg hb
      refine ⟨.six hr.1 hg.1 hb.1, ?_⟩
      simp [hr, hg, hb, hr.1.plus_ne_low, hg.1.plus_ne_low, hb.1.plus_ne_low]
    | eight hr hg hb ha =>
      rw [isChannel_iff] at hr hg hb ha
      refine ⟨.eight hr.1 hg.1 hb.1 ha.1, ?_⟩
      simp [hr, hg, hb, ha, hr.1.plus_ne_low, hg.1.plus_ne_low, hb.1.plus_ne_low,
        ha.1.plus_ne_low]
  · rintro ⟨h, hplus⟩
    cases h with
    | six hr hg hb =>
      simp only [List.mem_cons, not_or] at hplus
      obtain ⟨-, hr', -, hg', -, hb', -⟩ := hplus
      exact .six (isChannel_iff.2 ⟨hr, hr'⟩) (isChannel_iff.2 ⟨hg, hg'⟩) (isChannel_iff.2 ⟨hb, hb'⟩)
    | eight hr hg hb ha =>
      simp only [List.mem_cons, not_or] at hplus
      obtain ⟨-, hr', -, hg', -, hb', -, ha', -⟩ := hplus
      exact .eight (isChannel_iff.2 ⟨hr, hr'⟩) (isChannel_iff.2 ⟨hg, hg'⟩)
        (isChannel_iff.2 ⟨hb, hb'⟩) (isChannel_iff.2 ⟨ha, ha'⟩)

/-- **What was read is written again** in upper case, but for a last `FF` of an opaque color. -/
theorem text_of_writtenBy (h : WrittenBy IsSignedChannel s color) :
    color.text ++ (if s.length = 9 ∧ color.alpha = 255 then ['F', 'F'] else []) = s.map shown := by
  have hmark : shown '#' = '#' := rfl
  cases h with
  | six hr hg hb => simp [text, hr.hexByte_eq, hg.hexByte_eq, hb.hexByte_eq, hmark]
  | @eight _ _ _ _ _ _ _ _ _ _ _ alpha hr hg hb ha =>
    by_cases hopaque : alpha = 255
    · subst hopaque
      have hbyte : ['F', 'F'] = [shown _, shown _] := ha.hexByte_eq
      simp [text, hr.hexByte_eq, hg.hexByte_eq, hb.hexByte_eq, hbyte, hmark]
    · simp [text, hr.hexByte_eq, hg.hexByte_eq, hb.hexByte_eq, ha.hexByte_eq, hmark, hopaque]

/-- **The texts that are colors.** What is read is `#` and six or eight digits of either case, two
for each channel, where a plus sign may stand for a zero in front; alpha is 255 if it is left out.
The texts without a plus sign are those of digits alone. The color is written as the text was, in
upper case, with zeros for plus signs and without a last `FF` for alpha. -/
theorem parse?_eq_some_iff_written (s : Text) (color : Color) :
    (parse? s = some color ↔ WrittenBy IsSignedChannel s color) ∧
      (WrittenBy IsChannel s color ↔ parse? s = some color ∧ '+' ∉ s) ∧
      (parse? s = some color →
        color.text ++ (if s.length = 9 ∧ color.alpha = 255 then ['F', 'F'] else []) =
          s.map shown) :=
  ⟨parse?_eq_some_iff, by rw [writtenBy_isChannel_iff, parse?_eq_some_iff],
    fun h => text_of_writtenBy (parse?_eq_some_iff.1 h)⟩

/-- Plus signs are read, though no text of digits alone has one. -/
theorem parse?_plus :
    parse? "#+1+2+3" = some { red := 1, green := 2, blue := 3 } ∧
      ¬ ∃ color, WrittenBy IsChannel "#+1+2+3" color := by
  refine ⟨by decide, ?_⟩
  rintro ⟨color, h⟩
  exact (writtenBy_isChannel_iff.1 h).2 (by decide)

end Color

end Showcase
