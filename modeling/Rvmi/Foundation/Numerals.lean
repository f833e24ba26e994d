import Mathlib.Data.List.Induction
import Mathlib.Tactic.Ring
import Rvmi.Foundation.Text

/-!
# Numerals

Printing and reading of non-negative numbers as a stream formats them: lower
case hexadecimal digits, padded on the left to a field width. A field that is
too narrow is ignored, so the width never changes the value.
-/

namespace Rvmi.Foundation

/-! ## Digits -/

def hexDigitValue (c : Char) : Option Nat :=
  "0123456789abcdef".toList.idxOf? c

theorem hexDigitValue_digitChar : ∀ d : Fin 16,
    hexDigitValue (Nat.digitChar d) = some d.val := by
  decide

/-- The digits of a non-negative number in base 16. -/
def hexDigits (n : Nat) : Text := Nat.toDigits 16 n

/-- `std::setw(width) << std::setfill('0')` -/
def setw (width : Nat) (field : Text) : Text := List.leftpad width '0' field

/-! ## Values -/

/-- The value of a run of digits behind a number already read. -/
def hexFold (n : Nat) (digits : Text) : Option Nat :=
  digits.foldlM (fun n c => (hexDigitValue c).map (16 * n + ·)) n

theorem hexFold_append (n : Nat) (s t : Text) :
    hexFold n (s ++ t) = (hexFold n s).bind fun m => hexFold m t := by
  unfold hexFold
  rw [List.foldlM_append]
  rfl

theorem hexFold_digit {d : Nat} (hd : d < 16) (n : Nat) :
    hexFold n [Nat.digitChar d] = some (16 * n + d) := by
  have hdigit : hexDigitValue (Nat.digitChar d) = some d := hexDigitValue_digitChar ⟨d, hd⟩
  unfold hexFold
  rw [List.foldlM_cons, hdigit]
  rfl

theorem hexFold_zeros (k : Nat) : hexFold 0 (List.replicate k '0') = some 0 := by
  induction k with
  | zero => rfl
  | succ k ih =>
      rw [List.replicate_succ, ← List.singleton_append, hexFold_append]
      have hzero : hexFold 0 ['0'] = some 0 := rfl
      rw [hzero]
      exact ih

theorem hexFold_hexDigits (n : Nat) : hexFold 0 (hexDigits n) = some n := by
  induction n using Nat.strong_induction_on with
  | _ n ih =>
      unfold hexDigits
      rw [Nat.toDigits_eq_if (by omega)]
      by_cases hn : n < 16
      · rw [if_pos hn, hexFold_digit hn]
        simp
      · have hdiv := ih (n / 16) (by omega)
        unfold hexDigits at hdiv
        rw [if_neg hn, hexFold_append, hdiv]
        show hexFold (n / 16) [Nat.digitChar (n % 16)] = some n
        rw [hexFold_digit (by omega)]
        congr 1
        omega

/-- Padding does not change the value. -/
theorem hexFold_setw (width n : Nat) : hexFold 0 (setw width (hexDigits n)) = some n := by
  unfold setw List.leftpad
  rw [hexFold_append, hexFold_zeros]
  exact hexFold_hexDigits n

/-- A field that is wide enough has exactly its width. -/
theorem length_setw_hexDigits {width n : Nat} (hwidth : 0 < width) (hn : n < 16 ^ width) :
    (setw width (hexDigits n)).length = width := by
  have hlength : (hexDigits n).length ≤ width :=
    (Nat.length_toDigits_le_iff (by omega) hwidth).mpr hn
  unfold setw
  rw [List.length_leftpad]
  exact Nat.max_eq_left hlength

theorem hexDigitValue_eq_some {c : Char} {d : Nat} (h : hexDigitValue c = some d) :
    d < 16 ∧ c = Nat.digitChar d := by
  obtain ⟨hd, hget, _⟩ := List.findIdx?_eq_some_iff_getElem.mp h
  have hchars : ∀ i : Fin 16, "0123456789abcdef".toList[i.val] = Nat.digitChar i.val := by decide
  exact ⟨hd, (beq_iff_eq.mp hget).symm.trans (hchars ⟨d, hd⟩)⟩

/-- The last digit of a run. -/
theorem hexFold_snoc_eq_some {n m : Nat} {digits : Text} {c : Char}
    (h : hexFold n (digits ++ [c]) = some m) :
    ∃ m₁ d, hexFold n digits = some m₁ ∧ d < 16 ∧ c = Nat.digitChar d ∧ m = 16 * m₁ + d := by
  rw [hexFold_append] at h
  obtain ⟨m₁, hm₁, hlast⟩ := Option.bind_eq_some_iff.mp h
  cases hc : hexDigitValue c with
  | none =>
      unfold hexFold at hlast
      rw [List.foldlM_cons, hc] at hlast
      cases hlast
  | some d =>
      obtain ⟨hd, hchar⟩ := hexDigitValue_eq_some hc
      rw [hchar, hexFold_digit hd] at hlast
      exact ⟨m₁, d, hm₁, hd, hchar, (Option.some.inj hlast).symm⟩

/-- A number already read counts as much as there are digits behind it. -/
theorem hexFold_shift {digits : Text} {m : Nat} (h : hexFold 0 digits = some m) (n : Nat) :
    hexFold n digits = some (16 ^ digits.length * n + m) := by
  induction digits using List.reverseRecOn generalizing m with
  | nil =>
      cases h
      show some n = some (1 * n + 0)
      rw [Nat.one_mul, Nat.add_zero]
  | append_singleton digits c ih =>
      obtain ⟨m₁, d, hm₁, hd, rfl, rfl⟩ := hexFold_snoc_eq_some h
      have hvalue : 16 * (16 ^ digits.length * n + m₁) + d =
          16 ^ (digits.length + 1) * n + (16 * m₁ + d) := by
        rw [Nat.pow_succ]
        ring
      rw [hexFold_append, ih hm₁, List.length_append, List.length_singleton, ← hvalue]
      exact hexFold_digit hd _

/-- Runs of one length with one value are the same run. -/
theorem hexFold_inj {s t : Text} {n : Nat} (hlength : s.length = t.length)
    (hs : hexFold 0 s = some n) (ht : hexFold 0 t = some n) : s = t := by
  induction s using List.reverseRecOn generalizing t n with
  | nil => exact (List.eq_nil_of_length_eq_zero hlength.symm).symm
  | append_singleton s c ih =>
      rcases List.eq_nil_or_concat t with rfl | ⟨t, c', rfl⟩
      · rw [List.length_append] at hlength
        cases hlength
      · obtain ⟨m, d, hm, hd, rfl, rfl⟩ := hexFold_snoc_eq_some hs
        rw [List.concat_eq_append] at ht hlength ⊢
        obtain ⟨m', d', hm', hd', rfl, hvalue⟩ := hexFold_snoc_eq_some ht
        rw [List.length_append, List.length_append] at hlength
        obtain rfl : m = m' := by omega
        obtain rfl : d = d' := by omega
        rw [ih (Nat.add_right_cancel hlength) hm hm']

theorem mem_of_hexFold {digits : Text} {n : Nat} (h : hexFold 0 digits = some n) :
    ∀ c ∈ digits, c ∈ "0123456789abcdef".toList := by
  induction digits using List.reverseRecOn generalizing n with
  | nil =>
      intro c hc
      cases hc
  | append_singleton digits last ih =>
      obtain ⟨m, d, hm, hd, rfl, _⟩ := hexFold_snoc_eq_some h
      have hchars : ∀ d : Fin 16, Nat.digitChar d ∈ "0123456789abcdef".toList := by decide
      intro c hc
      rcases List.mem_append.mp hc with hc | hc
      · exact ih hm c hc
      · rw [List.mem_singleton.mp hc]
        exact hchars ⟨d, hd⟩

/-! ## Prefixed numbers -/

/-- `0x` in front of padded digits. -/
def hexNumeral (width n : Nat) : Text := "0x".toList ++ setw width (hexDigits n)

def readHex : Text → Option Nat
  | '0' :: 'x' :: c :: digits => hexFold 0 (c :: digits)
  | _ => none

theorem readHex_hexNumeral (width n : Nat) : readHex (hexNumeral width n) = some n := by
  have hne : setw width (hexDigits n) ≠ [] := by
    unfold setw List.leftpad hexDigits
    simp
  have hvalue := hexFold_setw width n
  unfold hexNumeral
  obtain ⟨c, ds, hcons⟩ := List.exists_cons_of_ne_nil hne
  rw [hcons] at hvalue ⊢
  exact hvalue

/-- The characters of a prefixed number. -/
def isHexChar (c : Char) : Bool := "0123456789abcdefx".toList.contains c

theorem isHexChar_digitChar : ∀ d : Fin 16, isHexChar (Nat.digitChar d) = true := by
  decide

theorem isHexChar_hexDigits (n : Nat) : ∀ c ∈ hexDigits n, isHexChar c = true := by
  induction n using Nat.strong_induction_on with
  | _ n ih =>
      unfold hexDigits
      rw [Nat.toDigits_eq_if (by omega)]
      by_cases hn : n < 16
      · rw [if_pos hn]
        intro c hc
        rw [List.mem_singleton.mp hc]
        exact isHexChar_digitChar ⟨n, hn⟩
      · rw [if_neg hn]
        intro c hc
        rcases List.mem_append.mp hc with hc | hc
        · exact ih (n / 16) (by omega) c hc
        · rw [List.mem_singleton.mp hc]
          exact isHexChar_digitChar ⟨n % 16, by omega⟩

theorem isHexChar_hexNumeral (width n : Nat) :
    ∀ c ∈ hexNumeral width n, isHexChar c = true := by
  intro c hc
  unfold hexNumeral setw List.leftpad at hc
  rcases List.mem_append.mp hc with hc | hc
  · have hpre : c = '0' ∨ c = 'x' := by simpa using hc
    rcases hpre with rfl | rfl <;> rfl
  · rcases List.mem_append.mp hc with hc | hc
    · rw [(List.mem_replicate.mp hc).2]
      rfl
    · exact isHexChar_hexDigits n c hc

/-! ## Decimal numbers -/

def decDigits (n : Nat) : Text := Nat.toDigits 10 n

theorem decimalValue_decDigits (n : Nat) : decimalValue (decDigits n) = n :=
  Nat.ofDigitChars_ten_toDigits

theorem isDigit_decDigits (n : Nat) : ∀ c ∈ decDigits n, c.isDigit = true := by
  intro c hc
  exact Nat.isDigit_of_mem_toDigits (by omega) (by omega) hc

end Rvmi.Foundation
