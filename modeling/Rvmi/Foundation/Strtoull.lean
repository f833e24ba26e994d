import Mathlib.Data.List.Induction
import Mathlib.Algebra.Group.Nat.Defs
import Rvmi.Foundation.Numerals

/-!
# Numbers as `std::stoull` reads them

The reader for base 0: blanks and a sign may stand in front, the prefix of the number
decides its base, and what stands behind the last digit is ignored. A number behind a
minus sign is negated in the unsigned type.
-/

namespace Rvmi.Foundation

inductive NumberFailure where
  | invalid_argument
  | out_of_range
deriving DecidableEq, Repr

/-- `isspace` -/
def isspace (c : Char) : Bool := [' ', '\t', '\n', '\x0b', '\x0c', '\r'].contains c

/-- The value of a digit; the letters count on from ten. -/
def digitOf (c : Char) : Option Nat :=
  "0123456789abcdefghijklmnopqrstuvwxyz".toList.idxOf? c.toLower

def isDigitOf (base : Nat) (c : Char) : Bool := (digitOf c).any (· < base)

def magnitude (base : Nat) (digits : Text) : Nat :=
  digits.foldl (fun n c => base * n + (digitOf c).getD 0) 0

def readSign : Text → Bool × Text
  | '-' :: text => (true, text)
  | '+' :: text => (false, text)
  | text => (false, text)

/-- A `0x` counts as a prefix only in front of a digit. -/
def detectBase : Text → Nat × Text
  | '0' :: x :: c :: text =>
      if (x = 'x' ∨ x = 'X') ∧ isDigitOf 16 c = true then (16, c :: text)
      else (8, '0' :: x :: c :: text)
  | '0' :: text => (8, '0' :: text)
  | text => (10, text)

/-- `std::stoull(text, nullptr, 0)` -/
def stoull (text : Text) : Except NumberFailure UInt64 :=
  let (negative, text) := readSign (text.dropWhile isspace)
  let (base, text) := detectBase text
  let digits := text.takeWhile (isDigitOf base)
  if digits.isEmpty then .error .invalid_argument
  else if 2 ^ 64 ≤ magnitude base digits then .error .out_of_range
  else
    let value := UInt64.ofNat (magnitude base digits)
    .ok (if negative then -value else value)

/-! ## Digits that were printed -/

theorem digitOf_digitChar : ∀ d : Fin 16, digitOf (Nat.digitChar d) = some d.val := by decide

theorem isDigitOf_digitChar {base d : Nat} (hbase : base ≤ 16) (hd : d < base) :
    isDigitOf base (Nat.digitChar d) = true := by
  have hdigit : digitOf (Nat.digitChar d) = some d := digitOf_digitChar ⟨d, by omega⟩
  unfold isDigitOf
  rw [hdigit]
  exact decide_eq_true hd

theorem magnitude_snoc (base : Nat) (digits : Text) (c : Char) :
    magnitude base (digits ++ [c]) = base * magnitude base digits + (digitOf c).getD 0 := by
  unfold magnitude
  rw [List.foldl_append]
  rfl

/-- What is printed in a base is read back in that base. -/
theorem toDigits_read {base : Nat} (hbase : 1 < base) (hbase' : base ≤ 16) (n : Nat) :
    (∀ c ∈ Nat.toDigits base n, isDigitOf base c = true) ∧
      magnitude base (Nat.toDigits base n) = n := by
  induction n using Nat.strong_induction_on with
  | _ n ih =>
      have hlast {d : Nat} (hd : d < base) : digitOf (Nat.digitChar d) = some d :=
        digitOf_digitChar ⟨d, by omega⟩
      rw [Nat.toDigits_eq_if hbase]
      by_cases hn : n < base
      · rw [if_pos hn]
        constructor
        · intro c hc
          rw [List.mem_singleton.mp hc]
          exact isDigitOf_digitChar hbase' hn
        · unfold magnitude
          rw [List.foldl_cons, List.foldl_nil, hlast hn, Nat.mul_zero, Nat.zero_add]
          rfl
      · have hmod : n % base < base := Nat.mod_lt n (by omega)
        obtain ⟨hdigits, hvalue⟩ := ih (n / base) (Nat.div_lt_self (by omega) hbase)
        rw [if_neg hn]
        constructor
        · intro c hc
          rcases List.mem_append.mp hc with hc | hc
          · exact hdigits c hc
          · rw [List.mem_singleton.mp hc]
            exact isDigitOf_digitChar hbase' hmod
        · rw [magnitude_snoc, hvalue, hlast hmod]
          exact Nat.div_add_mod n base

theorem toDigits_ne_nil {base : Nat} (hbase : 1 < base) (n : Nat) : Nat.toDigits base n ≠ [] := by
  rw [Nat.toDigits_eq_if hbase]
  split
  · exact List.cons_ne_nil _ _
  · simp

/-- A number above zero is not printed with a zero in front. -/
theorem head?_toDigits {base : Nat} (hbase : 1 < base) (hbase' : base ≤ 16) {n : Nat} (hn : n ≠ 0) :
    (Nat.toDigits base n).head? ≠ some '0' := by
  induction n using Nat.strong_induction_on with
  | _ n ih =>
      rw [Nat.toDigits_eq_if hbase]
      by_cases hlt : n < base
      · have hzero : ∀ d : Fin 16, Nat.digitChar d = '0' → d.val = 0 := by decide
        rw [if_pos hlt]
        intro heq
        exact hn (hzero ⟨n, by omega⟩ (Option.some.inj heq))
      · rw [if_neg hlt, List.head?_append_of_ne_nil _ (toDigits_ne_nil hbase _)]
        have hdiv : n / base ≠ 0 := fun h =>
          hlt (by rcases Nat.div_eq_zero_iff.mp h with h | h <;> omega)
        exact ih (n / base) (Nat.div_lt_self (by omega) hbase) hdiv

/-! ## Reading what was printed -/

theorem not_isspace_of_isDigitOf {c : Char} (h : isDigitOf 16 c = true) : isspace c = false := by
  cases hspace : isspace c with
  | false => rfl
  | true =>
      have hall : [' ', '\t', '\n', '\x0b', '\x0c', '\r'].all (fun c => !isDigitOf 16 c) = true := by
        decide
      have hnot := List.all_eq_true.mp hall c (List.contains_iff_mem.mp hspace)
      rw [h] at hnot
      cases hnot

theorem not_sign_of_isDigitOf {c : Char} (h : isDigitOf 16 c = true) : c ≠ '-' ∧ c ≠ '+' := by
  constructor
  · rintro rfl
    exact absurd h (by decide)
  · rintro rfl
    exact absurd h (by decide)

/-- Nothing is skipped in front of a digit. -/
theorem readSign_digits {digits : Text} (h : ∀ c ∈ digits.head?, isDigitOf 16 c = true) :
    readSign (digits.dropWhile isspace) = (false, digits) := by
  cases digits with
  | nil => rfl
  | cons c digits =>
      have hdigit := h c rfl
      obtain ⟨hminus, hplus⟩ := not_sign_of_isDigitOf hdigit
      rw [List.dropWhile_cons_of_neg (by rw [not_isspace_of_isDigitOf hdigit]; exact Bool.false_ne_true)]
      unfold readSign
      split
      · rename_i heq
        exact absurd (List.cons.inj heq).1 hminus
      · rename_i heq
        exact absurd (List.cons.inj heq).1 hplus
      · rfl

theorem stoull_of_detectBase {text digits : Text} {base n : Nat}
    (hhead : ∀ c ∈ text.head?, isDigitOf 16 c = true) (hbase : detectBase text = (base, digits))
    (hne : digits ≠ []) (hdigits : ∀ c ∈ digits, isDigitOf base c = true)
    (hvalue : magnitude base digits = n) (hn : n < 2 ^ 64) :
    stoull text = .ok (UInt64.ofNat n) := by
  unfold stoull
  rw [readSign_digits hhead]
  simp only [hbase, List.takeWhile_eq_self_iff.mpr hdigits, hvalue]
  rw [if_neg fun h => hne (List.isEmpty_iff.mp h), if_neg (Nat.not_le.mpr hn)]
  rfl

/-- A hexadecimal number is read back behind its prefix. -/
theorem stoull_hexNumeral {n : Nat} (hn : n < 2 ^ 64) :
    stoull (hexNumeral 0 n) = .ok (UInt64.ofNat n) := by
  obtain ⟨hdigits, hvalue⟩ := toDigits_read (by omega : 1 < 16) (Nat.le_refl 16) n
  have hne := toDigits_ne_nil (by omega : 1 < 16) n
  have hbase : detectBase (hexNumeral 0 n) = (16, Nat.toDigits 16 n) := by
    unfold hexNumeral setw hexDigits List.leftpad
    obtain ⟨c, digits, hcons⟩ := List.exists_cons_of_ne_nil hne
    have hc : isDigitOf 16 c = true := hdigits c (by rw [hcons]; exact List.mem_cons_self)
    rw [Nat.zero_sub, List.replicate_zero, List.nil_append, hcons]
    exact if_pos ⟨.inl rfl, hc⟩
  exact stoull_of_detectBase (fun c hc => by cases hc; decide) hbase hne hdigits hvalue hn

theorem isDigitOf_mono {base : Nat} (hbase : base ≤ 16) {c : Char} (h : isDigitOf base c = true) :
    isDigitOf 16 c = true := by
  unfold isDigitOf at h ⊢
  cases hc : digitOf c with
  | none =>
      rw [hc] at h
      cases h
  | some d =>
      rw [hc] at h
      exact decide_eq_true (Nat.lt_of_lt_of_le (of_decide_eq_true h) hbase)

theorem detectBase_of_head? {text : Text} (h : text.head? ≠ some '0') :
    detectBase text = (10, text) := by
  unfold detectBase
  split
  · exact absurd rfl h
  · exact absurd rfl h
  · rfl

theorem stoull_decDigits {n : Nat} (hn : n < 2 ^ 64) :
    stoull (decDigits n) = .ok (UInt64.ofNat n) := by
  by_cases hzero : n = 0
  · subst hzero
    rfl
  · obtain ⟨hdigits, hvalue⟩ := toDigits_read (by omega : 1 < 10) (by omega) n
    have hhead : ∀ c ∈ (decDigits n).head?, isDigitOf 16 c = true := fun c hc =>
      isDigitOf_mono (by omega) (hdigits c (List.mem_of_mem_head? hc))
    exact stoull_of_detectBase hhead
      (detectBase_of_head? (head?_toDigits (by omega) (by omega) hzero))
      (toDigits_ne_nil (by omega) n) hdigits hvalue hn

end Rvmi.Foundation
