import Mathlib.Algebra.Group.Nat.Defs
import Rvmi.Foundation.Text

/-!
# `std::string_view` as the parser uses it

A view is the text it shows; a position is a number, and `none` where the
library returns `npos`. The operations that carry a precondition or a range
check return `Except`, with the failure they end in.
-/

namespace Rvmi.Isa

open Rvmi.Foundation

/-- How a parse can end without a result. -/
inductive IsaFailure where
  /-- `class invalid_isa_string` -/
  | invalidIsaString (inputIsa msg : Text)
  /-- `std::invalid_argument` -/
  | invalidArgument (msg : Text)
  /-- `std::out_of_range`, thrown by `substr` -/
  | outOfRange
  /-- a precondition of the library is violated: undefined behaviour -/
  | undefinedBehaviour
deriving DecidableEq

abbrev Parse := Except IsaFailure

theorem bind_eq_ok {α β ε : Type} {x : Except ε α} {f : α → Except ε β} {b : β} :
    (x >>= f) = .ok b ↔ ∃ a, x = .ok a ∧ f a = .ok b := by
  cases x with
  | error e => simp [bind, Except.bind]
  | ok a => simp [bind, Except.bind]

/-- A loop that fails has a first failing step. -/
theorem foldlM_eq_error {α β ε : Type} {f : β → α → Except ε β} {xs : List α} {b : β} {e : ε}
    (h : xs.foldlM f b = .error e) :
    ∃ pre x post b', xs = pre ++ x :: post ∧ pre.foldlM f b = .ok b' ∧ f b' x = .error e := by
  induction xs generalizing b with
  | nil => cases h
  | cons x xs ih =>
      rw [List.foldlM_cons] at h
      cases hx : f b x with
      | error e' =>
          rw [hx] at h
          cases h
          exact ⟨[], x, xs, b, rfl, rfl, hx⟩
      | ok b₁ =>
          rw [hx] at h
          obtain ⟨pre, y, post, b', rfl, hpre, hy⟩ := ih h
          refine ⟨x :: pre, y, post, b', rfl, ?_, hy⟩
          rw [List.foldlM_cons, hx]
          exact hpre

/-! ## Searching -/

/-- `find(char, pos)` -/
def find (view : Text) (c : Char) (pos : Nat) : Option Nat :=
  ((view.drop pos).findIdx? (fun a => decide (a = c))).map (· + pos)

/-- `find(string_view)` -/
def findText (view needle : Text) : Option Nat :=
  (List.range (view.length + 1)).find? fun i => needle.isPrefixOf (view.drop i)

def findFirstOf (view chars : Text) : Option Nat :=
  view.findIdx? fun c => chars.contains c

def findFirstNotOf (view chars : Text) : Option Nat :=
  view.findIdx? fun c => !chars.contains c

/-! ## Cutting -/

/-- `remove_prefix(n)` requires `n <= size()`; `npos` never is. -/
def removePrefix (view : Text) : Option Nat → Parse Text
  | none => .error .undefinedBehaviour
  | some n => if n ≤ view.length then .ok (view.drop n) else .error .undefinedBehaviour

/-- `substr(pos, count)` throws when `pos > size()`. -/
def substr (view : Text) (pos : Nat) (count : Option Nat) : Parse Text :=
  if pos ≤ view.length then
    .ok (match count with
      | none => view.drop pos
      | some n => (view.drop pos).take n)
  else .error .outOfRange

/-- `operator[](0)` requires a non-empty view. -/
def front : Text → Parse Char
  | [] => .error .undefinedBehaviour
  | c :: _ => .ok c

theorem find_bounds {view : Text} {c : Char} {pos n : Nat}
    (h : find view c pos = some n) : pos ≤ n ∧ n < view.length := by
  obtain ⟨k, hk, rfl⟩ := Option.map_eq_some_iff.mp h
  have hlt := (takeWhile_of_findIdx?_some hk).1
  rw [List.length_drop] at hlt
  omega

theorem findText_eq_zero_iff {view needle : Text} :
    findText view needle = some 0 ↔ needle <+: view := by
  unfold findText
  rw [List.range_succ_eq_map, List.find?_cons]
  rw [List.drop_zero, ← List.isPrefixOf_iff_prefix]
  cases hp : needle.isPrefixOf view with
  | true => simp
  | false =>
      simp only [Bool.false_eq_true, iff_false]
      intro h
      have hmem := List.mem_of_find?_eq_some h
      simp at hmem

theorem substr_eq_ok {view : Text} {pos : Nat} (count : Option Nat)
    (h : pos ≤ view.length) :
    substr view pos count = .ok (match count with
      | none => view.drop pos
      | some n => (view.drop pos).take n) := if_pos h

theorem removePrefix_eq_ok {view : Text} {n : Nat} (h : n ≤ view.length) :
    removePrefix view (some n) = .ok (view.drop n) := if_pos h

/-! ## `std::from_chars` -/

inductive FromCharsErrc where
  | invalidArgument
  | resultOutOfRange

/-- `from_chars` into `unsigned` with base 10: the longest run of digits. -/
def fromChars (str : Text) : Except FromCharsErrc Nat :=
  let digits := str.takeWhile isDigit
  if digits = [] then .error .invalidArgument
  else if decimalValue digits < 2 ^ 32 then .ok (decimalValue digits)
  else .error .resultOutOfRange

end Rvmi.Isa
