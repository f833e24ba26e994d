import Mathlib.Data.List.Basic
import Mathlib.Data.List.TakeWhile

/-!
# Scanning and splitting lists

Text is a list of characters. The lemmas here relate the two ways a scanner
cuts a text, by the position of the first hit and by the longest run without
one, and characterise a splitter that never looks at the first character of
the part it is about to cut.
-/

namespace Rvmi.Foundation

abbrev Text := List Char

variable {α : Type*}

/-! ## Positions and runs -/

theorem takeWhile_of_findIdx?_none {p : α → Bool} {l : List α}
    (h : l.findIdx? p = none) :
    l.takeWhile (fun a => !p a) = l ∧ l.dropWhile (fun a => !p a) = [] := by
  rw [List.findIdx?_eq_none_iff] at h
  constructor
  · rw [List.takeWhile_eq_self_iff]
    intro a ha
    simp [h a ha]
  · rw [List.dropWhile_eq_nil_iff]
    intro a ha
    simp [h a ha]

theorem takeWhile_of_findIdx?_some {p : α → Bool} {l : List α} {k : Nat}
    (h : l.findIdx? p = some k) :
    k < l.length ∧ l.takeWhile (fun a => !p a) = l.take k ∧
      l.dropWhile (fun a => !p a) = l.drop k := by
  obtain ⟨hk, hidx⟩ := List.findIdx?_eq_some_iff_findIdx_eq.mp h
  refine ⟨hk, ?_, ?_⟩
  · rw [List.takeWhile_eq_take_findIdx_not]
    simp [hidx]
  · rw [List.dropWhile_eq_drop_findIdx_not]
    simp [hidx]

/-- The longest run is the given one when what follows it cannot extend it. -/
theorem takeWhile_append_stop {p : α → Bool} {l r : List α}
    (hl : ∀ a ∈ l, p a = true) (hr : ∀ a ∈ r.head?, p a = false) :
    (l ++ r).takeWhile p = l ∧ (l ++ r).dropWhile p = r := by
  rw [List.takeWhile_append_of_pos hl, List.dropWhile_append_of_pos hl]
  cases r with
  | nil => simp
  | cons a r =>
      have ha : p a = false := hr a (by simp)
      simp [ha]

theorem forall_mem_takeWhile {p : α → Bool} {l : List α} :
    ∀ a ∈ l.takeWhile p, p a = true := by
  intro a ha
  exact List.mem_takeWhile_imp ha

theorem head?_dropWhile {p : α → Bool} {l : List α} :
    ∀ a ∈ (l.dropWhile p).head?, p a = false := by
  intro a ha
  have := List.head?_dropWhile_not p l
  rw [Option.mem_def.mp ha] at this
  simpa using this

/-! ## Joining -/

/-- A loop that appends what it selects. -/
theorem foldl_append_if {β : Type*} {step : List α → β → List α} {sel : β → Bool}
    {out : β → List α}
    (hstep : ∀ os b, step os b = if sel b = true then os ++ out b else os)
    (table : List β) (os : List α) :
    table.foldl step os = os ++ (table.filter sel).flatMap out := by
  induction table generalizing os with
  | nil => simp
  | cons b table ih =>
      rw [List.foldl_cons, ih, hstep]
      cases hb : sel b with
      | true => simp [hb]
      | false => simp [hb]

/-- The first part, then every other part behind a separator. -/
theorem intercalate_cons_eq (sep t : List α) (ts : List (List α)) :
    sep.intercalate (t :: ts) = t ++ ts.flatMap (fun u => sep ++ u) := by
  induction ts generalizing t with
  | nil => simp
  | cons u ts ih =>
      rw [List.intercalate_cons_cons, ih, List.flatMap_cons]
      simp

/-- A separator in front of every part is one in front of the joined parts. -/
theorem flatMap_cons_eq (sep : α) {ts : List (List α)} (h : ts ≠ []) :
    ts.flatMap (fun t => sep :: t) = sep :: [sep].intercalate ts := by
  obtain ⟨t, ts, rfl⟩ := List.exists_cons_of_ne_nil h
  rw [intercalate_cons_eq]
  rfl

theorem head?_intercalate (sep : α) {t : List α} (ts : List (List α)) (h : t ≠ []) :
    ([sep].intercalate (t :: ts)).head? = t.head? := by
  obtain ⟨a, t, rfl⟩ := List.exists_cons_of_ne_nil h
  cases ts with
  | nil => rw [List.intercalate_singleton]
  | cons t' ts =>
      rw [List.intercalate_cons_cons]
      rfl

theorem map_intercalate {β : Type*} (f : α → β) (sep : α) (ts : List (List α)) :
    ([sep].intercalate ts).map f = [f sep].intercalate (ts.map (List.map f)) := by
  induction ts with
  | nil => rfl
  | cons t ts ih =>
      cases ts with
      | nil => simp
      | cons t' ts =>
          rw [List.intercalate_cons_cons, List.map_append, List.map_append, ih]
          simp

/-- Lines that are each ended by a separator are cut at the separators; what is behind
the last one is empty. -/
theorem splitOn_lines [BEq α] [LawfulBEq α] (sep : α) {lines : List (List α)}
    (h : ∀ line ∈ lines, sep ∉ line) :
    (lines.flatMap fun line => line ++ [sep]).splitOn sep = lines ++ [[]] := by
  have hjoin : (lines.flatMap fun line => line ++ [sep]) = [sep].intercalate (lines ++ [[]]) := by
    induction lines with
    | nil => rfl
    | cons line lines ih =>
        obtain ⟨next, rest, hcons⟩ := List.exists_cons_of_ne_nil (l := lines ++ [[]]) (by simp)
        rw [List.flatMap_cons, ih fun l hl => h l (List.mem_cons_of_mem _ hl), List.cons_append,
          hcons, List.intercalate_cons_cons]
  rw [hjoin, List.splitOn_intercalate]
  · intro line hline
    rcases List.mem_append.mp hline with hline | hline
    · exact h line hline
    · rw [List.mem_singleton.mp hline]
      exact List.not_mem_nil
  · simp

/-- A table whose right column determines the left one is read back. -/
theorem filterMap_map_snd {κ : Type*} {g : α → Option κ} {l : List (κ × α)}
    (h : ∀ p ∈ l, g p.2 = some p.1) :
    (l.map Prod.snd).filterMap g = l.map Prod.fst := by
  rw [List.filterMap_map]
  induction l with
  | nil => rfl
  | cons p l ih =>
      have hp : (g ∘ Prod.snd) p = some p.1 := h p List.mem_cons_self
      rw [List.filterMap_cons_some hp, List.map_cons]
      rw [ih fun q hq => h q (List.mem_cons_of_mem _ hq)]

/-- What is encoded item by item is decoded item by item. -/
theorem mapM_map_some {β : Type*} {encode : α → β} {decode : β → Option α}
    (h : ∀ a, decode (encode a) = some a) (l : List α) :
    (l.map encode).mapM decode = some l := by
  induction l with
  | nil => rfl
  | cons a l ih =>
      rw [List.map_cons, List.mapM_cons, h, ih]
      rfl

/-! ## Splitting behind the first character -/

section Split

variable [DecidableEq α] {sep : α}

theorem length_drop_lt_of_findIdx? {u : List α} {k : Nat}
    (h : (u.drop 1).findIdx? (fun a => decide (a = sep)) = some k) :
    (u.drop (k + 2)).length < u.length := by
  have hk := (takeWhile_of_findIdx?_some h).1
  simp only [List.length_drop] at hk ⊢
  omega

/-- Cut at the first separator behind the first character, again and again. -/
def splitSkip (sep : α) (u : List α) : List (List α) :=
  match h : (u.drop 1).findIdx? (fun a => decide (a = sep)) with
  | none => [u]
  | some k => u.take (k + 1) :: splitSkip sep (u.drop (k + 2))
termination_by u.length
decreasing_by exact length_drop_lt_of_findIdx? h

theorem splitSkip_of_none {u : List α}
    (h : (u.drop 1).findIdx? (fun a => decide (a = sep)) = none) :
    splitSkip sep u = [u] := by
  rw [splitSkip]
  split
  · rfl
  · rename_i k hk
    rw [h] at hk
    cases hk

theorem splitSkip_of_some {u : List α} {k : Nat}
    (h : (u.drop 1).findIdx? (fun a => decide (a = sep)) = some k) :
    splitSkip sep u = u.take (k + 1) :: splitSkip sep (u.drop (k + 2)) := by
  rw [splitSkip]
  split
  · rename_i hn
    rw [h] at hn
    cases hn
  · rename_i k' hk'
    rw [h] at hk'
    cases hk'
    rfl

/-- The cut takes out exactly the separator. -/
theorem take_append_drop_of_findIdx? {u : List α} {k : Nat}
    (h : (u.drop 1).findIdx? (fun a => decide (a = sep)) = some k) :
    u.take (k + 1) ++ sep :: u.drop (k + 2) = u := by
  rcases List.findIdx?_eq_some_iff_getElem.mp h with ⟨hk, hsep, -⟩
  have hget : (u.drop 1)[k] = sep := by simpa using hsep
  rw [List.length_drop] at hk
  have hdrop : u.drop (k + 1) = sep :: u.drop (k + 2) := by
    rw [List.drop_eq_getElem_cons (by omega)]
    rw [List.getElem_drop] at hget
    simp only [Nat.add_comm 1 k] at hget
    rw [hget]
  rw [← hdrop, List.take_append_drop]

theorem splitSkip_ne_nil (sep : α) (u : List α) : splitSkip sep u ≠ [] := by
  cases h : (u.drop 1).findIdx? (fun a => decide (a = sep)) with
  | none => simp [splitSkip_of_none h]
  | some k => simp [splitSkip_of_some h]

/-- Only the last part can be empty. -/
theorem splitSkip_dropLast_ne_nil (sep : α) (u : List α) :
    ∀ t ∈ (splitSkip sep u).dropLast, t ≠ [] := by
  induction hn : u.length using Nat.strong_induction_on generalizing u with
  | _ n ih =>
      cases h : (u.drop 1).findIdx? (fun a => decide (a = sep)) with
      | none => simp [splitSkip_of_none h]
      | some k =>
          have hlt := length_drop_lt_of_findIdx? h
          rw [splitSkip_of_some h, List.dropLast_cons_of_ne_nil (splitSkip_ne_nil _ _)]
          intro t ht
          rcases List.mem_cons.mp ht with rfl | ht
          · intro hnil
            rcases List.take_eq_nil_iff.mp hnil with h0 | rfl
            · omega
            · simp at hlt
          · exact ih _ (hn ▸ hlt) (u.drop (k + 2)) rfl t ht

/-- A separator can only be the first character of a part. -/
theorem not_mem_drop_splitSkip (sep : α) (u : List α) :
    ∀ t ∈ splitSkip sep u, sep ∉ t.drop 1 := by
  induction hn : u.length using Nat.strong_induction_on generalizing u with
  | _ n ih =>
      cases h : (u.drop 1).findIdx? (fun a => decide (a = sep)) with
      | none =>
          rw [splitSkip_of_none h]
          intro t ht hsep
          rw [List.mem_singleton.mp ht] at hsep
          have hno := List.findIdx?_eq_none_iff.mp h sep hsep
          exact of_decide_eq_false hno rfl
      | some k =>
          have hlt := length_drop_lt_of_findIdx? h
          rw [splitSkip_of_some h]
          intro t ht
          rcases List.mem_cons.mp ht with rfl | ht
          · -- the part ends at the first separator behind its first character
            intro hsep
            rw [List.drop_take, Nat.add_sub_cancel] at hsep
            obtain ⟨j, hj, hget⟩ := List.mem_iff_getElem.mp hsep
            rw [List.length_take] at hj
            rw [List.getElem_take] at hget
            obtain ⟨_, _, hfirst⟩ := List.findIdx?_eq_some_iff_getElem.mp h
            exact hfirst j (by omega) (decide_eq_true hget)
          · exact ih _ (hn ▸ hlt) (u.drop (k + 2)) rfl t ht

/-- A change of characters that keeps the separator apart keeps the cuts. -/
theorem splitSkip_map {f : α → α} (hf : ∀ a, f a = sep ↔ a = sep) (u : List α) :
    splitSkip sep (u.map f) = (splitSkip sep u).map (List.map f) := by
  induction hn : u.length using Nat.strong_induction_on generalizing u with
  | _ n ih =>
      have hidx : ((u.map f).drop 1).findIdx? (fun a => decide (a = sep)) =
          (u.drop 1).findIdx? (fun a => decide (a = sep)) := by
        rw [← List.map_drop, List.findIdx?_map]
        congr 1
        funext a
        exact decide_eq_decide.mpr (hf a)
      cases h : (u.drop 1).findIdx? (fun a => decide (a = sep)) with
      | none =>
          rw [splitSkip_of_none (hidx.trans h), splitSkip_of_none h]
          rfl
      | some k =>
          have hlt := length_drop_lt_of_findIdx? h
          rw [splitSkip_of_some (hidx.trans h), splitSkip_of_some h, List.map_cons,
            ← ih _ (hn ▸ hlt) (u.drop (k + 2)) rfl, List.map_take, List.map_drop]

/-- Joining the parts gives the text back. -/
theorem intercalate_splitSkip (sep : α) (u : List α) :
    [sep].intercalate (splitSkip sep u) = u := by
  induction hn : u.length using Nat.strong_induction_on generalizing u with
  | _ n ih =>
      cases h : (u.drop 1).findIdx? (fun a => decide (a = sep)) with
      | none =>
          rw [splitSkip_of_none h, List.intercalate_singleton]
      | some k =>
          have hlt := length_drop_lt_of_findIdx? h
          have hrest := ih _ (hn ▸ hlt) (u.drop (k + 2)) rfl
          rw [splitSkip_of_some h,
            List.intercalate_cons_of_ne_nil (splitSkip_ne_nil _ _), hrest]
          simpa using take_append_drop_of_findIdx? h

/-- Parts that are not empty and hold no separator are found again. -/
theorem splitSkip_intercalate : ∀ {ts : List (List α)}, ts ≠ [] →
    (∀ t ∈ ts, t ≠ [] ∧ sep ∉ t) → splitSkip sep ([sep].intercalate ts) = ts := by
  intro ts
  induction ts with
  | nil => intro h _; exact absurd rfl h
  | cons t ts ih =>
      intro _ hts
      obtain ⟨ht, htsep⟩ := hts t List.mem_cons_self
      obtain ⟨c, t, rfl⟩ := List.exists_cons_of_ne_nil ht
      have hno : ∀ a ∈ t, decide (a = sep) = false := by
        intro a ha
        simp only [decide_eq_false_iff_not]
        rintro rfl
        exact htsep (List.mem_cons_of_mem _ ha)
      cases ts with
      | nil =>
          rw [List.intercalate_singleton]
          apply splitSkip_of_none
          rw [List.drop_one, List.tail_cons, List.findIdx?_eq_none_iff]
          exact hno
      | cons t' ts =>
          have hrest := ih (by simp) (fun s hs => hts s (List.mem_cons_of_mem _ hs))
          rw [List.intercalate_cons_cons]
          generalize [sep].intercalate (t' :: ts) = v at hrest
          have hidx : (((c :: t) ++ [sep] ++ v).drop 1).findIdx?
              (fun a => decide (a = sep)) = some t.length := by
            have hnone := List.findIdx?_eq_none_iff.mpr hno
            simp [List.findIdx?_append, hnone, List.findIdx?_cons]
          rw [splitSkip_of_some hidx]
          have htake : ((c :: t) ++ [sep] ++ v).take (t.length + 1) = c :: t := by
            simp
          have hdrop : ((c :: t) ++ [sep] ++ v).drop (t.length + 2) = v := by
            simp
          rw [htake, hdrop, hrest]

end Split

/-! ## Decimal numbers -/

def isDigit (c : Char) : Bool := "0123456789".toList.contains c

def decimalValue (digits : Text) : Nat :=
  digits.foldl (fun n c => 10 * n + (c.toNat - '0'.toNat)) 0

end Rvmi.Foundation
