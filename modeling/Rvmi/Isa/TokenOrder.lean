import Rvmi.Isa.Grammar

/-!
# The order of the names

The names of a string are looked up one by one, and each sets one entry. So
only the set of the names counts: they may stand in any order, be repeated, and
follow the letters with or without an underscore.
-/

namespace Rvmi.Isa

open Rvmi.Foundation RVMExtDescriptor

/-! ## The string as it is written -/

/-- The text up to the end of the single-letter part. -/
def isaFront (s : Text) : Text := s.take (2 + (isaDigits s).length + (isaLetters s).length)

/-- The names in the letter case in which they are written. -/
def writtenTokens (s : Text) : List Text :=
  tailTokens (s.drop (2 + (isaDigits s).length + (isaLetters s).length))

theorem toLower_eq_underscore_iff (c : Char) : c.toLower = '_' ↔ c = '_' := by
  delta Char.toLower
  split
  · rename_i hupper
    constructor
    · intro h
      have hval : c.val + 32 = 95 := congrArg Char.val h
      have hlow : 65 ≤ c.val := hupper.1
      have hhigh : c.val ≤ 90 := hupper.2
      grind
    · rintro rfl
      exact absurd hupper (by decide)
  · exact Iff.rfl

theorem stripUnderscore_lower (t : Text) :
    stripUnderscore (lower t) = lower (stripUnderscore t) := by
  cases t with
  | nil => rfl
  | cons c t =>
      by_cases hc : c = '_'
      · subst hc
        rfl
      · have hc' : c.toLower ≠ '_' := fun h => hc ((toLower_eq_underscore_iff c).mp h)
        rw [stripUnderscore_of_head (u := c :: t) (by simpa using hc)]
        exact stripUnderscore_of_head (u := lower (c :: t)) (by simpa [lower] using hc')

theorem tailTokens_lower (t : Text) : tailTokens (lower t) = (tailTokens t).map lower := by
  unfold tailTokens
  by_cases ht : t = []
  · subst ht
    rfl
  · have ht' : lower t ≠ [] := by simpa [lower] using ht
    rw [if_neg ht, if_neg ht', stripUnderscore_lower]
    exact splitSkip_map toLower_eq_underscore_iff (stripUnderscore t)

theorem parts_written {s : Text} (h : isaPrefix <+: lower s) :
    lower (isaFront s) = isaPrefix ++ (isaDigits s ++ isaLetters s) ∧
      isaTokens s = (writtenTokens s).map lower := by
  have hsplit : lower s = (isaPrefix ++ (isaDigits s ++ isaLetters s)) ++ isaTail s := by
    conv_lhs => rw [lower_eq_parts s, take_two_of_isPrefix h]
    simp only [List.append_assoc]
  have hlen : (isaPrefix ++ (isaDigits s ++ isaLetters s)).length =
      2 + (isaDigits s).length + (isaLetters s).length := by
    rw [List.length_append, List.length_append, Nat.add_assoc]
    rfl
  constructor
  · unfold isaFront
    have hmap : lower (s.take (2 + (isaDigits s).length + (isaLetters s).length)) =
        (lower s).take (2 + (isaDigits s).length + (isaLetters s).length) := List.map_take
    rw [hmap, ← hlen]
    conv_lhs => rw [hsplit]
    exact List.take_left
  · unfold writtenTokens
    have hmap : lower (s.drop (2 + (isaDigits s).length + (isaLetters s).length)) =
        (lower s).drop (2 + (isaDigits s).length + (isaLetters s).length) := List.map_drop
    rw [← tailTokens_lower, hmap, ← hlen]
    conv_rhs => rw [hsplit]
    rw [List.drop_left]
    rfl

/-! ## Rearranged names -/

/-- What is set depends on the set of flags alone. -/
theorem setAll_congr {d : RVMExtDescriptor} {fs gs : List ExtFlag}
    (h : ∀ f, f ∈ fs ↔ f ∈ gs) : d.setAll fs = d.setAll gs := by
  apply ext_get ((sameSizes_setAll d fs).trans (sameSizes_setAll d gs).symm)
  intro f
  rw [get_setAll, get_setAll]
  simp only [h]

/-- The letters start where the digits end. -/
theorem not_isDigit_head?_isaLetters (s : Text) :
    ∀ c ∈ (isaLetters s).head?, isDigit c = false := by
  intro c hc
  have hbody : isaBody s = isaLetters s ++ isaTail s := List.takeWhile_append_dropWhile.symm
  have hletters : (isaLetters s).head? = some c := hc
  have hhead : c ∈ (isaBody s).head? := by
    rw [hbody, List.head?_append, hletters]
    rfl
  exact head?_dropWhile c hhead

/-- Known names behind the front of an accepted string, with or without an
underscore, are the names that are read. -/
theorem parts_rearranged {s s' : Text} {rv64 : Bool} (h : Accepted s rv64) (underscore : Bool)
    {ts : List Text} (hts : ∀ t ∈ ts, ExtensionToken (lower t))
    (hs' : lower s' = lower (isaFront s) ++
      (IsaParts.mk (isaDigits s) (recordedLetters s) underscore (ts.map lower)).tail) :
    isaPrefix <+: lower s' ∧ isaDigits s' = isaDigits s ∧ isaLetters s' = isaLetters s ∧
      isaTokens s' = ts.map lower := by
  have hbits : decimalValue (isaDigits s) = 32 ∨ decimalValue (isaDigits s) = 64 := by
    rw [h.bits]
    cases rv64 <;> decide
  have hvalid : (IsaParts.mk (isaDigits s) (recordedLetters s) underscore
      (ts.map lower)).Valid := by
    refine ⟨h.digits, forall_mem_takeWhile, hbits, h.letters, recordedLetters_notReserved, ?_,
      h.base⟩
    intro t ht
    obtain ⟨t', ht', rfl⟩ := List.mem_map.mp ht
    exact hts t' ht'
  have htail := IsaParts.head_tail hvalid
  rw [(parts_written h.starts).1, List.append_assoc, List.append_assoc] at hs'
  have hparts := isaParts_of_lower hs' forall_mem_takeWhile ?_
    not_isBoundary_of_mem_isaLetters htail
  · obtain ⟨hstarts, hdigits, hletters, htail'⟩ := hparts
    refine ⟨hstarts, hdigits, hletters, ?_⟩
    unfold isaTokens
    rw [htail']
    exact IsaParts.tailTokens_tail hvalid
  -- the digits end at a letter or, without letters, at the first name
  · intro c hc
    cases hl : isaLetters s with
    | nil =>
        rw [hl] at hc
        exact isDigit_of_isBoundary (htail c hc)
    | cons a l =>
        rw [hl] at hc
        apply not_isDigit_head?_isaLetters s c
        rw [hl]
        exact hc

/-- An accepted string with its names rearranged is parsed to the same result. -/
theorem parseIsaString_of_parts {s s' : Text} {r : RVMExtDescriptor × Bool}
    (h : parseIsaString s = .ok r) (hstarts : isaPrefix <+: lower s')
    (hdigits : isaDigits s' = isaDigits s) (hletters : isaLetters s' = isaLetters s)
    (htokens : ∀ t, t ∈ isaTokens s' ↔ t ∈ isaTokens s) : parseIsaString s' = .ok r := by
  obtain ⟨d, rv64⟩ := r
  obtain ⟨hacc, hd⟩ := (parseIsaString_eq_ok_iff s d rv64).mp h
  have hrec : recordedLetters s' = recordedLetters s := by
    unfold recordedLetters
    rw [hletters]
  have hdesc : recordedDescriptor s' = recordedDescriptor s := by
    apply setAll_congr
    intro f
    unfold recorded recordedNames
    rw [List.mem_append, List.mem_append, hrec, List.mem_filterMap, List.mem_filterMap]
    simp only [htokens]
  rw [parseIsaString_eq_ok_iff, hdesc]
  refine ⟨⟨hstarts, ?_, ?_, ?_, ?_, ?_⟩, hd⟩
  · rw [hdigits]
    exact hacc.digits
  · rw [hdigits]
    exact hacc.bits
  · rw [hrec]
    exact hacc.letters
  · exact fun t ht => hacc.names t ((htokens t).mp ht)
  · rw [hrec]
    exact hacc.base

/-- **The names may be given in any order, repeated, and with or without the
leading underscore.** -/
theorem parseIsaString_rearranged {s : Text} {r : RVMExtDescriptor × Bool}
    (h : parseIsaString s = .ok r) {ts : List Text} (hne : ts ≠ [])
    (hts : ∀ t, t ∈ ts ↔ t ∈ writtenTokens s) :
    parseIsaString (isaFront s ++ ['_'].intercalate ts) = .ok r ∧
      parseIsaString (isaFront s ++ '_' :: ['_'].intercalate ts) = .ok r := by
  have hacc := ((parseIsaString_eq_ok_iff s r.1 r.2).mp h).1
  have hwritten := (parts_written hacc.starts).2
  have htoken : ∀ t ∈ ts, ExtensionToken (lower t) := by
    intro t ht
    have hmem : lower t ∈ isaTokens s := by
      rw [hwritten]
      exact List.mem_map.mpr ⟨t, (hts t).mp ht, rfl⟩
    exact (flagOfToken_isSome_iff (lower t)).mp (hacc.names _ hmem)
  have htokens : ∀ t, t ∈ ts.map lower ↔ t ∈ isaTokens s := by
    intro t
    rw [hwritten, List.mem_map, List.mem_map]
    simp only [hts]
  have hne' : ts.map lower ≠ [] := by simpa using hne
  have hjoin : lower (['_'].intercalate ts) = ['_'].intercalate (ts.map lower) :=
    map_intercalate Char.toLower '_' ts
  have hparse : ∀ (underscore : Bool) (s' : Text), lower s' = lower (isaFront s) ++
      (IsaParts.mk (isaDigits s) (recordedLetters s) underscore (ts.map lower)).tail →
      parseIsaString s' = .ok r := by
    intro underscore s' hs'
    obtain ⟨hstarts, hdigits, hletters, htail⟩ := parts_rearranged hacc underscore htoken hs'
    exact parseIsaString_of_parts h hstarts hdigits hletters (htail ▸ htokens)
  constructor
  · apply hparse false
    unfold IsaParts.tail
    rw [if_neg hne', ← hjoin]
    exact List.map_append
  · apply hparse true
    unfold IsaParts.tail
    rw [if_neg hne', ← hjoin]
    exact List.map_append

/-- `rv64iZba_Zbb` with its names swapped and one of them repeated. -/
theorem parseIsaString_rearranged_rv64i :
    ∃ r, parseIsaString "rv64iZba_Zbb".toList = .ok r ∧
      parseIsaString "rv64iZbb_Zba_Zbb".toList = .ok r ∧
      parseIsaString "rv64i_Zbb_Zba_Zbb".toList = .ok r := by
  have hok : (parseIsaString "rv64iZba_Zbb".toList).toOption.isSome = true := by decide +kernel
  cases h : parseIsaString "rv64iZba_Zbb".toList with
  | error e =>
      rw [h] at hok
      cases hok
  | ok r =>
      have htokens : writtenTokens "rv64iZba_Zbb".toList = ["Zba".toList, "Zbb".toList] := by
        decide +kernel
      have hts : ∀ t, t ∈ ["Zbb".toList, "Zba".toList, "Zbb".toList] ↔
          t ∈ writtenTokens "rv64iZba_Zbb".toList := by
        intro t
        rw [htokens]
        simp
        tauto
      exact ⟨r, rfl, parseIsaString_rearranged h (List.cons_ne_nil _ _) hts⟩

end Rvmi.Isa
