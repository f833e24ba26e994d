import Rvmi.Isa.Canonical

/-!
# The grammar of ISA strings

`IsaGrammar` states the language the parser is written for. The parser is more
liberal in one place: its loop over the single letters passes over a character
that no table entry matches. Hence it accepts a string exactly when the string
without those characters is in the language.
-/

namespace Rvmi.Isa

open Rvmi.Foundation RVMExtDescriptor

/-! ## The language -/

/-- `z`, `s` or `x` in front of a name of the matching table. -/
inductive ExtensionToken : Text → Prop where
  | z {p : RVMZExt × String} (h : p ∈ forEachZext) : ExtensionToken ('z' :: p.2.toList)
  | s {p : RVMSExt × String} (h : p ∈ forEachSext) : ExtensionToken ('s' :: p.2.toList)
  | x {p : RVMXExt × String} (h : p ∈ forEachXext) : ExtensionToken ('x' :: p.2.toList)

/-- What a lower-case ISA string is put together from. -/
structure IsaParts where
  digits : Text
  letters : List RVMMisaExt
  /-- an underscore stands in front of the first token -/
  underscore : Bool
  tokens : List Text

namespace IsaParts

def tail (p : IsaParts) : Text :=
  if p.tokens = [] then []
  else (if p.underscore then ['_'] else []) ++ ['_'].intercalate p.tokens

def text (p : IsaParts) : Text :=
  isaPrefix ++ (p.digits ++ (p.letters.map RVMMisaExt.letter ++ p.tail))

structure Valid (p : IsaParts) : Prop where
  digits_ne_nil : p.digits ≠ []
  digits : ∀ c ∈ p.digits, isDigit c = true
  bits : decimalValue p.digits = 32 ∨ decimalValue p.digits = 64
  letters : p.letters.Pairwise RVMMisaExt.lt
  notReserved : ∀ e ∈ p.letters, .misa e ∉ reservedLetters
  tokens : ∀ t ∈ p.tokens, ExtensionToken t
  base : .I ∈ p.letters ∨ .E ∈ p.letters ∨ .G ∈ p.letters

end IsaParts

def IsaGrammar (s : Text) : Prop := ∃ p : IsaParts, p.Valid ∧ lower s = p.text

/-- The characters of the single-letter part that are no letter of the table. -/
def strays (s : Text) : Text := (isaLetters s).filter fun c => (letterOf c).isNone

/-- The lower-cased string with its strays left out. -/
def withoutStrays (s : Text) : Text :=
  (lower s).take 2 ++ (isaDigits s ++
    ((isaLetters s).filter (fun c => (letterOf c).isSome) ++ isaTail s))

/-! ## Tokens and letters -/

theorem lookupName_eq_some {κ : Type} {table : List (κ × String)} {name : Text} {k : κ}
    (h : lookupName table name = some k) : ∃ p ∈ table, p.1 = k ∧ name = p.2.toList := by
  obtain ⟨p, hp, rfl⟩ := Option.map_eq_some_iff.mp h
  exact ⟨p, List.mem_of_find?_eq_some hp, rfl, by simpa using List.find?_some hp⟩

/-- The parser knows exactly the tokens of the language. -/
theorem flagOfToken_isSome_iff (t : Text) :
    (flagOfToken t).isSome = true ↔ ExtensionToken t := by
  constructor
  · intro h
    unfold flagOfToken at h
    split at h
    · obtain ⟨k, hk⟩ := Option.isSome_iff_exists.mp (by simpa using h)
      obtain ⟨p, hp, -, rfl⟩ := lookupName_eq_some hk
      exact .z hp
    · obtain ⟨k, hk⟩ := Option.isSome_iff_exists.mp (by simpa using h)
      obtain ⟨p, hp, -, rfl⟩ := lookupName_eq_some hk
      exact .s hp
    · obtain ⟨k, hk⟩ := Option.isSome_iff_exists.mp (by simpa using h)
      obtain ⟨p, hp, -, rfl⟩ := lookupName_eq_some hk
      exact .x hp
    · cases h
  · have hfound : ∀ {κ : Type} {table : List (κ × String)} {p : κ × String},
        p ∈ table → (lookupName table p.2.toList).isSome = true := by
      intro κ table p hp
      unfold lookupName
      rw [Option.isSome_map, List.find?_isSome]
      exact ⟨p, hp, by simp⟩
    intro h
    cases h with
    | z hp => simpa [flagOfToken] using hfound hp
    | s hp => simpa [flagOfToken] using hfound hp
    | x hp => simpa [flagOfToken] using hfound hp

theorem ExtensionToken.separable {t : Text} (h : ExtensionToken t) :
    t ≠ [] ∧ '_' ∉ t := by
  have hlower : ∀ {name : Text}, '_' ∉ lower name → '_' ∉ name :=
    fun h hn => h (List.mem_map.mpr ⟨'_', hn, rfl⟩)
  cases h with
  | @z p hp =>
      have hno := hlower (forEachZext_read p hp).2.1
      exact ⟨by simp, by simpa using hno⟩
  | @s p hp =>
      have hno := hlower (forEachSext_read p hp).2.1
      exact ⟨by simp, by simpa using hno⟩
  | @x p hp =>
      have hno := hlower (forEachXext_read p hp).2.1
      exact ⟨by simp, by simpa using hno⟩

theorem ExtensionToken.head {t : Text} (h : ExtensionToken t) :
    ∀ c ∈ t.head?, isBoundary c = true := by
  cases h <;> simp [isBoundary]

theorem letterOf_letter (e : RVMMisaExt) : letterOf e.letter = some e :=
  (forEachMisaExt_read _ e.mem_forEachMisaExt).2.1

theorem letter_of_letterOf {c : Char} {e : RVMMisaExt} (h : letterOf c = some e) :
    e.letter = c := by
  have htable : ∀ p ∈ forEachMisaExt, p.1.letter = p.2 := by decide
  rcases Option.map_eq_some_iff.mp h with ⟨p, hp, rfl⟩
  rw [htable p (List.mem_of_find?_eq_some hp)]
  simpa using List.find?_some hp

theorem filterMap_letterOf_letters (es : List RVMMisaExt) :
    (es.map RVMMisaExt.letter).filterMap letterOf = es := by
  induction es with
  | nil => rfl
  | cons e es ih =>
      rw [List.map_cons, List.filterMap_cons_some (letterOf_letter e), ih]

/-- What is kept of a letter part is spelled by the letters recorded from it. -/
theorem filter_letterOf_isSome (cs : Text) :
    cs.filter (fun c => (letterOf c).isSome) =
      (cs.filterMap letterOf).map RVMMisaExt.letter := by
  induction cs with
  | nil => rfl
  | cons c cs ih =>
      cases hc : letterOf c with
      | none => simp [hc, ih]
      | some e => simp [hc, ih, letter_of_letterOf hc]

/-! ## Parts of a text of the language -/

theorem IsaParts.tokens_separable {p : IsaParts} (h : p.Valid) :
    ∀ t ∈ p.tokens, t ≠ [] ∧ '_' ∉ t :=
  fun t ht => (h.tokens t ht).separable

theorem IsaParts.tailTokens_tail {p : IsaParts} (h : p.Valid) :
    tailTokens p.tail = p.tokens := by
  unfold IsaParts.tail
  by_cases hnil : p.tokens = []
  · rw [if_pos hnil, hnil]
    rfl
  · rw [if_neg hnil]
    cases p.underscore with
    | true => exact tailTokens_underscore hnil (p.tokens_separable h)
    | false => exact tailTokens_intercalate (p.tokens_separable h)

theorem IsaParts.head_tail {p : IsaParts} (h : p.Valid) :
    ∀ c ∈ p.tail.head?, isBoundary c = true := by
  unfold IsaParts.tail
  cases ht : p.tokens with
  | nil => intro c hc; cases hc
  | cons t ts =>
      have htok : ExtensionToken t := h.tokens t (ht ▸ List.mem_cons_self)
      rw [if_neg (by simp)]
      cases p.underscore with
      | true =>
          intro c hc
          obtain rfl := Option.mem_some.mp hc
          rfl
      | false =>
          show ∀ c ∈ (['_'].intercalate (t :: ts)).head?, isBoundary c = true
          rw [head?_intercalate '_' ts htok.separable.1]
          exact htok.head

theorem isaParts_of_grammar {s : Text} {p : IsaParts} (hp : p.Valid)
    (h : lower s = p.text) :
    isaPrefix <+: lower s ∧ isaDigits s = p.digits ∧
      isaLetters s = p.letters.map RVMMisaExt.letter ∧ isaTail s = p.tail := by
  have hread : ∀ e : RVMMisaExt, isDigit e.letter = false ∧
      (.misa e ∉ reservedLetters → isBoundary e.letter = false) :=
    fun e => (forEachMisaExt_read _ e.mem_forEachMisaExt).2.2
  apply isaParts_of_lower h hp.digits
  · intro c hc
    cases hl : p.letters with
    | nil =>
        rw [hl] at hc
        exact isDigit_of_isBoundary (p.head_tail hp c hc)
    | cons e es =>
        rw [hl] at hc
        obtain rfl := Option.mem_some.mp hc
        exact (hread e).1
  · intro c hc
    rcases List.mem_map.mp hc with ⟨e, he, rfl⟩
    exact (hread e).2 (hp.notReserved e he)
  · exact p.head_tail hp

/-! ## The language and the parser -/

theorem lower_eq_parts (s : Text) :
    lower s = (lower s).take 2 ++ (isaDigits s ++ (isaLetters s ++ isaTail s)) := by
  unfold isaLetters isaTail
  rw [List.takeWhile_append_dropWhile]
  unfold isaDigits isaBody
  rw [List.takeWhile_append_dropWhile]
  exact (List.take_append_drop 2 (lower s)).symm

theorem take_two_of_isPrefix {t : Text} (h : isaPrefix <+: t) : t.take 2 = isaPrefix :=
  (List.prefix_iff_eq_take.mp h).symm

theorem not_isBoundary_of_mem_isaLetters {s : Text} :
    ∀ c ∈ isaLetters s, isBoundary c = false := by
  intro c hc
  simpa using forall_mem_takeWhile c hc

theorem recordedLetters_notReserved {s : Text} :
    ∀ e ∈ recordedLetters s, .misa e ∉ reservedLetters := by
  have htable : ∀ p ∈ forEachMisaExt,
      .misa p.1 ∈ reservedLetters → isBoundary p.2 = true := by decide
  intro e he hr
  obtain ⟨c, hc, hce⟩ := List.mem_filterMap.mp he
  have hbound := htable _ e.mem_forEachMisaExt hr
  rw [letter_of_letterOf hce, not_isBoundary_of_mem_isaLetters c hc] at hbound
  cases hbound

/-- The tokens, joined and with the underscore put back, are the tail. -/
theorem tail_isaTokens (s : Text) (digits : Text) (letters : List RVMMisaExt) :
    IsaParts.tail ⟨digits, letters, decide ((isaTail s).head? = some '_'), isaTokens s⟩ =
      isaTail s := by
  unfold IsaParts.tail isaTokens tailTokens
  cases ht : isaTail s with
  | nil => rfl
  | cons c u =>
      simp only [reduceCtorEq, if_false, splitSkip_ne_nil, intercalate_splitSkip,
        List.head?_cons, Option.some.injEq, decide_eq_true_eq]
      by_cases hc : c = '_'
      · subst hc
        rfl
      · rw [if_neg hc, stripUnderscore_of_head]
        · rfl
        · intro a ha
          obtain rfl := Option.mem_some.mp ha
          exact hc

/-- Without strays the parser's demands are those of the language. -/
theorem isaGrammar_iff (s : Text) :
    IsaGrammar s ↔ (∃ rv64, Accepted s rv64) ∧ strays s = [] := by
  constructor
  · rintro ⟨p, hp, h⟩
    obtain ⟨hstarts, hdigits, hletters, htail⟩ := isaParts_of_grammar hp h
    have hrec : recordedLetters s = p.letters := by
      unfold recordedLetters
      rw [hletters, filterMap_letterOf_letters]
    have htok : isaTokens s = p.tokens := by
      unfold isaTokens
      rw [htail, p.tailTokens_tail hp]
    refine ⟨⟨decide (decimalValue p.digits = 64), hstarts, ?_, ?_, ?_, ?_, ?_⟩, ?_⟩
    · rw [hdigits]
      exact hp.digits_ne_nil
    · rw [hdigits]
      rcases hp.bits with h32 | h64
      · simp [h32]
      · simp [h64]
    · rw [hrec]
      exact hp.letters
    · rw [htok]
      exact fun t ht => (flagOfToken_isSome_iff t).mpr (hp.tokens t ht)
    · rw [hrec]
      exact hp.base
    · unfold strays
      rw [hletters, List.filter_eq_nil_iff]
      intro c hc
      rcases List.mem_map.mp hc with ⟨e, -, rfl⟩
      simp [letterOf_letter]
  · rintro ⟨⟨rv64, hacc⟩, hstrays⟩
    have hall : (isaLetters s).filter (fun c => (letterOf c).isSome) = isaLetters s := by
      rw [List.filter_eq_self]
      intro c hc
      have hc' := List.filter_eq_nil_iff.mp hstrays c hc
      simpa [Option.isSome_iff_ne_none] using hc'
    refine ⟨⟨isaDigits s, recordedLetters s, decide ((isaTail s).head? = some '_'),
      isaTokens s⟩, ⟨hacc.digits, forall_mem_takeWhile, ?_, hacc.letters,
      recordedLetters_notReserved, ?_, hacc.base⟩, ?_⟩
    · show decimalValue (isaDigits s) = 32 ∨ decimalValue (isaDigits s) = 64
      rw [hacc.bits]
      cases rv64 <;> decide
    · exact fun t ht => (flagOfToken_isSome_iff t).mp (hacc.names t ht)
    · unfold IsaParts.text
      rw [tail_isaTokens]
      show lower s = isaPrefix ++ (isaDigits s ++ ((recordedLetters s).map _ ++ isaTail s))
      rw [recordedLetters, ← filter_letterOf_isSome, hall,
        ← take_two_of_isPrefix hacc.starts]
      exact lower_eq_parts s

/-! ## Leaving the strays out -/

theorem withoutStrays_sublist (s : Text) : (withoutStrays s).Sublist (lower s) := by
  have hparts : (withoutStrays s).Sublist
      ((lower s).take 2 ++ (isaDigits s ++ (isaLetters s ++ isaTail s))) :=
    (List.Sublist.refl _).append ((List.Sublist.refl _).append
      (List.filter_sublist.append (List.Sublist.refl _)))
  rwa [← lower_eq_parts s] at hparts

theorem lower_withoutStrays (s : Text) : lower (withoutStrays s) = withoutStrays s := by
  have hlow : ∀ c ∈ lower s, c.toLower = id c := by
    rw [← List.map_inj_left, List.map_id]
    exact lower_lower s
  have hmap : (withoutStrays s).map Char.toLower = (withoutStrays s).map id :=
    List.map_congr_left fun c hc => hlow c ((withoutStrays_sublist s).subset hc)
  rwa [List.map_id] at hmap

/-- The parts of the string without strays: the letters are those the parser
records, everything else is as it was. -/
theorem parts_withoutStrays (s : Text) (h : isaPrefix <+: lower s) :
    isaPrefix <+: lower (withoutStrays s) ∧
      isaDigits (withoutStrays s) = isaDigits s ∧
      isaLetters (withoutStrays s) =
        (isaLetters s).filter (fun c => (letterOf c).isSome) ∧
      isaTail (withoutStrays s) = isaTail s := by
  have htail : ∀ c ∈ (isaTail s).head?, isBoundary c = true := by
    intro c hc
    simpa using head?_dropWhile c hc
  apply isaParts_of_lower
  · rw [lower_withoutStrays, ← take_two_of_isPrefix h]
    rfl
  · exact forall_mem_takeWhile
  · intro c hc
    cases hl : (isaLetters s).filter (fun c => (letterOf c).isSome) with
    | nil =>
        rw [hl] at hc
        exact isDigit_of_isBoundary (htail c hc)
    | cons a l =>
        rw [hl] at hc
        obtain rfl := Option.mem_some.mp hc
        have ha : a ∈ (isaLetters s).filter (fun c => (letterOf c).isSome) :=
          hl ▸ List.mem_cons_self
        obtain ⟨e, he⟩ := Option.isSome_iff_exists.mp (List.mem_filter.mp ha).2
        rw [← letter_of_letterOf he]
        exact (forEachMisaExt_read _ e.mem_forEachMisaExt).2.2.1
  · exact fun c hc => not_isBoundary_of_mem_isaLetters c (List.mem_of_mem_filter hc)
  · exact htail

theorem take_two_withoutStrays (s : Text) :
    (withoutStrays s).take 2 = (lower s).take 2 := by
  by_cases hlen : 2 ≤ (lower s).length
  · unfold withoutStrays
    rw [List.take_append_of_le_length (by simp; omega), List.take_take]
    rfl
  · have hrest : isaRest s = [] := List.drop_eq_nil_of_le (by omega)
    have hparts : isaDigits s = [] ∧ isaLetters s = [] ∧ isaTail s = [] := by
      unfold isaLetters isaTail isaDigits isaBody
      rw [hrest]
      exact ⟨rfl, rfl, rfl⟩
    unfold withoutStrays
    simp [hparts]

theorem isaPrefix_withoutStrays (s : Text) :
    isaPrefix <+: lower (withoutStrays s) ↔ isaPrefix <+: lower s := by
  rw [lower_withoutStrays, List.prefix_iff_eq_take, List.prefix_iff_eq_take]
  show isaPrefix = (withoutStrays s).take 2 ↔ isaPrefix = (lower s).take 2
  rw [take_two_withoutStrays]

/-- The parser does not see the strays. -/
theorem accepted_withoutStrays (s : Text) (rv64 : Bool) :
    Accepted (withoutStrays s) rv64 ↔ Accepted s rv64 := by
  have hparts : isaPrefix <+: lower s → isaDigits (withoutStrays s) = isaDigits s ∧
      recordedLetters (withoutStrays s) = recordedLetters s ∧
      isaTokens (withoutStrays s) = isaTokens s := by
    intro h
    obtain ⟨-, hdigits, hletters, htail⟩ := parts_withoutStrays s h
    refine ⟨hdigits, ?_, ?_⟩
    · unfold recordedLetters
      rw [hletters, filter_letterOf_isSome, filterMap_letterOf_letters]
    · unfold isaTokens
      rw [htail]
  constructor
  · rintro ⟨hstarts, hdigits, hbits, hletters, hnames, hbase⟩
    have hstarts' := (isaPrefix_withoutStrays s).mp hstarts
    obtain ⟨hd, hl, ht⟩ := hparts hstarts'
    rw [hd] at hdigits hbits
    rw [hl] at hletters hbase
    rw [ht] at hnames
    exact ⟨hstarts', hdigits, hbits, hletters, hnames, hbase⟩
  · rintro ⟨hstarts, hdigits, hbits, hletters, hnames, hbase⟩
    obtain ⟨hd, hl, ht⟩ := hparts hstarts
    rw [← hd] at hdigits hbits
    rw [← hl] at hletters hbase
    rw [← ht] at hnames
    exact ⟨(isaPrefix_withoutStrays s).mpr hstarts, hdigits, hbits, hletters, hnames, hbase⟩

/-- What the parser accepts, exactly: strings that are in the language once
their strays are left out. -/
theorem parseIsaString_isOk_iff_withoutStrays (s : Text) :
    (∃ r, parseIsaString s = .ok r) ↔ IsaGrammar (withoutStrays s) := by
  rw [parseIsaString_isOk_iff, isaGrammar_iff]
  simp only [accepted_withoutStrays]
  constructor
  · rintro ⟨rv64, hacc⟩
    refine ⟨⟨rv64, hacc⟩, ?_⟩
    unfold strays
    rw [(parts_withoutStrays s hacc.starts).2.2.1, List.filter_filter,
      List.filter_eq_nil_iff]
    intro c _
    cases letterOf c <;> simp
  · exact fun h => h.1

/-- **The parser decides its grammar on a string exactly unless the string has
strays and is in the language without them.** -/
theorem parseIsaString_decides_grammar_iff (s : Text) :
    ((∃ r, parseIsaString s = .ok r) ↔ IsaGrammar s) ↔
      ¬ (strays s ≠ [] ∧ IsaGrammar (withoutStrays s)) := by
  rw [parseIsaString_isOk_iff_withoutStrays]
  have hclean : IsaGrammar s ↔ IsaGrammar (withoutStrays s) ∧ strays s = [] := by
    rw [← parseIsaString_isOk_iff_withoutStrays, parseIsaString_isOk_iff]
    exact isaGrammar_iff s
  rw [hclean]
  tauto

/-- `rv64i!` is accepted, the exclamation mark is passed over. -/
theorem parseIsaString_accepts_stray :
    ¬ ∀ s, (∃ r, parseIsaString s = .ok r) ↔ IsaGrammar s := by
  intro h
  have hok : (parseIsaString "rv64i!".toList).toOption.isSome = true := by
    decide
  have hparse : ∃ r, parseIsaString "rv64i!".toList = .ok r := by
    cases hr : parseIsaString "rv64i!".toList with
    | error e =>
        rw [hr] at hok
        cases hok
    | ok r => exact ⟨r, rfl⟩
  have hstrays := ((isaGrammar_iff _).mp ((h _).mp hparse)).2
  revert hstrays
  decide

end Rvmi.Isa
