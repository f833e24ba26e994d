import Rvmi.Isa.Print
import Rvmi.Isa.Recorded

/-!
# Reading canonical strings

The parser's cuts recover what a canonical string was built from: the digits
end at the first letter, the letters at the first name, and the underscores
separate the names. What it records is therefore the set itself, as far as the
flags have names (`mem_recorded_canonical`), and two canonical strings are
equal only for the same named flags.
-/

namespace Rvmi.Isa

open Rvmi.Foundation RVMExtDescriptor

/-! ## Cutting a text that is known in parts -/

/-- The three cuts are forced when digits, letters and tail meet at characters
that belong to one side only. -/
theorem isaParts_of_lower {s digits letters tail : Text}
    (h : lower s = isaPrefix ++ (digits ++ (letters ++ tail)))
    (hdigits : ∀ c ∈ digits, isDigit c = true)
    (hfirst : ∀ c ∈ (letters ++ tail).head?, isDigit c = false)
    (hletters : ∀ c ∈ letters, isBoundary c = false)
    (htail : ∀ c ∈ tail.head?, isBoundary c = true) :
    isaPrefix <+: lower s ∧ isaDigits s = digits ∧ isaLetters s = letters ∧
      isaTail s = tail := by
  have hrest : isaRest s = digits ++ (letters ++ tail) := by
    unfold isaRest
    rw [h]
    rfl
  obtain ⟨hd, hbody⟩ := takeWhile_append_stop hdigits hfirst
  have hbody' : isaBody s = letters ++ tail := by
    unfold isaBody
    rw [hrest, hbody]
  have hcut := takeWhile_append_stop (p := fun c => !isBoundary c) (l := letters)
    (r := tail) (by simpa using hletters) (by simpa using htail)
  refine ⟨⟨_, h.symm⟩, ?_, ?_, ?_⟩
  · unfold isaDigits
    rw [hrest, hd]
  · unfold isaLetters
    rw [hbody', hcut.1]
  · unfold isaTail
    rw [hbody', hcut.2]

theorem stripUnderscore_of_head {u : Text} (h : ∀ c ∈ u.head?, c ≠ '_') :
    stripUnderscore u = u := by
  unfold stripUnderscore
  split
  · exact absurd rfl (h '_' rfl)
  · rfl

theorem tailTokens_intercalate {ts : List Text}
    (hts : ∀ t ∈ ts, t ≠ [] ∧ '_' ∉ t) : tailTokens (['_'].intercalate ts) = ts := by
  cases ts with
  | nil => rfl
  | cons t ts =>
      obtain ⟨ht, hsep⟩ := hts t List.mem_cons_self
      have hhead := head?_intercalate '_' ts ht
      have hne : ['_'].intercalate (t :: ts) ≠ [] := by
        intro h
        rw [h] at hhead
        exact ht (List.head?_eq_none_iff.mp hhead.symm)
      have hstrip : stripUnderscore (['_'].intercalate (t :: ts)) =
          ['_'].intercalate (t :: ts) := by
        apply stripUnderscore_of_head
        rw [hhead]
        rintro c hc rfl
        exact hsep (List.mem_of_mem_head? hc)
      unfold tailTokens
      rw [if_neg hne, hstrip, splitSkip_intercalate (by simp) hts]

theorem tailTokens_underscore {ts : List Text} (hne : ts ≠ [])
    (hts : ∀ t ∈ ts, t ≠ [] ∧ '_' ∉ t) :
    tailTokens ('_' :: ['_'].intercalate ts) = ts :=
  splitSkip_intercalate hne hts

theorem isDigit_of_isBoundary {c : Char} (h : isBoundary c = true) :
    isDigit c = false := by
  have hc : c = '_' ∨ c = 'z' ∨ c = 'x' ∨ c = 's' := by
    simpa [isBoundary] using h
  rcases hc with rfl | rfl | rfl | rfl <;> rfl

/-! ## What the tables guarantee -/

/-- The flags that have a spelling. -/
def Named (f : ExtFlag) : Prop :=
  (∃ e, f = .misa e) ∨ f ∈ multiLetterNames.map Prod.fst

theorem forEachMisaExt_read : ∀ p ∈ forEachMisaExt,
    p.2.toUpper.toLower = p.2 ∧ letterOf p.2 = some p.1 ∧ isDigit p.2 = false ∧
      (.misa p.1 ∉ reservedLetters → isBoundary p.2 = false) := by
  decide

theorem forEachMisaExt_increasing :
    forEachMisaExt.Pairwise fun p q => RVMMisaExt.lt p.1 q.1 := by
  unfold RVMMisaExt.lt
  decide

/-- Lower-cased, the name is a token that stands for the flag. -/
def ReadAs (name : Text) (f : ExtFlag) : Prop :=
  (lower name).head?.any isBoundary = true ∧ '_' ∉ lower name ∧
    flagOfToken (lower name) = some f

theorem ReadAs.ne_nil {name : Text} {f : ExtFlag} (h : ReadAs name f) :
    lower name ≠ [] := by
  intro hnil
  have hany := h.1
  rw [hnil] at hany
  cases hany

theorem ReadAs.head {name : Text} {f : ExtFlag} (h : ReadAs name f) :
    ∀ c ∈ (lower name).head?, isBoundary c = true := by
  intro c hc
  have hany := h.1
  rwa [Option.mem_def.mp hc] at hany

theorem forEachZext_read :
    ∀ p ∈ forEachZext, ReadAs ('Z' :: p.2.toList) (.zext p.1) := by
  unfold ReadAs
  decide +kernel

theorem forEachSext_read :
    ∀ p ∈ forEachSext, ReadAs ('S' :: p.2.toList) (.sext p.1) := by
  unfold ReadAs
  decide

theorem forEachXext_read :
    ∀ p ∈ forEachXext, ReadAs ('X' :: p.2.toList) (.xext p.1) := by
  unfold ReadAs
  decide

theorem multiLetterNames_read : ∀ p ∈ multiLetterNames, ReadAs p.2 p.1 := by
  intro p hp
  unfold multiLetterNames at hp
  simp only [List.mem_append, List.mem_map] at hp
  rcases hp with (⟨q, hq, rfl⟩ | ⟨q, hq, rfl⟩) | ⟨q, hq, rfl⟩
  · exact forEachZext_read q hq
  · exact forEachSext_read q hq
  · exact forEachXext_read q hq

/-! ## The parts of a canonical string -/

section Canonical

variable (S : Set ExtFlag) (rv64 lowercase : Bool)

def bitsText (rv64 : Bool) : Text := if rv64 then "64".toList else "32".toList

theorem lower_lettersOf : lower ((lettersOf S).map Char.toUpper) = lettersOf S := by
  unfold lower
  rw [List.map_map]
  conv_rhs => rw [← List.map_id (lettersOf S)]
  apply List.map_congr_left
  intro c hc
  rcases List.mem_map.mp hc with ⟨p, hp, rfl⟩
  exact (forEachMisaExt_read p (List.mem_of_mem_filter hp)).1

theorem lower_canonical : lower (canonicalIsaString S rv64 lowercase) =
    isaPrefix ++ (bitsText rv64 ++
      (lettersOf S ++ ['_'].intercalate ((namesOf S).map lower))) := by
  have hupper : lower (isaHead rv64 ++ (lettersOf S).map Char.toUpper ++
      ['_'].intercalate (namesOf S)) = isaPrefix ++ (bitsText rv64 ++
      (lettersOf S ++ ['_'].intercalate ((namesOf S).map lower))) := by
    have hhead : lower (isaHead rv64) = isaPrefix ++ bitsText rv64 := by
      cases rv64 <;> decide
    have hl := lower_lettersOf S
    unfold lower at hhead hl ⊢
    rw [List.map_append, List.map_append, hhead, hl, map_intercalate]
    simp only [List.append_assoc]
    rfl
  cases lowercase with
  | false => exact hupper
  | true =>
      have hcase : canonicalIsaString S rv64 true =
          (canonicalIsaString S rv64 false).map Char.toLower := rfl
      rw [hcase, show (canonicalIsaString S rv64 false).map Char.toLower =
        lower (canonicalIsaString S rv64 false) from rfl, lower_lower]
      exact hupper

theorem head?_names : ∀ c ∈ (['_'].intercalate ((namesOf S).map lower)).head?,
    isBoundary c = true := by
  cases hn : namesOf S with
  | nil => intro c hc; cases hc
  | cons t ts =>
      have ht : t ∈ namesOf S := hn ▸ List.mem_cons_self
      obtain ⟨p, hp, rfl⟩ := List.mem_map.mp ht
      have hread := multiLetterNames_read p (List.mem_of_mem_filter hp)
      rw [List.map_cons, head?_intercalate '_' _ hread.ne_nil]
      exact hread.head

theorem lettersOf_subset : ∀ c ∈ lettersOf S, ∃ e, .misa e ∈ S ∧ (e, c) ∈ forEachMisaExt := by
  intro c hc
  rcases List.mem_map.mp hc with ⟨p, hp, rfl⟩
  rcases List.mem_filter.mp hp with ⟨hp, hpS⟩
  exact ⟨p.1, by simpa using hpS, hp⟩

theorem parts_canonical (hS : ∀ f ∈ reservedLetters, f ∉ S) :
    isaPrefix <+: lower (canonicalIsaString S rv64 lowercase) ∧
      isaDigits (canonicalIsaString S rv64 lowercase) = bitsText rv64 ∧
      isaLetters (canonicalIsaString S rv64 lowercase) = lettersOf S ∧
      isaTail (canonicalIsaString S rv64 lowercase) =
        ['_'].intercalate ((namesOf S).map lower) := by
  have hmem : ∀ c ∈ lettersOf S, isDigit c = false ∧ isBoundary c = false := by
    intro c hc
    obtain ⟨e, he, hp⟩ := lettersOf_subset S c hc
    obtain ⟨-, -, hdigit, hboundary⟩ := forEachMisaExt_read _ hp
    exact ⟨hdigit, hboundary fun hr => hS _ hr he⟩
  apply isaParts_of_lower (lower_canonical S rv64 lowercase)
  · apply List.all_eq_true.mp
    cases rv64 <;> rfl
  · intro c hc
    cases hl : lettersOf S with
    | nil =>
        rw [hl] at hc
        exact isDigit_of_isBoundary (head?_names S c hc)
    | cons a l =>
        rw [hl, List.cons_append, List.head?_cons] at hc
        obtain rfl := Option.mem_some.mp hc
        exact (hmem a (hl ▸ List.mem_cons_self)).1
  · exact fun c hc => (hmem c hc).2
  · exact head?_names S

variable {S}

open Classical in
theorem recordedLetters_canonical (hS : ∀ f ∈ reservedLetters, f ∉ S) :
    recordedLetters (canonicalIsaString S rv64 lowercase) =
      (forEachMisaExt.filter fun p => decide (.misa p.1 ∈ S)).map Prod.fst := by
  unfold recordedLetters
  rw [(parts_canonical S rv64 lowercase hS).2.2.1]
  exact filterMap_map_snd fun p hp =>
    (forEachMisaExt_read p (List.mem_of_mem_filter hp)).2.1

theorem isaTokens_canonical (hS : ∀ f ∈ reservedLetters, f ∉ S) :
    isaTokens (canonicalIsaString S rv64 lowercase) = (namesOf S).map lower := by
  unfold isaTokens
  rw [(parts_canonical S rv64 lowercase hS).2.2.2]
  apply tailTokens_intercalate
  intro t ht
  obtain ⟨n, hn, rfl⟩ := List.mem_map.mp ht
  rcases List.mem_map.mp hn with ⟨p, hp, rfl⟩
  have hread := multiLetterNames_read p (List.mem_of_mem_filter hp)
  exact ⟨hread.ne_nil, hread.2.1⟩

open Classical in
theorem recordedNames_canonical (hS : ∀ f ∈ reservedLetters, f ∉ S) :
    recordedNames (canonicalIsaString S rv64 lowercase) =
      (multiLetterNames.filter fun p => decide (p.1 ∈ S)).map Prod.fst := by
  unfold recordedNames
  rw [isaTokens_canonical rv64 lowercase hS, List.filterMap_map]
  exact filterMap_map_snd fun p hp =>
    (multiLetterNames_read p (List.mem_of_mem_filter hp)).2.2

theorem mem_recordedLetters_canonical (hS : ∀ f ∈ reservedLetters, f ∉ S)
    {e : RVMMisaExt} :
    e ∈ recordedLetters (canonicalIsaString S rv64 lowercase) ↔ .misa e ∈ S := by
  rw [recordedLetters_canonical rv64 lowercase hS]
  simp only [List.mem_map, List.mem_filter, decide_eq_true_eq]
  constructor
  · rintro ⟨p, ⟨-, hp⟩, rfl⟩
    exact hp
  · intro he
    exact ⟨(e, e.letter), ⟨e.mem_forEachMisaExt, he⟩, rfl⟩

theorem mem_recordedNames_canonical (hS : ∀ f ∈ reservedLetters, f ∉ S)
    {f : ExtFlag} :
    f ∈ recordedNames (canonicalIsaString S rv64 lowercase) ↔
      f ∈ multiLetterNames.map Prod.fst ∧ f ∈ S := by
  rw [recordedNames_canonical rv64 lowercase hS]
  simp only [List.mem_map, List.mem_filter, decide_eq_true_eq]
  constructor
  · rintro ⟨p, ⟨hp, hpS⟩, rfl⟩
    exact ⟨⟨p, hp, rfl⟩, hpS⟩
  · rintro ⟨⟨p, hp, rfl⟩, hpS⟩
    exact ⟨p, ⟨hp, hpS⟩, rfl⟩

/-- **What is recorded from a canonical string is the set it was built from.** -/
theorem mem_recorded_canonical (hS : ∀ f ∈ reservedLetters, f ∉ S) {f : ExtFlag} :
    f ∈ recorded (canonicalIsaString S rv64 lowercase) ↔ Named f ∧ f ∈ S := by
  unfold recorded Named
  rw [List.mem_append, mem_recordedNames_canonical rv64 lowercase hS, List.mem_map]
  constructor
  · rintro (⟨e, he, rfl⟩ | ⟨hf, hfS⟩)
    · exact ⟨Or.inl ⟨e, rfl⟩, (mem_recordedLetters_canonical rv64 lowercase hS).mp he⟩
    · exact ⟨Or.inr hf, hfS⟩
  · rintro ⟨⟨e, rfl⟩ | hf, hfS⟩
    · exact Or.inl ⟨e, (mem_recordedLetters_canonical rv64 lowercase hS).mpr hfS, rfl⟩
    · exact Or.inr ⟨hf, hfS⟩

/-- The parser accepts a canonical string when the set has a base. -/
theorem accepted_canonical (hS : ∀ f ∈ reservedLetters, f ∉ S) {rv64' : Bool} :
    Accepted (canonicalIsaString S rv64 lowercase) rv64' ↔
      rv64' = rv64 ∧ (.misa .I ∈ S ∨ .misa .E ∈ S ∨ .misa .G ∈ S) := by
  have hmem := @mem_recordedLetters_canonical S rv64 lowercase hS
  obtain ⟨hstarts, hdigits, -, -⟩ := parts_canonical S rv64 lowercase hS
  constructor
  · intro h
    have hbits := h.bits
    have hbase := h.base
    rw [hdigits] at hbits
    simp only [hmem] at hbase
    refine ⟨?_, hbase⟩
    revert hbits
    cases rv64 <;> cases rv64' <;> decide
  · rintro ⟨rfl, hbase⟩
    refine ⟨hstarts, ?_, ?_, ?_, ?_, ?_⟩
    · rw [hdigits]
      cases rv64' <;> decide
    · rw [hdigits]
      cases rv64' <;> decide
    · rw [recordedLetters_canonical rv64' lowercase hS, List.pairwise_map]
      exact forEachMisaExt_increasing.filter _
    · rw [isaTokens_canonical rv64' lowercase hS]
      intro t ht
      rcases List.mem_map.mp ht with ⟨n, hn, rfl⟩
      obtain ⟨p, hp, rfl⟩ := List.mem_map.mp hn
      rw [(multiLetterNames_read p (List.mem_of_mem_filter hp)).2.2]
      rfl
    · simp only [hmem]
      exact hbase

/-- Canonical strings of one bitness are equal only for the same named flags. -/
theorem canonicalIsaString_eq_iff {T : Set ExtFlag}
    (hS : ∀ f ∈ reservedLetters, f ∉ S) (hT : ∀ f ∈ reservedLetters, f ∉ T) :
    canonicalIsaString S rv64 lowercase = canonicalIsaString T rv64 lowercase ↔
      ∀ f, Named f → (f ∈ S ↔ f ∈ T) := by
  constructor
  · intro h f hf
    have hrec := mem_recorded_canonical rv64 lowercase hS (f := f)
    rw [h, mem_recorded_canonical rv64 lowercase hT] at hrec
    exact ⟨fun hfS => (hrec.mpr ⟨hf, hfS⟩).2, fun hfT => (hrec.mp ⟨hf, hfT⟩).2⟩
  · intro h
    have hletters : lettersOf S = lettersOf T := by
      unfold lettersOf
      congr 1
      apply List.filter_congr
      intro p hp
      exact decide_eq_decide.mpr (h _ (Or.inl ⟨p.1, rfl⟩))
    have hnames : namesOf S = namesOf T := by
      unfold namesOf
      congr 1
      apply List.filter_congr
      intro p hp
      exact decide_eq_decide.mpr (h _ (Or.inr (List.mem_map.mpr ⟨p, hp, rfl⟩)))
    unfold canonicalIsaString
    rw [hletters, hnames]

end Canonical

end Rvmi.Isa
