import Rvmi.Isa.Recorded

/-!
# How a parse fails

A string that is not accepted ends the parser in one of three ways. Most end in
`invalid_isa_string`. Letters out of order end in the `std::invalid_argument`
of the letter macro, which nothing converts. And two kinds of strings make the
parser apply a view operation outside its precondition: those that stop right
behind the bitness, and those that stop right behind an underscore.
-/

namespace Rvmi.Isa

open Rvmi.Foundation RVMExtDescriptor

/-! ## Kinds of strings -/

/-- `what()`, where the text is the repository's own. -/
def IsaFailure.what : IsaFailure → Option Text
  | invalidIsaString inputIsa msg =>
      some ("Invalid ISA string \"".toList ++ inputIsa ++ "\": ".toList ++ msg)
  | invalidArgument msg => some msg
  | outOfRange => none
  | undefinedBehaviour => none

/-- The string starts with `rv` and a bitness that is supported. -/
structure BitnessRead (s : Text) : Prop where
  starts : isaPrefix <+: lower s
  digits : isaDigits s ≠ []
  supported : decimalValue (isaDigits s) = 32 ∨ decimalValue (isaDigits s) = 64

def LettersIncrease (s : Text) : Prop := (recordedLetters s).Pairwise RVMMisaExt.lt

/-- The last token is empty, and every token before it is known. -/
def LastTokenEmpty (s : Text) : Prop :=
  ∃ init, isaTokens s = init ++ [[]] ∧ ∀ t ∈ init, (flagOfToken t).isSome

/-- A bitness with letters that are not in table order behind it. -/
def Disordered (s : Text) : Prop := BitnessRead s ∧ ¬ LettersIncrease s

/-- The string ends behind the bitness, or behind an underscore that the name
stage reaches. -/
def CutShort (s : Text) : Prop :=
  BitnessRead s ∧ (isaBody s = [] ∨ LettersIncrease s ∧ LastTokenEmpty s)

/-! ## Failures of the stages -/

theorem readBitness_error {s : Text} {e : IsaFailure}
    (h : readBitness s (isaRest s) = .error e) :
    (∃ msg, e = .invalidIsaString s msg) ∧
        ¬ (isaDigits s ≠ [] ∧
          (decimalValue (isaDigits s) = 32 ∨ decimalValue (isaDigits s) = 64)) ∨
      e = .undefinedBehaviour ∧ isaDigits s ≠ [] ∧
        (decimalValue (isaDigits s) = 32 ∨ decimalValue (isaDigits s) = 64) ∧
        isaBody s = [] := by
  have hdig := isDigit_isaDigits s
  rw [readBitness_isaRest] at h
  cases hbits : parseIsaBitness (isaDigits s) with
  | error what =>
      rw [hbits] at h
      cases h
      refine Or.inl ⟨⟨what, rfl⟩, ?_⟩
      rintro ⟨hne, hsupp⟩
      have hok := (parseIsaBitness_eq_ok hdig).mpr ⟨hne, rfl, hsupp⟩
      rw [hbits] at hok
      cases hok
  | ok bits =>
      obtain ⟨hne, rfl, hsupp⟩ := (parseIsaBitness_eq_ok hdig).mp hbits
      rw [hbits] at h
      by_cases hbody : isaBody s = []
      · simp only [if_pos hbody] at h
        cases h
        exact Or.inr ⟨rfl, hne, hsupp, hbody⟩
      · simp only [if_neg hbody] at h
        cases h

theorem letterStep_error {ext : RVMExtDescriptor} {c : Char} {e : IsaFailure}
    (h : letterStep ext c = .error e) : ∃ msg, e = .invalidArgument msg := by
  cases hc : letterOf c with
  | none =>
      rw [letterStep_of_none hc] at h
      cases h
  | some m =>
      rcases letterStep_of_some hc ext with ⟨-, msg, hstep⟩ | ⟨-, hstep⟩
      · rw [hstep] at h
        cases h
        exact ⟨msg, rfl⟩
      · rw [hstep] at h
        cases h

/-- The letter stage fails exactly on letters out of order. -/
theorem parseLetters_error {s : Text} {e : IsaFailure}
    (h : parseLetters (isaBody s)
      ((findFirstOf (isaBody s) "_zxs".toList).getD (isaBody s).length)
      rvmInitExtDescriptor = .error e) :
    (∃ msg, e = .invalidArgument msg) ∧ ¬ LettersIncrease s := by
  refine ⟨?_, fun hinc => ?_⟩
  · rw [parseLetters_isaBody] at h
    obtain ⟨-, c, -, ext, -, -, hstep⟩ := foldlM_eq_error h
    exact letterStep_error hstep
  · rw [(parseLetters_eq_ok s _).mpr ⟨hinc, rfl⟩] at h
    cases h

theorem addExtensionBits_nil (inputIsa : Text) (ext : RVMExtDescriptor) :
    addExtensionBits inputIsa ext [] = .error .undefinedBehaviour := rfl

theorem addExtensionBits_error {inputIsa e : Text} (he : e ≠ []) {ext : RVMExtDescriptor}
    {err : IsaFailure} (h : addExtensionBits inputIsa ext e = .error err) :
    ∃ msg, err = .invalidIsaString inputIsa msg := by
  obtain ⟨c, name, rfl⟩ := List.exists_cons_of_ne_nil he
  have hsub : substr (c :: name) 1 none = .ok name := substr_eq_ok none (by simp)
  have hfront : front (c :: name) = .ok c := rfl
  unfold addExtensionBits at h
  rw [hfront, hsub] at h
  simp only [bind, Except.bind] at h
  -- the three name tables and the final `else`
  split at h
  · split at h <;> cases h
    exact ⟨_, rfl⟩
  · split at h
    · split at h <;> cases h
      exact ⟨_, rfl⟩
    · split at h
      · split at h <;> cases h
        exact ⟨_, rfl⟩
      · cases h
        exact ⟨_, rfl⟩

/-- Only the last token can be empty. -/
theorem isaTokens_dropLast_ne_nil (s : Text) : ∀ t ∈ (isaTokens s).dropLast, t ≠ [] := by
  unfold isaTokens tailTokens
  split
  · intro t ht
    cases ht
  · exact splitSkip_dropLast_ne_nil '_' _

/-- The name stage fails on the first token that is not known. -/
theorem parseNames_error {s : Text} {ext : RVMExtDescriptor} {e : IsaFailure}
    (h : parseNames s (isaBody s) (findFirstOf (isaBody s) "_zxs".toList) ext = .error e) :
    (∃ msg, e = .invalidIsaString s msg) ∧ ¬ LastTokenEmpty s ∨
      e = .undefinedBehaviour ∧ LastTokenEmpty s := by
  rw [parseNames_isaBody] at h
  obtain ⟨pre, t, post, ext', hsplit, hpre, ht⟩ := foldlM_eq_error h
  have hknown := ((foldlM_addExtensionBits_eq_ok s pre ext ext').mp hpre).1
  by_cases hnil : t = []
  · subst hnil
    rw [addExtensionBits_nil] at ht
    cases ht
    refine Or.inr ⟨rfl, pre, ?_, hknown⟩
    cases post with
    | nil => exact hsplit
    | cons t' post =>
        -- an empty token is the last one
        refine absurd rfl (isaTokens_dropLast_ne_nil s [] ?_)
        rw [hsplit, List.dropLast_append_cons, List.dropLast_cons_of_ne_nil (by simp)]
        exact List.mem_append_right _ List.mem_cons_self
  · refine Or.inl ⟨addExtensionBits_error hnil ht, ?_⟩
    rintro ⟨init, hinit, hall⟩
    have hmem : t ∈ init ++ [[]] := by
      rw [← hinit, hsplit]
      exact List.mem_append_right _ List.mem_cons_self
    rcases List.mem_append.mp hmem with hmem | hmem
    · obtain ⟨f, hf⟩ := Option.isSome_iff_exists.mp (hall t hmem)
      rw [(addExtensionBits_eq_ok s t ext' _).mpr ⟨f, hf, rfl⟩] at ht
      cases ht
    · exact hnil (List.mem_singleton.mp hmem)

theorem requireBase_error {s : Text} {ext : RVMExtDescriptor} {rv64 : Bool} {e : IsaFailure}
    (h : requireBase s ext rv64 = .error e) : ∃ msg, e = .invalidIsaString s msg := by
  unfold requireBase at h
  split at h
  · cases h
    exact ⟨_, rfl⟩
  · cases h

/-! ## The whole parser -/

/-- The failure of the stages behind the bitness. -/
theorem parseExtensions_error {s : Text} {bits : Nat} {e : IsaFailure}
    (h : parseExtensions s (isaBody s) bits = .error e) :
    (∃ msg, e = .invalidIsaString s msg) ∧ LettersIncrease s ∧ ¬ LastTokenEmpty s ∨
      e = .undefinedBehaviour ∧ LettersIncrease s ∧ LastTokenEmpty s ∨
      (∃ msg, e = .invalidArgument msg) ∧ ¬ LettersIncrease s := by
  unfold parseExtensions at h
  cases hletters : parseLetters (isaBody s)
      ((findFirstOf (isaBody s) "_zxs".toList).getD (isaBody s).length)
      rvmInitExtDescriptor with
  | error e' =>
      simp only [hletters] at h
      cases h
      exact Or.inr (Or.inr (parseLetters_error hletters))
  | ok ext =>
      have hinc : LettersIncrease s := ((parseLetters_eq_ok s ext).mp hletters).1
      simp only [hletters] at h
      cases hnames : parseNames s (isaBody s) (findFirstOf (isaBody s) "_zxs".toList) ext with
      | error e' =>
          simp only [bind, Except.bind, hnames] at h
          cases h
          rcases parseNames_error hnames with ⟨hmsg, hlast⟩ | ⟨he, hlast⟩
          · exact Or.inl ⟨hmsg, hinc, hlast⟩
          · exact Or.inr (Or.inl ⟨he, hinc, hlast⟩)
      | ok ext' =>
          simp only [bind, Except.bind, hnames] at h
          refine Or.inl ⟨requireBase_error h, hinc, ?_⟩
          rintro ⟨init, hinit, -⟩
          rw [((parseLetters_eq_ok s ext).mp hletters).2] at hnames
          have hknown := ((parseNames_eq_ok s ext').mp hnames).1 []
            (hinit ▸ List.mem_append_right _ List.mem_cons_self)
          cases hknown

/-- Every failure of the parser with the kind of string it belongs to. -/
theorem parseIsaString_error {s : Text} {e : IsaFailure} (h : parseIsaString s = .error e) :
    (∃ msg, e = .invalidIsaString s msg) ∧ ¬ CutShort s ∧ ¬ Disordered s ∨
      e = .undefinedBehaviour ∧ CutShort s ∨
      (∃ msg, e = .invalidArgument msg) ∧ Disordered s := by
  have hunread (hno : ¬ BitnessRead s) : ¬ CutShort s ∧ ¬ Disordered s :=
    ⟨fun hcut => hno hcut.1, fun hdis => hno hdis.1⟩
  unfold parseIsaString at h
  by_cases hpre : findText (s.map Char.toLower) isaPrefix = some 0
  · rw [if_neg (not_not_intro hpre)] at h
    have hstarts : isaPrefix <+: lower s := findText_eq_zero_iff.mp hpre
    have hrest : removePrefix (s.map Char.toLower) (some isaPrefix.length) =
        .ok (isaRest s) := removePrefix_eq_ok hstarts.length_le
    simp only [hrest] at h
    cases hread : readBitness s (isaRest s) with
    | error e' =>
        simp only [bind, Except.bind, hread] at h
        cases h
        rcases readBitness_error hread with ⟨hmsg, hno⟩ | ⟨rfl, hne, hsupp, hbody⟩
        · exact Or.inl ⟨hmsg, hunread fun hb => hno ⟨hb.digits, hb.supported⟩⟩
        · exact Or.inr (Or.inl ⟨rfl, ⟨hstarts, hne, hsupp⟩, Or.inl hbody⟩)
    | ok read =>
        obtain ⟨bits, body⟩ := read
        simp only [bind, Except.bind, hread] at h
        obtain ⟨hne, hval, hsupp, hbody, rfl⟩ := (readBitness_eq_ok s bits body).mp hread
        have hbit : BitnessRead s := ⟨hstarts, hne, hval ▸ hsupp⟩
        rcases parseExtensions_error h with ⟨hmsg, hinc, hlast⟩ | ⟨rfl, hcut⟩ | ⟨hmsg, hdis⟩
        · refine Or.inl ⟨hmsg, ?_, fun hdis => hdis.2 hinc⟩
          rintro ⟨-, hnil | hempty⟩
          · exact hbody hnil
          · exact hlast hempty.2
        · exact Or.inr (Or.inl ⟨rfl, hbit, Or.inr hcut⟩)
        · exact Or.inr (Or.inr ⟨hmsg, hbit, hdis⟩)
  · rw [if_pos hpre] at h
    cases h
    exact Or.inl ⟨⟨_, rfl⟩, hunread fun hb => hpre (findText_eq_zero_iff.mpr hb.starts)⟩

theorem not_disordered_of_cutShort {s : Text} (h : CutShort s) : ¬ Disordered s := by
  rintro ⟨-, hdis⟩
  rcases h.2 with hnil | hlast
  · apply hdis
    unfold LettersIncrease recordedLetters isaLetters
    rw [hnil]
    exact List.Pairwise.nil
  · exact hdis hlast.1

/-- An accepted string is of neither kind. -/
theorem Accepted.complete {s : Text} {rv64 : Bool} (h : Accepted s rv64) :
    ¬ CutShort s ∧ ¬ Disordered s := by
  constructor
  · rintro ⟨-, hnil | ⟨-, init, hinit, -⟩⟩
    · exact h.body hnil
    · have hknown := h.names [] (hinit ▸ List.mem_append_right _ List.mem_cons_self)
      cases hknown
  · exact fun hdis => hdis.2 h.letters

/-- The kinds determine the failure. -/
theorem parseIsaString_eq_undefinedBehaviour_iff (s : Text) :
    parseIsaString s = .error .undefinedBehaviour ↔ CutShort s := by
  constructor
  · intro h
    rcases parseIsaString_error h with ⟨⟨msg, hmsg⟩, -⟩ | ⟨-, hcut⟩ | ⟨⟨msg, hmsg⟩, -⟩
    · cases hmsg
    · exact hcut
    · cases hmsg
  · intro hcut
    cases h : parseIsaString s with
    | ok r => exact absurd hcut ((parseIsaString_eq_ok_iff s r.1 r.2).mp h).1.complete.1
    | error e =>
        rcases parseIsaString_error h with ⟨-, hno, -⟩ | ⟨rfl, -⟩ | ⟨-, hdis⟩
        · exact absurd hcut hno
        · rfl
        · exact absurd hdis (not_disordered_of_cutShort hcut)

/-- Every view operation of the parse is applied inside its range. One that is
not ends the parse where it stands, and no handler is around it. -/
def ViewsInRange (s : Text) : Prop :=
  parseIsaString s ≠ .error .undefinedBehaviour ∧ parseIsaString s ≠ .error .outOfRange

/-- **The operations are in range except on strings that are cut short.** No
`substr` position is ever out of range. -/
theorem viewsInRange_iff (s : Text) : ViewsInRange s ↔ ¬ CutShort s := by
  have hsubstr : parseIsaString s ≠ .error .outOfRange := by
    intro h
    rcases parseIsaString_error h with ⟨⟨msg, hmsg⟩, -⟩ | ⟨hmsg, -⟩ | ⟨⟨msg, hmsg⟩, -⟩ <;>
      cases hmsg
  unfold ViewsInRange
  rw [Ne, parseIsaString_eq_undefinedBehaviour_iff]
  exact and_iff_left hsubstr

/-- Behind the underscore of `rv32_` there is no character to look at. -/
theorem viewsInRange_fails : ¬ ∀ s, ViewsInRange s := by
  intro h
  have hread : BitnessRead "rv32_".toList := ⟨by decide, by decide, by decide⟩
  have hlast : LastTokenEmpty "rv32_".toList := ⟨[], splitSkip_of_none rfl, by simp⟩
  have hinc : LettersIncrease "rv32_".toList := List.Pairwise.nil
  have hcut : CutShort "rv32_".toList := ⟨hread, Or.inr ⟨hinc, hlast⟩⟩
  exact (h "rv32_".toList).1 ((parseIsaString_eq_undefinedBehaviour_iff _).mpr hcut)

/-! ## Reports -/

end Rvmi.Isa
