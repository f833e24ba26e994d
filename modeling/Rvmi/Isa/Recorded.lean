import Rvmi.Isa.Parse

/-!
# What the parser records from a string

A string is cut into digits, single letters and a tail of names by its text
alone (`isaDigits`, `isaLetters`, `isaTokens`). Every stage of the parser is
characterised by these parts, and `parseIsaString_eq_ok_iff` puts the stages
together: the parser accepts when the recorded letters increase, the names are
known and a base is there, and it returns the normalised record.
-/

namespace Rvmi.Isa

open Rvmi.Foundation RVMExtDescriptor

/-! ## The parts of a string -/

def lower (s : Text) : Text := s.map Char.toLower

theorem lower_lower (s : Text) : lower (lower s) = lower s := by
  have hchar : ∀ c : Char, c.toLower.toLower = c.toLower := by
    intro c
    delta Char.toLower
    split <;> grind
  simp [lower, Function.comp_def, hchar]

/-- The first characters of names: none of them starts a letter run. -/
def isBoundary (c : Char) : Bool := "_zxs".toList.contains c

/-- What follows the two characters of the `rv` at the front. -/
def isaRest (s : Text) : Text := (lower s).drop 2

def isaDigits (s : Text) : Text := (isaRest s).takeWhile isDigit

def isaBody (s : Text) : Text := (isaRest s).dropWhile isDigit

def isaLetters (s : Text) : Text := (isaBody s).takeWhile fun c => !isBoundary c

def isaTail (s : Text) : Text := (isaBody s).dropWhile fun c => !isBoundary c

/-- One underscore in front of the first name is dropped. -/
def stripUnderscore : Text → Text
  | '_' :: t => t
  | t => t

def tailTokens (tail : Text) : List Text :=
  if tail = [] then [] else splitSkip '_' (stripUnderscore tail)

def isaTokens (s : Text) : List Text := tailTokens (isaTail s)

/-! ## Letters and names as flags -/

def letterOf (c : Char) : Option RVMMisaExt :=
  (forEachMisaExt.find? fun p => decide (p.2 = c)).map Prod.fst

def flagOfToken : Text → Option ExtFlag
  | 'z' :: name => (lookupName forEachZext name).map .zext
  | 's' :: name => (lookupName forEachSext name).map .sext
  | 'x' :: name => (lookupName forEachXext name).map .xext
  | _ => none

def recordedLetters (s : Text) : List RVMMisaExt := (isaLetters s).filterMap letterOf

def recordedNames (s : Text) : List ExtFlag := (isaTokens s).filterMap flagOfToken

/-- The letters and names recorded from a string. -/
def recorded (s : Text) : List ExtFlag :=
  (recordedLetters s).map .misa ++ recordedNames s

/-- Table order on letters. -/
def RVMMisaExt.lt (a b : RVMMisaExt) : Prop := a.ctorIdx < b.ctorIdx

/-! ## The bitness -/

theorem takeWhile_isDigit_of_forall {str : Text} (h : ∀ c ∈ str, isDigit c = true) :
    str.takeWhile isDigit = str :=
  List.takeWhile_eq_self_iff.mpr h

theorem parseIsaBitness_eq_ok {str : Text} {bits : Nat}
    (h : ∀ c ∈ str, isDigit c = true) :
    parseIsaBitness str = .ok bits ↔
      str ≠ [] ∧ decimalValue str = bits ∧ (bits = 32 ∨ bits = 64) := by
  unfold parseIsaBitness fromChars
  simp only [takeWhile_isDigit_of_forall h]
  by_cases hnil : str = []
  · simp [hnil]
  · simp only [if_neg hnil]
    by_cases hbig : decimalValue str < 2 ^ 32
    · simp only [if_pos hbig]
      by_cases hsupp : decimalValue str ≠ 32 ∧ decimalValue str ≠ 64
      · rw [if_pos hsupp]
        constructor
        · intro he
          cases he
        · rintro ⟨-, rfl, h32 | h64⟩
          · exact absurd h32 hsupp.1
          · exact absurd h64 hsupp.2
      · rw [if_neg hsupp]
        constructor
        · intro he
          injection he with he
          exact ⟨hnil, he, by omega⟩
        · rintro ⟨-, rfl, -⟩
          rfl
    · simp only [if_neg hbig]
      constructor
      · intro he
        cases he
      · rintro ⟨-, rfl, h32 | h64⟩ <;> omega

/-! ## The letter loop -/

/-- The macro chain over a table whose letters are distinct: at most one entry
matches, and the order check and the assignment are that entry's. -/
theorem foldlM_addMisaBitsCase {c : Char} : ∀ {table : List (RVMMisaExt × Char)},
    (table.map Prod.snd).Nodup → ∀ ext : RVMExtDescriptor,
    table.foldlM (addMisaBitsCase [c]) ext =
      match table.find? fun p => decide (p.2 = c) with
      | none => .ok ext
      | some p => addMisaBitsCase [c] ext p := by
  intro table
  induction table with
  | nil => intro _ ext; rfl
  | cons p table ih =>
      intro hnd ext
      have hnd' := List.nodup_cons.mp hnd
      rw [List.foldlM_cons, List.find?_cons]
      by_cases hp : p.2 = c
      · have hrest : ∀ q ∈ table, ¬ decide (q.2 = c) = true := by
          intro q hq
          simp only [decide_eq_true_eq]
          exact fun hqc => hnd'.1 (List.mem_map.mpr ⟨q, hq, hqc.trans hp.symm⟩)
        have hnone := List.find?_eq_none.mpr hrest
        simp only [hp, decide_true]
        cases hstep : addMisaBitsCase [c] ext p with
        | error e => rfl
        | ok ext' =>
            show table.foldlM (addMisaBitsCase [c]) ext' = _
            rw [ih hnd'.2, hnone]
      · have hskip : addMisaBitsCase [c] ext p = .ok ext := by
          unfold addMisaBitsCase
          rw [if_neg]
          intro he
          exact hp (List.singleton_inj.mp he).symm
        simp only [hp, decide_false, hskip]
        exact ih hnd'.2 ext

theorem forEachMisaExt_letters_nodup : (forEachMisaExt.map Prod.snd).Nodup := by
  decide

/-- The body of the letter loop, on the character it looks at. -/
def letterStep (ext : RVMExtDescriptor) (c : Char) : Parse RVMExtDescriptor :=
  forEachMisaExt.foldlM (addMisaBitsCase [c]) ext

theorem letterStep_of_none {c : Char} (h : letterOf c = none)
    (ext : RVMExtDescriptor) : letterStep ext c = .ok ext := by
  unfold letterStep
  rw [foldlM_addMisaBitsCase forEachMisaExt_letters_nodup]
  rw [Option.map_eq_none_iff.mp h]

theorem letterStep_of_some {c : Char} {m : RVMMisaExt} (h : letterOf c = some m)
    (ext : RVMExtDescriptor) :
    setAtOrAfter ext m = true ∧ (∃ msg, letterStep ext c = .error (.invalidArgument msg)) ∨
      setAtOrAfter ext m = false ∧ letterStep ext c = .ok (ext.set (.misa m) 1) := by
  obtain ⟨⟨m', c'⟩, hfind, rfl⟩ := Option.map_eq_some_iff.mp h
  have hc : c' = c := by simpa using List.find?_some hfind
  subst hc
  have hstep : letterStep ext c' = addMisaBitsCase [c'] ext (m', c') := by
    unfold letterStep
    rw [foldlM_addMisaBitsCase forEachMisaExt_letters_nodup, hfind]
  rw [hstep]
  unfold addMisaBitsCase
  simp only [↓reduceIte]
  cases hset : setAtOrAfter ext m' with
  | true => exact Or.inl ⟨rfl, _, if_pos rfl⟩
  | false => exact Or.inr ⟨rfl, if_neg Bool.false_ne_true⟩

/-- The loop over positions is the loop over the characters of the part. -/
theorem parseLetters_eq_foldlM (isa : Text) (ext : RVMExtDescriptor) {n : Nat}
    (hn : n ≤ isa.length) :
    parseLetters isa n ext = (isa.take n).foldlM letterStep ext := by
  unfold parseLetters
  induction n with
  | zero => rfl
  | succ n ih =>
      have hlt : n < isa.length := by omega
      have hstep : ∀ ext, parseLetterAt isa ext n = letterStep ext (isa[n]) := by
        intro ext
        have hchar : (isa.drop n).take 1 = [isa[n]] := by
          rw [List.drop_eq_getElem_cons hlt, List.take_succ_cons, List.take_zero]
        unfold parseLetterAt letterStep
        rw [substr_eq_ok (some 1) (Nat.le_of_lt hlt)]
        simp only [hchar]
        rfl
      rw [List.range_succ, List.foldlM_append, ih (by omega),
        List.take_succ_eq_append_getElem hlt, List.foldlM_append]
      simp only [List.foldlM_cons, List.foldlM_nil, hstep]

theorem setAtOrAfter_iff (ms : List RVMMisaExt) (m : RVMMisaExt) :
    setAtOrAfter (rvmInitExtDescriptor.setAll (ms.map .misa)) m = true ↔
      ∃ m' ∈ ms, m.ctorIdx ≤ m'.ctorIdx := by
  have hget : ∀ m', (rvmInitExtDescriptor.setAll (ms.map .misa)).misaExt m' = 1 ↔
      m' ∈ ms := by
    intro m'
    have := get_setAll rvmInitExtDescriptor (ms.map .misa) (.misa m')
    rw [show (rvmInitExtDescriptor.setAll (ms.map .misa)).misaExt m' =
      (rvmInitExtDescriptor.setAll (ms.map .misa)).get (.misa m') from rfl, this]
    by_cases hm : m' ∈ ms
    · simp [hm]
    · simp [hm]
  unfold setAtOrAfter
  simp only [List.any_eq_true, Bool.and_eq_true, decide_eq_true_eq, hget]
  constructor
  · rintro ⟨p, -, hle, hm⟩
    exact ⟨p.1, hm, hle⟩
  · rintro ⟨m', hm, hle⟩
    exact ⟨(m', m'.letter), m'.mem_forEachMisaExt, hle, hm⟩

/-- Behind the letters `ms`, a letter is accepted when it comes after all of them. -/
theorem letterStep_setAll_eq_ok {c : Char} {m : RVMMisaExt} (hc : letterOf c = some m)
    {ms : List RVMMisaExt} (hms : ms.Pairwise RVMMisaExt.lt) (ext : RVMExtDescriptor) :
    letterStep (rvmInitExtDescriptor.setAll (ms.map .misa)) c = .ok ext ↔
      (ms ++ [m]).Pairwise RVMMisaExt.lt ∧
        ext = rvmInitExtDescriptor.setAll ((ms ++ [m]).map .misa) := by
  rcases letterStep_of_some hc (rvmInitExtDescriptor.setAll (ms.map .misa))
    with ⟨hset, msg, hstep⟩ | ⟨hset, hstep⟩
  · -- an equal or later letter is recorded: the order check throws
    obtain ⟨m', hm', hle⟩ := (setAtOrAfter_iff ms m).mp hset
    rw [hstep]
    constructor
    · intro h
      cases h
    · rintro ⟨h, -⟩
      have hlt : m'.ctorIdx < m.ctorIdx :=
        (List.pairwise_append.mp h).2.2 m' hm' m List.mem_cons_self
      omega
  · have hall : ∀ m' ∈ ms, m'.lt m := by
      intro m' hm'
      by_contra hnot
      have hlater : setAtOrAfter (rvmInitExtDescriptor.setAll (ms.map .misa)) m = true :=
        (setAtOrAfter_iff ms m).mpr ⟨m', hm', Nat.le_of_not_lt hnot⟩
      rw [hset] at hlater
      cases hlater
    have hms' : (ms ++ [m]).Pairwise RVMMisaExt.lt := by
      rw [List.pairwise_append]
      refine ⟨hms, List.pairwise_singleton _ _, fun m' hm' b hb => ?_⟩
      rw [List.mem_singleton.mp hb]
      exact hall m' hm'
    have hnext : (rvmInitExtDescriptor.setAll (ms.map .misa)).set (.misa m) 1 =
        rvmInitExtDescriptor.setAll ((ms ++ [m]).map .misa) := by
      rw [List.map_append, setAll_append]
      rfl
    rw [hstep, hnext]
    constructor
    · intro h
      cases h
      exact ⟨hms', rfl⟩
    · rintro ⟨-, rfl⟩
      rfl

/-- The loop succeeds exactly when the letters it recognises increase in table
order; it records them and nothing else. -/
theorem foldlM_letterStep_eq_ok (cs : Text) : ∀ (ms : List RVMMisaExt)
    (ext : RVMExtDescriptor), ms.Pairwise RVMMisaExt.lt →
    (cs.foldlM letterStep (rvmInitExtDescriptor.setAll (ms.map .misa)) = .ok ext ↔
      (ms ++ cs.filterMap letterOf).Pairwise RVMMisaExt.lt ∧
        ext = rvmInitExtDescriptor.setAll ((ms ++ cs.filterMap letterOf).map .misa)) := by
  induction cs with
  | nil =>
      intro ms ext hms
      simp only [List.foldlM_nil, List.filterMap_nil, List.append_nil, hms, true_and]
      constructor
      · intro h
        injection h with h
        exact h.symm
      · rintro rfl
        rfl
  | cons c cs ih =>
      intro ms ext hms
      rw [List.foldlM_cons, bind_eq_ok]
      cases hc : letterOf c with
      | none =>
          rw [List.filterMap_cons_none hc, letterStep_of_none hc]
          constructor
          · rintro ⟨ext', h, h'⟩
            cases h
            exact (ih ms ext hms).mp h'
          · intro h
            exact ⟨_, rfl, (ih ms ext hms).mpr h⟩
      | some m =>
          have hassoc : ms ++ m :: cs.filterMap letterOf =
              (ms ++ [m]) ++ cs.filterMap letterOf := by simp
          rw [List.filterMap_cons_some hc, hassoc]
          constructor
          · rintro ⟨ext', h, h'⟩
            obtain ⟨hms', rfl⟩ := (letterStep_setAll_eq_ok hc hms ext').mp h
            exact (ih _ ext hms').mp h'
          · intro h
            have hms' : (ms ++ [m]).Pairwise RVMMisaExt.lt := (List.pairwise_append.mp h.1).1
            exact ⟨_, (letterStep_setAll_eq_ok hc hms _).mpr ⟨hms', rfl⟩, (ih _ ext hms').mpr h⟩

/-! ## Splitting and looking up names -/

theorem splitLoop_eq (isa : Text) : ∀ (current : Nat) (acc : List Text),
    current ≤ isa.length →
    splitLoop isa current acc = .ok (acc ++ splitSkip '_' (isa.drop current)) := by
  intro current
  induction hn : isa.length - current using Nat.strong_induction_on generalizing current with
  | _ n ih =>
      intro acc hcur
      have hdrop : (isa.drop current).drop 1 = isa.drop (current + 1) := by
        rw [List.drop_drop]
      rw [splitLoop]
      split
      · rename_i hnone
        have hnone' := Option.map_eq_none_iff.mp hnone
        rw [splitSkip_of_none (by rw [hdrop]; exact hnone'), substr_eq_ok none hcur]
        rfl
      · rename_i k hsome
        have hb := find_bounds hsome
        rcases Option.map_eq_some_iff.mp hsome with ⟨j, hj, rfl⟩
        have hnext := ih (isa.length - (j + (current + 1) + 1)) (by omega)
          (j + (current + 1) + 1) rfl
          (acc ++ [(isa.drop current).take (j + (current + 1) - current)]) (by omega)
        rw [splitSkip_of_some (by rw [hdrop]; exact hj), substr_eq_ok _ hcur]
        show splitLoop isa (j + (current + 1) + 1)
          (acc ++ [(isa.drop current).take (j + (current + 1) - current)]) = _
        rw [hnext, List.drop_drop, List.append_assoc,
          show j + (current + 1) - current = j + 1 by omega,
          show current + (j + 2) = j + (current + 1) + 1 by omega]
        rfl

theorem splitExtensions_eq {isa : Text} (h : isa ≠ []) :
    splitExtensions isa = .ok (splitSkip '_' (stripUnderscore isa)) := by
  obtain ⟨c, t, rfl⟩ := List.exists_cons_of_ne_nil h
  show splitLoop (c :: t) (if c = '_' then 1 else 0) [] = _
  by_cases hc : c = '_'
  · subst hc
    rw [if_pos rfl, splitLoop_eq _ 1 [] (by simp)]
    rfl
  · rw [if_neg hc, splitLoop_eq _ 0 [] (by simp)]
    unfold stripUnderscore
    split
    · rename_i heq
      exact absurd (List.cons.inj heq).1 hc
    · rfl

/-- The split ends with every position inside the view, and its tokens are the view
without a leading underscore, cut at underscores; runs of underscores and a trailing one
leave their trace in the first characters of tokens and in an empty last one. -/
theorem splitExtensions_faithful {isa : Text} (h : isa ≠ []) :
    ∃ tokens, splitExtensions isa = .ok tokens ∧
      ['_'].intercalate tokens = stripUnderscore isa ∧ tokens ≠ [] ∧
      (∀ t ∈ tokens.dropLast, t ≠ []) ∧ ∀ t ∈ tokens, '_' ∉ t.drop 1 := by
  refine ⟨splitSkip '_' (stripUnderscore isa), splitExtensions_eq h, ?_, ?_, ?_, ?_⟩
  · exact intercalate_splitSkip '_' (stripUnderscore isa)
  · exact splitSkip_ne_nil '_' (stripUnderscore isa)
  · exact splitSkip_dropLast_ne_nil '_' (stripUnderscore isa)
  · exact not_mem_drop_splitSkip '_' (stripUnderscore isa)

theorem splitExtensions_faithful_underscores : ∃ tokens,
    splitExtensions "__zba_".toList = .ok tokens ∧ ['_'].intercalate tokens = "_zba_".toList := by
  have hne : "__zba_".toList ≠ [] := by decide
  obtain ⟨tokens, hsplit, hjoin, _⟩ := splitExtensions_faithful hne
  exact ⟨tokens, hsplit, hjoin⟩

theorem addExtensionBits_eq_ok (inputIsa e : Text) (ext ext' : RVMExtDescriptor) :
    addExtensionBits inputIsa ext e = .ok ext' ↔
      ∃ f, flagOfToken e = some f ∧ ext' = ext.set f 1 := by
  cases e with
  | nil =>
      constructor
      · intro h
        cases h
      · rintro ⟨f, h, -⟩
        cases h
  | cons c name =>
      have hsub : substr (c :: name) 1 none = .ok name := substr_eq_ok none (by simp)
      have hfront : front (c :: name) = .ok c := rfl
      unfold addExtensionBits
      rw [hfront, hsub]
      by_cases hz : c = 'z'
      · subst hz
        cases hl : lookupName forEachZext name <;>
          simp [bind, Except.bind, flagOfToken, hl, eq_comm]
      · by_cases hs : c = 's'
        · subst hs
          cases hl : lookupName forEachSext name <;>
            simp [bind, Except.bind, flagOfToken, hl, eq_comm]
        · by_cases hx : c = 'x'
          · subst hx
            cases hl : lookupName forEachXext name <;>
              simp [bind, Except.bind, flagOfToken, hl, eq_comm]
          · simp [bind, Except.bind, flagOfToken, hz, hs, hx]

/-- All names known: the loop records their flags. -/
theorem foldlM_addExtensionBits_eq_ok (inputIsa : Text) (ts : List Text) :
    ∀ ext ext' : RVMExtDescriptor,
    (ts.foldlM (addExtensionBits inputIsa) ext = .ok ext' ↔
      (∀ t ∈ ts, (flagOfToken t).isSome) ∧
        ext' = ext.setAll (ts.filterMap flagOfToken)) := by
  induction ts with
  | nil =>
      intro ext ext'
      simp only [List.foldlM_nil, List.not_mem_nil, false_implies, implies_true,
        true_and, List.filterMap_nil]
      constructor
      · intro h
        injection h with h
        exact h.symm
      · rintro rfl
        rfl
  | cons t ts ih =>
      intro ext ext'
      rw [List.foldlM_cons, bind_eq_ok]
      constructor
      · rintro ⟨mid, hmid, hrest⟩
        obtain ⟨f, hf, rfl⟩ := (addExtensionBits_eq_ok _ _ _ _).mp hmid
        obtain ⟨hall, rfl⟩ := (ih _ _).mp hrest
        refine ⟨?_, ?_⟩
        · intro t' ht'
          rcases List.mem_cons.mp ht' with rfl | ht'
          · rw [hf]
            rfl
          · exact hall t' ht'
        · rw [List.filterMap_cons_some hf]
          rfl
      · rintro ⟨hall, rfl⟩
        obtain ⟨f, hf⟩ := Option.isSome_iff_exists.mp (hall t List.mem_cons_self)
        refine ⟨ext.set f 1, (addExtensionBits_eq_ok _ _ _ _).mpr ⟨f, hf, rfl⟩, ?_⟩
        rw [ih, List.filterMap_cons_some hf]
        exact ⟨fun t' ht' => hall t' (List.mem_cons_of_mem _ ht'), rfl⟩

/-! ## The stages on the parts of a string -/

/-- The digits are cut off; without anything behind them the cut is undefined. -/
theorem readBitness_isaRest (s : Text) :
    readBitness s (isaRest s) = match parseIsaBitness (isaDigits s) with
      | .error what => .error (.invalidIsaString s what)
      | .ok bits => if isaBody s = [] then .error .undefinedBehaviour else .ok (bits, isaBody s) := by
  have hcut : ∀ {digits : Text} {count : Option Nat} {rest : Parse Text},
      findFirstNotOf (isaRest s) "0123456789".toList = count →
      substr (isaRest s) 0 count = .ok digits → removePrefix (isaRest s) count = rest →
      readBitness s (isaRest s) = match parseIsaBitness digits with
        | .error what => .error (.invalidIsaString s what)
        | .ok bits => rest >>= fun isa => pure (bits, isa) := by
    rintro digits count rest hcount hsub rfl
    unfold readBitness
    rw [hcount]
    dsimp only
    rw [hsub]
    rfl
  cases hfind : findFirstNotOf (isaRest s) "0123456789".toList with
  | none =>
      -- the digits run to the end: `npos` is handed to `remove_prefix`
      have htw := takeWhile_of_findIdx?_none hfind
      simp only [Bool.not_not] at htw
      have hbody : isaBody s = [] := htw.2
      have hsub : substr (isaRest s) 0 none = .ok (isaDigits s) := by
        rw [substr_eq_ok none (Nat.zero_le _)]
        exact congrArg Except.ok htw.1.symm
      rw [hcut hfind hsub rfl]
      simp only [if_pos hbody]
      rfl
  | some k =>
      have htw := takeWhile_of_findIdx?_some hfind
      simp only [Bool.not_not] at htw
      have hbody : (isaRest s).drop k = isaBody s := htw.2.2.symm
      have hne : isaBody s ≠ [] := by
        rw [← hbody]
        intro h
        have := List.drop_eq_nil_iff.mp h
        omega
      have hsub : substr (isaRest s) 0 (some k) = .ok (isaDigits s) := by
        rw [substr_eq_ok (some k) (Nat.zero_le _)]
        exact congrArg Except.ok htw.2.1.symm
      rw [hcut hfind hsub (removePrefix_eq_ok (Nat.le_of_lt htw.1)), hbody]
      simp only [if_neg hne]
      rfl

/-- The letter loop runs over the characters in front of the first boundary. -/
theorem parseLetters_isaBody (s : Text) (ext : RVMExtDescriptor) :
    parseLetters (isaBody s) ((findFirstOf (isaBody s) "_zxs".toList).getD (isaBody s).length)
      ext = (isaLetters s).foldlM letterStep ext := by
  cases hfind : findFirstOf (isaBody s) "_zxs".toList with
  | none =>
      have htw : isaLetters s = isaBody s := (takeWhile_of_findIdx?_none hfind).1
      rw [htw, Option.getD_none, parseLetters_eq_foldlM _ _ (Nat.le_refl _), List.take_length]
  | some k =>
      obtain ⟨hk, htw, -⟩ := takeWhile_of_findIdx?_some hfind
      have hletters : isaLetters s = (isaBody s).take k := htw
      rw [hletters, Option.getD_some, parseLetters_eq_foldlM _ _ (Nat.le_of_lt hk)]

/-- The name loop runs over the tokens of the tail. -/
theorem parseNames_isaBody (s : Text) (ext : RVMExtDescriptor) :
    parseNames s (isaBody s) (findFirstOf (isaBody s) "_zxs".toList) ext =
      (isaTokens s).foldlM (addExtensionBits s) ext := by
  unfold isaTokens tailTokens
  cases hfind : findFirstOf (isaBody s) "_zxs".toList with
  | none =>
      have htail : isaTail s = [] := (takeWhile_of_findIdx?_none hfind).2
      rw [if_pos htail]
      rfl
  | some k =>
      obtain ⟨hk, -, hdrop⟩ := takeWhile_of_findIdx?_some hfind
      have htail : isaTail s = (isaBody s).drop k := hdrop
      have hne : isaTail s ≠ [] := by
        rw [htail]
        intro h
        have := List.drop_eq_nil_iff.mp h
        omega
      unfold parseNames
      rw [if_neg hne, removePrefix_eq_ok (Nat.le_of_lt hk), ← htail]
      show (splitExtensions (isaTail s) >>= _) = _
      rw [splitExtensions_eq hne]
      rfl

/-! ## The whole parser -/

/-- What the parser demands of a string, part by part. -/
structure Accepted (s : Text) (rv64 : Bool) : Prop where
  starts : isaPrefix <+: lower s
  digits : isaDigits s ≠ []
  bits : decimalValue (isaDigits s) = if rv64 then 64 else 32
  letters : (recordedLetters s).Pairwise RVMMisaExt.lt
  names : ∀ t ∈ isaTokens s, (flagOfToken t).isSome
  base : .I ∈ recordedLetters s ∨ .E ∈ recordedLetters s ∨ .G ∈ recordedLetters s

/-- The descriptor before normalisation. -/
def recordedDescriptor (s : Text) : RVMExtDescriptor :=
  rvmInitExtDescriptor.setAll (recorded s)

theorem mem_enabled_recordedDescriptor {s : Text} {f : ExtFlag} :
    f ∈ (recordedDescriptor s).enabled ↔ f ∈ recorded s := by
  rw [mem_enabled, recordedDescriptor, get_setAll]
  by_cases h : f ∈ recorded s
  · simp [h]
  · simp [h]

theorem flagOfToken_ne_misa {t : Text} {e : RVMMisaExt} :
    flagOfToken t ≠ some (.misa e) := by
  unfold flagOfToken
  split <;> simp [Option.map_eq_some_iff, ExtFlag.zext, ExtFlag.sext, ExtFlag.xext]

theorem misa_mem_recorded {s : Text} {e : RVMMisaExt} :
    .misa e ∈ recorded s ↔ e ∈ recordedLetters s := by
  unfold recorded recordedNames
  rw [List.mem_append, List.mem_map, List.mem_filterMap]
  constructor
  · rintro (⟨e', he', heq⟩ | ⟨t, -, ht⟩)
    · rwa [← ExtFlag.misa.inj heq]
    · exact absurd ht flagOfToken_ne_misa
  · intro h
    exact Or.inl ⟨e, h, rfl⟩

theorem base_of_recorded {s : Text} {rv64 : Bool} :
    ¬ ((normalizeExtensions (recordedDescriptor s) rv64).misaExt .I = 0 ∧
        (normalizeExtensions (recordedDescriptor s) rv64).misaExt .E = 0) ↔
      .I ∈ recordedLetters s ∨ .E ∈ recordedLetters s ∨ .G ∈ recordedLetters s := by
  have hI := get_normalizeExtensions_ne_zero (recordedDescriptor s) rv64 (.misa .I)
  have hE := get_normalizeExtensions_ne_zero (recordedDescriptor s) rv64 (.misa .E)
  have hbase := @base_mem_normalizeSet rv64 (recordedDescriptor s).enabled
  simp only [mem_enabled_recordedDescriptor, misa_mem_recorded] at hbase
  rw [← hI, ← hE] at hbase
  rw [← hbase]
  exact not_and_or

theorem requireBase_eq_ok {s : Text} {ext d : RVMExtDescriptor} {b rv64 : Bool} :
    requireBase s ext b = .ok (d, rv64) ↔
      ¬ (ext.misaExt .I = 0 ∧ ext.misaExt .E = 0) ∧ d = ext ∧ b = rv64 := by
  unfold requireBase
  by_cases hno : ext.misaExt .I = 0 ∧ ext.misaExt .E = 0
  · rw [if_pos hno]
    constructor
    · intro h
      cases h
    · rintro ⟨h, -⟩
      exact absurd hno h
  · rw [if_neg hno]
    constructor
    · intro h
      cases h
      exact ⟨hno, rfl, rfl⟩
    · rintro ⟨-, rfl, rfl⟩
      rfl

theorem parseLetters_eq_ok (s : Text) (ext : RVMExtDescriptor) :
    parseLetters (isaBody s) ((findFirstOf (isaBody s) "_zxs".toList).getD (isaBody s).length)
        rvmInitExtDescriptor = .ok ext ↔
      (recordedLetters s).Pairwise RVMMisaExt.lt ∧
        ext = rvmInitExtDescriptor.setAll ((recordedLetters s).map .misa) := by
  rw [parseLetters_isaBody]
  exact foldlM_letterStep_eq_ok (isaLetters s) [] ext List.Pairwise.nil

theorem parseNames_eq_ok (s : Text) (ext : RVMExtDescriptor) :
    parseNames s (isaBody s) (findFirstOf (isaBody s) "_zxs".toList)
        (rvmInitExtDescriptor.setAll ((recordedLetters s).map .misa)) = .ok ext ↔
      (∀ t ∈ isaTokens s, (flagOfToken t).isSome) ∧ ext = recordedDescriptor s := by
  have hrec : recordedDescriptor s =
      (rvmInitExtDescriptor.setAll ((recordedLetters s).map .misa)).setAll
        ((isaTokens s).filterMap flagOfToken) := setAll_append _ _ _
  rw [hrec, parseNames_isaBody]
  exact foldlM_addExtensionBits_eq_ok s _ _ ext

/-- The stages behind the bitness. -/
theorem parseExtensions_eq_ok (s : Text) (bits : Nat) (d : RVMExtDescriptor)
    (rv64 : Bool) :
    parseExtensions s (isaBody s) bits = .ok (d, rv64) ↔
      (bits == 64) = rv64 ∧ (recordedLetters s).Pairwise RVMMisaExt.lt ∧
      (∀ t ∈ isaTokens s, (flagOfToken t).isSome) ∧
      (.I ∈ recordedLetters s ∨ .E ∈ recordedLetters s ∨ .G ∈ recordedLetters s) ∧
      d = normalizeExtensions (recordedDescriptor s) rv64 := by
  unfold parseExtensions
  rw [bind_eq_ok]
  constructor
  · rintro ⟨ext, hext, h⟩
    obtain ⟨hpair, rfl⟩ := (parseLetters_eq_ok s ext).mp hext
    rcases bind_eq_ok.mp h with ⟨ext', hext', h⟩
    obtain ⟨hnames, rfl⟩ := (parseNames_eq_ok s ext').mp hext'
    obtain ⟨hbase, hd, hrv⟩ := requireBase_eq_ok.mp h
    rw [hrv] at hbase hd
    exact ⟨hrv, hpair, hnames, base_of_recorded.mp hbase, hd⟩
  · rintro ⟨hrv, hpair, hnames, hbase, hd⟩
    refine ⟨_, (parseLetters_eq_ok s _).mpr ⟨hpair, rfl⟩, ?_⟩
    rw [bind_eq_ok]
    refine ⟨_, (parseNames_eq_ok s _).mpr ⟨hnames, rfl⟩, ?_⟩
    rw [hrv]
    exact requireBase_eq_ok.mpr ⟨base_of_recorded.mpr hbase, hd, rfl⟩

theorem isDigit_isaDigits (s : Text) : ∀ c ∈ isaDigits s, isDigit c = true :=
  forall_mem_takeWhile

theorem readBitness_eq_ok (s : Text) (bits : Nat) (body : Text) :
    readBitness s (isaRest s) = .ok (bits, body) ↔
      isaDigits s ≠ [] ∧ decimalValue (isaDigits s) = bits ∧
        (bits = 32 ∨ bits = 64) ∧ isaBody s ≠ [] ∧ body = isaBody s := by
  have hdig := isDigit_isaDigits s
  rw [readBitness_isaRest]
  constructor
  · intro h
    cases hbits : parseIsaBitness (isaDigits s) with
    | error what =>
        rw [hbits] at h
        cases h
    | ok b =>
        rw [hbits] at h
        obtain ⟨hd, hval, hsupp⟩ := (parseIsaBitness_eq_ok hdig).mp hbits
        by_cases hbody : isaBody s = []
        · simp only [if_pos hbody] at h
          cases h
        · simp only [if_neg hbody] at h
          cases h
          exact ⟨hd, hval, hsupp, hbody, rfl⟩
  · rintro ⟨hd, hval, hsupp, hbody, rfl⟩
    rw [(parseIsaBitness_eq_ok hdig).mpr ⟨hd, hval, hsupp⟩]
    exact if_neg hbody

theorem Accepted.body {s : Text} {rv64 : Bool} (h : Accepted s rv64) :
    isaBody s ≠ [] := by
  intro hnil
  have hno : recordedLetters s = [] := by
    unfold recordedLetters isaLetters
    rw [hnil]
    rfl
  have hbase := h.base
  rw [hno] at hbase
  simp at hbase

/-- **The parser, stage by stage.** It accepts exactly the strings whose parts
satisfy `Accepted`, and returns the record of those parts, normalised. -/
theorem parseIsaString_eq_ok_iff (s : Text) (d : RVMExtDescriptor) (rv64 : Bool) :
    parseIsaString s = .ok (d, rv64) ↔
      Accepted s rv64 ∧ d = normalizeExtensions (recordedDescriptor s) rv64 := by
  unfold parseIsaString
  by_cases hpre : findText (s.map Char.toLower) isaPrefix = some 0
  · rw [if_neg (not_not_intro hpre)]
    have hpre' : isaPrefix <+: lower s := findText_eq_zero_iff.mp hpre
    have hrest : removePrefix (s.map Char.toLower) (some isaPrefix.length) =
        .ok (isaRest s) := removePrefix_eq_ok hpre'.length_le
    rw [hrest, bind_eq_ok]
    constructor
    · rintro ⟨rest, hr, h⟩
      cases hr
      rcases bind_eq_ok.mp h with ⟨⟨bits, body⟩, hread, h⟩
      obtain ⟨hdigits, hval, hsupp, -, rfl⟩ := (readBitness_eq_ok s bits body).mp hread
      obtain ⟨hrv, hpair, hnames, hbase, hd⟩ := (parseExtensions_eq_ok s bits d rv64).mp h
      refine ⟨⟨hpre', hdigits, ?_, hpair, hnames, hbase⟩, hd⟩
      rw [hval, ← hrv]
      rcases hsupp with rfl | rfl <;> rfl
    · rintro ⟨hacc, hd⟩
      refine ⟨_, rfl, bind_eq_ok.mpr ⟨(if rv64 then 64 else 32, isaBody s), ?_, ?_⟩⟩
      · rw [readBitness_eq_ok]
        refine ⟨hacc.digits, hacc.bits, ?_, hacc.body, rfl⟩
        cases rv64 <;> simp
      · show parseExtensions s (isaBody s) (if rv64 then 64 else 32) = _
        rw [parseExtensions_eq_ok]
        refine ⟨?_, hacc.letters, hacc.names, hacc.base, hd⟩
        cases rv64 <;> rfl
  · rw [if_pos hpre]
    constructor
    · intro h
      cases h
    · rintro ⟨hacc, -⟩
      exact absurd (findText_eq_zero_iff.mpr hacc.starts) hpre

/-- Acceptance, whatever the result. -/
theorem parseIsaString_isOk_iff (s : Text) :
    (∃ r, parseIsaString s = .ok r) ↔ ∃ rv64, Accepted s rv64 := by
  constructor
  · rintro ⟨⟨d, rv64⟩, h⟩
    exact ⟨rv64, ((parseIsaString_eq_ok_iff s d rv64).mp h).1⟩
  · rintro ⟨rv64, h⟩
    exact ⟨(_, rv64), (parseIsaString_eq_ok_iff s _ rv64).mpr ⟨h, rfl⟩⟩

end Rvmi.Isa
