import Mathlib.Data.List.TakeWhile
import Rvmi.Foundation.Text

/-!
# Long options

The words of a command line as `getopt_long` reads them when there are no short
options and every long option takes an argument. The loop around it is run with an
arbitrary way to apply a setting, so the rules here are about the words alone: what
is accepted is a sequence of spelled settings, and what is rejected has such a
sequence in front of the first word that is wrong.
-/

namespace Rvmi.Foundation

/-- How the words are read: the option a name stands for, and whether operands may
stand between the options. -/
structure LongOptions (ι : Type) where
  find : Text → Option ι
  permute : Bool

/-- What a single word is. -/
inductive Word (ι : Type) where
  | operand
  | terminator
  | joined (opt : ι) (optarg : Text)
  | separate (opt : ι)
  | unrecognised

/-- A word that is no option: it is `-`, or it does not start with `-`. -/
def IsOperand (word : Text) : Prop := word = ['-'] ∨ word.head? ≠ some '-'

def dashes : Text := "--".toList

namespace LongOptions

variable {ι β ε : Type} (G : LongOptions ι)

/-! ## The scanner -/

/-- The word behind its dashes; the name ends at the first `=`. -/
def longWord (body : Text) : Word ι :=
  match G.find (body.takeWhile (· ≠ '=')), body.dropWhile (· ≠ '=') with
  | some opt, [] => .separate opt
  | some opt, _ :: optarg => .joined opt optarg
  | none, _ => .unrecognised

def readWord : Text → Word ι
  | ['-', '-'] => .terminator
  | '-' :: '-' :: body => G.longWord body
  | '-' :: _ :: _ => .unrecognised
  | _ => .operand

/-- The loop around `getopt_long`. The word behind a separate option is its argument,
whatever it looks like. -/
def scan (apply : β → ι → Text → Except ε β) (usage : ε) : List Text → β → Except ε β
  | [], b => .ok b
  | word :: args, b =>
      match G.readWord word, args with
      | .operand, args => if G.permute then scan apply usage args b else .ok b
      | .terminator, _ => .ok b
      | .joined opt optarg, args => do
          let b ← apply b opt optarg
          scan apply usage args b
      | .separate opt, optarg :: args => do
          let b ← apply b opt optarg
          scan apply usage args b
      | .separate _, [] => .error usage
      | .unrecognised, _ => .error usage

/-- A table of names. A name that is no entry's own may abbreviate one of them. -/
def ofTable (table : List (Text × ι)) (abbreviated : Text → Option ι) (permute : Bool) :
    LongOptions ι where
  find name := ((table.find? fun entry => entry.1 = name).map Prod.snd).or (abbreviated name)
  permute := permute

/-! ## Spelled settings -/

/-- The words in front of `rest` spell the settings. -/
inductive Spells : List Text → List (ι × Text) → List Text → Prop
  | nil (rest) : Spells rest [] rest
  | operand {word args settings rest} : G.permute = true → IsOperand word →
      Spells args settings rest → Spells (word :: args) settings rest
  | joined {name opt optarg args settings rest} : '=' ∉ name → G.find name = some opt →
      Spells args settings rest →
      Spells ((dashes ++ name ++ '=' :: optarg) :: args) ((opt, optarg) :: settings) rest
  | separate {name opt optarg args settings rest} : name ≠ [] → '=' ∉ name →
      G.find name = some opt → Spells args settings rest →
      Spells ((dashes ++ name) :: optarg :: args) ((opt, optarg) :: settings) rest

/-- Where the options end. -/
inductive Ends : List Text → Prop
  | nil : Ends []
  | terminator (operands) : Ends (dashes :: operands)
  | operand {word} (operands) : G.permute = false → IsOperand word → Ends (word :: operands)

/-- A word that is answered with `'?'`. -/
inductive Rejects : List Text → Prop
  | short {c letters} (rest) : c ≠ '-' → Rejects (('-' :: c :: letters) :: rest)
  | unknown {body} (rest) : body ≠ [] → G.find (body.takeWhile (· ≠ '=')) = none →
      Rejects ((dashes ++ body) :: rest)
  | missing {name opt} : name ≠ [] → '=' ∉ name → G.find name = some opt →
      Rejects [dashes ++ name]

/-! ## Words and what they are read as -/

/-- Every entry of a table can be given by its own name. -/
theorem find_ofTable {table : List (Text × ι)} (hnodup : (table.map Prod.fst).Nodup)
    {name : Text} {opt : ι} (hmem : (name, opt) ∈ table) (abbreviated : Text → Option ι)
    (permute : Bool) : (ofTable table abbreviated permute).find name = some opt := by
  have hfind : table.find? (fun entry => entry.1 = name) = some (name, opt) := by
    induction table with
    | nil => cases hmem
    | cons entry table ih =>
        obtain ⟨hnew, hnodup⟩ := List.nodup_cons.mp hnodup
        rcases List.mem_cons.mp hmem with rfl | hmem
        · exact List.find?_cons_of_pos (decide_eq_true rfl)
        · have hne : entry.1 ≠ name := fun heq =>
            hnew (heq ▸ List.mem_map_of_mem (f := Prod.fst) hmem)
          rw [List.find?_cons_of_neg (by simpa using hne)]
          exact ih hnodup hmem
  show ((table.find? fun entry => entry.1 = name).map Prod.snd).or (abbreviated name) = some opt
  rw [hfind]
  rfl

theorem readWord_dashes : G.readWord dashes = .terminator := rfl

theorem readWord_operand {word : Text} (h : IsOperand word) : G.readWord word = .operand := by
  rcases h with rfl | hhead
  · rfl
  · cases word with
    | nil => rfl
    | cons c word =>
        have hc : c ≠ '-' := fun hc => hhead (congrArg some hc)
        unfold readWord
        split
        · rename_i heq
          exact absurd (List.cons.inj heq).1 hc
        · rename_i heq
          exact absurd (List.cons.inj heq).1 hc
        · rename_i heq
          exact absurd (List.cons.inj heq).1 hc
        · rfl

theorem readWord_short {c : Char} (letters : Text) (hc : c ≠ '-') :
    G.readWord ('-' :: c :: letters) = .unrecognised := by
  unfold readWord
  split
  · rename_i heq
    exact absurd (List.cons.inj (List.cons.inj heq).2).1 hc
  · rename_i heq
    exact absurd (List.cons.inj (List.cons.inj heq).2).1 hc
  · rfl
  · rename_i hno
    exact absurd rfl (hno c letters)

theorem readWord_long {body : Text} (hbody : body ≠ []) :
    G.readWord (dashes ++ body) = G.longWord body := by
  obtain ⟨c, body, rfl⟩ := List.exists_cons_of_ne_nil hbody
  rfl

theorem cut_name {name : Text} (hname : '=' ∉ name) (tail : Text)
    (htail : ∀ c ∈ tail.head?, c = '=') :
    (name ++ tail).takeWhile (· ≠ '=') = name ∧ (name ++ tail).dropWhile (· ≠ '=') = tail := by
  apply takeWhile_append_stop
  · intro c hc
    exact decide_eq_true fun heq => hname (heq ▸ hc)
  · intro c hc
    exact decide_eq_false fun hne => hne (htail c hc)

theorem readWord_joined {name : Text} {opt : ι} (hname : '=' ∉ name) (hfind : G.find name = some opt)
    (optarg : Text) : G.readWord (dashes ++ name ++ '=' :: optarg) = .joined opt optarg := by
  obtain ⟨htake, hdrop⟩ := cut_name hname ('=' :: optarg)
    fun c hc => (Option.some.inj hc).symm
  rw [List.append_assoc, readWord_long G (by simp)]
  unfold longWord
  rw [htake, hdrop, hfind]

theorem readWord_separate {name : Text} {opt : ι} (hne : name ≠ []) (hname : '=' ∉ name)
    (hfind : G.find name = some opt) : G.readWord (dashes ++ name) = .separate opt := by
  obtain ⟨htake, hdrop⟩ := cut_name hname [] (fun c hc => by cases hc)
  rw [List.append_nil] at htake hdrop
  rw [readWord_long G hne]
  unfold longWord
  rw [htake, hdrop, hfind]

theorem readWord_unknown {body : Text} (hbody : body ≠ [])
    (hfind : G.find (body.takeWhile (· ≠ '=')) = none) :
    G.readWord (dashes ++ body) = .unrecognised := by
  rw [readWord_long G hbody]
  unfold longWord
  rw [hfind]

/-! ## Steps of the loop -/

section Scan

variable {apply : β → ι → Text → Except ε β} {usage : ε} {b : β}

theorem scan_operand {word : Text} (h : IsOperand word) (args : List Text) :
    G.scan apply usage (word :: args) b =
      if G.permute then G.scan apply usage args b else .ok b := by
  conv_lhs => unfold scan
  rw [readWord_operand G h]

theorem scan_joined {name : Text} {opt : ι} (hname : '=' ∉ name) (hfind : G.find name = some opt)
    (optarg : Text) (args : List Text) :
    G.scan apply usage ((dashes ++ name ++ '=' :: optarg) :: args) b =
      (apply b opt optarg >>= G.scan apply usage args) := by
  unfold scan
  rw [readWord_joined G hname hfind]

theorem scan_separate {name : Text} {opt : ι} (hne : name ≠ []) (hname : '=' ∉ name)
    (hfind : G.find name = some opt) (optarg : Text) (args : List Text) :
    G.scan apply usage ((dashes ++ name) :: optarg :: args) b =
      (apply b opt optarg >>= G.scan apply usage args) := by
  unfold scan
  rw [readWord_separate G hne hname hfind]

theorem scan_of_ends {rest : List Text} (h : G.Ends rest) :
    G.scan apply usage rest b = .ok b := by
  cases h with
  | nil => rfl
  | terminator operands =>
      unfold scan
      rw [readWord_dashes]
  | operand operands hpermute hword =>
      rw [scan_operand G hword, hpermute]
      rfl

theorem scan_of_rejects {rest : List Text} (h : G.Rejects rest) :
    G.scan apply usage rest b = .error usage := by
  cases h with
  | short rest hc =>
      unfold scan
      rw [readWord_short G _ hc]
  | unknown rest hbody hfind =>
      unfold scan
      rw [readWord_unknown G hbody hfind]
  | missing hne hname hfind =>
      unfold scan
      rw [readWord_separate G hne hname hfind]

end Scan

/-! ## Every command line ends or is rejected -/

theorem word_cases (word : Text) :
    IsOperand word ∨ (∃ c letters, c ≠ '-' ∧ word = '-' :: c :: letters) ∨
      ∃ body, word = dashes ++ body := by
  by_cases hhead : word.head? = some '-'
  · obtain ⟨tail, rfl⟩ := List.head?_eq_some_iff.mp hhead
    cases tail with
    | nil => exact .inl (.inl rfl)
    | cons c letters =>
        by_cases hc : c = '-'
        · subst hc
          exact .inr (.inr ⟨letters, rfl⟩)
        · exact .inr (.inl ⟨c, letters, hc, rfl⟩)
  · exact .inl (.inr hhead)

/-- The name of a long option ends at the first `=`, if there is one. -/
theorem body_cases (body : Text) :
    ('=' ∉ body ∧ body.takeWhile (· ≠ '=') = body) ∨
      ∃ optarg, '=' ∉ body.takeWhile (· ≠ '=') ∧
        body = body.takeWhile (· ≠ '=') ++ '=' :: optarg := by
  have hname : '=' ∉ body.takeWhile (· ≠ '=') := fun hmem =>
    of_decide_eq_true (forall_mem_takeWhile '=' hmem) rfl
  have hcut := List.takeWhile_append_dropWhile (p := (· ≠ '=')) (l := body)
  cases hdrop : body.dropWhile (· ≠ '=') with
  | nil =>
      rw [hdrop, List.append_nil] at hcut
      exact .inl ⟨hcut ▸ hname, hcut⟩
  | cons c optarg =>
      have hc : c = '=' := by
        have hstop := head?_dropWhile (p := (· ≠ '=')) (l := body) c (by rw [hdrop]; rfl)
        exact not_not.mp (of_decide_eq_false hstop)
      rw [hdrop, hc] at hcut
      exact .inr ⟨optarg, hname, hcut.symm⟩

theorem exists_spells (args : List Text) :
    ∃ settings rest, G.Spells args settings rest ∧ (G.Ends rest ∨ G.Rejects rest) := by
  induction hn : args.length using Nat.strong_induction_on generalizing args with
  | _ n ih =>
      subst hn
      cases args with
      | nil => exact ⟨[], [], .nil [], .inl .nil⟩
      | cons word args =>
          rcases word_cases word with hword | ⟨c, letters, hc, rfl⟩ | ⟨body, rfl⟩
          · cases hpermute : G.permute with
            | true =>
                obtain ⟨settings, rest, hspells, hrest⟩ := ih args.length (Nat.lt_succ_self _) args rfl
                exact ⟨settings, rest, .operand hpermute hword hspells, hrest⟩
            | false => exact ⟨[], _, .nil _, .inl (.operand args hpermute hword)⟩
          · exact ⟨[], _, .nil _, .inr (.short args hc)⟩
          · by_cases hbody : body = []
            · subst hbody
              exact ⟨[], _, .nil _, .inl (.terminator args)⟩
            · cases hfind : G.find (body.takeWhile (· ≠ '=')) with
              | none => exact ⟨[], _, .nil _, .inr (.unknown args hbody hfind)⟩
              | some opt =>
                  rcases body_cases body with ⟨hname, htake⟩ | ⟨optarg, hname, hcut⟩
                  · rw [htake] at hfind
                    cases args with
                    | nil => exact ⟨[], _, .nil _, .inr (.missing hbody hname hfind)⟩
                    | cons optarg args =>
                        obtain ⟨settings, rest, hspells, hrest⟩ :=
                          ih args.length (by simp only [List.length_cons]; omega) args rfl
                        exact ⟨_, rest, .separate hbody hname hfind hspells, hrest⟩
                  · obtain ⟨settings, rest, hspells, hrest⟩ :=
                      ih args.length (Nat.lt_succ_self _) args rfl
                    refine ⟨(opt, optarg) :: settings, rest, ?_, hrest⟩
                    rw [hcut, ← List.append_assoc]
                    exact .joined hname hfind hspells

/-! ## What the loop computes -/

section Settings

variable (apply : β → ι → Text → Except ε β) {usage : ε}

/-- The settings are applied one after the other. -/
def applyAll (settings : List (ι × Text)) (b : β) : Except ε β :=
  settings.foldlM (fun b s => apply b s.1 s.2) b

variable {apply}

theorem scan_of_spells {args rest : List Text} {settings : List (ι × Text)}
    (h : G.Spells args settings rest) (b : β) :
    G.scan apply usage args b = (applyAll apply settings b >>= G.scan apply usage rest) := by
  induction h generalizing b with
  | nil rest => rfl
  | operand hpermute hword _ ih =>
      rw [scan_operand G hword, if_pos hpermute]
      exact ih b
  | joined hname hfind _ ih =>
      rw [scan_joined G hname hfind]
      unfold applyAll
      rw [List.foldlM_cons, bind_assoc]
      exact bind_congr fun b => ih b
  | separate hne hname hfind _ ih =>
      rw [scan_separate G hne hname hfind]
      unfold applyAll
      rw [List.foldlM_cons, bind_assoc]
      exact bind_congr fun b => ih b

/-- The loop returns exactly when the words spell settings up to the end of the
options and all of these can be applied. -/
theorem scan_eq_ok_iff {args : List Text} {b b' : β} :
    G.scan apply usage args b = .ok b' ↔
      ∃ settings rest, G.Spells args settings rest ∧ G.Ends rest ∧
        applyAll apply settings b = .ok b' := by
  constructor
  · intro h
    obtain ⟨settings, rest, hspells, hrest⟩ := G.exists_spells args
    rw [scan_of_spells G hspells] at h
    cases hall : applyAll apply settings b with
    | error e =>
        rw [hall] at h
        cases h
    | ok b₁ =>
        rw [hall] at h
        change G.scan apply usage rest b₁ = .ok b' at h
        rcases hrest with hends | hrejects
        · rw [scan_of_ends G hends] at h
          cases h
          exact ⟨settings, rest, hspells, hends, hall⟩
        · rw [scan_of_rejects G hrejects] at h
          cases h
  · rintro ⟨settings, rest, hspells, hends, hall⟩
    rw [scan_of_spells G hspells, hall]
    exact scan_of_ends G hends

/-- It fails at the first setting that cannot be applied, or at the first word that is
no option when all settings in front of it can. -/
theorem scan_eq_error_iff {args : List Text} {b : β} {e : ε} :
    G.scan apply usage args b = .error e ↔
      ∃ settings rest, G.Spells args settings rest ∧
        (applyAll apply settings b = .error e ∨
          (∃ b', applyAll apply settings b = .ok b') ∧ G.Rejects rest ∧ e = usage) := by
  constructor
  · intro h
    obtain ⟨settings, rest, hspells, hrest⟩ := G.exists_spells args
    refine ⟨settings, rest, hspells, ?_⟩
    rw [scan_of_spells G hspells] at h
    cases hall : applyAll apply settings b with
    | error e₁ =>
        rw [hall] at h
        cases h
        exact .inl rfl
    | ok b₁ =>
        rw [hall] at h
        change G.scan apply usage rest b₁ = .error e at h
        rcases hrest with hends | hrejects
        · rw [scan_of_ends G hends] at h
          cases h
        · rw [scan_of_rejects G hrejects] at h
          cases h
          exact .inr ⟨⟨b₁, rfl⟩, hrejects, rfl⟩
  · rintro ⟨settings, rest, hspells, hall | ⟨⟨b₁, hall⟩, hrejects, rfl⟩⟩
    · rw [scan_of_spells G hspells, hall]
      rfl
    · rw [scan_of_spells G hspells, hall]
      exact scan_of_rejects G hrejects

end Settings

/-! ## Parts of a sequence of settings -/

/-- The argument an option was given last. -/
def lastArgument [DecidableEq ι] (settings : List (ι × Text)) (opt : ι) : Option Text :=
  (settings.reverse.find? fun s => s.1 = opt).map Prod.snd

theorem lastArgument_cons [DecidableEq ι] (s : ι × Text) (settings : List (ι × Text)) (opt : ι) :
    lastArgument (s :: settings) opt =
      (lastArgument settings opt).or (if s.1 = opt then some s.2 else none) := by
  unfold lastArgument
  rw [List.reverse_cons, List.find?_append, Option.map_or]
  by_cases hopt : s.1 = opt
  · have hfind : [s].find? (fun s => s.1 = opt) = some s :=
      List.find?_cons_of_pos (decide_eq_true hopt)
    rw [if_pos hopt, hfind]
    rfl
  · have hfind : [s].find? (fun s => s.1 = opt) = none :=
      List.find?_cons_of_neg (by simpa using hopt)
    rw [if_neg hopt, hfind]
    rfl

theorem applyAll_cons (apply : β → ι → Text → Except ε β) (s : ι × Text)
    (settings : List (ι × Text)) (b : β) :
    applyAll apply (s :: settings) b = (apply b s.1 s.2 >>= applyAll apply settings) := by
  unfold applyAll
  exact List.foldlM_cons

/-- The words are cut where the settings are. -/
theorem Spells.cut {args rest : List Text} {front back : List (ι × Text)}
    (h : G.Spells args (front ++ back) rest) :
    ∃ mid, G.Spells args front mid ∧ G.Spells mid back rest := by
  generalize hall : front ++ back = settings at h
  induction h generalizing front with
  | nil rest =>
      obtain ⟨rfl, rfl⟩ := List.append_eq_nil_iff.mp hall
      exact ⟨rest, .nil rest, .nil rest⟩
  | operand hpermute hword _ ih =>
      obtain ⟨mid, hfront, hback⟩ := ih hall
      exact ⟨mid, .operand hpermute hword hfront, hback⟩
  | joined hname hfind hspells ih =>
      cases front with
      | nil =>
          subst hall
          exact ⟨_, .nil _, .joined hname hfind hspells⟩
      | cons s front =>
          rw [List.cons_append] at hall
          obtain ⟨rfl, hrest⟩ := List.cons.inj hall
          obtain ⟨mid, hfront, hback⟩ := ih hrest
          exact ⟨mid, .joined hname hfind hfront, hback⟩
  | separate hne hname hfind hspells ih =>
      cases front with
      | nil =>
          subst hall
          exact ⟨_, .nil _, .separate hne hname hfind hspells⟩
      | cons s front =>
          rw [List.cons_append] at hall
          obtain ⟨rfl, hrest⟩ := List.cons.inj hall
          obtain ⟨mid, hfront, hback⟩ := ih hrest
          exact ⟨mid, .separate hne hname hfind hfront, hback⟩

/-- The first setting that cannot be applied, with the settings in front of it. -/
theorem applyAll_eq_error_iff {apply : β → ι → Text → Except ε β} {settings : List (ι × Text)}
    {b : β} {e : ε} :
    applyAll apply settings b = .error e ↔
      ∃ front s back b', settings = front ++ s :: back ∧ applyAll apply front b = .ok b' ∧
        apply b' s.1 s.2 = .error e := by
  induction settings generalizing b with
  | nil =>
      constructor
      · intro h
        cases h
      · rintro ⟨front, s, back, b', hnil, _, _⟩
        simp at hnil
  | cons s settings ih =>
      rw [applyAll_cons]
      cases hs : apply b s.1 s.2 with
      | error e₁ =>
          constructor
          · intro h
            cases h
            exact ⟨[], s, settings, b, rfl, rfl, hs⟩
          · rintro ⟨front, s', back, b', hsplit, hfront, hlast⟩
            cases front with
            | nil =>
                obtain ⟨rfl, rfl⟩ := List.cons.inj hsplit
                cases hfront
                rw [hs] at hlast
                cases hlast
                rfl
            | cons s₁ front =>
                obtain ⟨rfl, rfl⟩ := List.cons.inj hsplit
                rw [applyAll_cons, hs] at hfront
                cases hfront
      | ok b₁ =>
          constructor
          · intro h
            obtain ⟨front, s', back, b', rfl, hfront, hlast⟩ := ih.mp h
            refine ⟨s :: front, s', back, b', rfl, ?_, hlast⟩
            rw [applyAll_cons, hs]
            exact hfront
          · rintro ⟨front, s', back, b', hsplit, hfront, hlast⟩
            cases front with
            | nil =>
                obtain ⟨rfl, rfl⟩ := List.cons.inj hsplit
                cases hfront
                rw [hs] at hlast
                cases hlast
            | cons s₁ front =>
                obtain ⟨rfl, rfl⟩ := List.cons.inj hsplit
                rw [applyAll_cons, hs] at hfront
                exact ih.mpr ⟨front, s', back, b', rfl, hfront, hlast⟩

end LongOptions

end Rvmi.Foundation
