import Rvmi.Foundation.Text

/-!
# JSON, one character at a time

A JSON reader as a pushdown machine: the stack holds the containers that are
still open, the mode what may follow. Since a character only ever changes the
machine, reading a concatenation is reading its parts in turn, which is what a
proof about text written piece by piece needs. Objects keep their members in
textual order; strings and numbers are kept as they are spelled.
-/

namespace Rvmi.Foundation

inductive Json where
  | null
  | bool (b : Bool)
  | num (lexeme : Text)
  | str (s : Text)
  | arr (items : List Json)
  | obj (members : List (Text × Json))

namespace Json

/-! ## The machine -/

/-- An open container, with what it holds so far. -/
inductive Frame where
  | arr (items : List Json)
  | obj (members : List (Text × Json)) (key : Text)

/-- What a string is once it is closed: a value, or the next key of an object. -/
inductive Slot where
  | value
  | key (members : List (Text × Json))

inductive NumState where
  | minus | zero | int | point | frac | exp | expSign | expDigits
deriving DecidableEq

inductive Mode where
  | value
  | itemOrClose
  | afterItem (items : List Json)
  | keyOrClose
  | key (members : List (Text × Json))
  | colon (members : List (Text × Json)) (key : Text)
  | afterMember (members : List (Text × Json))
  | str (slot : Slot) (acc : Text)
  | escape (slot : Slot) (acc : Text)
  | unicode (slot : Slot) (acc : Text) (missing : Nat)
  | num (state : NumState) (acc : Text)
  | word (rest : Text) (v : Json)
  | done (v : Json)

inductive Reader where
  | reading (stack : List Frame) (mode : Mode)
  | failed

open Reader Mode

def isSpace (c : Char) : Bool := " \n\r\t".toList.contains c

/-- A value is complete: hand it to the innermost open container. -/
def complete (v : Json) : List Frame → Reader
  | [] => reading [] (done v)
  | .arr items :: stack => reading stack (afterItem (items ++ [v]))
  | .obj members k :: stack => reading stack (afterMember (members ++ [(k, v)]))

def closeString (stack : List Frame) (acc : Text) : Slot → Reader
  | .value => complete (.str acc) stack
  | .key members => reading stack (colon members acc)

/-- The first character of a value. -/
def beginValue (stack : List Frame) (c : Char) : Reader :=
  if c = '\x7b' then reading stack keyOrClose
  else if c = '[' then reading stack itemOrClose
  else if c = '"' then reading stack (.str .value [])
  else if c = '-' then reading stack (.num .minus [c])
  else if c = '0' then reading stack (.num .zero [c])
  else if c.isDigit then reading stack (.num .int [c])
  else if c = 't' then reading stack (word "rue".toList (.bool true))
  else if c = 'f' then reading stack (word "alse".toList (.bool false))
  else if c = 'n' then reading stack (word "ull".toList .null)
  else failed

def numStep : NumState → Char → Option NumState
  | .minus, c => if c = '0' then some .zero else if c.isDigit then some .int else none
  | .zero, c => if c = '.' then some .point else if c = 'e' ∨ c = 'E' then some .exp else none
  | .int, c =>
      if c.isDigit then some .int
      else if c = '.' then some .point
      else if c = 'e' ∨ c = 'E' then some .exp else none
  | .point, c => if c.isDigit then some .frac else none
  | .frac, c =>
      if c.isDigit then some .frac else if c = 'e' ∨ c = 'E' then some .exp else none
  | .exp, c =>
      if c = '+' ∨ c = '-' then some .expSign
      else if c.isDigit then some .expDigits else none
  | .expSign, c => if c.isDigit then some .expDigits else none
  | .expDigits, c => if c.isDigit then some .expDigits else none

def numAccepts (state : NumState) : Bool :=
  state = .zero ∨ state = .int ∨ state = .frac ∨ state = .expDigits

/-- A character behind a complete value. -/
def stepAfter : Reader → Char → Reader
  | reading stack (afterItem items), c =>
      if isSpace c then reading stack (afterItem items)
      else if c = ',' then reading (.arr items :: stack) value
      else if c = ']' then complete (.arr items) stack
      else failed
  | reading stack (afterMember members), c =>
      if isSpace c then reading stack (afterMember members)
      else if c = ',' then reading stack (key members)
      else if c = '\x7d' then complete (.obj members) stack
      else failed
  | reading stack (done v), c => if isSpace c then reading stack (done v) else failed
  | _, _ => failed

def step : Reader → Char → Reader
  | failed, _ => failed
  | reading stack value, c =>
      if isSpace c then reading stack value else beginValue stack c
  | reading stack itemOrClose, c =>
      if isSpace c then reading stack itemOrClose
      else if c = ']' then complete (.arr []) stack
      else beginValue (.arr [] :: stack) c
  | reading stack keyOrClose, c =>
      if isSpace c then reading stack keyOrClose
      else if c = '"' then reading stack (.str (.key []) [])
      else if c = '\x7d' then complete (.obj []) stack
      else failed
  | reading stack (key members), c =>
      if isSpace c then reading stack (key members)
      else if c = '"' then reading stack (.str (.key members) [])
      else failed
  | reading stack (colon members k), c =>
      if isSpace c then reading stack (colon members k)
      else if c = ':' then reading (.obj members k :: stack) value
      else failed
  | reading stack (.str slot acc), c =>
      if c = '"' then closeString stack acc slot
      else if c = '\\' then reading stack (escape slot acc)
      else if c < ' ' then failed
      else reading stack (.str slot (acc ++ [c]))
  | reading stack (escape slot acc), c =>
      if c = 'u' then reading stack (unicode slot (acc ++ ['\\', c]) 4)
      else if "\"\\/bfnrt".toList.contains c then reading stack (.str slot (acc ++ ['\\', c]))
      else failed
  | reading stack (unicode slot acc missing), c =>
      if "0123456789abcdefABCDEF".toList.contains c then
        if missing ≤ 1 then reading stack (.str slot (acc ++ [c]))
        else reading stack (unicode slot (acc ++ [c]) (missing - 1))
      else failed
  | reading stack (.num state acc), c =>
      match numStep state c with
      | some state' => reading stack (.num state' (acc ++ [c]))
      | none =>
          -- a number ends at the first character that cannot extend it
          if numAccepts state then stepAfter (complete (.num acc) stack) c else failed
  | reading stack (word rest v), c =>
      match rest with
      | [] => failed
      | [last] => if c = last then complete v stack else failed
      | next :: rest => if c = next then reading stack (word rest v) else failed
  | r, c => stepAfter r c

def run (r : Reader) (t : Text) : Reader := t.foldl step r

def finish : Reader → Option Json
  | reading [] (done v) => some v
  | reading [] (.num state acc) => if numAccepts state then some (.num acc) else none
  | _ => none

/-- The value a text spells, if it is well-formed JSON. -/
def parse (t : Text) : Option Json := finish (run (reading [] value) t)

@[simp] theorem run_nil (r : Reader) : run r [] = r := rfl

@[simp] theorem run_cons (r : Reader) (c : Char) (t : Text) :
    run r (c :: t) = run (step r c) t := rfl

theorem run_append (r : Reader) (s t : Text) : run r (s ++ t) = run (run r s) t :=
  List.foldl_append

/-! ## Strings -/

/-- Characters that stand for themselves in a string. -/
def isPlain (c : Char) : Bool := decide (c ≠ '"' ∧ c ≠ '\\' ∧ ¬ c < ' ')

def Plain (s : Text) : Prop := ∀ c ∈ s, isPlain c = true

instance (s : Text) : Decidable (Plain s) := List.decidableBAll _ s

def quoted (s : Text) : Text := '"' :: (s ++ ['"'])

theorem run_plain {s : Text} (hs : Plain s) (stack : List Frame) (slot : Slot) (acc : Text) :
    run (reading stack (.str slot acc)) s = reading stack (.str slot (acc ++ s)) := by
  induction s generalizing acc with
  | nil => simp
  | cons c s ih =>
      have hc := of_decide_eq_true (hs c List.mem_cons_self)
      have hstep : step (reading stack (.str slot acc)) c =
          reading stack (.str slot (acc ++ [c])) := by
        simp [step, hc.1, hc.2.1, hc.2.2]
      rw [run_cons, hstep, ih fun a ha => hs a (List.mem_cons_of_mem _ ha)]
      simp

theorem run_string {s : Text} (hs : Plain s) (stack : List Frame) (slot : Slot) :
    run (reading stack (.str slot [])) (s ++ ['"']) = closeString stack s slot := by
  rw [run_append, run_plain hs]
  rfl

/-! ## Texts that spell a value -/

/-- A text that takes the machine from a place for a value to behind that value,
and that cannot be mistaken for a space or a closing bracket. -/
structure Spells (t : Text) (v : Json) : Prop where
  begins : ∃ c rest, t = c :: rest ∧ isSpace c = false ∧ c ≠ ']'
  run : ∀ stack, run (reading stack value) t = complete v stack

/-- The first item of an array, behind the bracket. -/
theorem Spells.run_first {t : Text} {v : Json} (h : Spells t v) (stack : List Frame) :
    Json.run (reading stack itemOrClose) t = complete v (.arr [] :: stack) := by
  rcases h.begins with ⟨c, rest, rfl, hspace, hclose⟩
  have hstep : step (reading stack itemOrClose) c =
      step (reading (.arr [] :: stack) value) c := by
    simp [step, hspace, hclose]
  rw [run_cons, hstep]
  exact h.run (.arr [] :: stack)

theorem spells_quoted {s : Text} (hs : Plain s) : Spells (quoted s) (.str s) where
  begins := ⟨'"', s ++ ['"'], rfl, rfl, by decide⟩
  run stack := run_string hs stack .value

/-- The separator of items and members. -/
def comma : Text := ", ".toList

theorem run_items {ps : List (Text × Json)} (hps : ∀ p ∈ ps, Spells p.1 p.2)
    (stack : List Frame) (items : List Json) :
    run (reading stack (afterItem items)) (ps.flatMap fun p => comma ++ p.1) =
      reading stack (afterItem (items ++ ps.map Prod.snd)) := by
  induction ps generalizing items with
  | nil => simp
  | cons p ps ih =>
      have hp := (hps p List.mem_cons_self).run (.arr items :: stack)
      rw [List.flatMap_cons, run_append, run_append]
      show run (run (reading (.arr items :: stack) value) p.1) _ = _
      rw [hp]
      show run (reading stack (afterItem (items ++ [p.2]))) _ = _
      rw [ih fun q hq => hps q (List.mem_cons_of_mem _ hq)]
      simp

theorem spells_array {ps : List (Text × Json)} (hps : ∀ p ∈ ps, Spells p.1 p.2) :
    Spells ('[' :: (comma.intercalate (ps.map Prod.fst) ++ [']'])) (.arr (ps.map Prod.snd)) where
  begins := ⟨'[', _, rfl, rfl, by decide⟩
  run stack := by
    show run (reading stack itemOrClose) _ = _
    cases ps with
    | nil => rfl
    | cons p ps =>
        have hp := (hps p List.mem_cons_self).run_first stack
        rw [List.map_cons, intercalate_cons_eq, List.flatMap_map, run_append, run_append, hp]
        show run (run (reading stack (afterItem [p.2])) _) [']'] = _
        rw [run_items fun q hq => hps q (List.mem_cons_of_mem _ hq)]
        rfl

/-! ## Members -/

/-- `"key": value` -/
def member (k t : Text) : Text := quoted k ++ ": ".toList ++ t

theorem run_member_first {k t : Text} {v : Json} (hk : Plain k) (ht : Spells t v)
    (stack : List Frame) :
    run (reading stack keyOrClose) (member k t) = reading stack (afterMember [(k, v)]) := by
  unfold member quoted
  rw [List.append_assoc, List.cons_append, run_cons, run_append]
  show run (run (reading stack (.str (.key []) [])) (k ++ ['"'])) (": ".toList ++ t) = _
  rw [run_string hk, run_append]
  exact ht.run (.obj [] k :: stack)

theorem run_member {k t : Text} {v : Json} (hk : Plain k) (ht : Spells t v)
    (stack : List Frame) (members : List (Text × Json)) :
    run (reading stack (afterMember members)) (comma ++ member k t) =
      reading stack (afterMember (members ++ [(k, v)])) := by
  unfold member quoted
  rw [run_append]
  show run (reading stack (key members)) _ = _
  rw [List.append_assoc, List.cons_append, run_cons, run_append]
  show run (run (reading stack (.str (.key members) [])) (k ++ ['"'])) (": ".toList ++ t) = _
  rw [run_string hk, run_append]
  exact ht.run (.obj members k :: stack)

/-- A member with its key, the text of its value and the value. -/
structure Member where
  key : Text
  text : Text
  value : Json

def Member.spelled (m : Member) : Text := member m.key m.text

def Member.entry (m : Member) : Text × Json := (m.key, m.value)

def Member.Good (m : Member) : Prop := Plain m.key ∧ Spells m.text m.value

theorem run_members {ms : List Member} (hms : ∀ m ∈ ms, m.Good) (stack : List Frame)
    (members : List (Text × Json)) :
    run (reading stack (afterMember members)) (ms.flatMap fun m => comma ++ m.spelled) =
      reading stack (afterMember (members ++ ms.map Member.entry)) := by
  induction ms generalizing members with
  | nil => simp
  | cons m ms ih =>
      obtain ⟨hk, ht⟩ := hms m List.mem_cons_self
      rw [List.flatMap_cons, run_append, Member.spelled, run_member hk ht,
        ih fun m' hm' => hms m' (List.mem_cons_of_mem _ hm')]
      simp [Member.entry]

theorem run_pad {pad : Text} (hpad : ∀ c ∈ pad, isSpace c = true) {r : Reader}
    (hr : ∀ c, isSpace c = true → step r c = r) : run r pad = r := by
  induction pad with
  | nil => rfl
  | cons c pad ih =>
      rw [run_cons, hr c (hpad c List.mem_cons_self)]
      exact ih fun a ha => hpad a (List.mem_cons_of_mem _ ha)

/-- The members of an object that is still open. -/
theorem run_open {m : Member} {ms : List Member} (hm : m.Good) (hms : ∀ m' ∈ ms, m'.Good)
    {pad : Text} (hpad : ∀ c ∈ pad, isSpace c = true) (stack : List Frame) :
    run (reading stack value)
        ('\x7b' :: (pad ++ comma.intercalate ((m :: ms).map Member.spelled))) =
      reading stack (afterMember ((m :: ms).map Member.entry)) := by
  have hopen : run (reading stack keyOrClose) pad = reading stack keyOrClose :=
    run_pad hpad fun c hc => by simp [step, hc]
  show run (reading stack keyOrClose) _ = _
  rw [run_append, hopen, List.map_cons, intercalate_cons_eq, List.flatMap_map, run_append,
    Member.spelled, run_member_first hm.1 hm.2, run_members hms]
  rfl

/-- An object may be padded with spaces inside its braces. -/
theorem spells_padded {ms : List Member} (hms : ∀ m ∈ ms, m.Good) {pad : Text}
    (hpad : ∀ c ∈ pad, isSpace c = true) :
    Spells ('\x7b' :: (pad ++ (comma.intercalate (ms.map Member.spelled) ++ (pad ++ ['\x7d']))))
      (.obj (ms.map Member.entry)) where
  begins := ⟨'\x7b', _, rfl, rfl, by decide⟩
  run stack := by
    cases ms with
    | nil =>
        have hopen : Json.run (reading stack keyOrClose) pad = reading stack keyOrClose :=
          run_pad hpad fun c hc => by simp [step, hc]
        show Json.run (reading stack keyOrClose) (pad ++ (pad ++ ['\x7d'])) = _
        rw [run_append, hopen, run_append, hopen]
        rfl
    | cons m ms =>
        have hopen := run_open (hms m List.mem_cons_self)
          (fun m' hm' => hms m' (List.mem_cons_of_mem _ hm')) hpad stack
        have hclose (members : List (Text × Json)) :
            Json.run (reading stack (afterMember members)) pad =
              reading stack (afterMember members) :=
          run_pad hpad fun c hc => by simp [step, stepAfter, hc]
        rw [← List.append_assoc, ← List.cons_append, run_append, hopen, run_append, hclose]
        rfl

theorem spells_object {ms : List Member} (hms : ∀ m ∈ ms, m.Good) :
    Spells ('\x7b' :: (comma.intercalate (ms.map Member.spelled) ++ ['\x7d']))
      (.obj (ms.map Member.entry)) :=
  @spells_padded ms hms [] (by simp)

end Json

end Rvmi.Foundation
