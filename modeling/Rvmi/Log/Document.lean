import Mathlib.Data.List.Induction
import Rvmi.Log.Record

/-!
# The text of a whole log

A log is an opening text, one line for every record and a closing text. The
opening and every line leave a JSON reader at a place where the next item of
the `execution` array may start, so the closing text completes the document
after any number of records.
-/

namespace Rvmi.Log

open Rvmi.Foundation Json Reader Mode

/-! ## Parts -/

def openingText : Text :=
  "\x7b\n".toList ++ "  \"execution\": [\n".toList ++ "    \x7b\x7d,\n".toList

def recordLine (r : InstrRecord) : Text :=
  "    ".toList ++ (recordText r ++ ",\n".toList)

def closingText : Text := "    \x7b\x7d\n".toList ++ "  ]\n".toList ++ "\x7d".toList

/-- A log that has not been closed. -/
def openLog (rs : List InstrRecord) : Text := openingText ++ rs.flatMap recordLine

/-- The items of the array: the records between two empty objects. -/
def logItems (rs : List InstrRecord) : List Json :=
  .obj [] :: (rs.map recordJson ++ [.obj []])

def logJson (rs : List InstrRecord) : Json := .obj [("execution".toList, .arr (logItems rs))]

/-! ## Reading -/

/-- A reader behind the line of the last record. -/
def awaiting (rs : List InstrRecord) : List Frame :=
  [.arr (.obj [] :: rs.map recordJson), .obj [] "execution".toList]

theorem run_openingText : run (reading [] value) openingText = reading (awaiting []) value := rfl

theorem run_recordLine (rs : List InstrRecord) (r : InstrRecord) :
    run (reading (awaiting rs) value) (recordLine r) = reading (awaiting (rs ++ [r])) value := by
  have hspell := (spells_recordText r).run (awaiting rs)
  unfold recordLine
  rw [run_append, run_append]
  show run (run (reading (awaiting rs) value) (recordText r)) ",\n".toList = _
  rw [hspell]
  show reading [.arr (.obj [] :: rs.map recordJson ++ [recordJson r]), _] value = _
  unfold awaiting
  rw [List.map_append, List.cons_append]
  rfl

theorem openLog_concat (rs : List InstrRecord) (r : InstrRecord) :
    openLog (rs ++ [r]) = openLog rs ++ recordLine r := by
  unfold openLog
  rw [List.flatMap_append, List.flatMap_singleton, List.append_assoc]

theorem run_openLog (rs : List InstrRecord) :
    run (reading [] value) (openLog rs) = reading (awaiting rs) value := by
  induction rs using List.reverseRecOn with
  | nil => exact run_openingText
  | append_singleton rs r ih =>
      rw [openLog_concat, run_append, ih, run_recordLine]

theorem run_closingText (rs : List InstrRecord) :
    run (reading (awaiting rs) value) closingText = reading [] (done (logJson rs)) := rfl

/-- A closed log is a JSON document with its records in order. -/
theorem parse_closed (rs : List InstrRecord) :
    parse (openLog rs ++ closingText) = some (logJson rs) := by
  unfold parse
  rw [run_append, run_openLog, run_closingText]
  rfl

/-- A text is a log that holds exactly these records, each of them where it
belongs between the two empty objects. -/
def HoldsRecords (text : Text) (rs : List InstrRecord) : Prop :=
  ∃ items, parse text = some (.obj [("execution".toList, .arr items)]) ∧
    items.length = rs.length + 2 ∧
    items.head? = some (.obj []) ∧ items.getLast? = some (.obj []) ∧
    ∀ k < rs.length, (items[k + 1]?).bind decodeRecord = rs[k]?

theorem holdsRecords_closed (rs : List InstrRecord) :
    HoldsRecords (openLog rs ++ closingText) rs := by
  have hlast : (logItems rs).getLast? = some (.obj []) := by
    unfold logItems
    rw [← List.cons_append, List.getLast?_concat]
  refine ⟨logItems rs, parse_closed rs, by simp [logItems], rfl, hlast, ?_⟩
  intro k hk
  have hitem : (logItems rs)[k + 1]? = some (recordJson rs[k]) := by
    unfold logItems
    rw [List.getElem?_cons_succ, List.getElem?_append_left (by simpa using hk),
      List.getElem?_map, List.getElem?_eq_getElem hk]
    rfl
  rw [hitem, List.getElem?_eq_getElem hk]
  exact decodeRecord_recordJson rs[k]

/-- The records of a closed log: the empty objects at both ends are dropped. -/
def decodeLog (text : Text) : Option (List InstrRecord) :=
  match parse text with
  | some (.obj [(name, .arr (.obj [] :: items))]) =>
      if name = "execution".toList then items.dropLast.mapM decodeRecord else none
  | _ => none

theorem decodeLog_closed (rs : List InstrRecord) :
    decodeLog (openLog rs ++ closingText) = some rs := by
  unfold decodeLog
  rw [parse_closed]
  show (rs.map recordJson ++ [Json.obj []]).dropLast.mapM decodeRecord = some rs
  rw [List.dropLast_concat]
  exact mapM_map_some decodeRecord_recordJson rs

/-! ## Logs that break off -/

/-- The line of a record that ends behind the brace of a section. -/
def brokenLine (m : Member) (ms : List Member) (key : Text) : Text :=
  "    ".toList ++ ('\x7b' :: (" ".toList ++ comma.intercalate ((m :: ms).map Member.spelled)) ++
    (comma ++ (quoted key ++ ": \x7b".toList)))

/-- Behind the brace of a section the closing text is not JSON. -/
theorem parse_broken (rs : List InstrRecord) {m : Member} {ms : List Member} (hm : m.Good)
    (hms : ∀ m' ∈ ms, m'.Good) {key : Text} (hkey : Plain key) :
    parse (openLog rs ++ brokenLine m ms key ++ closingText) = none := by
  have hopen := run_open hm hms isSpace_pad (awaiting rs)
  have hkeyRun (members : List (Text × Json)) :
      run (reading (awaiting rs) (afterMember members)) (comma ++ (quoted key ++ ": \x7b".toList)) =
        reading (.obj members key :: awaiting rs) keyOrClose := by
    unfold quoted
    rw [run_append, List.cons_append, run_cons, run_append]
    show run (run (reading (awaiting rs) (.str (.key members) [])) (key ++ ['"'])) _ = _
    rw [run_string hkey]
    rfl
  unfold parse brokenLine
  rw [run_append, run_append, run_openLog, run_append, run_append]
  show finish (run (run (run (reading (awaiting rs) value) _) _) _) = none
  rw [hopen, hkeyRun]
  -- the spaces are skipped, and the brace of the closing empty object is no key
  rfl

theorem not_holdsRecords_broken (rs rs' : List InstrRecord) {m : Member} {ms : List Member}
    (hm : m.Good) (hms : ∀ m' ∈ ms, m'.Good) {key : Text} (hkey : Plain key) :
    ¬ HoldsRecords (openLog rs ++ brokenLine m ms key ++ closingText) rs' := by
  rintro ⟨items, hparse, -⟩
  rw [parse_broken rs hm hms hkey] at hparse
  cases hparse

end Rvmi.Log
