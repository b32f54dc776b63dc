import HttpDataDiod.Lib.ByteText

/-!
# The read-only SQL gate

Model of `db_query_utils.hpp`, `strip_sql_comments`, `next_word_lower` and
`is_read_only_sql`: the gate deletes the comments of a statement in one pass,
skips leading parentheses, and accepts when the first blank-delimited word of
what is left is `select` or `with`.

The source walks an index `i` over the text.  Here the state of that walk is
the unread suffix together with the loop it is in (`StripMode`): the outer
loop, the scan of a `--` comment, or the scan of a `/* */` comment.  The `--`
scan stops *at* the line feed, which the outer loop then copies; the `/* */`
scan stops at the first `*/`, and an unterminated comment eats the text to its
end.
-/

namespace HttpDataDiod
namespace Sql

open ByteText

/-- The loop of `strip_sql_comments` that reads the next byte. -/
inductive StripMode where
  | text
  | line
  | block
  deriving DecidableEq

/-- The rest of the walk of `strip_sql_comments`, from an unread suffix. -/
def stripFrom : StripMode → Bytes → Bytes
  | .text, [] => []
  | .text, [c] => [c]
  | .text, c :: d :: s =>
    if c = 45 ∧ d = 45 then stripFrom .line s
    else if c = 47 ∧ d = 42 then stripFrom .block s
    else c :: stripFrom .text (d :: s)
  | .line, [] => []
  | .line, c :: s => if c = 10 then 10 :: stripFrom .text s else stripFrom .line s
  | .block, [] => []
  | .block, [_] => []
  | .block, c :: d :: s =>
    if c = 42 ∧ d = 47 then stripFrom .text s else stripFrom .block (d :: s)

/-- `strip_sql_comments`. -/
def stripSqlComments (sql : Bytes) : Bytes := stripFrom .text sql

/-- `next_word_lower`, from the byte at `pos` on: the next blank-delimited word,
lower-cased, and the text after it. -/
def nextWordLower (s : Bytes) : Bytes × Bytes :=
  let t := s.dropWhile isSpace
  (toLower (t.takeWhile fun c => !isSpace c), t.dropWhile fun c => !isSpace c)

/-- The two keywords the gate lets through. -/
def IsQueryKeyword (w : Bytes) : Prop := w = ascii "select" ∨ w = ascii "with"

instance (w : Bytes) : Decidable (IsQueryKeyword w) :=
  inferInstanceAs (Decidable (w = ascii "select" ∨ w = ascii "with"))

/-- `is_read_only_sql`. -/
def isReadOnlySql (sql : Bytes) : Bool :=
  let stripped := stripSqlComments sql
  let first := (nextWordLower (stripped.dropWhile fun c => c = 40)).1
  decide (IsQueryKeyword first)

example : stripSqlComments (ascii "SELECT '--x' FROM t") = ascii "SELECT '" := by decide

example : isReadOnlySql (ascii "/* x */ DELETE FROM t") = false := by decide

/-! ## What the gate still has to read

After the parentheses the gate only skips blanks, so a parenthesis that follows
a blank is already part of the first word.  `gateWord sp` is the first word of
a stripped text when a blank has been passed (`sp`) or not. -/

/-- The first word of a stripped text; parentheses are skipped only while no
blank has been passed. -/
def gateWord (sp : Bool) (t : Bytes) : Bytes :=
  (nextWordLower (if sp then t else t.dropWhile fun c => c = 40)).1

theorem isReadOnlySql_iff (sql : Bytes) :
    isReadOnlySql sql = true ↔ IsQueryKeyword (gateWord false (stripFrom .text sql)) :=
  decide_eq_true_iff

@[simp] theorem gateWord_nil (sp : Bool) : gateWord sp [] = [] := by
  cases sp <;> rfl

theorem gateWord_space (sp : Bool) {c : UInt8} (hc : isSpace c = true) (t : Bytes) :
    gateWord sp (c :: t) = gateWord true t := by
  have hparen : c ≠ 40 := by
    rintro rfl
    exact absurd hc (by decide)
  cases sp <;> simp [gateWord, nextWordLower, hc, hparen]

theorem gateWord_paren (t : Bytes) : gateWord false (40 :: t) = gateWord false t := by
  simp [gateWord]

/-- A byte that is neither a blank nor a skipped parenthesis starts the word. -/
theorem gateWord_of_not_space (sp : Bool) {c : UInt8} (hc : isSpace c = false)
    (hparen : sp = false → c ≠ 40) (t : Bytes) :
    gateWord sp (c :: t) = toLower ((c :: t).takeWhile fun x => !isSpace x) := by
  cases sp with
  | true => simp [gateWord, nextWordLower, hc]
  | false => simp [gateWord, nextWordLower, hc, hparen rfl]

/-- The word is no longer than the text it is read from. -/
theorem length_gateWord_le (sp : Bool) (t : Bytes) : (gateWord sp t).length ≤ t.length := by
  have hword : ∀ u : Bytes, (nextWordLower u).1.length ≤ u.length := fun u => by
    rw [nextWordLower, length_toLower]
    exact ((List.takeWhile_sublist _).trans (List.dropWhile_sublist _)).length_le
  cases sp with
  | true => exact hword t
  | false => exact (hword _).trans (List.dropWhile_sublist _).length_le

/-- A parenthesis after a blank ends the matter: no keyword starts with one. -/
theorem not_isQueryKeyword_paren (t : Bytes) : ¬ IsQueryKeyword (gateWord true (40 :: t)) := by
  rw [gateWord_of_not_space true (by decide) (fun h => nomatch h)]
  simp [IsQueryKeyword, ascii, isSpace, toLowerByte, isUpper]

/-! ## The steps of the stripper -/

@[simp] theorem stripFrom_nil (m : StripMode) : stripFrom m [] = [] := by
  cases m <;> rfl

/-- A text that opens a comment. -/
def opensComment (c d : UInt8) : Prop := (c = 45 ∧ d = 45) ∨ (c = 47 ∧ d = 42)

instance (c d : UInt8) : Decidable (opensComment c d) :=
  inferInstanceAs (Decidable ((c = 45 ∧ d = 45) ∨ (c = 47 ∧ d = 42)))

theorem stripFrom_text_line (s : Bytes) :
    stripFrom .text (45 :: 45 :: s) = stripFrom .line s := by
  simp [stripFrom]

theorem stripFrom_text_block (s : Bytes) :
    stripFrom .text (47 :: 42 :: s) = stripFrom .block s := by
  simp [stripFrom]

theorem stripFrom_text_cons {c d : UInt8} (h : ¬ opensComment c d) (s : Bytes) :
    stripFrom .text (c :: d :: s) = c :: stripFrom .text (d :: s) := by
  obtain ⟨h1, h2⟩ := not_or.mp h
  simp only [stripFrom, if_neg h1, if_neg h2]

theorem stripFrom_line_newline (s : Bytes) :
    stripFrom .line (10 :: s) = 10 :: stripFrom .text s := by
  simp [stripFrom]

theorem stripFrom_line_cons {c : UInt8} (h : c ≠ 10) (s : Bytes) :
    stripFrom .line (c :: s) = stripFrom .line s := by
  simp [stripFrom, h]

theorem stripFrom_block_close (s : Bytes) :
    stripFrom .block (42 :: 47 :: s) = stripFrom .text s := by
  simp [stripFrom]

theorem stripFrom_block_cons {c d : UInt8} (h : ¬ (c = 42 ∧ d = 47)) (s : Bytes) :
    stripFrom .block (c :: d :: s) = stripFrom .block (d :: s) := by
  simp only [stripFrom, if_neg h]

end Sql
end HttpDataDiod
