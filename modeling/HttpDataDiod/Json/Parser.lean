import HttpDataDiod.Json.Dump
import HttpDataDiod.Json.Lexer

/-!
# The parser

Model of `parser::sax_parse_internal` of `nlohmann/json.hpp` with the handlers of
`json_sax_dom_parser`, as `json::parse` runs them.  The parser keeps a stack of the open
containers instead of calling itself, and builds the value while it reads.  The source puts
a container into its parent when it is opened and fills it there through a pointer; here it
waits on the stack and goes into its parent when it is closed, which no step can tell apart.

* `step`, `run`: the loop of `sax_parse_internal`, one turn at a time.
* `parseText`: the whole of `json::parse`.
* `final_run`: the loop ends on every input.
-/

namespace HttpDataDiod

open ByteText Lexer

namespace SaxParser

/-! ## Building the value -/

/-- An open container. -/
inductive Frame where
  | array (elems : List JsonValue)
  | object (entries : List (Bytes × JsonValue)) (key : Bytes)

/-- `json_sax_dom_parser`: the open containers, the innermost first, and the root. -/
structure Dom where
  frames : List Frame
  root : JsonValue

namespace Dom

/-- `handle_value`. -/
def handleValue (v : JsonValue) (d : Dom) : Dom :=
  match d.frames with
  | [] => { d with root := v }
  | .array elems :: frames => { d with frames := .array (elems ++ [v]) :: frames }
  | .object entries key :: frames =>
    { d with frames := .object (JsonValue.setEntry key v entries) key :: frames }

/-- `start_array`. -/
def startArray (d : Dom) : Dom := { d with frames := .array [] :: d.frames }

/-- `start_object`. -/
def startObject (d : Dom) : Dom := { d with frames := .object [] [] :: d.frames }

/-- `key`. -/
def key (k : Bytes) (d : Dom) : Dom :=
  match d.frames with
  | .object entries _ :: frames => { d with frames := .object entries k :: frames }
  | _ => d

/-- `end_array` and `end_object`. -/
def endContainer (d : Dom) : Dom :=
  match d.frames with
  | [] => d
  | .array elems :: frames => handleValue (.array elems) { d with frames := frames }
  | .object entries _ :: frames => handleValue (.object entries) { d with frames := frames }

end Dom

/-! ## The loop -/

/-- The parser between two turns: what is left of the input, the stack `states` (`true` for
an array), and the value so far. -/
structure State where
  input : Bytes
  states : List Bool
  dom : Dom

/-- `parse_error` and `out_of_range`. -/
inductive Failure where
  | parseError
  | outOfRange
  deriving DecidableEq

/-- What a turn leads to. -/
inductive Turn where
  /-- The last token starts a value. -/
  | parse (lastToken : Token) (p : State)
  /-- A value is complete: `skip_to_state_evaluation`. -/
  | evaluate (p : State)
  | done (p : State)
  | failed (f : Failure)

variable (fmt : FloatText)

/-- A key and the separator behind it, and the token that starts the value. -/
def parseKey (lastToken : Token) (p : State) (states : List Bool) : Turn :=
  match lastToken with
  | .string k =>
    let separator := scan fmt p.input
    if separator.1 = .nameSeparator then
      let next := scan fmt separator.2
      .parse next.1 { input := next.2, states := states, dom := p.dom.key k }
    else .failed .parseError
  | _ => .failed .parseError

/-- A value without parts. -/
def scalar (v : JsonValue) (p : State) : Turn :=
  .evaluate { p with dom := p.dom.handleValue v }

/-- The turn of the loop at the start of a value. -/
def parseValue (lastToken : Token) (p : State) : Turn :=
  match lastToken with
  | .beginObject =>
    let next := scan fmt p.input
    let dom := p.dom.startObject
    if next.1 = .endObject then .evaluate { p with input := next.2, dom := dom.endContainer }
    else parseKey fmt next.1 { p with input := next.2, dom := dom } (false :: p.states)
  | .beginArray =>
    let next := scan fmt p.input
    let dom := p.dom.startArray
    if next.1 = .endArray then .evaluate { p with input := next.2, dom := dom.endContainer }
    else .parse next.1 { input := next.2, states := true :: p.states, dom := dom }
  | .float bits =>
    if Binary64.isFinite bits then scalar (.float bits) p else .failed .outOfRange
  | .literalFalse => scalar (.bool false) p
  | .literalNull => scalar .null p
  | .literalTrue => scalar (.bool true) p
  | .integer n => scalar (.int n) p
  | .string s => scalar (.string s) p
  | .unsigned n => scalar (.uint n) p
  | _ => .failed .parseError

theorem parseValue_beginObject (p : State) :
    parseValue fmt .beginObject p =
      if (scan fmt p.input).1 = .endObject then
        .evaluate { p with
          input := (scan fmt p.input).2, dom := p.dom.startObject.endContainer }
      else
        parseKey fmt (scan fmt p.input).1
          { p with input := (scan fmt p.input).2, dom := p.dom.startObject }
          (false :: p.states) := rfl

theorem parseValue_beginArray (p : State) :
    parseValue fmt .beginArray p =
      if (scan fmt p.input).1 = .endArray then
        .evaluate { p with
          input := (scan fmt p.input).2, dom := p.dom.startArray.endContainer }
      else
        .parse (scan fmt p.input).1
          { input := (scan fmt p.input).2, states := true :: p.states,
            dom := p.dom.startArray } := rfl

theorem parseValue_float (bits : UInt64) (p : State) :
    parseValue fmt (.float bits) p =
      if Binary64.isFinite bits then scalar (.float bits) p else .failed .outOfRange := rfl

/-- The end of a container: the state below it is evaluated next. -/
def closeContainer (p : State) (input : Bytes) : Turn :=
  .evaluate { input := input, states := p.states.tail, dom := p.dom.endContainer }

/-- The turn of the loop after a value. -/
def evaluateState (p : State) : Turn :=
  match p.states with
  | [] => .done p
  | true :: _ =>
    let next := scan fmt p.input
    if next.1 = .valueSeparator then
      let value := scan fmt next.2
      .parse value.1 { p with input := value.2 }
    else if next.1 = .endArray then closeContainer p next.2
    else .failed .parseError
  | false :: _ =>
    let next := scan fmt p.input
    if next.1 = .valueSeparator then
      let key := scan fmt next.2
      parseKey fmt key.1 { p with input := key.2 } p.states
    else if next.1 = .endObject then closeContainer p next.2
    else .failed .parseError

/-- One turn of the loop of `sax_parse_internal`. -/
def step : Turn → Turn
  | .parse lastToken p => parseValue fmt lastToken p
  | .evaluate p => evaluateState fmt p
  | t => t

/-- So many turns. -/
def run : ℕ → Turn → Turn
  | 0, t => t
  | n + 1, t => run n (step fmt t)

/-- The loop has ended. -/
def Turn.Final : Turn → Prop
  | .done _ | .failed _ => True
  | _ => False

/-- More turns than the loop takes. -/
def turnLimit (text : Bytes) : ℕ := 2 * text.length + 4

/-- The first turn. -/
def start (text : Bytes) : Turn :=
  match skipBom text with
  | none => .failed .parseError
  | some s =>
    let first := scan fmt s
    .parse first.1 { input := first.2, states := [], dom := ⟨[], .null⟩ }

/-- What `json::parse` comes to. -/
inductive Result where
  | value (j : JsonValue)
  | failed (f : Failure)

/-- `parser::parse` in its strict mode: behind the value the input has to end. -/
def parseText (text : Bytes) : Result :=
  match run fmt (turnLimit text) (start fmt text) with
  | .done p => if (scan fmt p.input).1 = .endOfInput then .value p.dom.root else .failed .parseError
  | .failed f => .failed f
  | _ => .failed .parseError

/-! ## The loop ends -/

/-- A bound on the turns to come: two for each byte that is left, one for a token that has
been read and is not the end of the input, one more at the start of a value. -/
def Turn.weight : Turn → ℕ
  | .parse lastToken p => 2 * p.input.length + (if lastToken = .endOfInput then 1 else 3)
  | .evaluate p => 2 * p.input.length + 2
  | _ => 0

theorem final_or_weight_parseKey {lastToken : Token} (p : State) (states : List Bool) :
    (parseKey fmt lastToken p states).Final ∨
      (parseKey fmt lastToken p states).weight < 2 * p.input.length + 2 := by
  unfold parseKey
  split
  · simp only
    split
    · rename_i hseparator
      have hlt := length_scan_lt fmt (s := p.input) (by rw [hseparator]; decide)
      refine .inr ?_
      simp only [Turn.weight]
      by_cases hend : (scan fmt (scan fmt p.input).2).1 = .endOfInput
      · have hle := length_scan_le fmt (scan fmt p.input).2
        rw [if_pos hend]
        omega
      · have hlt' := length_scan_lt fmt hend
        rw [if_neg hend]
        omega
    · exact .inl trivial
  · exact .inl trivial

/-- A token that is read after another one starts a value, or the input has ended. -/
theorem weight_parse_scan (s : Bytes) (states : List Bool) (dom : Dom) :
    (Turn.parse (scan fmt s).1 ⟨(scan fmt s).2, states, dom⟩).weight ≤ 2 * s.length + 1 := by
  simp only [Turn.weight]
  by_cases hend : (scan fmt s).1 = .endOfInput
  · have hle := length_scan_le fmt s
    rw [if_pos hend]
    omega
  · have hlt := length_scan_lt fmt hend
    rw [if_neg hend]
    omega

theorem final_or_weight_parseValue (lastToken : Token) (p : State) :
    (parseValue fmt lastToken p).Final ∨
      (parseValue fmt lastToken p).weight < (Turn.parse lastToken p).weight := by
  have hle := length_scan_le fmt p.input
  have hscalar : ∀ v, lastToken ≠ .endOfInput →
      (scalar v p).weight < (Turn.parse lastToken p).weight := by
    intro v hne
    simp only [scalar, Turn.weight, if_neg hne]
    omega
  cases lastToken with
  | beginObject =>
    simp only [parseValue_beginObject, Turn.weight, reduceCtorEq, if_false]
    split
    · exact .inr (by simp only; omega)
    · refine (final_or_weight_parseKey fmt _ _).imp_right fun h => lt_of_lt_of_le h ?_
      simp only
      omega
  | beginArray =>
    rw [parseValue_beginArray]
    split
    · exact .inr (by simp only [Turn.weight, reduceCtorEq, if_false]; omega)
    · refine .inr (lt_of_le_of_lt (weight_parse_scan fmt p.input _ _) ?_)
      simp only [Turn.weight, reduceCtorEq, if_false]
      omega
  | float bits =>
    rw [parseValue_float]
    split
    · exact .inr (hscalar _ (by simp))
    · exact .inl trivial
  | literalTrue => exact .inr (hscalar _ (by simp))
  | literalFalse => exact .inr (hscalar _ (by simp))
  | literalNull => exact .inr (hscalar _ (by simp))
  | string s => exact .inr (hscalar _ (by simp))
  | unsigned n => exact .inr (hscalar _ (by simp))
  | integer n => exact .inr (hscalar _ (by simp))
  | endArray => exact .inl trivial
  | endObject => exact .inl trivial
  | nameSeparator => exact .inl trivial
  | valueSeparator => exact .inl trivial
  | parseError => exact .inl trivial
  | endOfInput => exact .inl trivial

theorem final_or_weight_evaluateState (p : State) :
    (evaluateState fmt p).Final ∨ (evaluateState fmt p).weight < (Turn.evaluate p).weight := by
  have hclose : ∀ token, token ≠ .endOfInput → (scan fmt p.input).1 = token →
      (closeContainer p (scan fmt p.input).2).weight < (Turn.evaluate p).weight := by
    intro token hne htoken
    have hlt := length_scan_lt fmt (s := p.input) (by rw [htoken]; exact hne)
    simp only [closeContainer, Turn.weight]
    omega
  unfold evaluateState
  split
  · exact .inl trivial
  · simp only
    split
    · rename_i hseparator
      have hlt := length_scan_lt fmt (s := p.input) (by rw [hseparator]; decide)
      refine .inr (lt_of_le_of_lt (weight_parse_scan fmt (scan fmt p.input).2 _ _) ?_)
      simp only [Turn.weight]
      omega
    · split
      · exact .inr (hclose .endArray (by simp) (by assumption))
      · exact .inl trivial
  · simp only
    split
    · rename_i hseparator
      have hlt := length_scan_lt fmt (s := p.input) (by rw [hseparator]; decide)
      have hle := length_scan_le fmt (scan fmt p.input).2
      refine (final_or_weight_parseKey fmt _ _).imp_right fun h => lt_of_lt_of_le h ?_
      simp only [Turn.weight]
      omega
    · split
      · exact .inr (hclose .endObject (by simp) (by assumption))
      · exact .inl trivial

/-- **Every turn ends the loop or brings it nearer to its end.** -/
theorem final_or_weight_step (t : Turn) :
    (step fmt t).Final ∨ (step fmt t).weight < t.weight := by
  cases t with
  | done p => exact .inl trivial
  | failed f => exact .inl trivial
  | parse lastToken p => exact final_or_weight_parseValue fmt lastToken p
  | evaluate p => exact final_or_weight_evaluateState fmt p

theorem step_of_final {t : Turn} (h : t.Final) : step fmt t = t := by
  cases t with
  | done p => rfl
  | failed f => rfl
  | parse lastToken p => exact h.elim
  | evaluate p => exact h.elim

theorem run_of_final {t : Turn} (h : t.Final) (n : ℕ) : run fmt n t = t := by
  induction n with
  | zero => rfl
  | succ n ih => rw [run, step_of_final fmt h, ih]

theorem run_add (m n : ℕ) (t : Turn) : run fmt (m + n) t = run fmt n (run fmt m t) := by
  induction m generalizing t with
  | zero => rw [Nat.zero_add, run]
  | succ m ih => rw [Nat.succ_add, run, run, ih]

theorem final_run_of_weight {n : ℕ} {t : Turn} (h : t.weight < n) : (run fmt n t).Final := by
  induction n generalizing t with
  | zero => exact absurd h (Nat.not_lt_zero _)
  | succ n ih =>
    rw [run]
    rcases final_or_weight_step fmt t with hfinal | hweight
    · rw [run_of_final fmt hfinal]
      exact hfinal
    · exact ih (by omega)

theorem length_skipBom_le {text s : Bytes} (h : skipBom text = some s) :
    s.length ≤ text.length := by
  unfold skipBom at h
  split at h
  · rw [← Option.some.inj h]
    simp only [List.length_cons]
    omega
  · cases h
  · rw [← Option.some.inj h]

/-- **The loop ends on every input**, within the limit. -/
theorem final_run (text : Bytes) : (run fmt (turnLimit text) (start fmt text)).Final := by
  unfold start
  split
  · rw [run_of_final fmt (show (Turn.failed .parseError).Final from trivial)]
    trivial
  · rename_i s hs
    refine final_run_of_weight fmt ?_
    have hlength := length_skipBom_le hs
    have hle := length_scan_le fmt s
    simp only [Turn.weight, turnLimit]
    split
    · omega
    · omega

end SaxParser
end HttpDataDiod
