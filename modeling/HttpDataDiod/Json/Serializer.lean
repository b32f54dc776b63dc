import HttpDataDiod.Json.Dump
import HttpDataDiod.Json.Lexer

/-!
# Writing a value

Model of `serializer::dump_internal` and `serializer::dump_iteratively` of
`nlohmann/json.hpp`, without indentation, as `dump` without arguments calls them.  A value is
written by recursion down to a depth of 128 containers; what lies deeper is written by a loop
with a stack of its own.

* `dumpInternal`: the recursion, with the hand-over to the loop.
* `dumpIteratively`: the loop.
* `serialize`: the text of a value.
* `dumpIteratively_eq`, `dumpInternal_eq`: both write that text, from any depth on, and throw
  on the same values.
-/

namespace HttpDataDiod

open ByteText JsonValue

namespace Serializer

variable (fmt : Lexer.FloatText)

/-- `dump_float`: infinities and NaNs are written as `null`. -/
def dumpFloat (bits : UInt64) : Bytes :=
  if Binary64.isFinite bits then fmt.print bits else ascii "null"

/-- A string in quotes. -/
def dumpQuoted (s : Bytes) : Option Bytes := do
  let text ← dumpEscaped s
  return 34 :: text ++ [34]

/-! ## The loop -/

/-- `dump_frame`: a container that is open, with the elements that are still to come, and
whether none has been written yet. -/
inductive DumpFrame where
  | array (elems : List JsonValue) (fresh : Bool)
  | object (entries : List (Bytes × JsonValue)) (fresh : Bool)

/-- `dump_value`: a value that is no container is written, a container is opened. -/
def dumpValue (v : JsonValue) (stack : List DumpFrame) : Option (Bytes × List DumpFrame) :=
  match v with
  | .object [] => some (ascii "{}", stack)
  | .object entries => some ([123], .object entries true :: stack)
  | .array [] => some (ascii "[]", stack)
  | .array elems => some ([91], .array elems true :: stack)
  | .string s => (dumpQuoted s).map fun text => (text, stack)
  | .bool true => some (ascii "true", stack)
  | .bool false => some (ascii "false", stack)
  | .int n => some (dumpInteger n, stack)
  | .uint n => some (dumpInteger n, stack)
  | .float bits => some (dumpFloat fmt bits, stack)
  | .null => some (ascii "null", stack)

/-- The separator in front of an element. -/
def separator (fresh : Bool) : Bytes := if fresh then [] else [44]

/-- One turn of the loop of `dump_iteratively`: what it writes, and the stack after it. -/
def dumpTurn : List DumpFrame → Option (Bytes × List DumpFrame)
  | [] => some ([], [])
  | .object [] _ :: stack => some ([125], stack)
  | .object ((key, v) :: entries) fresh :: stack => do
    let text ← dumpQuoted key
    let (written, stack') ← dumpValue fmt v (.object entries false :: stack)
    return (separator fresh ++ text ++ [58] ++ written, stack')
  | .array [] _ :: stack => some ([93], stack)
  | .array (v :: elems) fresh :: stack => do
    let (written, stack') ← dumpValue fmt v (.array elems false :: stack)
    return (separator fresh ++ written, stack')

/-- What is written in front of what a run writes. -/
def emit {α : Type} (written : Bytes) (r : Option (Bytes × α)) : Option (Bytes × α) :=
  r.map fun r => (written ++ r.1, r.2)

/-- So many turns of the loop, which ends when the stack is empty. -/
def dumpTurns : ℕ → List DumpFrame → Option (Bytes × List DumpFrame)
  | 0, stack => some ([], stack)
  | n + 1, stack =>
    match dumpTurn fmt stack with
    | none => none
    | some (written, stack') => emit written (dumpTurns n stack')

mutual

/-- The number of turns that a value takes after `dump_value`. -/
def turns : JsonValue → ℕ
  | .array elems => turnsElems elems
  | .object entries => turnsEntries entries
  | _ => 0

def turnsElems : List JsonValue → ℕ
  | [] => 0
  | v :: elems => 1 + turns v + (if elems = [] then 1 else turnsElems elems)

def turnsEntries : List (Bytes × JsonValue) → ℕ
  | [] => 0
  | (_, v) :: entries => 1 + turns v + (if entries = [] then 1 else turnsEntries entries)

end

/-- `dump_iteratively`; `none` is the exception. -/
def dumpIteratively (v : JsonValue) : Option Bytes :=
  match dumpValue fmt v [] with
  | none => none
  | some (written, stack) => (dumpTurns fmt (turns v) stack).map fun r => written ++ r.1

/-! ## The recursion -/

/-- `dump_depth_limit`. -/
def dumpDepthLimit : ℕ := 128

mutual

/-- `dump_internal`; `none` is the exception. -/
def dumpInternal (depth : ℕ) : JsonValue → Option Bytes
  | .object entries =>
    if dumpDepthLimit ≤ depth then dumpIteratively fmt (.object entries)
    else
      match entries with
      | [] => some (ascii "{}")
      | e :: entries => do
        let text ← dumpEntries (depth + 1) (e :: entries)
        return 123 :: text ++ [125]
  | .array elems =>
    if dumpDepthLimit ≤ depth then dumpIteratively fmt (.array elems)
    else
      match elems with
      | [] => some (ascii "[]")
      | v :: elems => do
        let text ← dumpElems (depth + 1) (v :: elems)
        return 91 :: text ++ [93]
  | .string s => dumpQuoted s
  | .bool true => some (ascii "true")
  | .bool false => some (ascii "false")
  | .int n => some (dumpInteger n)
  | .uint n => some (dumpInteger n)
  | .float bits => some (dumpFloat fmt bits)
  | .null => some (ascii "null")

/-- The elements of an array: all but the last with a comma behind them. -/
def dumpElems (depth : ℕ) : List JsonValue → Option Bytes
  | [] => some []
  | v :: elems => do
    let text ← dumpInternal depth v
    if elems.isEmpty then return text
    else
      let rest ← dumpElems depth elems
      return text ++ 44 :: rest

/-- The members of an object. -/
def dumpEntries (depth : ℕ) : List (Bytes × JsonValue) → Option Bytes
  | [] => some []
  | (key, v) :: entries => do
    let name ← dumpQuoted key
    let text ← dumpInternal depth v
    if entries.isEmpty then return name ++ 58 :: text
    else
      let rest ← dumpEntries depth entries
      return name ++ 58 :: text ++ 44 :: rest

end

/-! ## The text -/

/-- The text of a string. -/
def quoted (s : Bytes) : Bytes := 34 :: escaped s ++ [34]

theorem dumpQuoted_eq (s : Bytes) :
    dumpQuoted s = if isValidUtf8 s then some (quoted s) else none := by
  rw [dumpQuoted, dumpEscaped_eq]
  split
  · rfl
  · rfl

mutual

/-- The text of a value. -/
def serialize : JsonValue → Bytes
  | .object entries => 123 :: serializeEntries entries ++ [125]
  | .array elems => 91 :: serializeElems elems ++ [93]
  | .string s => quoted s
  | .bool true => ascii "true"
  | .bool false => ascii "false"
  | .int n => dumpInteger n
  | .uint n => dumpInteger n
  | .float bits => dumpFloat fmt bits
  | .null => ascii "null"

def serializeElems : List JsonValue → Bytes
  | [] => []
  | v :: elems => serialize v ++ (if elems.isEmpty then [] else 44 :: serializeElems elems)

def serializeEntries : List (Bytes × JsonValue) → Bytes
  | [] => []
  | (key, v) :: entries =>
    quoted key ++ 58 :: serialize v ++
      (if entries.isEmpty then [] else 44 :: serializeEntries entries)

end

/-! ## The loop writes the text -/

theorem emit_emit {α : Type} (w w' : Bytes) (r : Option (Bytes × α)) :
    emit w (emit w' r) = emit (w ++ w') r := by
  cases r with
  | none => rfl
  | some r => simp [emit]

theorem emit_ite {α : Type} (w : Bytes) (p : Prop) [Decidable p] (r : Option (Bytes × α)) :
    emit w (if p then r else none) = if p then emit w r else none := by
  split
  · rfl
  · rfl

theorem emit_none {α : Type} (w : Bytes) : emit w (none : Option (Bytes × α)) = none := rfl

/-- What follows a value in a run of the loop: its text, when it can be written. -/
def Writes (v : JsonValue) : Prop :=
  ∀ n stack, (match dumpValue fmt v stack with
    | none => none
    | some (written, stack') => emit written (dumpTurns fmt (turns v + n) stack')) =
      if v.allUtf8 then emit (serialize fmt v) (dumpTurns fmt n stack) else none

/-- The same for the elements of an array that is open. -/
def WritesElems (elems : List JsonValue) : Prop :=
  ∀ n stack fresh, elems ≠ [] →
    dumpTurns fmt (turnsElems elems + n) (.array elems fresh :: stack) =
      if allUtf8Elems elems then
        emit (separator fresh ++ serializeElems fmt elems ++ [93]) (dumpTurns fmt n stack)
      else none

/-- The same for the members of an object that is open. -/
def WritesEntries (entries : List (Bytes × JsonValue)) : Prop :=
  ∀ n stack fresh, entries ≠ [] →
    dumpTurns fmt (turnsEntries entries + n) (.object entries fresh :: stack) =
      if allUtf8Entries entries then
        emit (separator fresh ++ serializeEntries fmt entries ++ [125]) (dumpTurns fmt n stack)
      else none

theorem writes_scalar {v : JsonValue} {text : Bytes} (hturns : turns v = 0)
    (hvalue : ∀ stack, dumpValue fmt v stack = some (text, stack)) (htext : serialize fmt v = text)
    (hutf8 : v.allUtf8 = true) : Writes fmt v := by
  intro n stack
  rw [hvalue, hturns, Nat.zero_add, if_pos hutf8, htext]

theorem writesElems_cons {v : JsonValue} {elems : List JsonValue} (hv : Writes fmt v)
    (helems : WritesElems fmt elems) : WritesElems fmt (v :: elems) := by
  intro n stack fresh _
  have hstep : ∀ k, dumpTurns fmt (1 + turns v + k) (.array (v :: elems) fresh :: stack) =
      if v.allUtf8 then
        emit (separator fresh ++ serialize fmt v) (dumpTurns fmt k (.array elems false :: stack))
      else none := by
    intro k
    have hread := congrArg (emit (separator fresh)) (hv k (.array elems false :: stack))
    rw [emit_ite, emit_emit] at hread
    rw [← hread, Nat.add_assoc, Nat.add_comm 1, dumpTurns, dumpTurn]
    cases dumpValue fmt v (.array elems false :: stack) with
    | none => rfl
    | some r => exact (emit_emit _ _ _).symm
  rw [turnsElems, Nat.add_assoc, hstep, allUtf8Elems, serializeElems]
  cases elems with
  | nil =>
    have hclose : dumpTurns fmt (1 + n) (.array [] false :: stack) =
        emit [93] (dumpTurns fmt n stack) := by
      rw [Nat.add_comm, dumpTurns, dumpTurn]
    rw [if_pos rfl, hclose, emit_emit]
    simp [allUtf8Elems]
  | cons w elems =>
    rw [if_neg (List.cons_ne_nil _ _), helems n stack false (List.cons_ne_nil _ _), emit_ite,
      emit_emit]
    cases v.allUtf8 with
    | false => simp
    | true => simp [separator]

theorem writesEntries_cons {key : Bytes} {v : JsonValue} {entries : List (Bytes × JsonValue)}
    (hv : Writes fmt v) (hentries : WritesEntries fmt entries) :
    WritesEntries fmt ((key, v) :: entries) := by
  intro n stack fresh _
  have hstep : ∀ k, dumpTurns fmt (1 + turns v + k) (.object ((key, v) :: entries) fresh :: stack) =
      if isValidUtf8 key && v.allUtf8 then
        emit (separator fresh ++ quoted key ++ 58 :: serialize fmt v)
          (dumpTurns fmt k (.object entries false :: stack))
      else none := by
    intro k
    rw [Nat.add_assoc, Nat.add_comm 1, dumpTurns, dumpTurn, dumpQuoted_eq]
    cases isValidUtf8 key with
    | false => rfl
    | true =>
      have hread := congrArg (emit (separator fresh ++ quoted key ++ [58]))
        (hv k (.object entries false :: stack))
      rw [emit_ite, emit_emit] at hread
      simp only [if_true, Bool.true_and]
      rw [show separator fresh ++ quoted key ++ 58 :: serialize fmt v =
        separator fresh ++ quoted key ++ [58] ++ serialize fmt v by simp, ← hread]
      cases dumpValue fmt v (.object entries false :: stack) with
      | none => rfl
      | some r => exact (emit_emit _ _ _).symm
  rw [turnsEntries, Nat.add_assoc, hstep, allUtf8Entries, serializeEntries]
  cases entries with
  | nil =>
    have hclose : dumpTurns fmt (1 + n) (.object [] false :: stack) =
        emit [125] (dumpTurns fmt n stack) := by
      rw [Nat.add_comm, dumpTurns, dumpTurn]
    rw [if_pos rfl, hclose, emit_emit]
    simp [allUtf8Entries]
  | cons e entries =>
    rw [if_neg (List.cons_ne_nil _ _), hentries n stack false (List.cons_ne_nil _ _), emit_ite,
      emit_emit]
    cases isValidUtf8 key && v.allUtf8 with
    | false => simp
    | true => simp [separator]

mutual

/-- **The loop writes the text of every value**, or throws, by induction on the value. -/
theorem writes : ∀ v : JsonValue, Writes fmt v
  | .null => writes_scalar fmt rfl (fun _ => rfl) rfl rfl
  | .bool true => writes_scalar fmt rfl (fun _ => rfl) rfl rfl
  | .bool false => writes_scalar fmt rfl (fun _ => rfl) rfl rfl
  | .int _ => writes_scalar fmt rfl (fun _ => rfl) rfl rfl
  | .uint _ => writes_scalar fmt rfl (fun _ => rfl) rfl rfl
  | .float _ => writes_scalar fmt rfl (fun _ => rfl) rfl rfl
  | .string s => by
    intro n stack
    rw [dumpValue, dumpQuoted_eq, allUtf8]
    cases isValidUtf8 s with
    | false => rfl
    | true => simp [turns, serialize]
  | .array [] => writes_scalar fmt rfl (fun _ => rfl) rfl rfl
  | .object [] => writes_scalar fmt rfl (fun _ => rfl) rfl rfl
  | .array (v :: elems) => by
    intro n stack
    have h := writesElems_cons fmt (writes v) (writesElems elems) n stack true
      (List.cons_ne_nil _ _)
    have hvalue : dumpValue fmt (.array (v :: elems)) stack =
        some ([91], .array (v :: elems) true :: stack) := rfl
    rw [hvalue, turns, allUtf8, serialize]
    simp only
    rw [h, emit_ite, emit_emit]
    rfl
  | .object ((key, v) :: entries) => by
    intro n stack
    have h := @writesEntries_cons fmt key v entries (writes v) (writesEntries entries) n stack
      true (List.cons_ne_nil _ _)
    have hvalue : dumpValue fmt (.object ((key, v) :: entries)) stack =
        some ([123], .object ((key, v) :: entries) true :: stack) := rfl
    rw [hvalue, turns, allUtf8, serialize]
    simp only
    rw [h, emit_ite, emit_emit]
    rfl

theorem writesElems : ∀ elems : List JsonValue, WritesElems fmt elems
  | [] => fun _ _ _ h => absurd rfl h
  | v :: elems => writesElems_cons fmt (writes v) (writesElems elems)

theorem writesEntries : ∀ entries : List (Bytes × JsonValue), WritesEntries fmt entries
  | [] => fun _ _ _ h => absurd rfl h
  | (_, v) :: entries => writesEntries_cons fmt (writes v) (writesEntries entries)

end

/-- **`dump_iteratively` writes the text of the value**, or throws when a string in it is
not well formed. -/
theorem dumpIteratively_eq (v : JsonValue) :
    dumpIteratively fmt v = if v.allUtf8 then some (serialize fmt v) else none := by
  have h := writes fmt v 0 []
  rw [Nat.add_zero] at h
  unfold dumpIteratively
  cases hvalue : dumpValue fmt v [] with
  | none =>
    rw [hvalue] at h
    simp only at h ⊢
    split_ifs at h with hutf8
    · cases h
    · rw [if_neg hutf8]
  | some r =>
    rw [hvalue] at h
    simp only at h ⊢
    have htext := congrArg (Option.map Prod.fst) h
    rw [emit, Option.map_map] at htext
    refine htext.trans ?_
    split
    · simp [emit, dumpTurns]
    · rfl

/-! ## The recursion writes the text -/

mutual

/-- **`dump_internal` writes the same text from any depth on**: where it hands over to the
loop cannot be told from what is written. -/
theorem dumpInternal_eq (depth : ℕ) : ∀ v : JsonValue,
    dumpInternal fmt depth v = if v.allUtf8 then some (serialize fmt v) else none
  | .null => rfl
  | .bool true => rfl
  | .bool false => rfl
  | .int _ => rfl
  | .uint _ => rfl
  | .float _ => rfl
  | .string s => by
    rw [dumpInternal, dumpQuoted_eq, allUtf8, serialize]
  | .array [] => by
    rw [dumpInternal, dumpIteratively_eq]
    exact if_pos rfl |>.symm ▸ ite_self _
  | .object [] => by
    rw [dumpInternal, dumpIteratively_eq]
    exact if_pos rfl |>.symm ▸ ite_self _
  | .array (v :: elems) => by
    rw [dumpInternal, dumpIteratively_eq]
    split
    · rfl
    · rw [dumpElems_eq (depth + 1) (v :: elems), allUtf8, serialize]
      split
      · rfl
      · rfl
  | .object (e :: entries) => by
    rw [dumpInternal, dumpIteratively_eq]
    split
    · rfl
    · rw [dumpEntries_eq (depth + 1) (e :: entries), allUtf8, serialize]
      split
      · rfl
      · rfl

theorem dumpElems_eq (depth : ℕ) : ∀ elems : List JsonValue,
    dumpElems fmt depth elems =
      if allUtf8Elems elems then some (serializeElems fmt elems) else none
  | [] => rfl
  | v :: elems => by
    rw [dumpElems, dumpInternal_eq depth v, dumpElems_eq depth elems, allUtf8Elems, serializeElems]
    cases hv : v.allUtf8 with
    | false => simp
    | true =>
      cases elems with
      | nil => simp [allUtf8Elems]
      | cons w elems => cases allUtf8Elems (w :: elems) <;> simp

theorem dumpEntries_eq (depth : ℕ) : ∀ entries : List (Bytes × JsonValue),
    dumpEntries fmt depth entries =
      if allUtf8Entries entries then some (serializeEntries fmt entries) else none
  | [] => rfl
  | (key, v) :: entries => by
    rw [dumpEntries, dumpQuoted_eq, dumpInternal_eq depth v, dumpEntries_eq depth entries,
      allUtf8Entries, serializeEntries]
    cases hkey : isValidUtf8 key with
    | false => simp
    | true =>
      cases hv : v.allUtf8 with
      | false => simp
      | true =>
        cases entries with
        | nil => simp [allUtf8Entries]
        | cons e entries => cases allUtf8Entries (e :: entries) <;> simp

end

end Serializer
end HttpDataDiod
