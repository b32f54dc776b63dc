import HttpDataDiod.Json.Parser

/-!
# The grammar

The grammar of JSON over tokens, with the value of each phrase, and the parser as its
recogniser: the loop with its two stacks accepts exactly the sequences of tokens that the
grammar derives, and gives their values.

* `Derives`: the grammar.  Of members with the same key the last one stands.
* `Opened`: what the parser has read of the containers that are open; `Reads` is the
  invariant of the loop, `reads_step` its step.
* `reaches_of_derives`: the loop reads a phrase.
* `parseText_eq_value_iff`: what `json::parse` accepts.
-/

namespace HttpDataDiod

open ByteText Lexer

namespace SaxParser

mutual

/-- The tokens of a value. -/
inductive Derives : List Token → JsonValue → Prop where
  | null : Derives [.literalNull] .null
  | true : Derives [.literalTrue] (.bool true)
  | false : Derives [.literalFalse] (.bool false)
  | unsigned (n : ℕ) : Derives [.unsigned n] (.uint n)
  | integer (n : ℤ) : Derives [.integer n] (.int n)
  | float {bits : UInt64} : Binary64.isFinite bits = Bool.true → Derives [.float bits] (.float bits)
  | string (s : Bytes) : Derives [.string s] (.string s)
  | emptyArray : Derives [.beginArray, .endArray] (.array [])
  | array {ts : List Token} {vs : List JsonValue} :
      DerivesElems ts vs → Derives (.beginArray :: ts ++ [.endArray]) (.array vs)
  | emptyObject : Derives [.beginObject, .endObject] (.object [])
  | object {ts : List Token} {pairs : List (Bytes × JsonValue)} :
      DerivesMembers ts pairs →
      Derives (.beginObject :: ts ++ [.endObject]) (JsonValue.objectOf pairs)

/-- The tokens of the elements of an array, at least one. -/
inductive DerivesElems : List Token → List JsonValue → Prop where
  | one {ts : List Token} {v : JsonValue} : Derives ts v → DerivesElems ts [v]
  | cons {ts ts' : List Token} {v : JsonValue} {vs : List JsonValue} :
      Derives ts v → DerivesElems ts' vs → DerivesElems (ts ++ .valueSeparator :: ts') (v :: vs)

/-- The tokens of the members of an object, at least one. -/
inductive DerivesMembers : List Token → List (Bytes × JsonValue) → Prop where
  | one {ts : List Token} {v : JsonValue} (key : Bytes) :
      Derives ts v → DerivesMembers (.string key :: .nameSeparator :: ts) [(key, v)]
  | cons {ts ts' : List Token} {v : JsonValue} {pairs : List (Bytes × JsonValue)} (key : Bytes) :
      Derives ts v → DerivesMembers ts' pairs →
      DerivesMembers (.string key :: .nameSeparator :: ts ++ .valueSeparator :: ts')
        ((key, v) :: pairs)

end

/-- An element at the end. -/
theorem DerivesElems.concat {ts ts' : List Token} {vs : List JsonValue} {v : JsonValue}
    (h : DerivesElems ts vs) (hv : Derives ts' v) :
    DerivesElems (ts ++ .valueSeparator :: ts') (vs ++ [v]) := by
  match h with
  | .one hw => exact .cons hw (.one hv)
  | .cons hw hws =>
    rw [List.append_assoc, List.cons_append, List.cons_append]
    exact .cons hw (hws.concat hv)

/-- A member at the end. -/
theorem DerivesMembers.concat {ts ts' : List Token} {pairs : List (Bytes × JsonValue)}
    {key : Bytes} {v : JsonValue} (h : DerivesMembers ts pairs) (hv : Derives ts' v) :
    DerivesMembers (ts ++ .valueSeparator :: .string key :: .nameSeparator :: ts')
      (pairs ++ [(key, v)]) := by
  match h with
  | .one k hw => exact .cons k hw (.one key hv)
  | .cons k hw hws =>
    rw [List.append_assoc, List.cons_append, List.cons_append]
    exact .cons k hw (hws.concat hv)

/-! ## What the parser has read -/

/-- The tokens read so far of the open containers, up to where a value comes next. -/
inductive Opened : List Frame → List Bool → List Token → Prop where
  | nil : Opened [] [] []
  | array {frames : List Frame} {states : List Bool} {ts : List Token} :
      Opened frames states ts → Opened (.array [] :: frames) (true :: states) (ts ++ [.beginArray])
  | elems {frames : List Frame} {states : List Bool} {ts es : List Token} {vs : List JsonValue} :
      Opened frames states ts → DerivesElems es vs →
      Opened (.array vs :: frames) (true :: states)
        (ts ++ .beginArray :: (es ++ [.valueSeparator]))
  | object {frames : List Frame} {states : List Bool} {ts : List Token} (key : Bytes) :
      Opened frames states ts →
      Opened (.object [] key :: frames) (false :: states)
        (ts ++ [.beginObject, .string key, .nameSeparator])
  | members {frames : List Frame} {states : List Bool} {ts ms : List Token}
      {pairs : List (Bytes × JsonValue)} (key : Bytes) :
      Opened frames states ts → DerivesMembers ms pairs →
      Opened (.object (JsonValue.assign [] pairs) key :: frames) (false :: states)
        (ts ++ .beginObject :: (ms ++ [.valueSeparator, .string key, .nameSeparator]))

/-- The tokens read so far, up to the end of a value. -/
inductive Complete : Dom → List Bool → List Token → Prop where
  | root {ts : List Token} {v : JsonValue} : Derives ts v → Complete ⟨[], v⟩ [] ts
  | array {frames : List Frame} {states : List Bool} {ts es : List Token} {vs : List JsonValue}
      (root : JsonValue) : Opened frames states ts → DerivesElems es vs →
      Complete ⟨.array vs :: frames, root⟩ (true :: states) (ts ++ .beginArray :: es)
  | object {frames : List Frame} {states : List Bool} {ts ms : List Token}
      {pairs : List (Bytes × JsonValue)} (root : JsonValue) (key : Bytes) :
      Opened frames states ts → DerivesMembers ms pairs →
      Complete ⟨.object (JsonValue.assign [] pairs) key :: frames, root⟩ (false :: states)
        (ts ++ .beginObject :: ms)

/-- **A value is put where it belongs.** -/
theorem complete_handleValue {frames : List Frame} {states : List Bool} {ts us : List Token}
    {v : JsonValue} (root : JsonValue) (h : Opened frames states ts) (hv : Derives us v) :
    Complete (Dom.handleValue v ⟨frames, root⟩) states (ts ++ us) := by
  cases h with
  | nil => exact .root hv
  | array hopened =>
    rw [List.append_assoc]
    exact .array root hopened (.one hv)
  | elems hopened helems =>
    rw [List.append_assoc, List.cons_append, List.append_assoc]
    exact .array root hopened (helems.concat hv)
  | object key hopened =>
    rw [List.append_assoc]
    exact .object root key hopened (.one key hv)
  | @members frames states ts ms pairs key hopened hmembers =>
    have hassign : JsonValue.setEntry key v (JsonValue.assign [] pairs) =
        JsonValue.assign [] (pairs ++ [(key, v)]) := by
      rw [JsonValue.assign, JsonValue.assign, List.foldl_append]
      rfl
    rw [List.append_assoc, List.cons_append, List.append_assoc]
    simp only [Dom.handleValue, hassign]
    exact .object root key hopened (hmembers.concat hv)

variable (fmt : FloatText)

/-- **The invariant of the loop**: the tokens read so far, from the beginning of the text
on, are those of the containers that are open and of what they hold. -/
def Reads (s : Bytes) : Turn → Prop
  | .parse lastToken p => ∃ ts mid, Opened p.dom.frames p.states ts ∧ Lexes fmt s ts mid ∧
      scan fmt mid = (lastToken, p.input)
  | .evaluate p => ∃ ts, Complete p.dom p.states ts ∧ Lexes fmt s ts p.input
  | .done p => ∃ ts, Derives ts p.dom.root ∧ Lexes fmt s ts p.input
  | .failed _ => True

variable {fmt}

theorem reads_scalar {s mid : Bytes} {ts : List Token} {token : Token} {p : State}
    (hopened : Opened p.dom.frames p.states ts) (hlexes : Lexes fmt s ts mid)
    (hscan : scan fmt mid = (token, p.input)) {v : JsonValue} (hv : Derives [token] v) :
    Reads fmt s (scalar v p) :=
  ⟨ts ++ [token], complete_handleValue p.dom.root hopened hv, hlexes.concat hscan⟩

/-- A key goes into the innermost object. -/
theorem reads_parseKey {s : Bytes} {p : State} {lastToken : Token} {states : List Bool}
    {ts : List Token} {mid : Bytes} (hlexes : Lexes fmt s ts mid)
    (hscan : scan fmt mid = (lastToken, p.input))
    (hopened : ∀ k, Opened (p.dom.key k).frames states (ts ++ [.string k, .nameSeparator])) :
    Reads fmt s (parseKey fmt lastToken p states) := by
  unfold parseKey
  split
  · rename_i k
    simp only
    split
    · rename_i hseparator
      refine ⟨ts ++ [.string k, .nameSeparator], _, hopened k, ?_, rfl⟩
      exact hlexes.append (.cons hscan (.cons (Prod.ext hseparator rfl) (.nil _)))
    · trivial
  · trivial

/-- The value of a container that is closed. -/
theorem complete_endContainer {frames : List Frame} {states : List Bool} {ts us : List Token}
    {v : JsonValue} {frame : Frame} (root : JsonValue) (h : Opened frames states ts)
    (hv : Derives us v)
    (hframe : frame = .array [] ∧ v = .array [] ∨ (∃ vs, frame = .array vs ∧ v = .array vs) ∨
      ∃ entries key, frame = .object entries key ∧ v = .object entries) :
    Complete (Dom.endContainer ⟨frame :: frames, root⟩) states (ts ++ us) := by
  rcases hframe with ⟨rfl, rfl⟩ | ⟨vs, rfl, rfl⟩ | ⟨entries, key, rfl, rfl⟩
  · exact complete_handleValue root h hv
  · exact complete_handleValue root h hv
  · exact complete_handleValue root h hv

theorem reads_parseValue {s : Bytes} {lastToken : Token} {p : State}
    (h : Reads fmt s (.parse lastToken p)) : Reads fmt s (parseValue fmt lastToken p) := by
  obtain ⟨ts, mid, hopened, hlexes, hscan⟩ := h
  cases lastToken with
  | literalTrue => exact reads_scalar hopened hlexes hscan .true
  | literalFalse => exact reads_scalar hopened hlexes hscan .false
  | literalNull => exact reads_scalar hopened hlexes hscan .null
  | string t => exact reads_scalar hopened hlexes hscan (.string t)
  | unsigned n => exact reads_scalar hopened hlexes hscan (.unsigned n)
  | integer n => exact reads_scalar hopened hlexes hscan (.integer n)
  | float bits =>
    rw [parseValue_float]
    split
    · rename_i hfinite
      exact reads_scalar hopened hlexes hscan (.float hfinite)
    · trivial
  | beginArray =>
    rw [parseValue_beginArray]
    split
    · rename_i hend
      refine ⟨ts ++ [.beginArray, .endArray], ?_, ?_⟩
      · exact complete_endContainer p.dom.root hopened .emptyArray (.inl ⟨rfl, rfl⟩)
      · exact hlexes.append (.cons hscan (.cons (Prod.ext hend rfl) (.nil _)))
    · exact ⟨ts ++ [Token.beginArray], p.input, .array hopened, hlexes.concat hscan, rfl⟩
  | beginObject =>
    rw [parseValue_beginObject]
    split
    · rename_i hend
      refine ⟨ts ++ [.beginObject, .endObject], ?_, ?_⟩
      · exact complete_endContainer p.dom.root hopened .emptyObject
          (.inr (.inr ⟨[], [], rfl, rfl⟩))
      · exact hlexes.append (.cons hscan (.cons (Prod.ext hend rfl) (.nil _)))
    · refine reads_parseKey (hlexes.concat hscan) rfl fun k => ?_
      rw [List.append_assoc]
      exact .object k hopened
  | endArray => trivial
  | endObject => trivial
  | nameSeparator => trivial
  | valueSeparator => trivial
  | parseError => trivial
  | endOfInput => trivial

theorem reads_evaluateState {s : Bytes} {p : State} (h : Reads fmt s (.evaluate p)) :
    Reads fmt s (evaluateState fmt p) := by
  obtain ⟨ts, hcomplete, hlexes⟩ := h
  obtain ⟨input, states, dom⟩ := p
  cases hcomplete with
  | root hv => exact ⟨ts, hv, hlexes⟩
  | @array frames states ts es vs root hopened helems =>
    simp only [evaluateState]
    split
    · rename_i hseparator
      refine ⟨_, _, .elems hopened helems, ?_, rfl⟩
      have hmore := hlexes.concat (Prod.ext hseparator rfl)
      rwa [List.append_assoc, List.cons_append] at hmore
    · split
      · rename_i hend
        refine ⟨ts ++ (.beginArray :: es ++ [.endArray]), ?_, ?_⟩
        · exact complete_endContainer root hopened (.array helems) (.inr (.inl ⟨vs, rfl, rfl⟩))
        · have hmore := hlexes.concat (Prod.ext hend rfl)
          rwa [List.append_assoc] at hmore
      · trivial
  | @object frames states ts ms pairs root key hopened hmembers =>
    simp only [evaluateState]
    split
    · rename_i hseparator
      have hmore := hlexes.concat (Prod.ext hseparator rfl)
      rw [List.append_assoc, List.cons_append] at hmore
      refine reads_parseKey hmore rfl fun k => ?_
      rw [List.append_assoc, List.cons_append, List.append_assoc]
      exact .members k hopened hmembers
    · split
      · rename_i hend
        refine ⟨ts ++ (.beginObject :: ms ++ [.endObject]), ?_, ?_⟩
        · exact complete_endContainer root hopened (.object hmembers)
            (.inr (.inr ⟨_, key, rfl, rfl⟩))
        · have hmore := hlexes.concat (Prod.ext hend rfl)
          rwa [List.append_assoc] at hmore
      · trivial

/-- **One turn keeps the invariant.** -/
theorem reads_step {s : Bytes} {t : Turn} (h : Reads fmt s t) : Reads fmt s (step fmt t) := by
  cases t with
  | parse lastToken p => exact reads_parseValue h
  | evaluate p => exact reads_evaluateState h
  | done p => exact h
  | failed f => exact h

/-- **All turns keep it.** -/
theorem reads_run {s : Bytes} (n : ℕ) {t : Turn} (h : Reads fmt s t) :
    Reads fmt s (run fmt n t) := by
  induction n generalizing t with
  | zero => exact h
  | succ n ih => exact ih (reads_step h)

/-! ## Reading a phrase -/

/-- Some turns lead from one state of the loop to another. -/
def Reaches (fmt : FloatText) (t t' : Turn) : Prop := ∃ n, run fmt n t = t'

theorem Reaches.refl (t : Turn) : Reaches fmt t t := ⟨0, rfl⟩

theorem Reaches.trans {t t' t'' : Turn} (h : Reaches fmt t t') (h' : Reaches fmt t' t'') :
    Reaches fmt t t'' := by
  obtain ⟨m, hm⟩ := h
  obtain ⟨n, hn⟩ := h'
  exact ⟨m + n, by rw [run_add, hm, hn]⟩

theorem Reaches.head {t t' : Turn} (h : Reaches fmt (step fmt t) t') : Reaches fmt t t' := by
  obtain ⟨n, hn⟩ := h
  exact ⟨n + 1, hn⟩

/-- The loop reads the tokens as a value, from any state of its stacks on. -/
def ReadsValue (fmt : FloatText) (ts : List Token) (v : JsonValue) : Prop :=
  ∀ s rest states dom, Lexes fmt s ts rest →
    Reaches fmt (.parse (scan fmt s).1 ⟨(scan fmt s).2, states, dom⟩)
      (.evaluate ⟨rest, states, dom.handleValue v⟩)

/-- The loop reads the tokens as elements of the array that is open. -/
def ReadsElems (fmt : FloatText) (ts : List Token) (vs : List JsonValue) : Prop :=
  ∀ s rest states frames root before, Lexes fmt s ts rest →
    Reaches fmt
      (.parse (scan fmt s).1 ⟨(scan fmt s).2, true :: states, ⟨.array before :: frames, root⟩⟩)
      (.evaluate ⟨rest, true :: states, ⟨.array (before ++ vs) :: frames, root⟩⟩)

/-- The loop reads the tokens as members of the object that is open. -/
def ReadsMembers (fmt : FloatText) (ts : List Token) (pairs : List (Bytes × JsonValue)) : Prop :=
  ∀ s rest states frames root before key, Lexes fmt s ts rest →
    ∃ key', Reaches fmt
      (parseKey fmt (scan fmt s).1
        ⟨(scan fmt s).2, false :: states, ⟨.object before key :: frames, root⟩⟩ (false :: states))
      (.evaluate ⟨rest, false :: states,
        ⟨.object (JsonValue.assign before pairs) key' :: frames, root⟩⟩)

theorem readsValue_scalar {token : Token} {v : JsonValue}
    (h : ∀ p, parseValue fmt token p = scalar v p) : ReadsValue fmt [token] v := by
  intro s rest states dom hlexes
  cases hlexes with
  | cons hscan hnil =>
    cases hnil
    rw [hscan]
    refine .head ?_
    simp only [step, h]
    exact .refl _

/-- The token behind a value of a container. -/
theorem scan_of_lexes {s rest : Bytes} {token : Token} (h : Lexes fmt s [token] rest) :
    scan fmt s = (token, rest) := by
  cases h with
  | cons hscan hnil =>
    cases hnil
    exact hscan

theorem first_of_derives {ts : List Token} {v : JsonValue} (h : Derives ts v) :
    ∃ token us, ts = token :: us ∧ token ≠ .endArray ∧ token ≠ .parseError := by
  cases h with
  | null => exact ⟨_, _, rfl, by simp⟩
  | true => exact ⟨_, _, rfl, by simp⟩
  | false => exact ⟨_, _, rfl, by simp⟩
  | unsigned n => exact ⟨_, _, rfl, by simp⟩
  | integer n => exact ⟨_, _, rfl, by simp⟩
  | float hfinite => exact ⟨_, _, rfl, by simp⟩
  | string t => exact ⟨_, _, rfl, by simp⟩
  | emptyArray => exact ⟨_, _, rfl, by simp⟩
  | array helems => exact ⟨_, _, rfl, by simp⟩
  | emptyObject => exact ⟨_, _, rfl, by simp⟩
  | object hmembers => exact ⟨_, _, rfl, by simp⟩

theorem first_of_derivesElems {ts : List Token} {vs : List JsonValue} (h : DerivesElems ts vs) :
    ∃ token us, ts = token :: us ∧ token ≠ .endArray := by
  cases h with
  | one hv =>
    obtain ⟨token, us, rfl, hne, -⟩ := first_of_derives hv
    exact ⟨token, us, rfl, hne⟩
  | cons hv hvs =>
    obtain ⟨token, us, rfl, hne, -⟩ := first_of_derives hv
    exact ⟨token, _, rfl, hne⟩

theorem first_of_derivesMembers {ts : List Token} {pairs : List (Bytes × JsonValue)}
    (h : DerivesMembers ts pairs) : ∃ key us, ts = .string key :: us := by
  cases h with
  | one key hv => exact ⟨key, _, rfl⟩
  | cons key hv hvs => exact ⟨key, _, rfl⟩

/-- A key, its separator, and the value behind them. -/
theorem reaches_parseKey {s rest : Bytes} {ts : List Token} {v : JsonValue} {key : Bytes}
    (hv : ReadsValue fmt ts v) (states : List Bool) (frames : List Frame) (root : JsonValue)
    (before : List (Bytes × JsonValue)) (key' : Bytes) (states' : List Bool)
    (h : Lexes fmt s (.string key :: .nameSeparator :: ts) rest) :
    Reaches fmt
      (parseKey fmt (scan fmt s).1 ⟨(scan fmt s).2, states', ⟨.object before key' :: frames, root⟩⟩
        states)
      (.evaluate ⟨rest, states,
        ⟨.object (JsonValue.setEntry key v before) key :: frames, root⟩⟩) := by
  cases h with
  | cons hkey h =>
    cases h with
    | cons hseparator h =>
      rw [hkey]
      simp only [parseKey, hseparator, if_pos]
      exact hv _ rest states _ h

/-- **The end of a container.** -/
theorem reaches_close_array {s rest : Bytes} (states : List Bool) (frames : List Frame)
    (root : JsonValue) (vs : List JsonValue) (h : Lexes fmt s [.endArray] rest) :
    Reaches fmt (.evaluate ⟨s, true :: states, ⟨.array vs :: frames, root⟩⟩)
      (.evaluate ⟨rest, states, Dom.handleValue (.array vs) ⟨frames, root⟩⟩) := by
  refine .head ?_
  simp only [step, evaluateState, scan_of_lexes h, reduceCtorEq, if_false, if_true]
  exact .refl _

theorem reaches_close_object {s rest : Bytes} (states : List Bool) (frames : List Frame)
    (root : JsonValue) (entries : List (Bytes × JsonValue)) (key : Bytes)
    (h : Lexes fmt s [.endObject] rest) :
    Reaches fmt (.evaluate ⟨s, false :: states, ⟨.object entries key :: frames, root⟩⟩)
      (.evaluate ⟨rest, states, Dom.handleValue (.object entries) ⟨frames, root⟩⟩) := by
  refine .head ?_
  simp only [step, evaluateState, scan_of_lexes h, reduceCtorEq, if_false, if_true]
  exact .refl _

mutual

/-- **The loop reads every phrase of the grammar**, by induction on its derivation. -/
theorem reaches_of_derives {ts : List Token} {v : JsonValue} (h : Derives ts v) :
    ReadsValue fmt ts v := by
  match h with
  | .null => exact readsValue_scalar fun p => rfl
  | .true => exact readsValue_scalar fun p => rfl
  | .false => exact readsValue_scalar fun p => rfl
  | .unsigned n => exact readsValue_scalar fun p => rfl
  | .integer n => exact readsValue_scalar fun p => rfl
  | .float hfinite =>
    exact readsValue_scalar fun p => by rw [parseValue_float, if_pos hfinite]
  | .string s => exact readsValue_scalar fun p => rfl
  | .emptyArray =>
    intro s rest states dom hlexes
    cases hlexes with
    | cons hscan h =>
      rw [hscan]
      refine .head ?_
      simp only [step, parseValue_beginArray, scan_of_lexes h, if_true]
      exact .refl _
  | .emptyObject =>
    intro s rest states dom hlexes
    cases hlexes with
    | cons hscan h =>
      rw [hscan]
      refine .head ?_
      simp only [step, parseValue_beginObject, scan_of_lexes h, if_true]
      exact .refl _
  | @Derives.array ts vs helems =>
    intro s rest states dom hlexes
    rw [List.cons_append] at hlexes
    cases hlexes with
    | @cons _ s' _ _ _ hscan h =>
      obtain ⟨mid, helemsLexes, hend⟩ := h.exists_of_append
      have hread := reaches_of_derivesElems helems s' mid states dom.frames dom.root []
        helemsLexes
      obtain ⟨token, us, rfl, hne⟩ := first_of_derivesElems helems
      rw [hscan]
      refine .head ?_
      cases helemsLexes with
      | cons hfirst _ =>
        simp only [step, parseValue_beginArray, hfirst, if_neg hne]
        rw [hfirst] at hread
        exact hread.trans (reaches_close_array states dom.frames dom.root vs hend)
  | @Derives.object ts pairs hmembers =>
    intro s rest states dom hlexes
    rw [List.cons_append] at hlexes
    cases hlexes with
    | @cons _ s' _ _ _ hscan h =>
      obtain ⟨mid, hmembersLexes, hend⟩ := h.exists_of_append
      obtain ⟨key', hread⟩ := reaches_of_derivesMembers hmembers s' mid states
        dom.frames dom.root [] [] hmembersLexes
      obtain ⟨key, us, rfl⟩ := first_of_derivesMembers hmembers
      rw [hscan]
      refine .head ?_
      cases hmembersLexes with
      | cons hfirst _ =>
        simp only [step, parseValue_beginObject, hfirst, reduceCtorEq, if_false]
        rw [hfirst] at hread
        exact hread.trans (reaches_close_object states dom.frames dom.root _ key' hend)

theorem reaches_of_derivesElems {ts : List Token} {vs : List JsonValue} (h : DerivesElems ts vs) :
    ReadsElems fmt ts vs := by
  match h with
  | .one hv =>
    intro s rest states frames root before hlexes
    exact reaches_of_derives hv s rest _ _ hlexes
  | @DerivesElems.cons ts ts' v vs hv hvs =>
    intro s rest states frames root before hlexes
    obtain ⟨mid, hfirst, hmore⟩ := hlexes.exists_of_append
    have hread := reaches_of_derives hv s mid (true :: states)
      ⟨.array before :: frames, root⟩ hfirst
    refine hread.trans ?_
    cases hmore with
    | @cons _ s' _ _ _ hscan hmore =>
      have hrest := reaches_of_derivesElems hvs s' rest states frames root
        (before ++ [v]) hmore
      rw [List.append_assoc] at hrest
      refine .head ?_
      simp only [step, evaluateState, hscan, if_true, Dom.handleValue]
      exact hrest

theorem reaches_of_derivesMembers {ts : List Token} {pairs : List (Bytes × JsonValue)}
    (h : DerivesMembers ts pairs) : ReadsMembers fmt ts pairs := by
  match h with
  | .one key hv =>
    intro s rest states frames root before key' hlexes
    exact ⟨key, reaches_parseKey (reaches_of_derives hv) _ frames root before key' _ hlexes⟩
  | @DerivesMembers.cons ts ts' v pairs key hv hvs =>
    intro s rest states frames root before key' hlexes
    obtain ⟨mid, hfirst, hmore⟩ := hlexes.exists_of_append
    have hread := reaches_parseKey (reaches_of_derives hv) (false :: states) frames root
      before key' (false :: states) hfirst
    cases hmore with
    | @cons _ s' _ _ _ hscan hmore =>
      obtain ⟨key'', hrest⟩ := reaches_of_derivesMembers hvs s' rest states frames root
        (JsonValue.setEntry key v before) key hmore
      refine ⟨key'', hread.trans (.head ?_)⟩
      simp only [step, evaluateState, hscan, if_true]
      exact hrest

end

/-! ## The whole text -/

variable (fmt)

/-- The texts of the language, with their values: behind the byte order mark, if there is
one, stand the tokens of a value, and behind them the input ends. -/
def IsText (text : Bytes) (j : JsonValue) : Prop :=
  ∃ s ts rest, skipBom text = some s ∧ Lexes fmt s ts rest ∧ Derives ts j ∧
    (scan fmt rest).1 = .endOfInput

theorem reads_start {text s : Bytes} (h : skipBom text = some s) :
    Reads fmt s (start fmt text) := by
  simp only [start, h]
  exact ⟨[], s, .nil, .nil s, rfl⟩

/-- The loop ends in the state that it reaches, when that is an end. -/
theorem run_turnLimit_of_reaches {text : Bytes} {t : Turn} (h : Reaches fmt (start fmt text) t)
    (hfinal : t.Final) : run fmt (turnLimit text) (start fmt text) = t := by
  obtain ⟨n, hn⟩ := h
  have hlimit := final_run fmt text
  have hmore : run fmt (turnLimit text + n) (start fmt text) =
      run fmt (turnLimit text) (start fmt text) := by
    rw [run_add, run_of_final fmt hlimit]
  have hmore' : run fmt (n + turnLimit text) (start fmt text) = t := by
    rw [run_add, hn, run_of_final fmt hfinal]
  rw [← hmore, Nat.add_comm, hmore']

/-- **What `json::parse` accepts.**  It gives a value exactly on the texts of the language,
and then it is the value of the text. -/
theorem parseText_eq_value_iff (text : Bytes) (j : JsonValue) :
    parseText fmt text = .value j ↔ IsText fmt text j := by
  constructor
  · intro h
    cases hbom : skipBom text with
    | none =>
      have hstart : start fmt text = .failed .parseError := by simp only [start, hbom]
      rw [parseText, hstart, run_of_final fmt (show (Turn.failed .parseError).Final from trivial)]
        at h
      cases h
    | some s =>
      have hreads := reads_run (turnLimit text) (reads_start fmt hbom)
      unfold parseText at h
      split at h
      · rename_i p hrun
        rw [hrun] at hreads
        obtain ⟨ts, hderives, hlexes⟩ := hreads
        split_ifs at h with hend
        obtain rfl := Result.value.inj h
        exact ⟨s, ts, p.input, hbom, hlexes, hderives, hend⟩
      · cases h
      · cases h
  · rintro ⟨s, ts, rest, hbom, hlexes, hderives, hend⟩
    have hstart : start fmt text = .parse (scan fmt s).1 ⟨(scan fmt s).2, [], ⟨[], .null⟩⟩ := by
      simp only [start, hbom]
    have hread := reaches_of_derives hderives s rest [] ⟨[], .null⟩ hlexes
    rw [← hstart] at hread
    have hdone : Reaches fmt (start fmt text) (.done ⟨rest, [], ⟨[], j⟩⟩) :=
      hread.trans (.head (.refl _))
    rw [parseText, run_turnLimit_of_reaches fmt hdone trivial]
    exact if_pos hend

end SaxParser
end HttpDataDiod
