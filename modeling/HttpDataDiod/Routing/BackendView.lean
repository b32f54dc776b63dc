import HttpDataDiod.Routing.AllowedServer

/-!
# The path as the backend sees it

The policy compares literal segments, but the server behind it decodes the path before it
looks at its segments: `%2e%2e` passes the policy as a plain segment and climbs at the
backend, and so does a segment that `%2f` cuts in two.

* `decodePathComponent`: the decoder of `httplib`.
* `backendView`: a forwarded path up to the query, decoded, without dot segments.
* `staysBelow`: segments that never climb above where they start.
* `isPrefix_foldl_pushSegment_iff`: a stack of segments begins with a base exactly when some
  beginning of the segments leads to the base and the rest never climbs above it.
* `liesUnder_backendView_iff`: so it is for the path that the backend sees.
* `staysUnder_of_plain`: for a base without escapes it is enough that what stands behind the
  base never climbs.
-/

namespace HttpDataDiod
namespace Routing

open ByteText

/-! ## The decoder -/

/-- `is_hex`. -/
def hexValue (c : UInt8) : Option ℕ :=
  if isDigit c then some (c.toNat - 48)
  else if 65 ≤ c ∧ c ≤ 70 then some (c.toNat - 55)
  else if 97 ≤ c ∧ c ≤ 102 then some (c.toNat - 87)
  else none

/-- The loop of `from_hex_to_i`. -/
def fromHexLoop : ℕ → ℕ → Bytes → Option ℕ
  | 0, val, _ => some val
  | _ + 1, _, [] => none
  | cnt + 1, val, c :: s => (hexValue c).bind fun v => fromHexLoop cnt (val * 16 + v) s

/-- `from_hex_to_i`. -/
def fromHexToI (cnt : ℕ) (s : Bytes) : Option ℕ := fromHexLoop cnt 0 s

/-- `to_utf8`, for the codes that four digits can have; a surrogate has no bytes. -/
def toUtf8 (code : ℕ) : Bytes :=
  if code < 0x80 then [UInt8.ofNat code]
  else if code < 0x800 then [UInt8.ofNat (0xC0 + code / 64), UInt8.ofNat (0x80 + code % 64)]
  else if 0xD800 ≤ code ∧ code < 0xE000 then []
  else [UInt8.ofNat (0xE0 + code / 4096), UInt8.ofNat (0x80 + code / 64 % 64),
    UInt8.ofNat (0x80 + code % 64)]

/-- What is read at a byte: the decoded bytes, and how many bytes behind it are used up. -/
def readEscape (c : UInt8) (s : Bytes) : Bytes × ℕ :=
  if c = 37 then
    match s with
    | [] => ([c], 0)
    | d :: rest =>
      if d = 117 then
        match fromHexToI 4 rest with
        | some code => if toUtf8 code = [] then ([c], 0) else (toUtf8 code, 5)
        | none => ([c], 0)
      else
        match fromHexToI 2 s with
        | some val => ([UInt8.ofNat val], 2)
        | none => ([c], 0)
  else ([c], 0)

/-- The loop of `decode_path_component`, with the number of bytes to pass over. -/
def decodeFrom : ℕ → Bytes → Bytes
  | _, [] => []
  | skip + 1, _ :: s => decodeFrom skip s
  | 0, c :: s => (readEscape c s).1 ++ decodeFrom (readEscape c s).2 s

/-- `decode_path_component`. -/
def decodePathComponent (component : Bytes) : Bytes := decodeFrom 0 component

example : decodePathComponent (ascii "/a%2fb%u002e%zz%") = ascii "/a/b.%zz%" := by decide

/-! ## The view of the backend -/

/-- The path of a request target, decoded. -/
def decodedTarget (target : Bytes) : Bytes := decodePathComponent (target.takeWhile (· ≠ 63))

/-- The path that the backend sees in a request target. -/
def backendView (target : Bytes) : Bytes := canonicalizePath (decodedTarget target)

/-- The segments of the decoded path. -/
def decodedSegments (target : Bytes) : List Bytes :=
  (afterSlash (decodedTarget target)).splitOn 47

/-- Segments that never climb above where they start, from some segments below it. -/
def staysBelow : ℕ → List Bytes → Bool
  | _, [] => true
  | depth, segment :: rest =>
    if segment = [] ∨ segment = ascii "." then staysBelow depth rest
    else if segment = ascii ".." then 0 < depth && staysBelow (depth - 1) rest
    else staysBelow (depth + 1) rest

/-- **The condition on a path under a base.**  Some beginning of the decoded segments leads
to the base, and the rest never climbs above it. -/
def StaysUnder (basePath target : Bytes) : Prop :=
  ∃ segments rest, decodedSegments target = segments ++ rest ∧
    render (segments.foldl pushSegment []) = basePath ∧ staysBelow 0 rest = true

/-! ## A stack that keeps its base -/

theorem staysBelow_cons (depth : ℕ) (segment : Bytes) (rest : List Bytes) :
    staysBelow depth (segment :: rest) =
      if segment = [] ∨ segment = ascii "." then staysBelow depth rest
      else if segment = ascii ".." then 0 < depth && staysBelow (depth - 1) rest
      else staysBelow (depth + 1) rest := rfl

/-- Segments that stay below a base keep it. -/
theorem exists_foldl_of_staysBelow {base stack segments : List Bytes}
    (h : staysBelow stack.length segments = true) :
    ∃ stack', segments.foldl pushSegment (base ++ stack) = base ++ stack' := by
  induction segments generalizing stack with
  | nil => exact ⟨stack, rfl⟩
  | cons segment segments ih =>
    rw [List.foldl_cons]
    rw [staysBelow_cons] at h
    unfold pushSegment
    split at h
    · rename_i hskip
      rw [if_pos hskip]
      exact ih h
    · rename_i hskip
      rw [if_neg hskip]
      split at h
      · rename_i hdots
        obtain ⟨hdepth, hrest⟩ := Bool.and_eq_true_iff.mp h
        have hne : stack ≠ [] := List.ne_nil_of_length_pos (of_decide_eq_true hdepth)
        rw [if_pos hdots, List.dropLast_append_of_ne_nil hne]
        refine ih ?_
        rw [List.length_dropLast]
        exact hrest
      · rename_i hdots
        rw [if_neg hdots, List.append_assoc]
        refine ih ?_
        rw [List.length_append, List.length_singleton]
        exact h

/-- A stack that ends up above a base has been there all along, or has come to the base on
the way and stayed below it since. -/
theorem staysBelow_of_foldl {base : List Bytes} (hbase : base ≠ []) {stack segments : List Bytes}
    (h : base <+: segments.foldl pushSegment stack) :
    (∃ rest, stack = base ++ rest ∧ staysBelow rest.length segments = true) ∨
    ∃ before after, segments = before ++ after ∧ before.foldl pushSegment stack = base ∧
      staysBelow 0 after = true := by
  induction segments generalizing stack with
  | nil =>
    obtain ⟨rest, hrest⟩ := h
    exact Or.inl ⟨rest, hrest.symm, rfl⟩
  | cons segment segments ih =>
    rcases ih h with ⟨rest, hstack, hbelow⟩ | ⟨before, after, rfl, hbefore, hafter⟩
    · -- the base is there after this segment: was it there before?
      unfold pushSegment at hstack
      split at hstack
      · rename_i hskip
        exact Or.inl ⟨rest, hstack, by rw [staysBelow_cons, if_pos hskip]; exact hbelow⟩
      · rename_i hskip
        split at hstack
        · rename_i hdots
          have hne : stack ≠ [] := by
            rintro rfl
            obtain ⟨rfl, -⟩ := List.append_eq_nil_iff.mp hstack.symm
            exact hbase rfl
          refine Or.inl ⟨rest ++ [stack.getLast hne], ?_, ?_⟩
          · rw [← List.append_assoc, ← hstack, List.dropLast_append_getLast]
          · rw [staysBelow_cons, if_neg hskip, if_pos hdots, List.length_append,
              List.length_singleton]
            exact Bool.and_eq_true_iff.mpr ⟨decide_eq_true (Nat.succ_pos _), hbelow⟩
        · rename_i hdots
          rcases List.eq_nil_or_concat rest with rfl | ⟨rest', last, rfl⟩
          · -- this segment completes the base
            refine Or.inr ⟨[segment], segments, rfl, ?_, hbelow⟩
            rw [List.append_nil] at hstack
            rw [List.foldl_cons, List.foldl_nil, pushSegment, if_neg hskip, if_neg hdots, hstack]
          · rw [List.concat_eq_append, ← List.append_assoc] at hstack
            obtain ⟨hstack, -⟩ := List.append_inj' hstack rfl
            refine Or.inl ⟨rest', hstack, ?_⟩
            rw [staysBelow_cons, if_neg hskip, if_neg hdots]
            rw [List.concat_eq_append, List.length_append, List.length_singleton] at hbelow
            exact hbelow
    · exact Or.inr ⟨segment :: before, after, rfl, hbefore, hafter⟩

/-- **When a folded stack begins with a base.** -/
theorem isPrefix_foldl_pushSegment_iff {base : List Bytes} (hbase : base ≠ [])
    (segments : List Bytes) :
    base <+: segments.foldl pushSegment [] ↔
      ∃ before after, segments = before ++ after ∧ before.foldl pushSegment [] = base ∧
        staysBelow 0 after = true := by
  constructor
  · intro h
    rcases staysBelow_of_foldl hbase h with ⟨rest, hnil, -⟩ | hcut
    · exact absurd (List.append_eq_nil_iff.mp hnil.symm).1 hbase
    · exact hcut
  · rintro ⟨before, after, rfl, hbefore, hafter⟩
    rw [List.foldl_append, hbefore]
    obtain ⟨stack, hstack⟩ := @exists_foldl_of_staysBelow base [] after hafter
    rw [List.append_nil] at hstack
    rw [hstack]
    exact List.prefix_append base stack

/-! ## Lying under a base -/

/-- A rendered path that is not `/` has segments. -/
theorem ne_nil_of_render {segments : List Bytes} (h : render segments ≠ ascii "/") :
    segments ≠ [] := by
  rintro rfl
  exact h rfl

theorem render_ne_root {segments : List Bytes} (h : ∀ x ∈ segments, IsPlainSegment x)
    (hne : segments ≠ []) : render segments ≠ ascii "/" := by
  intro heq
  have hsplit := splitOn_render h hne
  rw [heq] at hsplit
  obtain rfl : [[]] = segments := (List.cons.inj hsplit).2
  exact (h [] List.mem_cons_self).ne_nil rfl

/-- A plain stack can be read off its text. -/
theorem render_inj {a b : List Bytes} (ha : ∀ x ∈ a, IsPlainSegment x)
    (hb : ∀ x ∈ b, IsPlainSegment x) (hne : b ≠ []) (h : render a = render b) : a = b := by
  have hpos : a ≠ [] := by
    refine ne_nil_of_render ?_
    rw [h]
    exact render_ne_root hb hne
  have hsplit := splitOn_render ha hpos
  rw [h, splitOn_render hb hne] at hsplit
  exact (List.cons.inj hsplit).2.symm

/-- **Lying under a base**, in terms of the segments. -/
theorem liesUnder_render_iff {base segments : List Bytes} (hb : ∀ x ∈ base, IsPlainSegment x)
    (hs : ∀ x ∈ segments, IsPlainSegment x) (hbase : base ≠ []) :
    LiesUnder (render base) (render segments) ↔ base <+: segments := by
  constructor
  · rintro (h | h | ⟨t, ht⟩)
    · exact absurd h (render_ne_root hb hbase)
    · rw [render_inj hs hb hbase h]
    · have hsplit : (render segments).splitOn 47 = [] :: (base ++ t.splitOn 47) := by
        rw [← ht, render_of_ne_nil hbase, List.append_assoc]
        exact splitOn_renderSegments_slash (y := []) hb List.not_mem_nil t
      by_cases hne : segments = []
      · -- the root has one segment, and the base would be one besides it
        have hrootSplit : (render []).splitOn 47 = [[], []] := rfl
        rw [hne, hrootSplit] at hsplit
        have hlength := congrArg List.length (List.cons.inj hsplit).2
        have hpos := List.length_pos_of_ne_nil hbase
        have hrest := List.length_pos_of_ne_nil (List.splitOn_ne_nil 47 t)
        rw [List.length_append, List.length_singleton] at hlength
        omega
      · rw [splitOn_render hs hne] at hsplit
        rw [(List.cons.inj hsplit).2]
        exact List.prefix_append base _
  · rintro ⟨rest, rfl⟩
    cases rest with
    | nil => exact Or.inr (Or.inl (by rw [List.append_nil]))
    | cons x rest =>
      refine Or.inr (Or.inr ⟨x ++ renderSegments rest, ?_⟩)
      rw [render_of_ne_nil hbase, render_of_ne_nil (List.append_ne_nil_of_left_ne_nil hbase _)]
      simp [renderSegments]

/-! ## The policy at the backend -/

/-- **The view of the backend lies under a base** exactly under the condition. -/
theorem liesUnder_backendView_iff {base : List Bytes} (hb : ∀ x ∈ base, IsPlainSegment x)
    (hbase : base ≠ []) (target : Bytes) :
    LiesUnder (render base) (backendView target) ↔ StaysUnder (render base) target := by
  have hview : backendView target = render ((decodedSegments target).foldl pushSegment []) :=
    canonicalizePath_eq_foldl_splitOn _
  have hslash : ∀ x ∈ decodedSegments target, 47 ∉ x := fun _ => slash_not_mem_of_mem_splitOn
  have hplain := isPlainSegment_foldl hslash (List.forall_mem_nil _)
  rw [hview, liesUnder_render_iff hb hplain hbase, isPrefix_foldl_pushSegment_iff hbase]
  refine exists_congr fun before => exists_congr fun after => and_congr_right fun hcut => ?_
  refine and_congr_left fun _ => ⟨fun h => by rw [h], fun h => ?_⟩
  have hbefore : ∀ x ∈ before, 47 ∉ x := fun x hx =>
    hslash x (by rw [hcut]; exact List.mem_append_left _ hx)
  exact render_inj (isPlainSegment_foldl hbefore (List.forall_mem_nil _)) hb hbase h

/-- **The policy at the backend.**  On a parsable server with a base, the path that is
forwarded is under the base for the backend, too, exactly when some beginning of the decoded
segments of the canonical path leads to the base and the rest never climbs above it. -/
theorem liesUnder_backend_iff (path u : Bytes) (parsed : ParsedUrl) (hu : parseUrl u = .ok parsed)
    (hbase : canonicalizePath parsed.path ≠ ascii "/") :
    ∃ forwarded, parseUrl (buildL2Url u path) = .ok forwarded ∧
      (LiesUnder (canonicalizePath parsed.path) (backendView forwarded.path) ↔
        StaysUnder (canonicalizePath parsed.path) (canonicalizePath path)) := by
  have hforwarded := parseUrl_buildL2Url hu path []
  rw [List.append_nil, List.append_nil] at hforwarded
  refine ⟨_, hforwarded, ?_⟩
  obtain ⟨base, hrender, hplain⟩ := canonicalizePath_eq_render parsed.path
  rw [hrender] at hbase ⊢
  exact liesUnder_backendView_iff hplain (ne_nil_of_render hbase) (canonicalizePath path)

theorem liesUnder_backend_at_api :
    ∃ forwarded, parseUrl (buildL2Url (ascii "http://l2:8080/api") (ascii "/api/%2e/v1?x")) =
        .ok forwarded ∧
      LiesUnder (ascii "/api") (backendView forwarded.path) := by
  have hparse : parseUrl (ascii "http://l2:8080/api") =
      .ok { host := ascii "l2", path := ascii "/api", port := 8080, isHttps := false } := rfl
  have hbase : canonicalizePath (ascii "/api") = ascii "/api" := by decide
  have hroot : ascii "/api" ≠ ascii "/" := by decide
  obtain ⟨forwarded, hforwarded, hiff⟩ :=
    liesUnder_backend_iff (ascii "/api/%2e/v1?x") _ _ hparse (by rw [hbase]; exact hroot)
  have hpath : canonicalizePath (ascii "/api/%2e/v1?x") = ascii "/api/%2e/v1?x" := by decide
  have hstays : StaysUnder (ascii "/api") (ascii "/api/%2e/v1?x") :=
    ⟨[ascii "api"], [ascii ".", ascii "v1"], by decide, by decide, by decide⟩
  rw [hbase, hpath] at hiff
  exact ⟨forwarded, hforwarded, hiff.mpr hstays⟩

/-- **An encoded alias** passes the policy, and the backend sees a path beside the base. -/
theorem not_liesUnder_backend_encoded_dots :
    findAllowedL2Server [ascii "http://l2:8080/api"] (ascii "/api/%2e%2e/admin") =
        some (ascii "http://l2:8080/api") ∧
      ¬ IsCommonPath (canonicalizePath (ascii "/api/%2e%2e/admin")) ∧
      (∃ forwarded, parseUrl (buildL2Url (ascii "http://l2:8080/api")
          (ascii "/api/%2e%2e/admin")) = .ok forwarded ∧
        backendView forwarded.path = ascii "/admin") ∧
      ¬ LiesUnder (ascii "/api") (ascii "/admin") := by
  refine ⟨by decide, by decide, ?_, ?_⟩
  · have hparse : parseUrl (ascii "http://l2:8080/api") =
        .ok { host := ascii "l2", path := ascii "/api", port := 8080, isHttps := false } := rfl
    refine ⟨_, parseUrl_buildL2Url hparse (ascii "/api/%2e%2e/admin") [], ?_⟩
    decide
  · rw [← matchesBase_iff]
    decide

/-! ## A base without escapes -/

theorem fromHexLoop_append (cnt val : ℕ) (a b : Bytes) :
    fromHexLoop cnt val (a ++ 47 :: b) = fromHexLoop cnt val a := by
  induction cnt generalizing val a with
  | zero => rfl
  | succ cnt ih =>
    cases a with
    | nil => rfl
    | cons c a =>
      show ((hexValue c).bind fun v => fromHexLoop cnt (val * 16 + v) (a ++ 47 :: b)) = _
      simp only [ih]
      rfl

theorem le_length_of_fromHexLoop {cnt val v : ℕ} {a : Bytes}
    (h : fromHexLoop cnt val a = some v) : cnt ≤ a.length := by
  induction cnt generalizing val a with
  | zero => exact Nat.zero_le _
  | succ cnt ih =>
    cases a with
    | nil => exact absurd h (by simp [fromHexLoop])
    | cons c a =>
      obtain ⟨w, -, hrest⟩ := Option.bind_eq_some_iff.mp h
      exact Nat.succ_le_succ (ih hrest)

/-- No escape reaches over a slash. -/
theorem readEscape_append (c : UInt8) (a b : Bytes) :
    readEscape c (a ++ 47 :: b) = readEscape c a := by
  unfold readEscape
  split
  · cases a with
    | nil => rfl
    | cons d a =>
      have hfour : fromHexToI 4 (a ++ 47 :: b) = fromHexToI 4 a := fromHexLoop_append 4 0 a b
      have htwo : fromHexToI 2 (d :: (a ++ 47 :: b)) = fromHexToI 2 (d :: a) :=
        fromHexLoop_append 2 0 (d :: a) b
      simp only [List.cons_append, hfour, htwo]
  · rfl

theorem readEscape_le (c : UInt8) (a : Bytes) : (readEscape c a).2 ≤ a.length := by
  unfold readEscape
  split
  · cases a with
    | nil => exact Nat.le_refl 0
    | cons d a =>
      dsimp only
      split
      · split
        · rename_i code hcode
          have hlength := le_length_of_fromHexLoop hcode
          split
          · exact Nat.zero_le _
          · rw [List.length_cons]
            omega
        · exact Nat.zero_le _
      · split
        · rename_i val hval
          exact le_length_of_fromHexLoop hval
        · exact Nat.zero_le _
  · exact Nat.zero_le _

/-- **The decoder works segment by segment.** -/
theorem decodeFrom_append {skip : ℕ} {a : Bytes} (hskip : skip ≤ a.length) (b : Bytes) :
    decodeFrom skip (a ++ 47 :: b) = decodeFrom skip a ++ 47 :: decodePathComponent b := by
  induction a generalizing skip with
  | nil =>
    obtain rfl : skip = 0 := Nat.le_zero.mp hskip
    rfl
  | cons c a ih =>
    cases skip with
    | zero =>
      show (readEscape c (a ++ 47 :: b)).1 ++
        decodeFrom (readEscape c (a ++ 47 :: b)).2 (a ++ 47 :: b) = _
      rw [readEscape_append, ih (readEscape_le c a), ← List.append_assoc]
      rfl
    | succ skip => exact ih (Nat.le_of_succ_le_succ hskip)

/-- A text without escapes is left alone. -/
theorem decodePathComponent_of_not_mem {s : Bytes} (h : 37 ∉ s) : decodePathComponent s = s := by
  induction s with
  | nil => rfl
  | cons c s ih =>
    obtain ⟨hc, hs⟩ := not_or.mp fun hor => h (List.mem_cons.mpr hor)
    have hread : readEscape c s = ([c], 0) := by
      unfold readEscape
      rw [if_neg (fun heq => hc heq.symm)]
    show (readEscape c s).1 ++ decodeFrom (readEscape c s).2 s = c :: s
    rw [hread]
    exact congrArg (List.cons c) (ih hs)

/-- The decoded path behind a base without escapes. -/
theorem decodedTarget_append {base : Bytes} (hescape : 37 ∉ base) (hquery : 63 ∉ base)
    (rest : Bytes) : decodedTarget (base ++ 47 :: rest) = base ++ 47 :: decodedTarget rest := by
  have hall : ∀ c ∈ base, decide (c ≠ 63) = true := fun c hc =>
    decide_eq_true fun heq => hquery (heq ▸ hc)
  have htake : (base ++ 47 :: rest).takeWhile (· ≠ 63) =
      base ++ 47 :: rest.takeWhile (· ≠ 63) := by
    rw [List.takeWhile_append_of_pos hall]
    rfl
  unfold decodedTarget
  rw [htake, decodePathComponent, decodeFrom_append (Nat.zero_le _)]
  show decodePathComponent base ++ _ = _
  rw [decodePathComponent_of_not_mem hescape]

/-- **Behind a base without escapes** it is enough that the decoded rest never climbs. -/
theorem staysUnder_of_plain {base : List Bytes} (hb : ∀ x ∈ base, IsPlainSegment x)
    (hbase : base ≠ []) (hescape : 37 ∉ render base) (hquery : 63 ∉ render base) {rest : Bytes}
    (hrest : staysBelow 0 ((decodedTarget rest).splitOn 47) = true) :
    StaysUnder (render base) (render base ++ 47 :: rest) := by
  refine ⟨base, (decodedTarget rest).splitOn 47, ?_, ?_, hrest⟩
  · obtain ⟨x, base, rfl⟩ := List.exists_cons_of_ne_nil hbase
    have hx := hb x List.mem_cons_self
    have hafter : afterSlash (decodedTarget (render (x :: base) ++ 47 :: rest)) =
        x ++ (renderSegments base ++ 47 :: decodedTarget rest) := by
      rw [decodedTarget_append hescape hquery, render_cons]
      show x ++ renderSegments base ++ 47 :: decodedTarget rest = _
      rw [List.append_assoc]
    rw [decodedSegments, hafter, splitOn_renderSegments_slash
      (fun y hy => hb y (List.mem_cons_of_mem x hy)) hx.slash_not_mem]
    rfl
  · rw [foldl_pushSegment_plain hb, List.nil_append]

/-- **An allowed path at the backend.**  On a server whose base has no escapes, an allowed
path stays under the base if what stands behind the base, decoded, never climbs. -/
theorem liesUnder_backendView_of_allowed {urls : List Bytes} {path u : Bytes} {parsed : ParsedUrl}
    (hfind : findAllowedL2Server urls path = some u) (hu : parseUrl u = .ok parsed)
    (hbase : canonicalizePath parsed.path ≠ ascii "/")
    (hcommon : ¬ IsCommonPath (canonicalizePath path))
    (hescape : 37 ∉ canonicalizePath parsed.path) (hquery : 63 ∉ canonicalizePath parsed.path)
    (hrest : ∀ rest, canonicalizePath path = canonicalizePath parsed.path ++ 47 :: rest →
      staysBelow 0 ((decodedTarget rest).splitOn 47) = true) :
    LiesUnder (canonicalizePath parsed.path) (backendView (canonicalizePath path)) := by
  obtain ⟨base, hrender, hplain⟩ := canonicalizePath_eq_render parsed.path
  have hunder := liesUnder_of_findAllowedL2Server hfind hu
  rw [hrender] at hbase hescape hquery hrest hunder ⊢
  have hne := ne_nil_of_render hbase
  rcases hunder with ⟨hc, -⟩ | hroot | heq | ⟨rest, htext⟩
  · exact absurd hc hcommon
  · exact absurd hroot hbase
  · -- the base itself: nothing stands behind it
    have hview : backendView (render base) = render base := by
      have hall : ∀ c ∈ render base, decide (c ≠ 63) = true := fun c hc =>
        decide_eq_true fun h => hquery (h ▸ hc)
      unfold backendView decodedTarget
      rw [List.takeWhile_eq_self_iff.mpr hall, decodePathComponent_of_not_mem hescape,
        canonicalizePath_render hplain]
    rw [heq, hview]
    exact Or.inr (Or.inl rfl)
  · rw [List.append_assoc, List.singleton_append] at htext
    rw [← htext, liesUnder_backendView_iff hplain hne]
    exact staysUnder_of_plain hplain hne hescape hquery (hrest rest htext.symm)

end Routing
end HttpDataDiod
