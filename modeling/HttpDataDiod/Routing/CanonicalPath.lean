import HttpDataDiod.Lib.ByteText

/-!
# Canonical paths

Model of `canonicalize_path` of `l2_routing.hpp`: the path is cut at its
slashes, empty and `.` segments are dropped, `..` removes the segment before it,
and what is left is joined again.

The source moves a cursor over the text; here the state of that loop is the
unread text, and the fuel bounds the number of segments.

* `canonicalizePath_eq_foldl_splitOn`: the loop computes the fold of the
  segments over a stack, and never runs out of fuel.
* `canonicalizePath_eq_render`: the result is the rendering of segments that
  are neither empty nor `.` nor `..`.
* `findSub_render_query`: no `://` begins in a canonical path.
* `splitOn_render`, `canonicalizePath_render`: rendered segments can be read off the text, and
  are their own canonical form.
-/

namespace HttpDataDiod
namespace Routing

open ByteText

/-- What one segment does to the stack of segments; the stack's top is the end
of the list. -/
def pushSegment (segments : List Bytes) (segment : Bytes) : List Bytes :=
  if segment = [] ∨ segment = ascii "." then segments
  else if segment = ascii ".." then segments.dropLast
  else segments ++ [segment]

/-- The loop of `canonicalize_path` over the unread text. -/
def canonicalLoop : ℕ → List Bytes → Bytes → List Bytes
  | 0, segments, _ => segments
  | _ + 1, segments, [] => segments
  | fuel + 1, segments, unread =>
    let segment := unread.takeWhile (· ≠ 47)
    canonicalLoop fuel (pushSegment segments segment) (unread.drop (segment.length + 1))

/-- The segments joined, each after a slash. -/
def renderSegments (segments : List Bytes) : Bytes := segments.flatMap fun segment => 47 :: segment

/-- The result of `canonicalize_path` for a stack of segments. -/
def render (segments : List Bytes) : Bytes :=
  if renderSegments segments = [] then ascii "/" else renderSegments segments

/-- `canonicalize_path`. -/
def canonicalizePath (path : Bytes) : Bytes :=
  if path = [] then ascii "/"
  else
    -- a missing leading slash is inserted, and the cursor starts behind it
    let unread := if path.head? = some 47 then path.tail else path
    render (canonicalLoop unread.length [] unread)

example : canonicalizePath (ascii "/api/.//x/../v1/") = ascii "/api/v1" := by decide

/-! ## The loop is a fold over the segments -/

/-- The first segment ends at the first slash. -/
theorem takeWhile_slash {a : Bytes} (ha : 47 ∉ a) (b : Bytes) :
    (a ++ 47 :: b).takeWhile (· ≠ 47) = a := by
  have hall : ∀ c ∈ a, decide (c ≠ 47) = true := by
    intro c hc
    exact decide_eq_true fun h => ha (h ▸ hc)
  rw [List.takeWhile_append_of_pos hall]
  simp

@[simp] theorem pushSegment_nil (segments : List Bytes) : pushSegment segments [] = segments := by
  simp [pushSegment]

theorem canonicalLoop_step (fuel : ℕ) (segments : List Bytes) {unread : Bytes}
    (h : unread ≠ []) :
    canonicalLoop (fuel + 1) segments unread =
      canonicalLoop fuel (pushSegment segments (unread.takeWhile (· ≠ 47)))
        (unread.drop ((unread.takeWhile (· ≠ 47)).length + 1)) := by
  cases unread with
  | nil => exact absurd rfl h
  | cons c t => rfl

theorem canonicalLoop_nil (fuel : ℕ) (segments : List Bytes) :
    canonicalLoop fuel segments [] = segments := by
  cases fuel <;> rfl

/-- **The loop is the fold of the segments over the stack**, as soon as the fuel
is the length of the text. -/
theorem canonicalLoop_eq_foldl_splitOn (fuel : ℕ) (segments : List Bytes) (unread : Bytes)
    (hfuel : unread.length ≤ fuel) :
    canonicalLoop fuel segments unread = (unread.splitOn 47).foldl pushSegment segments := by
  induction fuel generalizing segments unread with
  | zero =>
    obtain rfl : unread = [] := List.length_eq_zero_iff.mp (by omega)
    simp [canonicalLoop]
  | succ fuel ih =>
    by_cases hmem : 47 ∈ unread
    · obtain ⟨a, b, rfl, ha⟩ := List.eq_append_cons_of_mem hmem
      rw [List.splitOn_append_cons_self_of_not_mem ha, List.foldl_cons]
      have hdrop : (a ++ 47 :: b).drop (a.length + 1) = b := by
        rw [List.drop_append]
        simp
      have hlen : b.length ≤ fuel := by
        rw [List.length_append, List.length_cons] at hfuel
        omega
      rw [canonicalLoop_step fuel segments (by simp), takeWhile_slash ha, hdrop]
      exact ih _ b hlen
    · rw [List.splitOn_eq_singleton hmem]
      cases unread with
      | nil => simp [canonicalLoop]
      | cons c t =>
        have htake : (c :: t).takeWhile (· ≠ 47) = c :: t := by
          rw [List.takeWhile_eq_self_iff]
          intro x hx
          exact decide_eq_true fun h => hmem (h ▸ hx)
        rw [canonicalLoop_step fuel segments (List.cons_ne_nil c t), htake,
          List.drop_eq_nil_of_le (by simp), canonicalLoop_nil]
        rfl

/-- The text the segments are read from: the path behind its leading slash. -/
def afterSlash (path : Bytes) : Bytes := if path.head? = some 47 then path.tail else path

/-- **The canonical path is the rendering of the folded segments.** -/
theorem canonicalizePath_eq_foldl_splitOn (path : Bytes) :
    canonicalizePath path = render (((afterSlash path).splitOn 47).foldl pushSegment []) := by
  rw [← canonicalLoop_eq_foldl_splitOn _ _ _ le_rfl]
  unfold canonicalizePath
  by_cases hnil : path = []
  · subst hnil
    rfl
  · rw [if_neg hnil]
    rfl

/-! ## Plain segments -/

/-- A segment that a canonical path may have. -/
structure IsPlainSegment (segment : Bytes) : Prop where
  ne_nil : segment ≠ []
  ne_dot : segment ≠ ascii "."
  ne_dots : segment ≠ ascii ".."
  slash_not_mem : 47 ∉ segment

/-- One segment keeps the stack plain. -/
theorem isPlainSegment_pushSegment {segments : List Bytes}
    (h : ∀ x ∈ segments, IsPlainSegment x) {segment : Bytes} (hslash : 47 ∉ segment) :
    ∀ x ∈ pushSegment segments segment, IsPlainSegment x := by
  unfold pushSegment
  split
  · exact h
  · next hdrop =>
    obtain ⟨hnil, hdot⟩ := not_or.mp hdrop
    split
    · intro x hx
      exact h x (List.mem_of_mem_dropLast hx)
    · next hdots =>
      intro x hx
      rcases List.mem_append.mp hx with hx | hx
      · exact h x hx
      · obtain rfl := List.mem_singleton.mp hx
        exact ⟨hnil, hdot, hdots, hslash⟩

/-- The loop keeps the stack plain. -/
theorem isPlainSegment_canonicalLoop (fuel : ℕ) {segments : List Bytes} (unread : Bytes)
    (h : ∀ x ∈ segments, IsPlainSegment x) :
    ∀ x ∈ canonicalLoop fuel segments unread, IsPlainSegment x := by
  induction fuel generalizing segments unread with
  | zero => exact h
  | succ fuel ih =>
    by_cases hnil : unread = []
    · subst hnil
      rw [canonicalLoop_nil]
      exact h
    · rw [canonicalLoop_step fuel segments hnil]
      refine ih _ (isPlainSegment_pushSegment h ?_)
      intro hmem
      exact absurd (List.mem_takeWhile_imp hmem) (by simp)

/-- **A canonical path has plain segments only.** -/
theorem canonicalizePath_eq_render (path : Bytes) :
    ∃ segments, canonicalizePath path = render segments ∧ ∀ x ∈ segments, IsPlainSegment x := by
  by_cases hnil : path = []
  · exact ⟨[], by rw [hnil]; rfl, by simp⟩
  · refine ⟨canonicalLoop (afterSlash path).length [] (afterSlash path), ?_,
      isPlainSegment_canonicalLoop _ _ (by simp)⟩
    rw [canonicalizePath, if_neg hnil]
    rfl

/-! ## The text of a canonical path -/

theorem renderSegments_cons (x : Bytes) (segments : List Bytes) :
    renderSegments (x :: segments) = 47 :: (x ++ renderSegments segments) := rfl

theorem render_cons (x : Bytes) (segments : List Bytes) :
    render (x :: segments) = 47 :: (x ++ renderSegments segments) := by
  rw [render, renderSegments_cons, if_neg (List.cons_ne_nil _ _)]

/-- A canonical path starts with a slash. -/
theorem render_head (segments : List Bytes) : ∃ p, render segments = 47 :: p := by
  cases segments with
  | nil => exact ⟨[], rfl⟩
  | cons x segments => exact ⟨_, render_cons x segments⟩

/-- No `://` begins in a segment when what follows does not start with two
slashes. -/
theorem findSub_segment {x r : Bytes} (hx : 47 ∉ x) (hr : ¬ [47, 47] <+: r) :
    findSub (ascii "://") (47 :: x ++ r)
      = (findSub (ascii "://") r).map (· + (47 :: x).length) := by
  refine findSub_append_left ?_
  rintro a y hxy hy ⟨t, ht⟩
  have hpat : 58 :: 47 :: 47 :: t = y ++ r := ht
  cases a with
  | nil =>
    rw [List.nil_append] at hxy
    rw [← hxy, List.cons_append] at hpat
    exact absurd (List.cons.inj hpat).1 (by decide)
  | cons c a =>
    have hslash : 47 ∉ y := by
      intro hmem
      refine hx ?_
      rw [(List.cons.inj hxy).2]
      exact List.mem_append_right a hmem
    match y, hy, hpat with
    | [d], _, hpat => exact hr ⟨t, (List.cons.inj hpat).2⟩
    | d :: e :: y, _, hpat =>
      have he : 47 = e := (List.cons.inj (List.cons.inj hpat).2).1
      exact hslash (by rw [he]; simp)

/-- What follows a segment in a canonical path is the query or one slash. -/
theorem not_slashes_render {segments : List Bytes} (h : ∀ x ∈ segments, IsPlainSegment x)
    (q : Bytes) : ¬ [47, 47] <+: renderSegments segments ++ 63 :: q := by
  rintro ⟨t, ht⟩
  cases segments with
  | nil => exact absurd (List.cons.inj ht).1 (by decide)
  | cons x segments =>
    have hx := h x List.mem_cons_self
    obtain ⟨c, y, rfl⟩ := List.exists_cons_of_ne_nil hx.ne_nil
    have hc : 47 = c := (List.cons.inj (List.cons.inj ht).2).1
    exact hx.slash_not_mem (by rw [← hc]; simp)

theorem findSub_renderSegments_query {segments : List Bytes}
    (h : ∀ x ∈ segments, IsPlainSegment x) (q : Bytes) :
    findSub (ascii "://") (renderSegments segments ++ 63 :: q)
      = (findSub (ascii "://") (63 :: q)).map (· + (renderSegments segments).length) := by
  induction segments with
  | nil => simp [renderSegments]
  | cons x segments ih =>
    have hrest : ∀ y ∈ segments, IsPlainSegment y := fun y hy => h y (List.mem_cons_of_mem x hy)
    have htext : renderSegments (x :: segments) ++ 63 :: q
        = 47 :: x ++ (renderSegments segments ++ 63 :: q) := by
      rw [renderSegments_cons]
      simp
    rw [htext, findSub_segment (h x List.mem_cons_self).slash_not_mem
      (not_slashes_render hrest q), ih hrest, Option.map_map]
    refine congrArg (Option.map · _) ?_
    ext i
    rw [renderSegments_cons]
    simp only [Function.comp_apply, List.length_cons, List.length_append]
    omega

/-- **No `://` begins in a canonical path**: a colon in it is followed by no
slash, by one slash and a plain segment, or by the `?` of the query. -/
theorem findSub_render_query {segments : List Bytes} (h : ∀ x ∈ segments, IsPlainSegment x)
    (q : Bytes) :
    findSub (ascii "://") (render segments ++ 63 :: q)
      = (findSub (ascii "://") (63 :: q)).map (· + (render segments).length) := by
  cases segments with
  | nil =>
    have hq : ¬ [47, 47] <+: renderSegments [] ++ 63 :: q := not_slashes_render (by simp) q
    exact findSub_segment (x := []) (by simp) hq
  | cons x segments =>
    have hrender : render (x :: segments) = renderSegments (x :: segments) := by
      rw [render_cons, renderSegments_cons]
    rw [hrender]
    exact findSub_renderSegments_query h q

/-- A canonical path holds no `://`. -/
theorem findSub_render {segments : List Bytes} (h : ∀ x ∈ segments, IsPlainSegment x) :
    findSub (ascii "://") (render segments) = none := by
  have hquery : findSub (ascii "://") (render segments ++ [63]) = none := by
    rw [findSub_render_query h []]
    rfl
  rw [findSub_eq_none_iff] at hquery ⊢
  exact fun h => hquery (h.trans (List.prefix_append _ _).isInfix)

/-! ## The segments of a rendered path -/

/-- The segments of a text that starts with some segments and a slash. -/
theorem splitOn_renderSegments_slash {segments : List Bytes}
    (h : ∀ x ∈ segments, IsPlainSegment x) {y : Bytes} (hy : 47 ∉ y) (t : Bytes) :
    (y ++ (renderSegments segments ++ 47 :: t)).splitOn 47 = y :: (segments ++ t.splitOn 47) := by
  induction segments generalizing y with
  | nil => exact List.splitOn_append_cons_self_of_not_mem hy t
  | cons x segments ih =>
    have htext : y ++ (renderSegments (x :: segments) ++ 47 :: t) =
        y ++ 47 :: (x ++ (renderSegments segments ++ 47 :: t)) := by
      rw [renderSegments_cons]
      simp
    rw [htext, List.splitOn_append_cons_self_of_not_mem hy,
      ih (fun z hz => h z (List.mem_cons_of_mem x hz)) (h x List.mem_cons_self).slash_not_mem]
    rfl

/-- The segments of a rendered path. -/
theorem splitOn_renderSegments {segments : List Bytes} (h : ∀ x ∈ segments, IsPlainSegment x)
    {y : Bytes} (hy : 47 ∉ y) :
    (y ++ renderSegments segments).splitOn 47 = y :: segments := by
  rcases List.eq_nil_or_concat segments with rfl | ⟨segments, last, rfl⟩
  · rw [show renderSegments [] = [] from rfl, List.append_nil, List.splitOn_eq_singleton hy]
  · rw [List.concat_eq_append] at h ⊢
    have hlast := h last (List.mem_append_right _ List.mem_cons_self)
    have htext : renderSegments (segments ++ [last]) = renderSegments segments ++ 47 :: last := by
      simp [renderSegments]
    rw [htext, splitOn_renderSegments_slash (fun x hx => h x (List.mem_append_left _ hx)) hy,
      List.splitOn_eq_singleton hlast.slash_not_mem]

theorem render_of_ne_nil {segments : List Bytes} (h : segments ≠ []) :
    render segments = renderSegments segments := by
  obtain ⟨x, segments, rfl⟩ := List.exists_cons_of_ne_nil h
  rw [render_cons, renderSegments_cons]

theorem splitOn_render {segments : List Bytes} (h : ∀ x ∈ segments, IsPlainSegment x)
    (hne : segments ≠ []) : (render segments).splitOn 47 = [] :: segments := by
  rw [render_of_ne_nil hne]
  exact splitOn_renderSegments (y := []) h List.not_mem_nil

theorem slash_not_mem_of_mem_splitOn {text x : Bytes} (h : x ∈ text.splitOn 47) : 47 ∉ x := by
  induction text generalizing x with
  | nil =>
    rw [List.splitOn_nil, List.mem_singleton] at h
    rw [h]
    exact List.not_mem_nil
  | cons c text ih =>
    rw [List.splitOn_cons_eq_if_modifyHead] at h
    split at h
    · rcases List.mem_cons.mp h with rfl | h
      · exact List.not_mem_nil
      · exact ih h
    · rename_i hc
      obtain ⟨y, ys, hys⟩ := List.exists_cons_of_ne_nil (List.splitOn_ne_nil 47 text)
      rw [hys, List.modifyHead_cons] at h
      rcases List.mem_cons.mp h with rfl | h
      · have hy : 47 ∉ y := ih (by rw [hys]; exact List.mem_cons_self)
        intro hmem
        rcases List.mem_cons.mp hmem with rfl | hmem
        · exact hc (beq_self_eq_true _)
        · exact hy hmem
      · exact ih (by rw [hys]; exact List.mem_cons_of_mem y h)

/-- Segments of a text fold to a plain stack. -/
theorem isPlainSegment_foldl {segments : List Bytes} (h : ∀ x ∈ segments, 47 ∉ x)
    {stack : List Bytes} (hstack : ∀ x ∈ stack, IsPlainSegment x) :
    ∀ x ∈ segments.foldl pushSegment stack, IsPlainSegment x := by
  induction segments generalizing stack with
  | nil => exact hstack
  | cons segment segments ih =>
    exact ih (fun x hx => h x (List.mem_cons_of_mem segment hx))
      (isPlainSegment_pushSegment hstack (h segment List.mem_cons_self))

theorem foldl_pushSegment_plain {segments : List Bytes} (h : ∀ x ∈ segments, IsPlainSegment x)
    (stack : List Bytes) : segments.foldl pushSegment stack = stack ++ segments := by
  induction segments generalizing stack with
  | nil => rw [List.append_nil, List.foldl_nil]
  | cons x segments ih =>
    have hx := h x List.mem_cons_self
    have hpush : pushSegment stack x = stack ++ [x] := by
      unfold pushSegment
      rw [if_neg (not_or.mpr ⟨hx.ne_nil, hx.ne_dot⟩), if_neg hx.ne_dots]
    rw [List.foldl_cons, hpush, ih (fun y hy => h y (List.mem_cons_of_mem x hy)),
      List.append_assoc]
    rfl

/-- A plain stack is its own canonical form. -/
theorem canonicalizePath_render {segments : List Bytes} (h : ∀ x ∈ segments, IsPlainSegment x) :
    canonicalizePath (render segments) = render segments := by
  cases segments with
  | nil => rfl
  | cons x rest =>
    have hafter : afterSlash (render (x :: rest)) = x ++ renderSegments rest := by
      rw [render_cons]
      rfl
    rw [canonicalizePath_eq_foldl_splitOn, hafter, splitOn_renderSegments
      (fun y hy => h y (List.mem_cons_of_mem x hy)) (h x List.mem_cons_self).slash_not_mem,
      foldl_pushSegment_plain h, List.nil_append]

end Routing
end HttpDataDiod
