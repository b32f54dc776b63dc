import HttpDataDiod.Routing.CanonicalPath

/-!
# The cursor of `canonicalize_path` and its reference

The source moves a cursor over the path, with a slash put in front where there is none, and
searches the next slash from the cursor on.  What it computes is said without a cursor: the
segments between the slashes, all of them, are folded over a stack.

* `cursorLoop`, `canonicalizePathAt`: the function of the source, with its cursor.
* `referencePath`: the stack that is left, joined by slashes behind a slash.
* `cursorLoop_eq_foldl`: the loop from a cursor on is the fold of the segments behind it.
* `canonicalSegments_append`: the segments of a path that goes on behind a slash.
* `canonicalizePathAt_spec`: the function is its reference, with what follows from that.
-/

namespace HttpDataDiod
namespace Routing

open ByteText

/-! ## The cursor -/

/-- `find('/', cursor)`. -/
def findSlash (view : Bytes) (cursor : ℕ) : Option ℕ :=
  ((view.drop cursor).findIdx? (· = 47)).map (cursor + ·)

/-- The end of the segment at the cursor. -/
def segmentEnd (view : Bytes) (cursor : ℕ) : ℕ := (findSlash view cursor).getD view.length

theorem le_segmentEnd {view : Bytes} {cursor : ℕ} (h : cursor < view.length) :
    cursor ≤ segmentEnd view cursor := by
  unfold segmentEnd findSlash
  cases (view.drop cursor).findIdx? (· = 47) with
  | none => exact h.le
  | some k => exact Nat.le_add_right cursor k

/-- The `while` loop, with the vector of the segments. -/
def cursorLoop (view : Bytes) (cursor : ℕ) (segments : List Bytes) : List Bytes :=
  if cursor < view.length then
    let stop := segmentEnd view cursor
    cursorLoop view (stop + 1)
      (pushSegment segments ((view.drop cursor).take (stop - cursor)))
  else segments
termination_by view.length - cursor
decreasing_by
  rename_i h
  have := le_segmentEnd h
  omega

/-- `canonicalize_path`, with its cursor. -/
def canonicalizePathAt (path : Bytes) : Bytes :=
  if path = [] then ascii "/"
  else
    let view := if path.head? = some 47 then path else 47 :: path
    let out := (cursorLoop view 1 []).foldl (fun out segment => out ++ 47 :: segment) []
    if out = [] then ascii "/" else out

/-! ## The reference -/

/-- One segment on a stack with the last one on top: an empty one and a dot are ignored, two dots
pop. -/
def resolveSegment (stack : List Bytes) (segment : Bytes) : List Bytes :=
  if segment = [] ∨ segment = ascii "." then stack
  else if segment = ascii ".." then stack.tail
  else segment :: stack

/-- The segments of a path, folded over the stack and joined. -/
def referencePath (path : Bytes) : Bytes :=
  47 :: List.intercalate [47] ((path.splitOn 47).foldl resolveSegment []).reverse

/-! ## The loop is the fold -/

/-- The first slash behind a text without one. -/
theorem segmentEnd_of_drop {view a b : Bytes} {cursor : ℕ} (ha : 47 ∉ a)
    (hdrop : view.drop cursor = a ++ 47 :: b) : segmentEnd view cursor = cursor + a.length := by
  rw [segmentEnd, findSlash, hdrop, findIdx_append_cons ha]
  rfl

/-- Without a slash the segment goes to the end. -/
theorem segmentEnd_of_not_mem {view : Bytes} {cursor : ℕ} (h : 47 ∉ view.drop cursor) :
    segmentEnd view cursor = view.length := by
  rw [segmentEnd, findSlash, findIdx_eq_none_iff.mpr h]
  rfl

/-- **The loop from a cursor on is the fold of the segments behind it.** -/
theorem cursorLoop_eq_foldl (view : Bytes) (cursor : ℕ) (segments : List Bytes) :
    cursorLoop view cursor segments =
      ((view.drop cursor).splitOn 47).foldl pushSegment segments := by
  induction cursor, segments using cursorLoop.induct view with
  | case1 cursor segments hcursor stop ih =>
    rw [cursorLoop, if_pos hcursor]
    show cursorLoop view (stop + 1) _ = _
    rw [ih]
    by_cases hmem : 47 ∈ view.drop cursor
    · obtain ⟨a, b, hdrop, ha⟩ := List.eq_append_cons_of_mem hmem
      have hstop : stop = cursor + a.length := segmentEnd_of_drop ha hdrop
      have hsegment : (view.drop cursor).take (stop - cursor) = a := by
        rw [hstop, Nat.add_sub_cancel_left, hdrop, List.take_left]
      have hrest : view.drop (stop + 1) = b := by
        rw [hstop, Nat.add_assoc, ← List.drop_drop, hdrop, List.drop_append]
        simp
      rw [hsegment, hrest, hdrop, List.splitOn_append_cons_self_of_not_mem ha, List.foldl_cons]
    · have hstop : stop = view.length := segmentEnd_of_not_mem hmem
      have hsegment : (view.drop cursor).take (stop - cursor) = view.drop cursor := by
        refine List.take_of_length_le ?_
        rw [List.length_drop, hstop]
      have hrest : view.drop (stop + 1) = [] := by
        rw [hstop]
        exact List.drop_eq_nil_of_le (Nat.le_succ _)
      rw [hsegment, hrest, List.splitOn_eq_singleton hmem, List.splitOn_nil]
      exact pushSegment_nil _
  | case2 cursor segments hcursor =>
    rw [cursorLoop, if_neg hcursor, List.drop_eq_nil_of_le (by omega), List.splitOn_nil]
    exact (pushSegment_nil _).symm

/-! ## The segments of a path -/

/-- The stack that the segments of a path leave. -/
def canonicalSegments (path : Bytes) : List Bytes := (path.splitOn 47).foldl pushSegment []

/-- A slash in front does not matter. -/
theorem canonicalSegments_eq_afterSlash (path : Bytes) :
    canonicalSegments path = ((afterSlash path).splitOn 47).foldl pushSegment [] := by
  unfold canonicalSegments afterSlash
  split
  · rename_i hslash
    obtain ⟨t, rfl⟩ := List.head?_eq_some_iff.mp hslash
    show (([] ++ 47 :: t).splitOn 47).foldl pushSegment [] = _
    rw [List.splitOn_append_cons_self_of_not_mem List.not_mem_nil, List.foldl_cons, pushSegment_nil]
    rfl
  · rfl

theorem canonicalizePath_eq_render_segments (path : Bytes) :
    canonicalizePath path = render (canonicalSegments path) := by
  rw [canonicalizePath_eq_foldl_splitOn, canonicalSegments_eq_afterSlash]

theorem isPlainSegment_canonicalSegments (path : Bytes) :
    ∀ x ∈ canonicalSegments path, IsPlainSegment x :=
  isPlainSegment_foldl (fun _ hx => slash_not_mem_of_mem_splitOn hx)
    fun _ hx => absurd hx List.not_mem_nil

/-- **A path that goes on behind a slash** folds on over the stack of its beginning. -/
theorem canonicalSegments_append (a b : Bytes) :
    canonicalSegments (a ++ 47 :: b) =
      (b.splitOn 47).foldl pushSegment (canonicalSegments a) := by
  rw [canonicalSegments, List.splitOn_append_cons_self, List.foldl_append]
  rfl

/-- A plain stack is read off its text. -/
theorem canonicalSegments_render {segments : List Bytes} (h : ∀ x ∈ segments, IsPlainSegment x) :
    canonicalSegments (render segments) = segments := by
  cases segments with
  | nil => rfl
  | cons x rest =>
    rw [canonicalSegments, splitOn_render h (List.cons_ne_nil x rest), List.foldl_cons,
      pushSegment_nil, foldl_pushSegment_plain h, List.nil_append]

/-! ## The function is its reference -/

theorem foldl_append_segments (segments : List Bytes) (out : Bytes) :
    segments.foldl (fun out segment => out ++ 47 :: segment) out =
      out ++ renderSegments segments := by
  induction segments generalizing out with
  | nil => exact (List.append_nil out).symm
  | cons x segments ih =>
    rw [List.foldl_cons, ih, renderSegments_cons, List.append_assoc]
    rfl

/-- **The function with its cursor** is the one over the unread text. -/
theorem canonicalizePathAt_eq (path : Bytes) : canonicalizePathAt path = canonicalizePath path := by
  unfold canonicalizePathAt canonicalizePath
  split
  · rfl
  · have hview : (if path.head? = some 47 then path else 47 :: path).drop 1 = afterSlash path := by
      unfold afterSlash
      split
      · exact List.drop_one
      · rfl
    show (if _ = [] then ascii "/" else _) = render (canonicalLoop (afterSlash path).length []
      (afterSlash path))
    rw [cursorLoop_eq_foldl, hview, canonicalLoop_eq_foldl_splitOn _ _ _ le_rfl,
      foldl_append_segments, List.nil_append]
    rfl

/-- The two stacks are each other's reverse. -/
theorem reverse_foldl_resolveSegment (segments stack : List Bytes) :
    (segments.foldl resolveSegment stack).reverse =
      segments.foldl pushSegment stack.reverse := by
  induction segments generalizing stack with
  | nil => rfl
  | cons x segments ih =>
    have hstep : (resolveSegment stack x).reverse = pushSegment stack.reverse x := by
      unfold resolveSegment pushSegment
      split
      · rfl
      · split
        · exact List.dropLast_reverse.symm
        · exact List.reverse_cons
    rw [List.foldl_cons, List.foldl_cons, ih, hstep]

/-- Rendering is joining. -/
theorem render_eq_intercalate (segments : List Bytes) :
    render segments = 47 :: List.intercalate [47] segments := by
  have hjoin : ∀ (x : Bytes) (rest : List Bytes),
      List.intercalate [47] (x :: rest) = x ++ renderSegments rest := by
    intro x rest
    induction rest generalizing x with
    | nil =>
      rw [List.intercalate_singleton]
      exact (List.append_nil x).symm
    | cons y rest ih =>
      rw [List.intercalate_cons_cons, ih, renderSegments_cons, List.append_assoc]
      rfl
  cases segments with
  | nil => rfl
  | cons x rest => rw [render_cons, hjoin]

/-- What a rendered path looks like: it is `/`, or it has plain segments behind its slash and
does not end in one. -/
theorem render_wellFormed {segments : List Bytes} (h : ∀ x ∈ segments, IsPlainSegment x) :
    render segments = ascii "/" ∨
      (∀ x ∈ (render segments).tail.splitOn 47, IsPlainSegment x) ∧
        (render segments).getLast? ≠ some 47 := by
  rcases List.eq_nil_or_concat segments with rfl | ⟨front, last, rfl⟩
  · exact .inl rfl
  · rw [List.concat_eq_append] at h ⊢
    have hne : front ++ [last] ≠ [] := List.append_ne_nil_of_right_ne_nil _ (List.cons_ne_nil _ _)
    refine .inr ⟨?_, ?_⟩
    · have hsplit := splitOn_render h hne
      obtain ⟨t, ht⟩ := render_head (front ++ [last])
      rw [ht] at hsplit ⊢
      have htail : ([] ++ 47 :: t).splitOn 47 = [] :: (front ++ [last]) := hsplit
      rw [List.splitOn_append_cons_self_of_not_mem List.not_mem_nil] at htail
      rw [List.tail_cons, (List.cons.inj htail).2]
      exact h
    · have hlast := h last (List.mem_append_right _ List.mem_cons_self)
      have htext : render (front ++ [last]) = renderSegments front ++ 47 :: last := by
        rw [render_of_ne_nil hne]
        simp [renderSegments]
      rw [htext, List.getLast?_append_of_ne_nil _ (List.cons_ne_nil _ _)]
      obtain ⟨c, y, rfl⟩ := List.exists_cons_of_ne_nil hlast.ne_nil
      rw [List.getLast?_cons_cons]
      intro hslash
      exact hlast.slash_not_mem (List.mem_of_getLast? hslash)

/-- **`canonicalize_path` meets its reference.**  Its result starts with a slash; it is `/`, or
its segments are plain and no slash ends it; it is its own canonical form; and the canonical form
of a beginning may stand for the beginning. -/
theorem canonicalizePathAt_spec :
    (∀ path : Bytes, canonicalizePathAt path = referencePath path) ∧
    (∀ path : Bytes, ∃ rest, canonicalizePathAt path = 47 :: rest) ∧
    (∀ path : Bytes, canonicalizePathAt path = ascii "/" ∨
      (∀ x ∈ (canonicalizePathAt path).tail.splitOn 47, IsPlainSegment x) ∧
        (canonicalizePathAt path).getLast? ≠ some 47) ∧
    (∀ path : Bytes, canonicalizePathAt (canonicalizePathAt path) = canonicalizePathAt path) ∧
    ∀ a b : Bytes,
      canonicalizePathAt (a ++ 47 :: b) = canonicalizePathAt (canonicalizePathAt a ++ 47 :: b) := by
  have hrender : ∀ path : Bytes, canonicalizePathAt path = render (canonicalSegments path) :=
    fun path => (canonicalizePathAt_eq path).trans (canonicalizePath_eq_render_segments path)
  have hplain := isPlainSegment_canonicalSegments
  refine ⟨fun path => ?_, fun path => ?_, fun path => ?_, fun path => ?_, fun a b => ?_⟩
  · rw [hrender, render_eq_intercalate, referencePath, reverse_foldl_resolveSegment]
    rfl
  · rw [hrender]
    exact render_head _
  · rw [hrender]
    exact render_wellFormed (hplain path)
  · rw [hrender path, hrender, canonicalSegments_render (hplain path)]
  · rw [hrender, hrender, hrender a, canonicalSegments_append, canonicalSegments_append,
      canonicalSegments_render (hplain a)]

example : canonicalizePathAt (ascii "a/./b//../c/..") = ascii "/a" := by decide +kernel

end Routing
end HttpDataDiod
