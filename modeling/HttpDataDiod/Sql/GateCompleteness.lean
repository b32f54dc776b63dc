import HttpDataDiod.Sql.GateSoundness

/-!
# What the gate refuses

A statement may begin with blanks, comments and opening parentheses in any order, and the keyword
ends where the next byte cannot continue an identifier.  The gate reads both more narrowly.  It
skips the parentheses first and the blanks after them, so a parenthesis behind a blank is part of
its first word; and a `--` comment leaves its line feed, which is a blank.  Its word ends at a
blank only, so whatever stands directly behind the keyword has to be a blank, or comments that
vanish in front of one.

* `LeadPiece`: what may stand in front of the keyword.
* `ParensFirst`: no parenthesis behind a blank or a `--` comment.
* `isReadOnlySql_lead_iff`: which of the queries the gate accepts.
* `refuses_queries`: some that it does not.
-/

namespace HttpDataDiod
namespace Sql

open ByteText

/-! ## Statements -/

/-- A blank, a `--` comment with its line feed, a comment that its first end closes, or an opening
parenthesis. -/
inductive LeadPiece where
  | blank (c : UInt8) (h : isSpace c = true)
  | line (text : Bytes) (h : 10 ∉ text)
  | block (text : Bytes) (h : ¬ ascii "*/" <:+: text)
  | paren

namespace LeadPiece

/-- The bytes of a piece. -/
def render : LeadPiece → Bytes
  | .blank c _ => [c]
  | .line text _ => ascii "--" ++ text ++ [10]
  | .block text _ => ascii "/*" ++ text ++ ascii "*/"
  | .paren => [40]

/-- What the stripper leaves of a piece. -/
def stripped : LeadPiece → Bytes
  | .blank c _ => [c]
  | .line _ _ => [10]
  | .block _ _ => []
  | .paren => [40]

end LeadPiece

/-- The bytes in front of the keyword. -/
def renderLead (pieces : List LeadPiece) : Bytes := pieces.flatMap LeadPiece.render

/-- No parenthesis comes behind a blank or a `--` comment; the flag says that there was one. -/
def ParensFirst : Bool → List LeadPiece → Prop
  | _, [] => True
  | _, .blank _ _ :: pieces => ParensFirst true pieces
  | _, .line _ _ :: pieces => ParensFirst true pieces
  | sp, .block _ _ :: pieces => ParensFirst sp pieces
  | sp, .paren :: pieces => sp = false ∧ ParensFirst sp pieces

/-- The text is empty or begins with a blank. -/
def BlankNext (s : Bytes) : Prop := ∀ c ∈ s.head?, isSpace c = true

instance (s : Bytes) : Decidable (BlankNext s) :=
  decidable_of_iff (s.head?.all isSpace = true) (by simp [BlankNext, Option.all_eq_true])

/-! ## The stripper -/

theorem stripFrom_text_plain {c : UInt8} (h : c ≠ 45 ∧ c ≠ 47) (s : Bytes) :
    stripFrom .text (c :: s) = c :: stripFrom .text s := by
  cases s with
  | nil => rfl
  | cons d s =>
    refine stripFrom_text_cons ?_ s
    rintro (⟨rfl, -⟩ | ⟨rfl, -⟩)
    · exact h.1 rfl
    · exact h.2 rfl

theorem stripFrom_line_append {text : Bytes} (h : 10 ∉ text) (s : Bytes) :
    stripFrom .line (text ++ 10 :: s) = 10 :: stripFrom .text s := by
  induction text with
  | nil => exact stripFrom_line_newline s
  | cons c text ih =>
    rw [List.mem_cons, not_or] at h
    rw [List.cons_append, stripFrom_line_cons (Ne.symm h.1)]
    exact ih h.2

theorem stripFrom_block_append {text : Bytes} (h : ¬ ascii "*/" <:+: text) (s : Bytes) :
    stripFrom .block (text ++ 42 :: 47 :: s) = stripFrom .text s := by
  induction text with
  | nil => exact stripFrom_block_close s
  | cons c text ih =>
    rw [List.infix_cons_iff, not_or] at h
    have hrest := ih h.2
    cases text with
    | nil =>
      rw [List.nil_append] at hrest
      rw [List.singleton_append, stripFrom_block_cons (fun hclose => by cases hclose.2), hrest]
    | cons d text =>
      have hclose : ¬ (c = 42 ∧ d = 47) := by
        rintro ⟨rfl, rfl⟩
        exact h.1 ⟨text, rfl⟩
      rw [List.cons_append, List.cons_append, stripFrom_block_cons hclose]
      exact hrest

theorem stripFrom_render (piece : LeadPiece) (s : Bytes) :
    stripFrom .text (piece.render ++ s) = piece.stripped ++ stripFrom .text s := by
  cases piece with
  | blank c h =>
    refine stripFrom_text_plain ⟨?_, ?_⟩ s
    · rintro rfl
      exact absurd h (by decide)
    · rintro rfl
      exact absurd h (by decide)
  | line text h =>
    have htext : LeadPiece.render (.line text h) ++ s = 45 :: 45 :: (text ++ 10 :: s) := by
      simp [LeadPiece.render, ascii]
    rw [htext, stripFrom_text_line, stripFrom_line_append h]
    rfl
  | block text h =>
    have htext : LeadPiece.render (.block text h) ++ s = 47 :: 42 :: (text ++ 42 :: 47 :: s) := by
      simp [LeadPiece.render, ascii]
    rw [htext, stripFrom_text_block, stripFrom_block_append h]
    rfl
  | paren => exact stripFrom_text_plain (by decide) s

theorem stripFrom_renderLead (pieces : List LeadPiece) (s : Bytes) :
    stripFrom .text (renderLead pieces ++ s) =
      pieces.flatMap LeadPiece.stripped ++ stripFrom .text s := by
  induction pieces with
  | nil => rfl
  | cons piece pieces ih =>
    show stripFrom .text (piece.render ++ renderLead pieces ++ s) = _
    rw [List.append_assoc, stripFrom_render, ih, List.flatMap_cons, List.append_assoc]

/-! ## The keyword -/

/-- The letters of a keyword, in either case. -/
theorem letter_of_isQueryKeyword {keyword : Bytes} (h : IsQueryKeyword (toLower keyword))
    {c : UInt8} (hc : c ∈ keyword) : isSpace c = false ∧ c ≠ 40 ∧ c ≠ 45 ∧ c ≠ 47 := by
  have hlower : toLowerByte c ∈ ascii "select" ++ ascii "with" := by
    have hmem : toLowerByte c ∈ toLower keyword := List.mem_map_of_mem hc
    rw [List.mem_append]
    rcases h with h | h
    · exact Or.inl (h ▸ hmem)
    · exact Or.inr (h ▸ hmem)
  have key : ∀ x ∈ ascii "select" ++ ascii "with",
      (isSpace x = false ∧ x ≠ 40 ∧ x ≠ 45 ∧ x ≠ 47) ∧
        (isSpace (x - 32) = false ∧ x - 32 ≠ 40 ∧ x - 32 ≠ 45 ∧ x - 32 ≠ 47) := by
    decide +kernel
  obtain ⟨hsame, hupper⟩ := key _ hlower
  rcases eq_or_eq_of_toLowerByte (rfl : toLowerByte c = _) with heq | heq
  · rwa [← heq] at hsame
  · rwa [← heq] at hupper

theorem stripFrom_keyword {keyword : Bytes} (h : IsQueryKeyword (toLower keyword)) (s : Bytes) :
    stripFrom .text (keyword ++ s) = keyword ++ stripFrom .text s := by
  have hletters : ∀ c ∈ keyword, c ≠ 45 ∧ c ≠ 47 :=
    fun c hc => (letter_of_isQueryKeyword h hc).2.2
  clear h
  induction keyword with
  | nil => rfl
  | cons c keyword ih =>
    rw [List.cons_append, stripFrom_text_plain (hletters c List.mem_cons_self),
      ih fun d hd => hletters d (List.mem_cons_of_mem c hd)]
    rfl

/-- A keyword stays one only with nothing behind it. -/
theorem isQueryKeyword_append_iff {w : Bytes} (h : IsQueryKeyword w) (r : Bytes) :
    IsQueryKeyword (w ++ r) ↔ r = [] := by
  constructor
  · intro happend
    rcases h with rfl | rfl
    · rcases happend with heq | heq
      · exact List.append_right_eq_self.mp heq
      · exact absurd (congrArg List.head? heq) (by simp [ascii])
    · rcases happend with heq | heq
      · exact absurd (congrArg List.head? heq) (by simp [ascii])
      · exact List.append_right_eq_self.mp heq
  · rintro rfl
    rwa [List.append_nil]

/-! ## The gate -/

/-- The gate comes to a byte that is neither a blank nor a parenthesis exactly past parentheses
that no blank precedes. -/
theorem gateWord_stripped_iff (pieces : List LeadPiece) (sp : Bool) {c : UInt8}
    (hc : isSpace c = false) (hparen : c ≠ 40) (t : Bytes) :
    IsQueryKeyword (gateWord sp (pieces.flatMap LeadPiece.stripped ++ c :: t)) ↔
      ParensFirst sp pieces ∧
        IsQueryKeyword (toLower ((c :: t).takeWhile fun x => !isSpace x)) := by
  induction pieces generalizing sp with
  | nil =>
    rw [List.flatMap_nil, List.nil_append, gateWord_of_not_space sp hc fun _ => hparen]
    exact ⟨fun h => ⟨trivial, h⟩, And.right⟩
  | cons piece pieces ih =>
    rw [List.flatMap_cons, List.append_assoc]
    cases piece with
    | blank d h =>
      rw [LeadPiece.stripped, List.singleton_append, gateWord_space sp h]
      exact ih true
    | line text h =>
      rw [LeadPiece.stripped, List.singleton_append, gateWord_space sp (by decide)]
      exact ih true
    | block text h =>
      rw [LeadPiece.stripped, List.nil_append]
      exact ih sp
    | paren =>
      rw [LeadPiece.stripped, List.singleton_append]
      cases sp with
      | false =>
        rw [gateWord_paren, ih false]
        simp [ParensFirst]
      | true =>
        constructor
        · intro h
          exact absurd h (not_isQueryKeyword_paren _)
        · intro h
          exact absurd h.1.1 (by decide)

/-- The gate's word is the keyword exactly when a blank or nothing is next. -/
theorem isQueryKeyword_takeWhile_iff {keyword : Bytes} (h : IsQueryKeyword (toLower keyword))
    (u : Bytes) :
    IsQueryKeyword (toLower ((keyword ++ u).takeWhile fun x => !isSpace x)) ↔ BlankNext u := by
  have hword : (keyword ++ u).takeWhile (fun x => !isSpace x) =
      keyword ++ u.takeWhile fun x => !isSpace x := by
    refine List.takeWhile_append_of_pos fun c hc => ?_
    rw [(letter_of_isQueryKeyword h hc).1]
    rfl
  rw [hword, toLower_append, isQueryKeyword_append_iff h]
  cases u with
  | nil => simp [BlankNext]
  | cons d u =>
    cases hd : isSpace d with
    | true => simp [BlankNext, hd]
    | false => simp [BlankNext, hd]

/-- **What the gate accepts.**  Of a text with a query keyword behind blanks, comments and
parentheses it accepts exactly those in which no parenthesis comes behind a blank or a `--`
comment, and in which, comments taken out, a blank or nothing comes behind the keyword. -/
theorem isReadOnlySql_lead_iff (pieces : List LeadPiece) (keyword rest : Bytes)
    (hkeyword : IsQueryKeyword (toLower keyword)) :
    isReadOnlySql (renderLead pieces ++ keyword ++ rest) = true ↔
      ParensFirst false pieces ∧ BlankNext (stripSqlComments rest) := by
  rw [isReadOnlySql_iff, List.append_assoc, stripFrom_renderLead, stripFrom_keyword hkeyword]
  rw [← isQueryKeyword_takeWhile_iff hkeyword]
  cases keyword with
  | nil => exact absurd hkeyword (by decide)
  | cons c keyword =>
    obtain ⟨hc, hparen, -⟩ := letter_of_isQueryKeyword hkeyword List.mem_cons_self
    exact gateWord_stripped_iff pieces false hc hparen _

/-- `(/* a */( SELECT/* b */ 1))`. -/
theorem accepts_parens_and_comments :
    isReadOnlySql (renderLead
        [.paren, .block (ascii " a ") (findSub_eq_none_iff.mp (by decide)), .paren,
          .blank 32 (by decide)] ++
      ascii "SELECT" ++ ascii "/* b */ 1))") = true :=
  (isReadOnlySql_lead_iff _ (ascii "SELECT") (ascii "/* b */ 1))") (by decide)).mpr
    ⟨⟨rfl, rfl, trivial⟩, by decide⟩

/-- No byte that can continue an identifier is next. -/
def EndsWord (s : Bytes) : Prop := ∀ c ∈ s.head?, isIdentByte c = false ∧ c ≠ 35

instance (s : Bytes) : Decidable (EndsWord s) :=
  decidable_of_iff (s.head?.all (fun c => !isIdentByte c && c != 35) = true)
    (by simp [EndsWord, Option.all_eq_true])

/-- Queries that the gate does not let through: `SELECT*FROM t` for the asterisk, `SELECT/**/1` for
the comment that leaves no blank, and ` (SELECT 1)` for the parenthesis behind a blank. -/
theorem refuses_queries :
    (EndsWord (ascii "*FROM t") ∧
        isReadOnlySql (renderLead [] ++ ascii "SELECT" ++ ascii "*FROM t") = false) ∧
      (EndsWord (ascii "/**/1") ∧
        isReadOnlySql (renderLead [] ++ ascii "SELECT" ++ ascii "/**/1") = false) ∧
      (EndsWord (ascii " 1)") ∧
        isReadOnlySql (renderLead [.blank 32 (by decide), .paren] ++ ascii "SELECT" ++
          ascii " 1)") = false) := by
  decide +kernel

end Sql
end HttpDataDiod
