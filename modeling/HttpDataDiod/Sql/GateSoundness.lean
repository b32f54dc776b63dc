import HttpDataDiod.Sql.ReadOnlyGate

/-!
# The gate and the server's lexer

The gate of `ReadOnlyGate` judges a stripped copy of the statement; what is
executed is the original text, read by the database's own lexer.  The two
readers differ in two rules.  The server nests `/* */`, the gate closes a
comment at the first `*/`; the server ends a `--` comment at a line feed *or* a
carriage return, the gate only at a line feed.  And deleting a comment can weld
two halves of a word together, which no lexer does.

* `serverLead`, `serverKeyword`: the server's reading, under the comment rules
  of PostgreSQL.
* `commentsAgree`: the leading comments of a text are read alike by both, and
  none of them stands inside the keyword.
* `isQueryKeyword_of_commentsAgreeFrom`: on such a text, what the gate accepts
  starts with SELECT or WITH for the server too.
* `smuggled_of_commentsAgreeFrom`: on any other text the offending comment can
  be continued to a statement that the gate accepts and the server reads
  differently, so no test of the leading comments lets more through.
-/

namespace HttpDataDiod
namespace Sql

open ByteText

/-! ## The server's reading -/

/-- Where the server's lexer is before the first token; a block comment carries
the number of comments open around it. -/
inductive LexMode where
  | lead
  | line
  | block (depth : ℕ)
  deriving DecidableEq

/-- The statement from its first token on: blanks, comments and opening
parentheses are skipped.  An unterminated comment leaves nothing. -/
def serverLead : LexMode → Bytes → Bytes
  | .lead, [] => []
  | .lead, [c] => if isSpace c ∨ c = 40 then [] else [c]
  | .lead, c :: d :: s =>
    if c = 45 ∧ d = 45 then serverLead .line s
    else if c = 47 ∧ d = 42 then serverLead (.block 0) s
    else if isSpace c ∨ c = 40 then serverLead .lead (d :: s)
    else c :: d :: s
  | .line, [] => []
  | .line, c :: s => if c = 10 ∨ c = 13 then serverLead .lead s else serverLead .line s
  | .block _, [] => []
  | .block _, [_] => []
  | .block n, c :: d :: s =>
    if c = 47 ∧ d = 42 then serverLead (.block (n + 1)) s
    else if c = 42 ∧ d = 47 then
      match n with
      | 0 => serverLead .lead s
      | k + 1 => serverLead (.block k) s
    else serverLead (.block n) (d :: s)

/-- A byte that continues an identifier: a letter, a digit, `_`, `$`, or any
byte of a multi-byte character. -/
def isIdentByte (c : UInt8) : Bool :=
  (97 ≤ c && c ≤ 122) || (65 ≤ c && c ≤ 90) || isDigit c || c = 95 || c = 36 || 128 ≤ c

/-- The first keyword of the statement as the server reads it, lower-cased. -/
def serverKeyword (sql : Bytes) : Bytes :=
  toLower ((serverLead .lead sql).takeWhile isIdentByte)

/-! ## Comments that both readers read alike -/

/-- The bytes up to the first blank or block comment are the beginning, and not
the whole, of a query keyword, and a block comment ends them. -/
def splitsKeyword (w : Bytes) : Bytes → Bool
  | [] => false
  | [_] => false
  | c :: d :: s =>
    if c = 47 ∧ d = 42 then
      decide ((w <+: ascii "select" ∧ w ≠ ascii "select") ∨
        (w <+: ascii "with" ∧ w ≠ ascii "with"))
    else if isSpace c then false
    else splitsKeyword (w ++ [toLowerByte c]) (d :: s)

/-- Where the walk over the leading comments is; the flag says that a blank has
been passed.  `lineEnd` is the stretch from a carriage return to the line feed,
which the gate still takes for the comment and the server no longer does. -/
inductive AgreeMode where
  | lead (sp : Bool)
  | line (sp : Bool)
  | lineEnd (sp : Bool)
  | block (sp : Bool)
  deriving DecidableEq

/-- Only blanks stand between a carriage return in a leading `--` comment and its
line feed, no leading `/* */` comment holds another opening, and no comment
stands inside the keyword.  The walk stops where the gate has already refused. -/
def commentsAgreeFrom : AgreeMode → Bytes → Bool
  | .lead _, [] => true
  | .lead _, [_] => true
  | .lead sp, c :: d :: s =>
    if c = 45 ∧ d = 45 then commentsAgreeFrom (.line sp) s
    else if c = 47 ∧ d = 42 then commentsAgreeFrom (.block sp) s
    else if isSpace c then commentsAgreeFrom (.lead true) (d :: s)
    else if c = 40 then
      if sp then true else commentsAgreeFrom (.lead false) (d :: s)
    else !splitsKeyword [] (c :: d :: s)
  | .line _, [] => true
  | .line sp, c :: s =>
    if c = 10 then commentsAgreeFrom (.lead true) s
    else if c = 13 then commentsAgreeFrom (.lineEnd sp) s
    else commentsAgreeFrom (.line sp) s
  | .lineEnd _, [] => true
  | .lineEnd sp, c :: s =>
    if c = 10 then commentsAgreeFrom (.lead true) s
    else if isSpace c then commentsAgreeFrom (.lineEnd sp) s
    else false
  | .block _, [] => true
  | .block _, [_] => true
  | .block sp, c :: d :: s =>
    if c = 47 ∧ d = 42 then false
    else if c = 42 ∧ d = 47 then commentsAgreeFrom (.lead sp) s
    else commentsAgreeFrom (.block sp) (d :: s)

/-- The leading comments of a statement are read alike by the gate and by the
server, and none of them splits the keyword. -/
def commentsAgree (sql : Bytes) : Bool := commentsAgreeFrom (.lead false) sql

/-! ## The keyword -/

/-- A byte whose lower case is `x` is `x` or its upper case. -/
theorem eq_or_eq_of_toLowerByte {c x : UInt8} (h : toLowerByte c = x) :
    c = x ∨ c = x - 32 := by
  unfold toLowerByte at h
  split at h
  · right
    rw [← h]
    grind
  · exact Or.inl h

/-- The letters of the two keywords continue an identifier. -/
theorem isIdentByte_of_toLowerByte_mem {c : UInt8}
    (h : toLowerByte c ∈ ascii "select" ++ ascii "with") : isIdentByte c = true := by
  have key : ∀ x ∈ ascii "select" ++ ascii "with",
      isIdentByte x = true ∧ isIdentByte (x - 32) = true := by decide +kernel
  obtain ⟨hlower, hupper⟩ := key _ h
  rcases eq_or_eq_of_toLowerByte (rfl : toLowerByte c = _) with hc | hc
  · rwa [← hc] at hlower
  · rwa [← hc] at hupper

theorem mem_of_isQueryKeyword_append {w r : Bytes} {c : UInt8}
    (h : IsQueryKeyword (w ++ c :: r)) : c ∈ ascii "select" ++ ascii "with" := by
  rw [List.mem_append]
  rcases h with h | h
  · exact Or.inl (by rw [← h]; simp)
  · exact Or.inr (by rw [← h]; simp)

/-- A keyword is no proper beginning of a keyword. -/
theorem not_isQueryKeyword_of_proper {w : Bytes}
    (h : (w <+: ascii "select" ∧ w ≠ ascii "select") ∨
      (w <+: ascii "with" ∧ w ≠ ascii "with")) : ¬ IsQueryKeyword w := by
  rintro (rfl | rfl)
  · rcases h with h | h
    · exact h.2 rfl
    · exact absurd h.1 (by decide)
  · rcases h with h | h
    · exact absurd h.1 (by decide)
    · exact h.2 rfl

/-- What a `--` comment leaves of a word is nothing: the line feed stays. -/
theorem takeWhile_stripFrom_line (s : Bytes) :
    (stripFrom .line s).takeWhile (fun c => !isSpace c) = [] := by
  induction s with
  | nil => rfl
  | cons c s ih =>
    by_cases hc : c = 10
    · subst hc
      rw [stripFrom_line_newline]
      rfl
    · rw [stripFrom_line_cons hc]
      exact ih

/-- **The keyword, when no comment splits it.**  If the gate's word, read from a
text whose first `w` bytes have been passed, is a query keyword, the server's
identifier is that keyword. -/
theorem isQueryKeyword_ident (w s : Bytes) (hsplit : splitsKeyword w s = false)
    (h : IsQueryKeyword
      (w ++ toLower ((stripFrom .text s).takeWhile fun c => !isSpace c))) :
    IsQueryKeyword (w ++ toLower (s.takeWhile isIdentByte)) := by
  induction s generalizing w with
  | nil => simpa using h
  | cons c s ih =>
    have hblank : ∀ {x : UInt8}, isSpace x = true → isIdentByte x = false := by
      intro x hx
      simp only [isSpace, Bool.or_eq_true, decide_eq_true_eq] at hx
      rcases hx with ((((rfl | rfl) | rfl) | rfl) | rfl) | rfl <;> rfl
    cases s with
    | nil =>
      by_cases hc : isSpace c = true
      · simpa [stripFrom, hc, hblank hc] using h
      · have hid : isIdentByte c = true := by
          refine isIdentByte_of_toLowerByte_mem (mem_of_isQueryKeyword_append (w := w) (r := []) ?_)
          simpa [stripFrom, hc] using h
        simpa [stripFrom, hc, hid] using h
    | cons d s =>
      by_cases hline : c = 45 ∧ d = 45
      · -- a `--` comment: the line feed it leaves ends the gate's word here
        obtain ⟨rfl, rfl⟩ := hline
        rw [stripFrom_text_line, takeWhile_stripFrom_line] at h
        exact h
      by_cases hblock : c = 47 ∧ d = 42
      · -- a block comment: the gate's word may go on behind it, so `w` is a keyword already
        obtain ⟨rfl, rfl⟩ := hblock
        have hproper : ¬ ((w <+: ascii "select" ∧ w ≠ ascii "select") ∨
            (w <+: ascii "with" ∧ w ≠ ascii "with")) := by
          simpa [splitsKeyword] using hsplit
        have hw : IsQueryKeyword w := by
          rcases h with h | h
          · by_contra hne
            exact hproper (Or.inl ⟨⟨_, h⟩, fun he => hne (Or.inl he)⟩)
          · by_contra hne
            exact hproper (Or.inr ⟨⟨_, h⟩, fun he => hne (Or.inr he)⟩)
        simpa [isIdentByte, isDigit] using hw
      have hstrip := stripFrom_text_cons (not_or.mpr ⟨hline, hblock⟩) s
      by_cases hc : isSpace c = true
      · simpa [hstrip, hc, hblank hc] using h
      · have hword : IsQueryKeyword (w ++ toLowerByte c ::
            toLower ((stripFrom .text (d :: s)).takeWhile fun c => !isSpace c)) := by
          simpa [hstrip, hc] using h
        have hid : isIdentByte c = true :=
          isIdentByte_of_toLowerByte_mem (mem_of_isQueryKeyword_append hword)
        have hnext : splitsKeyword (w ++ [toLowerByte c]) (d :: s) = false := by
          simpa [splitsKeyword, hblock, hc] using hsplit
        have hrest := ih (w ++ [toLowerByte c]) hnext (by simpa using hword)
        simpa [hid] using hrest

/-! ## The steps of the server's lexer -/

theorem serverLead_line (s : Bytes) :
    serverLead .lead (45 :: 45 :: s) = serverLead .line s := by
  simp [serverLead]

theorem serverLead_block (s : Bytes) :
    serverLead .lead (47 :: 42 :: s) = serverLead (.block 0) s := by
  simp [serverLead]

theorem serverLead_skip {c d : UInt8} (hopen : ¬ opensComment c d)
    (hc : isSpace c = true ∨ c = 40) (s : Bytes) :
    serverLead .lead (c :: d :: s) = serverLead .lead (d :: s) := by
  obtain ⟨h1, h2⟩ := not_or.mp hopen
  simp [serverLead, h1, h2, hc]

theorem serverLead_blank {c : UInt8} (hc : isSpace c = true) (s : Bytes) :
    serverLead .lead (c :: s) = serverLead .lead s := by
  cases s with
  | nil => simp [serverLead, hc]
  | cons d s =>
    refine serverLead_skip ?_ (Or.inl hc) s
    rintro (⟨rfl, -⟩ | ⟨rfl, -⟩)
    · exact absurd hc (by decide)
    · exact absurd hc (by decide)

theorem serverLead_token {c d : UInt8} (hopen : ¬ opensComment c d)
    (hc : isSpace c = false) (hparen : c ≠ 40) (s : Bytes) :
    serverLead .lead (c :: d :: s) = c :: d :: s := by
  obtain ⟨h1, h2⟩ := not_or.mp hopen
  simp [serverLead, h1, h2, hc, hparen]

/-! ## Soundness on the texts both read alike -/

/-- The loop of the stripper a walk mode stands for. -/
@[simp] def AgreeMode.strip : AgreeMode → StripMode
  | .lead _ => .text
  | .line _ => .line
  | .lineEnd _ => .line
  | .block _ => .block

/-- The place of the server's lexer a walk mode stands for. -/
@[simp] def AgreeMode.lex : AgreeMode → LexMode
  | .lead _ => .lead
  | .line _ => .line
  | .lineEnd _ => .lead
  | .block _ => .block 0

/-- Whether the gate has passed a blank. -/
@[simp] def AgreeMode.sp : AgreeMode → Bool
  | .lead sp => sp
  | .line sp => sp
  | .lineEnd sp => sp
  | .block sp => sp

/-- **The two readers in step.**  Along the leading comments the walk, the
stripper and the server's lexer are at the same byte; so the verdict of the gate
on what it has left is the server's on what *it* has left. -/
theorem isQueryKeyword_of_commentsAgreeFrom (m : AgreeMode) (s : Bytes)
    (hagree : commentsAgreeFrom m s = true)
    (hgate : IsQueryKeyword (gateWord m.sp (stripFrom m.strip s))) :
    IsQueryKeyword (toLower ((serverLead m.lex s).takeWhile isIdentByte)) := by
  have hempty : ¬ IsQueryKeyword [] := by decide
  fun_induction commentsAgreeFrom m s with
  | case1 sp => exact absurd (by simpa using hgate) hempty
  | case2 sp c =>
    -- one byte is no keyword
    have hshort : (gateWord sp [c]).length ≤ 1 := length_gateWord_le sp [c]
    rcases hgate with h | h
    · exact absurd (h ▸ hshort) (by decide)
    · exact absurd (h ▸ hshort) (by decide)
  | case3 sp c d s h ih =>
    obtain ⟨rfl, rfl⟩ := h
    simp only [AgreeMode.strip, AgreeMode.lex, stripFrom_text_line, serverLead_line] at hgate ⊢
    exact ih hagree hgate
  | case4 sp c d s _ h ih =>
    obtain ⟨rfl, rfl⟩ := h
    simp only [AgreeMode.strip, AgreeMode.lex, stripFrom_text_block, serverLead_block] at hgate ⊢
    exact ih hagree hgate
  | case5 sp c d s hl hb hc ih =>
    have hopen : ¬ opensComment c d := not_or.mpr ⟨hl, hb⟩
    simp only [AgreeMode.strip, AgreeMode.sp, stripFrom_text_cons hopen,
      gateWord_space _ hc] at hgate
    simp only [AgreeMode.lex, serverLead_skip hopen (Or.inl hc)]
    exact ih hagree hgate
  | case6 d s hl hb _ =>
    -- a parenthesis after a blank: the gate has refused
    simp only [AgreeMode.strip, AgreeMode.sp, stripFrom_text_cons (not_or.mpr ⟨hl, hb⟩)] at hgate
    exact absurd hgate (not_isQueryKeyword_paren _)
  | case7 sp d s hsp hl hb _ ih =>
    have hopen : ¬ opensComment 40 d := not_or.mpr ⟨hl, hb⟩
    obtain rfl : sp = false := by simpa using hsp
    simp only [AgreeMode.strip, AgreeMode.sp, stripFrom_text_cons hopen, gateWord_paren] at hgate
    simp only [AgreeMode.lex, serverLead_skip hopen (Or.inr rfl)]
    exact ih hagree hgate
  | case8 sp c d s hl hb hc hparen =>
    have hopen : ¬ opensComment c d := not_or.mpr ⟨hl, hb⟩
    have hc' : isSpace c = false := by simpa using hc
    have hstrip := stripFrom_text_cons hopen s
    simp only [AgreeMode.strip, AgreeMode.sp] at hgate
    rw [hstrip, gateWord_of_not_space sp hc' (fun _ => hparen), ← hstrip] at hgate
    rw [AgreeMode.lex, serverLead_token hopen hc' hparen]
    exact isQueryKeyword_ident [] _ (by simpa using hagree) hgate
  | case9 sp => exact absurd (by simpa using hgate) hempty
  | case10 sp s ih =>
    simp only [AgreeMode.strip, AgreeMode.sp, stripFrom_line_newline,
      gateWord_space sp (show isSpace 10 = true from rfl)] at hgate
    simpa [serverLead] using ih hagree hgate
  | case11 sp s hnl ih =>
    simp only [AgreeMode.strip, AgreeMode.sp, stripFrom_line_cons hnl] at hgate
    simpa [serverLead] using ih hagree hgate
  | case12 sp c s hnl hcr ih =>
    simp only [AgreeMode.strip, AgreeMode.sp, stripFrom_line_cons hnl] at hgate
    simpa [serverLead, hnl, hcr] using ih hagree hgate
  | case13 sp => exact absurd (by simpa using hgate) hempty
  | case14 sp s ih =>
    simp only [AgreeMode.strip, AgreeMode.sp, stripFrom_line_newline,
      gateWord_space sp (show isSpace 10 = true from rfl)] at hgate
    rw [AgreeMode.lex, serverLead_blank (show isSpace 10 = true from rfl)]
    exact ih hagree hgate
  | case15 sp c s hnl hc ih =>
    -- the server skips as a blank what the gate still drops with the comment
    simp only [AgreeMode.strip, AgreeMode.sp, stripFrom_line_cons hnl] at hgate
    rw [AgreeMode.lex, serverLead_blank hc]
    exact ih hagree hgate
  | case16 => exact absurd hagree (by decide)
  | case17 sp => exact absurd (by simpa using hgate) hempty
  | case18 sp c => exact absurd (by simpa [stripFrom] using hgate) hempty
  | case19 => exact absurd hagree (by decide)
  | case20 sp c d s _ h ih =>
    obtain ⟨rfl, rfl⟩ := h
    simp only [AgreeMode.strip, AgreeMode.sp, stripFrom_block_close] at hgate
    simpa [serverLead] using ih hagree hgate
  | case21 sp c d s hopen hclose ih =>
    simp only [AgreeMode.strip, AgreeMode.sp, stripFrom_block_cons hclose] at hgate
    simpa [serverLead, hopen, hclose] using ih hagree hgate

/-! ## Every other text can be continued to a smuggled statement -/

/-- A text without `-` and `/` is stripped of nothing. -/
theorem stripFrom_text_eq_self {s : Bytes} (h : ∀ c ∈ s, c ≠ 45 ∧ c ≠ 47) :
    stripFrom .text s = s := by
  induction s with
  | nil => rfl
  | cons c s ih =>
    cases s with
    | nil => rfl
    | cons d s =>
      have hopen : ¬ opensComment c d := by
        rintro (⟨rfl, -⟩ | ⟨rfl, -⟩)
        · exact (h 45 (by simp)).1 rfl
        · exact (h 47 (by simp)).2 rfl
      rw [stripFrom_text_cons hopen, ih fun x hx => h x (List.mem_cons_of_mem c hx)]

/-- The missing letters of a keyword, written behind a comment, are what the
gate reads there. -/
theorem gate_reads_letters {m : Bytes} (h : ∀ c ∈ m, c ∈ ascii "select" ++ ascii "with") :
    toLower ((stripFrom .text m).takeWhile fun c => !isSpace c) = m := by
  have key : ∀ c ∈ ascii "select" ++ ascii "with",
      toLowerByte c = c ∧ isSpace c = false ∧ c ≠ 45 ∧ c ≠ 47 := by decide +kernel
  have hword : m.takeWhile (fun c => !isSpace c) = m := by
    rw [List.takeWhile_eq_self_iff]
    intro c hc
    rw [(key c (h c hc)).2.1]
    rfl
  rw [stripFrom_text_eq_self fun c hc => (key c (h c hc)).2.2, hword, toLower]
  conv_rhs => rw [← List.map_id m]
  exact List.map_congr_left fun c hc => (key c (h c hc)).1

/-- A split keyword: closing the comment and writing the missing letters makes
the gate see the whole keyword, while the server has read only its beginning. -/
theorem exists_smuggled_of_splitsKeyword (w s : Bytes) (hsplit : splitsKeyword w s = true) :
    ∃ p t, 2 ≤ p.length ∧ p <+: s ∧
      IsQueryKeyword (w ++ toLower ((stripFrom .text (p ++ t)).takeWhile fun c => !isSpace c)) ∧
      ¬ IsQueryKeyword (w ++ toLower ((p ++ t).takeWhile isIdentByte)) := by
  induction s generalizing w with
  | nil => exact absurd hsplit (by simp [splitsKeyword])
  | cons c s ih =>
    cases s with
    | nil => exact absurd hsplit (by simp [splitsKeyword])
    | cons d s =>
      by_cases hblock : c = 47 ∧ d = 42
      · obtain ⟨rfl, rfl⟩ := hblock
        have hproper : (w <+: ascii "select" ∧ w ≠ ascii "select") ∨
            (w <+: ascii "with" ∧ w ≠ ascii "with") := by
          simpa [splitsKeyword] using hsplit
        obtain ⟨m, hm⟩ : ∃ m, IsQueryKeyword (w ++ m) := by
          rcases hproper with ⟨⟨m, hm⟩, -⟩ | ⟨⟨m, hm⟩, -⟩
          · exact ⟨m, Or.inl hm⟩
          · exact ⟨m, Or.inr hm⟩
        have hletters : ∀ c ∈ m, c ∈ ascii "select" ++ ascii "with" := by
          intro c hc
          rw [List.mem_append]
          rcases hm with hm | hm
          · exact Or.inl (by rw [← hm]; exact List.mem_append_right w hc)
          · exact Or.inr (by rw [← hm]; exact List.mem_append_right w hc)
        refine ⟨[47, 42], 42 :: 47 :: m, le_rfl, ⟨s, rfl⟩, ?_, ?_⟩
        · show IsQueryKeyword (w ++ toLower
            ((stripFrom .text (47 :: 42 :: 42 :: 47 :: m)).takeWhile fun c => !isSpace c))
          rwa [stripFrom_text_block, stripFrom_block_close, gate_reads_letters hletters]
        · have hid : isIdentByte 47 = false := by decide
          simpa [hid] using not_isQueryKeyword_of_proper hproper
      · have hc : isSpace c = false := by
          by_contra hc
          have hc' : isSpace c = true := by simpa using hc
          simp [splitsKeyword, hblock, hc'] at hsplit
        have hnext : splitsKeyword (w ++ [toLowerByte c]) (d :: s) = true := by
          simpa [splitsKeyword, hblock, hc] using hsplit
        obtain ⟨p, t, hlen, ⟨r, hr⟩, hgate, hserver⟩ := ih (w ++ [toLowerByte c]) hnext
        rw [List.append_assoc, List.singleton_append] at hgate hserver
        have hletter := mem_of_isQueryKeyword_append hgate
        have hid : isIdentByte c = true := isIdentByte_of_toLowerByte_mem hletter
        cases p with
        | nil => exact absurd hlen (by decide)
        | cons d' p =>
          obtain ⟨rfl, -⟩ : d' = d ∧ p ++ r = s := by simpa using hr
          have hopen : ¬ opensComment c d' := by
            rintro (⟨rfl, -⟩ | h)
            · exact absurd hletter (by decide)
            · exact hblock h
          refine ⟨c :: d' :: p, t, by simp, ⟨r, by rw [← hr]; rfl⟩, ?_, ?_⟩
          · rw [List.cons_append, List.cons_append, stripFrom_text_cons hopen]
            simpa [hc] using hgate
          · simpa [hid] using hserver

/-- What follows a carriage return inside a `--` comment is the statement for
the server, and comment for the gate. -/
theorem not_isQueryKeyword_after_return {c : UInt8} (hc : isSpace c = false) :
    ¬ IsQueryKeyword (toLower
      ((serverLead .lead (c :: ascii "DELETE\nSELECT")).takeWhile isIdentByte)) := by
  by_cases hparen : c = 40
  · subst hparen
    decide
  · have hopen : ¬ opensComment c 68 := by
      rintro (⟨-, h⟩ | ⟨-, h⟩)
      · exact absurd h (by decide)
      · exact absurd h (by decide)
    have htext : ascii "DELETE\nSELECT" = 68 :: ascii "ELETE\nSELECT" := rfl
    rw [htext, serverLead_token hopen hc hparen]
    by_cases hid : isIdentByte c = true
    · have hword : (c :: 68 :: ascii "ELETE\nSELECT").takeWhile isIdentByte
          = c :: ascii "DELETE" := by
        rw [List.takeWhile_cons_of_pos hid]
        rfl
      rw [hword]
      rintro (h | h)
      · exact absurd (congrArg List.length h) (by simp [ascii])
      · exact absurd (congrArg List.length h) (by simp [ascii])
    · rw [List.takeWhile_cons_of_neg hid]
      decide

/-- Some beginning of `s` can be continued, in the modes `m` stands for, to a
text the gate accepts and the server does not read as a query. -/
def Smuggled (m : AgreeMode) (s : Bytes) : Prop :=
  ∃ p t, p ≠ [] ∧ p <+: s ∧
    IsQueryKeyword (gateWord m.sp (stripFrom m.strip (p ++ t))) ∧
    ¬ IsQueryKeyword (toLower ((serverLead m.lex (p ++ t)).takeWhile isIdentByte))

/-- Both readers pass `q` and are then in the modes `m'` stands for; they may
look ahead one byte. -/
theorem Smuggled.prepend {m m' : AgreeMode} {q s : Bytes} (hq : q ≠ [])
    (hgate : ∀ u : Bytes, u.head? = s.head? →
      gateWord m.sp (stripFrom m.strip (q ++ u)) = gateWord m'.sp (stripFrom m'.strip u))
    (hserver : ∀ u : Bytes, u.head? = s.head? →
      serverLead m.lex (q ++ u) = serverLead m'.lex u)
    (h : Smuggled m' s) : Smuggled m (q ++ s) := by
  obtain ⟨p, t, hp, ⟨r, hr⟩, hg, hs⟩ := h
  have hhead : (p ++ t).head? = s.head? := by
    cases p with
    | nil => exact absurd rfl hp
    | cons d p => rw [← hr]; rfl
  refine ⟨q ++ p, t, fun h => hq (List.append_eq_nil_iff.mp h).1,
    ⟨r, by rw [List.append_assoc, hr]⟩, ?_, ?_⟩
  · rw [List.append_assoc, hgate _ hhead]
    exact hg
  · rw [List.append_assoc, hserver _ hhead]
    exact hs

theorem eq_cons_of_head {d : UInt8} {s u : Bytes} (h : u.head? = (d :: s).head?) :
    ∃ v, u = d :: v := by
  cases u with
  | nil => exact absurd h (by simp)
  | cons x v =>
    obtain rfl : x = d := by simpa using h
    exact ⟨v, rfl⟩

/-- **No test of the leading comments lets more through.**  Where the walk finds
a comment that the two read differently, the text up to and including it can be
continued to a statement that the gate accepts and that does not start with a
query keyword for the server. -/
theorem smuggled_of_commentsAgreeFrom (m : AgreeMode) (s : Bytes)
    (hagree : commentsAgreeFrom m s = false) : Smuggled m s := by
  fun_induction commentsAgreeFrom m s with
  | case1 => exact absurd hagree (by decide)
  | case2 => exact absurd hagree (by decide)
  | case3 sp c d s h ih =>
    obtain ⟨rfl, rfl⟩ := h
    refine Smuggled.prepend (q := [45, 45]) (by simp) (fun u _ => ?_) (fun u _ => ?_) (ih hagree)
    · exact congrArg (gateWord sp) (stripFrom_text_line u)
    · exact serverLead_line u
  | case4 sp c d s _ h ih =>
    obtain ⟨rfl, rfl⟩ := h
    refine Smuggled.prepend (q := [47, 42]) (by simp) (fun u _ => ?_) (fun u _ => ?_) (ih hagree)
    · exact congrArg (gateWord sp) (stripFrom_text_block u)
    · exact serverLead_block u
  | case5 sp c d s hl hb hc ih =>
    have hopen : ¬ opensComment c d := not_or.mpr ⟨hl, hb⟩
    refine Smuggled.prepend (q := [c]) (by simp) (fun u hu => ?_) (fun u _ => ?_) (ih hagree)
    · obtain ⟨v, rfl⟩ := eq_cons_of_head hu
      exact (congrArg (gateWord sp) (stripFrom_text_cons hopen v)).trans (gateWord_space sp hc _)
    · exact serverLead_blank hc u
  | case6 => exact absurd hagree (by decide)
  | case7 sp d s hsp hl hb _ ih =>
    have hopen : ¬ opensComment 40 d := not_or.mpr ⟨hl, hb⟩
    obtain rfl : sp = false := by simpa using hsp
    refine Smuggled.prepend (q := [40]) (by simp) (fun u hu => ?_) (fun u hu => ?_) (ih hagree)
    · obtain ⟨v, rfl⟩ := eq_cons_of_head hu
      exact (congrArg (gateWord false) (stripFrom_text_cons hopen v)).trans (gateWord_paren _)
    · obtain ⟨v, rfl⟩ := eq_cons_of_head hu
      exact serverLead_skip hopen (Or.inr rfl) v
  | case8 sp c d s hl hb hc hparen =>
    have hopen : ¬ opensComment c d := not_or.mpr ⟨hl, hb⟩
    have hc' : isSpace c = false := by simpa using hc
    obtain ⟨p, t, hlen, ⟨r, hr⟩, hgate, hserver⟩ :=
      exists_smuggled_of_splitsKeyword [] (c :: d :: s) (by simpa using hagree)
    obtain ⟨p, rfl⟩ : ∃ p', p = c :: d :: p' := by
      match p, hlen, hr with
      | x :: y :: p, _, hr =>
        obtain ⟨rfl, rfl, -⟩ : x = c ∧ y = d ∧ p ++ r = s := by simpa using hr
        exact ⟨p, rfl⟩
    refine ⟨c :: d :: p, t, List.cons_ne_nil _ _, ⟨r, hr⟩, ?_, ?_⟩
    · have hstrip := stripFrom_text_cons hopen (p ++ t)
      show IsQueryKeyword (gateWord sp (stripFrom .text (c :: d :: (p ++ t))))
      rw [hstrip, gateWord_of_not_space sp hc' (fun _ => hparen), ← hstrip]
      exact hgate
    · show ¬ IsQueryKeyword (toLower
        ((serverLead .lead (c :: d :: (p ++ t))).takeWhile isIdentByte))
      rw [serverLead_token hopen hc' hparen]
      exact hserver
  | case9 => exact absurd hagree (by decide)
  | case10 sp s ih =>
    refine Smuggled.prepend (q := [10]) (by simp) (fun u _ => ?_) (fun u _ => ?_) (ih hagree)
    · exact (congrArg (gateWord sp) (stripFrom_line_newline u)).trans (gateWord_space sp rfl _)
    · simp [serverLead]
  | case11 sp s hnl ih =>
    refine Smuggled.prepend (q := [13]) (by simp) (fun u _ => ?_) (fun u _ => ?_) (ih hagree)
    · exact congrArg (gateWord sp) (stripFrom_line_cons hnl u)
    · simp [serverLead]
  | case12 sp c s hnl hcr ih =>
    refine Smuggled.prepend (q := [c]) (by simp) (fun u _ => ?_) (fun u _ => ?_) (ih hagree)
    · exact congrArg (gateWord sp) (stripFrom_line_cons hnl u)
    · simp [serverLead, hnl, hcr]
  | case13 => exact absurd hagree (by decide)
  | case14 sp s ih =>
    refine Smuggled.prepend (q := [10]) (by simp) (fun u _ => ?_) (fun u _ => ?_) (ih hagree)
    · exact (congrArg (gateWord sp) (stripFrom_line_newline u)).trans (gateWord_space sp rfl _)
    · exact serverLead_blank rfl u
  | case15 sp c s hnl hc ih =>
    refine Smuggled.prepend (q := [c]) (by simp) (fun u _ => ?_) (fun u _ => ?_) (ih hagree)
    · exact congrArg (gateWord sp) (stripFrom_line_cons hnl u)
    · exact serverLead_blank hc u
  | case16 sp c s hnl hc =>
    refine ⟨[c], ascii "DELETE\nSELECT", List.cons_ne_nil _ _, ⟨s, rfl⟩, ?_, ?_⟩
    · show IsQueryKeyword (gateWord sp (stripFrom .line (c :: ascii "DELETE\nSELECT")))
      rw [stripFrom_line_cons hnl]
      cases sp <;> decide
    · exact not_isQueryKeyword_after_return (by simpa using hc)
  | case17 => exact absurd hagree (by decide)
  | case18 => exact absurd hagree (by decide)
  | case19 sp c d s h =>
    obtain ⟨rfl, rfl⟩ := h
    refine ⟨[47, 42], ascii " */SELECT */DELETE", List.cons_ne_nil _ _, ⟨s, rfl⟩, ?_, ?_⟩
    · cases sp <;> decide
    · show ¬ IsQueryKeyword (toLower ((serverLead (.block 0)
        ([47, 42] ++ ascii " */SELECT */DELETE")).takeWhile isIdentByte))
      decide
  | case20 sp c d s _ h ih =>
    obtain ⟨rfl, rfl⟩ := h
    refine Smuggled.prepend (q := [42, 47]) (by simp) (fun u _ => ?_) (fun u _ => ?_) (ih hagree)
    · exact congrArg (gateWord sp) (stripFrom_block_close u)
    · simp [serverLead]
  | case21 sp c d s hopen hclose ih =>
    refine Smuggled.prepend (q := [c]) (by simp) (fun u hu => ?_) (fun u hu => ?_) (ih hagree)
    · obtain ⟨v, rfl⟩ := eq_cons_of_head hu
      exact congrArg (gateWord sp) (stripFrom_block_cons hclose v)
    · obtain ⟨v, rfl⟩ := eq_cons_of_head hu
      simp [serverLead, hopen, hclose]

end Sql
end HttpDataDiod
