import HttpDataDiod.Sql.OracleExecutor

/-!
# The text of an Oracle timestamp

`format_timestamp` writes the fields one after the other, each up to a separator, a fraction
and a zone offset only when there are any.  The sign of the offset is the sign of its hours:
an offset of less than an hour is written with a plus, to the east and to the west of UTC.

* `ValidTimestamp`: a timestamp with its fields in range.
* `dateText`, `fractionText`, `zoneText`: the parts of the text.
* `ZoneMirrored`: two timestamps whose offsets are the same minutes to both sides.
* `formatTimestamp_eq_iff`: these are the only two that are written alike.
-/

namespace HttpDataDiod
namespace Sql

open ByteText

/-- The values that Oracle delivers. -/
structure ValidTimestamp extends DpiTimestamp where
  year_ge : -4712 ≤ year
  year_le : year ≤ 9999
  month_pos : 1 ≤ month
  month_le : month ≤ 12
  day_pos : 1 ≤ day
  day_le : day ≤ 31
  hour_le : hour ≤ 23
  minute_le : minute ≤ 59
  second_le : second ≤ 59
  fsecond_le : fsecond ≤ 999999999
  tzHour_le : tzHourOffset.natAbs ≤ 14
  tzMinute_le : tzMinuteOffset.natAbs ≤ 59
  not_opposite : ¬ (tzHourOffset < 0 ∧ 0 < tzMinuteOffset)
  not_opposite' : ¬ (0 < tzHourOffset ∧ tzMinuteOffset < 0)

attribute [ext] DpiTimestamp

/-! ## The parts of the text -/

/-- The fraction, if there is one. -/
def fractionText (t : DpiTimestamp) : Bytes :=
  if t.fsecond ≠ 0 then ascii "." ++ zeroPadded 9 t.fsecond else []

/-- The zone offset, if there is one. -/
def zoneText (t : DpiTimestamp) : Bytes :=
  if t.tzHourOffset ≠ 0 ∨ t.tzMinuteOffset ≠ 0 then
    ascii " " ++ (if t.tzHourOffset < 0 then ascii "-" else ascii "+") ++
      zeroPadded 2 t.tzHourOffset.natAbs ++ ascii ":" ++ zeroPadded 2 t.tzMinuteOffset.natAbs
  else []

/-- The date and the time, in front of the other parts. -/
def dateText (t : DpiTimestamp) (rest : Bytes) : Bytes :=
  zeroPadded 4 t.year ++ 45 :: (zeroPadded 2 t.month ++ 45 :: (zeroPadded 2 t.day ++
    32 :: (zeroPadded 2 t.hour ++ 58 :: (zeroPadded 2 t.minute ++
      58 :: (zeroPadded 2 t.second ++ rest)))))

theorem formatTimestamp_eq (t : DpiTimestamp) :
    formatTimestamp t = dateText t (fractionText t ++ zoneText t) := by
  have hparts : formatTimestamp t = zeroPadded 4 t.year ++ ascii "-" ++ zeroPadded 2 t.month ++
      ascii "-" ++ zeroPadded 2 t.day ++ ascii " " ++ zeroPadded 2 t.hour ++ ascii ":" ++
      zeroPadded 2 t.minute ++ ascii ":" ++ zeroPadded 2 t.second ++ fractionText t ++
      zoneText t := rfl
  rw [hparts]
  simp only [List.append_assoc]
  rfl

/-- No digit comes first in the parts behind the date. -/
theorem head_zoneText {t : DpiTimestamp} : ∀ d ∈ (zoneText t).head?, d = 32 := by
  intro d hd
  unfold zoneText at hd
  split at hd
  · exact (Option.some.inj hd).symm
  · cases hd

theorem head_fractionText_append {t : DpiTimestamp} {d : UInt8}
    (hd : d ∈ (fractionText t ++ zoneText t).head?) : isDigit d = false := by
  unfold fractionText at hd
  split at hd
  · obtain rfl := Option.some.inj hd
    decide
  · rw [List.nil_append] at hd
    rw [head_zoneText d hd]
    decide

/-- **The fields of the date** can be read off the text. -/
theorem dateText_inj {t u : DpiTimestamp} {r s : Bytes}
    (hr : ∀ d ∈ r.head?, isDigit d = false) (hs : ∀ d ∈ s.head?, isDigit d = false)
    (h : dateText t r = dateText u s) :
    (t.year = u.year ∧ t.month = u.month ∧ t.day = u.day ∧ t.hour = u.hour ∧
      t.minute = u.minute ∧ t.second = u.second) ∧ r = s := by
  have hseparator : ∀ {c : UInt8} {rest : Bytes}, isDigit c = false →
      ∀ d ∈ (c :: rest).head?, isDigit d = false := by
    intro c rest hc d hd
    rwa [← Option.some.inj hd]
  have hdash : isDigit 45 = false := by decide
  have hblank : isDigit 32 = false := by decide
  have hcolon : isDigit 58 = false := by decide
  unfold dateText at h
  obtain ⟨hyear, h⟩ := zeroPadded_append_inj (hseparator hdash) (hseparator hdash) h
  obtain ⟨hmonth, h⟩ :=
    zeroPadded_append_inj (hseparator hdash) (hseparator hdash) (List.cons.inj h).2
  obtain ⟨hday, h⟩ :=
    zeroPadded_append_inj (hseparator hblank) (hseparator hblank) (List.cons.inj h).2
  obtain ⟨hhour, h⟩ :=
    zeroPadded_append_inj (hseparator hcolon) (hseparator hcolon) (List.cons.inj h).2
  obtain ⟨hminute, h⟩ :=
    zeroPadded_append_inj (hseparator hcolon) (hseparator hcolon) (List.cons.inj h).2
  obtain ⟨hsecond, hrest⟩ := zeroPadded_append_inj hr hs (List.cons.inj h).2
  exact ⟨⟨hyear, by omega, by omega, by omega, by omega, by omega⟩, hrest⟩

/-- **The fraction** can be read off the text behind the date. -/
theorem fractionText_inj {t u : DpiTimestamp}
    (h : fractionText t ++ zoneText t = fractionText u ++ zoneText u) :
    t.fsecond = u.fsecond ∧ zoneText t = zoneText u := by
  have hdigit : ∀ {x : DpiTimestamp}, ∀ d ∈ (zoneText x).head?, isDigit d = false := by
    intro x d hd
    rw [head_zoneText d hd]
    decide
  -- a point starts no zone offset
  have hpoint : ∀ {x : DpiTimestamp} {rest : Bytes}, 46 :: rest ≠ zoneText x := by
    intro x rest heq
    have hhead := @head_zoneText x 46 (by rw [← heq]; rfl)
    exact absurd hhead (by decide)
  unfold fractionText at h
  by_cases ht : t.fsecond ≠ 0
  · by_cases hu : u.fsecond ≠ 0
    · rw [if_pos ht, if_pos hu] at h
      obtain ⟨hfraction, hzone⟩ := zeroPadded_append_inj hdigit hdigit (List.cons.inj h).2
      exact ⟨by omega, hzone⟩
    · rw [if_pos ht, if_neg hu] at h
      exact absurd h hpoint
  · by_cases hu : u.fsecond ≠ 0
    · rw [if_neg ht, if_pos hu] at h
      exact absurd h.symm hpoint
    · rw [if_neg ht, if_neg hu] at h
      exact ⟨by omega, h⟩

/-- An offset that is written. -/
theorem zoneText_of_ne {t : DpiTimestamp} (h : t.tzHourOffset ≠ 0 ∨ t.tzMinuteOffset ≠ 0) :
    zoneText t = 32 :: (if t.tzHourOffset < 0 then 45 else 43) ::
      (zeroPadded 2 t.tzHourOffset.natAbs ++ 58 :: zeroPadded 2 t.tzMinuteOffset.natAbs) := by
  rw [zoneText, if_pos h]
  simp only [List.append_assoc]
  split
  · rfl
  · rfl

/-- **What the zone offset says**: the hours with their sign, and the minutes, without a sign when
there are no hours. -/
theorem zoneText_eq {t u : ValidTimestamp}
    (h : zoneText t.toDpiTimestamp = zoneText u.toDpiTimestamp) :
    t.tzHourOffset = u.tzHourOffset ∧
      (t.tzMinuteOffset = u.tzMinuteOffset ∨
        t.tzHourOffset = 0 ∧ t.tzMinuteOffset = -u.tzMinuteOffset) := by
  have hcolon : ∀ {rest : Bytes}, ∀ d ∈ (58 :: rest).head?, isDigit d = false := by
    intro rest d hd
    rw [← Option.some.inj hd]
    decide
  have hnone : ∀ {x : DpiTimestamp}, ¬ (x.tzHourOffset ≠ 0 ∨ x.tzMinuteOffset ≠ 0) →
      zoneText x = [] := fun hx => if_neg hx
  by_cases ht : t.tzHourOffset ≠ 0 ∨ t.tzMinuteOffset ≠ 0
  · by_cases hu : u.tzHourOffset ≠ 0 ∨ u.tzMinuteOffset ≠ 0
    · rw [zoneText_of_ne ht, zoneText_of_ne hu] at h
      obtain ⟨hsign, hnumbers⟩ := List.cons.inj (List.cons.inj h).2
      obtain ⟨hhours, hminutes⟩ := zeroPadded_append_inj hcolon hcolon hnumbers
      have hminutes := zeroPadded_inj (List.cons.inj hminutes).2
      have hsame : t.tzHourOffset < 0 ↔ u.tzHourOffset < 0 := by
        by_cases htneg : t.tzHourOffset < 0
        · by_cases huneg : u.tzHourOffset < 0
          · exact iff_of_true htneg huneg
          · rw [if_pos htneg, if_neg huneg] at hsign
            exact absurd hsign (by decide)
        · by_cases huneg : u.tzHourOffset < 0
          · rw [if_neg htneg, if_pos huneg] at hsign
            exact absurd hsign (by decide)
          · exact iff_of_false htneg huneg
      have h1 := t.not_opposite
      have h2 := t.not_opposite'
      have h3 := u.not_opposite
      have h4 := u.not_opposite'
      omega
    · rw [zoneText_of_ne ht, hnone hu] at h
      cases h
  · by_cases hu : u.tzHourOffset ≠ 0 ∨ u.tzMinuteOffset ≠ 0
    · rw [hnone ht, zoneText_of_ne hu] at h
      cases h
    · omega

/-! ## Which timestamps are written alike -/

/-- Two timestamps that differ only in that the zone offset, of less than an hour, is to the east
of UTC in one and as much to the west in the other. -/
structure ZoneMirrored (t u : DpiTimestamp) : Prop where
  mirrored : u = { t with tzMinuteOffset := -t.tzMinuteOffset }
  no_hours : t.tzHourOffset = 0
  minutes_ne : t.tzMinuteOffset ≠ 0

theorem ZoneMirrored.ne {t u : DpiTimestamp} (h : ZoneMirrored t u) : t ≠ u := by
  intro heq
  have hminutes : u.tzMinuteOffset = -t.tzMinuteOffset := by rw [h.mirrored]
  have hne := h.minutes_ne
  rw [← heq] at hminutes
  omega

/-- The offset is written with a plus in both. -/
theorem formatTimestamp_of_mirrored {t u : DpiTimestamp} (h : ZoneMirrored t u) :
    formatTimestamp t = formatTimestamp u := by
  obtain ⟨rfl, hhours, hne⟩ := h
  rw [formatTimestamp_eq, formatTimestamp_eq]
  have hzone : zoneText t = zoneText { t with tzMinuteOffset := -t.tzMinuteOffset } := by
    rw [zoneText_of_ne (.inr hne), zoneText_of_ne (.inr (Int.neg_ne_zero.mpr hne))]
    rw [Int.natAbs_neg]
  rw [hzone]
  rfl

/-- **Which timestamps are written alike.** -/
theorem formatTimestamp_eq_iff (t u : ValidTimestamp) :
    formatTimestamp t.toDpiTimestamp = formatTimestamp u.toDpiTimestamp ↔
      t.toDpiTimestamp = u.toDpiTimestamp ∨ ZoneMirrored t.toDpiTimestamp u.toDpiTimestamp := by
  constructor
  · intro h
    rw [formatTimestamp_eq, formatTimestamp_eq] at h
    obtain ⟨⟨hyear, hmonth, hday, hhour, hminute, hsecond⟩, hrest⟩ :=
      dateText_inj (fun d => head_fractionText_append) (fun d => head_fractionText_append) h
    obtain ⟨hfraction, hzone⟩ := fractionText_inj hrest
    obtain ⟨hhours, hminutes⟩ := zoneText_eq hzone
    by_cases hsame : t.tzMinuteOffset = u.tzMinuteOffset
    · refine .inl ?_
      ext
      all_goals assumption
    · obtain ⟨hnone, hopposite⟩ := hminutes.resolve_left hsame
      refine .inr ⟨?_, hnone, by omega⟩
      ext
      case tzMinuteOffset =>
        show u.tzMinuteOffset = -t.tzMinuteOffset
        omega
      all_goals exact Eq.symm (by assumption)
  · rintro (h | h)
    · rw [h]
    · exact formatTimestamp_of_mirrored h

/-- **The timestamps stay distinguishable** unless their offsets are mirrored. -/
theorem formatTimestamp_distinguishes_iff (t u : ValidTimestamp) :
    (t.toDpiTimestamp ≠ u.toDpiTimestamp →
        formatTimestamp t.toDpiTimestamp ≠ formatTimestamp u.toDpiTimestamp) ↔
      ¬ ZoneMirrored t.toDpiTimestamp u.toDpiTimestamp := by
  rw [Ne, Ne, formatTimestamp_eq_iff]
  constructor
  · intro h hmirrored
    exact h hmirrored.ne (.inr hmirrored)
  · rintro h hne (heq | hmirrored)
    · exact hne heq
    · exact h hmirrored

/-- A timestamp with a zone offset of so many minutes. -/
def atOffset (minutes : ℤ) (h : minutes.natAbs ≤ 59) : ValidTimestamp where
  year := 2024
  month := 2
  day := 29
  hour := 12
  minute := 0
  second := 0
  fsecond := 0
  tzHourOffset := 0
  tzMinuteOffset := minutes
  year_ge := by decide
  year_le := by decide
  month_pos := by decide
  month_le := by decide
  day_pos := by decide
  day_le := by decide
  hour_le := by decide
  minute_le := by decide
  second_le := by decide
  fsecond_le := by decide
  tzHour_le := by decide
  tzMinute_le := h
  not_opposite := fun h => absurd h.1 (by decide)
  not_opposite' := fun h => absurd h.1 (by decide)

/-- Half an hour to either side is written as `+00:30`. -/
theorem halfHours_alike :
    (atOffset 30 (by decide)).toDpiTimestamp ≠ (atOffset (-30) (by decide)).toDpiTimestamp ∧
    formatTimestamp (atOffset 30 (by decide)).toDpiTimestamp =
      ascii "2024-02-29 12:00:00 +00:30" ∧
    formatTimestamp (atOffset (-30) (by decide)).toDpiTimestamp =
      ascii "2024-02-29 12:00:00 +00:30" := by
  refine ⟨fun h => ?_, by decide +kernel, by decide +kernel⟩
  exact absurd (congrArg DpiTimestamp.tzMinuteOffset h) (by decide)

end Sql
end HttpDataDiod
