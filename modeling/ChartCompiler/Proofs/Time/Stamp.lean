import ChartCompiler.Format.Date
import ChartCompiler.Proofs.Text.Parts
import ChartCompiler.Proofs.Time.Moment

/-!
# Stamps and their labels

A stamp is a date as it is commonly written in data: a month, a day, or a time of day in universal
time, with or without seconds and the letter Z, and every number with leading zeros.  A stamp is
read as the instant it means, the labels of that instant spell the fields of the stamp, and the
instants of two stamps follow each other as their fields do (`Written.Stamp.labelled_in_order`).
-/

set_option autoImplicit false

namespace ChartCompiler

/-! ## The parts of an instant -/

namespace Instant

variable {date : Date} (hour : Fin 24) (minute second : Fin 60)

theorem date_ofDate (valid : date.IsValid) :
    (ofDate date hour minute second 0).date = date := by
  have day : (ofDate date hour minute second 0).seconds / 86400 = date.toDays := by
    simp only [ofDate]
    omega
  rw [Instant.date, day, Date.ofDays_toDays valid]

theorem clock_ofDate : (ofDate date hour minute second 0).clock =
    { hour := hour, minute := minute, second := second } := by
  have clock : ((ofDate date hour minute second 0).seconds % 86400).toNat =
      hour * 3600 + minute * 60 + second := by
    simp only [ofDate]
    omega
  simp only [Instant.clock, clock, Clock.mk.injEq]
  omega

/-- Whether an instant comes before another one. -/
def IsBefore (first second : Instant) : Prop :=
  first.seconds < second.seconds ∨
    first.seconds = second.seconds ∧ first.nanoseconds < second.nanoseconds

/-- Instants follow each other as their dates and times of day do. -/
theorem seconds_ofDate_lt_iff {date' : Date} (valid : date.IsValid) (valid' : date'.IsValid)
    (hour' : Fin 24) (minute' second' : Fin 60) :
    (ofDate date hour minute second 0).seconds < (ofDate date' hour' minute' second' 0).seconds ↔
      date.IsBefore date' ∨ date = date' ∧ (hour < hour' ∨ hour = hour' ∧
        (minute < minute' ∨ minute = minute' ∧ second < second')) := by
  have same : date = date' ↔ date.toDays = date'.toDays := by
    refine ⟨congrArg Date.toDays, fun days => ?_⟩
    rw [← Date.ofDays_toDays valid, days, Date.ofDays_toDays valid']
  rw [← Date.toDays_lt_iff valid valid', same]
  simp only [ofDate]
  omega

end Instant

/-! ## Stamps -/

namespace Written

/-- A month, a day or a time of day, as it is written. -/
inductive Stamp where
  /-- A month, which stands for its first day. -/
  | wholeMonth (day : Day) (isFirst : day.date.day = 1)
  /-- A day. -/
  | wholeDay (day : Day)
  /-- A time of day in universal time, with or without its second and the letter Z. -/
  | clock (day : Day) (separator : Separator) (hour : Fin 24) (minute : Fin 60)
      (second : Option (Fin 60)) (marked : Bool)

namespace Stamp

/-- A time of day as a moment. -/
def moment (day : Day) (separator : Separator) (hour : Fin 24) (minute : Fin 60)
    (second : Option (Fin 60)) (marked : Bool) : Moment :=
  { day, separator, hour, minute
    seconds := second.elim .omitted (.given · none)
    offset := if marked then .zulu else .omitted }

/-- A month with four digits for the year and two for the month. -/
def monthText (day : Day) : String :=
  paddedText 4 day.date.year.toNat ++ "-" ++ paddedText 2 day.date.month

theorem dayText_eq (day : Day) : day.text.toList =
    (monthText day).toList ++ '-' :: (paddedText 2 day.date.day).toList := by
  simp [monthText, Day.text, String.toList_append]

/-- The stamp as it is written. -/
def text : Stamp → String
  | wholeMonth day _ => monthText day
  | wholeDay day => day.text
  | clock day separator hour minute second marked =>
    (moment day separator hour minute second marked).text

/-- The moment that is meant: a month and a day stand for their start. -/
def meant : Stamp → Moment
  | wholeMonth day _ | wholeDay day => day.start
  | clock day separator hour minute second marked =>
    moment day separator hour minute second marked

/-- The date that is meant. -/
def date (stamp : Stamp) : Date :=
  stamp.meant.day.date

/-- The second that is meant. -/
def second (stamp : Stamp) : Fin 60 :=
  stamp.meant.seconds.second

/-- Year, month, day, hour, minute and second. -/
def fields (stamp : Stamp) : List Int :=
  [stamp.date.year, stamp.date.month, stamp.date.day, stamp.meant.hour, stamp.meant.minute,
    stamp.second]

theorem isValid_date (stamp : Stamp) : stamp.date.IsValid :=
  stamp.meant.day.isValid

/-- A stamp means whole seconds of universal time. -/
theorem instant_meant (stamp : Stamp) : stamp.meant.instant =
    Instant.ofDate stamp.date stamp.meant.hour stamp.meant.minute stamp.second 0 := by
  have universal : stamp.meant.offset.seconds = 0 := by
    cases stamp with
    | wholeMonth | wholeDay => rfl
    | clock day separator hour minute second marked => cases marked <;> rfl
  have whole : stamp.meant.seconds.nanoseconds = 0 := by
    cases stamp with
    | wholeMonth | wholeDay => rfl
    | clock day separator hour minute second marked => cases second <;> rfl
  simp only [Moment.instant, universal, whole, Int.sub_zero, date, second]

/-! ### Order -/

theorem seconds_lt_iff (first second : Stamp) :
    first.meant.instant.seconds < second.meant.instant.seconds ↔ first.fields < second.fields := by
  rw [instant_meant, instant_meant,
    Instant.seconds_ofDate_lt_iff _ _ _ first.isValid_date second.isValid_date]
  simp only [fields, List.cons_lt_cons_iff, List.lt_irrefl, and_false, or_false, Date.IsBefore,
    Date.eq_iff_fields, Nat.cast_lt, Nat.cast_inj, Fin.lt_def, Fin.ext_iff]
  tauto

/-! ### Reading -/

/-- A digit takes one byte. -/
theorem utf8Size_of_isDigit {digit : Char} (numeric : digit.isDigit = true) :
    digit.utf8Size = 1 := by
  have range := of_decide_eq_true ((isDigit_eq digit).trans numeric)
  have high : digit.toNat ≤ 57 := range.2
  exact Char.utf8Size_eq_one_iff.mpr (UInt32.le_iff_toNat_le.mpr (Nat.le_trans high (by decide)))

/-- Digits and dashes take one byte each. -/
theorem byteLength_of_dashed {text : List Char}
    (dashed : ∀ character ∈ text, character = '-' ∨ character.isDigit = true) :
    Instant.byteLength text = text.length := by
  rw [Instant.byteLength_eq_sum]
  induction text with
  | nil => rfl
  | cons first rest ih =>
      have single : first.utf8Size = 1 := by
        rcases dashed first List.mem_cons_self with rfl | digit
        · rfl
        · exact utf8Size_of_isDigit digit
      have others := ih fun character later => dashed character (List.mem_cons_of_mem _ later)
      rw [List.map_cons, List.sum_cons, single, others, List.length_cons, Nat.add_comm]

theorem readDay_text (day : Day) :
    Spelling.readDay day.text.toList = some day.start.instant := by
  have read := Spelling.readParts_dayParts day [] []
  rw [List.append_nil, List.append_nil] at read
  rw [Spelling.readDay, read]
  exact (day.toInstant?_parts 0 0 0 0).trans (congrArg some (wholeDay day).instant_meant.symm)

section Day

variable (day : Day)

theorem monthText_dashed : ∀ character ∈ (monthText day).toList,
    character = '-' ∨ character.isDigit = true := by
  intro character member
  simp only [monthText, String.toList_append, List.mem_append] at member
  rcases member with (year | dash) | month
  · exact .inr (isDigit_of_mem_paddedText year)
  · exact .inl (List.mem_singleton.mp dash)
  · exact .inr (isDigit_of_mem_paddedText month)

theorem dayText_dashed : ∀ character ∈ day.text.toList,
    character = '-' ∨ character.isDigit = true := by
  intro character member
  rw [dayText_eq, List.mem_append, List.mem_cons] at member
  rcases member with month | rfl | day
  · exact monthText_dashed _ _ month
  · exact .inl rfl
  · exact .inr (isDigit_of_mem_paddedText day)

theorem length_monthText : (monthText day).toList.length = 7 := by
  have year := length_paddedText (by decide) day.year_lt
  have month := length_paddedText (by decide) day.month_lt
  simp [monthText, String.toList_append, year, month]

theorem length_dayText : day.text.toList.length = 10 := by
  have number := length_paddedText (by decide) day.day_lt
  rw [dayText_eq, List.length_append, length_monthText, List.length_cons, number]

theorem ofText?_dayText :
    Instant.ofText? day.text.toList = some day.start.instant := by
  have bytes := (byteLength_of_dashed (dayText_dashed day)).trans (length_dayText day)
  have dash : '-' ∈ day.text.toList := by simp [dayText_eq]
  rw [Instant.ofText?_of_dash dash, if_neg (by omega), if_pos bytes, readDay_text]

/-- A month is read as its first day. -/
theorem ofText?_monthText (isFirst : day.date.day = 1) :
    Instant.ofText? (monthText day).toList = some day.start.instant := by
  have bytes := (byteLength_of_dashed (monthText_dashed day)).trans (length_monthText day)
  have dash : '-' ∈ (monthText day).toList := by simp [monthText, String.toList_append]
  have first : (monthText day).toList ++ ['-', '0', '1'] = day.text.toList := by
    rw [dayText_eq, isFirst]
    rfl
  rw [Instant.ofText?_of_dash dash, if_pos bytes, first, readDay_text]

end Day

theorem ofText?_text (stamp : Stamp) :
    Instant.ofText? stamp.text.toList = some stamp.meant.instant := by
  cases stamp with
  | wholeMonth day isFirst => exact ofText?_monthText day isFirst
  | wholeDay day => exact ofText?_dayText day
  | clock day separator hour minute second marked =>
      cases second with
      | none =>
          rw [text, Moment.ofText?_of_omitted rfl]
          cases marked <;> rfl
      | some second => exact Moment.ofText?_of_given rfl

/-! ### Ends -/

/-- A text that ends with a number ends with a digit. -/
theorem last_paddedText {width number : Nat} (positive : 0 < width) (fits : number < tenTo width)
    (before : List Char) :
    ∀ last ∈ (before ++ (paddedText width number).toList).getLast?, Text.isBlank last = false := by
  intro last ends
  rw [List.getLast?_append_of_ne_nil _ (paddedText_ne_nil positive fits)] at ends
  exact isBlank_of_isDigit (isDigit_of_mem_paddedText (List.mem_of_getLast? ends))

/-- Every stamp starts with its year. -/
theorem exists_rest (stamp : Stamp) : ∃ rest, stamp.text.toList =
    (paddedText 4 stamp.date.year.toNat).toList ++ rest := by
  cases stamp with
  | wholeMonth day isFirst =>
      refine ⟨'-' :: (paddedText 2 day.date.month).toList, ?_⟩
      simp [text, monthText, date, meant, Day.start]
  | wholeDay day =>
      have whole := day.toList_text_append []
      rw [List.append_nil] at whole
      exact ⟨_, whole⟩
  | clock day separator hour minute second marked =>
      rw [text, Moment.toList_text, Moment.toList_head_append, Day.toList_text_append]
      exact ⟨_, rfl⟩

theorem first_text (stamp : Stamp) :
    ∀ first ∈ stamp.text.toList.head?, Text.isBlank first = false := by
  obtain ⟨rest, whole⟩ := stamp.exists_rest
  have year : stamp.date.year.toNat < tenTo 4 := stamp.meant.day.year_lt
  obtain ⟨digit, others, numeric, written⟩ :=
    Spelling.exists_digit_cons_paddedText (by decide) year rest
  intro first starts
  rw [whole, written] at starts
  obtain rfl := Option.some.inj starts
  exact isBlank_of_isDigit numeric

theorem last_text (stamp : Stamp) :
    ∀ last ∈ stamp.text.toList.getLast?, Text.isBlank last = false := by
  cases stamp with
  | wholeMonth day isFirst =>
      rw [text, monthText, String.toList_append]
      exact last_paddedText (by decide) day.month_lt _
  | wholeDay day =>
      rw [text, Day.text, String.toList_append]
      exact last_paddedText (by decide) day.day_lt _
  | clock day separator hour minute second marked =>
      cases marked with
      | true =>
          have whole : (moment day separator hour minute second true).text.toList =
              ((moment day separator hour minute second true).head.toList ++
                (moment day separator hour minute second true).seconds.text.toList) ++ ['Z'] := by
            simp [Moment.text, moment, Offset.text]
          intro last ends
          rw [text, whole, List.getLast?_concat] at ends
          obtain rfl := Option.some.inj ends
          decide
      | false =>
          cases second with
          | none =>
              have bare : (moment day separator hour minute none false).text.toList =
                  (moment day separator hour minute none false).head.toList := by
                simp [Moment.text, moment, Seconds.text, Offset.text]
              rw [text, bare, Moment.head, String.toList_append]
              exact last_paddedText (by decide) (twoDigits minute) _
          | some second =>
              have whole : (moment day separator hour minute (some second) false).text.toList =
                  (moment day separator hour minute (some second) false).head.toList ++ [':'] ++
                    (paddedText 2 second).toList := by
                simp [Moment.text, moment, Seconds.text, Offset.text]
              rw [text, whole]
              exact last_paddedText (by decide) (twoDigits second) _

/-- A stamp is not trimmed. -/
theorem trimBlanks_text (stamp : Stamp) : Text.trimBlanks stamp.text.toList = stamp.text.toList :=
  Text.trimBlanks_eq_self stamp.first_text stamp.last_text

/-! ### Labels -/

/-- What the labels of an instant spell: these texts for year, month, day, hour and minute. -/
structure LabelsSpell (instant : Instant) (year month day hour minute : String) : Prop where
  /-- Years. -/
  yearly (place : LabelPlace) : dateLabel instant .yearly place = year
  /-- Months with their years. -/
  monthly (place : LabelPlace) : dateLabel instant .monthly place = month ++ " " ++ year
  /-- Days. -/
  daily : dateLabel instant .daily .tooltip = month ++ " " ++ day ++ ", " ++ year
  /-- Minutes. -/
  subDaily : dateLabel instant .subDaily .tooltip =
    month ++ " " ++ day ++ ", " ++ year ++ " " ++ (hour ++ ":" ++ minute)

/-- The numbers of the months by their names. -/
def namedMonths : List (String × Nat) :=
  [("Jan", 1), ("Feb", 2), ("Mar", 3), ("Apr", 4), ("May", 5), ("Jun", 6), ("Jul", 7), ("Aug", 8),
    ("Sep", 9), ("Oct", 10), ("Nov", 11), ("Dec", 12)]

/-- A number below a hundred with two digits. -/
def inTwoDigits (number : Nat) : String :=
  (if number < 10 then "0" else "") ++ toString number

/-- Whether the labels of an instant spell the fields of a stamp. -/
def IsSpelledBy (stamp : Stamp) (instant : Instant) : Prop :=
  ∃ month, (month, stamp.date.month) ∈ namedMonths ∧
    LabelsSpell instant (toString stamp.date.year) month (toString stamp.date.day)
      (inTwoDigits stamp.meant.hour) (inTwoDigits stamp.meant.minute)

theorem monthName_mem_namedMonths {month : Nat} (first : 1 ≤ month) (last : month ≤ 12) :
    (monthName month, month) ∈ namedMonths := by
  have named : ∀ place < 12, (monthName (place + 1), place + 1) ∈ namedMonths := by decide
  obtain ⟨place, rfl⟩ := Nat.exists_eq_add_of_le' first
  exact named place (by omega)

theorem paddedText_two {number : Nat} (fits : number < 100) :
    paddedText 2 number = inTwoDigits number := by
  revert number
  decide +kernel

theorem isSpelledBy_meant (stamp : Stamp) : stamp.IsSpelledBy stamp.meant.instant := by
  have date : stamp.meant.instant.date = stamp.date := by
    rw [instant_meant]
    exact Instant.date_ofDate _ _ _ stamp.isValid_date
  have clock : stamp.meant.instant.clock =
      { hour := stamp.meant.hour, minute := stamp.meant.minute, second := stamp.second } := by
    rw [instant_meant, Instant.clock_ofDate]
  have hour := congrArg (fun clock => paddedText 2 clock.hour) clock
  have minute := congrArg (fun clock => paddedText 2 clock.minute) clock
  obtain ⟨-, -, first, last, -⟩ := stamp.isValid_date
  refine ⟨monthName stamp.date.month, monthName_mem_namedMonths first last, ?_⟩
  rw [← paddedText_two (by omega), ← paddedText_two (by omega), ← integerText_eq_toString,
    ← naturalText_eq_toString, ← date, ← hour, ← minute]
  exact ⟨fun _ => rfl, fun _ => rfl, rfl, rfl⟩

theorem ofCell?_text (stamp : Stamp) :
    Instant.ofCell? (.string stamp.text) = some stamp.meant.instant := by
  rw [Instant.ofCell?, stamp.trimBlanks_text, stamp.ofText?_text]

theorem isBefore_meant_iff (first second : Stamp) :
    first.meant.instant.IsBefore second.meant.instant ↔ first.fields < second.fields := by
  rw [← seconds_lt_iff, Instant.IsBefore]
  simp only [instant_meant, Instant.ofDate, Nat.lt_irrefl, and_false, or_false]

/-- **Stamps are read as instants whose labels spell their fields and that follow each other as
their fields do.** -/
theorem labelled_in_order (first second : Stamp) : ∃ instant instant',
    Instant.ofCell? (.string first.text) = some instant ∧
      Instant.ofCell? (.string second.text) = some instant' ∧
      first.IsSpelledBy instant ∧ second.IsSpelledBy instant' ∧
      (instant.IsBefore instant' ↔ first.fields < second.fields) :=
  ⟨first.meant.instant, second.meant.instant, first.ofCell?_text, second.ofCell?_text,
    first.isSpelledBy_meant, second.isSpelledBy_meant, isBefore_meant_iff first second⟩

/-- The last second of a century follows the leap day of its last year. -/
example : Instant.ofCell? (.string "2000-02-29") = some { seconds := 951782400, nanoseconds := 0 } ∧
    Instant.ofCell? (.string "2000-12-31 23:59:59Z") =
      some { seconds := 978307199, nanoseconds := 0 } := by
  decide +kernel

end Stamp

end Written

end ChartCompiler
