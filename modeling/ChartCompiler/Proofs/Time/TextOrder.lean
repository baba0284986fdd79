import ChartCompiler.Proofs.Time.Reading
import ChartCompiler.Proofs.Time.Stamp
import Mathlib.Data.String.Basic

/-!
# The order of dates as texts

Dates are written from the largest part to the smallest, and every part has a fixed number of
digits.  So the texts of two dates are ordered as the dates are, as long as they are spelled alike:
with the same marks between the parts, and with offsets that do not decide (`Label.IsAlike`).  A
date that is broken off early stands for the start of what it names, and its text comes before those
that go on.

The same holds among counts, where ten digits for seconds may be followed by three for
milliseconds.  It does not hold between a count and a date of the calendar.
-/

set_option autoImplicit false

namespace ChartCompiler

/-- Of two lists, the order of beginnings of one length decides. -/
theorem append_lt_append_of_length {κ : Type} [LT κ] {first second : List κ}
    (length : first.length = second.length) (less : first < second) (rest rest' : List κ) :
    first ++ rest < second ++ rest' := by
  induction first generalizing second with
  | nil =>
      obtain rfl := List.length_eq_zero_iff.mp length.symm
      exact absurd less (List.not_lt_nil _)
  | cons head tail ih =>
      cases second with
      | nil => cases length
      | cons head' tail' =>
          rw [List.cons_append, List.cons_append, List.cons_lt_cons_iff]
          apply (List.cons_lt_cons_iff.mp less).imp id
          rintro ⟨same, later⟩
          exact ⟨same, ih (Nat.succ.inj length) later⟩

/-- Of two numbers with leading zeros, the smaller one comes first. -/
theorem paddedText_lt {width first second : Nat} (positive : 0 < width)
    (fits : first < tenTo width) (fits' : second < tenTo width) (less : first < second) :
    (paddedText width first).toList < (paddedText width second).toList := by
  apply lt_of_digitsValue_lt
  · exact fun _ => isDigit_of_mem_paddedText
  · exact fun _ => isDigit_of_mem_paddedText
  · rw [length_paddedText positive fits, length_paddedText positive fits']
  · rwa [digitsValue_paddedText, digitsValue_paddedText]

namespace Instant

/-- An instant has one date and one time of day. -/
theorem eq_of_seconds_ofDate_eq {date date' : Date} (valid : date.IsValid)
    (valid' : date'.IsValid) {hour hour' : Fin 24} {minute minute' second second' : Fin 60}
    (same : (ofDate date hour minute second 0).seconds =
      (ofDate date' hour' minute' second' 0).seconds) :
    date = date' ∧ hour = hour' ∧ minute = minute' ∧ second = second' := by
  simp only [ofDate] at same
  have days : date.toDays = date'.toDays := by omega
  refine ⟨?_, Fin.ext (by omega), Fin.ext (by omega), Fin.ext (by omega)⟩
  rw [← Date.ofDays_toDays valid, days, Date.ofDays_toDays valid']

/-- Digits are read as a count. -/
theorem ofText?_of_digits {digits : List Char} (numeric : ∀ digit ∈ digits, digit.isDigit = true)
    (occupied : digits ≠ []) (small : digitsValue digits < twoTo 63) :
    ofText? digits = ofEpoch (digitsValue digits) digits.length := by
  rw [ofText?_eq_of_digits numeric occupied, if_pos small]

/-- A count of milliseconds is one of seconds and a rest. -/
theorem ofEpoch_thirteen (seconds : Nat) (milliseconds : Fin 1000) :
    ofEpoch ((seconds * 1000 + milliseconds : Nat) : Int) 13 =
      some { seconds, nanoseconds := milliseconds * 1000000 } := by
  have whole : ((seconds * 1000 + milliseconds : Nat) : Int) / 1000 = seconds := by omega
  have part : (((seconds * 1000 + milliseconds : Nat) : Int) % 1000).toNat = milliseconds := by
    omega
  rw [ofEpoch, if_neg (by decide), if_pos rfl, whole, part]

end Instant

namespace Written

/-! ## Spelling -/

/-- A place in the spelling of a date: a mark, and the least digits that may follow it. -/
structure Slot where
  /-- What stands before the digits. -/
  mark : List Char
  /-- The least digits. -/
  least : List Char

/-- The digits of some places with their marks. -/
def spell : List Slot → List (List Char) → List Char
  | slot :: slots, part :: parts => slot.mark ++ part ++ spell slots parts
  | _, _ => []

/-- The digits of all places, where those that are not written are the least ones. -/
def complete (slots : List Slot) (parts : List (List Char)) : List (List Char) :=
  parts ++ (slots.drop parts.length).map (·.least)

/-- Digits fit their places. -/
inductive Fits : List Slot → List (List Char) → Prop where
  /-- Nothing is written. -/
  | nil (slots : List Slot) : Fits slots []
  /-- One more part is written, with as many digits as the least ones. -/
  | cons {slot : Slot} {slots : List Slot} {part : List Char} {parts : List (List Char)}
      (length : part.length = slot.least.length) (occupied : part ≠ [])
      (numeric : ∀ digit ∈ part, digit.isDigit = true) (least : ¬ part < slot.least)
      (rest : Fits slots parts) : Fits (slot :: slots) (part :: parts)

theorem complete_cons (slot : Slot) (slots : List Slot) (part : List Char)
    (parts : List (List Char)) :
    complete (slot :: slots) (part :: parts) = part :: complete slots parts := rfl

theorem Fits.padded {mark : List Char} {width least number : Nat} {slots : List Slot}
    {parts : List (List Char)} (positive : 0 < width) (fits : number < tenTo width)
    (above : least ≤ number) (rest : Fits slots parts) :
    Fits (⟨mark, (paddedText width least).toList⟩ :: slots)
      ((paddedText width number).toList :: parts) := by
  have fits' := Nat.lt_of_le_of_lt above fits
  have ordered : ¬ (paddedText width number).toList < (paddedText width least).toList := by
    rcases Nat.eq_or_lt_of_le above with rfl | greater
    · exact List.lt_irrefl _
    · exact (paddedText_lt positive fits' fits greater).not_gt
  refine .cons ?_ (paddedText_ne_nil positive fits) (fun _ => isDigit_of_mem_paddedText) ordered
    rest
  rw [length_paddedText positive fits, length_paddedText positive fits']

/-- What is not written is the least. -/
theorem Fits.not_complete_lt {slots : List Slot} {parts : List (List Char)}
    (fits : Fits slots parts) : ¬ complete slots parts < slots.map (·.least) := by
  induction fits with
  | nil slots => exact List.lt_irrefl _
  | cons _ _ _ least _ ih =>
      rw [complete_cons, List.map_cons, List.cons_lt_cons_iff]
      rintro (less | ⟨-, less⟩)
      · exact least less
      · exact ih less

/-- What is spelled comes in the order of its digits, if nothing follows a text that is broken off
earlier. -/
theorem spell_append_lt {slots : List Slot} {first second : List (List Char)}
    (fits : Fits slots first) (fits' : Fits slots second)
    (less : complete slots first < complete slots second) {tail tail' : List Char}
    (ends : first.length < second.length → tail = []) :
    spell slots first ++ tail < spell slots second ++ tail' := by
  induction fits generalizing second with
  | nil slots =>
      cases fits' with
      | nil => exact absurd less (List.lt_irrefl _)
      | @cons slot slots part parts _ occupied =>
          obtain rfl := ends (Nat.succ_pos _)
          obtain ⟨digit, digits, rfl⟩ := List.exists_cons_of_ne_nil occupied
          cases marked : slot.mark with
          | nil => simp [spell, marked]
          | cons mark marks => simp [spell, marked]
  | @cons slot slots part parts length occupied numeric least rest ih =>
      cases fits' with
      | nil => exact absurd less (Fits.cons length occupied numeric least rest).not_complete_lt
      | @cons _ _ part' parts' length' _ _ _ rest' =>
          simp only [spell, List.append_assoc]
          apply List.append_left_lt
          rw [complete_cons, complete_cons, List.cons_lt_cons_iff] at less
          rcases less with before | ⟨rfl, later⟩
          · exact append_lt_append_of_length (length.trans length'.symm) before _ _
          · apply List.append_left_lt
            apply ih rest' later
            intro shorter
            exact ends (Nat.succ_lt_succ shorter)

/-- What is spelled ends with a digit. -/
theorem isDigit_of_spell_ends {slots : List Slot} {parts : List (List Char)}
    (fits : Fits slots parts) :
    ∀ last ∈ (spell slots parts).getLast?, last.isDigit = true := by
  induction fits with
  | nil slots => cases slots <;> simp [spell]
  | @cons slot slots part parts _ occupied numeric _ _ ih =>
      intro last ends
      rw [spell, List.getLast?_append, Option.mem_def, Option.or_eq_some_iff] at ends
      rcases ends with later | ⟨-, here⟩
      · exact ih last later
      · rw [List.getLast?_append_of_ne_nil _ occupied] at here
        exact numeric last (List.mem_of_getLast? here)

/-! ## Dates of the calendar -/

/-- The digits of a fraction, the first one after a point. -/
def fractionSlots : List Slot :=
  ⟨['.'], ['0']⟩ :: List.replicate 8 ⟨[], ['0']⟩

/-- Year, month, day, hour, minute, second, and the digits of a fraction. -/
def calendarSlots (separator : Separator) : List Slot :=
  [ ⟨[], (paddedText 4 0).toList⟩, ⟨['-'], (paddedText 2 1).toList⟩,
    ⟨['-'], (paddedText 2 1).toList⟩, ⟨[separator.mark], (paddedText 2 0).toList⟩,
    ⟨[':'], (paddedText 2 0).toList⟩, ⟨[':'], (paddedText 2 0).toList⟩ ] ++ fractionSlots

/-- The places of a fraction of which some are taken. -/
theorem map_least_drop_fractionSlots (taken : Nat) :
    (fractionSlots.drop taken).map (·.least) = List.replicate (9 - taken) ['0'] := by
  rw [fractionSlots, List.map_drop, List.map_cons, List.map_replicate, ← List.replicate_succ,
    List.drop_replicate]

theorem spell_digits {count : Nat} {digits : List Char} (short : digits.length ≤ count) :
    spell (List.replicate count ⟨[], ['0']⟩) (digits.map fun digit => [digit]) = digits := by
  induction digits generalizing count with
  | nil => cases count <;> rfl
  | cons digit digits ih =>
      obtain ⟨count, rfl⟩ := Nat.exists_eq_succ_of_ne_zero (Nat.ne_zero_of_lt short)
      rw [List.replicate_succ, List.map_cons, spell, ih (Nat.le_of_succ_le_succ short)]
      rfl

/-- A fraction is written with a point before its digits. -/
theorem spell_fractionSlots {digits : List Char} (occupied : digits ≠ [])
    (short : digits.length ≤ 9) :
    spell fractionSlots (digits.map fun digit => [digit]) = '.' :: digits := by
  obtain ⟨digit, rest, rfl⟩ := List.exists_cons_of_ne_nil occupied
  rw [fractionSlots, List.map_cons, spell, spell_digits (Nat.le_of_succ_le_succ short)]
  rfl

theorem fits_digits {slots : List Slot} {digits : List Char}
    (zeros : ∀ slot ∈ slots, slot.least = ['0']) (short : digits.length ≤ slots.length)
    (numeric : ∀ digit ∈ digits, digit.isDigit = true) :
    Fits slots (digits.map fun digit => [digit]) := by
  induction slots generalizing digits with
  | nil =>
      obtain rfl := List.length_eq_zero_iff.mp (Nat.le_zero.mp short)
      exact .nil _
  | cons slot slots ih =>
      cases digits with
      | nil => exact .nil _
      | cons digit digits =>
          obtain ⟨least, zeros⟩ := List.forall_mem_cons.mp zeros
          obtain ⟨isDigit, numeric⟩ := List.forall_mem_cons.mp numeric
          have low : 48 ≤ digit.toNat := (of_decide_eq_true ((isDigit_eq digit).trans isDigit)).1
          have rest := ih zeros (Nat.le_of_succ_le_succ short) numeric
          apply Fits.cons _ (List.cons_ne_nil _ _) _ _ rest
          · rw [least]
            rfl
          · simpa using isDigit
          · rw [least, List.cons_lt_cons_iff]
            rintro (less | ⟨-, empty⟩)
            · have below : digit.toNat < 48 := UInt32.lt_iff_toNat_lt.mp (Char.lt_def.mp less)
              omega
            · exact List.not_lt_nil _ empty

namespace Seconds

/-- The digits of the fraction that is written. -/
def fraction : Seconds → List Char
  | omitted => []
  | given _ fraction => fraction.elim [] Fraction.digits

/-- The second and the digits of the fraction, as far as they are written. -/
def written : Seconds → List (List Char)
  | omitted => []
  | given second fraction =>
    (paddedText 2 second).toList :: (given second fraction).fraction.map fun digit => [digit]

/-- The nine digits of the fraction. -/
def nine (seconds : Seconds) : List Char :=
  seconds.fraction ++ List.replicate (9 - seconds.fraction.length) '0'

variable (seconds : Seconds)

theorem length_fraction_le : seconds.fraction.length ≤ 9 := by
  rcases seconds with _ | ⟨second, _ | fraction⟩
  · exact Nat.zero_le 9
  · exact Nat.zero_le 9
  · exact fraction.length.2

theorem isDigit_of_mem_fraction {digit : Char} (member : digit ∈ seconds.fraction) :
    digit.isDigit = true := by
  rcases seconds with _ | ⟨second, _ | fraction⟩
  · cases member
  · cases member
  · exact fraction.numeric digit member

theorem length_nine : seconds.nine.length = 9 := by
  have short := seconds.length_fraction_le
  rw [nine, List.length_append, List.length_replicate]
  omega

theorem isDigit_of_mem_nine {digit : Char} (member : digit ∈ seconds.nine) :
    digit.isDigit = true := by
  rcases List.mem_append.mp member with given | zero
  · exact seconds.isDigit_of_mem_fraction given
  · rw [List.eq_of_mem_replicate zero]
    decide

theorem digitsValue_nine : digitsValue seconds.nine = seconds.nanoseconds := by
  rw [nine, digitsValue_append, digitsValue_replicate_zero, List.length_replicate, Nat.add_zero]
  rcases seconds with _ | ⟨second, _ | fraction⟩
  · exact Nat.zero_mul _
  · exact Nat.zero_mul _
  · rfl

variable {seconds}

theorem nine_lt {seconds' : Seconds} (less : seconds.nanoseconds < seconds'.nanoseconds) :
    seconds.nine < seconds'.nine := by
  apply lt_of_digitsValue_lt
  · exact fun _ => seconds.isDigit_of_mem_nine
  · exact fun _ => seconds'.isDigit_of_mem_nine
  · rw [length_nine, length_nine]
  · rwa [digitsValue_nine, digitsValue_nine]

end Seconds

namespace Moment

variable (moment : Moment)

/-- The digits of the fields down to the minute. -/
def headParts : List (List Char) :=
  [ (paddedText 4 moment.day.date.year.toNat).toList, (paddedText 2 moment.day.date.month).toList,
    (paddedText 2 moment.day.date.day).toList, (paddedText 2 moment.hour).toList,
    (paddedText 2 moment.minute).toList ]

/-- The digits of all fields. -/
def parts : List (List Char) :=
  moment.headParts ++ (paddedText 2 moment.seconds.second).toList ::
    moment.seconds.nine.map fun digit => [digit]

/-- The digits of a moment, as far as they are written. -/
def written : List (List Char) :=
  moment.headParts ++ moment.seconds.written

theorem complete_written :
    complete (calendarSlots moment.separator) moment.written = moment.parts := by
  rw [complete, written, parts, List.append_assoc, List.append_cancel_left_eq]
  cases seconds : moment.seconds with
  | omitted => rfl
  | given second fraction =>
      have free : ((calendarSlots moment.separator).drop
          (moment.headParts ++ (Seconds.given second fraction).written).length) =
            fractionSlots.drop (Seconds.given second fraction).fraction.length := by
        simp [headParts, Seconds.written, calendarSlots]
      rw [free, map_least_drop_fractionSlots]
      simp [Seconds.written, Seconds.second, Seconds.nine]

theorem fits_written : Fits (calendarSlots moment.separator) moment.written := by
  have hour := twoDigits moment.hour
  have minute := twoDigits moment.minute
  obtain ⟨-, -, month, -, day, -⟩ := moment.day.isValid
  have seconds : Fits (⟨[':'], (paddedText 2 0).toList⟩ :: fractionSlots)
      moment.seconds.written := by
    cases moment.seconds with
    | omitted => exact .nil _
    | given second fraction =>
        apply Fits.padded (by decide) (twoDigits second) (Nat.zero_le _)
        apply fits_digits
        · simp [fractionSlots]
        · exact Seconds.length_fraction_le _
        · exact fun _ => Seconds.isDigit_of_mem_fraction _
  apply Fits.padded (by decide) moment.day.year_lt (Nat.zero_le _)
  apply Fits.padded (by decide) moment.day.month_lt month
  apply Fits.padded (by decide) moment.day.day_lt day
  apply Fits.padded (by decide) hour (Nat.zero_le _)
  apply Fits.padded (by decide) minute (Nat.zero_le _)
  exact seconds

theorem spell_written :
    moment.text.toList =
      spell (calendarSlots moment.separator) moment.written ++ moment.offset.text.toList := by
  have seconds : spell (⟨[':'], (paddedText 2 0).toList⟩ :: fractionSlots) moment.seconds.written =
      moment.seconds.text.toList := by
    rcases moment.seconds with _ | ⟨second, _ | fraction⟩
    · rfl
    · simp [Seconds.written, Seconds.fraction, Seconds.text, spell]
    · have digits :=
        spell_fractionSlots (List.ne_nil_of_length_pos fraction.length.1) fraction.length.2
      simp [Seconds.written, Seconds.fraction, Seconds.text, spell, digits, Fraction.text]
  rw [toList_text, ← List.append_assoc, List.append_cancel_right_eq, moment.toList_head_append,
    Day.toList_text_append]
  simp only [written, headParts, calendarSlots, spell, List.cons_append, List.nil_append, seconds]

/-- The digits of the date and the time of day. -/
def clockParts : List (List Char) :=
  moment.headParts ++ [(paddedText 2 moment.seconds.second).toList]

theorem length_clockParts : moment.clockParts.length = 6 := rfl

theorem parts_eq :
    moment.parts = moment.clockParts ++ moment.seconds.nine.map fun digit => [digit] := rfl

/-- The local time without the fraction. -/
def localSeconds : Int :=
  (Instant.ofDate moment.day.date moment.hour moment.minute moment.seconds.second 0).seconds

theorem seconds_instant :
    moment.instant.seconds = moment.localSeconds - moment.offset.seconds := rfl

variable {first second : Moment}

theorem clockParts_eq_of_localSeconds_eq (same : first.localSeconds = second.localSeconds) :
    first.clockParts = second.clockParts := by
  obtain ⟨date, hour, minute, sameSecond⟩ :=
    Instant.eq_of_seconds_ofDate_eq first.day.isValid second.day.isValid same
  rw [clockParts, clockParts, headParts, headParts, date, hour, minute, sameSecond]

/-- Local times come in the order of their digits. -/
theorem clockParts_lt_of_localSeconds_lt (earlier : first.localSeconds < second.localSeconds) :
    first.clockParts < second.clockParts := by
  have years : first.day.date.year < second.day.date.year →
      (paddedText 4 first.day.date.year.toNat).toList <
        (paddedText 4 second.day.date.year.toNat).toList := by
    intro less
    have digits := first.day.fourDigits
    exact paddedText_lt (by decide) first.day.year_lt second.day.year_lt (by omega)
  have months := paddedText_lt (by decide) first.day.month_lt second.day.month_lt
  have days := paddedText_lt (by decide) first.day.day_lt second.day.day_lt
  have hours := paddedText_lt (by decide) (twoDigits first.hour) (twoDigits second.hour)
  have minutes := paddedText_lt (by decide) (twoDigits first.minute) (twoDigits second.minute)
  have seconds := paddedText_lt (by decide) (twoDigits first.seconds.second)
    (twoDigits second.seconds.second)
  rw [localSeconds, localSeconds, Instant.seconds_ofDate_lt_iff _ _ _ first.day.isValid
    second.day.isValid] at earlier
  simp only [clockParts, headParts, List.cons_append, List.nil_append, List.cons_lt_cons_iff]
  rcases earlier with ((year | ⟨sameYear, month | ⟨sameMonth, day⟩⟩) | ⟨sameDate, clock⟩)
  · exact .inl (years year)
  · exact .inr ⟨by rw [sameYear], .inl (months month)⟩
  · exact .inr ⟨by rw [sameYear], .inr ⟨by rw [sameMonth], .inl (days day)⟩⟩
  rw [sameDate]
  refine .inr ⟨rfl, .inr ⟨rfl, .inr ⟨rfl, ?_⟩⟩⟩
  rcases clock with hour | ⟨sameHour, minute | ⟨sameMinute, less⟩⟩
  · exact .inl (hours hour)
  · exact .inr ⟨by rw [sameHour], .inl (minutes minute)⟩
  · exact .inr ⟨by rw [sameHour], .inr ⟨by rw [sameMinute], .inl (seconds less)⟩⟩

/-- Moments of one offset come in the order of their digits. -/
theorem parts_lt_of_isBefore (offset : first.offset.seconds = second.offset.seconds)
    (before : first.instant.IsBefore second.instant) : first.parts < second.parts := by
  rw [parts_eq, parts_eq]
  rcases before with earlier | ⟨same, earlier⟩
  · rw [seconds_instant, seconds_instant, offset] at earlier
    have length := (length_clockParts first).trans (length_clockParts second).symm
    apply append_lt_append_of_length length
    exact clockParts_lt_of_localSeconds_lt (Int.lt_of_sub_lt_sub_right earlier)
  · rw [seconds_instant, seconds_instant, offset] at same
    rw [clockParts_eq_of_localSeconds_eq ((Int.sub_left_inj _).mp same)]
    apply List.append_left_lt
    apply List.map_lt _ (Seconds.nine_lt earlier)
    intro digit digit' less
    exact List.cons_lt_cons_iff.mpr (.inl less)

end Moment

/-! ## Counts -/

/-- The digits of seconds, and of the milliseconds after them. -/
def epochSlots : List Slot :=
  [⟨[], (paddedText 10 0).toList⟩, ⟨[], (paddedText 3 0).toList⟩]

/-! ## Labels of dates -/

/-- A date as it is written. -/
inductive Label where
  /-- A count of seconds with ten digits, which may go on with three digits for milliseconds. -/
  | epoch (seconds : Nat) (short : seconds < tenTo 10) (milliseconds : Option (Fin 1000))
  /-- A month, which stands for its first day. -/
  | wholeMonth (day : Day) (isFirst : day.date.day = 1)
  /-- A day. -/
  | wholeDay (day : Day)
  /-- A date with a time of day. -/
  | clock (moment : Moment)

namespace Label

/-- The date as it is written. -/
def text : Label → String
  | epoch seconds _ milliseconds =>
    paddedText 10 seconds ++ milliseconds.elim "" fun count => paddedText 3 count
  | wholeMonth day _ => Stamp.monthText day
  | wholeDay day => day.text
  | clock moment => moment.text

/-- The instant that is meant. -/
def instant : Label → Instant
  | epoch seconds _ milliseconds =>
    { seconds, nanoseconds := milliseconds.elim 0 fun count => count * 1000000 }
  | wholeMonth day _ | wholeDay day => day.start.instant
  | clock moment => moment.instant

/-- The offset from universal time. -/
def offset : Label → Offset
  | clock moment => moment.offset
  | _ => .omitted

/-- The digits, as far as they are written. -/
def written : Label → List (List Char)
  | epoch seconds _ milliseconds =>
    (paddedText 10 seconds).toList ::
      milliseconds.toList.map fun count => (paddedText 3 count).toList
  | wholeMonth day _ => day.start.headParts.take 2
  | wholeDay day => day.start.headParts.take 3
  | clock moment => moment.written

/-- How dates are spelled: as counts, or by the calendar with some separator. -/
inductive Form where
  /-- As counts. -/
  | epoch
  /-- By the calendar. -/
  | calendar (separator : Separator)

/-- The places of a form. -/
def Form.slots : Form → List Slot
  | epoch => epochSlots
  | calendar separator => calendarSlots separator

/-- Whether a date is spelled in a form. -/
def HasForm : Label → Form → Prop
  | epoch _ _ _, .epoch => True
  | wholeMonth _ _, .calendar _ | wholeDay _, .calendar _ => True
  | clock moment, .calendar separator => moment.separator = separator
  | _, _ => False

/-- Two dates are spelled alike: in one form and with one offset, which is not written where the
other date goes on. -/
structure IsAlike (first second : Label) : Prop where
  /-- Both are spelled in one form. -/
  form : ∃ form, first.HasForm form ∧ second.HasForm form
  /-- Both have one offset. -/
  offset : first.offset.seconds = second.offset.seconds
  /-- The first one has no offset if the second one goes on. -/
  ends : first.written.length < second.written.length → first.offset = .omitted
  /-- The second one has no offset if the first one goes on. -/
  ends' : second.written.length < first.written.length → second.offset = .omitted

variable {label : Label} {form : Form} {separator : Separator}

theorem exists_form (label : Label) : ∃ form, label.HasForm form := by
  cases label with
  | epoch => exact ⟨.epoch, trivial⟩
  | wholeMonth | wholeDay => exact ⟨.calendar .space, trivial⟩
  | clock moment => exact ⟨.calendar moment.separator, rfl⟩

/-- A date is spelled with its digits, and then its offset. -/
theorem toList_text (formed : label.HasForm form) :
    label.text.toList = spell form.slots label.written ++ label.offset.text.toList := by
  cases label with
  | epoch seconds short milliseconds =>
      cases form with
      | calendar => exact formed.elim
      | epoch =>
          cases milliseconds <;>
            simp [text, written, Form.slots, epochSlots, spell, offset, Offset.text]
  | wholeMonth day isFirst =>
      cases form with
      | epoch => exact formed.elim
      | calendar separator =>
          simp [text, Stamp.monthText, written, Moment.headParts, Day.start, Form.slots,
            calendarSlots, spell, offset, Offset.text]
  | wholeDay day =>
      cases form with
      | epoch => exact formed.elim
      | calendar separator =>
          simp [text, Day.text, written, Moment.headParts, Day.start, Form.slots,
            calendarSlots, spell, offset, Offset.text]
  | clock moment =>
      cases form with
      | epoch => exact formed.elim
      | calendar separator =>
          obtain rfl : moment.separator = separator := formed
          exact moment.spell_written

theorem fits_written (formed : label.HasForm form) : Fits form.slots label.written := by
  cases label with
  | epoch seconds short milliseconds =>
      cases form with
      | calendar => exact formed.elim
      | epoch =>
          apply Fits.padded (by decide) short (Nat.zero_le _)
          cases milliseconds with
          | none => exact .nil _
          | some count => exact Fits.padded (by decide) count.isLt (Nat.zero_le _) (.nil _)
  | wholeMonth day isFirst =>
      cases form with
      | epoch => exact formed.elim
      | calendar separator =>
          obtain ⟨-, -, month, -⟩ := day.isValid
          apply Fits.padded (by decide) day.year_lt (Nat.zero_le _)
          exact Fits.padded (by decide) day.month_lt month (.nil _)
  | wholeDay day =>
      cases form with
      | epoch => exact formed.elim
      | calendar separator =>
          obtain ⟨-, -, month, -, number, -⟩ := day.isValid
          apply Fits.padded (by decide) day.year_lt (Nat.zero_le _)
          apply Fits.padded (by decide) day.month_lt month
          exact Fits.padded (by decide) day.day_lt number (.nil _)
  | clock moment =>
      cases form with
      | epoch => exact formed.elim
      | calendar separator =>
          obtain rfl : moment.separator = separator := formed
          exact moment.fits_written

/-- A date of the calendar means a moment, and what is not written is that of the moment. -/
theorem exists_moment (formed : label.HasForm (.calendar separator)) :
    ∃ moment : Moment, label.instant = moment.instant ∧ label.offset = moment.offset ∧
      complete (calendarSlots separator) label.written = moment.parts := by
  cases label with
  | epoch => exact formed.elim
  | wholeMonth day isFirst =>
      refine ⟨day.start, rfl, rfl, ?_⟩
      simp [complete, written, Moment.parts, Moment.headParts, Day.start, Seconds.second,
        Seconds.nine, Seconds.fraction, calendarSlots, fractionSlots, isFirst]
  | wholeDay day =>
      refine ⟨day.start, rfl, rfl, ?_⟩
      simp [complete, written, Moment.parts, Moment.headParts, Day.start, Seconds.second,
        Seconds.nine, Seconds.fraction, calendarSlots, fractionSlots]
  | clock moment =>
      obtain rfl : moment.separator = separator := formed
      exact ⟨moment, rfl, rfl, moment.complete_written⟩

theorem complete_epoch (seconds : Nat) (short : seconds < tenTo 10)
    (milliseconds : Option (Fin 1000)) :
    complete epochSlots (epoch seconds short milliseconds).written =
      [(paddedText 10 seconds).toList, (paddedText 3 (milliseconds.getD 0)).toList] := by
  cases milliseconds <;> rfl

theorem complete_lt_of_isBefore {first second : Label} (formed : first.HasForm form)
    (formed' : second.HasForm form) (offset : first.offset.seconds = second.offset.seconds)
    (before : first.instant.IsBefore second.instant) :
    complete form.slots first.written < complete form.slots second.written := by
  cases form with
  | calendar separator =>
      obtain ⟨moment, instant, sameOffset, parts⟩ := exists_moment formed
      obtain ⟨moment', instant', sameOffset', parts'⟩ := exists_moment formed'
      rw [instant, instant'] at before
      rw [sameOffset, sameOffset'] at offset
      rw [Form.slots, parts, parts']
      exact Moment.parts_lt_of_isBefore offset before
  | epoch =>
      rcases first with ⟨seconds, short, milliseconds⟩ | _ | _ | _ <;> try exact formed.elim
      rcases second with ⟨seconds', short', milliseconds'⟩ | _ | _ | _ <;> try exact formed'.elim
      rw [Form.slots, complete_epoch, complete_epoch, List.cons_lt_cons_iff]
      rcases before with earlier | ⟨same, earlier⟩
      · exact .inl (paddedText_lt (by decide) short short' (Int.ofNat_lt.mp earlier))
      · obtain rfl : seconds = seconds' := Int.ofNat_inj.mp same
        refine .inr ⟨rfl, List.cons_lt_cons_iff.mpr (.inl ?_)⟩
        apply paddedText_lt (by decide) (milliseconds.getD 0).isLt (milliseconds'.getD 0).isLt
        have scaled (count : Option (Fin 1000)) : count.elim 0 (fun count => count.val * 1000000) =
            (count.getD 0).val * 1000000 := by cases count <;> rfl
        simp only [instant, scaled] at earlier
        omega

/-! ### Reading -/

theorem written_ne_nil (label : Label) : label.written ≠ [] := by
  cases label <;> exact List.cons_ne_nil _ _

theorem starts_with_digit (label : Label) :
    ∃ digit rest, digit.isDigit = true ∧ label.text.toList = digit :: rest := by
  obtain ⟨form, formed⟩ := label.exists_form
  have unmarked : ∃ least slots, form.slots = ⟨[], least⟩ :: slots := by
    cases form <;> exact ⟨_, _, rfl⟩
  obtain ⟨least, slots, places⟩ := unmarked
  have fits := fits_written formed
  have some := label.written_ne_nil
  rw [toList_text formed, places]
  rw [places] at fits
  generalize label.written = written at fits some
  cases fits with
  | nil => exact absurd rfl some
  | cons _ occupied numeric _ _ =>
      obtain ⟨digit, digits, rfl⟩ := List.exists_cons_of_ne_nil occupied
      exact ⟨digit, _, numeric digit List.mem_cons_self, rfl⟩

theorem ends_without_blank (label : Label) :
    ∀ last ∈ label.text.toList.getLast?, Text.isBlank last = false := by
  obtain ⟨form, formed⟩ := label.exists_form
  rw [toList_text formed]
  cases label.offset with
  | omitted =>
      intro last ends
      rw [Offset.toList_text_omitted, List.append_nil] at ends
      exact isBlank_of_isDigit (isDigit_of_spell_ends (fits_written formed) last ends)
  | zulu =>
      have letter : Offset.zulu.text.toList = ['Z'] := rfl
      intro last ends
      rw [letter, List.getLast?_concat] at ends
      obtain rfl := Option.some.inj ends
      decide
  | numeric behind hours minutes =>
      rw [Offset.text, String.toList_append, ← List.append_assoc]
      exact Stamp.last_paddedText (by decide) (twoDigits minutes) _

/-- A count is read as the instant it means. -/
theorem ofText?_epoch (seconds : Nat) (short : seconds < tenTo 10)
    (milliseconds : Option (Fin 1000)) :
    Instant.ofText? (epoch seconds short milliseconds).text.toList =
      some (epoch seconds short milliseconds).instant := by
  have ten := length_paddedText (by decide) short
  have limit : tenTo 13 < twoTo 63 := by decide
  cases milliseconds with
  | none =>
      have written : (epoch seconds short none).text.toList = (paddedText 10 seconds).toList := by
        simp [text]
      have below : tenTo 10 < tenTo 13 := by decide
      rw [written, Instant.ofText?_of_digits (fun _ => isDigit_of_mem_paddedText)
        (paddedText_ne_nil (by decide) short), digitsValue_paddedText, ten]
      · rfl
      · rw [digitsValue_paddedText]
        omega
  | some milliseconds =>
      have fits : milliseconds.val < tenTo 3 := milliseconds.isLt
      have three := length_paddedText (by decide) fits
      have written : (epoch seconds short (some milliseconds)).text.toList =
          (paddedText 10 seconds).toList ++ (paddedText 3 milliseconds).toList := by
        simp [text]
      have value : digitsValue ((paddedText 10 seconds).toList ++
          (paddedText 3 milliseconds).toList) = seconds * 1000 + milliseconds := by
        rw [digitsValue_append, digitsValue_paddedText, digitsValue_paddedText, three]
      have numeric : ∀ digit ∈ (paddedText 10 seconds).toList ++ (paddedText 3 milliseconds).toList,
          digit.isDigit = true := by
        intro digit member
        rcases List.mem_append.mp member with front | back
        · exact isDigit_of_mem_paddedText front
        · exact isDigit_of_mem_paddedText back
      have scaled : tenTo 10 * 1000 = tenTo 13 := by decide
      rw [written, Instant.ofText?_of_digits numeric, value, List.length_append, ten, three,
        Instant.ofEpoch_thirteen]
      · rfl
      · exact List.append_ne_nil_of_left_ne_nil (paddedText_ne_nil (by decide) short) _
      · rw [value]
        omega

/-- What is read from a date is what it means. -/
theorem eq_of_ofCell?_text {label : Label} {instant : Instant}
    (read : Instant.ofCell? (.string label.text) = some instant) : instant = label.instant := by
  have trimmed : Text.trimBlanks label.text.toList = label.text.toList := by
    obtain ⟨digit, rest, numeric, starts⟩ := label.starts_with_digit
    apply Text.trimBlanks_eq_self _ label.ends_without_blank
    intro first here
    rw [starts] at here
    obtain rfl := Option.some.inj here
    exact isBlank_of_isDigit numeric
  rw [Instant.ofCell?, trimmed] at read
  apply Option.some.inj
  rw [← read]
  cases label with
  | epoch seconds short milliseconds => exact ofText?_epoch seconds short milliseconds
  | wholeMonth day isFirst => exact Stamp.ofText?_monthText day isFirst
  | wholeDay day => exact Stamp.ofText?_dayText day
  | clock moment =>
      rw [text, moment.read_back] at read ⊢
      split at read
      · cases read
      · next readable => exact if_neg readable

/-! ### Order -/

/-- **Dates that are spelled alike come in the order of their texts.** -/
theorem not_isBefore_of_le {first second : Label} (alike : first.IsAlike second)
    (ordered : first.text ≤ second.text) : ¬ second.instant.IsBefore first.instant := by
  intro before
  obtain ⟨form, formed, formed'⟩ := alike.form
  apply not_lt_of_ge ordered
  rw [String.lt_iff_toList_lt, toList_text formed, toList_text formed']
  apply spell_append_lt (fits_written formed') (fits_written formed)
  · exact complete_lt_of_isBefore formed' formed alike.offset.symm before
  · intro shorter
    rw [alike.ends' shorter]
    rfl

end Label

end Written

end ChartCompiler
