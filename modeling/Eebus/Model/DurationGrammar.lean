import Eebus.Model.DurationReading

/-! The durations SPINE uses, as a grammar, and which texts the parser accepts beside them. -/

namespace Eebus.Model

open Eebus.Library

structure SecondsForm where
  number : List Char
  fraction : Option (List Char)

structure TimeForm where
  hours : Option (List Char)
  minutes : Option (List Char)
  seconds : Option SecondsForm

structure DurationForm where
  negative : Bool
  weeks : Option (List Char)
  days : Option (List Char)
  time : Option TimeForm

def component (number : Option (List Char)) (unit : Char) : List Char :=
  match number with
  | none => []
  | some number => number ++ [unit]

def SecondsForm.text (s : SecondsForm) : List Char :=
  match s.fraction with
  | none => s.number
  | some digits => s.number ++ '.' :: digits

def TimeForm.text (f : TimeForm) : List Char :=
  component f.hours 'H' ++ (component f.minutes 'M' ++ component (f.seconds.map SecondsForm.text) 'S')

def DurationForm.text (f : DurationForm) : List Char :=
  (if f.negative then ['-'] else []) ++ 'P' :: (component f.weeks 'W' ++ component f.days 'D' ++
    match f.time with
    | none => []
    | some time => 'T' :: time.text)

def counted (number : Option (List Char)) (unit : Nat) : Nat := (number.map numberOf).getD 0 * unit

def DurationForm.total (f : DurationForm) : Nat :=
  counted f.weeks 604800 + counted f.days 86400 +
    match f.time with
    | none => 0
    | some time => counted time.hours 3600 + counted time.minutes 60 +
        counted (time.seconds.map SecondsForm.number) 1

def DurationForm.fraction (f : DurationForm) : Nat :=
  ((f.time.bind TimeForm.seconds).bind fun s => s.fraction.map truncated).getD 0

def TimeForm.numbers (f : TimeForm) : List (List Char) :=
  f.hours.toList ++ f.minutes.toList ++ (f.seconds.map SecondsForm.number).toList

/-- The numbers are digit strings that are not empty, there is a component, there is one behind a `T`,
and the seconds fit 64 bits. -/
structure DurationForm.Valid (f : DurationForm) : Prop where
  weeks : ∀ n ∈ f.weeks, whole n = true
  days : ∀ n ∈ f.days, whole n = true
  time : ∀ time ∈ f.time, time.numbers ≠ [] ∧ (∀ n ∈ time.numbers, whole n = true) ∧
    ∀ s ∈ time.seconds, ∀ m ∈ s.fraction, whole m = true
  some_component : f.weeks.isSome ∨ f.days.isSome ∨ f.time.isSome
  fits : f.total < 2 ^ 64

/-- The parser accepts a text exactly when the grammar does, and reads from it what it says. -/
def GrammarHolds (text : String) : Prop :=
  ((parseIso8601Duration text).isSome = true ↔ ∃ f : DurationForm, f.Valid ∧ f.text = text.toList) ∧
    ∀ d, parseIso8601Duration text = some d → ∀ f : DurationForm, f.Valid → f.text = text.toList →
      f.negative = false → d = fromSecs f.total + f.fraction

def componentRuns (number : Option (List Char)) (unit : Char) : List Run :=
  number.toList.map fun number => (number, unit)

@[simp] theorem componentRuns_none (unit : Char) : componentRuns none unit = [] := rfl

@[simp] theorem componentRuns_some (number : List Char) (unit : Char) :
    componentRuns (some number) unit = [(number, unit)] := rfl

theorem join_componentRuns (number : Option (List Char)) (unit : Char) :
    joinRuns (componentRuns number unit) = component number unit := by
  cases number <;> simp [component]

def TimeForm.runs (f : TimeForm) : List Run :=
  componentRuns f.hours 'H' ++ (componentRuns f.minutes 'M' ++
    componentRuns (f.seconds.map SecondsForm.text) 'S')

def DurationForm.reading (f : DurationForm) : Reading where
  negative := f.negative
  date := componentRuns f.weeks 'W' ++ componentRuns f.days 'D'
  time := f.time.map TimeForm.runs

theorem DurationForm.text_reading (f : DurationForm) : f.reading.text = f.text := by
  unfold Reading.text DurationForm.text DurationForm.reading
  cases f.time with
  | none => simp only [joinRuns_append, join_componentRuns, Option.map_none]
  | some time =>
    simp only [joinRuns_append, join_componentRuns, Option.map_some, TimeForm.runs, TimeForm.text]

theorem not_point_of_whole {digits : List Char} (h : whole digits = true) : ∀ c ∈ digits, c ≠ '.' := by
  intro c hc
  have hdigits := (Bool.and_eq_true_iff.mp h).2
  exact ne_of_isDigit (List.all_eq_true.mp hdigits c hc) rfl

theorem SecondsForm.wholeOf_text {s : SecondsForm} (h : whole s.number = true) :
    wholeOf s.text = s.number ∧ fractionOf s.text = s.fraction := by
  have hplain := not_point_of_whole h
  obtain ⟨number, fraction⟩ := s
  cases fraction with
  | none =>
    refine ⟨takeWhile_ne_of_plain hplain, ?_⟩
    simp only [SecondsForm.text, fractionOf, dropWhile_ne_of_plain hplain]
  | some digits =>
    refine ⟨takeWhile_ne_append hplain digits, ?_⟩
    simp only [SecondsForm.text, fractionOf, dropWhile_ne_append hplain]

theorem text_secondsForm (number : List Char) :
    SecondsForm.text ⟨wholeOf number, fractionOf number⟩ = number := by
  cases hdrop : number.dropWhile (· ≠ '.') with
  | nil =>
    have hsplit : wholeOf number ++ number.dropWhile (· ≠ '.') = number := List.takeWhile_append_dropWhile
    rw [hdrop, List.append_nil] at hsplit
    simp only [SecondsForm.text, fractionOf, hdrop, hsplit]
  | cons point digits =>
    have hsplit : wholeOf number ++ '.' :: digits = number := (dropWhile_ne_eq_cons hdrop).2
    simp only [SecondsForm.text, fractionOf, hdrop, hsplit]

theorem secondsNumber_text {s : SecondsForm} (h : whole s.number = true)
    (hfraction : ∀ m ∈ s.fraction, whole m = true) : secondsNumber s.text = true := by
  obtain ⟨hwhole, hdigits⟩ := Bool.and_eq_true_iff.mp h
  unfold secondsNumber
  rw [(s.wholeOf_text h).1, (s.wholeOf_text h).2, hdigits, Bool.true_and]
  cases hm : s.fraction with
  | none => exact hwhole
  | some digits =>
    have hall := (Bool.and_eq_true_iff.mp (hfraction digits hm)).2
    have htake : (digits.take 9).all Char.isDigit = true :=
      List.all_eq_true.mpr fun c hc => List.all_eq_true.mp hall c (List.mem_of_mem_take hc)
    simp only [htake, Bool.and_true, Bool.not_eq_true', Bool.and_eq_false_iff]
    exact .inl (by simpa using hwhole)

theorem isUnit_of_whole {digits : List Char} (h : whole digits = true) : ∀ c ∈ digits, isUnit c = false :=
  fun c hc => isUnit_isDigit (List.all_eq_true.mp (Bool.and_eq_true_iff.mp h).2 c hc)

theorem cut_componentRuns {number : Option (List Char)} {unit : Char}
    (h : ∀ n ∈ number, ∀ c ∈ n, isUnit c = false) (hunit : isUnit unit = true) :
    Cut (componentRuns number unit) := by
  intro r hr
  obtain ⟨n, hn, rfl⟩ := List.mem_map.mp hr
  exact ⟨h n (Option.mem_toList.mp hn), hunit⟩

theorem Cut.append {rs rs' : List Run} (h : Cut rs) (h' : Cut rs') : Cut (rs ++ rs') := fun r hr =>
  (List.mem_append.mp hr).elim (h r) (h' r)

theorem SecondsForm.isUnit_text {s : SecondsForm} (h : whole s.number = true)
    (hfraction : ∀ m ∈ s.fraction, whole m = true) : ∀ c ∈ s.text, isUnit c = false := by
  obtain ⟨number, fraction⟩ := s
  cases fraction with
  | none => exact isUnit_of_whole h
  | some digits =>
    intro c hc
    cases List.mem_append.mp hc with
    | inl hnumber => exact isUnit_of_whole h c hnumber
    | inr hrest =>
      cases List.mem_cons.mp hrest with
      | inl hpoint => exact hpoint ▸ rfl
      | inr hdigit => exact isUnit_of_whole (hfraction digits rfl) c hdigit

namespace DurationForm

variable {f : DurationForm}

theorem Valid.of_time (h : f.Valid) {time : TimeForm} (ht : f.time = some time) :
    (∀ n ∈ time.hours, whole n = true) ∧ (∀ n ∈ time.minutes, whole n = true) ∧
      ∀ s ∈ time.seconds, whole s.number = true ∧ ∀ m ∈ s.fraction, whole m = true := by
  obtain ⟨-, hnumbers, hfraction⟩ := h.time time ht
  refine ⟨fun n hn => hnumbers n ?_, fun n hn => hnumbers n ?_, fun s hs => ⟨hnumbers s.number ?_, hfraction s hs⟩⟩
  · simp [TimeForm.numbers, Option.mem_def.mp hn]
  · simp [TimeForm.numbers, Option.mem_def.mp hn]
  · simp [TimeForm.numbers, Option.mem_def.mp hs]

theorem Valid.read (h : f.Valid) {text : String} (htext : f.text = text.toList) :
    readDuration text = some f.reading := by
  refine read_of_text (f.text_reading.trans htext) ?_ ?_ ?_
  · exact (cut_componentRuns (fun n hn => isUnit_of_whole (h.weeks n hn)) rfl).append
      (cut_componentRuns (fun n hn => isUnit_of_whole (h.days n hn)) rfl)
  · intro r hr
    cases List.mem_append.mp hr with
    | inl hweek =>
      obtain ⟨n, -, rfl⟩ := List.mem_map.mp hweek
      exact (by decide : 'W' ≠ 'T')
    | inr hday =>
      obtain ⟨n, -, rfl⟩ := List.mem_map.mp hday
      exact (by decide : 'D' ≠ 'T')
  · intro runs hruns
    obtain ⟨time, ht, rfl⟩ := Option.map_eq_some_iff.mp hruns
    obtain ⟨hhours, hminutes, hseconds⟩ := h.of_time ht
    refine (cut_componentRuns (fun n hn => isUnit_of_whole (hhours n hn)) rfl).append
      ((cut_componentRuns (fun n hn => isUnit_of_whole (hminutes n hn)) rfl).append
        (cut_componentRuns (fun n hn => ?_) rfl))
    obtain ⟨s, hs, rfl⟩ := Option.map_eq_some_iff.mp (Option.mem_def.mp hn)
    exact SecondsForm.isUnit_text (hseconds s hs).1 (hseconds s hs).2

theorem all_dateRun (h : f.Valid) : f.reading.date.all dateRun = true := by
  have hweeks := h.weeks
  have hdays := h.days
  unfold reading
  cases hw : f.weeks <;> cases hd : f.days <;>
    simp_all [dateRun, dateUnit]

theorem all_timeRun (h : f.Valid) : (f.reading.time.getD []).all timeRun = true := by
  unfold reading
  cases ht : f.time with
  | none => rfl
  | some time =>
    obtain ⟨hhours, hminutes, hseconds⟩ := h.of_time ht
    have hnumber : ∀ s ∈ time.seconds, secondsNumber s.text = true := fun s hs =>
      secondsNumber_text (hseconds s hs).1 (hseconds s hs).2
    simp only [Option.map_some, Option.getD_some, TimeForm.runs, List.all_append]
    cases hh : time.hours <;> cases hm : time.minutes <;> cases hs : time.seconds <;>
      simp_all [timeRun, timeUnit]

theorem sum_componentRuns {count : Run → Nat} {number : Option (List Char)} {letter : Char} {unit : Nat}
    (h : ∀ digits, count (digits, letter) = numberOf digits * unit) :
    ((componentRuns number letter).map count).sum = counted number unit := by
  cases number with
  | none => simp [counted]
  | some digits => simp [counted, h]

theorem reading_seconds (h : ∀ time ∈ f.time, ∀ s ∈ time.seconds, whole s.number = true) :
    f.reading.seconds = f.total := by
  unfold Reading.seconds total reading
  rw [List.map_append, List.sum_append,
    sum_componentRuns (show ∀ digits, dateSeconds (digits, 'W') = numberOf digits * 604800 from fun _ => rfl),
    sum_componentRuns (show ∀ digits, dateSeconds (digits, 'D') = numberOf digits * 86400 from fun _ => rfl)]
  cases ht : f.time with
  | none => rfl
  | some time =>
    have hlast : ((componentRuns (time.seconds.map SecondsForm.text) 'S').map timeSeconds).sum =
        counted (time.seconds.map SecondsForm.number) 1 := by
      cases hs : time.seconds with
      | none => rfl
      | some s => simp [timeSeconds, counted, (s.wholeOf_text (h time ht s hs)).1]
    simp only [Option.map_some, Option.getD_some, TimeForm.runs, List.map_append, List.sum_append, hlast,
      sum_componentRuns (show ∀ digits, timeSeconds (digits, 'H') = numberOf digits * 3600 from fun _ => rfl),
      sum_componentRuns (show ∀ digits, timeSeconds (digits, 'M') = numberOf digits * 60 from fun _ => rfl)]
    omega

theorem reading_nanos (h : f.Valid) : f.reading.nanos = f.fraction := by
  unfold Reading.nanos reading fraction
  cases ht : f.time with
  | none => rfl
  | some time =>
    obtain ⟨-, -, hseconds⟩ := h.of_time ht
    have hplain : ∀ (number : Option (List Char)) (unit : Char), unit ≠ 'S' → ∀ nanos,
        (componentRuns number unit).foldl timeNanos nanos = nanos := by
      intro number unit hunit nanos
      cases number <;> simp [timeNanos, hunit]
    simp only [Option.map_some, Option.getD_some, TimeForm.runs, List.foldl_append,
      hplain _ 'H' (by decide), hplain _ 'M' (by decide), Option.bind_some]
    cases hs : time.seconds with
    | none => rfl
    | some s =>
      obtain ⟨hnumber, hfraction⟩ := hseconds s hs
      simp only [Option.map_some, componentRuns_some, List.foldl_cons, List.foldl_nil, timeNanos, if_true,
        (s.wholeOf_text hnumber).2, Option.bind_some]
      cases hm : s.fraction with
      | none => rfl
      | some digits => exact nanosOf_eq_truncated (hfraction digits hm)

theorem Valid.runs_ne_nil (h : f.Valid) {time : TimeForm} (ht : f.time = some time) : time.runs ≠ [] := by
  refine fun hnil => (h.time time ht).1 ?_
  simp only [TimeForm.runs, List.append_eq_nil_iff, componentRuns, List.map_eq_nil_iff,
    Option.toList_eq_nil_iff, Option.map_eq_none_iff] at hnil
  simp [TimeForm.numbers, hnil.1, hnil.2.1, hnil.2.2]

theorem reading_components (h : f.Valid) : 0 < f.reading.components := by
  unfold Reading.components reading
  obtain hweeks | hdays | ht := h.some_component
  · obtain ⟨n, hn⟩ := Option.isSome_iff_exists.mp hweeks
    simp only [hn, componentRuns_some, List.singleton_append, List.length_cons]
    omega
  · obtain ⟨n, hn⟩ := Option.isSome_iff_exists.mp hdays
    simp only [hn, componentRuns_some, List.length_append, List.length_cons]
    omega
  · obtain ⟨time, ht⟩ := Option.isSome_iff_exists.mp ht
    have hpos := List.length_pos_iff.mpr (h.runs_ne_nil ht)
    simp only [ht, Option.map_some, Option.getD_some]
    omega

theorem Valid.reading_seconds (h : f.Valid) : f.reading.seconds = f.total :=
  DurationForm.reading_seconds fun _ ht s hs => ((h.of_time ht).2.2 s hs).1

theorem Valid.accepted (h : f.Valid) : f.reading.accepted = true := by
  unfold Reading.accepted
  rw [all_dateRun h, all_timeRun h, h.reading_seconds, decide_eq_true (reading_components h),
    decide_eq_true h.fits]
  rfl

theorem units_sublist {number : Option (List Char)} {unit : Char} {rs : List Run} {units : List Char}
    (h : (rs.map (·.2)).Sublist units) :
    ((componentRuns number unit ++ rs).map (·.2)).Sublist (unit :: units) := by
  cases number with
  | none => exact h.cons unit
  | some digits => exact h.cons_cons unit

theorem units_last (number : Option (List Char)) (unit : Char) :
    ((componentRuns number unit).map (·.2)).Sublist [unit] := by
  cases number with
  | none => exact List.nil_sublist [unit]
  | some digits => exact List.Sublist.refl [unit]

theorem Valid.inOrder (h : f.Valid) : f.reading.inOrder = true := by
  have hdate : (f.reading.date.map (·.2)).Sublist ['W', 'D'] := units_sublist (units_last f.days 'D')
  unfold Reading.inOrder
  rw [decide_eq_true hdate, Bool.true_and]
  unfold reading
  cases ht : f.time with
  | none => rfl
  | some time =>
    obtain ⟨-, -, hseconds⟩ := h.of_time ht
    have horder : (time.runs.map (·.2)).Sublist ['H', 'M', 'S'] :=
      units_sublist (units_sublist (units_last _ 'S'))
    have hsome : time.runs.isEmpty = false := by
      simpa using h.runs_ne_nil ht
    simp only [Option.map_some, hsome, decide_eq_true horder, Bool.not_false, Bool.true_and]
    refine List.all_eq_true.mpr fun r hr => ?_
    obtain hhour | hminute | hsecond : r ∈ componentRuns time.hours 'H' ∨
        r ∈ componentRuns time.minutes 'M' ∨ r ∈ componentRuns (time.seconds.map SecondsForm.text) 'S' := by
      simpa only [TimeForm.runs, List.mem_append] using hr
    · obtain ⟨n, -, rfl⟩ := List.mem_map.mp hhour
      rfl
    · obtain ⟨n, -, rfl⟩ := List.mem_map.mp hminute
      rfl
    · obtain ⟨n, hn, rfl⟩ := List.mem_map.mp hsecond
      obtain ⟨s, hs, rfl⟩ := Option.map_eq_some_iff.mp (Option.mem_toList.mp hn)
      obtain ⟨hnumber, hfraction⟩ := hseconds s hs
      have hall : s.fraction.all whole = true := by
        cases hm : s.fraction with
        | none => rfl
        | some digits => exact hfraction digits hm
      simp only [(s.wholeOf_text hnumber).1, (s.wholeOf_text hnumber).2, hnumber, hall, Bool.and_self,
        Bool.or_true]

end DurationForm

theorem componentRuns_of_sublist {rs : List Run} {unit : Char} {units : List Char}
    (h : (rs.map (·.2)).Sublist (unit :: units)) :
    ∃ number rs', rs = componentRuns number unit ++ rs' ∧ (rs'.map (·.2)).Sublist units := by
  cases h' : rs with
  | nil => exact ⟨none, [], rfl, List.nil_sublist units⟩
  | cons r rs' =>
    subst h'
    rw [List.map_cons] at h
    cases h with
    | cons _ h => exact ⟨none, r :: rs', rfl, h⟩
    | cons_cons _ h => exact ⟨some r.1, rs', rfl, h⟩

theorem componentRuns_of_sublist_nil {rs : List Run} (h : (rs.map (·.2)).Sublist []) : rs = [] := by
  simpa using h

theorem whole_of_dateRun {number : List Char} {unit : Char} (h : dateRun (number, unit) = true) :
    whole number = true :=
  (Bool.and_eq_true_iff.mp h).2

theorem whole_of_timeRun {number : List Char} {unit : Char} (hunit : unit ≠ 'S')
    (h : timeRun (number, unit) = true) : whole number = true := by
  rw [timeRun, if_neg hunit] at h
  exact (Bool.and_eq_true_iff.mp h).2

theorem exists_timeForm {rs : List Run} (haccepted : rs.all timeRun = true) (hsome : rs ≠ [])
    (horder : (rs.map (·.2)).Sublist ['H', 'M', 'S'])
    (hseconds : ∀ r ∈ rs, r.2 = 'S' → whole (wholeOf r.1) = true ∧ (fractionOf r.1).all whole = true) :
    ∃ time : TimeForm, time.runs = rs ∧ time.numbers ≠ [] ∧ (∀ n ∈ time.numbers, whole n = true) ∧
      ∀ s ∈ time.seconds, ∀ m ∈ s.fraction, whole m = true := by
  obtain ⟨hours, later, rfl, hlater⟩ := componentRuns_of_sublist horder
  obtain ⟨minutes, last, rfl, hlast⟩ := componentRuns_of_sublist hlater
  obtain ⟨seconds, none, rfl, hnone⟩ := componentRuns_of_sublist hlast
  obtain rfl := componentRuns_of_sublist_nil hnone
  simp only [List.append_nil] at *
  rw [List.all_eq_true] at haccepted
  let time : TimeForm := ⟨hours, minutes, seconds.map fun raw => ⟨wholeOf raw, fractionOf raw⟩⟩
  have hruns : time.runs = componentRuns hours 'H' ++ (componentRuns minutes 'M' ++
      componentRuns seconds 'S') := by
    cases seconds with
    | none => rfl
    | some raw => simp only [TimeForm.runs, time, Option.map_some, text_secondsForm]
  have hraw : ∀ raw ∈ seconds, whole (wholeOf raw) = true ∧ (fractionOf raw).all whole = true := by
    rintro raw ⟨⟩
    exact hseconds (raw, 'S') (by simp) rfl
  refine ⟨time, hruns, ?_, ?_, ?_⟩
  · contrapose! hsome
    simp only [TimeForm.numbers, time, List.append_eq_nil_iff, Option.toList_eq_nil_iff,
      Option.map_eq_none_iff] at hsome
    obtain ⟨⟨rfl, rfl⟩, rfl⟩ := hsome
    rfl
  · intro n hn
    simp only [TimeForm.numbers, time, List.mem_append, Option.mem_toList] at hn
    obtain (hn | hn) | hn := hn
    · exact whole_of_timeRun (by decide) (haccepted (n, 'H') (by simp [Option.mem_def.mp hn]))
    · exact whole_of_timeRun (by decide) (haccepted (n, 'M') (by simp [Option.mem_def.mp hn]))
    · obtain ⟨s, hs, rfl⟩ := Option.map_eq_some_iff.mp hn
      obtain ⟨raw, hmem, rfl⟩ := Option.map_eq_some_iff.mp hs
      exact (hraw raw hmem).1
  · intro s hs m hm
    obtain ⟨raw, hmem, rfl⟩ := Option.map_eq_some_iff.mp (Option.mem_def.mp hs)
    have hall := (hraw raw hmem).2
    have hfraction : fractionOf raw = some m := hm
    rwa [hfraction] at hall

theorem exists_form {w : Reading} (haccepted : w.accepted = true) (horder : w.inOrder = true) :
    ∃ f : DurationForm, f.Valid ∧ f.reading = w := by
  obtain ⟨negative, date, time⟩ := w
  simp only [Reading.accepted, Bool.and_eq_true, decide_eq_true_eq] at haccepted
  simp only [Reading.inOrder, Bool.and_eq_true, decide_eq_true_eq] at horder
  obtain ⟨⟨⟨hdate, htime⟩, hcomponents⟩, hfits⟩ := haccepted
  obtain ⟨hsublist, horder⟩ := horder
  obtain ⟨weeks, last, rfl, hlast⟩ := componentRuns_of_sublist hsublist
  obtain ⟨days, none, rfl, hnone⟩ := componentRuns_of_sublist hlast
  obtain rfl := componentRuns_of_sublist_nil hnone
  simp only [List.append_nil] at *
  rw [List.all_eq_true] at hdate
  have hweeks : ∀ n ∈ weeks, whole n = true := fun n hn =>
    whole_of_dateRun (hdate (n, 'W') (by simp [Option.mem_def.mp hn]))
  have hdays : ∀ n ∈ days, whole n = true := fun n hn =>
    whole_of_dateRun (hdate (n, 'D') (by simp [Option.mem_def.mp hn]))
  cases time with
  | none =>
    have hsome : weeks.isSome ∨ days.isSome := by
      cases weeks with
      | some n => exact .inl rfl
      | none =>
        cases days with
        | some n => exact .inr rfl
        | none => exact absurd hcomponents (lt_irrefl 0)
    let f : DurationForm := ⟨negative, weeks, days, none⟩
    have htotal : f.reading.seconds = f.total :=
      DurationForm.reading_seconds fun time ht => absurd ht (Option.not_mem_none time)
    refine ⟨f, ⟨hweeks, hdays, fun time ht => ?_, hsome.imp_right .inl, htotal ▸ hfits⟩, rfl⟩
    exact absurd ht (Option.not_mem_none time)
  | some runs =>
    simp only [Bool.and_eq_true, decide_eq_true_eq, Bool.not_eq_true', List.isEmpty_eq_false_iff,
      List.all_eq_true] at horder
    obtain ⟨⟨hsome, hsublist⟩, hseconds⟩ := horder
    obtain ⟨time, hruns, hnumbers, hwhole, hfraction⟩ := exists_timeForm htime hsome hsublist
      fun r hr hunit => by simpa [hunit] using hseconds r hr
    let f : DurationForm := ⟨negative, weeks, days, some time⟩
    have hreading : f.reading = ⟨negative, componentRuns weeks 'W' ++ componentRuns days 'D', some runs⟩ := by
      simp only [DurationForm.reading, f, Option.map_some, hruns, Option.getD_some]
    have htotal : f.reading.seconds = f.total := by
      refine DurationForm.reading_seconds ?_
      rintro _ ⟨⟩ s hs
      exact hwhole s.number (by simp [TimeForm.numbers, Option.mem_def.mp hs])
    rw [hreading] at htotal
    refine ⟨f, ⟨hweeks, hdays, ?_, .inr (.inr rfl), htotal ▸ hfits⟩, hreading⟩
    rintro _ ⟨⟩
    exact ⟨hnumbers, hwhole, hfraction⟩

theorem grammar_of_inOrder {text : String} (h : ∀ w, readDuration text = some w → w.accepted = true →
    w.inOrder = true) : GrammarHolds text := by
  have hreads : ∀ {f : DurationForm}, f.Valid → f.text = text.toList →
      parseIso8601Duration text = some (if f.negative then 0 else fromSecs f.total + f.fraction) := by
    intro f hvalid htext
    rw [parse_eq_read, hvalid.read htext, Option.bind_some, if_pos hvalid.accepted, hvalid.reading_seconds,
      DurationForm.reading_nanos hvalid]
    rfl
  refine ⟨⟨fun hsome => ?_, fun ⟨f, hvalid, htext⟩ => ?_⟩, fun d hparse f hvalid htext hpositive => ?_⟩
  · obtain ⟨d, hparse⟩ := Option.isSome_iff_exists.mp hsome
    rw [parse_eq_read] at hparse
    obtain ⟨w, hread, hw⟩ := Option.bind_eq_some_iff.mp hparse
    have haccepted : w.accepted = true := by
      by_contra hnot
      rw [if_neg hnot] at hw
      cases hw
    obtain ⟨f, hvalid, hreading⟩ := exists_form haccepted (h w hread haccepted)
    refine ⟨f, hvalid, ?_⟩
    rw [← f.text_reading, hreading, text_of_read hread]
  · rw [hreads hvalid htext]
    rfl
  · rw [hreads hvalid htext, hpositive] at hparse
    exact (Option.some.inj hparse).symm

theorem inOrder_of_grammar {text : String} (h : GrammarHolds text) {w : Reading}
    (hread : readDuration text = some w) (haccepted : w.accepted = true) : w.inOrder = true := by
  have hsome : (parseIso8601Duration text).isSome = true := by
    rw [parse_eq_read, hread, Option.bind_some, if_pos haccepted]
    rfl
  obtain ⟨f, hvalid, htext⟩ := h.1.mp hsome
  have hw := hvalid.read htext
  rw [hread] at hw
  exact Option.some.inj hw ▸ hvalid.inOrder

/-- The parser keeps to the grammar on a text exactly when the components it accepts stand in order: `W`
and `D`, then `H`, `M` and `S`, once each, one of them behind a `T`, and the seconds as `n` or `n.m`. -/
theorem grammar_holds_iff (text : String) :
    GrammarHolds text ↔ ∀ w, readDuration text = some w → w.accepted = true → w.inOrder = true :=
  ⟨fun h _ => inOrder_of_grammar h, grammar_of_inOrder⟩

/-- Accepted, and no text of the grammar: `P1DT` stops behind its `T`, `PT5M5M` says its minutes twice,
`PT1M1H` says them first, and `PT1.S` has a point with nothing behind it. -/
theorem grammar_is_exceeded :
    ¬GrammarHolds "P1DT" ∧ ¬GrammarHolds "PT5M5M" ∧ ¬GrammarHolds "PT1M1H" ∧ ¬GrammarHolds "PT1.S" := by
  have hnot : ∀ {text : String} {w : Reading}, readDuration text = some w → w.accepted = true →
      w.inOrder = false → ¬GrammarHolds text := by
    intro text w hread haccepted horder h
    have hin := inOrder_of_grammar h hread haccepted
    rw [horder] at hin
    cases hin
  refine ⟨hnot (w := ⟨false, [(['1'], 'D')], some []⟩) (by decide) (by decide) (by decide),
    hnot (w := ⟨false, [], some [(['5'], 'M'), (['5'], 'M')]⟩) (by decide) (by decide) (by decide),
    hnot (w := ⟨false, [], some [(['1'], 'M'), (['1'], 'H')]⟩) (by decide) (by decide) (by decide),
    hnot (w := ⟨false, [], some [(['1', '.'], 'S')]⟩) (by decide) (by decide) (by decide)⟩

end Eebus.Model
