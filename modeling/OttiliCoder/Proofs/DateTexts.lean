import Mathlib.Algebra.Order.Ring.Int
import Mathlib.Data.Prod.Lex
import Mathlib.Order.SuccPred.Basic
import OttiliCoder.Core.Values
import OttiliCoder.Library.FixedWidth

/-! Days and their years, months and days follow one another alike, and so do the stored
texts of two dates, where their years are written with as many digits. -/

namespace OttiliCoder.Date

/-- The days of an era before a year of it. -/
def daysBefore (year : Int) : Int := 365 * year + year / 4 - year / 100

def yearOfEra (doe : Int) : Int := (doe - doe / 1460 + doe / 36524 - doe / 146096) / 365

theorem yearOfEra_parts {c q y d : Int} (hc : 0 ≤ c ∧ c ≤ 3) (hq : 0 ≤ q ∧ q ≤ 24) (hy : 0 ≤ y ∧ y ≤ 3)
    (hd : 0 ≤ d ∧ (d ≤ 364 ∨ y = 3 ∧ d = 365)) (short : q = 24 → y = 3 → d ≤ 364) :
    yearOfEra (36524 * c + 1461 * q + 365 * y + d) = 100 * c + 4 * q + y := by
  unfold yearOfEra
  have century : (36524 * c + 1461 * q + 365 * y + d) / 36524 = c := by omega
  have era : (36524 * c + 1461 * q + 365 * y + d) / 146096 = 0 := by omega
  rw [century, era]
  obtain ⟨e, he, he'⟩ : ∃ e, (36524 * c + 1461 * q + 365 * y + d) / 1460 = 25 * c + q + e ∧
     (e = 0 ∨ e = 1 ∧ y = 3 ∧ 1 ≤ d) := by
    refine ⟨(24 * c + q + 365 * y + d) / 1460, by omega, ?_⟩
    omega
  rw [he]
  omega

theorem yearOfEra_bounds {doe : Int} (low : 0 ≤ doe) (high : doe < 146097) :
    (0 ≤ yearOfEra doe ∧ yearOfEra doe ≤ 399) ∧ daysBefore (yearOfEra doe) ≤ doe ∧
      (yearOfEra doe < 399 → doe < daysBefore (yearOfEra doe + 1)) ∧ doe - daysBefore (yearOfEra doe) ≤ 365 := by
  by_cases last : doe = 146096
  · subst last
    decide
  · obtain ⟨c, r, hc, hr, rfl⟩ : ∃ c r, (0 ≤ c ∧ c ≤ 3) ∧ (0 ≤ r ∧ r < 36524) ∧ doe = 36524 * c + r :=
      ⟨doe / 36524, doe % 36524, by omega, by omega, by omega⟩
    obtain ⟨q, t, hq, ht, rfl⟩ : ∃ q t, (0 ≤ q ∧ q ≤ 24) ∧ (0 ≤ t ∧ t < 1461 ∧ (q = 24 → t < 1460)) ∧ r = 1461 * q + t :=
      ⟨r / 1461, r % 1461, by omega, by omega, by omega⟩
    obtain ⟨y, d, hy, hd, rfl⟩ : ∃ y d, (0 ≤ y ∧ y ≤ 3) ∧ (0 ≤ d ∧ (d ≤ 364 ∨ y = 3 ∧ d = 365)) ∧ t = 365 * y + d := by
      by_cases full : t = 1460
      · exact ⟨3, 365, by omega, by omega, by omega⟩
      · exact ⟨t / 365, t % 365, by omega, by omega, by omega⟩
    have shape : 36524 * c + (1461 * q + (365 * y + d)) = 36524 * c + 1461 * q + 365 * y + d := by omega
    rw [shape, yearOfEra_parts hc hq hy hd (by omega)]
    unfold daysBefore
    have four : (100 * c + 4 * q + y) / 4 = 25 * c + q := by omega
    have hundred : (100 * c + 4 * q + y) / 100 = c := by omega
    have later : 365 * (100 * c + 4 * q + y + 1) + (100 * c + 4 * q + y + 1) / 4 - (100 * c + 4 * q + y + 1) / 100 =
       36524 * c + 1461 * q + 365 * y + 365 + (if y = 3 then 1 else 0) - (if y = 3 ∧ q = 24 then 1 else 0) := by
      split <;> split <;> omega
    rw [four, hundred]
    refine ⟨by omega, by omega, fun _ => ?_, by omega⟩
    rw [later]
    split <;> split <;> omega

/-- The days of an era as its years and their days. -/
theorem yearOfEra_lt {doe later : Int} (low : 0 ≤ doe) (less : doe < later) (high : later < 146097) :
    yearOfEra doe < yearOfEra later ∨
      yearOfEra doe = yearOfEra later ∧ doe - daysBefore (yearOfEra doe) < later - daysBefore (yearOfEra later) := by
  obtain ⟨first, start, stop, -⟩ := yearOfEra_bounds low (less.trans high)
  obtain ⟨second, start', stop', -⟩ := yearOfEra_bounds (low.trans less.le) high
  rcases lt_trichotomy (yearOfEra doe) (yearOfEra later) with earlier | same | after
  · exact .inl earlier
  · rw [same]
    exact .inr ⟨rfl, by omega⟩
  · have gap := stop' (by omega)
    have grows : daysBefore (yearOfEra later + 1) ≤ daysBefore (yearOfEra doe) := by
      unfold daysBefore
      omega
    omega

/-- The month, counted from March, and its day, of a day of the year. -/
theorem monthOf_lt {doy later : Int} (less : doy < later) :
    (5 * doy + 2) / 153 < (5 * later + 2) / 153 ∨ (5 * doy + 2) / 153 = (5 * later + 2) / 153 ∧
      doy - (153 * ((5 * doy + 2) / 153) + 2) / 5 + 1 < later - (153 * ((5 * later + 2) / 153) + 2) / 5 + 1 := by
  omega

/-- A month counted from January, in the year that January begins. -/
def civilOf (year mp day : Int) : Int × Int × Int :=
  let month := if mp < 10 then mp + 3 else mp - 9
  (year + (if month ≤ 2 then 1 else 0), month, day)

theorem civil_eq (day : Int) : civil day =
    let doe := (day + 719468) % 146097
    let doy := doe - daysBefore (yearOfEra doe)
    civilOf (yearOfEra doe + (day + 719468) / 146097 * 400) ((5 * doy + 2) / 153) (doy - (153 * ((5 * doy + 2) / 153) + 2) / 5 + 1) := by
  unfold civil daysBefore yearOfEra civilOf
  simp only [Int.add_sub_assoc]

theorem civilOf_lt {year mp day year' mp' day' : Int} (low : 0 ≤ mp) (high : mp ≤ 11) (low' : 0 ≤ mp') (high' : mp' ≤ 11)
    (less : year < year' ∨ year = year' ∧ (mp < mp' ∨ mp = mp' ∧ day < day')) :
    (civilOf year mp day).1 < (civilOf year' mp' day').1 ∨ (civilOf year mp day).1 = (civilOf year' mp' day').1 ∧
      ((civilOf year mp day).2.1 < (civilOf year' mp' day').2.1 ∨
        (civilOf year mp day).2.1 = (civilOf year' mp' day').2.1 ∧ (civilOf year mp day).2.2 < (civilOf year' mp' day').2.2) := by
  unfold civilOf
  dsimp only
  split <;> split <;> split <;> split <;> omega

/-- The day of the era and of its year, of a day counted from the epoch. -/
theorem dayOfYear_bounds (day : Int) :
    (0 ≤ yearOfEra ((day + 719468) % 146097) ∧ yearOfEra ((day + 719468) % 146097) ≤ 399) ∧
      0 ≤ (day + 719468) % 146097 - daysBefore (yearOfEra ((day + 719468) % 146097)) ∧
      (day + 719468) % 146097 - daysBefore (yearOfEra ((day + 719468) % 146097)) ≤ 365 := by
  have low : 0 ≤ (day + 719468) % 146097 := by omega
  have high : (day + 719468) % 146097 < 146097 := by omega
  obtain ⟨bounds, start, -, short⟩ := yearOfEra_bounds low high
  exact ⟨bounds, by omega, short⟩

theorem civil_bounds (day : Int) : (1 ≤ (civil day).2.1 ∧ (civil day).2.1 ≤ 12) ∧ 1 ≤ (civil day).2.2 ∧ (civil day).2.2 ≤ 31 := by
  obtain ⟨-, start, short⟩ := dayOfYear_bounds day
  rw [civil_eq]
  unfold civilOf
  dsimp only
  generalize (day + 719468) % 146097 - daysBefore (yearOfEra ((day + 719468) % 146097)) = doy at *
  split <;> omega

/-- Days follow one another as their years, months and days do. -/
theorem civil_lt {day later : Int} (less : day < later) : (civil day).1 < (civil later).1 ∨ (civil day).1 = (civil later).1 ∧
    ((civil day).2.1 < (civil later).2.1 ∨ (civil day).2.1 = (civil later).2.1 ∧ (civil day).2.2 < (civil later).2.2) := by
  obtain ⟨bounds, start, short⟩ := dayOfYear_bounds day
  obtain ⟨bounds', start', short'⟩ := dayOfYear_bounds later
  rw [civil_eq, civil_eq]
  apply civilOf_lt (by omega) (by omega) (by omega) (by omega)
  have order : (day + 719468) / 146097 < (later + 719468) / 146097 ∨
      (day + 719468) / 146097 = (later + 719468) / 146097 ∧ (day + 719468) % 146097 < (later + 719468) % 146097 := by omega
  rcases order with era | ⟨era, earlier⟩
  · exact .inl (by omega)
  · have low : 0 ≤ (day + 719468) % 146097 := by omega
    have high : (later + 719468) % 146097 < 146097 := by omega
    rcases yearOfEra_lt low earlier high with year | ⟨year, doy⟩
    · exact .inl (by omega)
    · exact .inr ⟨by omega, monthOf_lt doy⟩


/-! Texts. -/

def year (date : Date) : Int := (civil (date.ms / 86400000)).1

/-- The fields of a text behind its year. -/
def fields (date : Date) : List Nat :=
  let rest := (date.ms % 86400000).toNat
  [(civil (date.ms / 86400000)).2.1.toNat, (civil (date.ms / 86400000)).2.2.toNat, rest / 3600000, rest / 60000 % 60,
    rest / 1000 % 60, rest % 1000]

def fieldWidths : List (Nat × Char) := [(2, '-'), (2, 'T'), (2, ':'), (2, ':'), (2, '.'), (3, 'Z')]

theorem padNat_toList {width n : Nat} (small : n < 10 ^ (width + 1)) : (padNat (width + 1) n).toList = FixedWidth.digits (width + 1) n := by
  rw [← FixedWidth.padded width n small, padNat, padStart, String.toList_append, String.toList_ofList, Nat.toString_eq_repr,
    ← String.length_toList, Nat.toList_repr]

theorem fields_fit (date : Date) : FixedWidth.Fits fieldWidths date.fields := by
  obtain ⟨⟨-, month⟩, -, day⟩ := civil_bounds (date.ms / 86400000)
  unfold fields fieldWidths
  generalize civil (date.ms / 86400000) = written at month day
  refine ⟨?_, ?_, ?_, ?_, ?_, ?_, trivial⟩ <;> omega

theorem toISOString_toList (date : Date) :
    date.toISOString.toList = (yearText date.year).toList ++ '-' :: FixedWidth.record fieldWidths date.fields := by
  obtain ⟨month, day, hour, minute, second, ms, -⟩ := fields_fit date
  unfold toISOString year fields
  generalize civil (date.ms / 86400000) = written at month day ⊢
  simp only [String.toList_append, padNat_toList month, padNat_toList day, padNat_toList hour, padNat_toList minute,
    padNat_toList second, padNat_toList ms]
  simp [fieldWidths, FixedWidth.record]

/-! Order. -/

theorem clock_lt {rest later : Nat} (less : rest < later) :
    [rest / 3600000, rest / 60000 % 60, rest / 1000 % 60, rest % 1000] <
      [later / 3600000, later / 60000 % 60, later / 1000 % 60, later % 1000] := by
  simp only [List.cons_lt_cons_iff]
  have hours : rest / 3600000 = rest / 60000 / 60 := by omega
  have hours' : later / 3600000 = later / 60000 / 60 := by omega
  have minutes : rest / 60000 = rest / 1000 / 60 := by omega
  have minutes' : later / 60000 = later / 1000 / 60 := by omega
  rw [hours, hours', minutes, minutes']
  omega

theorem fields_lt {date later : Date} (less : date.ms < later.ms) :
    date.year < later.year ∨ date.year = later.year ∧ date.fields < later.fields := by
  obtain ⟨⟨month, -⟩, day, -⟩ := civil_bounds (date.ms / 86400000)
  unfold year fields
  by_cases earlier : date.ms / 86400000 < later.ms / 86400000
  · have order := civil_lt earlier
    generalize civil (date.ms / 86400000) = written at *
    generalize civil (later.ms / 86400000) = written' at *
    simp only [List.cons_lt_cons_iff]
    omega
  · have same : date.ms / 86400000 = later.ms / 86400000 := by omega
    have rest : (date.ms % 86400000).toNat < (later.ms % 86400000).toNat := by omega
    rw [same]
    refine .inr ⟨rfl, ?_⟩
    rw [List.cons_lt_cons_iff, List.cons_lt_cons_iff]
    exact .inr ⟨rfl, .inr ⟨rfl, clock_lt rest⟩⟩

theorem year_bounds (date : Date) : -271821 ≤ date.year ∧ date.year ≤ 275760 := by
  obtain ⟨low, high⟩ := date.valid
  unfold maxDateMs at low high
  have mono : ∀ {day later : Int}, day ≤ later → (civil day).1 ≤ (civil later).1 := by
    intro day later ordered
    rcases ordered.lt_or_eq with less | rfl
    · have := civil_lt less
      omega
    · exact le_refl _
  have first : (civil (-100000000)).1 ≤ (civil (date.ms / 86400000)).1 := mono (by omega)
  have last : (civil (date.ms / 86400000)).1 ≤ (civil 100000000).1 := mono (by omega)
  exact ⟨first, last⟩

/-- The way a year is written: with a sign, but from 0 to 9999. -/
inductive Era where
  | negative | plain | positive
deriving DecidableEq

def Era.mark : Era → List Char
  | .negative => ['-']
  | .plain => []
  | .positive => ['+']

def Era.width : Era → Nat
  | .plain => 4
  | _ => 6

def era (date : Date) : Era := if date.year < 0 then .negative else if 9999 < date.year then .positive else .plain

theorem yearText_toList (date : Date) :
    (yearText date.year).toList = date.era.mark ++ FixedWidth.digits date.era.width date.year.natAbs := by
  obtain ⟨low, high⟩ := date.year_bounds
  unfold yearText era
  by_cases negative : date.year < 0
  · rw [if_neg (by omega), if_pos negative, if_pos negative, String.toList_append, padNat_toList (by omega)]
    rfl
  · rw [if_neg negative, if_neg negative]
    have magnitude : date.year.toNat = date.year.natAbs := by omega
    rw [magnitude]
    by_cases large : 9999 < date.year
    · rw [if_neg (by omega), if_pos large, String.toList_append, padNat_toList (by omega)]
      rfl
    · rw [if_pos (by omega), if_neg large, padNat_toList (by omega)]
      rfl

/-- A text is the mark of its era, and a record of the year and all the rest. -/
theorem toISOString_record (date : Date) : date.toISOString.toList =
    date.era.mark ++ FixedWidth.record ((date.era.width, '-') :: fieldWidths) (date.year.natAbs :: date.fields) := by
  rw [toISOString_toList, yearText_toList, List.append_assoc]
  rfl

theorem record_fits (date : Date) : FixedWidth.Fits ((date.era.width, '-') :: fieldWidths) (date.year.natAbs :: date.fields) := by
  obtain ⟨low, high⟩ := date.year_bounds
  refine ⟨?_, date.fields_fit⟩
  unfold era
  split
  · exact show date.year.natAbs < 10 ^ 6 by omega
  · split
    · exact show date.year.natAbs < 10 ^ 6 by omega
    · exact show date.year.natAbs < 10 ^ 4 by omega

/-- The years are written so that their texts are ordered as they are. -/
def Agree (date later : Date) : Prop :=
  (9999 < date.year ↔ 9999 < later.year) ∧ (date.year < 0 → later.year < 0 → date.year = later.year)

instance (date later : Date) : Decidable (Agree date later) := inferInstanceAs (Decidable (_ ∧ _))

theorem Agree.symm {date later : Date} (agree : Agree date later) : Agree later date :=
  ⟨agree.1.symm, fun negative negative' => (agree.2 negative' negative).symm⟩

theorem era_cases (date : Date) : (date.era = .negative ∧ date.year < 0) ∨ (date.era = .positive ∧ 9999 < date.year) ∨
    (date.era = .plain ∧ 0 ≤ date.year ∧ date.year ≤ 9999) := by
  unfold era
  split
  · exact .inl ⟨rfl, by assumption⟩
  · split
    · exact .inr (.inl ⟨rfl, by assumption⟩)
    · exact .inr (.inr ⟨rfl, by omega, by omega⟩)

/-- Texts of one era are ordered as the years without their signs, and then the rest. -/
theorem toISOString_lt_of_era {date later : Date} (same : date.era = later.era)
    (less : date.year.natAbs :: date.fields < later.year.natAbs :: later.fields) : date.toISOString < later.toISOString := by
  rw [String.lt_iff, toISOString_record, toISOString_record]
  have fits := date.record_fits
  have fits' := later.record_fits
  rw [same] at fits ⊢
  exact List.append_left_lt (FixedWidth.record_lt fits fits' less)

theorem toISOString_lt {date later : Date} (agree : Agree date later) (less : date.ms < later.ms) :
    date.toISOString < later.toISOString := by
  have order := fields_lt less
  have above : 9999 < date.year ↔ 9999 < later.year := agree.1
  rcases date.era_cases with ⟨mine, negative⟩ | ⟨mine, large⟩ | ⟨mine, low, high⟩
  · rcases later.era_cases with ⟨other, negative'⟩ | ⟨other, large'⟩ | ⟨other, low', high'⟩
    · have year := agree.2 negative negative'
      rcases order with earlier | ⟨-, rest⟩
      · omega
      · exact toISOString_lt_of_era (mine.trans other.symm) (List.cons_lt_cons_iff.mpr (.inr ⟨by rw [year], rest⟩))
    · omega
    · rw [String.lt_iff, toISOString_record, toISOString_record, mine, other]
      exact FixedWidth.signed_lt (by decide)
  · rcases later.era_cases with ⟨other, negative'⟩ | ⟨other, large'⟩ | ⟨other, low', high'⟩
    · omega
    · apply toISOString_lt_of_era (mine.trans other.symm)
      rw [List.cons_lt_cons_iff]
      rcases order with earlier | ⟨year, rest⟩
      · exact .inl (by omega)
      · exact .inr ⟨by rw [year], rest⟩
    · omega
  · rcases later.era_cases with ⟨other, negative'⟩ | ⟨other, large'⟩ | ⟨other, low', high'⟩
    · omega
    · omega
    · apply toISOString_lt_of_era (mine.trans other.symm)
      rw [List.cons_lt_cons_iff]
      rcases order with earlier | ⟨year, rest⟩
      · exact .inl (by omega)
      · exact .inr ⟨by rw [year], rest⟩

/-- Years that are not written alike turn the order of the texts around. -/
theorem toISOString_gt {date later : Date} (differ : ¬ Agree date later) (less : date.ms < later.ms) :
    later.toISOString < date.toISOString := by
  have order := fields_lt less
  unfold Agree at differ
  rcases date.era_cases with ⟨mine, negative⟩ | ⟨mine, large⟩ | ⟨mine, low, high⟩
  · rcases later.era_cases with ⟨other, negative'⟩ | ⟨other, large'⟩ | ⟨other, low', high'⟩
    · exact toISOString_lt_of_era (other.trans mine.symm) (List.cons_lt_cons_iff.mpr (.inl (by omega)))
    · rw [String.lt_iff, toISOString_record, toISOString_record, mine, other]
      exact List.cons_lt_cons_iff.mpr (.inl (by decide))
    · omega
  · omega
  · rcases later.era_cases with ⟨other, negative'⟩ | ⟨other, large'⟩ | ⟨other, low', high'⟩
    · omega
    · rw [String.lt_iff, toISOString_record, toISOString_record, mine, other]
      exact FixedWidth.signed_lt (by decide)
    · omega

/-- Two texts are ordered as their dates exactly where their years are written alike. -/
theorem toISOString_le_iff (date later : Date) :
    (date.toISOString ≤ later.toISOString ↔ date.ms ≤ later.ms) ↔ Agree date later := by
  rcases lt_trichotomy date.ms later.ms with less | same | more
  · have plain : date.ms ≤ later.ms := less.le
    by_cases agree : Agree date later
    · have ordered : date.toISOString ≤ later.toISOString := Std.le_of_lt (toISOString_lt agree less)
      simp [agree, plain, ordered]
    · have turned : ¬ date.toISOString ≤ later.toISOString := String.not_le.mpr (toISOString_gt agree less)
      simp [agree, plain, turned]
  · obtain rfl : date = later := by
      cases date
      cases later
      simpa using same
    have agree : Agree date date := ⟨Iff.rfl, fun _ _ => rfl⟩
    simp [agree]
  · have plain : ¬ date.ms ≤ later.ms := more.not_ge
    by_cases agree : Agree date later
    · have ordered : ¬ date.toISOString ≤ later.toISOString := String.not_le.mpr (toISOString_lt agree.symm more)
      simp [agree, plain, ordered]
    · have turned : date.toISOString ≤ later.toISOString := Std.le_of_lt (toISOString_gt (fun agreed => agree agreed.symm) more)
      simp [agree, plain, turned]

end OttiliCoder.Date
