import Mathlib.Data.Nat.Digits.Defs
import Mathlib.Tactic.Linarith

/-!
# Dates and their text

A time is a number of microseconds since the start of 1970, in UTC. Its text in ISO 8601 has the date of
the proleptic Gregorian calendar with four digits for the year, the time of the day, and a fraction only
where there is one. Over the years from 0 to 9999 the text determines the time.
-/

namespace Aftercare.Text

/-! ## Digits of a fixed number -/

/-- The last digits of a number, as many as asked for. -/
def padded : ℕ → ℕ → List Char
  | 0, _ => []
  | width + 1, n => padded width (n / 10) ++ [Nat.digitChar (n % 10)]

@[simp] theorem length_padded (width n : ℕ) : (padded width n).length = width := by
  induction width generalizing n with
  | zero => rfl
  | succ width ih => rw [padded, List.length_append, ih, List.length_singleton]

theorem digitChar_inj : ∀ a < 10, ∀ b < 10, Nat.digitChar a = Nat.digitChar b → a = b := by decide

theorem padded_inj {width a b : ℕ} (ha : a < 10 ^ width) (hb : b < 10 ^ width)
    (h : padded width a = padded width b) : a = b := by
  induction width generalizing a b with
  | zero => omega
  | succ width ih =>
    rw [padded, padded] at h
    obtain ⟨hinit, hlast⟩ := List.append_inj' h rfl
    have hdigit := digitChar_inj _ (Nat.mod_lt a (by decide)) _ (Nat.mod_lt b (by decide)) (List.singleton_inj.mp hlast)
    have hdiv : a / 10 = b / 10 := ih (by omega) (by omega) hinit
    omega

theorem padded_append_inj {width a b : ℕ} {x y : List Char} (ha : a < 10 ^ width) (hb : b < 10 ^ width)
    (h : padded width a ++ x = padded width b ++ y) : a = b ∧ x = y := by
  obtain ⟨hdigits, hrest⟩ := List.append_inj h (by rw [length_padded, length_padded])
  exact ⟨padded_inj ha hb hdigits, hrest⟩

/-! ## The calendar -/

structure Civil where
  year : ℤ
  (month day : ℕ)
deriving DecidableEq, Repr

/-- The year and the day of it, counted from a March in a year 0. -/
def marchYear (day : ℤ) : ℤ × ℤ :=
  let era := day / 146097
  let doe := day % 146097
  let century := min (doe / 36524) 3
  let doc := doe - 36524 * century
  let quad := doc / 1461
  let yoq := min (doc % 1461 / 365) 3
  (400 * era + 100 * century + 4 * quad + yoq, doc % 1461 - 365 * yoq)

/-- The date of a day, counted from the start of 1970. -/
def civil (day : ℤ) : Civil :=
  let y := marchYear (day + 719468)
  let mp := (5 * y.2 + 2) / 153
  let month := if mp < 10 then mp + 3 else mp - 9
  { year := if month ≤ 2 then y.1 + 1 else y.1
    month := month.toNat
    day := (y.2 - (153 * mp + 2) / 5 + 1).toNat }

example : civil 0 = ⟨1970, 1, 1⟩ := by decide
example : civil 19782 = ⟨2024, 2, 29⟩ := by decide

def marchDay (year : ℤ) : ℤ := 365 * year + year / 4 - year / 100 + year / 400

theorem marchDay_eq {era century quad yoq : ℤ} (hcentury : 0 ≤ century ∧ century ≤ 3)
    (hquad : 0 ≤ quad ∧ quad ≤ 24) (hyoq : 0 ≤ yoq ∧ yoq ≤ 3) :
    marchDay (400 * era + 100 * century + 4 * quad + yoq) =
      146097 * era + 36524 * century + 1461 * quad + 365 * yoq := by
  have h4 : (400 * era + 100 * century + 4 * quad + yoq) / 4 = 100 * era + 25 * century + quad := by omega
  have h100 : (400 * era + 100 * century + 4 * quad + yoq) / 100 = 4 * era + century := by omega
  have h400 : (400 * era + 100 * century + 4 * quad + yoq) / 400 = era := by omega
  rw [marchDay, h4, h100, h400]
  ring

theorem marchYear_spec (day : ℤ) : 0 ≤ (marchYear day).2 ∧ (marchYear day).2 < 366 ∧
    day = marchDay (marchYear day).1 + (marchYear day).2 := by
  unfold marchYear
  simp only
  rw [marchDay_eq (by omega) (by omega) (by omega)]
  omega

theorem civil_inj {a b : ℤ} (h : civil a = civil b) : a = b := by
  obtain ⟨ha0, ha, hday⟩ := marchYear_spec (a + 719468)
  obtain ⟨hb0, hb, hday'⟩ := marchYear_spec (b + 719468)
  simp only [civil, Civil.mk.injEq] at h
  obtain ⟨hyear, hmonth, hdate⟩ := h
  generalize marchYear (a + 719468) = p at *
  generalize marchYear (b + 719468) = q at *
  have hmp : (5 * p.2 + 2) / 153 = (5 * q.2 + 2) / 153 := by
    split_ifs at hmonth <;> omega
  rw [hmp] at hdate hyear
  have hdoy : p.2 = q.2 := by omega
  have hfirst : p.1 = q.1 := by
    split_ifs at hyear <;> omega
  rw [hfirst] at hday
  omega

theorem civil_bounds (day : ℤ) : (civil day).month < 13 ∧ (civil day).day < 32 := by
  obtain ⟨h0, h, -⟩ := marchYear_spec (day + 719468)
  simp only [civil]
  generalize marchYear (day + 719468) = p at *
  constructor
  · split_ifs <;> omega
  · omega

theorem civil_year_bounds {day : ℤ} (h0 : -719162 ≤ day) (h : day ≤ 2932896) :
    0 ≤ (civil day).year ∧ (civil day).year < 10000 := by
  obtain ⟨hd0, hd, hday⟩ := marchYear_spec (day + 719468)
  simp only [civil]
  generalize marchYear (day + 719468) = p at *
  unfold marchDay at hday
  have hlow : 0 ≤ p.1 := by omega
  have hhigh : p.1 ≤ 9999 := by omega
  split_ifs <;> omega

/-! ## The text of a time -/

def dayLength : ℤ := 86400000000

def fractionText (micros : ℕ) : List Char := if micros = 0 then [] else '.' :: padded 6 micros

/-- `datetime.isoformat`, with the zone as it is written. -/
def isoText (zone : String) (t : ℤ) : String :=
  let date := civil (t / dayLength)
  let micros := (t % dayLength).toNat
  let seconds := micros / 1000000
  String.ofList
    (padded 4 date.year.toNat ++ ('-' :: (padded 2 date.month ++ ('-' :: (padded 2 date.day ++
      ('T' :: (padded 2 (seconds / 3600) ++ (':' :: (padded 2 (seconds / 60 % 60) ++
        (':' :: (padded 2 (seconds % 60) ++ (fractionText (micros % 1000000) ++ zone.toList))))))))))))

example : isoText "Z" 1709164800000000 = "2024-02-29T00:00:00Z" := by decide
example : isoText "+00:00" 1709164800000250 = "2024-02-29T00:00:00.000250+00:00" := by decide

theorem fractionText_inj {a b : ℕ} (ha : a < 1000000) (hb : b < 1000000)
    (h : fractionText a = fractionText b) : a = b := by
  unfold fractionText at h
  split_ifs at h with ha0 hb0
  · rw [ha0, hb0]
  · exact padded_inj ha hb (List.cons.inj h).2

theorem toNat_emod_lt (t : ℤ) : (t % dayLength).toNat < 86400000000 := by
  unfold dayLength
  omega

theorem isoText_inj {zone : String} {s t : ℤ} (hs0 : -719162 ≤ s / dayLength)
    (hs : s / dayLength ≤ 2932896) (ht0 : -719162 ≤ t / dayLength) (ht : t / dayLength ≤ 2932896)
    (h : isoText zone s = isoText zone t) : s = t := by
  obtain ⟨hms, hds⟩ := civil_bounds (s / dayLength)
  obtain ⟨hmt, hdt⟩ := civil_bounds (t / dayLength)
  obtain ⟨hys0, hys⟩ := civil_year_bounds hs0 hs
  obtain ⟨hyt0, hyt⟩ := civil_year_bounds ht0 ht
  have hsday := toNat_emod_lt s
  have htday := toNat_emod_lt t
  rw [isoText, isoText, String.ofList_inj] at h
  obtain ⟨hyear, h⟩ := padded_append_inj (by omega) (by omega) h
  obtain ⟨hmonth, h⟩ := padded_append_inj (by omega) (by omega) (List.cons.inj h).2
  obtain ⟨hdate, h⟩ := padded_append_inj (by omega) (by omega) (List.cons.inj h).2
  obtain ⟨hhour, h⟩ := padded_append_inj (by omega) (by omega) (List.cons.inj h).2
  obtain ⟨hminute, h⟩ := padded_append_inj (by omega) (by omega) (List.cons.inj h).2
  obtain ⟨hsecond, h⟩ := padded_append_inj (by omega) (by omega) (List.cons.inj h).2
  have hfraction := fractionText_inj (Nat.mod_lt _ (by decide)) (Nat.mod_lt _ (by decide)) (List.append_cancel_right h)
  have hday : s / dayLength = t / dayLength := by
    refine civil_inj ?_
    cases hcs : civil (s / dayLength)
    cases hct : civil (t / dayLength)
    rw [hcs, hct] at hyear hmonth hdate
    rw [hcs] at hys0
    rw [hct] at hyt0
    simp only at hyear hmonth hdate hys0 hyt0
    rw [Civil.mk.injEq]
    omega
  have hmicros : (s % dayLength).toNat = (t % dayLength).toNat := by omega
  unfold dayLength at hday hmicros
  omega

theorem length_isoText (zone : String) (t : ℤ) : (isoText zone t).length =
    19 + (if t % 1000000 = 0 then 0 else 7) + zone.length := by
  have hmod : (t % dayLength).toNat % 1000000 = 0 ↔ t % 1000000 = 0 := by
    unfold dayLength
    omega
  have hfraction : (fractionText ((t % dayLength).toNat % 1000000)).length =
      if t % 1000000 = 0 then 0 else 7 := by
    simp only [fractionText, hmod]
    split_ifs
    · rfl
    · rw [List.length_cons, length_padded]
  rw [isoText, String.length_ofList]
  simp only [List.length_append, List.length_cons, length_padded, hfraction, String.length_toList]
  omega

theorem all_padded {p : Char → Bool} (hdigit : ∀ d < 10, p (Nat.digitChar d) = true) (width n : ℕ) :
    (padded width n).all p = true := by
  induction width generalizing n with
  | zero => rfl
  | succ width ih =>
    have hlast := hdigit (n % 10) (Nat.mod_lt n (by decide))
    rw [padded, List.all_append, ih, List.all_cons, List.all_nil, hlast]
    rfl

theorem all_isoText {p : Char → Bool} {zone : String} (hdigit : ∀ d < 10, p (Nat.digitChar d) = true)
    (hsigns : ['-', 'T', ':', '.'].all p = true) (hzone : zone.toList.all p = true) (t : ℤ) :
    (isoText zone t).toList.all p = true := by
  simp only [List.all_cons, List.all_nil, Bool.and_eq_true, and_true] at hsigns
  obtain ⟨hdash, ht, hcolon, hdot⟩ := hsigns
  have hfraction : ∀ n, (fractionText n).all p = true := by
    intro n
    unfold fractionText
    split_ifs
    · rfl
    · rw [List.all_cons, hdot, all_padded hdigit]
      rfl
  rw [isoText, String.toList_ofList]
  simp only [List.all_append, List.all_cons, all_padded hdigit, hdash, ht, hcolon, hfraction, hzone, Bool.and_true]

end Aftercare.Text
