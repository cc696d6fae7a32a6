import SystemTestSuite.Library.Decimal

/-!
The date of a `$GPZDA` sentence: `nmea_to_ZDA` in `nmea.c`, and its line in `nmea_epoch_end`.
-/

namespace SystemTestSuite.Dm2

open Library

def behindSign (s : Bytes) : Bytes :=
  if s.head? = some 45 ∨ s.head? = some 43 then s.tail else s

def scanDecimal (s : Bytes) : Option (ℤ × Bytes) :=
  let body := s.dropWhile isSpace
  let ds := (behindSign body).takeWhile isDigit
  if ds = [] then none
  else
    let z : ℤ := if body.head? = some 45 then -digitsValue ds else digitsValue ds
    some (clampInt z, (behindSign body).dropWhile isDigit)

/-- Digits with a point among them and an exponent behind one of `marks`. -/
def scanFraction (digit : UInt8 → Bool) (marks s : Bytes) : Option Bytes :=
  let whole := s.dropWhile digit
  let rest := if whole.head? = some 46 then whole.tail.dropWhile digit else whole
  if s.takeWhile digit = [] ∧ (whole.head? ≠ some 46 ∨ whole.tail.takeWhile digit = []) then none
  else
    match rest with
    | [] => some []
    | b :: more =>
      if b ∈ marks then
        if (behindSign more).takeWhile isDigit = [] then none
        else some ((behindSign more).dropWhile isDigit)
      else some rest

def lower (b : UInt8) : UInt8 := if 65 ≤ b ∧ b ≤ 90 then b + 32 else b

def sharedLetters : Bytes → Bytes → ℕ
  | w :: word, b :: s => if lower b = w then sharedLetters word s + 1 else 0
  | _, _ => 0

/-- `%f`: what it leaves. An item that only begins a number does not match. -/
def scanFloat (s : Bytes) : Option Bytes :=
  let body := behindSign (s.dropWhile isSpace)
  match sharedLetters (ascii "infinity") body, sharedLetters (ascii "nan") body with
  | 8, _ => some (body.drop 8)
  | 3, _ => some (body.drop 3)
  | 0, 3 =>
    if body[3]? = some 40 then
      let rest := (body.drop 4).dropWhile fun b => isDigit b || (97 ≤ lower b && lower b ≤ 122) || b = 95
      if rest.head? = some 41 then some rest.tail else none
    else some (body.drop 3)
  | 0, 0 =>
    if sharedLetters (ascii "0x") body = 2 then
      scanFraction (fun b => (hexValue b).isSome) (ascii "pP") (body.drop 2)
    else scanFraction isDigit (ascii "eE") body
  | _, _ => none

/-- Without the seconds of the day, a `float` that is not printed. -/
structure NmeaZda where
  valid : ℤ
  day : ℤ
  month : ℤ
  year : ℤ
  tzAdjHours : ℤ
  tzAdjMins : ℤ
  deriving DecidableEq, Repr

def zdaStores : List (ℤ → NmeaZda → NmeaZda) :=
  [fun z zda => { zda with day := z }, fun z zda => { zda with month := z },
    fun z zda => { zda with year := z }, fun z zda => { zda with tzAdjHours := z },
    fun z zda => { zda with tzAdjMins := z }]

def scanItems : List (ℤ → NmeaZda → NmeaZda) → Bytes → NmeaZda → ℕ × NmeaZda
  | [], _, zda => (0, zda)
  | store :: stores, s, zda =>
    match if s.head? = some 44 then scanDecimal s.tail else none with
    | none => (0, zda)
    | some (z, rest) =>
      let r := scanItems stores rest (store z zda)
      (r.1 + 1, r.2)

/-- `sscanf(str, "$GPZDA,%f,%d,%d,%d,%d,%d*", ..)`; 0 stands for `EOF` too. -/
def scanZda (str : Bytes) (zda : NmeaZda) : ℕ × NmeaZda :=
  let s := cstr str
  if (ascii "$GPZDA,").isPrefixOf s then
    match scanFloat (s.drop 7) with
    | none => (0, zda)
    | some rest =>
      let r := scanItems zdaStores rest zda
      (r.1 + 1, r.2)
  else (0, zda)

def nmeaToZda (str : Bytes) (zda : NmeaZda) : ℤ × NmeaZda :=
  let r := scanZda str zda
  if r.1 ≠ 6 then (1, r.2) else (0, { r.2 with valid := 1 })

def months : List Bytes :=
  [ascii "Jan", ascii "Feb", ascii "Mar", ascii "Apr", ascii "May", ascii "Jun", ascii "Jul",
    ascii "Aug", ascii "Sep", ascii "Oct", ascii "Nov", ascii "Dec"]

def monthAt (i : ℤ) : Option Bytes := if 0 ≤ i then months[i.toNat]? else none

def dateText (day : ℤ) (month : Bytes) (year : ℤ) : Bytes :=
  let digits := printInt year.natAbs
  let year' :=
    if year < 0 then 45 :: (List.replicate (3 - digits.length) 48 ++ digits)
    else List.replicate (4 - digits.length) 48 ++ digits
  ascii "       Date: " ++ List.replicate (2 - (printInt day).length) 32 ++ printInt day ++ [45] ++
    month ++ [45] ++ year' ++ [10]

/-- The date line of `nmea_epoch_end`, none where it reads outside `months`. -/
def dateLine (zda : NmeaZda) : Option Bytes :=
  if zda.valid ≠ 0 then (monthAt zda.month).map fun name => dateText zda.day name zda.year
  else some (ascii "       Date:\n")

def DateRight (zda : NmeaZda) : Prop :=
  1 ≤ zda.month ∧ zda.month ≤ 12 ∧ ∃ name, monthAt (zda.month - 1) = some name ∧
    dateLine zda = some (dateText zda.day name zda.year)

theorem months_differ : ∀ i < 12, months[i + 1]? ≠ months[i]? := by decide

theorem dateText_inj {day year : ℤ} {name name' : Bytes}
    (h : dateText day name year = dateText day name' year) : name = name' := by
  simp only [dateText, List.append_assoc] at h
  exact List.append_cancel_right (List.append_cancel_left (List.append_cancel_left
    (List.append_cancel_left (List.append_cancel_left h))))

/-- The number of the month is taken for its place in the array. -/
theorem not_dateRight {zda : NmeaZda} (hvalid : zda.valid ≠ 0) : ¬ DateRight zda := by
  rintro ⟨hlow, hhigh, name, hname, hline⟩
  rw [dateLine, if_pos hvalid, Option.map_eq_some_iff] at hline
  obtain ⟨name', hname', heq⟩ := hline
  obtain rfl := dateText_inj heq
  obtain ⟨i, hi⟩ := Int.eq_ofNat_of_zero_le (show 0 ≤ zda.month - 1 by omega)
  have hmonth : zda.month = ((i + 1 : ℕ) : ℤ) := by omega
  rw [hi, monthAt, if_pos (Int.natCast_nonneg i), Int.toNat_natCast] at hname
  rw [hmonth, monthAt, if_pos (Int.natCast_nonneg _), Int.toNat_natCast] at hname'
  exact months_differ i (by omega) (hname'.trans hname.symm)

theorem nmeaToZda_valid {str : Bytes} {zda : NmeaZda} (h : (nmeaToZda str zda).1 = 0) :
    (nmeaToZda str zda).2.valid = 1 := by
  rw [nmeaToZda] at h ⊢
  split_ifs at h ⊢ with hsix
  · cases h
  · rfl

def Digits (ds : Bytes) : Prop := ds ≠ [] ∧ ∀ b ∈ ds, isDigit b = true

theorem digits_of_all {ds : Bytes} (hne : ds.isEmpty = false) (h : ds.all isDigit = true) :
    Digits ds := ⟨List.isEmpty_eq_false_iff.mp hne, List.all_eq_true.mp h⟩

variable {ds rest : Bytes}

theorem Digits.head (h : Digits ds) (rest : Bytes) :
    ∃ b bs, ds ++ rest = b :: bs ∧ isDigit b = true := by
  obtain ⟨b, bs, rfl⟩ := List.exists_cons_of_ne_nil h.1
  exact ⟨b, bs ++ rest, rfl, h.2 b List.mem_cons_self⟩

theorem Digits.no_space (h : Digits ds) (rest : Bytes) : (ds ++ rest).dropWhile isSpace = ds ++ rest := by
  obtain ⟨b, bs, heq, hdigit⟩ := h.head rest
  rw [heq]
  apply List.dropWhile_cons_of_neg
  rw [digit_not_space hdigit]
  exact Bool.false_ne_true

theorem Digits.no_sign (h : Digits ds) (rest : Bytes) : (ds ++ rest).head? ≠ some 45 ∧
    behindSign (ds ++ rest) = ds ++ rest := by
  obtain ⟨b, bs, heq, hdigit⟩ := h.head rest
  have hsign {c : UInt8} (hc : isDigit c = false) : (ds ++ rest).head? ≠ some c := by
    rw [heq]
    rintro ⟨⟩
    rw [hdigit] at hc
    cases hc
  exact ⟨hsign rfl, if_neg (not_or.mpr ⟨hsign rfl, hsign rfl⟩)⟩

theorem takeWhile_digits {p : UInt8 → Bool} (hds : ∀ b ∈ ds, p b = true)
    (hrest : ∀ b ∈ rest.head?, p b = false) :
    (ds ++ rest).takeWhile p = ds ∧ (ds ++ rest).dropWhile p = rest := by
  have hstop : rest.takeWhile p = [] ∧ rest.dropWhile p = rest := by
    cases rest with
    | nil => exact ⟨rfl, rfl⟩
    | cons b bs =>
      have hb := hrest b rfl
      simp [hb]
  rw [List.takeWhile_append_of_pos hds, List.dropWhile_append_of_pos hds, hstop.1, hstop.2,
    List.append_nil]
  exact ⟨rfl, rfl⟩

theorem scanDecimal_digits (h : Digits ds) (hrest : ∀ b ∈ rest.head?, isDigit b = false) :
    scanDecimal (ds ++ rest) = some (clampInt (digitsValue ds), rest) := by
  obtain ⟨htake, hdrop⟩ := takeWhile_digits h.2 hrest
  obtain ⟨hminus, hsign⟩ := h.no_sign rest
  rw [scanDecimal, h.no_space, hsign, htake, hdrop, if_neg h.1]
  dsimp only
  rw [if_neg hminus]

theorem lower_digit {c : UInt8} (h : isDigit c = true) : lower c = c := by
  simp only [isDigit, Bool.and_eq_true, decide_eq_true_eq, UInt8.le_iff_toNat_le] at h
  rw [lower, if_neg]
  rw [UInt8.le_iff_toNat_le]
  have hhigh : (57 : UInt8).toNat = 57 := rfl
  have hletter : (65 : UInt8).toNat = 65 := rfl
  omega

theorem sharedLetters_digits (h : Digits ds) (rest : Bytes) :
    sharedLetters (ascii "infinity") (ds ++ 46 :: rest) = 0 ∧
      sharedLetters (ascii "nan") (ds ++ 46 :: rest) = 0 ∧
        sharedLetters (ascii "0x") (ds ++ 46 :: rest) ≠ 2 := by
  have hdigit {c w : UInt8} (hc : isDigit c = true) (hw : isDigit w = false) : lower c ≠ w := by
    rw [lower_digit hc]
    rintro rfl
    rw [hc] at hw
    cases hw
  obtain ⟨hne, hall⟩ := h
  match ds with
  | [] => exact absurd rfl hne
  | [b] =>
    have hb := hall b List.mem_cons_self
    refine ⟨if_neg (hdigit hb rfl), if_neg (hdigit hb rfl), ?_⟩
    have hpoint : sharedLetters [120] (46 :: rest) = 0 := rfl
    change (if lower b = 48 then sharedLetters [120] (46 :: rest) + 1 else 0) ≠ 2
    rw [hpoint]
    split_ifs <;> decide
  | b :: c :: ds =>
    have hb := hall b List.mem_cons_self
    have hc := hall c (List.mem_cons_of_mem _ List.mem_cons_self)
    refine ⟨if_neg (hdigit hb rfl), if_neg (hdigit hb rfl), ?_⟩
    have hnext : sharedLetters [120] (c :: (ds ++ 46 :: rest)) = 0 := if_neg (hdigit hc rfl)
    change (if lower b = 48 then sharedLetters [120] (c :: (ds ++ 46 :: rest)) + 1 else 0) ≠ 2
    rw [hnext]
    split_ifs <;> decide

theorem scanFloat_digits {whole frac : Bytes} (hwhole : Digits whole) (hfrac : ∀ b ∈ frac, isDigit b = true)
    (rest : Bytes) : scanFloat (whole ++ 46 :: (frac ++ 44 :: rest)) = some (44 :: rest) := by
  have hstop {c : UInt8} (hc : isDigit c = false) (t : Bytes) :
      ∀ b ∈ (c :: t : Bytes).head?, isDigit b = false := by
    rintro b ⟨⟩
    exact hc
  obtain ⟨htake, hdrop⟩ := takeWhile_digits hwhole.2 (hstop (c := 46) rfl (frac ++ 44 :: rest))
  obtain ⟨-, hdrop'⟩ := takeWhile_digits hfrac (hstop (c := 44) rfl rest)
  obtain ⟨hinf, hnan, hhex⟩ := sharedLetters_digits hwhole (frac ++ 44 :: rest)
  rw [scanFloat, hwhole.no_space, (hwhole.no_sign _).2, hinf, hnan]
  dsimp only
  rw [if_neg hhex, scanFraction, hdrop, htake]
  simp only [List.head?_cons, List.tail_cons, hdrop', ↓reduceIte, hwhole.1, false_and]
  exact if_neg (by decide)

theorem scanItems_digits (h : Digits ds) (hrest : ∀ b ∈ rest.head?, isDigit b = false)
    (store : ℤ → NmeaZda → NmeaZda) (stores : List (ℤ → NmeaZda → NmeaZda)) (zda : NmeaZda) :
    scanItems (store :: stores) (44 :: (ds ++ rest)) zda =
      ((scanItems stores rest (store (clampInt (digitsValue ds)) zda)).1 + 1,
        (scanItems stores rest (store (clampInt (digitsValue ds)) zda)).2) := by
  rw [scanItems, List.head?_cons, if_pos rfl, List.tail_cons, scanDecimal_digits h hrest]

structure ZdaSentence where
  hour : Bytes
  fraction : Bytes
  day : Bytes
  month : Bytes
  year : Bytes
  zoneHours : Bytes
  zoneMins : Bytes
  hour_digits : Digits hour
  fraction_digits : ∀ b ∈ fraction, isDigit b = true
  items_digits : ∀ ds ∈ [day, month, year, zoneHours, zoneMins], Digits ds

namespace ZdaSentence

def text (s : ZdaSentence) : Bytes :=
  ascii "$GPZDA," ++ (s.hour ++ 46 :: (s.fraction ++ 44 :: (s.day ++ 44 :: (s.month ++
    44 :: (s.year ++ 44 :: (s.zoneHours ++ 44 :: (s.zoneMins ++ [42])))))))

def stored (s : ZdaSentence) : NmeaZda where
  valid := 1
  day := clampInt (digitsValue s.day)
  month := clampInt (digitsValue s.month)
  year := clampInt (digitsValue s.year)
  tzAdjHours := clampInt (digitsValue s.zoneHours)
  tzAdjMins := clampInt (digitsValue s.zoneMins)

theorem text_plain (s : ZdaSentence) : ∀ b ∈ s.text, b ≠ 0 := by
  have hdigits {ds : Bytes} (h : ∀ b ∈ ds, isDigit b = true) : ∀ b ∈ ds, b ≠ 0 := by
    rintro b hb rfl
    exact absurd (h 0 hb) (by decide)
  have hitems := s.items_digits
  simp only [List.forall_mem_cons] at hitems
  obtain ⟨hday, hmonth, hyear, hhours, hmins, -⟩ := hitems
  simp only [text, List.forall_mem_append, List.forall_mem_cons]
  refine ⟨no_nul_of_all rfl, hdigits s.hour_digits.2, by decide, hdigits s.fraction_digits, by decide,
    hdigits hday.2, by decide, hdigits hmonth.2, by decide, hdigits hyear.2, by decide,
    hdigits hhours.2, by decide, hdigits hmins.2, by decide, by simp⟩

theorem nmeaToZda_text (s : ZdaSentence) (rest : Bytes) (zda : NmeaZda) :
    nmeaToZda (s.text ++ rest) zda = (0, s.stored) := by
  have hitems := s.items_digits
  simp only [List.forall_mem_cons] at hitems
  obtain ⟨hday, hmonth, hyear, hhours, hmins, -⟩ := hitems
  have hends {c : UInt8} (hc : isDigit c = false) (t : Bytes) :
      ∀ b ∈ (c :: t : Bytes).head?, isDigit b = false := by
    rintro b ⟨⟩
    exact hc
  have hcstr : cstr (s.text ++ rest) = ascii "$GPZDA," ++ (s.hour ++ 46 :: (s.fraction ++ 44 :: (s.day ++
      44 :: (s.month ++ 44 :: (s.year ++ 44 :: (s.zoneHours ++ 44 :: (s.zoneMins ++
        42 :: cstr rest))))))) := by
    rw [cstr_append s.text_plain, text]
    simp
  have hdrop (t : Bytes) : (ascii "$GPZDA," ++ t).drop 7 = t := rfl
  have hscan : scanZda (s.text ++ rest) zda = (6, { s.stored with valid := zda.valid }) := by
    rw [scanZda, hcstr, if_pos (List.isPrefixOf_iff_prefix.mpr (List.prefix_append _ _)),
      hdrop, scanFloat_digits s.hour_digits s.fraction_digits, zdaStores]
    dsimp only
    rw [scanItems_digits hday (hends rfl _), scanItems_digits hmonth (hends rfl _),
      scanItems_digits hyear (hends rfl _), scanItems_digits hhours (hends rfl _),
      scanItems_digits hmins (hends rfl _)]
    rfl
  rw [nmeaToZda, hscan]
  rfl

end ZdaSentence

theorem zdaDate_never (str : Bytes) (zda : NmeaZda) (h : (nmeaToZda str zda).1 = 0) :
    ¬ DateRight (nmeaToZda str zda).2 := by
  apply not_dateRight
  rw [nmeaToZda_valid h]
  decide

def zdaSample : ZdaSentence where
  hour := ascii "123456"
  fraction := ascii "00"
  day := ascii "01"
  month := ascii "08"
  year := ascii "2008"
  zoneHours := ascii "00"
  zoneMins := ascii "00"
  hour_digits := digits_of_all rfl rfl
  fraction_digits := (digits_of_all rfl rfl).2
  items_digits := by
    simp only [List.forall_mem_cons]
    exact ⟨digits_of_all rfl rfl, digits_of_all rfl rfl, digits_of_all rfl rfl,
      digits_of_all rfl rfl, digits_of_all rfl rfl, List.forall_mem_nil _⟩

def blankZda : NmeaZda := ⟨0, 0, 0, 0, 0, 0⟩

theorem zdaDate_never_sample : ¬ DateRight (nmeaToZda zdaSample.text blankZda).2 := by
  apply zdaDate_never
  rw [← List.append_nil zdaSample.text, zdaSample.nmeaToZda_text]

/-- August is shown as September, and a December is read behind the array. -/
theorem zdaSample_shown :
    ((nmeaToZda zdaSample.text blankZda).1 = 0 ∧ ¬ DateRight (nmeaToZda zdaSample.text blankZda).2 ∧
      dateLine (nmeaToZda zdaSample.text blankZda).2 = some (ascii "       Date:  1-Sep-2008\n")) ∧
        (nmeaToZda (ascii "$GPZDA,1.0,31,12,2008,00,00*") blankZda).1 = 0 ∧
          dateLine (nmeaToZda (ascii "$GPZDA,1.0,31,12,2008,00,00*") blankZda).2 = none := by
  have hvalid : (nmeaToZda zdaSample.text blankZda).2.valid ≠ 0 := by decide +kernel
  refine ⟨⟨by decide +kernel, not_dateRight hvalid, by decide +kernel⟩, ?_⟩
  decide +kernel

end SystemTestSuite.Dm2
