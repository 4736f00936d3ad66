import AmlService.App.Horloge

/-!
# AmlService.App.DateReading

The dates and times that `lire_date_heure` reads: four ways of writing them, tried by four
formats on the same text, and a date that has to exist between 2000 and 2099.
-/

namespace AmlService

open Calendar Text

/-! ### The four forms -/

/-- How a number is written in so many characters. -/
abbrev Ecriture := Nat → List Char → Int → Prop

/-- `HH:MM` or `HH:MM:SS` -/
def HeureEcrite (champ : Ecriture) (text : List Char) (h mi : Int) : Option Int → Prop
  | none => ∃ th tm, text = th ++ ':' :: tm ∧ champ 2 th h ∧ champ 2 tm mi
  | some s => ∃ th tm ts, text = th ++ ':' :: (tm ++ ':' :: ts) ∧ champ 2 th h ∧ champ 2 tm mi ∧ champ 2 ts s

/-- `AAAA-MM-JJ` -/
def DateEcrite (champ : Ecriture) (text : List Char) (y mo d : Int) : Prop :=
  ∃ ty tmo td, text = ty ++ '-' :: (tmo ++ '-' :: td) ∧ champ 4 ty y ∧ champ 2 tmo mo ∧ champ 2 td d

/-- A time, or a date and a time with `separe` between them. -/
def Ecrite (champ : Ecriture) (separe : List Char → Prop) (text : List Char) (h mi : Int) (s : Option Int) :
    Option (Int × Int × Int) → Prop
  | none => HeureEcrite champ text h mi s
  | some (y, mo, d) => ∃ date blancs heure, text = date ++ (blancs ++ heure) ∧ DateEcrite champ date y mo d ∧
      separe blancs ∧ HeureEcrite champ heure h mi s

/-- Exactly so many digits, and nothing else. -/
def Chiffres : Ecriture := fun width text n =>
  text.length = width ∧ (∀ c ∈ text, c.isDigit = true) ∧ n = digitsValue text

instance (width : Nat) (text : List Char) (n : Int) : Decidable (Chiffres width text n) :=
  decidable_of_iff (text.length = width ∧ text.all Char.isDigit = true ∧ n = digitsValue text) (by simp [Chiffres])

def Blancs (text : List Char) : Prop := ∀ c ∈ text, isSpace c = true

/-! ### What the formats accept -/

theorem sscanf_heure_secondes {s : List Char} {h mi sec : Int}
    (hs : sscanf [.int 2, .lit ':', .int 2, .lit ':', .int 2, .char] s = [h, mi, sec]) :
    HeureEcrite Field s h mi (some sec) := by
  obtain ⟨th, rest, rfl, hh, hs⟩ := sscanf_int_inv hs
  obtain ⟨rest, rfl, hs⟩ := sscanf_lit_inv hs
  obtain ⟨tm, rest, rfl, hm, hs⟩ := sscanf_int_inv hs
  obtain ⟨rest, rfl, hs⟩ := sscanf_lit_inv hs
  obtain ⟨ts, rest, rfl, hsec, hs⟩ := sscanf_int_inv hs
  obtain rfl := sscanf_char_nil hs
  exact ⟨th, tm, ts, by simp, hh, hm, hsec⟩

theorem sscanf_heure {s : List Char} {h mi : Int}
    (hs : sscanf [.int 2, .lit ':', .int 2, .char] s = [h, mi]) : HeureEcrite Field s h mi none := by
  obtain ⟨th, rest, rfl, hh, hs⟩ := sscanf_int_inv hs
  obtain ⟨rest, rfl, hs⟩ := sscanf_lit_inv hs
  obtain ⟨tm, rest, rfl, hm, hs⟩ := sscanf_int_inv hs
  obtain rfl := sscanf_char_nil hs
  exact ⟨th, tm, by simp, hh, hm⟩

/-- The pieces of the formats that read a date. -/
abbrev formatDate : List Directive := [.int 4, .lit '-', .int 2, .lit '-', .int 2, .blank]

theorem sscanf_date {format : List Directive} {s : List Char} {y mo d : Int} {values : List Int}
    (hs : sscanf (formatDate ++ format) s = y :: mo :: d :: values) :
    ∃ date blancs heure, s = date ++ (blancs ++ heure) ∧ DateEcrite Field date y mo d ∧ Blancs blancs ∧
      sscanf format heure = values := by
  obtain ⟨ty, rest, rfl, hy, hs⟩ := sscanf_int_inv hs
  obtain ⟨rest, rfl, hs⟩ := sscanf_lit_inv hs
  obtain ⟨tmo, rest, rfl, hmo, hs⟩ := sscanf_int_inv hs
  obtain ⟨rest, rfl, hs⟩ := sscanf_lit_inv hs
  obtain ⟨td, rest, rfl, hd, hs⟩ := sscanf_int_inv hs
  obtain ⟨blancs, hsplit, hblancs⟩ := skipSpaces_split rest
  refine ⟨ty ++ '-' :: (tmo ++ '-' :: td), blancs, skipSpaces rest, ?_, ⟨ty, tmo, td, rfl, hy, hmo, hd⟩, hblancs, hs⟩
  rw [← hsplit]
  simp

/-- **What is read is written** in one of the four forms, and what is not written comes from
today, or is zero. -/
theorem champsDateHeure_ecrite {value : List Char} {today : Tm} {y mo d h mi s : Int}
    (hs : champsDateHeure value today = some (y, mo, d, h, mi, s)) :
    ∃ date sec, Ecrite Field Blancs value h mi sec date ∧ s = sec.getD 0 ∧
      (y, mo, d) = date.getD (today.year + 1900, today.mon + 1, today.mday) := by
  unfold champsDateHeure at hs
  dsimp only at hs
  split at hs
  · next hread =>
    simp only [Option.some.injEq, Prod.mk.injEq] at hs
    obtain ⟨rfl, rfl, rfl, rfl, rfl, rfl⟩ := hs
    obtain ⟨date, blancs, heure, hsplit, hdate, hblancs, htime⟩ := sscanf_date hread
    exact ⟨some (_, _, _), some _, ⟨date, blancs, heure, hsplit, hdate, hblancs, sscanf_heure_secondes htime⟩,
      rfl, rfl⟩
  split at hs
  · next hread =>
    simp only [Option.some.injEq, Prod.mk.injEq] at hs
    obtain ⟨rfl, rfl, rfl, rfl, rfl, rfl⟩ := hs
    obtain ⟨date, blancs, heure, hsplit, hdate, hblancs, htime⟩ := sscanf_date hread
    exact ⟨some (_, _, _), none, ⟨date, blancs, heure, hsplit, hdate, hblancs, sscanf_heure htime⟩, rfl, rfl⟩
  split at hs
  · next hread =>
    simp only [Option.some.injEq, Prod.mk.injEq] at hs
    obtain ⟨rfl, rfl, rfl, rfl, rfl, rfl⟩ := hs
    exact ⟨none, some _, sscanf_heure_secondes hread, rfl, rfl⟩
  split at hs
  · next hread =>
    simp only [Option.some.injEq, Prod.mk.injEq] at hs
    obtain ⟨rfl, rfl, rfl, rfl, rfl, rfl⟩ := hs
    exact ⟨none, none, sscanf_heure hread, rfl, rfl⟩
  · cases hs

/-! ### Digits -/

namespace Chiffres

variable {width : Nat} {text rest : List Char} {n : Int} {format : List Directive}

theorem ne_nil (h : Chiffres width text n) (hpos : 0 < width) : text ≠ [] := by
  rintro rfl
  exact absurd h.1.symm (Nat.ne_of_gt hpos)

/-- A conversion of that width takes them all. -/
theorem sscanf (h : Chiffres width text n) (hpos : 0 < width) :
    Text.sscanf (.int width :: format) (text ++ rest) = n :: Text.sscanf format rest := by
  rw [h.2.2]
  exact sscanf_int_digits (h.ne_nil hpos) h.2.1 (Nat.le_of_eq h.1) (.inl h.1)

theorem sscanf_end (h : Chiffres width text n) (hpos : 0 < width) :
    Text.sscanf (.int width :: format) text = n :: Text.sscanf format [] := by
  have hread := @Chiffres.sscanf width text [] n format h hpos
  rwa [List.append_nil] at hread

theorem sscanf_blank (h : Chiffres width text n) (hpos : 0 < width) :
    Text.sscanf (.blank :: format) (' ' :: (text ++ rest)) = Text.sscanf format (text ++ rest) := by
  have hspace : skipSpaces (' ' :: (text ++ rest)) = skipSpaces (text ++ rest) := rfl
  rw [Text.sscanf, hspace, skipSpaces_digits (h.ne_nil hpos) h.2.1]

/-- A wider one stops at the colon after them. -/
theorem sscanf_wider (h : Chiffres width text n) (hpos : 0 < width) {wider : Nat} (hle : width ≤ wider) :
    Text.sscanf (.int wider :: format) (text ++ ':' :: rest) = n :: Text.sscanf format (':' :: rest) := by
  rw [h.2.2]
  exact sscanf_int_digits (h.ne_nil hpos) h.2.1 (h.1.symm ▸ hle) (.inr (by simp))

end Chiffres

/-- **A text strictly of one of the four forms** is read as it is written. -/
theorem champsDateHeure_stricte {value : List Char} {today : Tm} {h mi : Int} {sec : Option Int}
    {date : Option (Int × Int × Int)} (hs : Ecrite Chiffres (· = [' ']) value h mi sec date) :
    champsDateHeure value today =
      let (y, mo, d) := date.getD (today.year + 1900, today.mon + 1, today.mday)
      some (y, mo, d, h, mi, sec.getD 0) := by
  cases date with
  | none =>
    -- the formats with a date stop at the colon after two digits
    cases sec with
    | none =>
      obtain ⟨th, tm, rfl, hth, htm⟩ := hs
      simp [champsDateHeure, hth.sscanf_wider, htm.sscanf_end, sscanf_lit_ne]
    | some s =>
      obtain ⟨th, tm, ts, rfl, hth, htm, hts⟩ := hs
      simp [champsDateHeure, hth.sscanf_wider, htm.sscanf, hts.sscanf_end, sscanf_lit_ne]
  | some date =>
    obtain ⟨y, mo, d⟩ := date
    cases sec with
    | none =>
      obtain ⟨_, _, _, rfl, ⟨ty, tmo, td, rfl, hty, htmo, htd⟩, rfl, ⟨th, tm, rfl, hth, htm⟩⟩ := hs
      simp [champsDateHeure, hty.sscanf, htmo.sscanf, htd.sscanf, hth.sscanf_blank, hth.sscanf, htm.sscanf_end]
    | some s =>
      obtain ⟨_, _, _, rfl, ⟨ty, tmo, td, rfl, hty, htmo, htd⟩, rfl, ⟨th, tm, ts, rfl, hth, htm, hts⟩⟩ := hs
      simp [champsDateHeure, hty.sscanf, htmo.sscanf, htd.sscanf, hth.sscanf_blank, hth.sscanf, htm.sscanf,
        hts.sscanf_end]

/-! ### The date read -/

variable {offset now : Int} {value : String} {y mo d h mi s : Int}

/-- The date in the zone. -/
def aujourdhui (offset now : Int) : Int × Int × Int :=
  let today := (Zone.fixed offset).localtime now
  (today.year + 1900, today.mon + 1, today.mday)

theorem aujourdhui_exists (offset now : Int) :
    DateExists (aujourdhui offset now).1 ((aujourdhui offset now).2.1 - 1) (aujourdhui offset now).2.2 := by
  simpa [aujourdhui, Zone.fixed, localtimeAt] using civilOfDays_exists ((now + offset) / 86400)

/-- The ranges that are checked before `mktime`. -/
def Bornes (y h mi s : Int) : Prop :=
  (2000 ≤ y ∧ y ≤ 2099) ∧ (0 ≤ h ∧ h ≤ 23) ∧ (0 ≤ mi ∧ mi ≤ 59) ∧ (0 ≤ s ∧ s ≤ 59)

/-- The broken-down time of a date and a time of the day, in a zone. -/
def tmLu (offset y mo d h mi s : Int) : Tm where
  sec := s
  min := mi
  hour := h
  mday := d
  mon := mo - 1
  year := y - 1900
  wday := weekday y (mo - 1) d
  isdst := 0
  gmtoff := offset

/-- `mktime` moves the dates that do not exist, and no other. -/
theorem mktime_shift (hbornes : Bornes y h mi s) (hmonth : 1 ≤ mo ∧ mo ≤ 12) :
    let tm := localtimeAt offset (86400 * daysOfCivil y (mo - 1) d + 3600 * h + 60 * mi + s - offset)
    tm.mday = d ∧ tm.mon = mo - 1 ↔ DateExists y (mo - 1) d := by
  obtain ⟨-, hhour, hmin, hsec⟩ := hbornes
  have hday : (86400 * daysOfCivil y (mo - 1) d + 3600 * h + 60 * mi + s - offset + offset) / 86400 =
      daysOfCivil y (mo - 1) d := by omega
  rw [← dateExists_iff (by omega)]
  simp only [localtimeAt, hday, Prod.ext_iff]
  exact and_comm

/-- What is accepted is a date that exists, and it is read as it is. -/
theorem lireDateHeure_some {tm : Tm} (hread : lireDateHeure (Zone.fixed offset) value now = some tm) :
    ∃ y mo d h mi s, champsDateHeure value.toList (localtimeAt offset now) = some (y, mo, d, h, mi, s) ∧
      Bornes y h mi s ∧ DateExists y (mo - 1) d ∧ tm = tmLu offset y mo d h mi s := by
  unfold lireDateHeure at hread
  dsimp only at hread
  split at hread
  · cases hread
  next y mo d h mi s hfields =>
  split at hread
  · cases hread
  next hrange =>
  have hbornes : Bornes y h mi s := by unfold Bornes; omega
  split at hread
  · cases hread
  next hshift =>
  simp only [Zone.fixed, instantAt, Int.sub_add_cancel, not_or, not_not] at hshift hread
  have hdate : DateExists y (mo - 1) d := (mktime_shift hbornes (by omega)).mp hshift.2
  refine ⟨y, mo, d, h, mi, s, hfields, hbornes, hdate, ?_⟩
  rw [localtimeAt_civil offset hdate hbornes.2.1 hbornes.2.2.1 hbornes.2.2.2] at hread
  exact (Option.some.inj hread).symm

/-- A date that exists is accepted. -/
theorem lireDateHeure_accepte (hoffset : offset ≤ 946684800)
    (hfields : champsDateHeure value.toList (localtimeAt offset now) = some (y, mo, d, h, mi, s))
    (hbornes : Bornes y h mi s) (hdate : DateExists y (mo - 1) d) :
    lireDateHeure (Zone.fixed offset) value now = some (tmLu offset y mo d h mi s) := by
  have hshift := (@mktime_shift offset _ mo d _ _ _ hbornes (by unfold DateExists at hdate; omega)).mpr hdate
  have hlast := (daysInMonth_pos y (mo - 1)).2
  -- 2000 is long after the Epoch
  have hepoch : 10957 ≤ daysOfCivil y (mo - 1) d := hdate.year_le hbornes.1.1
  obtain ⟨hyear, hhour, hmin, hsec⟩ := hbornes
  obtain ⟨hm0, hm11, hd1, hdl⟩ := hdate
  unfold lireDateHeure
  dsimp only
  rw [show (Zone.fixed offset).localtime now = localtimeAt offset now from rfl, hfields]
  dsimp only
  rw [if_neg (by omega)]
  simp only [Zone.fixed, instantAt, Int.sub_add_cancel]
  rw [if_neg]
  · rw [localtimeAt_civil offset ⟨hm0, hm11, hd1, hdl⟩ hhour hmin hsec]
    rfl
  · rintro (hepoch' | hday | hmonth)
    · omega
    · exact hday hshift.1
    · exact hmonth hshift.2

/-- **What is read as a date and a time** is one of the four forms, up to the blanks, the signs
and the missing digits that `sscanf` allows: the fields written are those of the result, a
missing date is that of the day and missing seconds are 0, and the date exists, between 2000
and 2099, with its day of the week. Conversely, between those years, whatever is strictly of
one of the forms is accepted. (Thirty years, or 946684800 seconds, are more than any offset.) -/
theorem lireDateHeure_formes (offset now : Int) (value : String) :
    (∀ tm, lireDateHeure (Zone.fixed offset) value now = some tm →
      ∃ h mi sec date, Ecrite Field Blancs value.toList h mi sec date ∧
        tm.hour = h ∧ tm.min = mi ∧ tm.sec = sec.getD 0 ∧
        (tm.year + 1900, tm.mon + 1, tm.mday) = date.getD (aujourdhui offset now) ∧
        DateExists (tm.year + 1900) tm.mon tm.mday ∧ Bornes (tm.year + 1900) tm.hour tm.min tm.sec ∧
        tm.wday = weekday (tm.year + 1900) tm.mon tm.mday) ∧
    (offset ≤ 946684800 → 2000 ≤ (aujourdhui offset now).1 → (aujourdhui offset now).1 ≤ 2099 →
      ∀ h mi sec date, Ecrite Chiffres (· = [' ']) value.toList h mi sec date →
        (0 ≤ h ∧ h ≤ 23) → (0 ≤ mi ∧ mi ≤ 59) → (0 ≤ sec.getD 0 ∧ sec.getD 0 ≤ 59) →
        (∀ y mo d, date = some (y, mo, d) → 2000 ≤ y ∧ y ≤ 2099 ∧ DateExists y (mo - 1) d) →
        ∃ tm, lireDateHeure (Zone.fixed offset) value now = some tm) := by
  constructor
  · intro tm hread
    obtain ⟨y, mo, d, h, mi, s, hfields, hbornes, hdate, rfl⟩ := lireDateHeure_some hread
    obtain ⟨date, sec, hecrite, hs, hdefault⟩ := champsDateHeure_ecrite hfields
    simp only [tmLu, Int.sub_add_cancel, and_true]
    exact ⟨h, mi, sec, date, hecrite, rfl, rfl, hs, hdefault, hdate, hbornes⟩
  · intro hoffset hfrom hto h mi sec date hecrite hhour hmin hsec hdate
    have hfields := @champsDateHeure_stricte value.toList (localtimeAt offset now) h mi sec date hecrite
    cases date with
    | none =>
      exact ⟨_, lireDateHeure_accepte hoffset hfields ⟨⟨hfrom, hto⟩, hhour, hmin, hsec⟩ (aujourdhui_exists offset now)⟩
    | some date =>
      obtain ⟨y, mo, d⟩ := date
      obtain ⟨hyear, hyear', hexists⟩ := hdate y mo d rfl
      exact ⟨_, lireDateHeure_accepte hoffset hfields ⟨⟨hyear, hyear'⟩, hhour, hmin, hsec⟩ hexists⟩

/-- The 29th of February 2028 is a Tuesday. -/
theorem lireDateHeure_formes_bissextile :
    ∃ tm, lireDateHeure (Zone.fixed 7200) "2028-02-29 07:30" 1791781200 = some tm ∧ tm.wday = 2 := by
  obtain ⟨hread, haccept⟩ := lireDateHeure_formes 7200 1791781200 "2028-02-29 07:30"
  have hecrite : Ecrite Chiffres (· = [' ']) "2028-02-29 07:30".toList 7 30 none (some (2028, 2, 29)) :=
    ⟨"2028-02-29".toList, [' '], "07:30".toList, by decide,
      ⟨"2028".toList, "02".toList, "29".toList, by decide, by decide +kernel, by decide +kernel, by decide +kernel⟩,
      rfl, ⟨"07".toList, "30".toList, by decide, by decide +kernel, by decide +kernel⟩⟩
  obtain ⟨tm, htm⟩ := haccept (by decide) (by decide) (by decide) 7 30 none (some (2028, 2, 29)) hecrite (by decide)
    (by decide) (by decide) fun y mo d hdate => by
      cases hdate
      exact ⟨by decide, by decide, by unfold DateExists; decide⟩
  obtain ⟨h, mi, sec, date, -, -, -, -, -, -, -, hwday⟩ := hread tm htm
  have hexact : lireDateHeure (Zone.fixed 7200) "2028-02-29 07:30" 1791781200 = some (tmLu 7200 2028 2 29 7 30 0) := by
    decide +kernel
  rw [htm] at hexact
  obtain rfl := Option.some.inj hexact
  exact ⟨_, htm, hwday.trans (by decide +kernel)⟩

end AmlService
