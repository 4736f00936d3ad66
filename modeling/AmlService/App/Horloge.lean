import AmlService.App.Evenements

/-!
# AmlService.App.Horloge

The clock of the AML (`app/handlers.c`). It cannot be read back: it is known because
the service sets it, as an offset from the system clock, and only in `auto` mode,
where the buttons of the AML do not change it.
-/

namespace AmlService

open Effect Text

abbrev clockResyncMs : Int := 24 * 3600 * 1000
abbrev clockRetryMs : Int := 10 * 60 * 1000

/-- `time(NULL)` -/
def heureSysteme (s : Service) : Int × Service :=
  let (t, world) := s.world.time
  (t, { s with world })

/-- An offset of a second comes from rounding. -/
def arrondir (offset : Int) : Int := if -1 ≤ offset ∧ offset ≤ 1 then 0 else offset

/-- `noter_heure`: the AML has just been set to `tm`. -/
def noterHeure (tm : Tm) (s : Service) : Service :=
  let target := (s.world.zone.mktime { tm with isdst := -1 }).1
  let (t, s) := heureSysteme s
  let offset := arrondir (target - t)
  let (now, s) := maintenant s
  { s with
    clockSet := true
    clockOffsetS := offset
    clockSyncedMs := now
    world := s.world.log (.clockNoted offset now) }

/-- `horloge_aml`: the time on the AML, if it is known. -/
def horlogeAml (s : Service) : Option Int × Service :=
  if !s.clockSet || !s.state.known || s.state.time != 0 then (none, s)
  else
    let (t, s) := heureSysteme s
    (some (t + s.clockOffsetS), s)

/-- `%+03d%02d` of an offset in seconds, as hours and minutes: `+02:00`. -/
def zoneText (gmtoff : Int) : String :=
  let minutes := gmtoff.natAbs / 60
  (if gmtoff < 0 then "-" else "+") ++ padded 2 (minutes / 60) ++ ":" ++ padded 2 (minutes % 60)

/-- `format_iso` -/
def formatIso (zone : Zone) (t : Int) : String :=
  let tm := zone.localtime t
  toString (tm.year + 1900) ++ "-" ++ padded 2 (tm.mon + 1).toNat ++ "-" ++
    padded 2 tm.mday.toNat ++ "T" ++ padded 2 tm.hour.toNat ++ ":" ++ padded 2 tm.min.toNat ++
    ":" ++ padded 2 tm.sec.toNat ++ zoneText tm.gmtoff

/-! ### Reading a date -/

/-- Year, month, day, hour, minute and second, as the four formats of
`lire_date_heure` give them, tried in the order of the source. -/
def champsDateHeure (value : List Char) (today : Tm) : Option (Int × Int × Int × Int × Int × Int) :=
  let date := [Directive.int 4, .lit '-', .int 2, .lit '-', .int 2, .blank]
  match sscanf (date ++ [.int 2, .lit ':', .int 2, .lit ':', .int 2, .char]) value with
  | [y, mo, d, h, mi, s] => some (y, mo, d, h, mi, s)
  | _ =>
    match sscanf (date ++ [.int 2, .lit ':', .int 2, .char]) value with
    | [y, mo, d, h, mi] => some (y, mo, d, h, mi, 0)
    | _ =>
      let (y, mo, d) := (today.year + 1900, today.mon + 1, today.mday)
      match sscanf [.int 2, .lit ':', .int 2, .lit ':', .int 2, .char] value with
      | [h, mi, s] => some (y, mo, d, h, mi, s)
      | _ =>
        match sscanf [.int 2, .lit ':', .int 2, .char] value with
        | [h, mi] => some (y, mo, d, h, mi, 0)
        | _ => none

/-- `lire_date_heure` -/
def lireDateHeure (zone : Zone) (value : String) (now : Int) : Option Tm :=
  let tm := zone.localtime now
  match champsDateHeure value.toList tm with
  | none => none
  | some (y, mo, d, h, mi, s) =>
    if y < 2000 ∨ y > 2099 ∨ mo < 1 ∨ mo > 12 ∨ d < 1 ∨ d > 31 ∨
        h < 0 ∨ h > 23 ∨ mi < 0 ∨ mi > 59 ∨ s < 0 ∨ s > 59 then none
    else
      let (t, normalised) := zone.mktime
        { tm with
          year := y - 1900, mon := mo - 1, mday := d, hour := h, min := mi, sec := s, isdst := -1 }
      -- a date that does not exist is shifted by mktime
      if t = -1 ∨ normalised.mday ≠ d ∨ normalised.mon ≠ mo - 1 then none else some normalised

/-! ### The next alarm -/

/-- The loop of `prochaine_alarme`: day `k` and the `days` after it. -/
def prochaineAlarmeLoop (zone : Zone) (alarm : ControlAlarm) (amlNow : Int) (today : Tm) (k : Int) :
    Nat → Option Int
  | 0 => none
  | days + 1 =>
    let (t, candidate) := zone.mktime
      { today with
        mday := today.mday + k, hour := alarm.hour.toNat, min := alarm.minute.toNat, sec := 0
        isdst := -1 }
    if t = -1 ∨ t ≤ amlNow then prochaineAlarmeLoop zone alarm amlNow today (k + 1) days
    else if alarm.days.toNat % 128 = 0 ∨ alarm.days.toNat.testBit candidate.wday.toNat then
      some (t - amlNow)
    else prochaineAlarmeLoop zone alarm amlNow today (k + 1) days

/-- `prochaine_alarme`: the delay, in seconds. -/
def prochaineAlarme (alarm : ControlAlarm) (s : Service) : Option Int × Service :=
  if !alarm.enable then (none, s)
  else
    match horlogeAml s with
    | (none, s) => (none, s)
    | (some amlNow, s) =>
      (prochaineAlarmeLoop s.world.zone alarm amlNow (s.world.zone.localtime amlNow) 0 8, s)

/-- `format_delai` -/
def formatDelai (seconds : Int) : String :=
  let minutes := ((seconds + 59) / 60).toNat
  let days := minutes / (24 * 60)
  let rest := toString (minutes / 60 % 24) ++ " h " ++ padded 2 (minutes % 60) ++ " min"
  if days > 0 then toString days ++ " j " ++ rest else rest

/-- `alarme_json` -/
def alarmeJson (group : Command) (alarm : ControlAlarm) (s : Service) : JsonValue × Service :=
  let fields := [
    ("enable", JsonValue.bool alarm.enable),
    ("time", .str (padded 2 (alarm.hour.toNat % 24) ++ ":" ++ padded 2 (alarm.minute.toNat % 60))),
    ("days", .int alarm.days.toNat),
    ("snooze", choixJson group "Snooze" alarm.snooze),
    ("tone", choixJson group "Tone" alarm.tone),
    ("tone_volume", .int alarm.volume.toNat),
    ("sunrise", .bool alarm.sunriseEnable),
    ("sunrise_duration", .int alarm.sunriseMinutes.toNat),
    ("sunrise_brightness", .int alarm.sunriseBrightness.toNat)]
  match prochaineAlarme alarm s with
  | (none, s) => (.obj (fields ++ [("next", .null)]), s)
  | (some delayS, s) =>
    let (t, s) := heureSysteme s
    (.obj (fields ++ [
      ("next", .str (formatIso s.world.zone (t + delayS))),
      ("in_s", .int delayS),
      ("in", .str (formatDelai delayS))]), s)

/-! ### Keeping the clock on time -/

/-- The instant `entretenir_horloge` sets the AML to, at system time `t`. -/
def cibleHorloge (s : Service) (t : Int) : Int := t + (if s.clockSet then s.clockOffsetS else 0)

/-- `entretenir_horloge` has nothing to do at `nowMs`: an attempt has failed recently, or
the clock has been set recently. -/
def horlogeRecente (s : Service) (nowMs : Int) : Bool :=
  decide (nowMs < s.eventContext.nextAttemptMs) ||
    s.clockSet && decide (nowMs - s.clockSyncedMs < clockResyncMs)

/-- `entretenir_horloge` -/
def entretenirHorloge (nowMs : Int) (s : Service) : Service :=
  if !s.state.known || s.state.time != 0 then s
  else if horlogeRecente s nowMs then s
  else
    let (t, s) := heureSysteme s
    let tm := s.world.zone.localtime (cibleHorloge s t)
    match controlSyncTime tm s with
    | (.ok (), s) => noterHeure tm s
    | (.error _, s) => s.note fun e => { e with nextAttemptMs := nowMs + clockRetryMs }

end AmlService
