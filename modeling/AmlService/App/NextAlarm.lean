import AmlService.App.Handlers
import Mathlib.Data.Nat.Find

/-!
# AmlService.App.NextAlarm

`prochaine_alarme` finds the next time an alarm rings by the clock of the AML, in a zone
at a fixed offset: the first instant after now when the clock shows the time of the alarm
on one of its days. `mktime` says -1 for an error, and so for the last second before the
Epoch, which is passed over.
-/

namespace AmlService

open Calendar Text

variable {offset : Int} {alarm : ControlAlarm} {amlNow t : Int}

/-! ### When an alarm rings -/

/-- A day of the week that the alarm rings on: any day if none is selected. -/
def JourCoche (alarm : ControlAlarm) (wday : Int) : Prop :=
  alarm.days.toNat % 128 = 0 ∨ alarm.days.toNat.testBit wday.toNat = true

instance (alarm : ControlAlarm) (wday : Int) : Decidable (JourCoche alarm wday) :=
  inferInstanceAs (Decidable (_ ∨ _))

/-- A clock at `t` shows the time of the alarm, on one of its days. -/
def Sonne (zone : Zone) (alarm : ControlAlarm) (t : Int) : Prop :=
  (zone.localtime t).hour = alarm.hour.toNat ∧ (zone.localtime t).min = alarm.minute.toNat ∧
    (zone.localtime t).sec = 0 ∧ JourCoche alarm (zone.localtime t).wday

/-- `t` is the first instant after `now` when the alarm rings. -/
def EstProchaine (zone : Zone) (alarm : ControlAlarm) (now t : Int) : Prop :=
  now < t ∧ Sonne zone alarm t ∧ ∀ u, now < u → u < t → ¬ Sonne zone alarm u

/-- The time of the alarm on day `n`. -/
def instantAlarme (offset : Int) (alarm : ControlAlarm) (n : Int) : Int :=
  86400 * n + 3600 * alarm.hour.toNat + 60 * alarm.minute.toNat - offset

theorem sonne_iff (hhour : alarm.hour.toNat ≤ 23) (hmin : alarm.minute.toNat ≤ 59) :
    Sonne (Zone.fixed offset) alarm t ↔
      ∃ n, t = instantAlarme offset alarm n ∧ JourCoche alarm ((n + 4) % 7) := by
  have htime : (localtimeAt offset t).hour = alarm.hour.toNat ∧
      (localtimeAt offset t).min = alarm.minute.toNat ∧ (localtimeAt offset t).sec = 0 ↔
        (t + offset) % 86400 = 3600 * (alarm.hour.toNat : Int) + 60 * alarm.minute.toNat + 0 :=
    localtimeAt_time (by omega) (by omega)
  unfold Sonne instantAlarme
  constructor
  · rintro ⟨hh, hm, hs, hday⟩
    have hclock := htime.mp ⟨hh, hm, hs⟩
    exact ⟨(t + offset) / 86400, by omega, hday⟩
  · rintro ⟨n, ht, hday⟩
    have hn : (t + offset) / 86400 = n := by omega
    obtain ⟨hh, hm, hs⟩ := htime.mpr (by omega)
    refine ⟨hh, hm, hs, ?_⟩
    show JourCoche alarm (((t + offset) / 86400 + 4) % 7)
    rw [hn]
    exact hday

/-! ### The search -/

/-- The day it is on the clock. -/
def jourAml (offset amlNow : Int) : Int := (amlNow + offset) / 86400

/-- What the search wants of the `k`-th day from today: the alarm is still to come then, on
one of its days. -/
def Retenu (offset : Int) (alarm : ControlAlarm) (amlNow : Int) (k : Nat) : Prop :=
  amlNow < instantAlarme offset alarm (jourAml offset amlNow + k) ∧
    JourCoche alarm ((jourAml offset amlNow + k + 4) % 7)

instance (k : Nat) : Decidable (Retenu offset alarm amlNow k) := inferInstanceAs (Decidable (_ ∧ _))

/-- One day of the search. -/
theorem prochaineAlarmeLoop_day (hhour : alarm.hour.toNat ≤ 23) (hmin : alarm.minute.toNat ≤ 59) (k days : Nat) :
    prochaineAlarmeLoop (Zone.fixed offset) alarm amlNow (localtimeAt offset amlNow) k (days + 1) =
      if Retenu offset alarm amlNow k ∧ instantAlarme offset alarm (jourAml offset amlNow + k) ≠ -1 then
        some (instantAlarme offset alarm (jourAml offset amlNow + k) - amlNow)
      else prochaineAlarmeLoop (Zone.fixed offset) alarm amlNow (localtimeAt offset amlNow) (k + 1 : Nat) days := by
  have hinstant := instantAt_day offset amlNow k alarm.hour.toNat alarm.minute.toNat 0 (-1)
  have hcandidate : instantAt offset
      { localtimeAt offset amlNow with
        mday := (localtimeAt offset amlNow).mday + k, hour := alarm.hour.toNat, min := alarm.minute.toNat
        sec := 0, isdst := -1 } = instantAlarme offset alarm (jourAml offset amlNow + k) := by
    rw [hinstant, instantAlarme, jourAml]
    omega
  have hwday : (localtimeAt offset (instantAlarme offset alarm (jourAml offset amlNow + k))).wday =
      (jourAml offset amlNow + k + 4) % 7 := by
    show ((instantAlarme offset alarm (jourAml offset amlNow + k) + offset) / 86400 + 4) % 7 = _
    unfold instantAlarme
    omega
  rw [prochaineAlarmeLoop]
  simp only [Zone.fixed, hcandidate, hwday]
  unfold Retenu JourCoche
  push_cast
  by_cases hlater : amlNow < instantAlarme offset alarm (jourAml offset amlNow + k)
  · by_cases hepoch : instantAlarme offset alarm (jourAml offset amlNow + k) = -1
    · simp [hepoch]
    · simp [hepoch, hlater, Int.not_le.mpr hlater]
  · simp [hlater, Int.not_lt.mp hlater]

/-- **The search** gives the first day it wants, if the instant there is not -1. -/
theorem prochaineAlarmeLoop_first (hhour : alarm.hour.toNat ≤ 23) (hmin : alarm.minute.toNat ≤ 59) {n k days : Nat}
    (hn : n < days) (hfirst : Retenu offset alarm amlNow (k + n))
    (hepoch : instantAlarme offset alarm (jourAml offset amlNow + (k + n : Nat)) ≠ -1)
    (hbefore : ∀ i < n, ¬ Retenu offset alarm amlNow (k + i)) :
    prochaineAlarmeLoop (Zone.fixed offset) alarm amlNow (localtimeAt offset amlNow) k days =
      some (instantAlarme offset alarm (jourAml offset amlNow + (k + n : Nat)) - amlNow) := by
  induction n generalizing k days with
  | zero =>
    obtain ⟨days, rfl⟩ : ∃ d, days = d + 1 := ⟨days - 1, by omega⟩
    rw [prochaineAlarmeLoop_day hhour hmin]
    exact if_pos ⟨hfirst, hepoch⟩
  | succ n ih =>
    obtain ⟨days, rfl⟩ : ∃ d, days = d + 1 := ⟨days - 1, by omega⟩
    have hskip : ¬ Retenu offset alarm amlNow k := hbefore 0 (by omega)
    have hshift : k + 1 + n = k + (n + 1) := by omega
    rw [prochaineAlarmeLoop_day hhour hmin, if_neg fun h => hskip h.1]
    rw [ih (k := k + 1) (by omega) (hshift ▸ hfirst) (hshift ▸ hepoch) fun i hi => ?_, hshift]
    have hshift' : k + 1 + i = k + (i + 1) := by omega
    rw [hshift']
    exact hbefore (i + 1) (by omega)

/-! ### There is a day, within a week -/

/-- Some day of any seven is one that the alarm rings on. -/
theorem jourCoche_week (alarm : ControlAlarm) (d : Int) : ∃ k : Nat, k < 7 ∧ JourCoche alarm ((d + k) % 7) := by
  by_cases hany : alarm.days.toNat % 128 = 0
  · exact ⟨0, by omega, .inl hany⟩
  · have hbit : ∃ b < 7, alarm.days.toNat.testBit b = true := by
      by_contra hnone
      simp only [not_exists, not_and, Bool.not_eq_true] at hnone
      refine hany (Nat.eq_of_testBit_eq fun b => ?_)
      rw [Nat.zero_testBit, Nat.testBit_mod_two_pow (j := 7)]
      by_cases hb : b < 7
      · simp [hnone b hb]
      · simp [hb]
    obtain ⟨b, hb, hset⟩ := hbit
    refine ⟨((b - d) % 7).toNat, by omega, .inr ?_⟩
    have hday : ((d + ((b - d) % 7).toNat) % 7).toNat = b := by omega
    rw [hday]
    exact hset

/-- The search finds a day, at most a week ahead, and nothing rings before. -/
theorem prochaine_exists (offset amlNow : Int) (hhour : alarm.hour.toNat ≤ 23) (hmin : alarm.minute.toNat ≤ 59) :
    ∃ n, n < 8 ∧ Retenu offset alarm amlNow n ∧ (∀ i < n, ¬ Retenu offset alarm amlNow i) ∧
      EstProchaine (Zone.fixed offset) alarm amlNow (instantAlarme offset alarm (jourAml offset amlNow + n)) ∧
      instantAlarme offset alarm (jourAml offset amlNow + n) - amlNow ≤ 604800 := by
  have hsome : ∃ n, n < 8 ∧ Retenu offset alarm amlNow n := by
    obtain ⟨k, hk, hday⟩ := jourCoche_week alarm (jourAml offset amlNow + 1 + 4)
    refine ⟨k + 1, by omega, ?_, ?_⟩
    · unfold instantAlarme jourAml
      omega
    · have hsame : jourAml offset amlNow + (k + 1 : Nat) + 4 = jourAml offset amlNow + 1 + 4 + k := by omega
      rw [hsame]
      exact hday
  obtain ⟨hn, hfirst⟩ := Nat.find_spec hsome
  have hbefore : ∀ i < Nat.find hsome, ¬ Retenu offset alarm amlNow i := by
    intro i hi hretenu
    exact Nat.find_min hsome hi ⟨by omega, hretenu⟩
  generalize Nat.find hsome = n at hn hfirst hbefore
  refine ⟨n, hn, hfirst, hbefore, ⟨hfirst.1, (sonne_iff hhour hmin).mpr ⟨_, rfl, hfirst.2⟩, ?_⟩, ?_⟩
  · intro u hnow hlt hrings
    obtain ⟨m, rfl, hday⟩ := (sonne_iff hhour hmin).mp hrings
    -- a day from today on, before the one found
    have hm : 0 ≤ m - jourAml offset amlNow := by
      unfold instantAlarme at hnow
      unfold jourAml
      omega
    obtain ⟨i, hi⟩ := Int.eq_ofNat_of_zero_le hm
    obtain rfl : m = jourAml offset amlNow + i := by omega
    refine hbefore i ?_ ⟨hnow, hday⟩
    unfold instantAlarme at hlt
    omega
  · by_cases hweek : n = 7
    · subst hweek
      -- the day found is today's, a week ahead: today the time has passed
      have hsame : (jourAml offset amlNow + (7 : Nat) + 4) % 7 = (jourAml offset amlNow + (0 : Nat) + 4) % 7 := by omega
      have hpast : ¬ amlNow < instantAlarme offset alarm (jourAml offset amlNow + (0 : Nat)) := fun hnow =>
        hbefore 0 (by omega) ⟨hnow, hsame ▸ hfirst.2⟩
      unfold instantAlarme at hpast ⊢
      omega
    · unfold instantAlarme jourAml
      omega

/-! ### The delay as it is told -/

/-- Days, hours and minutes that tell `seconds` rounded up to the minute. -/
theorem formatDelai_denote {seconds : Int} (h : 0 < seconds) :
    ∃ days hours minutes : Nat, hours < 24 ∧ minutes < 60 ∧
      formatDelai seconds = (if 0 < days then toString days ++ " j " else "") ++
        toString hours ++ " h " ++ padded 2 minutes ++ " min" ∧
      seconds ≤ 60 * (1440 * days + 60 * hours + minutes : Nat) ∧
      60 * (1440 * days + 60 * hours + minutes : Nat) < seconds + 60 := by
  let total := ((seconds + 59) / 60).toNat
  refine ⟨total / 1440, total / 60 % 24, total % 60, by omega, by omega, ?_, by omega, by omega⟩
  unfold formatDelai
  dsimp only
  split <;> simp [total, String.append_assoc, *]

/-- **The next alarm.** In a zone at a fixed offset, an alarm that is on rings at most a week
ahead by the clock of the AML: `prochaine_alarme` gives the delay to the first instant when
it does, unless that instant is the one that `mktime` uses for errors; and the delay is told
rounded up to the minute. -/
theorem prochaineAlarme_juste {s s' : Service} (hzone : s.world.zone = Zone.fixed offset)
    (hknown : horlogeAml s = (some amlNow, s')) (henable : alarm.enable = true)
    (hhour : alarm.hour.toNat ≤ 23) (hmin : alarm.minute.toNat ≤ 59)
    (hepoch : ¬ EstProchaine (Zone.fixed offset) alarm amlNow (-1)) :
    ∃ delay, prochaineAlarme alarm s = (some delay, s') ∧ 0 < delay ∧ delay ≤ 604800 ∧
      EstProchaine (Zone.fixed offset) alarm amlNow (amlNow + delay) ∧
      ∃ days hours minutes : Nat, hours < 24 ∧ minutes < 60 ∧
        formatDelai delay = (if 0 < days then toString days ++ " j " else "") ++
          toString hours ++ " h " ++ padded 2 minutes ++ " min" ∧
        delay ≤ 60 * (1440 * days + 60 * hours + minutes : Nat) ∧
        60 * (1440 * days + 60 * hours + minutes : Nat) < delay + 60 := by
  obtain ⟨n, hn, hfirst, hbefore, hnext, hweek⟩ := prochaine_exists offset amlNow hhour hmin
  have hzone' : s'.world.zone = Zone.fixed offset := by
    rw [← hzone]
    unfold horlogeAml at hknown
    split at hknown <;> cases hknown
    rfl
  have hfound : prochaineAlarmeLoop (Zone.fixed offset) alarm amlNow (localtimeAt offset amlNow) (0 : Nat) 8 =
      some (instantAlarme offset alarm (jourAml offset amlNow + n) - amlNow) := by
    have hzero : 0 + n = n := Nat.zero_add n
    have hsearch := prochaineAlarmeLoop_first hhour hmin hn (hzero.symm ▸ hfirst)
      (fun heq => hepoch (by rw [hzero] at heq; exact heq ▸ hnext)) fun i hi => by
        rw [Nat.zero_add]
        exact hbefore i hi
    rwa [hzero] at hsearch
  refine ⟨instantAlarme offset alarm (jourAml offset amlNow + n) - amlNow, ?_, by have := hnext.1; omega, hweek, ?_,
    formatDelai_denote (by have := hnext.1; omega)⟩
  · rw [prochaineAlarme, henable, hknown]
    show (prochaineAlarmeLoop s'.world.zone alarm amlNow (s'.world.zone.localtime amlNow) 0 8, s') = _
    rw [hzone']
    exact congrArg (·, s') hfound
  · rw [Int.add_comm, Int.sub_add_cancel]
    exact hnext

/-- A service that has set the clock of the AML, at system time `t`. -/
def serviceRegle (zone : Zone) (t : Int) : Service :=
  { serviceInit amlScripted { World.scripted [] with zone, wall := fun _ => t } with
    clockSet := true, state := stateUpdateSettings 0 0 0 0 0 }

/-- An alarm on Mondays at 7:00, on a Monday at 7:00:00: a week. -/
theorem prochaineAlarme_juste_semaine :
    let alarm := { decodeAlarm [] with enable := true, hour := 7, days := 2 }
    let zone := Zone.fixed 7200
    (prochaineAlarme alarm (serviceRegle zone 1791781200)).1 = some 604800 ∧
      EstProchaine zone alarm 1791781200 (1791781200 + 604800) := by
  intro alarm zone
  obtain ⟨delay, hdelay, -, -, hnext, -⟩ := @prochaineAlarme_juste 7200 alarm 1791781200
    (serviceRegle zone 1791781200) _ rfl rfl rfl (by decide) (by decide) fun h => absurd h.1 (by decide)
  have hweek : (prochaineAlarme alarm (serviceRegle zone 1791781200)).1 = some 604800 := by decide +kernel
  rw [hdelay] at hweek
  obtain rfl : delay = 604800 := Option.some.inj hweek
  exact ⟨by rw [hdelay], hnext⟩

/-- In a zone one second off, the last second before the Epoch is midnight: an alarm then is
passed over, and the delay given is that of the next day. -/
theorem prochaineAlarme_epoque :
    let alarm := { decodeAlarm [] with enable := true }
    let s := serviceRegle (Zone.fixed 1) (-100)
    (horlogeAml s).1 = some (-100) ∧ Sonne (Zone.fixed 1) alarm (-1) ∧
      (prochaineAlarme alarm s).1 = some 86499 ∧
      ¬ EstProchaine (Zone.fixed 1) alarm (-100) (-100 + 86499) := by
  have hrings : Sonne (Zone.fixed 1) { decodeAlarm [] with enable := true } (-1) := by
    refine ⟨?_, ?_, ?_, ?_⟩ <;> decide +kernel
  refine ⟨by decide +kernel, hrings, by decide +kernel, fun h => ?_⟩
  exact h.2.2 (-1) (by decide) (by decide) hrings

end AmlService
