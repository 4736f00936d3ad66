import AmlService.App.AlarmEdits
import AmlService.Lib.CachedRecord
import AmlService.Mqtt.Bridge
import Mathlib.Data.Nat.Bitwise

/-!
# AmlService.Mqtt.DaySwitches

The day switches of one alarm (`day_switch`). A message for one day sends all seven of
them, taken from the group `Alarm` as it was read last: the days are a record written whole,
from a copy. The loop of the bridge reads the copy again a second after the last message,
and at each poll; a day changed in between is lost.
-/

namespace AmlService

open Effect Answering

/-! ### The mask -/

/-- The days of a mask; day 0 is Sunday. -/
def bits (mask : Int) : Fin 7 → Bool := fun day => mask.testBit day

/-- A mask with one day changed, as `set_` computes it. -/
def switched (mask : Int) (day : Fin 7) (on : Bool) : Int :=
  if on then mask.lor (1 <<< day.val : Nat) else mask.land (Int.lnot (1 <<< day.val : Nat))

theorem testBit_mask (bit i : Nat) : Int.testBit ((1 <<< bit : Nat) : Int) i = decide (bit = i) := by
  show Nat.testBit (1 <<< bit) i = _
  rw [Nat.one_shiftLeft, Nat.testBit_two_pow]

/-- **One day changes**, the others do not. -/
theorem bits_switched (mask : Int) (day : Fin 7) (on : Bool) :
    bits (switched mask day on) = Function.update (bits mask) day on := by
  funext i
  have hday : day.val = i.val ↔ i = day := by rw [Fin.val_inj, eq_comm]
  unfold bits switched
  rw [Function.update_apply]
  cases on with
  | true =>
    rw [if_pos rfl, Int.testBit_lor, testBit_mask]
    by_cases h : i = day <;> simp [hday, h]
  | false =>
    rw [if_neg Bool.false_ne_true, Int.testBit_land, Int.testBit_lnot, testBit_mask]
    by_cases h : i = day <;> simp [hday, h]

/-- The mask keeps to its seven bits. -/
theorem switched_range {mask : Int} (h : 0 ≤ mask ∧ mask < 128) (day : Fin 7) (on : Bool) :
    0 ≤ switched mask day on ∧ switched mask day on < 128 := by
  obtain ⟨m, rfl⟩ := Int.eq_ofNat_of_zero_le h.1
  have hm : m < 2 ^ 7 := by omega
  unfold switched
  cases on with
  | true =>
    have hbit : 1 <<< day.val < 2 ^ 7 := by
      rw [Nat.one_shiftLeft]
      exact Nat.pow_lt_pow_right (by decide) day.isLt
    exact ⟨Int.natCast_nonneg _, Int.ofNat_lt.mpr (Nat.or_lt_two_pow hm hbit)⟩
  | false =>
    refine ⟨Int.natCast_nonneg _, Int.ofNat_lt.mpr (Nat.lt_pow_two_of_testBit (n := 7) _ fun i hi => ?_)⟩
    have hout : Nat.testBit m i = false :=
      Nat.testBit_lt_two_pow (hm.trans_le (Nat.pow_le_pow_right (by decide) hi))
    rw [Nat.testBit_ldiff, hout]
    rfl

/-- The payload of a message. -/
def dayPayload (on : Bool) : String := if on then "ON" else "OFF"

/-- Where the days are, in the cache. -/
def daysPath (number : Nat) : List String := ["Alarm", toString number, "days"]

section Set

variable {number : Nat} {day : Fin 7} {on : Bool} {cache : JsonValue}

theorem daySwitchSet_unknown {payload : String} (h : valueIn cache (daysPath number) = .null) :
    daySwitchSet number day payload cache = .error (.valueError "jours de l'alarme encore inconnus") := by
  rw [daysPath] at h
  rw [daySwitchSet, h]

theorem daySwitchSet_known {mask : Int} (h : valueIn cache (daysPath number) = .int mask) :
    daySwitchSet number day (dayPayload on) cache =
      .ok [(s!"Alarm/{number}/Days", some (toString (switched mask day on)))] := by
  rw [daysPath] at h
  rw [daySwitchSet, h]
  cases on <;> rfl

end Set

/-! ### The service -/

/-- A service that accepts every request about alarm `number` and the groups. Its `days`
change when they are written, and only then. -/
structure ServesAlarm {σ : Type} (request : ServiceRequest σ) (number : Nat) (days : σ → Int) :
    Prop where
  range : ∀ s, 0 ≤ days s ∧ days s < 128
  reads : ∀ s, ∀ group ∈ "status" :: groups, ∃ fields s',
    request group none s = (.ok (.obj fields), s') ∧ days s' = days s ∧
      (group = "Alarm" → valueIn (.obj fields) [toString number, "days"] = .int (days s))
  writes : ∀ s mask, 0 ≤ mask → mask < 128 → ∃ result s',
    request s!"Alarm/{number}/Days" (some (toString mask)) s = (.ok result, s') ∧ days s' = mask

/-! ### A service and its two records -/

/-- `Alarm/<n>/Days`, on the records of the AML. -/
def ecrireJours (n : Alarme) (value : String) (alarmes : Alarme → Fiche) : Alarme → Fiche :=
  Function.update alarmes n
    ((ReglageAlarme.changer .days value ((alarmes n).lue n)).fiche (alarmes n).valide.1)

theorem ecrireJours_lue (n m : Alarme) {value : String} (alarmes : Alarme → Fiche)
    (hdays : lireEntier value &&& 0x7F = lireEntier value) :
    (ecrireJours n value alarmes m).lue m =
      if m = n then ReglageAlarme.changer .days value ((alarmes n).lue n) else (alarmes m).lue m := by
  unfold ecrireJours
  by_cases hm : m = n
  · subst hm
    have hmasked : (ReglageAlarme.changer .days value ((alarmes m).lue m)).days &&& 0x7F =
        (ReglageAlarme.changer .days value ((alarmes m).lue m)).days := hdays
    rw [if_pos rfl, Function.update_self]
    exact fiche_lue _ hmasked m
  · rw [if_neg hm, Function.update_of_ne hm]

/-- **The service writes the records this way**, when the AML answers in time. -/
theorem ecrireAlarme_jours {textes : Textes} {parent : Command} {value : String} {s s' : Service}
    (haccept : commandValidateValue textes.strtod ReglageAlarme.days.commande value = .ok ())
    (h : ecrireAlarme ReglageAlarme.days.commande parent value s = (.ok (), s')) :
    ∃ added, Exchange added s s' ∧
      ∀ {autres : UInt8 → List UInt8 → Option Reponse} {c c' : Side Memoire Reponse},
        (aml005 autres).Follows untouched c (surLien added) c' → c.owed = [] → c'.owed = [] →
        ∀ m, (c'.memory.alarmes m).lue m =
          (ecrireJours (numeroAlarme parent) value c.memory.alarmes m).lue m := by
  obtain ⟨added, hex, hdevice⟩ := ecrireAlarme_device haccept h
  refine ⟨added, hex, fun {autres c c'} hfollows hc hc' m => ?_⟩
  rcases hdevice hfollows hc hc' with ⟨hnot, -⟩ | ⟨-, -, hautres, hchange⟩
  · cases hnot
  rw [ecrireJours_lue _ _ _ (jours_acceptes haccept)]
  by_cases hm : m = numeroAlarme parent
  · subst hm
    rw [if_pos rfl, hchange]
  · rw [if_neg hm, hautres m hm]

/-- What the service answers for an alarm has its days. -/
theorem alarmeJson_days (group : Command) (alarm : ControlAlarm) (s : Service) :
    valueIn (alarmeJson group alarm s).1 ["days"] = .int alarm.days.toNat := by
  unfold alarmeJson
  dsimp only
  split <;> rfl

/-- A service connected to an AML, with the records of its alarms. -/
structure Reveil where
  alarmes : Alarme → Fiche
  service : Service

namespace Reveil

/-- The requests of the bridge about the days, and the groups it reads. -/
def request : ServiceRequest Reveil := fun command value r =>
  match value with
  | none =>
    if command = "status" then (.ok (.obj [("connected", .bool true)]), r)
    else if command = "Alarm" then
      let group := enfant amlCommands "Alarm"
      let (object1, s) := alarmeJson (enfant group "1") ((r.alarmes 0).lue 0) r.service
      let (object2, s) := alarmeJson (enfant group "2") ((r.alarmes 1).lue 1) s
      (.ok (.obj [("1", object1), ("2", object2)]), { r with service := s })
    else (.ok (.obj []), r)
  | some value =>
    if command = "Alarm/1/Days" then (.ok .null, { r with alarmes := ecrireJours 0 value r.alarmes })
    else if command = "Alarm/2/Days" then (.ok .null, { r with alarmes := ecrireJours 1 value r.alarmes })
    else (.error (.serviceError "UNKNOWN_COMMAND" command), r)

def jours (n : Alarme) (r : Reveil) : Int := ((r.alarmes n).lue n).days.toNat

theorem jours_range (n : Alarme) (r : Reveil) : 0 ≤ r.jours n ∧ r.jours n < 128 := by
  have hmask : ∀ d : UInt8, (d &&& 0x7F).toNat < 128 := by
    intro d
    rw [UInt8.toNat_and]
    exact Nat.lt_of_le_of_lt Nat.and_le_right (by decide)
  exact ⟨Int.natCast_nonneg _, Int.ofNat_lt.mpr (hmask (r.alarmes n).days)⟩

theorem jours_ecrits (n : Alarme) (r : Reveil) {mask : Int} (h : 0 ≤ mask ∧ mask < 128) :
    Reveil.jours n { r with alarmes := ecrireJours n (toString mask) r.alarmes } = mask := by
  obtain ⟨m, rfl⟩ := Int.eq_ofNat_of_zero_le h.1
  have hread : ∀ m < 128, let value := lireEntier (toString ((m : Nat) : Int))
      value &&& 0x7F = value ∧ value.toNat = m := by decide +kernel
  obtain ⟨hdays, hvalue⟩ := hread m (by omega)
  rw [jours, ecrireJours_lue n n r.alarmes hdays, if_pos rfl]
  exact congrArg Nat.cast hvalue

/-- **It serves each of its alarms.** -/
theorem serves (n : Alarme) : ServesAlarm request (n.val + 1) (jours n) where
  range := jours_range n
  reads r group hgroup := by
    have hother : ∀ fields, group ≠ "Alarm" → request group none r = (.ok (.obj fields), r) →
        ∃ fields r', request group none r = (.ok (.obj fields), r') ∧ jours n r' = jours n r ∧
          (group = "Alarm" → valueIn (.obj fields) [toString (n.val + 1), "days"] = .int (jours n r)) :=
      fun fields hne heq => ⟨fields, r, heq, rfl, fun h => absurd h hne⟩
    simp only [groups, List.mem_cons, List.not_mem_nil, or_false] at hgroup
    rcases hgroup with rfl | rfl | rfl | rfl | rfl
    · exact hother _ (by decide) rfl
    · exact hother _ (by decide) rfl
    · exact hother _ (by decide) rfl
    · exact hother _ (by decide) rfl
    · refine ⟨_, _, rfl, rfl, fun _ => ?_⟩
      match n with
      | 0 => exact alarmeJson_days _ _ _
      | 1 => exact alarmeJson_days _ _ _
  writes r mask hmin hmax := by
    refine ⟨.null, { r with alarmes := ecrireJours n (toString mask) r.alarmes }, ?_,
      jours_ecrits n r ⟨hmin, hmax⟩⟩
    match n with
    | 0 => rfl
    | 1 => rfl

end Reveil

/-- Two alarms at seven, on no day. -/
def reveilDeSept : Reveil where
  alarmes _ :=
    { enable := 0, minute := 0, hour := 7, days := 0, tone := 2, volume := 10, snooze := 2
      sunriseEnable := 0, sunriseMinutes := 15, sunriseBrightness := 20, valide := by decide }
  service := serviceInit amlScripted (World.answering 1 300 [])

/-! ### What the bridge does to the days -/

/-- What the queue gives; of the messages, those for the days of the alarm. -/
inductive DayItem
  | republish
  | event (message : JsonValue)
  | switch (day : Fin 7) (on : Bool)

/-- A turn of the loop, for these. -/
structure DayTurn where
  item : Option DayItem
  executed : Int
  now : Int

def DayItem.toItem (number : Nat) : DayItem → Item
  | .republish => .republish
  | .event message => .event message
  | .switch day on => .command (daySwitchRoute number day) (dayPayload on)

def DayTurn.toTurn (number : Nat) (turn : DayTurn) : Turn where
  item := turn.item.map (DayItem.toItem number)
  executed := turn.executed
  now := turn.now

abbrev DayOp := CachedRecord.Op (Fin 7) Bool

/-- The operation of an item. -/
def itemOps : Option DayItem → List DayOp
  | some (.switch day on) => [.set day on]
  | _ => []

/-- A group is read again. -/
def rereadOps (group : String) : List DayOp := if group = "Alarm" then [.reload] else []

/-- The groups whose time has come are read again. -/
def dueOps (now : Int) (entries : List (String × Int)) : List DayOp :=
  entries.flatMap fun entry => if now ≥ entry.2 then rereadOps entry.1 else []

section Bridge

variable {σ : Type} (request : ServiceRequest σ) (number : Nat)

/-- The poll reads all groups again, unless the AML is not connected. -/
def pollOps (now : Int) (b : Bridge σ) : List DayOp :=
  let asked := (Bridge.refresh request "status" b).2
  if now ≥ b.nextPoll ∧ truthy (valueIn (.obj asked.cache) ["status", "connected"]) then [.reload] else []

/-- The operations of a turn. -/
def turnOps (turn : DayTurn) (b : Bridge σ) : List DayOp :=
  let handled := (Bridge.handle request (turn.toTurn number) b).2
  let refreshed := (Bridge.refreshDueGroups request turn.now handled.refreshDue handled).2
  itemOps turn.item ++ (dueOps turn.now handled.refreshDue ++ pollOps request turn.now refreshed)

/-- The operations of a run, in order: the days changed, and the group `Alarm` read again. -/
def runOps (pollMs : Int) : List DayTurn → Bridge σ → List DayOp
  | [], _ => []
  | turn :: turns, b =>
    turnOps request number turn b ++
      runOps pollMs turns (Bridge.turn request pollMs (turn.toTurn number) b).2

variable (days : σ → Int)

/-- The days, as the cache has them and as the service has them. -/
def view (b : Bridge σ) : CachedRecord.State (Fin 7) Bool where
  copy := match valueIn (.obj b.cache) (daysPath number) with
    | .int mask => some (bits mask)
    | _ => none
  stored := bits (days b.service)

/-- The days of the cache are unknown or a mask, and only groups are to be read again. -/
structure Sound (b : Bridge σ) : Prop where
  copy : valueIn (.obj b.cache) (daysPath number) = .null ∨
    ∃ mask : Int, valueIn (.obj b.cache) (daysPath number) = .int mask ∧ 0 ≤ mask ∧ mask < 128
  due : ∀ entry ∈ b.refreshDue, entry.1 ∈ "status" :: groups

/-- `m` goes through, and does `ops` to the days. -/
def Does (m : BridgeM σ Unit) (b : Bridge σ) (ops : List DayOp) : Prop :=
  ∃ b', m b = (.ok (), b') ∧ Sound number b' ∧
    view number days b' = CachedRecord.run (view number days b) ops

end Bridge

section Does

variable {σ : Type} {request : ServiceRequest σ} {number : Nat} {days : σ → Int} {b : Bridge σ}

theorem Does.pure (hb : Sound number b) : Does number days (pure ()) b [] := ⟨b, rfl, hb, rfl⟩

/-- **Sequencing.** -/
theorem Does.bind {m : BridgeM σ Unit} {f : Unit → BridgeM σ Unit} {ops ops' : List DayOp}
    (hm : Does number days m b ops)
    (hf : ∀ b', m b = (.ok (), b') → Sound number b' → Does number days (f ()) b' ops') :
    Does number days (m >>= f) b (ops ++ ops') := by
  obtain ⟨b', hrun, hsound, hview⟩ := hm
  obtain ⟨last, hrest, hlast, heq⟩ := hf b' hrun hsound
  exact ⟨last, (bind_run_ok hrun).trans hrest, hlast, by rw [heq, hview, CachedRecord.run_append]⟩

theorem Does.get_bind {f : Bridge σ → BridgeM σ Unit} {ops : List DayOp}
    (h : Does number days (f b) b ops) : Does number days (get >>= f) b ops := h

/-- What is not about the days. -/
theorem Does.act {f : Bridge σ → Bridge σ} (hb : Sound number b)
    (hcache : valueIn (.obj (f b).cache) (daysPath number) = valueIn (.obj b.cache) (daysPath number))
    (hservice : (f b).service = b.service)
    (hdue : ∀ entry ∈ (f b).refreshDue, entry ∈ b.refreshDue ∨ entry.1 = "Alarm") :
    Does number days (Fallible.act f) b [] := by
  refine ⟨f b, rfl, ⟨?_, fun entry hentry => ?_⟩, ?_⟩
  · rw [hcache]
    exact hb.copy
  · rcases hdue entry hentry with hold | hnew
    · exact hb.due entry hold
    · rw [hnew]
      decide
  · unfold view
    rw [hcache, hservice]
    rfl

/-- `m` raises, or does nothing to the days. -/
def Spares (number : Nat) (days : σ → Int) (m : BridgeM σ Unit) (b : Bridge σ) : Prop :=
  (∃ e b', m b = (.error e, b')) ∨ Does number days m b []

theorem Spares.throw (e : PyError) : Spares number days (throw e) b := .inl ⟨e, b, rfl⟩

theorem Spares.get_bind {f : Bridge σ → BridgeM σ Unit} (h : Spares number days (f b) b) :
    Spares number days (get >>= f) b := h

theorem Spares.bind {m : BridgeM σ Unit} {f : Unit → BridgeM σ Unit} (hm : Does number days m b [])
    (hf : ∀ b', Sound number b' → Spares number days (f ()) b') : Spares number days (m >>= f) b := by
  obtain ⟨b', hrun, hsound, hview⟩ := hm
  unfold Spares Does
  rw [bind_run_ok hrun]
  rcases hf b' hsound with hraises | ⟨last, hrest, hlast, heq⟩
  · exact .inl hraises
  · exact .inr ⟨last, hrest, hlast, heq.trans (by rw [hview]; rfl)⟩

theorem Spares.dictGet {data default : JsonValue} {key : String} {f : JsonValue → BridgeM σ Unit}
    (hf : ∀ value, Spares number days (f value) b) :
    Spares number days (dictGet data key default >>= f) b := by
  cases data with
  | obj fields => exact hf _
  | _ => exact .throw .attributeError

theorem start_sound (s : σ) : Sound number (Bridge.start s) := ⟨.inl rfl, fun _ hentry => by cases hentry⟩

theorem execute_daySwitch (day : Fin 7) (payload : String) (now : Int) :
    Bridge.execute request (daySwitchRoute number day) payload now = (do
      Bridge.attempt do
        let b ← get
        match daySwitchSet number day payload (.obj b.cache) with
        | .ok commands => Bridge.sendAll request commands
        | .error e => throw e
      Fallible.act fun b : Bridge σ =>
        { b with refreshDue := dictSet "Alarm" (now + refreshDelayMs) b.refreshDue }) := rfl

/-! ### Reading again -/

variable (hserves : ServesAlarm request number days)

include hserves

/-- **One group.** -/
theorem refresh_does (hb : Sound number b) {group : String} (hgroup : group ∈ "status" :: groups) :
    Does number days (Bridge.refresh request group) b (rereadOps group) := by
  obtain ⟨fields, s', hrequest, hdays, hresult⟩ := hserves.reads b.service group hgroup
  have hrun : Bridge.refresh request group b =
      (.ok (), { b with cache := dictSet group (.obj fields) b.cache, service := s' }) := by
    rw [Bridge.refresh, Bridge.serviceRequest, hrequest]
    refine (bind_run_ok rfl).trans ?_
    split <;> rfl
  have hread : valueIn (.obj (dictSet group (.obj fields) b.cache)) (daysPath number) =
      if group = "Alarm" then .int (days b.service) else valueIn (.obj b.cache) (daysPath number) := by
    rw [daysPath, valueIn_dictSet]
    by_cases h : group = "Alarm"
    · rw [if_pos h, if_pos h, hresult h]
    · rw [if_neg h, if_neg h]
  refine ⟨_, hrun, ⟨?_, hb.due⟩, ?_⟩
  · rw [hread]
    by_cases h : group = "Alarm"
    · exact .inr ⟨_, if_pos h, hserves.range b.service⟩
    · rw [if_neg h]
      exact hb.copy
  · unfold view rereadOps
    dsimp only
    rw [hread, hdays]
    by_cases h : group = "Alarm" <;> simp [h, CachedRecord.run, CachedRecord.step]

/-- Some groups. -/
theorem refreshEach_does (hb : Sound number b) {names : List String}
    (hnames : ∀ group ∈ names, group ∈ "status" :: groups) :
    Does number days (Bridge.refreshEach request names) b (names.flatMap rereadOps) := by
  induction names generalizing b with
  | nil => exact .pure hb
  | cons group names ih =>
    rw [List.flatMap_cons]
    refine .bind (refresh_does hserves hb (hnames group List.mem_cons_self)) fun b' _ hsound => ?_
    exact ih hsound fun group hgroup => hnames group (List.mem_cons_of_mem _ hgroup)

/-- The groups whose time has come. -/
theorem refreshDueGroups_does (hb : Sound number b) (now : Int) {entries : List (String × Int)}
    (hentries : ∀ entry ∈ entries, entry.1 ∈ "status" :: groups) :
    Does number days (Bridge.refreshDueGroups request now entries) b (dueOps now entries) := by
  induction entries generalizing b with
  | nil => exact .pure hb
  | cons entry entries ih =>
    obtain ⟨group, due⟩ := entry
    have hrest : ∀ entry ∈ entries, entry.1 ∈ "status" :: groups :=
      fun entry hentry => hentries entry (List.mem_cons_of_mem _ hentry)
    unfold Bridge.refreshDueGroups
    rw [dueOps, List.flatMap_cons]
    dsimp only
    by_cases hdue : now ≥ due
    · rw [if_pos hdue, if_pos hdue, ← List.nil_append (rereadOps group), List.append_assoc]
      refine .bind (.act hb rfl rfl fun entry hentry => ?_) fun b' _ hsound => ?_
      · exact .inl (List.mem_of_mem_filter hentry)
      refine .bind (refresh_does hserves hsound (hentries _ List.mem_cons_self)) fun last _ hlast => ?_
      exact ih hlast hrest
    · rw [if_neg hdue, if_neg hdue, List.nil_append]
      exact ih hb hrest

/-- All the groups. -/
theorem refreshAll_does (hb : Sound number b) :
    Does number days (Bridge.refreshAll request) b
      (if truthy (valueIn (.obj (Bridge.refresh request "status" b).2.cache) ["status", "connected"]) then
        [.reload] else []) := by
  have hstatus : Does number days (Bridge.refresh request "status") b [] :=
    refresh_does hserves hb List.mem_cons_self
  rw [← List.nil_append (ite _ _ _)]
  refine hstatus.bind fun b' hrun hsound => .get_bind ?_
  rw [hrun]
  dsimp only
  by_cases hconnected : truthy (valueIn (.obj b'.cache) ["status", "connected"]) = true
  · rw [if_pos hconnected, if_pos hconnected]
    exact refreshEach_does hserves hsound fun group hgroup => List.mem_cons_of_mem _ hgroup
  · rw [if_neg hconnected, if_neg hconnected]
    exact .pure hsound

/-- The poll. -/
theorem poll_does (hb : Sound number b) (pollMs now : Int) :
    Does number days (Bridge.poll request pollMs now) b (pollOps request now b) := by
  refine .get_bind ?_
  unfold pollOps
  dsimp only
  by_cases hnow : now ≥ b.nextPoll
  · rw [if_pos hnow]
    simp only [hnow, true_and]
    rw [← List.append_nil (ite _ _ _)]
    refine .bind (refreshAll_does hserves hb) fun b' _ hsound => ?_
    exact .act hsound rfl rfl fun entry hentry => .inl hentry
  · rw [if_neg hnow, if_neg fun h => hnow h.1]
    exact .pure hb

/-! ### One item -/

/-- **A message for one day.** -/
theorem execute_does (hb : Sound number b) (day : Fin 7) (on : Bool) (now : Int) :
    Does number days (Bridge.execute request (daySwitchRoute number day) (dayPayload on) now) b
      [.set day on] := by
  rw [execute_daySwitch, ← List.append_nil [_]]
  refine .bind ?_ fun b' _ hsound => .act hsound rfl rfl fun entry hentry => mem_dictSet hentry
  rcases hb.copy with hnull | ⟨mask, hmask, hrange⟩
  · -- refused, as the days are not known yet
    refine ⟨b, ?_, hb, ?_⟩
    · refine attempt_caught (r := .error (.valueError "jours de l'alarme encore inconnus")) ?_ ?_
      · rw [bind_run_ok (get_run b), daySwitchSet_unknown hnull]
        rfl
      · intro e heq
        cases heq
        trivial
    · simp [CachedRecord.run, CachedRecord.step, view, hnull]
  · obtain ⟨result, s', hrequest, hdays⟩ := hserves.writes b.service (switched mask day on)
      (switched_range hrange day on).1 (switched_range hrange day on).2
    refine ⟨{ b with service := s' }, ?_, ⟨hb.copy, hb.due⟩, ?_⟩
    · refine attempt_caught (r := .ok ()) ((bind_run_ok rfl).trans ?_) (fun e heq => by cases heq)
      rw [daySwitchSet_known hmask]
      refine bind_run_ok (a := result) ?_
      rw [Bridge.serviceRequest, hrequest]
    · simp [CachedRecord.run, CachedRecord.step, view, hmask, hdays, bits_switched]

/-- **An event**: it is not about the days. -/
theorem handleEvent_spares (hb : Sound number b) (message : JsonValue) :
    Spares number days (Bridge.handleEvent request message) b := by
  have hother : ∀ (key : String) (value : JsonValue) {b : Bridge σ}, Sound number b → key ≠ "Alarm" →
      Does number days (Fallible.act fun b => { b with cache := dictSet key value b.cache }) b [] := by
    intro key value b hb hkey
    refine .act hb ?_ rfl fun entry hentry => .inl hentry
    rw [daysPath, valueIn_dictSet, if_neg hkey]
  unfold Bridge.handleEvent
  dsimp only
  split
  · -- the state of the alarms, put in the cached status
    refine .get_bind ?_
    cases (b.cache.lookup "status").getD (.obj []) with
    | obj fields => exact .inr (hother "status" _ hb (by decide))
    | _ => exact .throw _
  · refine .dictGet fun light => .bind (hother "Light" light hb (by decide)) fun b' hsound => ?_
    exact .dictGet fun mood => .inr (hother "Mood" mood hsound (by decide))
  · refine .dictGet fun timer => ?_
    cases hgroup : timerGroup timer with
    | error e => exact .throw e
    | ok group =>
      cases group with
      | none => exact .inr (.pure hb)
      | some group =>
        obtain ⟨hmem, halarm⟩ := timerGroup_groups hgroup
        have hdoes := refresh_does hserves hb (List.mem_cons_of_mem "status" hmem)
        rw [rereadOps, if_neg halarm] at hdoes
        exact .inr hdoes
  · exact .inr (.pure hb)

/-! ### The turns -/

/-- The item of a turn; only an event can raise. -/
theorem handle_does (hb : Sound number b) (turn : DayTurn) :
    Does number days (Bridge.handle request (turn.toTurn number)) b (itemOps turn.item) ∨
      (∃ message, turn.item = some (.event message)) ∧
        ∃ e b', Bridge.handle request (turn.toTurn number) b = (.error e, b') := by
  obtain ⟨item, executed, now⟩ := turn
  cases item with
  | none => exact .inl (.pure hb)
  | some item =>
    cases item with
    | republish => exact .inl (.act hb rfl rfl fun entry hentry => .inl hentry)
    | event message =>
      rcases handleEvent_spares hserves hb message with hraises | hdoes
      · exact .inr ⟨⟨message, rfl⟩, hraises⟩
      · exact .inl hdoes
    | switch day on => exact .inl (execute_does hserves hb day on executed)

/-- **One turn.** -/
theorem turn_does (hb : Sound number b) (pollMs : Int) (turn : DayTurn) :
    Does number days (Bridge.turn request pollMs (turn.toTurn number)) b (turnOps request number turn b) ∨
      (∃ message, turn.item = some (.event message)) ∧
        ∃ e b', Bridge.turn request pollMs (turn.toTurn number) b = (.error e, b') := by
  rcases handle_does hserves hb turn with hdoes | ⟨hevent, e, b', hraises⟩
  · refine .inl (hdoes.bind fun handled hrun hsound => .get_bind ?_)
    rw [hrun]
    refine .bind (refreshDueGroups_does hserves hsound turn.now hsound.due) fun refreshed hrefresh hlast => ?_
    have hsame : Bridge.refreshDueGroups request turn.now handled.refreshDue handled = (.ok (), refreshed) :=
      hrefresh
    dsimp only
    rw [hsame]
    exact poll_does hserves hlast pollMs turn.now
  · exact .inr ⟨hevent, e, b', bind_run_error hraises⟩

/-- **A run.** -/
theorem run_does (hb : Sound number b) (pollMs : Int) (turns : List DayTurn) :
    Does number days (Bridge.run request pollMs (turns.map (DayTurn.toTurn number))) b
        (runOps request number pollMs turns b) ∨
      (∃ turn ∈ turns, ∃ message, turn.item = some (.event message)) ∧
        ∃ e b', Bridge.run request pollMs (turns.map (DayTurn.toTurn number)) b = (.error e, b') := by
  induction turns generalizing b with
  | nil => exact .inl (.pure hb)
  | cons turn turns ih =>
    rcases turn_does hserves hb pollMs turn with ⟨b', hrun, hsound, hview⟩ | ⟨hevent, e, b', hraises⟩
    · rcases ih hsound with hrest | ⟨⟨later, hlater, hevent⟩, e, last, hraises⟩
      · refine .inl (.bind ⟨b', hrun, hsound, hview⟩ fun _ hrun' _ => ?_)
        obtain rfl := (Prod.mk.inj (hrun.symm.trans hrun')).2
        rw [hrun]
        exact hrest
      · refine .inr ⟨⟨later, List.mem_cons_of_mem _ hlater, hevent⟩, e, last, ?_⟩
        exact (bind_run_ok hrun).trans hraises
    · exact .inr ⟨⟨turn, List.mem_cons_self, hevent⟩, e, b', bind_run_error hraises⟩

end Does

/-! ### What was asked -/

/-- The last message for a day, or else the value it had. -/
def lastAsked (turns : List DayTurn) (day : Fin 7) (initial : Bool) : Bool :=
  turns.foldl (fun value turn =>
    match turn.item with
    | some (.switch d on) => if d = day then on else value
    | _ => value) initial

section Asked

variable {σ : Type} {request : ServiceRequest σ} {number : Nat}

theorem dueOps_sets (now : Int) (entries : List (String × Int)) (day : Fin 7) :
    ∀ op ∈ dueOps now entries, op.sets day = false := by
  intro op hop
  obtain ⟨entry, -, hentry⟩ := List.mem_flatMap.mp hop
  unfold rereadOps at hentry
  split at hentry
  · split at hentry
    · rw [List.mem_singleton.mp hentry]
      rfl
    · cases hentry
  · cases hentry

theorem pollOps_sets (now : Int) (b : Bridge σ) (day : Fin 7) :
    ∀ op ∈ pollOps request now b, op.sets day = false := by
  intro op hop
  unfold pollOps at hop
  dsimp only at hop
  split at hop
  · rw [List.mem_singleton.mp hop]
    rfl
  · cases hop

theorem wanted_runOps (pollMs : Int) (turns : List DayTurn) (b : Bridge σ) (day : Fin 7) (value : Bool) :
    (runOps request number pollMs turns b).foldl (CachedRecord.asked day) value =
      lastAsked turns day value := by
  induction turns generalizing b value with
  | nil => rfl
  | cons turn turns ih =>
    have hturn : (turnOps request number turn b).foldl (CachedRecord.asked day) value =
        (itemOps turn.item).foldl (CachedRecord.asked day) value := by
      unfold turnOps
      dsimp only
      rw [List.foldl_append, List.foldl_append, CachedRecord.foldl_asked (dueOps_sets _ _ _),
        CachedRecord.foldl_asked (pollOps_sets _ _ _)]
    rw [runOps, List.foldl_append, ih, hturn, lastAsked, lastAsked, List.foldl_cons]
    congr 1
    obtain ⟨_ | _ | _ | _, _, _⟩ := turn <;> rfl

end Asked

section Kept

variable {σ : Type} {request : ServiceRequest σ} {number : Nat} {days : σ → Int}

/-- **The days of an alarm**, over any run of the bridge that no event ends: every day is
what the last message for it asked for if and only if every last message either is sent
with the days known, and followed by a reading of the alarms before another message; or
asks for what the day is in the cache already, or on the AML if the cache has no days. -/
theorem days_kept (hserves : ServesAlarm request number days) (pollMs : Int) (s : σ) (turns : List DayTurn) :
    ((∀ turn ∈ turns, ∀ message, turn.item ≠ some (.event message)) →
      ∃ b, Bridge.run request pollMs (turns.map (DayTurn.toTurn number)) (Bridge.start s) = (.ok (), b)) ∧
    ∀ b, Bridge.run request pollMs (turns.map (DayTurn.toTurn number)) (Bridge.start s) = (.ok (), b) →
      ((∀ day : Fin 7, (days b.service).testBit day = lastAsked turns day ((days s).testBit day)) ↔
        CachedRecord.AllOutlive (view number days (Bridge.start s))
          (runOps request number pollMs turns (Bridge.start s))) := by
  rcases run_does hserves (start_sound s) pollMs turns with ⟨last, hrun, -, hview⟩ |
    ⟨⟨turn, hturn, message, hevent⟩, e, last, hraises⟩
  · refine ⟨fun _ => ⟨last, hrun⟩, fun b hb => ?_⟩
    obtain rfl := (Prod.mk.inj (hrun.symm.trans hb)).2
    have hfresh : CachedRecord.Fresh (view number days (Bridge.start s)) := fun _ h => by cases h
    rw [← CachedRecord.run_stored_iff hfresh, ← hview]
    refine forall_congr' fun day => ?_
    rw [CachedRecord.wanted, wanted_runOps]
    rfl
  · refine ⟨fun hnone => absurd hevent (hnone turn hturn message), fun b hb => ?_⟩
    cases hraises.symm.trans hb

end Kept

/-- Monday is switched on ten seconds after the start, and Tuesday at the given time. -/
def lundiPuisMardi (date : Int) : List DayTurn :=
  [⟨none, 0, 0⟩, ⟨some (.switch 1 true), 10000, 10000⟩, ⟨none, 0, date⟩,
    ⟨some (.switch 2 true), date, date⟩, ⟨none, 0, date + 1500⟩]

/-- Two seconds apart, the first message is followed by a reading. -/
theorem days_kept_two_seconds :
    let turns := lundiPuisMardi 12000
    let start := Bridge.start reveilDeSept
    CachedRecord.AllOutlive (view 1 (Reveil.jours 0) start) (runOps Reveil.request 1 30000 turns start) := by
  intro turns start
  have hkept : ∀ day : Fin 7, (Reveil.jours 0
      (Bridge.run Reveil.request 30000 (turns.map (DayTurn.toTurn 1)) start).2.service).testBit day =
        lastAsked turns day ((reveilDeSept.jours 0).testBit day) := by decide +kernel
  have hserves : ServesAlarm Reveil.request 1 (Reveil.jours 0) := Reveil.serves 0
  obtain ⟨hruns, hiff⟩ := days_kept hserves 30000 reveilDeSept turns
  obtain ⟨b, hrun⟩ := hruns (by simp [turns, lundiPuisMardi])
  refine (hiff b hrun).mp fun day => ?_
  rw [← hkept day, hrun]

/-- **Half a second apart, the first message is lost**: the second sends the days as they
were read before it. -/
theorem lundi_perdu :
    ServesAlarm Reveil.request 1 (Reveil.jours 0) ∧
      let turns := lundiPuisMardi 10500
      let last := Bridge.run Reveil.request 30000 (turns.map (DayTurn.toTurn 1)) (Bridge.start reveilDeSept)
      last.1 = .ok () ∧ (Reveil.jours 0 last.2.service).testBit 1 = false ∧
        lastAsked turns 1 ((reveilDeSept.jours 0).testBit 1) = true :=
  ⟨Reveil.serves 0, by decide +kernel⟩

end AmlService
