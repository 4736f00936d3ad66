import AmlService.App.HandlersRequest
import AmlService.App.Steps
import AmlService.Core.Device

/-!
# AmlService.App.AlarmEdits

What `Alarm/<n>/<setting>` does to the two records on the device. A request reads the
record, changes one setting of it and writes it back; with every exchange answered in
time, the record then holds, for each setting, what the last request for it gave.
-/

namespace AmlService

open Effect Answering

/-! ### A record, as it is read -/

/-- What `control_alarm_query` makes of a record. -/
def Fiche.lue (fiche : Fiche) (n : Alarme) : ControlAlarm :=
  decodeAlarm ((indexAlarme n ||| alarmReadFlag) :: fiche.bytes)

/-- The record that `control_alarm_write` sends. -/
def ControlAlarm.fiche (alarm : ControlAlarm) (h : alarm.hour ≤ 23 ∧ alarm.minute ≤ 59) : Fiche where
  enable := boolByte alarm.enable
  minute := alarm.minute
  hour := alarm.hour
  days := alarm.days &&& 0x7F
  tone := alarm.tone
  volume := alarm.volume
  snooze := alarm.snooze
  sunriseEnable := boolByte alarm.sunriseEnable
  sunriseMinutes := alarm.sunriseMinutes
  sunriseBrightness := alarm.sunriseBrightness
  valide := ⟨h, by cases alarm.enable <;> decide, by cases alarm.sunriseEnable <;> decide⟩

@[simp] theorem boolByte_eq_one (b : Bool) : (boolByte b == 1) = b := by cases b <;> rfl

theorem Fiche.lue_days (fiche : Fiche) (n : Alarme) : (fiche.lue n).days &&& 0x7F = (fiche.lue n).days := by
  show (fiche.days &&& 0x7F) &&& 0x7F = fiche.days &&& 0x7F
  rw [UInt8.and_assoc]
  rfl

/-- **Written, then read**: the same alarm. -/
theorem fiche_lue {alarm : ControlAlarm} (h : alarm.hour ≤ 23 ∧ alarm.minute ≤ 59)
    (hdays : alarm.days &&& 0x7F = alarm.days) (n : Alarme) : (alarm.fiche h).lue n = alarm := by
  simp [Fiche.lue, decodeAlarm, Fiche.bytes, ControlAlarm.fiche, octet, hdays]

/-! ### The two exchanges -/

section Exchanges

variable {σ : Type} {n : Alarme} {app app' : SweetDawn σ}

/-- A reading, with a device that owes nothing: it gives the record, or fails; the device
stays as it is, unless it still owes its answer. -/
theorem controlAlarmQuery_device {r : Except AmlErr ControlAlarm}
    (h : controlAlarmQuery n app = (r, app')) :
    ∃ added, Exchange added app app' ∧
      ∀ {autres : UInt8 → List UInt8 → Option Reponse} {c c' : Side Memoire Reponse},
        (aml005 autres).Follows untouched c (surLien added) c' → c.owed = [] →
        (r.isOk = false ∧ (c'.owed = [] → c' = c)) ∨ (r = .ok ((c.memory.alarmes n).lue n) ∧ c' = c) := by
  have hshort : [indexAlarme n ||| alarmReadFlag, 0x02].length ≤ 247 := by simp
  obtain ⟨request, hbuild⟩ := protocolBuildRequest_some amlReqAlarm hshort
  rcases hread : demander amlReqAlarm [indexAlarme n ||| alarmReadFlag, 0x02] amlRspAlarm 0 11 app with
    ⟨result, later⟩
  obtain ⟨added, hex, houtcome⟩ := demander_outcome (by decide) hread hbuild
  have hstate : later = app' := by
    have hsnd : (controlAlarmQuery n app).2 = (demander amlReqAlarm
        [indexAlarme n ||| alarmReadFlag, 0x02] amlRspAlarm 0 11 app).2 :=
      bind_run_snd (fun _ _ => by split <;> rfl) app
    rw [h, hread] at hsnd
    exact hsnd.symm
  subst hstate
  unfold controlAlarmQuery at h
  rw [bind_run, hread] at h
  refine ⟨added, hex, fun {autres c c'} hfollows hc => ?_⟩
  have hreceive : (aml005 autres).receive c.memory request = _ := receive_alarmRead hbuild
  rcases houtcome hfollows hc (by rw [hreceive]) (by simp [Fiche.bytes]) with
    ⟨⟨code, rfl⟩, hsame⟩ | ⟨rfl, rfl⟩ | ⟨⟨code, rfl⟩, hlate⟩
  · obtain rfl := (Prod.mk.inj h).1
    exact .inl ⟨rfl, fun _ => hsame⟩
  · have hindex : ∀ n : Alarme, (indexAlarme n ||| alarmReadFlag) &&& 0x7F = indexAlarme n := by decide
    dsimp only at h
    rw [if_neg (by simp [octet, hindex])] at h
    exact .inr ⟨(Prod.mk.inj h).1.symm, by rw [Device.take, hreceive, ← hc]⟩
  · obtain rfl := (Prod.mk.inj h).1
    exact .inl ⟨rfl, fun hc' => absurd hc' hlate⟩

/-- A write: it succeeds and the record is replaced, or it fails and nothing is. -/
theorem controlAlarmWrite_device {alarm : ControlAlarm} {r : Except AmlErr Unit}
    (h : controlAlarmWrite n alarm app = (r, app')) :
    ∃ added, Exchange added app app' ∧
      ∀ {autres : UInt8 → List UInt8 → Option Reponse} {c c' : Side Memoire Reponse},
        (aml005 autres).Follows untouched c (surLien added) c' → c.owed = [] → c'.owed = [] →
        (r.isOk = false ∧ c' = c) ∨ (r = .ok () ∧ ∃ hvalide, c'.memory =
          { c.memory with alarmes := Function.update c.memory.alarmes n (alarm.fiche hvalide) }) := by
  unfold controlAlarmWrite at h
  split at h
  · obtain ⟨rfl, rfl⟩ := Prod.mk.inj h
    refine ⟨[], .refl app, fun hfollows hc _ => .inl ⟨rfl, ?_⟩⟩
    exact (hfollows.silent hc (by simp [surLien])).2
  next hbounds =>
  have hvalide : alarm.hour ≤ 23 ∧ alarm.minute ≤ 59 := by
    rw [not_or, UInt8.not_lt, UInt8.not_lt] at hbounds
    exact hbounds
  have hshort : (alarmBytes n alarm).length ≤ 247 := by simp [alarmBytes]
  obtain ⟨request, hbuild⟩ := protocolBuildRequest_some amlReqAlarm hshort
  rcases hwrite : demander amlReqAlarm (alarmBytes n alarm) amlRspAlarm 0 0 app with ⟨result, later⟩
  obtain ⟨added, hex, houtcome⟩ := demander_outcome (by decide) hwrite hbuild
  rw [bind_run, hwrite] at h
  have hstate : later = app' := by cases result <;> exact congrArg Prod.snd h
  subst hstate
  refine ⟨added, hex, fun {autres c c'} hfollows hc hc' => ?_⟩
  have hreceive : (aml005 autres).receive c.memory request = _ :=
    receive_alarmWrite (show protocolBuildRequest amlReqAlarm
      (indexAlarme n :: (alarm.fiche hvalide).bytes) requestBufferSize = some request from hbuild)
  rcases houtcome hfollows hc (by rw [hreceive]) (Nat.zero_le _) with
    ⟨⟨code, rfl⟩, rfl⟩ | ⟨rfl, rfl⟩ | ⟨-, hlate⟩
  · obtain rfl := (Prod.mk.inj h).1
    exact .inl ⟨rfl, rfl⟩
  · obtain rfl := (Prod.mk.inj h).1
    exact .inr ⟨rfl, hvalide, by rw [Device.take, hreceive]⟩
  · exact absurd hc' hlate

end Exchanges

/-! ### The settings of an alarm -/

/-- The settings of `Alarm/<n>`. -/
inductive ReglageAlarme
  | enable
  | time
  | days
  | snooze
  | tone
  | toneVolume
  | sunrise
  | sunriseDuration
  | sunriseBrightness
  deriving Repr, DecidableEq

namespace ReglageAlarme

def nom : ReglageAlarme → String
  | enable => "Enable"
  | time => "Time"
  | days => "Days"
  | snooze => "Snooze"
  | tone => "Tone"
  | toneVolume => "Tone volume"
  | sunrise => "Sunrise"
  | sunriseDuration => "Sunrise duration"
  | sunriseBrightness => "Sunrise brightness"

/-- Its command. -/
def commande (k : ReglageAlarme) : Command := enfant (groupe "" "" parametresAlarme) k.nom

/-- What an alarm holds for it: the hour and the minute, or one byte. -/
def octets (k : ReglageAlarme) (alarm : ControlAlarm) : List UInt8 :=
  match k with
  | enable => [boolByte alarm.enable]
  | time => [alarm.hour, alarm.minute]
  | days => [alarm.days]
  | snooze => [alarm.snooze]
  | tone => [alarm.tone]
  | toneVolume => [alarm.volume]
  | sunrise => [boolByte alarm.sunriseEnable]
  | sunriseDuration => [alarm.sunriseMinutes]
  | sunriseBrightness => [alarm.sunriseBrightness]

/-- What a text asks for: on or off, `HH:MM`, a number, a position in a list. -/
def valeur (k : ReglageAlarme) (value : String) : List UInt8 :=
  match k with
  | enable | sunrise => [if value = "true" then 1 else 0]
  | time => (lireHeure value).elim [] fun time => [time.1, time.2]
  | snooze => [UInt8.ofNat (snoozeValues.idxOf value)]
  | tone => [UInt8.ofNat (toneValues.idxOf value)]
  | days | toneVolume | sunriseDuration | sunriseBrightness =>
    [UInt8.ofInt (Text.strtol value.toList)]

/-- Alarms that agree on every setting are the same. -/
theorem ext_octets {alarm alarm' : ControlAlarm} (h : ∀ k, octets k alarm = octets k alarm') :
    alarm = alarm' := by
  have hbool : ∀ b b', boolByte b = boolByte b' → b = b' := by decide
  have henable := h enable
  have htime := h time
  have hsunrise := h sunrise
  simp only [octets, List.cons.injEq, and_true] at henable htime hsunrise
  cases alarm
  cases alarm'
  simp only [ControlAlarm.mk.injEq]
  exact ⟨hbool _ _ henable, htime.1, htime.2, (List.cons.inj (h days)).1, (List.cons.inj (h tone)).1,
    (List.cons.inj (h toneVolume)).1, (List.cons.inj (h snooze)).1, hbool _ _ hsunrise,
    (List.cons.inj (h sunriseDuration)).1, (List.cons.inj (h sunriseBrightness)).1⟩

theorem commande_nom (k : ReglageAlarme) : k.commande.name = k.nom := by cases k <;> rfl

/-- An alarm with its setting changed. -/
def changer (k : ReglageAlarme) (value : String) (alarm : ControlAlarm) : ControlAlarm :=
  changerReglageAlarme k.commande value ((lireHeure value).getD (0, 0)) alarm

variable {k j : ReglageAlarme} {value : String} {alarm : ControlAlarm}

/-- The other settings do not change. -/
theorem octets_changer_autre (hne : j ≠ k) : octets j (changer k value alarm) = octets j alarm := by
  unfold changer changerReglageAlarme
  rw [commande_nom]
  cases k <;> cases j <;> first | rfl | exact absurd rfl hne

/-- Its own is what the text asks for, once the tree has accepted the text. -/
theorem octets_changer {strtod : Strtod} (haccept : commandValidateValue strtod k.commande value = .ok ())
    (htime : k = time → (lireHeure value).isSome = true) :
    octets k (changer k value alarm) = valeur k value := by
  have hchoix : k.commande.valueSpec.type = .string → k.commande.valueSpec.choices ≠ [] →
      UInt8.ofInt (indexChoix k.commande value) =
        UInt8.ofNat (k.commande.valueSpec.choices.idxOf value) := by
    intro htype hchoices
    rw [commandValidateValue, htype] at haccept
    dsimp only at haccept
    split at haccept
    · next hmem => rw [indexChoix_mem (hmem.resolve_left hchoices), ofInt_natCast]
    · cases haccept
  have hbool : boolByte (lireBooleen value) = if value = "true" then 1 else 0 := by
    simp [lireBooleen, boolByte]
  unfold changer changerReglageAlarme
  rw [commande_nom]
  cases k with
  | enable | sunrise => exact congrArg (fun b => [b]) hbool
  | time =>
    obtain ⟨t, ht⟩ := Option.isSome_iff_exists.mp (htime rfl)
    rw [valeur, ht]
    rfl
  | snooze | tone => exact congrArg (fun b => [b]) (hchoix rfl (by decide))
  | days | toneVolume | sunriseDuration | sunriseBrightness => rfl

/-- The days stay in their seven bits. -/
theorem changer_days {strtod : Strtod} (haccept : commandValidateValue strtod k.commande value = .ok ())
    (hdays : alarm.days &&& 0x7F = alarm.days) :
    (changer k value alarm).days &&& 0x7F = (changer k value alarm).days := by
  by_cases hk : k = days
  · subst hk
    show lireEntier value &&& 0x7F = lireEntier value
    exact jours_acceptes haccept
  · have hsame : octets days (changer k value alarm) = octets days alarm :=
      octets_changer_autre (Ne.symm hk)
    have hsame : (changer k value alarm).days = alarm.days := (List.cons.inj hsame).1
    rw [hsame, hdays]

end ReglageAlarme

/-! ### The requests -/

/-- A request `Alarm/<n>/<setting>`. -/
structure DemandeAlarme where
  alarme : Alarme
  reglage : ReglageAlarme
  args : List JsonValue

namespace DemandeAlarme

def chemin (d : DemandeAlarme) : String :=
  "Alarm/" ++ (if d.alarme = 0 then "1" else "2") ++ "/" ++ d.reglage.nom

def executer (textes : Textes) (d : DemandeAlarme) : HandlerM JsonValue :=
  handlersRequest textes d.chemin d.args

/-- What it asks for. -/
def valeur (textes : Textes) (d : DemandeAlarme) : List UInt8 :=
  match d.args with
  | [arg] => (jsonObjectGetString textes arg).elim [] d.reglage.valeur
  | _ => []

/-- Its command and its handler. -/
theorem trouve (d : DemandeAlarme) :
    ∃ found, registryFindPath amlCommands d.chemin = some found ∧
      found.command = d.reglage.commande ∧ numeroAlarme found.parent = d.alarme ∧
      handlerDe found.chemin = some .ecrireAlarme := by
  have hone : ∀ k : ReglageAlarme, ∃ found, registryFindPath amlCommands ("Alarm/1/" ++ k.nom) = some found ∧
      found.command = k.commande ∧ numeroAlarme found.parent = 0 ∧
      handlerDe found.chemin = some .ecrireAlarme := by
    intro k
    cases k <;> exact ⟨_, rfl, rfl, rfl, rfl⟩
  have htwo : ∀ k : ReglageAlarme, ∃ found, registryFindPath amlCommands ("Alarm/2/" ++ k.nom) = some found ∧
      found.command = k.commande ∧ numeroAlarme found.parent = 1 ∧
      handlerDe found.chemin = some .ecrireAlarme := by
    intro k
    cases k <;> exact ⟨_, rfl, rfl, rfl, rfl⟩
  obtain ⟨n, k, args⟩ := d
  match n with
  | 0 => exact hone k
  | 1 => exact htwo k

end DemandeAlarme

section Request

variable {textes : Textes} {s s' : Service}

/-- **The handler, with a device that owes nothing before and after**: the setting is
changed in the record, and nothing else; or the request fails and nothing is. -/
theorem ecrireAlarme_device {k : ReglageAlarme} {parent : Command} {value : String}
    {r : Except HandlerError Unit}
    (haccept : commandValidateValue textes.strtod k.commande value = .ok ())
    (h : ecrireAlarme k.commande parent value s = (r, s')) :
    ∃ added, Exchange added s s' ∧
      ∀ {autres : UInt8 → List UInt8 → Option Reponse} {c c' : Side Memoire Reponse},
        (aml005 autres).Follows untouched c (surLien added) c' → c.owed = [] → c'.owed = [] →
        (r.isOk = false ∧ c' = c) ∨ (r = .ok () ∧
          (k = .time → (lireHeure value).isSome = true) ∧
          (∀ m, m ≠ numeroAlarme parent → c'.memory.alarmes m = c.memory.alarmes m) ∧
          (c'.memory.alarmes (numeroAlarme parent)).lue (numeroAlarme parent) =
            k.changer value ((c.memory.alarmes (numeroAlarme parent)).lue (numeroAlarme parent))) := by
  generalize hn : numeroAlarme parent = n
  unfold ecrireAlarme at h
  rw [hn] at h
  dsimp only at h
  split at h
  · obtain ⟨rfl, rfl⟩ := Prod.mk.inj h
    refine ⟨[], .refl s, fun hfollows hc _ => .inl ⟨rfl, ?_⟩⟩
    exact (hfollows.silent hc (by simp [surLien])).2
  next htime =>
  have htime : k = .time → (lireHeure value).isSome = true := by
    rintro rfl
    cases hheure : lireHeure value with
    | some t => rfl
    | none => exact absurd (by rw [hheure]; rfl) htime
  rcases hquery : controlAlarmQuery n s with ⟨result, later⟩
  obtain ⟨added, hex, hread⟩ := controlAlarmQuery_device hquery
  cases result with
  | error code =>
    rw [bind_run_error (verifier_error hquery)] at h
    obtain ⟨rfl, rfl⟩ := Prod.mk.inj h
    refine ⟨added, hex, fun hfollows hc hc' => ?_⟩
    rcases hread hfollows hc with ⟨-, hsame⟩ | ⟨hok, -⟩
    · exact .inl ⟨rfl, hsame hc'⟩
    · cases hok
  | ok alarm =>
    rw [bind_run_ok (verifier_ok hquery)] at h
    obtain ⟨result, hwrite, rfl⟩ := verifier_inv h
    obtain ⟨added', hex', hwritten⟩ := controlAlarmWrite_device hwrite
    refine ⟨added ++ added', hex.trans hex', fun hfollows hc hc' => ?_⟩
    rw [surLien_append] at hfollows
    obtain ⟨cm, hfirst, hrest⟩ := hfollows.append_inv
    -- the record was read, and nothing is owed when it is written
    rcases hread hfirst hc with ⟨hnot, -⟩ | ⟨halarm, rfl⟩
    · cases hnot
    obtain rfl : alarm = _ := Except.ok.inj halarm
    rcases hwritten hrest hc hc' with ⟨hnot, rfl⟩ | ⟨rfl, hvalide, hmemory⟩
    · refine .inl ⟨?_, rfl⟩
      cases result with
      | error code => rfl
      | ok _ => cases hnot
    · refine .inr ⟨rfl, htime, fun m hm => ?_, ?_⟩
      · rw [hmemory]
        exact Function.update_of_ne hm _ _
      · rw [hmemory]
        dsimp only
        rw [Function.update_self]
        exact fiche_lue hvalide (ReglageAlarme.changer_days haccept (Fiche.lue_days _ n)) n

/-- **One request, with a device that owes nothing before and after**: it succeeds, and its
setting is what it asked for; or it fails. Nothing else changes. -/
theorem executer_device (textes : Textes) (d : DemandeAlarme) (s : Service) :
    ∃ added, Exchange added s (d.executer textes s).2 ∧
      ∀ {autres : UInt8 → List UInt8 → Option Reponse} {c c' : Side Memoire Reponse},
        (aml005 autres).Follows untouched c (surLien added) c' → c.owed = [] → c'.owed = [] →
        ∀ n k, ReglageAlarme.octets k ((c'.memory.alarmes n).lue n) =
          if (d.executer textes s).1.isOk = true ∧ d.alarme = n ∧ d.reglage = k then d.valeur textes
          else k.octets ((c.memory.alarmes n).lue n) := by
  obtain ⟨found, hfound, hcommand, hparent, hhandler⟩ := d.trouve
  have hvalue : found.command.valueSpec.type ≠ .none := by
    rw [hcommand]
    cases d.reglage <;> nofun
  unfold DemandeAlarme.executer
  rcases handlersRequest_cases textes d.chemin d.args s with ⟨hname, -⟩ | ⟨hname, -⟩ | ⟨e, heq⟩ |
    ⟨found', handler, value, hfound', hhandler', hcount, haccept, heq⟩
  · rw [hname] at hfound
    cases hfound
  · rw [hname] at hfound
    cases hfound
  · -- refused at once
    rw [heq]
    refine ⟨[], .refl s, fun {autres c c'} hfollows hc _ n k => ?_⟩
    obtain ⟨-, rfl⟩ := hfollows.silent hc (by simp [surLien])
    rw [if_neg (by simp [Except.isOk, Except.toBool])]
  · rw [hfound] at hfound'
    obtain rfl := Option.some.inj hfound'
    rw [hhandler] at hhandler'
    obtain rfl := Option.some.inj hhandler'
    rw [argumentsAttendus, if_neg hvalue] at hcount
    obtain ⟨arg, harg⟩ := List.length_eq_one_iff.mp hcount
    obtain ⟨htext, haccept⟩ := haccept arg [] harg
    rw [hcommand] at haccept
    have hcall : handlersRequest textes d.chemin d.args s =
        sansResultat (ecrireAlarme d.reglage.commande found.parent value) s := by
      rw [heq, ← hcommand]
      rfl
    rw [hcall, sansResultat_run]
    rcases hwrite : ecrireAlarme d.reglage.commande found.parent value s with ⟨r, later⟩
    obtain ⟨added, hex, hdevice⟩ := ecrireAlarme_device haccept hwrite
    refine ⟨added, hex, fun {autres c c'} hfollows hc hc' n k => ?_⟩
    have hok : (sansResultat (ecrireAlarme d.reglage.commande found.parent value) s).1.isOk = r.isOk := by
      rw [sansResultat, bind_run, hwrite]
      cases r <;> rfl
    rw [hok]
    rw [hparent] at hdevice
    rcases hdevice hfollows hc hc' with ⟨hnot, rfl⟩ | ⟨rfl, htime, hautre, hchange⟩
    · rw [if_neg (by simp [hnot])]
    · by_cases hn : d.alarme = n
      · subst hn
        rw [hchange]
        by_cases hk : d.reglage = k
        · subst hk
          rw [if_pos ⟨rfl, rfl, rfl⟩, ReglageAlarme.octets_changer haccept htime, DemandeAlarme.valeur,
            harg]
          dsimp only
          rw [htext]
          rfl
        · rw [if_neg (by simp [hk]), ReglageAlarme.octets_changer_autre (Ne.symm hk)]
      · rw [if_neg (by simp [hn]), hautre n (Ne.symm hn)]

end Request

/-! ### Requests one after the other -/

section Sequence

variable (textes : Textes)

/-- What was added to the journal from one state to another. -/
def ajoute (s s' : Service) : List Obs := s'.world.journal.drop s.world.journal.length

/-- The service after some requests. -/
def apresDemandes (s : Service) (ds : List DemandeAlarme) : Service :=
  ds.foldl (fun s d => (d.executer textes s).2) s

/-- Those that succeed. -/
def reussies (s : Service) : List DemandeAlarme → List DemandeAlarme
  | [] => []
  | d :: ds =>
    (if (d.executer textes s).1.isOk then [d] else []) ++ reussies (d.executer textes s).2 ds

/-- Every exchange in time: the device, that nobody touches, follows each request, and
after it owes no answer. -/
def EnTemps (autres : UInt8 → List UInt8 → Option Reponse) (s : Service) (c : Side Memoire Reponse) :
    List DemandeAlarme → Side Memoire Reponse → Prop
  | [], c' => c' = c
  | d :: ds, c' => ∃ ct, (aml005 autres).Follows untouched c (surLien (ajoute s (d.executer textes s).2)) ct ∧
      ct.owed = [] ∧ EnTemps autres (d.executer textes s).2 ct ds c'

/-- The last of the requests for a setting. -/
def derniere (ds : List DemandeAlarme) (n : Alarme) (k : ReglageAlarme) : Option DemandeAlarme :=
  (ds.filter fun d => d.alarme = n ∧ d.reglage = k).getLast?

variable {textes}

theorem ajoute_eq {s s' : Service} {added : List Obs} (h : Exchange added s s') : ajoute s s' = added := by
  rw [ajoute, h.world.journal, List.drop_left]

/-- The last of a list, or of what comes before it. -/
theorem derniere_cons (d : DemandeAlarme) (ds : List DemandeAlarme) (n : Alarme) (k : ReglageAlarme)
    (initial : List UInt8) (f : DemandeAlarme → List UInt8) :
    (derniere (d :: ds) n k).elim initial f =
      (derniere ds n k).elim (if d.alarme = n ∧ d.reglage = k then f d else initial) f := by
  unfold derniere
  rw [List.filter_cons]
  by_cases hd : d.alarme = n ∧ d.reglage = k
  · simp only [hd, and_self, decide_true, if_true, List.getLast?_cons]
    cases (ds.filter fun d => decide (d.alarme = n ∧ d.reglage = k)).getLast? <;> rfl
  · simp [hd]

/-- **A sequence of requests.** -/
theorem enTemps_octets {autres : UInt8 → List UInt8 → Option Reponse} {s : Service}
    {c c' : Side Memoire Reponse} {ds : List DemandeAlarme} (hc : c.owed = [])
    (h : EnTemps textes autres s c ds c') (n : Alarme) (k : ReglageAlarme) :
    k.octets ((c'.memory.alarmes n).lue n) = (derniere (reussies textes s ds) n k).elim
      (k.octets ((c.memory.alarmes n).lue n)) (·.valeur textes) ∧ c'.owed = [] := by
  induction ds generalizing s c with
  | nil =>
    cases h
    exact ⟨rfl, hc⟩
  | cons d ds ih =>
    obtain ⟨ct, hfollows, hct, hrest⟩ := h
    obtain ⟨hlast, howed⟩ := ih hct hrest
    refine ⟨?_, howed⟩
    obtain ⟨added, hex, hstep⟩ := executer_device textes d s
    rw [ajoute_eq hex] at hfollows
    rw [hlast, hstep hfollows hc hct n k, reussies]
    by_cases hok : (d.executer textes s).1.isOk = true
    · simp only [hok, if_true, true_and]
      rw [List.singleton_append, derniere_cons]
    · simp [hok]

/-- Of requests for different settings, at most one is for a given setting. -/
theorem derniere_perm {ds ds' : List DemandeAlarme} (hperm : ds'.Perm ds)
    (hdiff : ds.Pairwise fun d d' => ¬ (d.alarme = d'.alarme ∧ d.reglage = d'.reglage))
    (n : Alarme) (k : ReglageAlarme) : derniere ds' n k = derniere ds n k := by
  unfold derniere
  have hfilter := hperm.filter fun d => decide (d.alarme = n ∧ d.reglage = k)
  have hpair := hdiff.filter fun d => decide (d.alarme = n ∧ d.reglage = k)
  match hone : ds.filter fun d => decide (d.alarme = n ∧ d.reglage = k) with
  | [] =>
    rw [hone] at hfilter
    rw [List.perm_nil.mp hfilter, hone]
  | [d] =>
    rw [hone] at hfilter
    rw [List.perm_singleton.mp hfilter, hone]
  | d :: d' :: rest =>
    have hmem : ∀ x ∈ d :: d' :: rest, x.alarme = n ∧ x.reglage = k := by
      intro x hx
      rw [← hone] at hx
      simpa using (List.mem_filter.mp hx).2
    rw [hone] at hpair
    obtain ⟨halarme, hreglage⟩ := hmem d (by simp)
    obtain ⟨halarme', hreglage'⟩ := hmem d' (by simp)
    exact absurd ⟨halarme.trans halarme'.symm, hreglage.trans hreglage'.symm⟩
      ((List.pairwise_cons.mp hpair).1 d' (by simp))

/-- **The settings of the alarms.** After any requests `Alarm/<n>/<setting>`, with every
exchange in time, each setting of each alarm is what the last request for it that
succeeded asked for, or what it was; this is what a reading gives. So the order of
requests for different settings does not matter. -/
theorem alarmes_modifiees (textes : Textes) (autres : UInt8 → List UInt8 → Option Reponse) (s : Service)
    (c c' : Side Memoire Reponse) (ds : List DemandeAlarme) (hc : c.owed = [])
    (h : EnTemps textes autres s c ds c') :
    (∀ n (k : ReglageAlarme), k.octets ((c'.memory.alarmes n).lue n) =
      (derniere (reussies textes s ds) n k).elim (k.octets ((c.memory.alarmes n).lue n))
        (·.valeur textes)) ∧
    (∀ n alarm s'' c'', controlAlarmQuery n (apresDemandes textes s ds) = (.ok alarm, s'') →
      (aml005 autres).Follows untouched c' (surLien (ajoute (apresDemandes textes s ds) s'')) c'' →
        alarm = (c'.memory.alarmes n).lue n) ∧
    ∀ (s₂ : Service) (c₂ : Side Memoire Reponse) (ds₂ : List DemandeAlarme),
      EnTemps textes autres s₂ c ds₂ c₂ → (reussies textes s₂ ds₂).Perm (reussies textes s ds) →
      (reussies textes s ds).Pairwise (fun d d' => ¬ (d.alarme = d'.alarme ∧ d.reglage = d'.reglage)) →
        ∀ n, (c₂.memory.alarmes n).lue n = (c'.memory.alarmes n).lue n := by
  refine ⟨fun n k => (enTemps_octets hc h n k).1, fun n alarm s'' c'' hquery hfollows => ?_,
    fun s₂ c₂ ds₂ h₂ hperm hdiff n => ?_⟩
  · obtain ⟨added, hex, hread⟩ := controlAlarmQuery_device hquery
    rw [ajoute_eq hex] at hfollows
    rcases hread hfollows (enTemps_octets hc h 0 .enable).2 with ⟨hnot, -⟩ | ⟨halarm, -⟩
    · cases hnot
    · exact Except.ok.inj halarm
  · refine ReglageAlarme.ext_octets fun k => ?_
    rw [(enTemps_octets hc h n k).1, (enTemps_octets hc h₂ n k).1, derniere_perm hperm hdiff]

/-- The days of alarm 1 are set: the record is read, then written. -/
theorem alarmes_modifiees_jours :
    let s := run (serviceInit amlScripted (World.answering 1 0 [.quiet,
      .reply amlRspAlarm (0x81 :: ficheNulle.bytes), .quiet, .reply amlRspAlarm []])) [.sweetdawnTick]
    let d : DemandeAlarme := { alarme := 0, reglage := .days, args := [.int 5] }
    let c : Side Memoire Reponse :=
      { memory := { reglages := stateInit.reglages, alarmes := fun _ => ficheNulle }, owed := [] }
    ∃ c', EnTemps sansTexte statutSeul s c [d] c' ∧
      ReglageAlarme.octets .days ((c'.memory.alarmes 0).lue 0) = [5] := by
  intro s d c
  let added := ajoute s (d.executer sansTexte s).2
  have hsteps : (((surLien added).foldlM amlSimple.step c).map Side.owed) = some [] := by decide +kernel
  obtain ⟨c', hfollows, howed⟩ := Option.map_eq_some_iff.mp hsteps
  have htimely : EnTemps sansTexte statutSeul s c [d] c' := ⟨c', .of_steps hfollows, howed, rfl⟩
  refine ⟨c', htimely, ?_⟩
  rw [(alarmes_modifiees sansTexte statutSeul s c c' [d] rfl htimely).1]
  decide +kernel

end Sequence

end AmlService
