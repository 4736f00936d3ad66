import AmlService.App.Refusals
import AmlService.Core.Written

/-!
# AmlService.App.Validation

The value of a setting, from the text that the tree accepts to the frame that the AML
receives. The tree checks the text (`command_validate_value`), the handler converts it
again (`lire_booleen`, `lire_entier`, `index_choix`): both read the same value, and it is
the byte sent.
-/

namespace AmlService

open Effect Text

/-! ### What a text denotes -/

/-- On the device, 0 is on for these two. -/
def Command.inverse (command : Command) : Bool := command.name == "Feedback" || command.name == "Fade"

/-- A boolean, an integer or a choice. -/
def Command.reglable (command : Command) : Bool :=
  match command.valueSpec.type with
  | .bool | .integer => true
  | .string => !command.valueSpec.choices.isEmpty
  | _ => false

/-- The byte is the one that the text denotes: 1 or 0; an integer within the bounds of the
command; a position in its list. -/
def Denote (command : Command) (value : String) (byte : UInt8) : Prop :=
  match command.valueSpec.type with
  | .bool =>
    value = "true" ∧ byte = boolByte (!command.inverse) ∨ value = "false" ∧ byte = boolByte command.inverse
  | .integer =>
    ∃ minimum maximum n, command.valueSpec.range = some (minimum, maximum) ∧ Decimal value.toList n ∧
      minimum ≤ n ∧ n ≤ maximum ∧ (byte.toNat : Int) = n
  | _ => indexChoix command value = byte.toNat ∧ command.valueSpec.choices[byte.toNat]? = some value

/-! ### What a handler reads -/

/-- The conversion that a handler makes. -/
inductive Lecture
  | booleen (inverse : Bool)
  | entier
  | choix
  deriving Repr, DecidableEq

def Lecture.octet (lecture : Lecture) (command : Command) (value : String) : UInt8 :=
  match lecture with
  | .booleen false => boolByte (lireBooleen value)
  | .booleen true => if lireBooleen value then 0 else 1
  | .entier => lireEntier value
  | .choix => UInt8.ofInt (indexChoix command value)

/-- The conversion suits the command, and a byte is enough. -/
def Lecture.convient (lecture : Lecture) (command : Command) : Bool :=
  let spec := command.valueSpec
  match lecture with
  | .booleen inverse => decide (spec.type = .bool) && inverse == command.inverse
  | .entier =>
    decide (spec.type = .integer) &&
      spec.range.any fun (minimum, maximum) => decide (0 ≤ minimum ∧ maximum ≤ 255)
  | .choix =>
    decide (spec.type = .string) && !spec.choices.isEmpty && decide (spec.choices.length ≤ 256)

/-- **A text accepted** is converted into what it denotes. -/
theorem octet_denote {lecture : Lecture} {command : Command} {value : String} {strtod : Strtod}
    (hsuits : lecture.convient command = true)
    (haccept : commandValidateValue strtod command value = .ok ()) :
    Denote command value (lecture.octet command value) := by
  unfold Denote
  cases lecture with
  | booleen inverse =>
    simp only [Lecture.convient, Bool.and_eq_true, decide_eq_true_eq, beq_iff_eq] at hsuits
    obtain ⟨htype, rfl⟩ := hsuits
    rw [commandValidateValue, htype] at haccept
    rw [htype]
    dsimp only at haccept ⊢
    split at haccept
    · next hvalue =>
      rcases hvalue with rfl | rfl
      · exact .inl ⟨rfl, by cases command.inverse <;> rfl⟩
      · exact .inr ⟨rfl, by cases command.inverse <;> rfl⟩
    · cases haccept
  | entier =>
    simp only [Lecture.convient, Bool.and_eq_true, decide_eq_true_eq, Option.any_eq_true] at hsuits
    obtain ⟨htype, ⟨minimum, maximum⟩, hrange, hbounds⟩ := hsuits
    rw [commandValidateValue, htype, hrange] at haccept
    rw [htype]
    obtain ⟨hmin, hmax⟩ := hbounds
    obtain ⟨n, hdecimal, hread, hlow, hhigh⟩ := validerEntier_ok haccept
      (Int.lt_of_lt_of_le (by decide) hmin) (Int.lt_of_le_of_lt hmax (by decide))
    refine ⟨minimum, maximum, n, hrange, hdecimal, hlow, hhigh, ?_⟩
    obtain ⟨m, rfl⟩ := Int.eq_ofNat_of_zero_le (Int.le_trans hmin hlow)
    have hsmall : m < UInt8.size := by
      show m < 256
      omega
    rw [Lecture.octet, lireEntier, hread, ofInt_natCast, UInt8.toNat_ofNat_of_lt' hsmall]
  | choix =>
    simp only [Lecture.convient, Bool.and_eq_true, decide_eq_true_eq] at hsuits
    obtain ⟨⟨htype, hchoices⟩, hlength⟩ := hsuits
    rw [commandValidateValue, htype] at haccept
    rw [htype]
    dsimp only at haccept ⊢
    have hmem : value ∈ command.valueSpec.choices := by
      split at haccept
      · next hvalue => exact hvalue.resolve_left (by simpa using hchoices)
      · cases haccept
    have hlt : command.valueSpec.choices.idxOf value < command.valueSpec.choices.length :=
      List.idxOf_lt_length_iff.mpr hmem
    have hsmall : command.valueSpec.choices.idxOf value < UInt8.size := Nat.lt_of_lt_of_le hlt hlength
    have hbyte : (Lecture.choix.octet command value).toNat = command.valueSpec.choices.idxOf value := by
      rw [Lecture.octet, indexChoix_mem hmem, ofInt_natCast, UInt8.toNat_ofNat_of_lt' hsmall]
    rw [hbyte, indexChoix_mem hmem, List.getElem?_eq_getElem hlt, List.getElem_idxOf]
    exact ⟨rfl, rfl⟩

/-! ### Where it goes -/

/-- Where the value stands in the frames of a command. `entete`: the bytes that the data
begin with. -/
inductive Emplacement
  | donnee (code : UInt8) (entete : List UInt8) (position : Nat)
  | marche (allumer eteindre : UInt8) (entete : List UInt8)
  deriving Repr, DecidableEq

/-- The request carries the value. -/
def Emplacement.vise (place : Emplacement) (code : UInt8) (data : List UInt8) : Bool :=
  match place with
  | .donnee own entete _ => code == own && entete.isPrefixOf data
  | .marche allumer eteindre entete => (code == allumer || code == eteindre) && entete.isPrefixOf data

/-- The value that the request carries. -/
def Emplacement.lit (place : Emplacement) (code : UInt8) (data : List UInt8) : UInt8 :=
  match place with
  | .donnee _ _ position => octet data position
  | .marche allumer _ _ => boolByte (code == allumer)

abbrev Emplacement.Vise (place : Emplacement) (request : List UInt8) : Prop :=
  place.vise (octet request amlFrameCodeOffset) (frameData request) = true

abbrev Emplacement.Porte (place : Emplacement) (byte : UInt8) (request : List UInt8) : Prop :=
  place.lit (octet request amlFrameCodeOffset) (frameData request) = byte

/-- A setting in the hands of its handler. -/
structure Champ where
  place : Emplacement
  lecture : Lecture
  deriving Repr, DecidableEq

/-- The settings of `Settings`: their places in one frame. -/
def champReglage (name : String) : Option Champ :=
  let dans (position : Nat) (lecture : Lecture) : Option Champ :=
    some ⟨.donnee amlReqWriteSettings [] position, lecture⟩
  match name with
  | "Display brightness" => dans 0 .choix
  | "Display time" => dans 1 .choix
  | "Time" => dans 2 .choix
  | "Feedback" => dans 3 (.booleen true)
  | "Fade" => dans 4 (.booleen true)
  | _ => none

/-- The settings of an alarm: their places in one frame. -/
def champAlarme (number : Alarme) (name : String) : Option Champ :=
  let dans (position : Nat) (lecture : Lecture) : Option Champ :=
    some ⟨.donnee amlReqAlarm [indexAlarme number] position, lecture⟩
  match name with
  | "Enable" => dans 1 (.booleen false)
  | "Days" => dans 4 .entier
  | "Tone" => dans 5 .choix
  | "Tone volume" => dans 6 .entier
  | "Snooze" => dans 7 .choix
  | "Sunrise" => dans 8 (.booleen false)
  | "Sunrise duration" => dans 9 .entier
  | "Sunrise brightness" => dans 10 .entier
  | _ => none

/-- The settings of a light, each in a frame of its own. -/
def champLumiere (target : ControlLightTarget) (name : String) : Option Champ :=
  match name with
  | "Enable" => some ⟨.marche amlReqLightOn amlReqLightOff [target.byte], .booleen false⟩
  | "Brightness" => some ⟨.donnee amlReqLightBrightness [target.byte] 1, .entier⟩
  | "Sunset" | "Timer" => some ⟨.marche amlReqLightTimerOn amlReqLightTimerOff [target.byte], .booleen false⟩
  | "Sunset duration" | "Timer duration" => some ⟨.donnee amlReqLightTimer [target.byte] 1, .entier⟩
  | "Scene" => some ⟨.donnee amlReqMoodScene [] 0, .choix⟩
  | _ => none

/-- The settings of the radio. -/
def champRadio (name : String) : Option Champ :=
  match name with
  | "Enable" => some ⟨.donnee amlReqRadioEnable [] 0, .booleen false⟩
  | "Channel" => some ⟨.donnee amlReqRadioPreset [] 0, .entier⟩
  | "Volume" => some ⟨.donnee amlReqRadioVolume [] 0, .entier⟩
  | "Sleep timer" => some ⟨.donnee amlReqRadioTimerEnable [] 0, .booleen false⟩
  | "Timer duration" => some ⟨.donnee amlReqRadioTimer [] 0, .entier⟩
  | _ => none

/-- The setting of a command, with its handler. -/
def champDe (handler : CommandHandler) (command parent : Command) : Option Champ :=
  match handler with
  | .ecrireReglage => champReglage command.name
  | .ecrireAlarme => champAlarme (numeroAlarme parent) command.name
  | .ecrireLumiere => champLumiere (cible parent) command.name
  | .ecrireRadio => champRadio command.name
  | .ecrireHautParleur => some ⟨.marche amlReqSpeakerOn amlReqSpeakerOff [], .booleen false⟩
  | _ => none

/-- What the days of an alarm accept. -/
def joursSpec : CommandValueSpec := { type := .integer, range := some (0, 127), choices := [] }

/-- Every setting of the tree has a handler, which reads it as the tree does; the days are
seven bits. -/
def Trouvee.verifie (found : Trouvee) : Bool :=
  (handlerDe found.chemin).any fun handler =>
    (champDe handler found.command found.parent).any fun champ =>
      champ.lecture.convient found.command &&
        (found.command.name != "Days" || decide (found.command.valueSpec = joursSpec))

theorem arbre_verifie :
    ∀ found ∈ descendants [] amlCommands, found.command.reglable = true → found.verifie = true := by
  decide +kernel

/-! ### The handlers -/

/-- One write, in which the value stands at its place. -/
abbrev EcritValeur {σ ε α : Type} (place : Emplacement) (byte : UInt8) (m : Fallible ε (SweetDawn σ) α) : Prop :=
  Ecrit place.Vise (place.Porte byte) m

section Control

variable {σ : Type} {place : Emplacement} {byte : UInt8}

/-- A frame is its code and its data. -/
theorem frame_porte {code : UInt8} {data : List UInt8} (hvise : place.vise code data = true)
    (hlit : place.lit code data = byte) (request : List UInt8)
    (hbuild : protocolBuildRequest code data requestBufferSize = some request) :
    place.Vise request ∧ place.Porte byte request := by
  rw [Emplacement.Vise, Emplacement.Porte, protocolBuildRequest_code hbuild,
    protocolBuildRequest_data hbuild]
  exact ⟨hvise, hlit⟩

/-- A frame that is not about the setting. -/
theorem frame_autre {code : UInt8} {data : List UInt8} (hvise : place.vise code data = false)
    (request : List UInt8) (hbuild : protocolBuildRequest code data requestBufferSize = some request) :
    place.Vise request → place.Porte byte request := by
  rw [Emplacement.Vise, protocolBuildRequest_code hbuild, protocolBuildRequest_data hbuild, hvise]
  exact nofun

/-- Settings are written as they are laid out. -/
theorem controlSettingsWrite_ecrit {position : Nat} {settings : AmlState}
    (hlit : octet settings.bytes position = byte) :
    EcritValeur (.donnee amlReqWriteSettings [] position) byte
      (controlSettingsWrite settings : AmlM σ Unit) := by
  refine Ecrit.before (demander_ecrit (by decide) 0 0 (frame_porte rfl hlit)) fun _ => .act fun _ => ?_
  exact .silent (by simp) rfl

theorem controlLightEnable_ecrit (target : ControlLightTarget) (enable : Bool) :
    EcritValeur (.marche amlReqLightOn amlReqLightOff [target.byte]) (boolByte enable)
      (controlLightEnable target enable : AmlM σ Unit) :=
  envoyer_ecrit (frame_porte (by cases target <;> cases enable <;> rfl) (by cases enable <;> rfl))

theorem controlLightBrightness_ecrit (target : ControlLightTarget) (brightness : UInt8) :
    EcritValeur (.donnee amlReqLightBrightness [target.byte] 1) brightness
      (controlLightBrightness target brightness : AmlM σ Unit) :=
  .ite (fun _ => .throw _) fun _ => envoyer_ecrit (frame_porte (by cases target <;> rfl) rfl)

theorem controlLightTimerEnable_ecrit (target : ControlLightTarget) (enable : Bool) :
    EcritValeur (.marche amlReqLightTimerOn amlReqLightTimerOff [target.byte]) (boolByte enable)
      (controlLightTimerEnable target enable : AmlM σ Unit) :=
  envoyer_ecrit (frame_porte (by cases target <;> cases enable <;> rfl) (by cases enable <;> rfl))

theorem controlLightTimer_ecrit (target : ControlLightTarget) (minutes : UInt8) :
    EcritValeur (.donnee amlReqLightTimer [target.byte] 1) minutes
      (controlLightTimer target minutes : AmlM σ Unit) :=
  envoyer_ecrit (frame_porte (by cases target <;> rfl) rfl)

theorem controlMoodScene_ecrit (scene : UInt8) :
    EcritValeur (.donnee amlReqMoodScene [] 0) scene (controlMoodScene scene : AmlM σ Unit) :=
  envoyer_ecrit (frame_porte rfl rfl)

theorem controlAlarmWrite_ecrit {number : Alarme} {position : Nat} {alarm : ControlAlarm}
    (hlit : octet (alarmBytes number alarm) position = byte) :
    EcritValeur (.donnee amlReqAlarm [indexAlarme number] position) byte
      (controlAlarmWrite number alarm : AmlM σ Unit) := by
  have hvise : (Emplacement.donnee amlReqAlarm [indexAlarme number] position).vise amlReqAlarm
      (alarmBytes number alarm) = true := by
    simp [Emplacement.vise, alarmBytes]
  exact .ite (fun _ => .throw _) fun _ =>
    (demander_ecrit (by decide) 0 0 (frame_porte hvise hlit)).before_pure _

theorem controlRadioEnable_ecrit (enable : Bool) :
    EcritValeur (.donnee amlReqRadioEnable [] 0) (boolByte enable)
      (controlRadioEnable enable : AmlM σ Unit) :=
  (demander_ecrit (by decide) 0 0 (frame_porte rfl rfl)).before_pure _

theorem controlRadioPreset_ecrit (channel : UInt8) :
    EcritValeur (.donnee amlReqRadioPreset [] 0) channel (controlRadioPreset channel : AmlM σ Unit) :=
  .ite (fun _ => .throw _) fun _ => (demander_ecrit (by decide) 0 0 (frame_porte rfl rfl)).before_pure _

theorem controlRadioVolume_ecrit (volume : UInt8) :
    EcritValeur (.donnee amlReqRadioVolume [] 0) volume (controlRadioVolume volume : AmlM σ Unit) :=
  envoyer_ecrit (frame_porte rfl rfl)

theorem controlRadioTimerEnable_ecrit (enable : Bool) :
    EcritValeur (.donnee amlReqRadioTimerEnable [] 0) (boolByte enable)
      (controlRadioTimerEnable enable : AmlM σ Unit) :=
  envoyer_ecrit (frame_porte rfl rfl)

theorem controlRadioTimer_ecrit (minutes : UInt8) :
    EcritValeur (.donnee amlReqRadioTimer [] 0) minutes (controlRadioTimer minutes : AmlM σ Unit) :=
  envoyer_ecrit (frame_porte rfl rfl)

theorem controlSpeakerEnable_ecrit (enable : Bool) :
    EcritValeur (.marche amlReqSpeakerOn amlReqSpeakerOff []) (boolByte enable)
      (controlSpeakerEnable enable : AmlM σ Unit) := by
  refine .ite (fun hoff => ?_) fun hon => ?_
  · obtain rfl : enable = false := by simpa using hoff
    exact envoyer_ecrit (frame_porte rfl rfl)
  · obtain rfl : enable = true := by simpa using hon
    exact (demander_ecrit (by decide) 0 0 (frame_porte rfl rfl)).before_pure _

/-- The reading of an alarm carries no setting. -/
theorem controlAlarmQuery_emet (number : Alarme) (position : Nat) :
    let place := Emplacement.donnee amlReqAlarm [indexAlarme number] position
    Keeps (Emet fun request => place.Vise request → place.Porte byte request)
      (controlAlarmQuery number : AmlM σ ControlAlarm) := by
  intro place
  refine .bind (demander_emet (by decide) 0 11 (frame_autre ?_)) fun _ =>
    .ite (fun _ => .throw _) fun _ => .pure _
  have hread : ∀ n : Alarme, (indexAlarme n == indexAlarme n ||| alarmReadFlag) = false := by decide
  simp [place, Emplacement.vise, List.isPrefixOf, hread]

/-- Neither does the time. -/
theorem controlSyncTime_emet (now : Tm) (position : Nat) :
    let place := Emplacement.donnee amlReqWriteSettings [] position
    Keeps (Emet fun request => place.Vise request → place.Porte byte request)
      (controlSyncTime now : AmlM σ Unit) := by
  intro place
  exact .ite (fun _ => .throw _) fun _ =>
    .bind (demander_emet (by decide) 0 0 (frame_autre rfl)) fun _ => .pure _

end Control

section Handlers

variable {command parent : Command} {champ : Champ}

/-- Back in `auto`, the place of `Settings/Time` holds 0, and only that. -/
theorem envoyerHeure_emet (tm : Tm) :
    let place := Emplacement.donnee amlReqWriteSettings [] 2
    Keeps (Emet fun request => place.Vise request → place.Porte 0 request) (envoyerHeure tm) := by
  intro place
  have hauto : Keeps (Emet fun request => place.Vise request → place.Porte 0 request) repasserEnAuto :=
    .bind .get fun _ => .ite (fun _ => ((controlSettingsWrite_ecrit rfl).mapError _).emet) fun _ => .pure _
  refine .bind .get fun _ => .ite (fun _ => .throw _) fun _ => .bind hauto fun _ => ?_
  refine .bind ((controlSyncTime_emet tm 2).mapError _) fun _ => .act fun s => ?_
  exact .silent (by simp [heureNotee]) (noterHeure_recorded tm s).world.journal

theorem ecrireReglage_ecrit (hchamp : champReglage command.name = some champ) (value : String) :
    EcritValeur champ.place (champ.lecture.octet command value) (ecrireReglage command value) := by
  obtain ⟨position, hplace, htime, hlit⟩ : ∃ position,
      champ.place = .donnee amlReqWriteSettings [] position ∧ (command.name = "Time" → position = 2) ∧
        ∀ settings, octet (changerReglage command value settings).bytes position =
          champ.lecture.octet command value := by
    unfold changerReglage
    generalize command.name = name at hchamp ⊢
    unfold champReglage at hchamp
    dsimp only at hchamp
    split at hchamp <;> cases hchamp <;> exact ⟨_, rfl, by decide, fun _ => rfl⟩
  rw [hplace]
  refine .after .get fun s => .ite (fun _ => .throw _) fun _ => ?_
  refine .before ((controlSettingsWrite_ecrit (hlit _)).mapError _) fun _ => .ite ?_ fun _ => .pure _
  intro hback
  simp only [Bool.and_eq_true, beq_iff_eq] at hback
  obtain rfl := htime hback.1
  have hzero : champ.lecture.octet command value = 0 := (hlit s.state).symm.trans hback.2
  rw [hzero]
  exact .bind (.lift fun _ => refl_of (Emet _) _) fun tm => envoyerHeure_emet tm

theorem ecrireAlarme_ecrit (hchamp : champAlarme (numeroAlarme parent) command.name = some champ)
    {value : String} (hdays : command.name = "Days" → lireEntier value &&& 0x7F = lireEntier value) :
    EcritValeur champ.place (champ.lecture.octet command value) (ecrireAlarme command parent value) := by
  generalize hnumber : numeroAlarme parent = number at hchamp
  obtain ⟨position, hplace, hlit⟩ : ∃ position, champ.place = .donnee amlReqAlarm [indexAlarme number] position ∧
      ∀ time alarm, octet (alarmBytes number (changerReglageAlarme command value time alarm)) position =
        champ.lecture.octet command value := by
    unfold changerReglageAlarme
    generalize command.name = name at hchamp hdays ⊢
    unfold champAlarme at hchamp
    dsimp only at hchamp
    split at hchamp <;> cases hchamp
    case h_2 => exact ⟨_, rfl, fun _ _ => hdays rfl⟩
    all_goals exact ⟨_, rfl, fun _ _ => rfl⟩
  rw [hplace]
  unfold ecrireAlarme
  rw [hnumber]
  refine .ite (fun _ => .throw _) fun _ => ?_
  refine .after (.mapError (controlAlarmQuery_emet number position) _) fun alarm => ?_
  exact (controlAlarmWrite_ecrit (hlit _ alarm)).mapError _

theorem ecrireLumiere_ecrit (hchamp : champLumiere (cible parent) command.name = some champ)
    (value : String) :
    EcritValeur champ.place (champ.lecture.octet command value) (ecrireLumiere command parent value) := by
  unfold ecrireLumiere
  generalize command.name = name at hchamp ⊢
  generalize cible parent = target at hchamp ⊢
  unfold champLumiere at hchamp
  split at hchamp <;> cases hchamp
  · exact .mapError (controlLightEnable_ecrit target _) _
  · exact .mapError (controlLightBrightness_ecrit target _) _
  · exact .mapError (controlLightTimerEnable_ecrit target _) _
  · exact .mapError (controlLightTimerEnable_ecrit target _) _
  · exact .mapError (controlLightTimer_ecrit target _) _
  · exact .mapError (controlLightTimer_ecrit target _) _
  · exact .mapError (controlMoodScene_ecrit _) _

theorem ecrireRadio_ecrit (hchamp : champRadio command.name = some champ) (value : String) :
    EcritValeur champ.place (champ.lecture.octet command value) (ecrireRadio command value) := by
  unfold ecrireRadio
  generalize command.name = name at hchamp ⊢
  unfold champRadio at hchamp
  split at hchamp <;> cases hchamp
  · exact .mapError (controlRadioEnable_ecrit _) _
  · exact .mapError (controlRadioPreset_ecrit _) _
  · exact .mapError (controlRadioVolume_ecrit _) _
  · exact .mapError (controlRadioTimerEnable_ecrit _) _
  · exact .mapError (controlRadioTimer_ecrit _) _

/-- **A handler writes the value it reads**, at the place of its setting. -/
theorem call_ecrit {handler : CommandHandler} (hchamp : champDe handler command parent = some champ)
    {value : String} (hdays : command.name = "Days" → lireEntier value &&& 0x7F = lireEntier value) :
    EcritValeur champ.place (champ.lecture.octet command value) (handler.call command parent value) := by
  cases handler with
  | ecrireReglage => exact (ecrireReglage_ecrit hchamp value).before_pure _
  | ecrireAlarme => exact (ecrireAlarme_ecrit hchamp hdays).before_pure _
  | ecrireLumiere => exact (ecrireLumiere_ecrit hchamp value).before_pure _
  | ecrireRadio => exact (ecrireRadio_ecrit hchamp value).before_pure _
  | ecrireHautParleur =>
    cases hchamp
    exact ((controlSpeakerEnable_ecrit _).mapError _).before_pure _
  | _ => cases hchamp

end Handlers

/-! ### The requests -/

/-- **What is refused sends nothing; what is accepted sends what it says.** -/
theorem requete_validee (textes : Textes) (name : String) (args : List JsonValue) (s : Service) :
    (∀ e s', handlersRequest textes name args s = (.error e, s') → e.code ∈ codesRefus →
        s'.state = s.state ∧ s'.world.journal = s.world.journal) ∧
      ∀ found arg value, registryFindPath amlCommands name = some found → found.command.reglable = true →
        args = [arg] → jsonObjectGetString textes arg = some value →
        commandValidateValue textes.strtod found.command value = .ok () →
        ∃ handler champ byte, handlerDe found.chemin = some handler ∧
          champDe handler found.command found.parent = some champ ∧ Denote found.command value byte ∧
          ∃ added, (handlersRequest textes name args s).2.world.journal = s.world.journal ++ added ∧
            (∀ request, .sent request ∈ added → champ.place.Vise request → champ.place.Porte byte request) ∧
            ((handlersRequest textes name args s).1.isOk = true →
              ∃ request, .sent request ∈ added ∧ champ.place.Vise request) := by
  refine ⟨fun e s' h he => ?_, ?_⟩
  · obtain ⟨hstate, hjournal⟩ := handlersRequest_refuses textes name args s e s' h he
    exact ⟨hstate, hjournal⟩
  · rintro found arg value hfound hreglable rfl htext haccept
    have hverifie := arbre_verifie found (registryFindPath_mem hfound) hreglable
    simp only [Trouvee.verifie, Option.any_eq_true, Bool.and_eq_true, Bool.or_eq_true, bne_iff_ne,
      decide_eq_true_eq] at hverifie
    obtain ⟨handler, hhandler, champ, hchamp, hsuits, hspec⟩ := hverifie
    have hdays : found.command.name = "Days" → lireEntier value &&& 0x7F = lireEntier value := by
      intro hname
      rw [commandValidateValue, hspec.resolve_left (not_not_intro hname)] at haccept
      exact jours_acceptes haccept
    refine ⟨handler, champ, champ.lecture.octet found.command value, hhandler, hchamp,
      octet_denote hsuits haccept, ?_⟩
    rcases handlersRequest_cases textes name [arg] s with ⟨rfl, -⟩ | ⟨rfl, -⟩ | ⟨e, heq⟩ |
      ⟨found', handler', value', hfound', hhandler', -, hvalue, heq⟩
    · cases hfound
    · cases hfound
    · rw [heq]
      exact ⟨[], (List.append_nil _).symm, by simp, nofun⟩
    · obtain rfl := Option.some.inj (hfound.symm.trans hfound')
      obtain rfl := Option.some.inj (hhandler.symm.trans hhandler')
      obtain rfl := Option.some.inj (htext.symm.trans (hvalue arg [] rfl).1)
      rw [heq]
      exact call_ecrit hchamp hdays s

/-- A brightness out of range is refused; one in range is sent. -/
theorem requete_validee_luminosite :
    let s := run (serviceInit amlScripted (.scripted (releve 0 ++ [.quiet]))) [.sweetdawnTick]
    (handlersRequest sansTexte "Light/Brightness" [.int 101] s).2.world.journal = s.world.journal ∧
      ∃ byte, Denote (enfant lightGroup "Brightness") "42" byte ∧
        ∃ request, .sent request ∈ (handlersRequest sansTexte "Light/Brightness" [.int 42] s).2.world.journal ∧
          (Emplacement.donnee amlReqLightBrightness [1] 1).Porte byte request := by
  intro s
  have hrefused : handlersRequest sansTexte "Light/Brightness" [.int 101] s =
      (.error ⟨"INVALID_VALUE", "L'entier est hors des limites autorisées."⟩, s) := rfl
  obtain ⟨hearly, -⟩ := requete_validee sansTexte "Light/Brightness" [.int 101] s
  have hsame := hearly _ _ hrefused (by decide)
  refine ⟨hsame.2, ?_⟩
  obtain ⟨-, hlate⟩ := requete_validee sansTexte "Light/Brightness" [.int 42] s
  obtain ⟨handler, champ, byte, hhandler, hchamp, hdenote, added, hjournal, hall, hone⟩ :=
    hlate _ _ "42" rfl rfl rfl rfl rfl
  obtain rfl : CommandHandler.ecrireLumiere = handler := Option.some.inj hhandler
  obtain rfl : Champ.mk (.donnee amlReqLightBrightness [1] 1) .entier = champ := Option.some.inj hchamp
  obtain ⟨request, hr, hvise⟩ := hone (by decide +kernel)
  exact ⟨byte, hdenote, request, by rw [hjournal]; exact List.mem_append_right _ hr, hall request hr hvise⟩

end AmlService
