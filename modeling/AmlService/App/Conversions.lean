import AmlService.Command.AmlCommands
import AmlService.Core.Control
import AmlService.Lib.Text

/-!
# AmlService.App.Conversions

Texts and values (`app/handlers.c`, sections Conversions and the `*_json` functions
that look at nothing but their arguments): the value of a request as bytes for the
AML, the bytes of the AML as JSON for a client.
-/

namespace AmlService

open Text

/-! ### From a request -/

/-- `lire_booleen` -/
def lireBooleen (value : String) : Bool := value == "true"

/-- `lire_entier` -/
def lireEntier (value : String) : UInt8 := UInt8.ofInt (strtol value.toList)

/-- `index_choix`: the position of a choice, -1 if it is none. -/
def indexChoix (command : Command) (value : String) : Int :=
  match command.valueSpec.choices.findIdx? (· == value) with
  | some i => i
  | none => -1

/-- A choice that is one of those of the command has a position. -/
theorem indexChoix_mem {command : Command} {value : String} (h : value ∈ command.valueSpec.choices) :
    indexChoix command value = command.valueSpec.choices.idxOf value := by
  have hfound : command.valueSpec.choices.findIdx? (· == value) =
      some (command.valueSpec.choices.idxOf value) :=
    List.findIdx?_eq_some_iff_findIdx_eq.mpr ⟨List.idxOf_lt_length_iff.mpr h, rfl⟩
  rw [indexChoix, hfound]

theorem ofInt_natCast (n : Nat) : UInt8.ofInt n = UInt8.ofNat n := by
  apply UInt8.toNat_inj.mp
  simp [UInt8.ofInt]
  omega

/-- `lire_heure`: `HH:MM`. -/
def lireHeure (value : String) : Option (UInt8 × UInt8) :=
  match sscanf [.unsigned (some 2), .lit ':', .unsigned (some 2), .char] value.toList with
  | [h, m] => if h > 23 ∨ m > 59 then none else some (UInt8.ofInt h, UInt8.ofInt m)
  | _ => none

/-- `lire_couleur`: `R,G,B`. -/
def lireCouleur (value : String) : Option (UInt8 × UInt8 × UInt8) :=
  match sscanf [.unsigned none, .lit ',', .unsigned none, .lit ',', .unsigned none, .char]
      value.toList with
  | [r, g, b] =>
    if r > 255 ∨ g > 255 ∨ b > 255 then none
    else some (UInt8.ofInt r, UInt8.ofInt g, UInt8.ofInt b)
  | _ => none

/-! ### To a client -/

/-- `nom_choix`: a choice of a child of `group`, by its position. -/
def nomChoix (group : Command) (childName : String) (index : Nat) : Option String :=
  (commandFindChild group childName).bind fun child => child.valueSpec.choices[index]?

/-- `ajouter_texte`: a choice of a child of `group`, or `null`. -/
def choixJson (group : Command) (childName : String) (index : UInt8) : JsonValue :=
  .ofText? (nomChoix group childName index.toNat)

/-- `reglages_json`; feedback and fade are inverted, 0 is on. -/
def reglagesJson (group : Command) (state : AmlState) : JsonValue :=
  .obj [
    ("display_brightness", choixJson group "Display brightness" state.display),
    ("display_time", choixJson group "Display time" state.date),
    ("time", choixJson group "Time" state.time),
    ("feedback", .bool (state.feedback == 0)),
    ("fade", .bool (state.fade == 0))]

/-- `cible`: which light a group is about. -/
def cible (group : Command) : ControlLightTarget := if group.name == "Mood" then .mood else .light

/-- `lumiere_json` -/
def lumiereJson (group : Command) (light : ControlLight) : JsonValue :=
  let common := [("enable", .bool light.enable), ("brightness", .int light.brightness.toNat)]
  match cible group with
  | .light => .obj (common ++ [
      ("sunset", .bool light.timerEnable),
      ("sunset_duration", .int light.timerMinutes.toNat)])
  | .mood => .obj (common ++ [
      ("timer", .bool light.timerEnable),
      ("timer_duration", .int light.timerMinutes.toNat),
      ("color", .str (toString light.red.toNat ++ "," ++ toString light.green.toNat ++ "," ++
        toString light.blue.toNat)),
      ("scene", choixJson group "Scene" light.scene)])

/-- `frequence_json`: tenths of MHz, printed in MHz. -/
def frequenceJson (frequency : Nat) : JsonValue :=
  .number (toString (frequency / 10) ++ "." ++ toString (frequency % 10))

/-- The JSON object of `lire_radio`. -/
def radioJson (radio : ControlRadio) : JsonValue :=
  .obj [
    ("enable", .bool radio.enable),
    ("channel", .int radio.channel.toNat),
    ("frequency", frequenceJson radio.frequency),
    ("volume", .int radio.volume.toNat),
    ("sleep_timer", .bool radio.timerEnable),
    ("timer_duration", .int radio.timerMinutes.toNat)]

end AmlService
