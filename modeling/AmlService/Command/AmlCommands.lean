import Mathlib.Data.List.Basic

/-!
# AmlService.Command.AmlCommands

The tree of commands of the AML005, as `aml_commands_init` (`command/aml_commands.c`)
builds it. No command of this tree has an alias. The position of a choice is the byte
sent to the AML.
-/

namespace AmlService

/-- The type of the value of a command; `none` for a group or an action. -/
inductive ValueType
  | none
  | bool
  | integer
  | number
  | string
  deriving Repr, DecidableEq

/-- What a command accepts: a type, inclusive bounds, a list of choices. -/
structure CommandValueSpec where
  type : ValueType
  range : Option (Int × Int)
  choices : List String
  deriving Repr, DecidableEq

/-- A node of the tree: a group, or a command without children. -/
structure Command where
  name : String
  description : String
  valueSpec : CommandValueSpec
  children : List Command
  deriving Repr

/-- `command_find_child`, in a tree without aliases. -/
def commandFindChild (parent : Command) (name : String) : Option Command :=
  parent.children.find? fun child => child.name == name

/-! ### Building the tree

One constructor for each kind of node, as `ajouter_commande` followed by `definir_booleen`,
`definir_entier`, `definir_texte` or `definir_choix`. -/

/-- A node without a value, and its children. -/
def groupe (name description : String) (children : List Command) : Command :=
  { name, description, valueSpec := { type := .none, range := none, choices := [] }, children }

/-- A command without a value. -/
def action (name description : String) : Command := groupe name description []

/-- `definir_booleen` -/
def booleen (name description : String) : Command :=
  { name, description, valueSpec := { type := .bool, range := none, choices := [] }, children := [] }

/-- `definir_entier`: from `minimum` to `maximum`, both allowed. -/
def entier (name description : String) (minimum maximum : Int) : Command :=
  { name, description
    valueSpec := { type := .integer, range := some (minimum, maximum), choices := [] }
    children := [] }

/-- `definir_texte`: a text whose form only its handler knows. -/
def texte (name description : String) : Command :=
  { name, description
    valueSpec := { type := .string, range := none, choices := [] }, children := [] }

/-- `definir_choix`: one of the texts of a list. -/
def choix (name description : String) (choices : List String) : Command :=
  { name, description, valueSpec := { type := .string, range := none, choices }, children := [] }

/-! ### The choices

The order is that of the protocol: the first choice is sent as 0. -/

def displayBrightnessValues : List String := ["L", "H", "A"]
def displayTimeValues : List String := ["24", "12"]
def timeModeValues : List String := ["auto", "manual"]
def snoozeValues : List String := ["1", "2", "5", "10", "20", "30"]
def toneValues : List String :=
  ["Buzzer", "Radio", "Melody 1", "Birds", "Bells", "Piano", "Melody 2"]
def sceneValues : List String :=
  ["Off", "Random", "Rainbow", "Rainbow Slow", "Fusion", "Pulse", "Wave", "Chill", "Action",
    "Forest", "Summer"]

/-! ### The groups -/

/-- `ajouter_parametres_alarme`: the same settings for both alarms. -/
def parametresAlarme : List Command :=
  [ booleen "Enable" "Activer ou désactiver l'alarme",
    texte "Time" "Heure de l'alarme au format HH:MM",
    entier "Days" "Jours actifs sous forme de masque binaire" 0 127,
    choix "Snooze" "Durée de répétition en minutes" snoozeValues,
    choix "Tone" "Son de l'alarme" toneValues,
    entier "Tone volume" "Volume du son de l'alarme" 1 10,
    booleen "Sunrise" "Activer ou désactiver le lever de soleil",
    entier "Sunrise duration" "Durée du lever de soleil en minutes" 2 60,
    entier "Sunrise brightness" "Luminosité maximale du lever de soleil" 1 100 ]

/-- The settings of the AML, and its clock. -/
def settingsGroup : Command := groupe "Settings" "Consulter les paramètres de l'AML"
  [ choix "Display brightness" "Luminosité de l'affichage" displayBrightnessValues,
    choix "Display time" "Format horaire de l'affichage" displayTimeValues,
    choix "Time" "Mode de gestion de l'heure" timeModeValues,
    booleen "Feedback" "Activer ou désactiver le retour sonore",
    booleen "Fade" "Activer ou désactiver le fondu lumineux",
    action "Sync time" "Mettre l'AML à l'heure du système",
    texte "Set time" "Régler l'heure de l'AML" ]

/-- The two alarms, and what can be done with the one that rings. -/
def alarmGroup : Command := groupe "Alarm" "Gérer les alarmes"
  [ groupe "1" "Consulter ou modifier l'alarme 1" parametresAlarme,
    groupe "2" "Consulter ou modifier l'alarme 2" parametresAlarme,
    action "Stop" "Arrêter l'alarme qui sonne",
    action "Snooze" "Répéter l'alarme qui sonne plus tard" ]

/-- The lamp. -/
def lightGroup : Command := groupe "Light" "Consulter ou modifier l'éclairage"
  [ booleen "Enable" "Activer ou désactiver l'éclairage",
    entier "Brightness" "Luminosité de l'éclairage" 0 100,
    booleen "Sunset" "Activer ou désactiver le coucher de soleil",
    entier "Sunset duration" "Durée du coucher de soleil en minutes" 1 60 ]

/-- The mood light. -/
def moodGroup : Command := groupe "Mood" "Consulter ou modifier l'éclairage d'ambiance"
  [ booleen "Enable" "Activer ou désactiver le mode Mood",
    texte "Color" "Couleur RGB de l'éclairage d'ambiance",
    entier "Brightness" "Luminosité du mode Mood" 0 100,
    booleen "Timer" "Activer ou désactiver le minuteur Mood",
    entier "Timer duration" "Durée du minuteur en minutes" 1 120,
    choix "Scene" "Scène lumineuse" sceneValues ]

/-- The radio; the four actions change its frequency. -/
def radioGroup : Command := groupe "Radio" "Consulter ou modifier la radio"
  [ booleen "Enable" "Activer ou désactiver la radio",
    action "<<" "Sélectionner la station détectée précédente",
    action "<" "Diminuer la fréquence de 0,1 MHz",
    action ">" "Augmenter la fréquence de 0,1 MHz",
    action ">>" "Sélectionner la station détectée suivante",
    entier "Channel" "Sélectionner un canal radio" 1 10,
    entier "Volume" "Volume de la radio" 1 10,
    booleen "Sleep timer" "Activer ou désactiver l'arrêt programmé",
    entier "Timer duration" "Durée avant l'arrêt en minutes" 1 60 ]

/-- The AML as a speaker. -/
def mediaPlayerGroup : Command := groupe "Media Player" "Utiliser l'AML comme haut-parleur"
  [ booleen "Enable" "Activer ou désactiver le haut-parleur Bluetooth" ]

/-- The tree built by `aml_commands_init`. -/
def amlCommands : Command := groupe "AML" "Racine des commandes AML"
  [settingsGroup, alarmGroup, lightGroup, moodGroup, radioGroup, mediaPlayerGroup]

end AmlService
