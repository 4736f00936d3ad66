import AmlService.Aml.Transport
import AmlService.Lib.Effect
import AmlService.Lib.Json
import Mathlib.Data.Fin.Basic
import Mathlib.Logic.Function.Basic

/-!
# AmlService.Core.Config

The configuration of the devices (`core/config.c`): one JSON file, checked whole, and the
choice of a device by its name.

json-c has no value for `null`: what it gives for a file it cannot read, for the document
`null` and for a field or an entry that is `null` is the same null pointer, `JsonValue.null`
here. A C string is the text before its NUL; of the messages, the whole text is kept, before
it is cut to the buffer of the caller.
-/

namespace AmlService

open Effect

/-- `CONFIG_MAX_AMLS` -/
abbrev configMaxAmls : Nat := 32

/-- `CONFIG_NAME_MAX` -/
abbrev configNameMax : Nat := 64

/-- `CONFIG_MAC_LENGTH` -/
abbrev configMacLength : Nat := 18

/-- The configuration: an array, of which the first `count` entries are devices. -/
structure AppConfig where
  devices : Fin configMaxAmls → AmlConfig
  count : Nat

/-- `devices[i] = device` -/
def AppConfig.put (config : AppConfig) (i : Fin configMaxAmls) (device : AmlConfig) : AppConfig :=
  { config with devices := Function.update config.devices i device }

@[simp] theorem AppConfig.put_devices (config : AppConfig) (i j : Fin configMaxAmls) (device : AmlConfig) :
    (config.put i device).devices j = if j = i then device else config.devices j := by
  simp [put, Function.update_apply]

/-! ### Texts -/

/-- The bytes of a text, in UTF-8. -/
def bytes (text : String) : List UInt8 := text.toList.flatMap String.utf8EncodeChar

/-- `strlen` -/
def strlen (text : List UInt8) : Nat := (text.takeWhile (· ≠ 0)).length

/-- A hexadecimal digit. -/
def isHex (c : UInt8) : Bool :=
  (48 ≤ c && c ≤ 57) || (97 ≤ c && c ≤ 102) || (65 ≤ c && c ≤ 70)

/-- What `valid_mac` asks of the character at `i`: every third one is a colon. -/
def macChar (mac : List UInt8) (i : Nat) : Bool :=
  if i % 3 = 2 then mac.getD i 0 == 58 else isHex (mac.getD i 0)

/-- `valid_mac` -/
def validMac (mac : String) : Bool :=
  if strlen (bytes mac) ≠ 17 then false
  else (List.range 17).all (macChar (bytes mac))

/-! ### Fields -/

/-- `read_string`: the text to be copied in the field of the device. -/
def readString (object : JsonValue) (key : String) (capacity : Nat) : Except String String :=
  match object.get? key with
  | some (.str text) =>
    let length := (bytes text).length
    if length = 0 ∨ length ≥ capacity then .error s!"Champ '{key}' vide ou trop long."
    else if strlen (bytes text) ≠ length then .error s!"Champ '{key}' contient un caractère invalide."
    else .ok text
  | _ => .error s!"Champ '{key}' absent ou non textuel."

/-- `json_object_get_int`: brought back to the nearest bound when out of range. -/
def jsonObjectGetInt (n : Int) : Int := max (-0x80000000) (min 0x7FFFFFFF n)

/-- `read_channel` -/
def readChannel (object : JsonValue) : Except String Int :=
  match object.get? "AML_CHN" with
  | some (.int n) =>
    let number := jsonObjectGetInt n
    if number < 1 ∨ number > 30 then
      .error s!"Canal RFCOMM invalide : {number} (valeurs admises : 1 à 30)."
    else .ok number
  | _ => .error "Champ 'AML_CHN' absent ou non entier."

/-- `parse_device`; what was read before a failure stays in the device. -/
def parseDevice (object : JsonValue) : Fallible String AmlConfig Unit :=
  match object with
  | .obj _ => do
    let name ← readString object "name" configNameMax
    Fallible.act fun device => { device with name }
    let amlMac ← readString object "AML_MAC" configMacLength
    Fallible.act fun device => { device with amlMac }
    let amlChn ← readChannel object
    Fallible.act fun device => { device with amlChn }
    let bltMac ← readString object "BLT_MAC" configMacLength
    Fallible.act fun device => { device with bltMac }
    if validMac amlMac then
      if validMac bltMac then return ()
      else throw s!"Adresse BLT_MAC invalide pour '{name}'."
    else throw s!"Adresse AML_MAC invalide pour '{name}'."
  | _ => throw "Chaque entrée de la configuration doit être un objet JSON."

/-! ### Loading -/

/-- The loop of `config_load`, from entry `i` on. -/
def loadEntries : (entries : List JsonValue) → (i : Nat) → i + entries.length ≤ configMaxAmls →
    Fallible String AppConfig Unit
  | [], _, _ => return ()
  | entry :: entries, i, h => fun config =>
    let slot : Fin configMaxAmls := ⟨i, by rw [List.length_cons] at h; omega⟩
    match parseDevice entry (config.devices slot) with
    | (.error message, device) => (.error message, { config.put slot device with count := 0 })
    | (.ok (), device) =>
      let config := config.put slot device
      -- its name is compared with those before
      if ∃ j < slot, (config.devices j).name = (config.devices slot).name then
        (.error s!"Nom d'appareil dupliqué : '{(config.devices slot).name}'.", { config with count := 0 })
      else loadEntries entries (i + 1) (by rw [List.length_cons] at h; omega) config

/-- `config_load`, once the file is read. -/
def loadRoot (path : String) (root : JsonValue) : Fallible String AppConfig Unit := do
  Fallible.act fun config => { config with count := 0 }
  match root with
  | .null => throw s!"Impossible de lire ou d'analyser le JSON '{path}'."
  | .arr items =>
    if items.length = 0 then throw "La configuration ne contient aucun appareil."
    else if h : items.length ≤ configMaxAmls then do
      loadEntries items 0 (by omega)
      Fallible.act fun config => { config with count := items.length }
    else throw s!"Trop d'appareils : {items.length} (maximum : {configMaxAmls})."
  | _ => throw s!"La racine de '{path}' doit être un tableau JSON."

/-- `config_load`; `fromFile` is `json_object_from_file`. -/
def configLoad (fromFile : String → JsonValue) (path : Option String) (config : Option AppConfig) :
    Except String Unit × Option AppConfig :=
  match path, config with
  | some path, some config =>
    let (r, config) := loadRoot path (fromFile path) config
    (r, some config)
  | _, _ => (.error "Chemin de fichier ou configuration invalide.", config)

/-- `config_select`: the place of the device. -/
def configSelect (config : Option AppConfig) (name : Option String) : Option (Fin configMaxAmls) :=
  match config with
  | none => none
  | some config =>
    if config.count = 0 then none
    else
      match name with
      | none | some "" => some 0
      | some name => Fin.find? fun i => decide (i.val < config.count) && (config.devices i).name == name

end AmlService
