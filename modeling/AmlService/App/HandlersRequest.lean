import AmlService.App.Handlers
import AmlService.Command.Registry

/-!
# AmlService.App.HandlersRequest

One request of a client, from its name and its arguments (`handlers_request`,
`app/handlers.c`): the command is looked up in the tree, its value checked by the
tree, and its handler called.
-/

namespace AmlService

open Effect

/-! ### The table of the handlers -/

/-- `REGLAGES_ALARME` -/
def reglagesAlarme : List String :=
  ["Enable", "Time", "Days", "Snooze", "Tone", "Tone volume", "Sunrise", "Sunrise duration",
    "Sunrise brightness"]

/-- `LIAISONS`, and what `handlers_attach` adds for the two alarms. -/
def liaisons : List (String × CommandHandler) :=
  [ ("Settings", .lireReglages),
    ("Settings/Display brightness", .ecrireReglage),
    ("Settings/Display time", .ecrireReglage),
    ("Settings/Time", .ecrireReglage),
    ("Settings/Feedback", .ecrireReglage),
    ("Settings/Fade", .ecrireReglage),
    ("Settings/Sync time", .synchroniserHeure),
    ("Settings/Set time", .reglerHeure),
    ("Alarm", .lireAlarmes),
    ("Alarm/1", .lireAlarme),
    ("Alarm/2", .lireAlarme),
    ("Alarm/Stop", .agirSurAlarme),
    ("Alarm/Snooze", .agirSurAlarme),
    ("Light", .lireLumiere),
    ("Light/Enable", .ecrireLumiere),
    ("Light/Brightness", .ecrireLumiere),
    ("Light/Sunset", .ecrireLumiere),
    ("Light/Sunset duration", .ecrireLumiere),
    ("Mood", .lireLumiere),
    ("Mood/Enable", .ecrireLumiere),
    ("Mood/Color", .ecrireLumiere),
    ("Mood/Brightness", .ecrireLumiere),
    ("Mood/Timer", .ecrireLumiere),
    ("Mood/Timer duration", .ecrireLumiere),
    ("Mood/Scene", .ecrireLumiere),
    ("Radio", .lireRadio),
    ("Radio/Enable", .ecrireRadio),
    ("Radio/<<", .changerFrequence),
    ("Radio/<", .changerFrequence),
    ("Radio/>", .changerFrequence),
    ("Radio/>>", .changerFrequence),
    ("Radio/Channel", .ecrireRadio),
    ("Radio/Volume", .ecrireRadio),
    ("Radio/Sleep timer", .ecrireRadio),
    ("Radio/Timer duration", .ecrireRadio),
    ("Media Player/Enable", .ecrireHautParleur) ] ++
  ["1", "2"].flatMap fun number =>
    reglagesAlarme.map fun name => ("Alarm/" ++ number ++ "/" ++ name, .ecrireAlarme)

/-- The handler of the command that these names lead to. -/
def handlerDe (chemin : List String) : Option CommandHandler :=
  liaisons.lookup ("/".intercalate chemin)

/-- `handlers_attach` succeeds: every path of the table leads to the command that its
names designate. -/
theorem liaisons_trouvees : ∀ liaison ∈ liaisons,
    (registryFindPath amlCommands liaison.1).map (fun found => "/".intercalate found.chemin) =
      some liaison.1 := by
  decide +kernel

/-! ### The request -/

/-- The names of the types of values. -/
def ValueType.nom : ValueType → String
  | .none => "none"
  | .bool => "bool"
  | .integer => "integer"
  | .number => "number"
  | .string => "string"

mutual

/-- `commande_json` -/
def commandeJson (chemin : List String) : Command → JsonValue
  | ⟨name, description, spec, children⟩ =>
    .obj ([("name", .str name), ("description", .str description), ("type", .str spec.type.nom)] ++
      (match spec.range with
        | none => []
        | some (minimum, maximum) => [("min", .int minimum), ("max", .int maximum)]) ++
      (if spec.choices = [] then [] else [("choices", .arr (spec.choices.map .str))]) ++
      [("implemented", .bool (handlerDe chemin).isSome)] ++
      (if children.isEmpty then [] else [("children", .arr (commandesJson chemin children))]))

/-- The children of a command. -/
def commandesJson (chemin : List String) : List Command → List JsonValue
  | [] => []
  | child :: children =>
    commandeJson (chemin ++ [child.name]) child :: commandesJson chemin children

end

/-- What `handlers_request` takes from outside: `strtod`, and the text json-c makes of an
array or an object. -/
structure Textes where
  strtod : Strtod
  imprimer : JsonValue → String

/-- For requests that need neither. -/
def sansTexte : Textes := { strtod := fun _ => none, imprimer := fun _ => "" }

/-- `json_object_get_string`; a null value has no text. -/
def jsonObjectGetString (textes : Textes) : JsonValue → Option String
  | .null => none
  | .bool b => some (if b then "true" else "false")
  | .int n => some (toString n)
  | .number text => some text
  | .str s => some (Text.cString s)
  | value => some (Text.cString (textes.imprimer value))

/-- Number of values a command expects. -/
def argumentsAttendus (command : Command) : Nat :=
  if command.valueSpec.type = .none then 0 else 1

/-- The value of a request, once accepted: for an action or a group there is none, and no
handler looks at it. -/
def valeurAcceptee (textes : Textes) (command : Command) : List JsonValue → HandlerM String
  | [] => return ""
  | arg :: _ =>
    match jsonObjectGetString textes arg with
    -- the text of the error is then the one the server has prepared
    | none => echec "INVALID_VALUE" "La commande a echoue"
    | some value =>
      match commandValidateValue textes.strtod command value with
      | .error message => echec "INVALID_VALUE" message
      | .ok () => return value

/-- `handlers_request` -/
def handlersRequest (textes : Textes) (name : String) (args : List JsonValue) :
    HandlerM JsonValue :=
  if name = "status" ∨ name = "commands" then
    if args ≠ [] then echec "INVALID_ARGUMENTS" "Cette commande n'accepte aucun argument"
    else if name = "status" then Fallible.lift statusJson
    else return commandeJson [] amlCommands
  else
    match registryFindPath amlCommands name with
    | none => echec "UNKNOWN_COMMAND" "Commande inconnue (voir la commande \"commands\")"
    | some found =>
      let expected := argumentsAttendus found.command
      if args.length ≠ expected then
        echec "INVALID_ARGUMENTS" (if expected = 0 then "Cette commande n'accepte aucun argument"
          else "Cette commande attend une valeur")
      else do
        let value ← valeurAcceptee textes found.command args
        match handlerDe found.chemin with
        | none => echec "COMMAND_NOT_IMPLEMENTED" "Cette commande n'est pas encore implementee"
        | some handler => handler.call found.command found.parent value

/-- Days accepted stay in their seven bits. -/
theorem jours_acceptes {value : String} (haccept : validerEntier (some (0, 127)) value = .ok ()) :
    lireEntier value &&& 0x7F = lireEntier value := by
  obtain ⟨n, -, hread, hmin, hmax⟩ := validerEntier_ok haccept (by decide) (by decide)
  obtain ⟨m, rfl⟩ := Int.eq_ofNat_of_zero_le hmin
  have hm : m < 128 := by omega
  rw [lireEntier, hread, ofInt_natCast]
  apply UInt8.toNat_inj.mp
  have hmask : ∀ m < 128, m % 256 &&& 127 = m % 256 := by decide
  exact hmask m hm

/-! ### How a request goes -/

section Cases

variable {textes : Textes} {name : String} {args : List JsonValue} {s : Service}

/-- The value is accepted or refused; the service does not move. -/
theorem valeurAcceptee_cases (textes : Textes) (command : Command) (args : List JsonValue) (s : Service) :
    (∃ message, valeurAcceptee textes command args s = (.error ⟨"INVALID_VALUE", message⟩, s)) ∨
      ∃ value, valeurAcceptee textes command args s = (.ok value, s) ∧
        ∀ arg rest, args = arg :: rest → jsonObjectGetString textes arg = some value ∧
          commandValidateValue textes.strtod command value = .ok () := by
  cases args with
  | nil => exact .inr ⟨"", rfl, nofun⟩
  | cons arg rest =>
    unfold valeurAcceptee
    dsimp only
    cases hvalue : jsonObjectGetString textes arg with
    | none => exact .inl ⟨_, rfl⟩
    | some value =>
      dsimp only
      cases haccept : commandValidateValue textes.strtod command value with
      | error message => exact .inl ⟨message, rfl⟩
      | ok _ =>
        refine .inr ⟨value, rfl, fun a r heq => ?_⟩
        obtain ⟨rfl, rfl⟩ := List.cons.inj heq
        exact ⟨hvalue, haccept⟩

/-- **What a request can be**: one of the two of the root; or refused at once; or the call
of the handler of a command, with a value that the tree accepts. -/
theorem handlersRequest_cases (textes : Textes) (name : String) (args : List JsonValue) (s : Service) :
    (name = "status" ∧ handlersRequest textes name args s = (.ok (statusJson s).1, (statusJson s).2)) ∨
      (name = "commands" ∧ handlersRequest textes name args s = (.ok (commandeJson [] amlCommands), s)) ∨
      (∃ e, handlersRequest textes name args s = (.error e, s)) ∨
      ∃ found handler value, registryFindPath amlCommands name = some found ∧
        handlerDe found.chemin = some handler ∧ args.length = argumentsAttendus found.command ∧
        (∀ arg rest, args = arg :: rest → jsonObjectGetString textes arg = some value ∧
          commandValidateValue textes.strtod found.command value = .ok ()) ∧
        handlersRequest textes name args s = handler.call found.command found.parent value s := by
  unfold handlersRequest
  by_cases hroot : name = "status" ∨ name = "commands"
  · rw [if_pos hroot]
    by_cases hargs : args ≠ []
    · rw [if_pos hargs]
      exact .inr (.inr (.inl ⟨_, rfl⟩))
    · rw [if_neg hargs]
      by_cases hstatus : name = "status"
      · rw [if_pos hstatus]
        exact .inl ⟨hstatus, rfl⟩
      · rw [if_neg hstatus]
        exact .inr (.inl ⟨hroot.resolve_left hstatus, rfl⟩)
  rw [if_neg hroot]
  cases hfound : registryFindPath amlCommands name with
  | none => exact .inr (.inr (.inl ⟨_, rfl⟩))
  | some found =>
    dsimp only
    by_cases hcount : args.length ≠ argumentsAttendus found.command
    · rw [if_pos hcount]
      exact .inr (.inr (.inl ⟨_, rfl⟩))
    rw [if_neg hcount]
    rcases valeurAcceptee_cases textes found.command args s with ⟨message, hvalue⟩ |
      ⟨value, hvalue, haccept⟩
    · exact .inr (.inr (.inl ⟨_, bind_run_error hvalue⟩))
    rw [bind_run_ok hvalue]
    cases hhandler : handlerDe found.chemin with
    | none => exact .inr (.inr (.inl ⟨_, rfl⟩))
    | some handler =>
      exact .inr (.inr (.inr ⟨found, handler, value, rfl, hhandler, not_not.mp hcount, haccept, rfl⟩))

/-- The request of a setting that succeeds: its handler has succeeded. -/
theorem handlersRequest_reglage {result : JsonValue} {s' : Service} {found : Trouvee}
    {handler : CommandHandler} (h : handlersRequest textes name args s = (.ok result, s'))
    (hfound : registryFindPath amlCommands name = some found)
    (hroot : name ≠ "status" ∧ name ≠ "commands")
    (hhandler : handlerDe found.chemin = some handler) (hvalue : found.command.valueSpec.type ≠ .none) :
    ∃ arg value, args = [arg] ∧ jsonObjectGetString textes arg = some value ∧
      commandValidateValue textes.strtod found.command value = .ok () ∧
      handler.call found.command found.parent value s = (.ok result, s') := by
  rcases handlersRequest_cases textes name args s with ⟨hname, -⟩ | ⟨hname, -⟩ | ⟨e, heq⟩ |
    ⟨found', handler', value, hfound', hhandler', hcount, haccept, heq⟩
  · exact absurd hname hroot.1
  · exact absurd hname hroot.2
  · rw [heq] at h
    cases h
  · rw [hfound] at hfound'
    obtain rfl := Option.some.inj hfound'
    rw [hhandler] at hhandler'
    obtain rfl := Option.some.inj hhandler'
    rw [argumentsAttendus, if_neg hvalue] at hcount
    obtain ⟨arg, rfl⟩ := List.length_eq_one_iff.mp hcount
    obtain ⟨htext, hvalid⟩ := haccept arg [] rfl
    exact ⟨arg, value, rfl, htext, hvalid, heq ▸ h⟩

end Cases

end AmlService
