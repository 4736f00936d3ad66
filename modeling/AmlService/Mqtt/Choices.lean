import AmlService.App.HandlersRequest
import AmlService.Mqtt.Channels

/-!
# AmlService.Mqtt.Choices

The lists of choices that the bridge announces (`apply_service_choices`,
`mqtt/sweetdawn_mqtt.py`): those of the tree that the service answers to `commands`.
-/

namespace AmlService

namespace Channels

/-- The path of a child. -/
def childPath (path name : String) : String := if path = "" then name else path ++ "/" ++ name

/-- A text. -/
def asText : JsonValue → Option String
  | .str s => some s
  | _ => none

/-- The texts of a list. -/
def asTexts : JsonValue → Option (List String)
  | .arr items => items.mapM asText
  | _ => none

/-- The list of a child takes the place of the one there was. `none`: it is not a list of texts. -/
def takeChoices (choices : Choices) (path : String) (child : JsonValue) : Option Choices :=
  match child.get? "choices" with
  | some list =>
    if (choices.lookup path).isSome ∧ truthy list then
      (asTexts list).map fun items => dictSet path items choices
    else some choices
  | none => some choices

mutual

/-- `walk`. `none`: the tree is not what the service makes; this raises, or leaves something else
than lists of texts. -/
def walk (path : String) (choices : Choices) : JsonValue → Option Choices
  | .obj fields => walkFields path choices fields
  | _ => none

/-- `node.get("children", [])`, and the loop. -/
def walkFields (path : String) (choices : Choices) : List (String × JsonValue) → Option Choices
  | [] => some choices
  | (name, value) :: fields =>
    if name = "children" then walkNodes path choices value else walkFields path choices fields

def walkNodes (path : String) (choices : Choices) : JsonValue → Option Choices
  | .arr children => walkChildren path choices children
  | _ => none

def walkChildren (path : String) (choices : Choices) : List JsonValue → Option Choices
  | [] => some choices
  | child :: children =>
    match (child.get? "name").bind asText with
    | none => none
    | some name =>
      match takeChoices choices (childPath path name) child with
      | none => none
      | some choices =>
        match walk (childPath path name) choices child with
        | none => none
        | some choices => walkChildren path choices children

end

/-- The list of a command takes the place of the one there was. -/
def takeCommand (choices : Choices) (found : Trouvee) : Choices :=
  if (choices.lookup ("/".intercalate found.chemin)).isSome ∧ found.command.valueSpec.choices ≠ [] then
    dictSet ("/".intercalate found.chemin) found.command.valueSpec.choices choices
  else choices

section Tree

variable {path : String} {choices : Choices} {names chemin : List String}

theorem asTexts_texts (items : List String) : asTexts (.arr (items.map .str)) = some items := by
  show (items.map .str).mapM asText = some items
  induction items with
  | nil => rfl
  | cons item items ih => simp [ih, asText]

theorem childPath_intercalate (h : "" ∉ names) (name : String) :
    childPath ("/".intercalate names) name = "/".intercalate (names ++ [name]) := by
  by_cases hnames : names = []
  · subst hnames
    simp [childPath]
  · have hne : "/".intercalate names ≠ "" := by
      obtain ⟨first, rest, rfl⟩ := List.exists_cons_of_ne_nil hnames
      have hfirst : first ≠ "" := fun heq => h (by simp [heq])
      intro heq
      cases rest <;> simp_all
    rw [childPath, if_neg hne, String.intercalate_append_of_ne_nil hnames (by simp), String.intercalate_singleton]

theorem get_commandeJson (command : Command) :
    (commandeJson chemin command).get? "name" = some (.str command.name) ∧
      (commandeJson chemin command).get? "choices" =
        if command.valueSpec.choices = [] then none else some (.arr (command.valueSpec.choices.map .str)) := by
  obtain ⟨name, description, ⟨type, range, list⟩, children⟩ := command
  rw [commandeJson]
  refine ⟨by simp [JsonValue.get?], ?_⟩
  cases range <;> by_cases hlist : list = [] <;> cases children <;> simp [JsonValue.get?, hlist]

theorem takeChoices_commandeJson (command : Command) :
    takeChoices choices path (commandeJson chemin command) =
      some (if (choices.lookup path).isSome ∧ command.valueSpec.choices ≠ [] then
        dictSet path command.valueSpec.choices choices else choices) := by
  rw [takeChoices, (get_commandeJson command).2]
  by_cases hlist : command.valueSpec.choices = []
  · simp [hlist]
  · have htruthy : truthy (.arr (command.valueSpec.choices.map .str)) = true := by
      simpa [truthy] using hlist
    rw [if_neg hlist]
    dsimp only
    rw [htruthy, asTexts_texts]
    by_cases hknown : (choices.lookup path).isSome = true <;> simp [hknown, hlist]

/-- The fields that come before the children. -/
theorem walkFields_append {fields rest : List (String × JsonValue)}
    (h : ∀ field ∈ fields, field.1 ≠ "children") :
    walkFields path choices (fields ++ rest) = walkFields path choices rest := by
  induction fields with
  | nil => rfl
  | cons field fields ih =>
    obtain ⟨hfield, hfields⟩ := List.forall_mem_cons.mp h
    obtain ⟨name, value⟩ := field
    rw [List.cons_append, walkFields, if_neg hfield, ih hfields]

mutual

/-- **The lists of a tree are taken**, command by command. -/
theorem walk_commandeJson {names chemin : List String} (command : Command) (hnames : "" ∉ names)
    (hbelow : ∀ found ∈ descendants names command, found.command.name ≠ "") (choices : Choices) :
    walk ("/".intercalate names) choices (commandeJson chemin command) =
      some ((descendants names command).foldl takeCommand choices) := by
  obtain ⟨name, description, spec, children⟩ := command
  rw [descendants] at hbelow ⊢
  rw [commandeJson, walk, walkFields_append]
  · cases children with
    | nil => simp [walkFields, descendantsDe]
    | cons child children =>
      have hchildren := @walkChildren_commandesJson names chemin ⟨name, description, spec, child :: children⟩
        (child :: children) hnames hbelow choices
      simpa [walkFields, walkNodes] using hchildren
  · obtain ⟨type, range, list⟩ := spec
    cases range <;> by_cases hlist : list = [] <;> simp [hlist]

theorem walkChildren_commandesJson {names chemin : List String} (parent : Command) (children : List Command)
    (hnames : "" ∉ names) (hbelow : ∀ found ∈ descendantsDe parent names children, found.command.name ≠ "")
    (choices : Choices) :
    walkChildren ("/".intercalate names) choices (commandesJson chemin children) =
      some ((descendantsDe parent names children).foldl takeCommand choices) := by
  cases children with
  | nil => simp [commandesJson, walkChildren, descendantsDe]
  | cons child children =>
    rw [descendantsDe, List.forall_mem_cons, List.forall_mem_append] at hbelow
    obtain ⟨hchild, hdeep, hrest⟩ := hbelow
    have hnames' : "" ∉ names ++ [child.name] := by
      rw [List.mem_append, List.mem_singleton, not_or]
      exact ⟨hnames, fun heq => hchild heq.symm⟩
    rw [commandesJson, walkChildren, (get_commandeJson child).1]
    simp only [Option.bind_some, asText, childPath_intercalate hnames, takeChoices_commandeJson]
    rw [walk_commandeJson child hnames' hdeep]
    simp only [walkChildren_commandesJson parent children hnames hrest, descendantsDe, List.foldl_cons,
      List.foldl_append]
    rfl

end

end Tree

end Channels

end AmlService
