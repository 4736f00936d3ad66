import AmlService.Command.AmlCommands
import AmlService.Lib.Text

/-!
# AmlService.Command.Registry

Looking up a command by its path (`command/registry.c`) and checking the value it is
given (`command_validate_value`, `command/command.c`).
-/

namespace AmlService

open Text

/-! ### Paths -/

/-- A command found in the tree: its parent, and the names that lead to it. -/
structure Trouvee where
  command : Command
  parent : Command
  chemin : List String

/-- The loop of `registry_find_path` over the segments of the path. `chemin`: the names
gone through; none as long as the search is at the root, which its own name may
designate. -/
def chercherSegments (current : Command) (chemin : List String) : List String → Option Trouvee
  | [] => none
  | segment :: rest =>
    if segment = "" then none
    else if chemin = [] ∧ segment = current.name then chercherSegments current [] rest
    else
      match commandFindChild current segment with
      | none => none
      | some child =>
        if rest = [] then
          some { command := child, parent := current, chemin := chemin ++ [segment] }
        else chercherSegments child (chemin ++ [segment]) rest

/-- `registry_find_path` -/
def registryFindPath (root : Command) (path : String) : Option Trouvee :=
  chercherSegments root [] ((path.toList.splitOn '/').map String.ofList)

mutual

/-- The commands below one, as a search from it finds them. -/
def descendants (chemin : List String) : Command → List Trouvee
  | ⟨name, description, valueSpec, children⟩ =>
    descendantsDe ⟨name, description, valueSpec, children⟩ chemin children

/-- Some children of a command, and the commands below them. -/
def descendantsDe (parent : Command) (chemin : List String) : List Command → List Trouvee
  | [] => []
  | child :: children =>
    { command := child, parent, chemin := chemin ++ [child.name] } ::
      (descendants (chemin ++ [child.name]) child ++ descendantsDe parent chemin children)

end

theorem descendants_eq (chemin : List String) (command : Command) :
    descendants chemin command = descendantsDe command chemin command.children := by
  cases command
  rw [descendants]

/-- A child, and what is below it, are below its parent. -/
theorem mem_descendantsDe {parent child : Command} {chemin : List String} {children : List Command}
    (h : child ∈ children) :
    { command := child, parent, chemin := chemin ++ [child.name] } ∈ descendantsDe parent chemin children ∧
      ∀ found ∈ descendants (chemin ++ [child.name]) child, found ∈ descendantsDe parent chemin children := by
  induction children with
  | nil => exact absurd h (by simp)
  | cons first children ih =>
    rw [descendantsDe]
    rcases List.mem_cons.mp h with rfl | h
    · exact ⟨by simp, fun found hfound => by simp [hfound]⟩
    · obtain ⟨hchild, hbelow⟩ := ih h
      exact ⟨by simp [hchild], fun found hfound => by simp [hbelow found hfound]⟩

theorem chercherSegments_mem {current : Command} {chemin segments : List String} {found : Trouvee}
    (h : chercherSegments current chemin segments = some found) : found ∈ descendants chemin current := by
  induction segments generalizing current chemin with
  | nil => cases h
  | cons segment rest ih =>
    unfold chercherSegments at h
    split at h
    · cases h
    split at h
    · next hroot =>
      rw [hroot.1]
      exact ih h
    split at h
    · cases h
    next child hchild =>
    have hmem : child ∈ current.children := List.mem_of_find?_eq_some hchild
    obtain rfl : child.name = segment := by simpa using List.find?_some hchild
    rw [descendants_eq]
    split at h
    · cases h
      exact (mem_descendantsDe hmem).1
    · exact (mem_descendantsDe hmem).2 found (ih h)

/-- **What a path finds** is below the root. -/
theorem registryFindPath_mem {root : Command} {path : String} {found : Trouvee}
    (h : registryFindPath root path = some found) : found ∈ descendants [] root :=
  chercherSegments_mem h

/-! ### Values -/

/-- `strtod`, which no command of the tree needs: the value and what follows it; `none`
without a number, out of range, or if it is not finite. -/
abbrev Strtod := List Char → Option (Rat × List Char)

/-- The check of an integer, in `command_validate_value`. -/
def validerEntier (range : Option (Int × Int)) (value : String) : Except String Unit :=
  if value = "" then .error "Un entier est attendu."
  else
    match strtoll value.toList with
    | none => .error "Valeur entière invalide."
    | some (entier, outOfRange, rest) =>
      if outOfRange ∨ rest ≠ [] then .error "Valeur entière invalide."
      else
        -- compared as numbers of type double, like the bounds
        let nombre := toDouble entier
        match range with
        | none => .ok ()
        | some (minimum, maximum) =>
          if nombre < minimum ∨ nombre > maximum then
            .error "L'entier est hors des limites autorisées."
          else .ok ()

/-- The check of a number, in `command_validate_value`. -/
def validerNombre (strtod : Strtod) (range : Option (Int × Int)) (value : String) :
    Except String Unit :=
  if value = "" then .error "Un nombre est attendu."
  else
    match strtod value.toList with
    | none => .error "Valeur numérique invalide."
    | some (nombre, rest) =>
      if rest ≠ [] then .error "Valeur numérique invalide."
      else
        match range with
        | none => .ok ()
        | some (minimum, maximum) =>
          if nombre < minimum ∨ nombre > maximum then
            .error "Le nombre est hors des limites autorisées."
          else .ok ()

/-- `command_validate_value`: accepted, or the text of the error. -/
def commandValidateValue (strtod : Strtod) (command : Command) (value : String) :
    Except String Unit :=
  let spec := command.valueSpec
  match spec.type with
  | .none => .error "Cette commande n'accepte pas de valeur."
  | .bool =>
    if value = "true" ∨ value = "false" then .ok ()
    else .error "Valeur booléenne attendue : true ou false."
  | .integer => validerEntier spec.range value
  | .number => validerNombre strtod spec.range value
  | .string =>
    if spec.choices = [] ∨ value ∈ spec.choices then .ok ()
    else .error "La valeur ne fait pas partie des choix autorisés."

/-! ### What is accepted -/

/-- **An integer accepted** is a decimal integer between the bounds, the one that `strtol`
reads. The bounds are to be exact as numbers of type double. -/
theorem validerEntier_ok {minimum maximum : Int} {value : String}
    (h : validerEntier (some (minimum, maximum)) value = .ok ())
    (hmin : -doubleExact < minimum) (hmax : maximum < doubleExact) :
    ∃ n, Decimal value.toList n ∧ strtol value.toList = n ∧ minimum ≤ n ∧ n ≤ maximum := by
  unfold validerEntier at h
  split at h
  · cases h
  split at h
  · cases h
  next n outOfRange rest hread =>
  split at h
  · cases h
  next hwhole =>
  rw [not_or, not_not] at hwhole
  obtain ⟨hrange, rfl⟩ := hwhole
  dsimp only at h
  split at h
  · cases h
  next hbounds =>
  obtain rfl : outOfRange = false := by simpa using hrange
  obtain ⟨hdecimal, hstrtol⟩ := strtoll_exact hread
  have hcompare := toDouble_cases n
  exact ⟨n, hdecimal, hstrtol, by omega, by omega⟩

end AmlService
