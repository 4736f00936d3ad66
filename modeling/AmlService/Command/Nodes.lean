import AmlService.Command.AmlCommands
import Mathlib.Logic.Function.Basic

/-!
# AmlService.Command.Nodes

The nodes of the tree of commands as `command/command.c` links them in memory: each one
with its name, its aliases, the pointers to its children and to its parent. The objects
belong to the callers, who may initialise, link and clear them in any order.

A pointer argument that may be `NULL` is an `Option`; `alloue` says that the `realloc`
of the call, if it needs one, succeeds. The two functions that follow pointers have a
`fuel`, `none` being a call that has not returned.
-/

namespace AmlService.CommandNodes

/-- `Command`, for handlers of type `H`. -/
structure Node (ι H : Type) where
  name : String
  description : Option String
  aliases : List String
  aliasCapacity : Nat
  children : List ι
  childCapacity : Nat
  parent : Option ι
  valueSpec : CommandValueSpec
  handler : Option H

/-- The objects `Command` of a program, initialised or not. -/
abbrev Memoire (ι H : Type) := ι → Node ι H

variable {ι H : Type}

/-- `nom_correspond` -/
def nomCorrespond (command : Node ι H) (name : String) : Bool :=
  command.name == name || command.aliases.any (· == name)

/-- `identifiants_en_collision` -/
def identifiantsEnCollision (a b : Node ι H) : Bool :=
  nomCorrespond b a.name || a.aliases.any (nomCorrespond b)

/-- A capacity doubles (4, 8, 16...). -/
def agrandir (capacite : Nat) : Nat := if capacite = 0 then 4 else capacite * 2

/-- The two tables of a node with no place left, or with some. -/
def reserver (count capacite : Nat) (alloue : Bool) : Option Nat :=
  if count < capacite then some capacite
  else if alloue then some (agrandir capacite) else none

/-- `reserver_aliases` -/
def reserverAliases (command : Node ι H) (alloue : Bool) : Option (Node ι H) :=
  (reserver command.aliases.length command.aliasCapacity alloue).map fun capacite =>
    { command with aliasCapacity := capacite }

/-- `reserver_enfants` -/
def reserverEnfants (command : Node ι H) (alloue : Bool) : Option (Node ι H) :=
  (reserver command.children.length command.childCapacity alloue).map fun capacite =>
    { command with childCapacity := capacite }

section Calls

variable [DecidableEq ι]

/-- `command_init` -/
def commandInit (m : Memoire ι H) (command : Option ι) (name description : Option String)
    (handler : Option H) : Int × Memoire ι H :=
  match command, name with
  | some command, some name =>
    if name = "" then (-1, m)
    else
      (0, Function.update m command
        { name, description, handler
          aliases := [], aliasCapacity := 0, children := [], childCapacity := 0, parent := none
          valueSpec := { type := .none, range := none, choices := [] } })
  | _, _ => (-1, m)

/-- Whether a sibling of `command` answers to `autre`. -/
def soeurRepond (m : Memoire ι H) (command : ι) (autre : String) : Bool :=
  match (m command).parent with
  | none => false
  | some parent =>
    (m parent).children.any fun sibling => sibling != command && nomCorrespond (m sibling) autre

/-- `command_add_alias` -/
def commandAddAlias (m : Memoire ι H) (command : Option ι) (autre : Option String) (alloue : Bool) :
    Int × Memoire ι H :=
  match command, autre with
  | some command, some autre =>
    if autre = "" then (-1, m)
    else if nomCorrespond (m command) autre then (-1, m)
    else if soeurRepond m command autre then (-1, m)
    else
      match reserverAliases (m command) alloue with
      | none => (-1, m)
      | some node => (0, Function.update m command { node with aliases := node.aliases ++ [autre] })
  | _, _ => (-1, m)

/-- The walk of `command_add_child`: whether `child` is met on the way up. -/
def rencontre (m : Memoire ι H) (child : ι) : Nat → Option ι → Option Bool
  | _, none => some false
  | 0, some _ => none
  | fuel + 1, some ancestor =>
    if ancestor = child then some true else rencontre m child fuel (m ancestor).parent

/-- `command_add_child` -/
def commandAddChild (fuel : Nat) (m : Memoire ι H) (parent child : Option ι) (alloue : Bool) :
    Option (Int × Memoire ι H) :=
  match parent, child with
  | some parent, some child =>
    if parent = child then some (-1, m)
    else if (m child).parent.isSome then some (-1, m)
    else
      match rencontre m child fuel (some parent) with
      | none => none
      | some true => some (-1, m)
      | some false =>
        if (m parent).children.any fun other => identifiantsEnCollision (m child) (m other) then some (-1, m)
        else
          match reserverEnfants (m parent) alloue with
          | none => some (-1, m)
          | some node =>
            let m := Function.update m parent { node with children := node.children ++ [child] }
            some (0, Function.update m child { m child with parent := some parent })
  | _, _ => some (-1, m)

/-- `command_find_child` -/
def commandFindChild (m : Memoire ι H) (parent : Option ι) (name : Option String) : Option ι :=
  match parent, name with
  | some parent, some name => (m parent).children.find? fun child => nomCorrespond (m child) name
  | _, _ => none

/-- What `command_clear` leaves of a node. -/
def Node.vide (node : Node ι H) : Node ι H :=
  { node with aliases := [], aliasCapacity := 0, children := [], childCapacity := 0, parent := none }

mutual

/-- `command_clear`, on a node. -/
def clearNode : Nat → Memoire ι H → ι → Option (Memoire ι H)
  | 0, _, _ => none
  | fuel + 1, m, command =>
    (clearChildren fuel m command 0).map fun m => Function.update m command (m command).vide

/-- Its loop over the children, from the `i`-th on. -/
def clearChildren : Nat → Memoire ι H → ι → Nat → Option (Memoire ι H)
  | 0, _, _, _ => none
  | fuel + 1, m, command, i =>
    match (m command).children[i]? with
    | none => some m
    | some child =>
      match clearNode fuel (Function.update m child { m child with parent := none }) child with
      | none => none
      | some m => clearChildren fuel m command (i + 1)

end

/-- `command_clear` -/
def commandClear (fuel : Nat) (m : Memoire ι H) (command : Option ι) : Option (Memoire ι H) :=
  match command with
  | none => some m
  | some command => clearNode fuel m command

end Calls

/-! ### Identifiers -/

/-- The names a command answers to. -/
def Node.identifiants (command : Node ι H) : List String := command.name :: command.aliases

theorem nomCorrespond_iff {command : Node ι H} {name : String} :
    nomCorrespond command name = true ↔ name ∈ command.identifiants := by
  simp only [nomCorrespond, Node.identifiants, Bool.or_eq_true, beq_iff_eq, List.any_eq_true, List.mem_cons,
    exists_eq_right]
  exact or_congr_left eq_comm

theorem identifiantsEnCollision_iff {a b : Node ι H} :
    identifiantsEnCollision a b = true ↔ ∃ name ∈ a.identifiants, name ∈ b.identifiants := by
  simp [identifiantsEnCollision, nomCorrespond_iff, Node.identifiants]

@[simp] theorem identifiants_vide (command : Node ι H) : command.vide.identifiants = [command.name] := rfl

theorem vide_parent (command : Node ι H) (p : Option ι) :
    Node.vide { command with parent := p } = command.vide := rfl

/-! ### What each call does -/

theorem reserver_place {count capacite place : Nat} {alloue : Bool} (hle : count ≤ capacite)
    (h : reserver count capacite alloue = some place) : count + 1 ≤ place := by
  unfold reserver agrandir at h
  split at h
  · cases h
    omega
  · split at h
    · obtain rfl := Option.some.inj h
      split <;> omega
    · cases h

section Calls

variable [DecidableEq ι] {m m' : Memoire ι H} {code : Int} {alloue : Bool}

theorem commandInit_inv {command : Option ι} {name description : Option String} {handler : Option H}
    (h : commandInit m command name description handler = (code, m')) :
    (code = -1 ∧ m' = m) ∨
      ∃ c n, command = some c ∧ n ≠ "" ∧ code = 0 ∧
        m' = Function.update m c
          { name := n, description, handler
            aliases := [], aliasCapacity := 0, children := [], childCapacity := 0, parent := none
            valueSpec := { type := .none, range := none, choices := [] } } := by
  unfold commandInit at h
  split at h
  · next c n =>
    split at h
    · cases h
      exact .inl ⟨rfl, rfl⟩
    · next hn =>
      cases h
      exact .inr ⟨c, n, rfl, hn, rfl, rfl⟩
  · cases h
    exact .inl ⟨rfl, rfl⟩

theorem commandAddAlias_inv {command : Option ι} {autre : Option String}
    (h : commandAddAlias m command autre alloue = (code, m')) :
    (code = -1 ∧ m' = m) ∨
      ∃ c name place, command = some c ∧ name ∉ (m c).identifiants ∧ soeurRepond m c name = false ∧
        reserver (m c).aliases.length (m c).aliasCapacity alloue = some place ∧ code = 0 ∧
        m' = Function.update m c { m c with aliases := (m c).aliases ++ [name], aliasCapacity := place } := by
  unfold commandAddAlias at h
  split at h
  · next c name =>
    split at h
    · cases h
      exact .inl ⟨rfl, rfl⟩
    split at h
    · cases h
      exact .inl ⟨rfl, rfl⟩
    next hname =>
    split at h
    · cases h
      exact .inl ⟨rfl, rfl⟩
    next hsoeur =>
    rw [nomCorrespond_iff] at hname
    cases hplace : reserver (m c).aliases.length (m c).aliasCapacity alloue with
    | none =>
      simp only [reserverAliases, hplace, Option.map_none] at h
      cases h
      exact .inl ⟨rfl, rfl⟩
    | some place =>
      simp only [reserverAliases, hplace, Option.map_some] at h
      cases h
      exact .inr ⟨c, name, place, rfl, hname, by simpa using hsoeur, hplace, rfl, rfl⟩
  · cases h
    exact .inl ⟨rfl, rfl⟩

theorem commandAddChild_inv {fuel : Nat} {parent child : Option ι}
    (h : commandAddChild fuel m parent child alloue = some (code, m')) :
    (code = -1 ∧ m' = m) ∨
      ∃ p c place, parent = some p ∧ child = some c ∧ p ≠ c ∧ (m c).parent = none ∧
        rencontre m c fuel (some p) = some false ∧
        (∀ d ∈ (m p).children, ∀ name ∈ (m c).identifiants, name ∉ (m d).identifiants) ∧
        reserver (m p).children.length (m p).childCapacity alloue = some place ∧ code = 0 ∧
        m' = Function.update
          (Function.update m p { m p with children := (m p).children ++ [c], childCapacity := place })
          c { m c with parent := some p } := by
  unfold commandAddChild at h
  split at h
  · next p c =>
    split at h
    · cases h
      exact .inl ⟨rfl, rfl⟩
    next hpc =>
    split at h
    · cases h
      exact .inl ⟨rfl, rfl⟩
    next hlibre =>
    split at h
    · cases h
    · cases h
      exact .inl ⟨rfl, rfl⟩
    next hwalk =>
    split at h
    · cases h
      exact .inl ⟨rfl, rfl⟩
    next hcollision =>
    simp only [List.any_eq_true, identifiantsEnCollision_iff, not_exists, not_and] at hcollision
    cases hplace : reserver (m p).children.length (m p).childCapacity alloue with
    | none =>
      simp only [reserverEnfants, hplace, Option.map_none] at h
      cases h
      exact .inl ⟨rfl, rfl⟩
    | some place =>
      simp only [reserverEnfants, hplace, Option.map_some] at h
      cases h
      refine .inr ⟨p, c, place, rfl, rfl, hpc, by simpa using hlibre, hwalk, hcollision, hplace, rfl, ?_⟩
      rw [Function.update_of_ne (Ne.symm hpc)]
  · cases h
    exact .inl ⟨rfl, rfl⟩

end Calls

end AmlService.CommandNodes
