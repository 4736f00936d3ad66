import AmlService.Command.NodeClear
import Mathlib.Logic.Function.Iterate

/-!
# AmlService.Command.NodeForest

**The commands form a forest**, whatever the order in which nodes are initialised, given
aliases, linked and cleared: children and parents agree, no identifier answers for two
commands of one parent, and the two functions that follow pointers return.
-/

namespace AmlService.CommandNodes

open Forest

variable {ι H : Type}

/-! ### Runs -/

/-- The objects, and which of them `command_init` has accepted so far. -/
structure Etat (ι H : Type) where
  memoire : Memoire ι H
  initialise : ι → Bool

inductive Operation (ι H : Type)
  | init (command : Option ι) (name description : Option String) (handler : Option H)
  | addAlias (command : Option ι) (autre : Option String) (alloue : Bool)
  | addChild (parent child : Option ι) (alloue : Bool)
  | clear (command : Option ι)

section Runs

variable [DecidableEq ι]

/-- The nodes initialised once `command_init` has returned `code`. -/
def marquer (initialise : ι → Bool) (command : Option ι) (code : Int) : ι → Bool :=
  match command with
  | some command => if code = 0 then Function.update initialise command true else initialise
  | none => initialise

/-- One call: its code (0 for `command_clear`, which has none) and the objects after it. -/
def executer (fuel : Nat) (e : Etat ι H) : Operation ι H → Option (Int × Etat ι H)
  | .init command name description handler =>
    let (code, m) := commandInit e.memoire command name description handler
    some (code, { memoire := m, initialise := marquer e.initialise command code })
  | .addAlias command autre alloue =>
    let (code, m) := commandAddAlias e.memoire command autre alloue
    some (code, { e with memoire := m })
  | .addChild parent child alloue =>
    (commandAddChild fuel e.memoire parent child alloue).map fun (code, m) => (code, { e with memoire := m })
  | .clear command => (commandClear fuel e.memoire command).map fun m => (0, { e with memoire := m })

end Runs

/-- What callers may ask: initialising a node that is not linked, naming and linking
initialised nodes, clearing a node without parent (a node never initialised may be
cleared if it has no child, as when all its bytes are 0). -/
def Permise (e : Etat ι H) : Operation ι H → Prop
  | .init command _ _ _ => ∀ c ∈ command, e.initialise c →
      (e.memoire c).parent = none ∧ (e.memoire c).children = []
  | .addAlias command _ _ => ∀ c ∈ command, e.initialise c
  | .addChild parent child _ => (∀ p ∈ parent, e.initialise p) ∧ ∀ c ∈ child, e.initialise c
  | .clear command => ∀ c ∈ command, (e.memoire c).parent = none ∧
      (e.initialise c ∨ (e.memoire c).children = [])

/-- The states that permitted calls lead to, from objects of any content. -/
inductive Atteignable [DecidableEq ι] : Etat ι H → Prop
  | debut (m : Memoire ι H) : Atteignable { memoire := m, initialise := fun _ => false }
  | appel {e e' : Etat ι H} {op : Operation ι H} {fuel : Nat} {code : Int} (h : Atteignable e)
      (hp : Permise e op) (hx : executer fuel e op = some (code, e')) : Atteignable e'

/-! ### The invariant -/

/-- The parent of an initialised node. -/
def Etat.parentDe (e : Etat ι H) (c : ι) : Option ι := if e.initialise c then (e.memoire c).parent else none

theorem Etat.parentDe_eq {e : Etat ι H} {c p : ι} :
    e.parentDe c = some p ↔ e.initialise c = true ∧ (e.memoire c).parent = some p := by
  simp [parentDe]

structure Foret (e : Etat ι H) : Prop where
  forest : IsForest e.parentDe
  /-- Parents and children agree, each child being listed once. -/
  enfants : ∀ p, e.initialise p → ∀ c, c ∈ (e.memoire p).children ↔ e.parentDe c = some p
  uniques : ∀ p, e.initialise p → (e.memoire p).children.Nodup
  parent : ∀ c p, e.parentDe c = some p → e.initialise p
  /-- No identifier is listed twice for one command, nor for two children of one parent. -/
  identifiants : ∀ c, e.initialise c → (e.memoire c).identifiants.Nodup
  freres : ∀ p c d, e.parentDe c = some p → e.parentDe d = some p → c ≠ d →
    ∀ name ∈ (e.memoire c).identifiants, name ∉ (e.memoire d).identifiants
  /-- The tables hold what they list. -/
  place : ∀ c, e.initialise c → (e.memoire c).aliases.length ≤ (e.memoire c).aliasCapacity ∧
    (e.memoire c).children.length ≤ (e.memoire c).childCapacity

theorem foret_debut (m : Memoire ι H) : Foret { memoire := m, initialise := fun _ => false } where
  forest := by
    have hnone : ∀ c p : ι, ¬ Up (Etat.parentDe { memoire := m, initialise := fun _ => false }) c p := by
      simp [Up, Etat.parentDe]
    exact ⟨⟨fun c => ⟨c, fun p h => absurd h (hnone c p)⟩⟩, ⟨fun p => ⟨p, fun c h => absurd h (hnone c p)⟩⟩⟩
  enfants := by simp
  uniques := by simp
  parent := by simp [Etat.parentDe]
  identifiants := by simp
  freres := by simp [Etat.parentDe]
  place := by simp

/-! ### The walk to the root -/

section Walk

variable [DecidableEq ι] {e : Etat ι H} {child x : ι} {fuel : Nat} {b : Bool}

theorem rencontre_mono {m : Memoire ι H} {ancestor : Option ι}
    (h : rencontre m child fuel ancestor = some b) :
    rencontre m child (fuel + 1) ancestor = some b := by
  induction fuel generalizing ancestor with
  | zero =>
    cases ancestor with
    | none => exact h
    | some x => cases h
  | succ fuel ih =>
    cases ancestor with
    | none => exact h
    | some x =>
      rw [rencontre] at h ⊢
      split at h
      · next hx => rw [if_pos hx, ← h]
      · next hx => rw [if_neg hx, ih h]

/-- The walk returns. -/
theorem Foret.rencontre_termine (he : Foret e) (child : ι) (hx : e.initialise x = true) :
    ∃ fuel b, rencontre e.memoire child fuel (some x) = some b := by
  induction x using he.forest.up.induction with
  | _ x ih =>
    by_cases hchild : x = child
    · exact ⟨1, true, by simp [rencontre, hchild]⟩
    · cases hp : (e.memoire x).parent with
      | none => exact ⟨1, false, by simp [rencontre, hchild, hp]⟩
      | some p =>
        have hxp : e.parentDe x = some p := Etat.parentDe_eq.mpr ⟨hx, hp⟩
        obtain ⟨fuel, b, hb⟩ := ih p hxp (he.parent x p hxp)
        exact ⟨fuel + 1, b, by simp [rencontre, hchild, hp, hb]⟩

/-- It meets the nodes `x` is below. -/
theorem Foret.rencontre_iff (he : Foret e) (hx : e.initialise x = true)
    (h : rencontre e.memoire child fuel (some x) = some b) : b = true ↔ Below e.parentDe x child := by
  induction fuel generalizing x with
  | zero => cases h
  | succ fuel ih =>
    rw [rencontre] at h
    split at h
    · next hchild =>
      subst hchild
      cases h
      simp [Below, Relation.ReflTransGen.refl]
    next hchild =>
    cases hp : (e.memoire x).parent with
    | none =>
      obtain rfl : b = false := by simpa [hp, rencontre] using h.symm
      have hroot : e.parentDe x = none := by simp [Etat.parentDe, hp]
      simp only [Bool.false_eq_true, false_iff]
      intro hbelow
      rcases hbelow.cases_head with rfl | ⟨p, hxp, -⟩
      · exact hchild rfl
      · rw [Up, hroot] at hxp
        cases hxp
    | some p =>
      have hxp : e.parentDe x = some p := Etat.parentDe_eq.mpr ⟨hx, hp⟩
      rw [hp] at h
      rw [ih (he.parent x p hxp) h]
      exact ⟨fun hbelow => .head hxp hbelow, fun hbelow => hbelow.of_ne hchild hxp⟩

end Walk

/-! ### Each call keeps the forest -/

section Steps

variable [DecidableEq ι] {e : Etat ι H} {p c : ι} {node : Node ι H}

/-- Writing a node without changing its links. -/
theorem parentDe_update {n : Node ι H} (hparent : e.initialise c = true → n.parent = (e.memoire c).parent) :
    Etat.parentDe { e with memoire := Function.update e.memoire c n } = e.parentDe := by
  funext x
  by_cases hx : x = c
  · subst hx
    cases hinit : e.initialise x with
    | true => simp [Etat.parentDe, hparent hinit]
    | false => simp [Etat.parentDe, hinit]
  · simp [Etat.parentDe, hx]

omit [DecidableEq ι] in
/-- No node names as its parent one that has no child. -/
theorem Foret.sans_enfant (he : Foret e) (hfree : e.initialise c = true → (e.memoire c).children = [])
    (x : ι) : e.parentDe x ≠ some c := by
  intro hx
  have hc := he.parent x c hx
  have hmem := (he.enfants c hc x).mpr hx
  rw [hfree hc] at hmem
  exact List.not_mem_nil hmem

/-- **One node written**, the links being left: it is enough to look at that node. -/
theorem Foret.ecrire (he : Foret e) {initialise : ι → Bool} (hinit : ∀ x, x ≠ c → initialise x = e.initialise x)
    (hmarked : e.initialise c = true → initialise c = true)
    (hlinks : Etat.parentDe { memoire := Function.update e.memoire c node, initialise } = e.parentDe)
    (henfants : ∀ x, x ∈ node.children ↔ e.parentDe x = some c) (huniques : node.children.Nodup)
    (hids : node.identifiants.Nodup)
    (hfreres : ∀ p x, e.parentDe c = some p → e.parentDe x = some p → x ≠ c →
      ∀ name ∈ node.identifiants, name ∉ (e.memoire x).identifiants)
    (hplace : node.aliases.length ≤ node.aliasCapacity ∧ node.children.length ≤ node.childCapacity) :
    Foret { memoire := Function.update e.memoire c node, initialise } := by
  refine ⟨?_, ?_, ?_, ?_, ?_, ?_, ?_⟩
  · rw [hlinks]
    exact he.forest
  · intro p hp x
    rw [hlinks]
    by_cases hpc : p = c
    · subst hpc
      simpa using henfants x
    · simpa [hpc] using he.enfants p (hinit p hpc ▸ hp) x
  · intro p hp
    by_cases hpc : p = c
    · subst hpc
      simpa using huniques
    · simpa [hpc] using he.uniques p (hinit p hpc ▸ hp)
  · intro x p hx
    rw [hlinks] at hx
    have hp := he.parent x p hx
    by_cases hpc : p = c
    · subst hpc
      exact hmarked hp
    · exact (hinit p hpc).trans hp
  · intro x hx
    by_cases hxc : x = c
    · subst hxc
      simpa using hids
    · simpa [hxc] using he.identifiants x (hinit x hxc ▸ hx)
  · intro p x y hx hy hne
    rw [hlinks] at hx hy
    by_cases hxc : x = c
    · subst hxc
      simpa [Ne.symm hne] using hfreres p y hx hy (Ne.symm hne)
    by_cases hyc : y = c
    · subst hyc
      intro name hname hname'
      simp only [ne_eq, hxc, not_false_eq_true, Function.update_of_ne, Function.update_self] at hname hname'
      exact hfreres p x hy hx hxc name hname' hname
    · simpa [hxc, hyc] using he.freres p x y hx hy hne
  · intro x hx
    by_cases hxc : x = c
    · subst hxc
      simpa using hplace
    · simpa [hxc] using he.place x (hinit x hxc ▸ hx)

theorem Foret.init (he : Foret e) (hparent : e.initialise c = true → (e.memoire c).parent = none)
    (hfree : e.initialise c = true → (e.memoire c).children = []) (hnode : node.parent = none)
    (hchildren : node.children = []) (haliases : node.aliases = []) :
    Foret
      { memoire := Function.update e.memoire c node
        initialise := Function.update e.initialise c true } := by
  have hroot : e.parentDe c = none := by
    cases hinit : e.initialise c with
    | true => simp [Etat.parentDe, hparent hinit]
    | false => simp [Etat.parentDe, hinit]
  refine he.ecrire (fun x hx => by simp [hx]) (fun _ => by simp) ?_ ?_ ?_ ?_ ?_ ?_
  · funext x
    by_cases hx : x = c
    · subst hx
      rw [hroot]
      simp [Etat.parentDe, hnode]
    · simp [Etat.parentDe, hx]
  · simp [hchildren, he.sans_enfant hfree]
  · simp [hchildren]
  · simp [Node.identifiants, haliases]
  · simp [hroot]
  · simp [hchildren, haliases]

/-- A sibling that answers to a name is found before the name is given. -/
theorem Foret.soeurRepond_false (he : Foret e) {name : String} {d : ι}
    (h : soeurRepond e.memoire c name = false)
    (hc : e.parentDe c = some p) (hd : e.parentDe d = some p) (hne : d ≠ c) :
    name ∉ (e.memoire d).identifiants := by
  intro hname
  have hmem : d ∈ (e.memoire p).children := (he.enfants p (he.parent d p hd) d).mpr hd
  rw [soeurRepond, (Etat.parentDe_eq.mp hc).2] at h
  simp only [List.any_eq_false, Bool.and_eq_true, bne_iff_ne, not_and] at h
  exact h d hmem hne (nomCorrespond_iff.mpr hname)

theorem Foret.addAlias (he : Foret e) (hc : e.initialise c = true) {name : String} {place : Nat}
    (hname : name ∉ (e.memoire c).identifiants) (hsoeur : soeurRepond e.memoire c name = false)
    (hplace : (e.memoire c).aliases.length + 1 ≤ place) :
    Foret { e with
      memoire := Function.update e.memoire c
        { e.memoire c with aliases := (e.memoire c).aliases ++ [name], aliasCapacity := place } } := by
  have hids : Node.identifiants
      { e.memoire c with aliases := (e.memoire c).aliases ++ [name], aliasCapacity := place } =
        (e.memoire c).identifiants ++ [name] := rfl
  refine he.ecrire (fun _ _ => rfl) id (parentDe_update fun _ => rfl) (he.enfants c hc) (he.uniques c hc) ?_ ?_ ?_
  · rw [hids]
    refine List.nodup_append.mpr ⟨he.identifiants c hc, by simp, ?_⟩
    rintro a ha b hb rfl
    obtain rfl := List.mem_singleton.mp hb
    exact hname ha
  · intro p x hp hx hne a ha
    rw [hids] at ha
    rcases List.mem_append.mp ha with ha | ha
    · exact he.freres p c x hp hx (Ne.symm hne) a ha
    · obtain rfl := List.mem_singleton.mp ha
      exact he.soeurRepond_false hsoeur hp hx hne
  · simpa using ⟨hplace, (he.place c hc).2⟩

section Lier

/-- `c` linked as the last child of `p`. -/
def lier (m : Memoire ι H) (p c : ι) (place : Nat) : Memoire ι H :=
  Function.update
    (Function.update m p { m p with children := (m p).children ++ [c], childCapacity := place })
    c { m c with parent := some p }

variable {m : Memoire ι H} {place : Nat} {x q : ι}

theorem lier_parent (hpc : p ≠ c) :
    lier m p c place p = { m p with children := (m p).children ++ [c], childCapacity := place } := by
  simp [lier, hpc]

theorem lier_enfant : lier m p c place c = { m c with parent := some p } := by
  simp [lier]

theorem lier_autre (hxp : x ≠ p) (hxc : x ≠ c) : lier m p c place x = m x := by
  simp [lier, hxp, hxc]

@[simp] theorem lier_identifiants (hpc : p ≠ c) : (lier m p c place x).identifiants = (m x).identifiants := by
  by_cases hxc : x = c
  · subst hxc
    rw [lier_enfant]
    rfl
  by_cases hxp : x = p
  · subst hxp
    rw [lier_parent hpc]
    rfl
  · rw [lier_autre hxp hxc]

theorem lier_children (hqp : q ≠ p) : (lier m p c place q).children = (m q).children := by
  by_cases hqc : q = c
  · rw [hqc, lier_enfant]
  · rw [lier_autre hqp hqc]

theorem parentDe_lier_enfant (hc : e.initialise c = true) :
    Etat.parentDe { e with memoire := lier e.memoire p c place } c = some p := by
  simp [Etat.parentDe, lier_enfant, hc]

theorem parentDe_lier (hpc : p ≠ c) (hxc : x ≠ c) :
    Etat.parentDe { e with memoire := lier e.memoire p c place } x = e.parentDe x := by
  by_cases hxp : x = p
  · subst hxp
    simp [Etat.parentDe, lier_parent hpc]
  · simp [Etat.parentDe, lier_autre hxp hxc]

/-- A link comes from the new one, or was there. -/
theorem parentDe_lier_cases (hpc : p ≠ c) (hc : e.initialise c = true)
    (h : Etat.parentDe { e with memoire := lier e.memoire p c place } x = some q) :
    x = c ∧ q = p ∨ x ≠ c ∧ e.parentDe x = some q := by
  by_cases hxc : x = c
  · subst hxc
    rw [parentDe_lier_enfant hc] at h
    exact .inl ⟨rfl, (Option.some.inj h).symm⟩
  · rw [parentDe_lier hpc hxc] at h
    exact .inr ⟨hxc, h⟩

theorem Foret.lier_enfants (he : Foret e) (hc : e.initialise c = true) (hpc : p ≠ c) (hroot : e.parentDe c = none)
    (hq : e.initialise q = true) (x : ι) :
    x ∈ (lier e.memoire p c place q).children ↔
      Etat.parentDe { e with memoire := lier e.memoire p c place } x = some q := by
  by_cases hxc : x = c
  · subst hxc
    rw [parentDe_lier_enfant hc]
    by_cases hqp : q = p
    · subst hqp
      simp [lier_parent hpc]
    · rw [lier_children hqp, he.enfants q hq, hroot]
      simp [Ne.symm hqp]
  rw [parentDe_lier hpc hxc, ← he.enfants q hq]
  by_cases hqp : q = p
  · subst hqp
    simp [lier_parent hpc, hxc]
  · rw [lier_children hqp]

theorem Foret.lier_uniques (he : Foret e) (hpc : p ≠ c) (hroot : e.parentDe c = none)
    (hq : e.initialise q = true) : (lier e.memoire p c place q).children.Nodup := by
  by_cases hqp : q = p
  · subst hqp
    rw [lier_parent hpc]
    refine List.nodup_append.mpr ⟨he.uniques q hq, by simp, ?_⟩
    rintro a ha b hb rfl
    obtain rfl := List.mem_singleton.mp hb
    rw [he.enfants q hq a, hroot] at ha
    cases ha
  · rw [lier_children hqp]
    exact he.uniques q hq

theorem Foret.lier_place (he : Foret e) (hpc : p ≠ c) (hplace : (e.memoire p).children.length + 1 ≤ place)
    (hx : e.initialise x = true) :
    (lier e.memoire p c place x).aliases.length ≤ (lier e.memoire p c place x).aliasCapacity ∧
      (lier e.memoire p c place x).children.length ≤ (lier e.memoire p c place x).childCapacity := by
  have hkeep := he.place x hx
  by_cases hxc : x = c
  · subst hxc
    rw [lier_enfant]
    exact hkeep
  by_cases hxp : x = p
  · subst hxp
    rw [lier_parent hpc]
    simpa using ⟨hkeep.1, hplace⟩
  · rw [lier_autre hxp hxc]
    exact hkeep

theorem Foret.addChild (he : Foret e) (hp : e.initialise p = true) (hc : e.initialise c = true)
    {fuel : Nat} (hpc : p ≠ c) (hlibre : (e.memoire c).parent = none)
    (hwalk : rencontre e.memoire c fuel (some p) = some false)
    (hcollision : ∀ d ∈ (e.memoire p).children, ∀ name ∈ (e.memoire c).identifiants,
      name ∉ (e.memoire d).identifiants)
    (hplace : (e.memoire p).children.length + 1 ≤ place) :
    Foret { e with memoire := lier e.memoire p c place } := by
  have hroot : e.parentDe c = none := by simp [Etat.parentDe, hlibre]
  have hmem : ∀ x, x ∈ (e.memoire p).children ↔ e.parentDe x = some p := he.enfants p hp
  refine ⟨?_, fun q hq => he.lier_enfants hc hpc hroot hq, fun q hq => he.lier_uniques hpc hroot hq, ?_, ?_, ?_,
    fun x hx => he.lier_place hpc hplace hx⟩
  · have hbelow : ¬ Below e.parentDe p c := fun h => by
      simpa using (he.rencontre_iff hp hwalk).mpr h
    refine he.forest.link hbelow fun x y hxy => ?_
    exact (parentDe_lier_cases hpc hc hxy).symm.imp_left And.right
  · intro x q hx
    rcases parentDe_lier_cases hpc hc hx with ⟨-, rfl⟩ | ⟨-, hx⟩
    · exact hp
    · exact he.parent x q hx
  · intro x hx
    simpa [hpc] using he.identifiants x hx
  · intro q x y hx hy hne
    simp only [lier_identifiants hpc]
    rcases parentDe_lier_cases hpc hc hx with ⟨rfl, rfl⟩ | ⟨-, hxq⟩ <;>
      rcases parentDe_lier_cases hpc hc hy with ⟨rfl, hq⟩ | ⟨-, hyq⟩
    · exact absurd rfl hne
    · exact hcollision y ((hmem y).mpr hyq)
    · subst hq
      intro name hname hname'
      exact hcollision x ((hmem x).mpr hxq) name hname' hname
    · exact he.freres q x y hxq hyq hne

end Lier

omit [DecidableEq ι] in
/-- What is below a node that may be cleared is linked as its parents say. -/
theorem Foret.lie (he : Foret e) (hfree : e.initialise c = true ∨ (e.memoire c).children = []) :
    Lie e.parentDe e.memoire c := by
  have hinit : ∀ x, e.initialise x = true →
      (e.memoire x).children.Nodup ∧ ∀ y, y ∈ (e.memoire x).children ↔ e.parentDe y = some x :=
    fun x hx => ⟨he.uniques x hx, he.enfants x hx⟩
  intro x hx
  rcases hx.cases_head with rfl | ⟨p, hxp, -⟩
  · rcases hfree with hc | hnil
    · exact hinit x hc
    · simp [hnil, he.sans_enfant fun _ => hnil]
  · exact hinit x (Etat.parentDe_eq.mp hxp).1

omit [DecidableEq ι] in
theorem Foret.clear (he : Foret e) (hparent : (e.memoire c).parent = none) {m : Memoire ι H}
    (hm : Vides (Below e.parentDe · c) e.memoire m) : Foret { e with memoire := m } := by
  obtain ⟨hvides, hautres⟩ := hm
  have hroot : e.parentDe c = none := by simp [Etat.parentDe, hparent]
  have hcut : ∀ x, Below e.parentDe x c → Etat.parentDe { e with memoire := m } x = none := by
    intro x hx
    simp [Etat.parentDe, hvides x hx, Node.vide]
  have hkept : ∀ x, ¬ Below e.parentDe x c → Etat.parentDe { e with memoire := m } x = e.parentDe x := by
    intro x hx
    simp [Etat.parentDe, hautres x hx]
  have hsub : ∀ x p, Etat.parentDe { e with memoire := m } x = some p →
      ¬ Below e.parentDe x c ∧ e.parentDe x = some p := by
    intro x p hxp
    by_cases hx : Below e.parentDe x c
    · rw [hcut x hx] at hxp
      cases hxp
    · exact ⟨hx, hkept x hx ▸ hxp⟩
  refine ⟨he.forest.cut fun x p hxp => (hsub x p hxp).2, ?_, ?_,
    fun x p hxp => he.parent x p (hsub x p hxp).2, ?_, ?_, ?_⟩
  · intro p hp x
    show x ∈ (m p).children ↔ _
    by_cases hpc : Below e.parentDe p c
    · -- nothing outside the tree that is cleared hangs from it
      rw [hvides p hpc]
      refine ⟨fun h => absurd h (by simp [Node.vide]), fun h => ?_⟩
      obtain ⟨hx, hxp⟩ := hsub x p h
      exact absurd (.head hxp hpc) hx
    · rw [hautres p hpc, he.enfants p hp x]
      refine ⟨fun hxp => ?_, fun h => (hsub x p h).2⟩
      rw [hkept x, hxp]
      intro hx
      rcases hx.cases_head with rfl | ⟨q, hxq, hqc⟩
      · rw [hroot] at hxp
        cases hxp
      · obtain rfl : p = q := Option.some.inj (hxp.symm.trans hxq)
        exact hpc hqc
  · intro p hp
    show (m p).children.Nodup
    by_cases hpc : Below e.parentDe p c
    · simp [hvides p hpc, Node.vide]
    · rw [hautres p hpc]
      exact he.uniques p hp
  · intro x hx
    show (m x).identifiants.Nodup
    by_cases hxc : Below e.parentDe x c
    · simp [hvides x hxc]
    · rw [hautres x hxc]
      exact he.identifiants x hx
  · intro p x y hx hy hne
    obtain ⟨hxc, hx⟩ := hsub x p hx
    obtain ⟨hyc, hy⟩ := hsub y p hy
    show ∀ name ∈ (m x).identifiants, name ∉ (m y).identifiants
    rw [hautres x hxc, hautres y hyc]
    exact he.freres p x y hx hy hne
  · intro x hx
    show (m x).aliases.length ≤ (m x).aliasCapacity ∧ (m x).children.length ≤ (m x).childCapacity
    by_cases hxc : Below e.parentDe x c
    · simp [hvides x hxc, Node.vide]
    · rw [hautres x hxc]
      exact he.place x hx

end Steps

/-! ### Runs of calls -/

section Results

variable [DecidableEq ι] {e e' : Etat ι H} {op : Operation ι H} {fuel : Nat} {code : Int}

theorem Foret.appel (he : Foret e) (hp : Permise e op) (hx : executer fuel e op = some (code, e')) :
    Foret e' := by
  cases op with
  | init command name description handler =>
    obtain ⟨rfl, rfl⟩ := Prod.mk.inj (Option.some.inj hx)
    have hinit : commandInit e.memoire command name description handler = (_, _) := rfl
    rcases commandInit_inv hinit with ⟨hcode, hm⟩ | ⟨c, n, rfl, -, hcode, hm⟩
    · rw [hcode, hm]
      cases command <;> exact he
    · rw [hcode, hm]
      have hfree := hp c rfl
      exact he.init (fun hc => (hfree hc).1) (fun hc => (hfree hc).2) rfl rfl rfl
  | addAlias command autre alloue =>
    obtain ⟨rfl, rfl⟩ := Prod.mk.inj (Option.some.inj hx)
    have hadd : commandAddAlias e.memoire command autre alloue = (_, _) := rfl
    rcases commandAddAlias_inv hadd with
      ⟨-, hm⟩ | ⟨c, name, place, rfl, hname, hsoeur, hplace, -, hm⟩
    · rw [hm]
      exact he
    · rw [hm]
      have hc := hp c rfl
      exact he.addAlias hc hname hsoeur (reserver_place (he.place c hc).1 hplace)
  | addChild parent child alloue =>
    obtain ⟨⟨code', m⟩, hm, heq⟩ := Option.map_eq_some_iff.mp hx
    obtain ⟨rfl, rfl⟩ := Prod.mk.inj heq
    rcases commandAddChild_inv hm with
      ⟨-, rfl⟩ | ⟨p, c, place, rfl, rfl, hpc, hlibre, hwalk, hcollision, hplace, -, rfl⟩
    · exact he
    · have hpinit := hp.1 p rfl
      have hcinit := hp.2 c rfl
      have hroom := reserver_place (he.place p hpinit).2 hplace
      exact he.addChild hpinit hcinit hpc hlibre hwalk hcollision hroom
  | clear command =>
    obtain ⟨m, hm, heq⟩ := Option.map_eq_some_iff.mp hx
    obtain ⟨rfl, rfl⟩ := Prod.mk.inj heq
    cases command with
    | none =>
      cases hm
      exact he
    | some c =>
      obtain ⟨hparent, hfree⟩ := hp c rfl
      obtain ⟨fuel', m', hm', hvides⟩ := clearNode_spec he.forest c e.memoire (he.lie hfree)
      have hsame : m = m' := by
        have h := clearNode_le hm (le_max_left fuel fuel')
        have h' := clearNode_le hm' (le_max_right fuel fuel')
        exact Option.some.inj (h.symm.trans h')
      exact he.clear hparent (hsame ▸ hvides)

theorem Atteignable.foret (h : Atteignable e) : Foret e := by
  induction h with
  | debut m => exact foret_debut m
  | appel _ hp hx ih => exact ih.appel hp hx

theorem commandAddChild_mono {m : Memoire ι H} {parent child : Option ι} {alloue : Bool}
    {r : Int × Memoire ι H} (h : commandAddChild fuel m parent child alloue = some r) :
    commandAddChild (fuel + 1) m parent child alloue = some r := by
  cases parent with
  | none => exact h
  | some p =>
    cases child with
    | none => exact h
    | some c =>
      simp only [commandAddChild] at h ⊢
      split at h
      · next hpc => rw [if_pos hpc, ← h]
      next hpc =>
      split at h
      · next hlibre => rw [if_neg hpc, if_pos hlibre, ← h]
      next hlibre =>
      rw [if_neg hpc, if_neg hlibre]
      cases hwalk : rencontre m c fuel (some p) with
      | none =>
        rw [hwalk] at h
        cases h
      | some b => rw [rencontre_mono hwalk, ← h, hwalk]

theorem executer_le {fuel' : Nat} {r : Int × Etat ι H} (h : executer fuel e op = some r)
    (hle : fuel ≤ fuel') : executer fuel' e op = some r := by
  induction hle with
  | refl => exact h
  | @step fuel₁ hle ih =>
    cases op with
    | init command name description handler => exact ih
    | addAlias command autre alloue => exact ih
    | addChild parent child alloue =>
      obtain ⟨r, hm, rfl⟩ := Option.map_eq_some_iff.mp ih
      simp only [executer, commandAddChild_mono hm, Option.map_some]
    | clear command =>
      obtain ⟨m, hm, rfl⟩ := Option.map_eq_some_iff.mp ih
      cases command with
      | none => exact ih
      | some c =>
        have hm' : clearNode (fuel₁ + 1) e.memoire c = some m := clearNode_le hm (Nat.le_succ fuel₁)
        simp only [executer, commandClear, hm', Option.map_some]

/-- **A permitted call returns.** -/
theorem Foret.termine (he : Foret e) (hp : Permise e op) : ∃ fuel r, executer fuel e op = some r := by
  cases op with
  | init command name description handler => exact ⟨0, _, rfl⟩
  | addAlias command autre alloue => exact ⟨0, _, rfl⟩
  | addChild parent child alloue =>
    have hreturn : ∃ fuel r, commandAddChild fuel e.memoire parent child alloue = some r := by
      cases parent with
      | none => exact ⟨0, _, rfl⟩
      | some p =>
        cases child with
        | none => exact ⟨0, _, rfl⟩
        | some c =>
          obtain ⟨fuel, b, hb⟩ := he.rencontre_termine c (hp.1 p rfl)
          refine ⟨fuel, Option.isSome_iff_exists.mp ?_⟩
          -- every way out of the tests that follow the walk returns
          cases b <;> simp only [commandAddChild, hb] <;> repeat' split
          all_goals rfl
    obtain ⟨fuel, r, hr⟩ := hreturn
    exact ⟨fuel, _, by rw [executer, hr]; rfl⟩
  | clear command =>
    cases command with
    | none => exact ⟨0, _, rfl⟩
    | some c =>
      obtain ⟨fuel, m, hm, -⟩ := clearNode_spec he.forest c e.memoire (he.lie (hp c rfl).2)
      exact ⟨fuel, _, by rw [executer, commandClear, hm]; rfl⟩

/-- **A refused call** changes nothing. -/
theorem executer_code (h : executer fuel e op = some (code, e')) :
    (code = 0 ∨ code = -1) ∧ (code = -1 → e' = e) := by
  cases op with
  | init command name description handler =>
    obtain ⟨rfl, rfl⟩ := Prod.mk.inj (Option.some.inj h)
    have hinit : commandInit e.memoire command name description handler = (_, _) := rfl
    rcases commandInit_inv hinit with ⟨hcode, hm⟩ | ⟨c, n, rfl, -, hcode, hm⟩
    · rw [hcode, hm]
      exact ⟨.inr rfl, fun _ => by cases command <;> rfl⟩
    · rw [hcode]
      exact ⟨.inl rfl, by simp⟩
  | addAlias command autre alloue =>
    obtain ⟨rfl, rfl⟩ := Prod.mk.inj (Option.some.inj h)
    have hadd : commandAddAlias e.memoire command autre alloue = (_, _) := rfl
    rcases commandAddAlias_inv hadd with
      ⟨hcode, hm⟩ | ⟨c, name, place, rfl, -, -, -, hcode, hm⟩
    · rw [hcode, hm]
      exact ⟨.inr rfl, fun _ => rfl⟩
    · rw [hcode]
      exact ⟨.inl rfl, by simp⟩
  | addChild parent child alloue =>
    obtain ⟨⟨code', m⟩, hm, heq⟩ := Option.map_eq_some_iff.mp h
    obtain ⟨rfl, rfl⟩ := Prod.mk.inj heq
    rcases commandAddChild_inv hm with ⟨rfl, rfl⟩ | ⟨p, c, place, -, -, -, -, -, -, -, rfl, -⟩
    · exact ⟨.inr rfl, fun _ => rfl⟩
    · exact ⟨.inl rfl, by simp⟩
  | clear command =>
    obtain ⟨m, -, heq⟩ := Option.map_eq_some_iff.mp h
    obtain ⟨rfl, -⟩ := Prod.mk.inj heq
    exact ⟨.inl rfl, by simp⟩

omit [DecidableEq ι] in
/-- **Following the parents** in memory ends. -/
theorem Foret.remonte (he : Foret e) {x : ι} (hx : e.initialise x = true) :
    ∃ n, (fun c : Option ι => c.bind fun c => (e.memoire c).parent)^[n] (some x) = none := by
  induction x using he.forest.up.induction with
  | _ x ih =>
    cases hp : (e.memoire x).parent with
    | none => exact ⟨1, by simpa using hp⟩
    | some p =>
      have hxp : e.parentDe x = some p := Etat.parentDe_eq.mpr ⟨hx, hp⟩
      obtain ⟨n, hn⟩ := ih p hxp (he.parent x p hxp)
      exact ⟨n + 1, by simpa [Function.iterate_succ_apply, hp] using hn⟩

omit [DecidableEq ι] in
/-- `command_find_child` finds the only child that answers. -/
theorem Foret.findChild_iff (he : Foret e) {p : ι} (hp : e.initialise p = true) (name : String) (c : ι) :
    commandFindChild e.memoire (some p) (some name) = some c ↔
      c ∈ (e.memoire p).children ∧ nomCorrespond (e.memoire c) name = true := by
  constructor
  · intro h
    exact ⟨List.mem_of_find?_eq_some h, by simpa using List.find?_some h⟩
  · rintro ⟨hc, hname⟩
    cases hfind : commandFindChild e.memoire (some p) (some name) with
    | none => simpa [hname] using List.find?_eq_none.mp hfind c hc
    | some d =>
      have hd : d ∈ (e.memoire p).children := List.mem_of_find?_eq_some hfind
      have hdname : nomCorrespond (e.memoire d) name = true := by simpa using List.find?_some hfind
      by_cases hdc : d = c
      · rw [hdc]
      · exact absurd (nomCorrespond_iff.mp hname)
          (he.freres p d c ((he.enfants p hp d).mp hd) ((he.enfants p hp c).mp hc) hdc name
            (nomCorrespond_iff.mp hdname))

/-- **The commands form a forest** after any permitted calls: children and parents
agree, following the parents ends, an identifier is that of one child only, and every
permitted call returns, a refused one changing nothing. -/
theorem commandes_en_foret (h : Atteignable e) :
    (∀ p, e.initialise p = true → (e.memoire p).children.Nodup ∧
      ∀ c, c ∈ (e.memoire p).children ↔ e.initialise c = true ∧ (e.memoire c).parent = some p) ∧
    (∀ c, e.initialise c = true → (∀ p, (e.memoire c).parent = some p → e.initialise p = true) ∧
      ∃ n, (fun c : Option ι => c.bind fun c => (e.memoire c).parent)^[n] (some c) = none) ∧
    (∀ c, e.initialise c = true → ((e.memoire c).name :: (e.memoire c).aliases).Nodup) ∧
    (∀ p, e.initialise p = true → ∀ c ∈ (e.memoire p).children, ∀ d ∈ (e.memoire p).children, c ≠ d →
      ∀ name, ¬ (nomCorrespond (e.memoire c) name = true ∧ nomCorrespond (e.memoire d) name = true)) ∧
    (∀ p, e.initialise p = true → ∀ name c, commandFindChild e.memoire (some p) (some name) = some c ↔
      c ∈ (e.memoire p).children ∧ nomCorrespond (e.memoire c) name = true) ∧
    ∀ op, Permise e op → ∃ code e', (∃ N, ∀ fuel ≥ N, executer fuel e op = some (code, e')) ∧
      (code = 0 ∨ code = -1) ∧ (code = -1 → e' = e) := by
  have he := h.foret
  refine ⟨?_, ?_, fun c hc => he.identifiants c hc, ?_, fun p hp name c => he.findChild_iff hp name c, ?_⟩
  · intro p hp
    refine ⟨he.uniques p hp, fun c => ?_⟩
    rw [he.enfants p hp c, Etat.parentDe_eq]
  · intro c hc
    exact ⟨fun p hp => he.parent c p (Etat.parentDe_eq.mpr ⟨hc, hp⟩), he.remonte hc⟩
  · rintro p hp c hc d hd hne name ⟨hcname, hdname⟩
    have hfirst := (he.findChild_iff hp name c).mpr ⟨hc, hcname⟩
    have hsecond := (he.findChild_iff hp name d).mpr ⟨hd, hdname⟩
    exact hne (Option.some.inj (hfirst.symm.trans hsecond))
  · intro op hop
    obtain ⟨N, ⟨code, e'⟩, hx⟩ := he.termine hop
    exact ⟨code, e', ⟨N, fun fuel hle => executer_le hx hle⟩, executer_code hx⟩

end Results

/-- A node that `command_init` has just named. -/
def noeud (name : String) : Node Nat Unit :=
  { name, description := none, aliases := [], aliasCapacity := 0, children := [], childCapacity := 0
    parent := none, valueSpec := { type := .none, range := none, choices := [] }, handler := none }

/-- A lamp with two names and another light, hung from the root. -/
theorem commandes_en_foret_lampe : ∃ e : Etat Nat Unit, Atteignable e ∧ (e.memoire 0).children = [1, 2] ∧
    commandFindChild e.memoire (some 0) (some "Lamp") = some 1 ∧
    ∀ c ∈ (e.memoire 0).children, c ≠ 1 → nomCorrespond (e.memoire c) "Lamp" = false := by
  let m : Memoire Nat Unit := fun _ => noeud ""
  let m₁ := Function.update m 0 (noeud "AML")
  let m₂ := Function.update m₁ 1 (noeud "Light")
  let lamp := { noeud "Light" with aliases := ["Lamp"], aliasCapacity := 4 }
  let m₃ := Function.update m₂ 1 lamp
  let m₄ := Function.update m₃ 2 (noeud "Mood")
  let m₅ := Function.update m₄ 0 { noeud "AML" with children := [1], childCapacity := 4 }
  let m₆ := Function.update m₅ 1 { lamp with parent := some 0 }
  let m₇ := Function.update m₆ 0 { noeud "AML" with children := [1, 2], childCapacity := 4 }
  let m₈ := Function.update m₇ 2 { noeud "Mood" with parent := some 0 }
  let i₁ := Function.update (fun _ => false) 0 true
  let i₂ := Function.update i₁ 1 true
  let i₃ := Function.update i₂ 2 true
  have hx₁ : executer 0 { memoire := m, initialise := fun _ => false }
      (.init (some 0) (some "AML") none none) = some (0, { memoire := m₁, initialise := i₁ }) := by
    simp [executer, commandInit, marquer, m₁, i₁, noeud]
  have hx₂ : executer 0 { memoire := m₁, initialise := i₁ } (.init (some 1) (some "Light") none none) =
      some (0, { memoire := m₂, initialise := i₂ }) := by
    simp [executer, commandInit, marquer, m₂, i₂, noeud]
  have hx₃ : executer 0 { memoire := m₂, initialise := i₂ } (.addAlias (some 1) (some "Lamp") true) =
      some (0, { memoire := m₃, initialise := i₂ }) := by
    simp [executer, commandAddAlias, nomCorrespond, soeurRepond, reserverAliases, reserver, agrandir,
      m₃, m₂, lamp, noeud]
  have hx₄ : executer 0 { memoire := m₃, initialise := i₂ } (.init (some 2) (some "Mood") none none) =
      some (0, { memoire := m₄, initialise := i₃ }) := by
    simp [executer, commandInit, marquer, m₄, i₃, noeud]
  have hx₅ : executer 2 { memoire := m₄, initialise := i₃ } (.addChild (some 0) (some 1) true) =
      some (0, { memoire := m₆, initialise := i₃ }) := by
    simp [executer, commandAddChild, rencontre, reserverEnfants, reserver, agrandir,
      m₆, m₅, m₄, m₃, m₂, m₁, lamp, noeud]
  have hx₆ : executer 2 { memoire := m₆, initialise := i₃ } (.addChild (some 0) (some 2) true) =
      some (0, { memoire := m₈, initialise := i₃ }) := by
    simp [executer, commandAddChild, rencontre, reserverEnfants, reserver, identifiantsEnCollision,
      nomCorrespond, m₈, m₇, m₆, m₅, m₄, lamp, noeud]
  have h₁ := (Atteignable.debut m).appel (by simp [Permise]) hx₁
  have h₂ := h₁.appel (by simp [Permise, i₁]) hx₂
  have h₃ := h₂.appel (by simp [Permise, i₂]) hx₃
  have h₄ := h₃.appel (by simp [Permise, i₂, i₁]) hx₄
  have h₅ := h₄.appel (by simp [Permise, i₃, i₂, i₁]) hx₅
  have h₆ := h₅.appel (by simp [Permise, i₃, i₂, i₁]) hx₆
  obtain ⟨-, -, -, hseul, -⟩ := commandes_en_foret h₆
  have hlamp : nomCorrespond (m₈ 1) "Lamp" = true := by decide
  refine ⟨_, h₆, by decide, by decide, fun c hc hne => ?_⟩
  simpa [hlamp] using hseul 0 rfl c hc 1 (by decide) hne "Lamp"

end AmlService.CommandNodes
