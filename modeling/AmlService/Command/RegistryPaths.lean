import AmlService.Command.NodeForest
import AmlService.Command.Registry
import AmlService.Lib.Lines

/-!
# AmlService.Command.RegistryPaths

The registry (`command/registry.c`) on the nodes in memory: its root, and the search of a command by
its path. The loop of `registry_find_path` skips the name of the root as long as it is at the root,
so not the first segment only.

What a path means is said apart (`Mene`): identifiers that lead from a node to another. Where the memory
holds a tree of commands (`Porte`), the search finds what `Registry` finds in the tree.
-/

namespace AmlService.CommandNodes

open Forest

variable {ι H : Type} [DecidableEq ι]

/-! ### The registry -/

/-- `registry_init` -/
def registryInit (m : Memoire ι H) (registry : Option ι) : Int × Memoire ι H :=
  match registry with
  | none => (-1, m)
  | some root => commandInit m (some root) (some "AML") (some "Racine des commandes AML") none

/-- `registry_add` -/
def registryAdd (fuel : Nat) (m : Memoire ι H) (registry command : Option ι) (alloue : Bool) :
    Option (Int × Memoire ι H) :=
  match registry, command with
  | some root, some command => commandAddChild fuel m (some root) (some command) alloue
  | _, _ => some (-1, m)

/-- The loop of `registry_find_path`, from `segment` on. `alloue n` says that the `n`-th `malloc`
succeeds, of which `appels` were made. -/
def chercherChemin (m : Memoire ι H) (root : ι) (alloue : Nat → Bool) (current : ι) (segment : List Char)
    (appels : Nat) : Option ι :=
  if segment = [] then none
  else
    match _hcut : Lines.cut '/' segment with
    | none =>
      if current = root ∧ String.ofList segment = (m root).name then none
      else if alloue appels then commandFindChild m (some current) (some (String.ofList segment))
      else none
    | some (nom, suite) =>
      if nom = [] then none
      else if current = root ∧ String.ofList nom = (m root).name then
        -- the root is named: the search stays there
        if suite = [] then none else chercherChemin m root alloue current suite appels
      else if alloue appels then
        match commandFindChild m (some current) (some (String.ofList nom)) with
        | none => none
        | some child => if suite = [] then none else chercherChemin m root alloue child suite (appels + 1)
      else none
  termination_by segment.length
  decreasing_by
    all_goals exact Lines.cut_lt ‹_›

/-- `registry_find_path` -/
def registryFindPath (m : Memoire ι H) (alloue : Nat → Bool) (registry : Option ι) (path : Option String) :
    Option ι :=
  match registry, path with
  | some root, some path => if path = "" then none else chercherChemin m root alloue root path.toList 0
  | _, _ => none

/-- The states of a registry: its root is initialised, and from then on it is not initialised again. -/
inductive Registre (root : ι) : Etat ι H → Prop
  | init {e e' : Etat ι H} {fuel : Nat} (h : Atteignable e)
      (hp : Permise e (.init (some root) (some "AML") (some "Racine des commandes AML") none))
      (hx : executer fuel e (.init (some root) (some "AML") (some "Racine des commandes AML") none) =
        some (0, e')) : Registre root e'
  | appel {e e' : Etat ι H} {op : Operation ι H} {fuel : Nat} {code : Int} (h : Registre root e)
      (hp : Permise e op) (hroot : ∀ name description handler, op ≠ .init (some root) name description handler)
      (hx : executer fuel e op = some (code, e')) : Registre root e'

/-- The two operations of the registry are such calls. -/
theorem executer_registry (fuel : Nat) (e : Etat ι H) (root command : ι) (alloue : Bool) :
    executer fuel e (.init (some root) (some "AML") (some "Racine des commandes AML") none) =
        some ((registryInit e.memoire (some root)).1,
          { memoire := (registryInit e.memoire (some root)).2
            initialise := marquer e.initialise (some root) (registryInit e.memoire (some root)).1 }) ∧
      executer fuel e (.addChild (some root) (some command) alloue) =
        (registryAdd fuel e.memoire (some root) (some command) alloue).map fun r =>
          (r.1, { e with memoire := r.2 }) :=
  ⟨rfl, rfl⟩

/-! ### One segment -/

section Segment

variable {m : Memoire ι H} {root current : ι} {alloue : Nat → Bool} {appels : Nat} {nom suite : List Char}

/-- The last segment. -/
theorem chercher_dernier (hne : nom ≠ []) (hnom : '/' ∉ nom)
    (hroot : ¬ (current = root ∧ String.ofList nom = (m root).name)) :
    chercherChemin m root alloue current nom appels =
      if alloue appels then commandFindChild m (some current) (some (String.ofList nom)) else none := by
  rw [chercherChemin, if_neg hne]
  split
  · rw [if_neg hroot]
  · next hcut =>
    rw [Lines.cut_none.mpr hnom] at hcut
    cases hcut

/-- A segment before the last one: the name of the root, at the root, or that of a child. -/
theorem chercher_coupe (hne : nom ≠ []) (hnom : '/' ∉ nom) (hsuite : suite ≠ []) :
    chercherChemin m root alloue current (nom ++ '/' :: suite) appels =
      if current = root ∧ String.ofList nom = (m root).name then
        chercherChemin m root alloue current suite appels
      else if alloue appels then
        (commandFindChild m (some current) (some (String.ofList nom))).bind fun child =>
          chercherChemin m root alloue child suite (appels + 1)
      else none := by
  rw [chercherChemin, if_neg (by simp)]
  split
  · next hcut =>
    rw [Lines.cut_line hnom] at hcut
    cases hcut
  · next nom' suite' hcut =>
    rw [Lines.cut_line hnom] at hcut
    obtain ⟨rfl, rfl⟩ := Prod.mk.inj (Option.some.inj hcut)
    rw [if_neg hne, if_neg hsuite]
    cases commandFindChild m (some current) (some (String.ofList nom)) with
    | none => rfl
    | some child => simp [hsuite]

/-- A segment that others follow. -/
theorem chercher_segment (hne : nom ≠ []) (hnom : '/' ∉ nom) (hsuite : suite ≠ [])
    (hroot : ¬ (current = root ∧ String.ofList nom = (m root).name)) :
    chercherChemin m root alloue current (nom ++ '/' :: suite) appels =
      if alloue appels then
        (commandFindChild m (some current) (some (String.ofList nom))).bind fun child =>
          chercherChemin m root alloue child suite (appels + 1)
      else none := by
  rw [chercher_coupe hne hnom hsuite, if_neg hroot]

/-- The name of the root, at the root. -/
theorem chercher_racine (hne : nom ≠ []) (hnom : '/' ∉ nom) (hsuite : suite ≠ [])
    (hroot : String.ofList nom = (m root).name) :
    chercherChemin m root alloue root (nom ++ '/' :: suite) appels =
      chercherChemin m root alloue root suite appels := by
  rw [chercher_coupe hne hnom hsuite, if_pos ⟨rfl, hroot⟩]

end Segment

/-! ### What a path means -/

/-- Identifiers lead from a node to another, each that of a child of the node reached so far. -/
inductive Mene (m : Memoire ι H) : ι → List String → ι → Prop
  | dernier {p c : ι} {name : String} (hc : c ∈ (m p).children) (hname : name ∈ (m c).identifiants) :
      Mene m p [name] c
  | suite {p c node : ι} {name : String} {segments : List String} (hc : c ∈ (m p).children)
      (hname : name ∈ (m c).identifiants) (h : Mene m c segments node) : Mene m p (name :: segments) node

/-- Segments that a path can be made of. -/
def Propres (segments : List String) : Prop := ∀ name ∈ segments, name ≠ "" ∧ '/' ∉ name.toList

instance (segments : List String) : Decidable (Propres segments) :=
  inferInstanceAs (Decidable (∀ name ∈ segments, name ≠ "" ∧ '/' ∉ name.toList))

/-- The segments, with a `/` between them. -/
def joindre (segments : List String) : List Char := List.intercalate ['/'] (segments.map String.toList)

section Paths

variable {m : Memoire ι H} {p node : ι} {name : String} {segments segments' : List String}

omit [DecidableEq ι] in
theorem Mene.ne_nil (h : Mene m p segments node) : segments ≠ [] := by
  cases h <;> simp

omit [DecidableEq ι] in
theorem Mene.append (h : Mene m p (segments ++ segments') node) (hne : segments ≠ []) (hne' : segments' ≠ []) :
    ∃ q, Mene m p segments q ∧ Mene m q segments' node := by
  induction segments generalizing p with
  | nil => exact absurd rfl hne
  | cons name segments ih =>
    rw [List.cons_append] at h
    generalize hall : segments ++ segments' = rest at h
    cases h with
    | dernier hc hname => simp [hne'] at hall
    | suite hc hname h =>
      subst hall
      by_cases hlast : segments = []
      · subst hlast
        exact ⟨_, .dernier hc hname, h⟩
      · obtain ⟨q, hfirst, hrest⟩ := ih h hlast
        exact ⟨q, .suite hc hname hfirst, hrest⟩

@[simp] theorem joindre_singleton (name : String) : joindre [name] = name.toList := by
  simp [joindre]

theorem joindre_cons (name : String) (h : segments ≠ []) :
    joindre (name :: segments) = name.toList ++ '/' :: joindre segments := by
  rw [joindre, List.map_cons, List.intercalate_cons_of_ne_nil (by simpa using h)]
  simp [joindre]

theorem toList_chemin (segments : List String) : (String.intercalate "/" segments).toList = joindre segments := by
  simp [joindre]

theorem Propres.cons (h : Propres (name :: segments)) :
    name.toList ≠ [] ∧ '/' ∉ name.toList ∧ Propres segments := by
  obtain ⟨⟨hne, hslash⟩, hrest⟩ := List.forall_mem_cons.mp h
  exact ⟨by simpa using hne, hslash, hrest⟩

theorem Propres.replicate (h : Propres segments) (hname : name ≠ "" ∧ '/' ∉ name.toList) (k : Nat) :
    Propres (List.replicate k name ++ segments) := by
  intro x hmem
  rcases List.mem_append.mp hmem with hmem | hmem
  · rw [List.eq_of_mem_replicate hmem]
    exact hname
  · exact h x hmem

theorem Propres.joindre_ne_nil (h : Propres segments) (hne : segments ≠ []) : joindre segments ≠ [] := by
  cases segments with
  | nil => exact absurd rfl hne
  | cons name segments =>
    by_cases hlast : segments = []
    · subst hlast
      simpa using h.cons.1
    · simp [joindre_cons name hlast]

/-- **The segments of a path** are determined by it. -/
theorem joindre_injective (h : Propres segments) (h' : Propres segments') (hne : segments ≠ [])
    (hne' : segments' ≠ []) (heq : joindre segments = joindre segments') : segments = segments' := by
  have hsplit : ∀ {l : List String}, Propres l → l ≠ [] → (joindre l).splitOn '/' = l.map String.toList := by
    intro l hl hne
    refine List.splitOn_intercalate '/' (fun chars hchars => ?_) (by simpa using hne)
    obtain ⟨name, hname, rfl⟩ := List.mem_map.mp hchars
    exact (hl name hname).2
  have hmap : segments.map String.toList = segments'.map String.toList := by
    rw [← hsplit h hne, ← hsplit h' hne', heq]
  exact List.map_injective_iff.mpr (fun _ _ => String.toList_inj.mp) hmap

end Paths

/-! ### The search follows the path -/

section Search

variable {e : Etat ι H} {root current : ι} {alloue : Nat → Bool} {appels : Nat} {segments : List String} {node c : ι}

/-- The search is at the root, or where it cannot be at the root any more. -/
structure EnPlace (e : Etat ι H) (root current : ι) : Prop where
  initialise : e.initialise current = true
  place : current = root ∨ ¬ Below e.parentDe root current

omit [DecidableEq ι] in
theorem EnPlace.enfant (he : Foret e) (h : EnPlace e root current) (hc : c ∈ (e.memoire current).children) :
    EnPlace e root c ∧ c ≠ root := by
  have hparent : e.parentDe c = some current := (he.enfants current h.initialise c).mp hc
  have hbelow : ¬ Below e.parentDe root c := by
    intro hrc
    rcases h.place with rfl | hnot
    · exact he.forest.not_below_child hparent hrc
    · exact hnot (hrc.tail hparent)
  refine ⟨⟨(Etat.parentDe_eq.mp hparent).1, .inr hbelow⟩, ?_⟩
  rintro rfl
  exact hbelow .refl

omit [DecidableEq ι] in
theorem not_racine {m : Memoire ι H} {name : String}
    (hfirst : current = root → ∀ first ∈ (name :: segments).head?, first ≠ (m root).name) :
    ¬ (current = root ∧ String.ofList name.toList = (m root).name) := by
  rintro ⟨hp, hsame⟩
  rw [String.ofList_toList] at hsame
  exact hfirst hp name rfl hsame

/-- **The search finds what the path means**, if there is memory for each segment. At the root, the
first segment is to be another name than its own. -/
theorem chercher_mene (he : Foret e) (h : Mene e.memoire current segments node) (hplace : EnPlace e root current)
    (hpropres : Propres segments)
    (hfirst : current = root → ∀ name ∈ segments.head?, name ≠ (e.memoire root).name) :
    chercherChemin e.memoire root alloue current (joindre segments) appels =
      if ∀ i < segments.length, alloue (appels + i) = true then some node else none := by
  induction h generalizing appels with
  | @dernier p c name hc hname =>
    obtain ⟨hne, hslash, -⟩ := hpropres.cons
    have hfind := (he.findChild_iff hplace.initialise name c).mpr ⟨hc, nomCorrespond_iff.mpr hname⟩
    rw [joindre_singleton, chercher_dernier hne hslash (not_racine hfirst), String.ofList_toList, hfind]
    simp
  | @suite p c node name segments hc hname h ih =>
    obtain ⟨hne, hslash, hrest⟩ := hpropres.cons
    have hfind := (he.findChild_iff hplace.initialise name c).mpr ⟨hc, nomCorrespond_iff.mpr hname⟩
    obtain ⟨hchild, hcroot⟩ := hplace.enfant he hc
    have hsuite := hrest.joindre_ne_nil h.ne_nil
    rw [joindre_cons name h.ne_nil, chercher_segment hne hslash hsuite (not_racine hfirst), String.ofList_toList,
      hfind, Option.bind_some, ih hchild hrest fun heq => absurd heq hcroot]
    have hall : (∀ i < segments.length + 1, alloue (appels + i) = true) ↔
        alloue appels = true ∧ ∀ i < segments.length, alloue (appels + 1 + i) = true := by
      rw [Nat.forall_lt_succ_left]
      simp only [Nat.add_zero, Nat.add_assoc, Nat.add_comm 1]
    simp only [List.length_cons, hall]
    by_cases halloue : alloue appels = true <;> simp [halloue]

/-- **What the search finds** is what the path means, after the name of the root however many times. -/
theorem chercher_inv (he : Foret e) (segment : List Char) :
    EnPlace e root current → chercherChemin e.memoire root alloue current segment appels = some node →
      ∃ k segments, (current ≠ root → k = 0) ∧
        segment = joindre (List.replicate k (e.memoire root).name ++ segments) ∧ Propres segments ∧
        Mene e.memoire current segments node ∧
        (current = root → ∀ name ∈ segments.head?, name ≠ (e.memoire root).name) := by
  fun_induction chercherChemin e.memoire root alloue current segment appels with
  | case3 current segment appels hne hcut hroot halloue =>
    intro hplace hfind
    obtain ⟨hc, hname⟩ := (he.findChild_iff hplace.initialise _ node).mp hfind
    refine ⟨0, [String.ofList segment], fun _ => rfl, by simp, ?_, .dernier hc (nomCorrespond_iff.mp hname), ?_⟩
    · simpa [Propres, hne] using Lines.cut_none.mp hcut
    · rintro hcurrent name ⟨⟩ hsame
      exact hroot ⟨hcurrent, hsame⟩
  | case7 current segment appels hne nom suite hcut hnom hroot hsuite ih =>
    intro hplace hfind
    -- the root is named once more
    obtain ⟨rfl, hname⟩ := hroot
    obtain ⟨k, segments, -, rfl, hpropres, hmene, hfirst⟩ := ih hplace hfind
    refine ⟨k + 1, segments, fun h => absurd rfl h, ?_, hpropres, hmene, hfirst⟩
    have hmore : List.replicate k (e.memoire current).name ++ segments ≠ [] := by simp [hmene.ne_nil]
    have hnomToList : (e.memoire current).name.toList = nom := by rw [← hname, String.toList_ofList]
    rw [List.replicate_succ, List.cons_append, joindre_cons _ hmore, hnomToList]
    exact (Lines.cut_inv hcut).1
  | case10 current segment appels hne nom suite hcut hnom hroot halloue child hchild hsuite ih =>
    intro hplace hfind
    obtain ⟨hc, hname⟩ := (he.findChild_iff hplace.initialise _ child).mp hchild
    obtain ⟨hplaced, hcroot⟩ := hplace.enfant he hc
    obtain ⟨k, segments, hk, rfl, hpropres, hmene, -⟩ := ih hplaced hfind
    obtain rfl := hk hcroot
    obtain ⟨hsegment, hslash⟩ := Lines.cut_inv hcut
    refine ⟨0, String.ofList nom :: segments, fun _ => rfl, ?_, ?_, .suite hc (nomCorrespond_iff.mp hname) hmene, ?_⟩
    · rw [List.replicate_zero, List.nil_append] at hsegment ⊢
      rw [joindre_cons _ hmene.ne_nil, String.toList_ofList]
      exact hsegment
    · refine List.forall_mem_cons.mpr ⟨?_, hpropres⟩
      simpa [hnom] using hslash
    · rintro hcurrent name ⟨⟩ hsame
      exact hroot ⟨hcurrent, hsame⟩
  | _ => simp

end Search

/-! ### The root of a registry -/

section Root

variable {m m' : Memoire ι H} {e e' : Etat ι H} {root c : ι} {op : Operation ι H} {fuel : Nat} {code : Int}

theorem update_name {n : Node ι H} (h : n.name = (m c).name) (x : ι) :
    (Function.update m c n x).name = (m x).name := by
  by_cases hx : x = c
  · subst hx
    simpa using h
  · simp [hx]

/-- Clearing leaves the names. -/
theorem clear_name (fuel : Nat) :
    (∀ (m m' : Memoire ι H) (c : ι), clearNode fuel m c = some m' → ∀ x, (m' x).name = (m x).name) ∧
      ∀ (m m' : Memoire ι H) (c : ι) (i : Nat),
        clearChildren fuel m c i = some m' → ∀ x, (m' x).name = (m x).name := by
  induction fuel with
  | zero => simp [clearNode, clearChildren]
  | succ fuel ih =>
    obtain ⟨ihNode, ihChildren⟩ := ih
    constructor
    · intro m m' c h x
      rw [clearNode] at h
      obtain ⟨m₁, hm₁, rfl⟩ := Option.map_eq_some_iff.mp h
      have hvide : (m₁ c).vide.name = (m₁ c).name := rfl
      rw [update_name hvide, ihChildren m m₁ c 0 hm₁]
    · intro m m' c i h x
      rw [clearChildren] at h
      split at h
      · cases h
        rfl
      · next child _ =>
        have hcut : ({ m child with parent := none } : Node ι H).name = (m child).name := rfl
        split at h
        · cases h
        · next m₁ hm₁ => rw [ihChildren m₁ m' c (i + 1) h, ihNode _ m₁ _ hm₁, update_name hcut]

/-- **The root keeps its name** as long as it is not initialised again. -/
theorem executer_root (hinit : e.initialise root = true)
    (hroot : ∀ name description handler, op ≠ .init (some root) name description handler)
    (hx : executer fuel e op = some (code, e')) :
    e'.initialise root = true ∧ (e'.memoire root).name = (e.memoire root).name := by
  cases op with
  | init command name description handler =>
    obtain ⟨rfl, rfl⟩ := Prod.mk.inj (Option.some.inj hx)
    rcases commandInit_inv (rfl : commandInit e.memoire command name description handler = (_, _)) with
      ⟨hcode, hm⟩ | ⟨c, n, rfl, -, hcode, hm⟩
    · rw [hcode, hm]
      cases command <;> exact ⟨hinit, rfl⟩
    · have hne : root ≠ c := by
        rintro rfl
        exact hroot name description handler rfl
      rw [hcode, hm]
      simp [marquer, hne, hinit]
  | addAlias command autre alloue =>
    obtain ⟨rfl, rfl⟩ := Prod.mk.inj (Option.some.inj hx)
    refine ⟨hinit, ?_⟩
    rcases commandAddAlias_inv (rfl : commandAddAlias e.memoire command autre alloue = (_, _)) with
      ⟨-, hm⟩ | ⟨c, name, place, rfl, -, -, -, -, hm⟩
    · rw [hm]
    · rw [hm]
      refine update_name ?_ root
      rfl
  | addChild parent child alloue =>
    obtain ⟨⟨code', m⟩, hm, heq⟩ := Option.map_eq_some_iff.mp hx
    obtain ⟨-, rfl⟩ := Prod.mk.inj heq
    refine ⟨hinit, ?_⟩
    rcases commandAddChild_inv hm with ⟨-, rfl⟩ | ⟨p, c, place, rfl, rfl, hpc, -, -, -, -, -, rfl⟩
    · rfl
    · have hsame : ({ e.memoire c with parent := some p } : Node ι H).name =
          (Function.update e.memoire p { e.memoire p with
            children := (e.memoire p).children ++ [c], childCapacity := place } c).name := by
        rw [Function.update_of_ne (Ne.symm hpc)]
      rw [update_name hsame]
      refine update_name ?_ root
      rfl
  | clear command =>
    obtain ⟨m, hm, heq⟩ := Option.map_eq_some_iff.mp hx
    obtain ⟨-, rfl⟩ := Prod.mk.inj heq
    refine ⟨hinit, ?_⟩
    cases command with
    | none =>
      cases hm
      rfl
    | some c => exact (clear_name fuel).1 e.memoire m c hm root

/-- **A registry** is a forest, with its root in place. -/
theorem Registre.racine (h : Registre root e) :
    Foret e ∧ EnPlace e root root ∧ (e.memoire root).name = "AML" := by
  have hall : Atteignable e ∧ e.initialise root = true ∧ (e.memoire root).name = "AML" := by
    induction h with
    | init h hp hx =>
      have hinit := Prod.mk.inj (Option.some.inj ((executer_registry _ _ root root true).1.symm.trans hx))
      refine ⟨h.appel hp hx, ?_, ?_⟩
      · rw [← hinit.2, hinit.1]
        simp [marquer]
      · rw [← hinit.2]
        simp [registryInit, commandInit]
    | appel h hp hroot hx ih =>
      obtain ⟨hreached, hinit, hname⟩ := ih
      obtain ⟨hkept, hsame⟩ := executer_root hinit hroot hx
      exact ⟨hreached.appel hp hx, hkept, hsame.trans hname⟩
  exact ⟨hall.1.foret, ⟨hall.2.1, .inl rfl⟩, hall.2.2⟩

end Root

/-! ### A tree in memory -/

/-- The memory holds a tree of commands at a node: the same names and values, no aliases, and the children in
the same order. -/
inductive Porte (m : Memoire ι H) : ι → Command → Prop
  | noeud {c : ι} {command : Command} (hname : (m c).name = command.name) (haliases : (m c).aliases = [])
      (hspec : (m c).valueSpec = command.valueSpec)
      (hchildren : List.Forall₂ (Porte m) (m c).children command.children) : Porte m c command

section Arbre

variable {e : Etat ι H} {m : Memoire ι H} {root current p : ι} {command parent : Command} {chemin : List String}

omit [DecidableEq ι] in
theorem Porte.name (h : Porte m p parent) : (m p).name = parent.name := by
  cases h with
  | noeud hname => exact hname

omit [DecidableEq ι] in
theorem find_porte {nodes : List ι} {children : List Command} (h : List.Forall₂ (Porte m) nodes children)
    (name : String) : Option.Rel (Porte m) (nodes.find? fun c => nomCorrespond (m c) name)
      (children.find? fun child => child.name == name) := by
  induction h with
  | nil => exact .none
  | @cons c child nodes children hchild _ ih =>
    have hname : nomCorrespond (m c) name = (child.name == name) := by
      cases hchild with
      | noeud hname haliases => simp [nomCorrespond, hname, haliases]
    rw [List.find?_cons, List.find?_cons, hname]
    cases child.name == name with
    | true => exact .some hchild
    | false => exact ih

omit [DecidableEq ι] in
/-- **A child is found** in memory where it is found in the tree. -/
theorem Porte.findChild (h : Porte m p parent) (name : String) : Option.Rel (Porte m)
    (commandFindChild m (some p) (some name)) (AmlService.commandFindChild parent name) := by
  cases h with
  | noeud _ _ _ hchildren => exact find_porte hchildren name

/-- An empty segment before or after a `/` leads nowhere. -/
theorem chercher_vide {nom suite : List Char} {alloue : Nat → Bool} (hnom : '/' ∉ nom) (h : nom = [] ∨ suite = [])
    (appels : Nat) : chercherChemin m root alloue current (nom ++ '/' :: suite) appels = none := by
  rw [chercherChemin, if_neg (by simp)]
  split
  · next hcut =>
    rw [Lines.cut_line hnom] at hcut
    cases hcut
  · next hcut =>
    rw [Lines.cut_line hnom] at hcut
    obtain ⟨rfl, rfl⟩ := Prod.mk.inj (Option.some.inj hcut)
    split
    · rfl
    · next hne =>
      obtain rfl := h.resolve_left hne
      split
      · rfl
      · split
        · cases commandFindChild m (some current) (some (String.ofList nom)) <;> rfl
        · rfl

theorem chercherSegments_vide (command : Command) (chemin : List String) :
    chercherSegments command chemin [""] = none := by
  rw [chercherSegments, if_pos rfl]

omit [DecidableEq ι] in
/-- Both searches are at the root, or both are not. -/
theorem Porte.racine_iff (h : Porte m current command) (hchemin : chemin = [] ↔ current = root) (nom : List Char) :
    chemin = [] ∧ String.ofList nom = command.name ↔ current = root ∧ String.ofList nom = (m root).name := by
  rw [hchemin]
  constructor <;> rintro ⟨rfl, hname⟩ <;> exact ⟨rfl, by rw [hname, h.name]⟩

/-- A path that ends with a `/` names nothing in the tree either. -/
theorem chercherSegments_termine (command : Command) (chemin : List String) {nom : String} (hnom : nom ≠ "") :
    chercherSegments command chemin [nom, ""] = none := by
  rw [chercherSegments, if_neg hnom]
  simp only [chercherSegments_vide]
  split
  · rfl
  · cases AmlService.commandFindChild command nom <;> rfl

/-- **The last segment** is found in both, or in neither. -/
theorem chercher_porte_dernier (hporte : Porte e.memoire current command) (hchemin : chemin = [] ↔ current = root)
    {segment : List Char} (hempty : segment ≠ []) (hslash : '/' ∉ segment) (appels : Nat) :
    Option.Rel (fun node found => Porte e.memoire node found.command)
      (chercherChemin e.memoire root (fun _ => true) current segment appels)
      (chercherSegments command chemin [String.ofList segment]) := by
  have hnom : String.ofList segment ≠ "" := by simpa using hempty
  rw [chercherSegments, if_neg hnom]
  by_cases hroot : current = root ∧ String.ofList segment = (e.memoire root).name
  · rw [if_pos ((hporte.racine_iff hchemin segment).mpr hroot), chercherChemin, if_neg hempty]
    split
    · rw [if_pos hroot]
      exact .none
    · next heq =>
      rw [Lines.cut_none.mpr hslash] at heq
      cases heq
  · have hrel := hporte.findChild (String.ofList segment)
    rw [if_neg (mt (hporte.racine_iff hchemin segment).mp hroot), chercher_dernier hempty hslash hroot, if_pos rfl]
    generalize commandFindChild e.memoire (some current) (some (String.ofList segment)) = node at hrel ⊢
    generalize AmlService.commandFindChild command (String.ofList segment) = found at hrel ⊢
    cases hrel with
    | none => exact .none
    | some hchild => exact .some hchild

/-- **The two searches go together**, segment by segment. -/
theorem chercher_porte (he : Foret e) (segment : List Char) (appels : Nat) (hplace : EnPlace e root current)
    (hporte : Porte e.memoire current command) (hchemin : chemin = [] ↔ current = root) :
    Option.Rel (fun node found => Porte e.memoire node found.command)
      (chercherChemin e.memoire root (fun _ => true) current segment appels)
      (chercherSegments command chemin ((segment.splitOn '/').map String.ofList)) := by
  induction hn : segment.length using Nat.strong_induction_on generalizing segment current command chemin appels with
  | _ n ih =>
  subst hn
  by_cases hempty : segment = []
  · subst hempty
    rw [chercherChemin, if_pos rfl, List.splitOn_nil]
    exact .none
  cases hcut : Lines.cut '/' segment with
  | none =>
    have hslash := Lines.cut_none.mp hcut
    rw [List.splitOn_eq_singleton hslash, List.map_singleton]
    exact chercher_porte_dernier hporte hchemin hempty hslash appels
  | some parts =>
    obtain ⟨nom, suite⟩ := parts
    obtain ⟨hsegment, hslash⟩ := Lines.cut_inv hcut
    have hshorter := Lines.cut_lt hcut
    rw [hsegment, List.splitOn_append_cons_self_of_not_mem hslash, List.map_cons]
    by_cases hnom : nom = []
    · subst hnom
      rw [chercherSegments, if_pos rfl, chercher_vide hslash (.inl rfl)]
      exact .none
    have hname : String.ofList nom ≠ "" := by simpa using hnom
    by_cases hsuite : suite = []
    · subst hsuite
      have hnone := chercherSegments_termine command chemin hname
      rw [chercher_vide hslash (.inr rfl), List.splitOn_nil, List.map_singleton, String.ofList_nil, hnone]
      exact .none
    have hrest : (suite.splitOn '/').map String.ofList ≠ [] := by simp
    rw [chercher_coupe hnom hslash hsuite, chercherSegments, if_neg hname]
    by_cases hroot : current = root ∧ String.ofList nom = (e.memoire root).name
    · rw [if_pos hroot, if_pos ((hporte.racine_iff hchemin nom).mpr hroot)]
      exact ih _ hshorter suite appels hplace hporte (by simp [hroot.1]) rfl
    have hrel := hporte.findChild (String.ofList nom)
    rw [if_neg hroot, if_neg (mt (hporte.racine_iff hchemin nom).mp hroot), if_pos rfl]
    rcases hfind : commandFindChild e.memoire (some current) (some (String.ofList nom)) with _ | c
    · rw [hfind] at hrel
      generalize AmlService.commandFindChild command (String.ofList nom) = found at hrel ⊢
      cases hrel
      exact .none
    · rw [hfind] at hrel
      obtain ⟨hc, -⟩ := (he.findChild_iff hplace.initialise _ c).mp hfind
      obtain ⟨hplaced, hcroot⟩ := hplace.enfant he hc
      generalize AmlService.commandFindChild command (String.ofList nom) = found at hrel ⊢
      cases hrel with
      | some hchild =>
        dsimp only
        rw [if_neg hrest]
        exact ih _ hshorter suite (appels + 1) hplaced hchild (by simp [hcroot]) rfl

/-- **A path leads to the same command** in the tree and in the memory that holds it. -/
theorem registryFindPath_porte (h : Registre root e) (hporte : Porte e.memoire root command) (path : String) :
    Option.Rel (fun node found => Porte e.memoire node found.command)
      (registryFindPath e.memoire (fun _ => true) (some root) (some path))
      (AmlService.registryFindPath command path) := by
  obtain ⟨he, hplace, -⟩ := h.racine
  unfold registryFindPath AmlService.registryFindPath
  dsimp only
  split
  · next hempty =>
    subst hempty
    rw [show (("".toList.splitOn '/').map String.ofList) = [""] from rfl, chercherSegments_vide]
    exact .none
  · exact chercher_porte he path.toList 0 hplace hporte (by simp)

end Arbre

/-! ### A small registry -/

/-- The state after a call. -/
def apres (e : Etat Nat Unit) (op : Operation Nat Unit) : Etat Nat Unit :=
  ((executer 3 e op).map Prod.snd).getD e

/-- An empty registry. -/
def registreVide : Etat Nat Unit :=
  apres { memoire := fun _ => noeud "", initialise := fun _ => false }
    (.init (some 0) (some "AML") (some "Racine des commandes AML") none)

/-- A registry of one lamp with two names, and its brightness. -/
def registreLampe : Etat Nat Unit :=
  [.init (some 1) (some "Light") none none, .addAlias (some 1) (some "Lamp") true,
    .init (some 2) (some "Brightness") none none, .addChild (some 1) (some 2) true,
    .addChild (some 0) (some 1) true].foldl apres registreVide

theorem registre_lampe : Registre 0 registreLampe := by
  have hstep : ∀ {e : Etat Nat Unit} (op : Operation Nat Unit), Registre 0 e → Permise e op →
      (∀ name description handler, op ≠ .init (some 0) name description handler) →
      (executer 3 e op).isSome → Registre 0 (apres e op) := by
    intro e op h hp hroot hsome
    obtain ⟨⟨code, e'⟩, hx⟩ := Option.isSome_iff_exists.mp hsome
    have hnext : apres e op = e' := by simp [apres, hx]
    rw [hnext]
    exact h.appel hp hroot hx
  have hinit : executer 3 { memoire := fun _ => noeud "", initialise := fun _ => false }
      (.init (some 0) (some "AML") (some "Racine des commandes AML") none) = some (0, registreVide) := rfl
  have h₀ : Registre 0 registreVide := .init (.debut _) (by simp [Permise]) hinit
  have h₁ := hstep (.init (some 1) (some "Light") none none) h₀ (by rintro c ⟨⟩ ⟨⟩) (by simp) rfl
  have h₂ := hstep (.addAlias (some 1) (some "Lamp") true) h₁ (by rintro c ⟨⟩; rfl) (by simp) rfl
  have h₃ := hstep (.init (some 2) (some "Brightness") none none) h₂ (by rintro c ⟨⟩ ⟨⟩) (by simp) rfl
  have h₄ := hstep (.addChild (some 1) (some 2) true) h₃ ⟨by rintro c ⟨⟩; rfl, by rintro c ⟨⟩; rfl⟩ (by simp) rfl
  exact hstep (.addChild (some 0) (some 1) true) h₄ ⟨by rintro c ⟨⟩; rfl, by rintro c ⟨⟩; rfl⟩ (by simp) rfl

theorem registreLampe_children :
    (registreLampe.memoire 0).children = [1] ∧ (registreLampe.memoire 1).children = [2] ∧
      (registreLampe.memoire 2).children = [] ∧ (registreLampe.memoire 1).identifiants = ["Light", "Lamp"] ∧
      (registreLampe.memoire 2).identifiants = ["Brightness"] := by
  decide

/-! ### Every command is found by its paths -/

/-- `c` is under `root`, children after children. -/
def Sous (m : Memoire ι H) (root c : ι) : Prop := Relation.TransGen (fun p c => c ∈ (m p).children) root c

/-- The identifiers under the root are segments, and none of the first level is the name of the root. -/
structure NomsSimples (m : Memoire ι H) (root : ι) : Prop where
  propres : ∀ c, Sous m root c → ∀ name ∈ (m c).identifiants, name ≠ "" ∧ '/' ∉ name.toList
  premiers : ∀ c ∈ (m root).children, "AML" ∉ (m c).identifiants

section Found

variable {m : Memoire ι H} {e : Etat ι H} {root node p c : ι} {segments : List String} {alloue : Nat → Bool}

omit [DecidableEq ι] in
/-- Every node under the root is led to, by the names for one. -/
theorem Sous.mene (h : Sous m root c) : ∃ segments, Mene m root segments c := by
  induction h using Relation.TransGen.head_induction_on with
  | single hc => exact ⟨_, .dernier hc List.mem_cons_self⟩
  | head hc _ ih =>
    obtain ⟨segments, hmene⟩ := ih
    exact ⟨_, .suite hc List.mem_cons_self hmene⟩

omit [DecidableEq ι] in
theorem NomsSimples.mene (h : NomsSimples m root) (hmene : Mene m p segments node)
    (hp : p = root ∨ Sous m root p) : Propres segments := by
  have hsous : ∀ {p c}, p = root ∨ Sous m root p → c ∈ (m p).children → Sous m root c := by
    rintro p c (rfl | hp) hc
    · exact .single hc
    · exact hp.tail hc
  induction hmene with
  | dernier hc hname => simpa [Propres] using h.propres _ (hsous hp hc) _ hname
  | suite hc hname _ ih =>
    exact List.forall_mem_cons.mpr ⟨h.propres _ (hsous hp hc) _ hname, ih (.inr (hsous hp hc))⟩

omit [DecidableEq ι] in
theorem Mene.premier (h : Mene m p segments node) :
    ∃ c ∈ (m p).children, ∃ name ∈ (m c).identifiants, segments.head? = some name := by
  cases h with
  | dernier hc hname => exact ⟨_, hc, _, hname, rfl⟩
  | suite hc hname _ => exact ⟨_, hc, _, hname, rfl⟩

/-- The name of the root is skipped, however many times it comes first. -/
theorem chercher_repete (hname : (m root).name ≠ "" ∧ '/' ∉ (m root).name.toList) (h : Propres segments)
    (hne : segments ≠ []) (k : Nat) :
    chercherChemin m root alloue root (joindre (List.replicate k (m root).name ++ segments)) 0 =
      chercherChemin m root alloue root (joindre segments) 0 := by
  induction k with
  | zero => rfl
  | succ k ih =>
    have hpropres : Propres (List.replicate k (m root).name ++ segments) := h.replicate hname k
    have hmore : List.replicate k (m root).name ++ segments ≠ [] := by simp [hne]
    rw [List.replicate_succ, List.cons_append, joindre_cons _ hmore,
      chercher_racine (by simpa using hname.1) hname.2 (hpropres.joindre_ne_nil hmore) String.ofList_toList, ih]

theorem registryFindPath_eq (h : Propres segments) (hne : segments ≠ []) :
    registryFindPath m alloue (some root) (some (String.intercalate "/" segments)) =
      chercherChemin m root alloue root (joindre segments) 0 := by
  have hpath : String.intercalate "/" segments ≠ "" := by
    intro heq
    have hnil := congrArg String.toList heq
    rw [toList_chemin] at hnil
    exact h.joindre_ne_nil hne hnil
  rw [registryFindPath]
  simp only [hpath, if_false, toList_chemin]

/-- The prefix is one more segment. -/
theorem aml_chemin (h : segments ≠ []) :
    "AML/" ++ String.intercalate "/" segments = String.intercalate "/" ("AML" :: segments) := by
  rw [String.intercalate_cons_of_ne_nil h]
  rfl

theorem aml_propre : "AML" ≠ "" ∧ '/' ∉ "AML".toList := by decide

/-- The search by a path of the root, of its name any number of times and then of segments that lead
to a node. -/
theorem registryFindPath_mene (h : Registre root e) (hmene : Mene e.memoire root segments node)
    (hpropres : Propres segments) (hfirst : ∀ name ∈ segments.head?, name ≠ "AML") (k : Nat) :
    registryFindPath e.memoire alloue (some root)
        (some (String.intercalate "/" (List.replicate k "AML" ++ segments))) =
      if ∀ i < segments.length, alloue i = true then some node else none := by
  obtain ⟨he, hplace, hname⟩ := h.racine
  have hall : Propres (List.replicate k "AML" ++ segments) := hpropres.replicate aml_propre k
  have hskip := @chercher_repete _ _ _ e.memoire root segments alloue
    (by rw [hname]; exact aml_propre) hpropres hmene.ne_nil k
  have hfound := @chercher_mene _ _ _ e root root alloue 0 segments node he hmene hplace hpropres
    fun _ => by rwa [hname]
  rw [hname] at hskip
  rw [registryFindPath_eq hall (by simp [hmene.ne_nil]), hskip, hfound]
  simp only [Nat.zero_add]

/-- **Every command is found by its paths**: by any of the identifiers of the command and of each of
its parents below the root, with or without the name of the root before them. It takes memory for
each of them. -/
theorem chemin_trouve (h : Registre root e) (hnoms : NomsSimples e.memoire root)
    (hnode : Sous e.memoire root node) :
    (∃ segments, Mene e.memoire root segments node) ∧
    ∀ segments, Mene e.memoire root segments node → ∀ alloue : Nat → Bool,
      (registryFindPath e.memoire alloue (some root) (some (String.intercalate "/" segments)) =
        if ∀ i < segments.length, alloue i = true then some node else none) ∧
      registryFindPath e.memoire alloue (some root) (some ("AML/" ++ String.intercalate "/" segments)) =
        if ∀ i < segments.length, alloue i = true then some node else none := by
  refine ⟨hnode.mene, fun segments hmene alloue => ?_⟩
  have hpropres : Propres segments := hnoms.mene hmene (.inl rfl)
  have hfirst : ∀ name ∈ segments.head?, name ≠ "AML" := by
    obtain ⟨c, hc, name, hname, hhead⟩ := hmene.premier
    rw [hhead]
    rintro _ ⟨⟩ rfl
    exact hnoms.premiers c hc hname
  refine ⟨registryFindPath_mene h hmene hpropres hfirst 0, ?_⟩
  rw [aml_chemin hmene.ne_nil]
  exact registryFindPath_mene h hmene hpropres hfirst 1

end Found

theorem registreLampe_noms : NomsSimples registreLampe.memoire 0 := by
  obtain ⟨hroot, hlight, hbrightness, hnames, hnames'⟩ := registreLampe_children
  have hsous : ∀ c, Sous registreLampe.memoire 0 c → c = 1 ∨ c = 2 := by
    intro c hc
    induction hc with
    | single hc => exact .inl (by simpa [hroot] using hc)
    | tail _ hc ih =>
      rcases ih with rfl | rfl
      · exact .inr (by simpa [hlight] using hc)
      · simp [hbrightness] at hc
  refine ⟨fun c hc name hname => ?_, fun c hc => ?_⟩
  · rcases hsous c hc with rfl | rfl
    · rw [hnames] at hname
      revert name
      decide
    · rw [hnames'] at hname
      revert name
      decide
  · obtain rfl : c = 1 := by simpa [hroot] using hc
    rw [hnames]
    decide

/-- An alias, a name, and the prefix. -/
theorem chemin_trouve_lampe :
    registryFindPath registreLampe.memoire (fun _ => true) (some 0) (some "AML/Lamp/Brightness") = some 2 := by
  obtain ⟨hroot, hlight, -, hnames, hnames'⟩ := registreLampe_children
  have h1 : 1 ∈ (registreLampe.memoire 0).children := by simp [hroot]
  have h2 : 2 ∈ (registreLampe.memoire 1).children := by simp [hlight]
  have hmene : Mene registreLampe.memoire 0 ["Lamp", "Brightness"] 2 :=
    .suite h1 (by simp [hnames]) (.dernier h2 (by simp [hnames']))
  have hfound := ((chemin_trouve registre_lampe registreLampe_noms (.tail (.single h1) h2)).2 _ hmene
    fun _ => true).2
  rwa [if_pos fun _ _ => rfl] at hfound

/-! ### What a path that is accepted is -/

/-- A path designates a node: segments that lead to it from the root, with at most one prefix. -/
def Designe (m : Memoire ι H) (root : ι) (path : String) (node : ι) : Prop :=
  ∃ segments, (path = String.intercalate "/" segments ∨ path = "AML/" ++ String.intercalate "/" segments) ∧
    Propres segments ∧ Mene m root segments node

/-- The search by a path gives the node that it designates, or none. -/
def CheminFidele (m : Memoire ι H) (root : ι) (path : String) : Prop :=
  ∀ alloue : Nat → Bool,
    (∀ node, registryFindPath m alloue (some root) (some path) = some node → Designe m root path node) ∧
      ((∀ node, ¬ Designe m root path node) → registryFindPath m alloue (some root) (some path) = none)

/-- The prefix comes twice or more before segments that lead to a node. -/
def PrefixeRepete (m : Memoire ι H) (root : ι) (path : String) : Prop :=
  ∃ k segments node, path = String.intercalate "/" (List.replicate (k + 2) "AML" ++ segments) ∧
    Propres segments ∧ (∀ name ∈ segments.head?, name ≠ "AML") ∧ Mene m root segments node

section Accepted

variable {e : Etat ι H} {root node p q : ι} {segments segments' : List String} {path : String}

omit [DecidableEq ι] in
/-- As many steps down to one node start from one node: each node has one parent. -/
theorem Mene.depart (he : Foret e) (hp : e.initialise p = true) (hq : e.initialise q = true)
    (h : Mene e.memoire p segments node) (h' : Mene e.memoire q segments' node)
    (hlength : segments.length = segments'.length) : p = q := by
  have hparents : ∀ {p q c : ι}, e.initialise p = true → e.initialise q = true →
      c ∈ (e.memoire p).children → c ∈ (e.memoire q).children → p = q := by
    intro p q c hp hq hcp hcq
    exact Option.some.inj (((he.enfants p hp c).mp hcp).symm.trans ((he.enfants q hq c).mp hcq))
  have hchild : ∀ {p c : ι}, e.initialise p = true → c ∈ (e.memoire p).children → e.initialise c = true :=
    fun hp hc => (Etat.parentDe_eq.mp ((he.enfants _ hp _).mp hc)).1
  induction h generalizing q segments' with
  | dernier hc hname =>
    cases h' with
    | dernier hc' hname' => exact hparents hp hq hc hc'
    | suite hc' hname' h' => simp [h'.ne_nil] at hlength
  | suite hc hname h ih =>
    cases h' with
    | dernier hc' hname' => simp [h.ne_nil] at hlength
    | suite hc' hname' h' =>
      obtain rfl := ih (hchild hp hc) (hchild hq hc') h' (by simpa using hlength)
      exact hparents hp hq hc hc'

omit [DecidableEq ι] in
/-- Steps down from the root do not come back to it. -/
theorem Mene.enPlace (he : Foret e) (hplace : EnPlace e root p) (h : Mene e.memoire p segments node) :
    EnPlace e root node ∧ node ≠ root := by
  induction h with
  | dernier hc hname => exact hplace.enfant he hc
  | suite hc hname _ ih => exact ih (hplace.enfant he hc).1

omit [DecidableEq ι] in
/-- **A node is not led to by more and by fewer segments**, the same at the end. -/
theorem Mene.not_longer (he : Foret e) (hplace : EnPlace e root root) (h : Mene e.memoire root segments node)
    {before : List String} (hne : before ≠ []) : ¬ Mene e.memoire root (before ++ segments) node := by
  intro hlong
  obtain ⟨q, hbefore, hrest⟩ := hlong.append hne h.ne_nil
  obtain ⟨hq, hqroot⟩ := hbefore.enPlace he hplace
  exact hqroot (hrest.depart he hq.initialise hplace.initialise h rfl)

/-- The segments of a path with a prefix, or without. -/
theorem designe_segments (h : Propres segments') (hne : segments' ≠ [])
    (hpath : String.intercalate "/" ("AML" :: segments) = String.intercalate "/" segments' ∨
      String.intercalate "/" ("AML" :: segments) = "AML/" ++ String.intercalate "/" segments')
    (hall : Propres ("AML" :: segments)) : segments' = "AML" :: segments ∨ segments' = segments := by
  rcases hpath with hpath | hpath
  · have hchars := congrArg String.toList hpath
    rw [toList_chemin, toList_chemin] at hchars
    exact .inl (joindre_injective hall h (by simp) hne hchars).symm
  · rw [aml_chemin hne] at hpath
    have hchars := congrArg String.toList hpath
    rw [toList_chemin, toList_chemin] at hchars
    have hmore : Propres ("AML" :: segments') := List.forall_mem_cons.mpr ⟨aml_propre, h⟩
    exact .inr (List.cons.inj (joindre_injective hall hmore (by simp) (by simp) hchars)).2.symm

/-- **A repeated prefix is accepted**, and what it finds is not what the path designates. -/
theorem PrefixeRepete.not_fidele (h : Registre root e) (hrepete : PrefixeRepete e.memoire root path) :
    ¬ CheminFidele e.memoire root path := by
  obtain ⟨k, segments, node, rfl, hpropres, hfirst, hmene⟩ := hrepete
  obtain ⟨he, hplace, -⟩ := h.racine
  intro hfidele
  have hfound : registryFindPath e.memoire (fun _ => true) (some root)
      (some (String.intercalate "/" (List.replicate (k + 2) "AML" ++ segments))) = some node := by
    rw [registryFindPath_mene h hmene hpropres hfirst (k + 2), if_pos fun _ _ => rfl]
  obtain ⟨segments', hpath, hpropres', hmene'⟩ := (hfidele fun _ => true).1 node hfound
  rw [List.replicate_succ, List.cons_append] at hpath
  have hall : Propres ("AML" :: (List.replicate (k + 1) "AML" ++ segments)) :=
    hpropres.replicate aml_propre (k + 2)
  rcases designe_segments hpropres' hmene'.ne_nil hpath hall with rfl | rfl
  · have hmore : List.replicate (k + 2) "AML" ≠ [] := by simp
    exact hmene.not_longer he hplace hmore hmene'
  · exact hmene.not_longer he hplace (by simp) hmene'

/-- **A path finds the node that it designates**, if any, unless the prefix comes more than once and
what follows leads to a node. -/
theorem chemin_fidele (h : Registre root e) (path : String) :
    CheminFidele e.memoire root path ↔ ¬ PrefixeRepete e.memoire root path := by
  constructor
  · exact fun hfidele hrepete => hrepete.not_fidele h hfidele
  intro hnot alloue
  have hdesigne : ∀ node, registryFindPath e.memoire alloue (some root) (some path) = some node →
      Designe e.memoire root path node := by
    intro node hfound
    obtain ⟨he, hplace, hname⟩ := h.racine
    rw [registryFindPath] at hfound
    split at hfound
    · cases hfound
    obtain ⟨k, segments, -, hsegments, hpropres, hmene, hfirst⟩ := chercher_inv he _ hplace hfound
    rw [hname] at hsegments hfirst
    have hpath : path = String.intercalate "/" (List.replicate k "AML" ++ segments) := by
      rw [← String.toList_inj, toList_chemin, hsegments]
    match k, hpath with
    | 0, hpath => exact ⟨segments, .inl hpath, hpropres, hmene⟩
    | 1, hpath => exact ⟨segments, .inr (hpath.trans (aml_chemin hmene.ne_nil).symm), hpropres, hmene⟩
    | k + 2, hpath => exact absurd ⟨k, segments, node, hpath, hpropres, hfirst rfl, hmene⟩ hnot
  refine ⟨hdesigne, fun hnone => ?_⟩
  rcases hfound : registryFindPath e.memoire alloue (some root) (some path) with _ | node
  · rfl
  · exact absurd (hdesigne node hfound) (hnone node)

end Accepted

/-- The prefix alone. -/
theorem chemin_fidele_lampe : CheminFidele registreLampe.memoire 0 "AML/Lamp/Brightness" := by
  refine (chemin_fidele registre_lampe _).mpr ?_
  rintro ⟨k, segments, node, hpath, hpropres, -, -⟩
  have hchars := congrArg String.toList hpath
  have hsegments : "AML/Lamp/Brightness".toList = joindre ["AML", "Lamp", "Brightness"] := by decide +kernel
  rw [toList_chemin, hsegments] at hchars
  have hall := joindre_injective (by decide +kernel) (hpropres.replicate aml_propre (k + 2)) (by simp) (by simp)
    hchars
  rw [List.replicate_succ, List.replicate_succ] at hall
  simp at hall

/-- The prefix twice. -/
theorem chemin_prefixe_repete :
    registryFindPath registreLampe.memoire (fun _ => true) (some 0) (some "AML/AML/Light") = some 1 ∧
      ¬ CheminFidele registreLampe.memoire 0 "AML/AML/Light" := by
  obtain ⟨hroot, -, -, hnames, -⟩ := registreLampe_children
  have hmene : Mene registreLampe.memoire 0 ["Light"] 1 := .dernier (by simp [hroot]) (by simp [hnames])
  have hfirst : ∀ name ∈ ["Light"].head?, name ≠ "AML" := by
    rintro name ⟨⟩
    decide
  have hpropres : Propres ["Light"] := by decide
  refine ⟨?_, ?_⟩
  · have hfound := @registryFindPath_mene _ _ _ _ _ _ _ (fun _ => true) registre_lampe hmene hpropres hfirst 2
    rwa [if_pos fun _ _ => rfl] at hfound
  · exact PrefixeRepete.not_fidele registre_lampe ⟨0, ["Light"], 1, rfl, hpropres, hfirst, hmene⟩

end AmlService.CommandNodes
