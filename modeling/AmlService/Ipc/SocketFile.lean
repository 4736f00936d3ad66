import AmlService.Lib.Run
import Mathlib.Logic.Function.Basic

/-!
# AmlService.Ipc.SocketFile

The file of the listening socket (`ipc_server_init`, `socket_is_stale` and `ipc_server_cleanup`,
`ipc/ipc_server.c`), for any number of programs that are started on the same path, stopped and
killed, one system call after the other in any order.

A server that was killed leaves its file behind, and the next one removes it once it has made sure
that nobody answers there. As long as no server is started or stopped while another one is
starting or stopping, a server that runs is the one that clients reach (`service_joignable`). Two
that start at once may take the file from each other.
-/

namespace AmlService

/-- What is at the path: nothing, a file that is not a socket, or the socket that a program has bound. -/
inductive Fichier
  | absent
  | autre
  | socket (auteur : Nat)
  deriving Repr, DecidableEq

/-- Where a program is: before the system call that it makes next. -/
inductive Phase
  | eteint
  /-- `socket`, `set_nonblocking` -/
  | creation
  /-- `bind` -/
  | liaison
  /-- `lstat` -/
  | examen
  /-- `connect` -/
  | essai
  /-- `unlink`, of a file left behind -/
  | remplacement
  /-- `bind`, once more -/
  | nouvelleLiaison
  /-- `chmod` -/
  | droits
  /-- `listen` -/
  | ecoute
  /-- `sigaction` -/
  | signaux
  /-- `ipc_server_run` -/
  | boucle
  /-- `close`, of a socket that was listened on or not -/
  | fermeture (ecoutee : Bool)
  /-- `unlink`, of its own file -/
  | effacement
  | fini
  deriving Repr, DecidableEq

/-- The file, and the programs. -/
structure Systeme where
  fichier : Fichier
  phases : Nat → Phase

namespace Systeme

/-- Connecting to the socket of a program succeeds. -/
def Repond (s : Systeme) (k : Nat) : Prop :=
  s.phases k = .signaux ∨ s.phases k = .boucle ∨ s.phases k = .fermeture true

instance (s : Systeme) (k : Nat) : Decidable (s.Repond k) := inferInstanceAs (Decidable (_ ∨ _ ∨ _))

/-- A program goes on. -/
def aller (s : Systeme) (i : Nat) (phase : Phase) : Systeme :=
  { s with phases := Function.update s.phases i phase }

/-- A program goes on, and there is another file. -/
def changer (s : Systeme) (i : Nat) (fichier : Fichier) (phase : Phase) : Systeme :=
  { fichier, phases := Function.update s.phases i phase }

/-- A program makes its next system call, which the kernel may refuse for reasons of its own;
`boucle` ends. A program that has not bound the path closes its socket, which nobody knows,
and ends. -/
def avancer (s : Systeme) (i : Nat) (refuse : Bool) : Systeme :=
  match s.phases i with
  | .eteint | .fini => s
  | .creation => s.aller i (if refuse then .fini else .liaison)
  | .liaison =>
    if refuse then s.aller i .fini
    else if s.fichier = .absent then s.changer i (.socket i) .droits
    else s.aller i .examen
  | .examen =>
    match s.fichier with
    | .socket _ => s.aller i (if refuse then .fini else .essai)
    | _ => s.aller i .fini
  | .essai =>
    match s.fichier with
    | .socket k => s.aller i (if refuse ∨ s.Repond k then .fini else .remplacement)
    -- connecting to a file that is not a socket is refused as well
    | .autre => s.aller i (if refuse then .fini else .remplacement)
    | .absent => s.aller i .fini
  | .remplacement =>
    if refuse ∨ s.fichier = .absent then s.aller i .fini else s.changer i .absent .nouvelleLiaison
  | .nouvelleLiaison =>
    if refuse ∨ s.fichier ≠ .absent then s.aller i .fini else s.changer i (.socket i) .droits
  | .droits => s.aller i (if refuse ∨ s.fichier = .absent then .fermeture false else .ecoute)
  | .ecoute => s.aller i (if refuse then .fermeture false else .signaux)
  | .signaux => s.aller i (if refuse then .fermeture true else .boucle)
  | .boucle => s.aller i (.fermeture true)
  | .fermeture _ => s.aller i .effacement
  | .effacement => if refuse then s.aller i .fini else s.changer i .absent .fini

/-- What can happen. -/
inductive Geste
  | demarrer (i : Nat)
  | avancer (i : Nat) (refuse : Bool)
  /-- `kill -9`, or a power cut: the kernel closes the socket, the file stays. -/
  | tuer (i : Nat)
  deriving Repr, DecidableEq

def pas (s : Systeme) : Geste → Systeme
  | .demarrer i => if s.phases i = .eteint then s.aller i .creation else s
  | .avancer i refuse => s.avancer i refuse
  | .tuer i => if s.phases i = .eteint then s else s.aller i .fini

/-- A run. -/
def derouler (s : Systeme) (gestes : List Geste) : Systeme := gestes.foldl pas s

/-! ### One after the other -/

/-- A program that is starting or stopping. -/
def EnTransit : Phase → Prop
  | .eteint | .boucle | .fini => False
  | _ => True

instance : DecidablePred EnTransit := fun phase => by
  cases phase <;> unfold EnTransit <;> infer_instance

/-- No program begins to start or to stop while another one does. -/
def Ordonne (s : Systeme) : Geste → Prop
  | .demarrer _ => ∀ j, ¬ EnTransit (s.phases j)
  | .avancer i _ => s.phases i = .boucle → ∀ j, ¬ EnTransit (s.phases j)
  | .tuer _ => True

/-- A run where they do so one after the other. -/
abbrev Ordonnes (s : Systeme) (gestes : List Geste) : Prop := Run.Steps pas Ordonne s gestes

/-- No program is there yet. -/
def Depart (s : Systeme) : Prop := ∀ i, s.phases i = .eteint ∨ s.phases i = .fini

/-- What a program that is somewhere knows of the file. -/
def Juste (s : Systeme) (i : Nat) : Phase → Prop
  | .droits | .ecoute | .signaux | .boucle | .fermeture _ | .effacement => s.fichier = .socket i
  | .essai => ∃ k, s.fichier = .socket k
  | .remplacement => ∃ k, s.fichier = .socket k ∧ ¬ s.Repond k
  | .nouvelleLiaison => s.fichier = .absent
  | .eteint | .creation | .liaison | .examen | .fini => True

/-- **The invariant.** -/
structure Tenu (s : Systeme) : Prop where
  seul : ∀ i j, EnTransit (s.phases i) → EnTransit (s.phases j) → i = j
  juste : ∀ i, s.Juste i (s.phases i)

section Tenu

variable {s : Systeme} {i j : Nat} {phase : Phase} {fichier : Fichier}

@[simp] theorem changer_self : (s.changer i fichier phase).phases i = phase := Function.update_self ..

theorem changer_other (h : j ≠ i) : (s.changer i fichier phase).phases j = s.phases j := Function.update_of_ne h ..

@[simp] theorem aller_self : (s.aller i phase).phases i = phase := Function.update_self ..

theorem aller_other (h : j ≠ i) : (s.aller i phase).phases j = s.phases j := Function.update_of_ne h ..

/-- **A program goes on alone**: the others run, or are not there. -/
theorem Tenu.change (hseul : ∀ j, j ≠ i → ¬ EnTransit (s.phases j))
    (hboucle : ∀ j, j ≠ i → s.phases j = .boucle → fichier = .socket j)
    (hjuste : (s.changer i fichier phase).Juste i phase) : Tenu (s.changer i fichier phase) := by
  have hother : ∀ j, j ≠ i → ¬ EnTransit ((s.changer i fichier phase).phases j) := by
    intro j hj
    rw [changer_other hj]
    exact hseul j hj
  refine ⟨fun j k hj hk => ?_, fun j => ?_⟩
  · have heq : ∀ j, EnTransit ((s.changer i fichier phase).phases j) → j = i :=
      fun j hj => by_contra fun hne => hother j hne hj
    rw [heq j hj, heq k hk]
  · by_cases hj : j = i
    · subst hj
      rwa [changer_self]
    · have hnot := hseul j hj
      rw [changer_other hj]
      cases hphase : s.phases j with
      | boucle => exact hboucle j hj hphase
      | eteint | fini => trivial
      | _ => exact absurd (by rw [hphase]; trivial) hnot

/-- The same, with the file as it was. -/
theorem Tenu.va (h : Tenu s) (hseul : ∀ j, j ≠ i → ¬ EnTransit (s.phases j))
    (hjuste : (s.aller i phase).Juste i phase) : Tenu (s.aller i phase) := by
  refine Tenu.change hseul (fun j _ hboucle => ?_) hjuste
  have hj := h.juste j
  rwa [hboucle] at hj

theorem Tenu.seul_en_transit (h : Tenu s) (hi : EnTransit (s.phases i)) : ∀ j, j ≠ i → ¬ EnTransit (s.phases j) :=
  fun j hj hother => hj (h.seul j i hother hi)

/-- The program that runs is the author of the file. -/
theorem Tenu.auteur (h : Tenu s) (hboucle : s.phases i = .boucle) : s.fichier = .socket i := by
  have hi := h.juste i
  rwa [hboucle] at hi

/-- A program that answers. -/
theorem Tenu.repond (h : Tenu s) (hrepond : s.Repond i) : s.fichier = .socket i := by
  have hi := h.juste i
  rcases hrepond with hphase | hphase | hphase <;> rwa [hphase] at hi

/-- **A system call.** -/
theorem Tenu.avancer (h : Tenu s) {refuse : Bool} (hordre : Ordonne s (.avancer i refuse)) :
    Tenu (s.avancer i refuse) := by
  have hi := h.juste i
  have hseul : EnTransit (s.phases i) → ∀ j, j ≠ i → ¬ EnTransit (s.phases j) := h.seul_en_transit
  have hva : ∀ {phase}, EnTransit (s.phases i) → (s.aller i phase).Juste i phase → Tenu (s.aller i phase) :=
    fun htransit hjuste => h.va (hseul htransit) hjuste
  unfold Systeme.avancer
  cases hphase : s.phases i with
  | eteint | fini => exact h
  | creation =>
    rw [hphase] at hva
    cases refuse <;> exact hva trivial trivial
  | liaison =>
    rw [hphase] at hva hseul
    dsimp only
    split
    · exact hva trivial trivial
    split
    · next habsent =>
      refine Tenu.change (hseul trivial) (fun j _ hboucle => ?_) rfl
      rw [h.auteur hboucle] at habsent
      cases habsent
    · exact hva trivial trivial
  | examen =>
    rw [hphase] at hva
    dsimp only
    split
    · next k hfichier =>
      cases refuse
      · exact hva trivial ⟨k, hfichier⟩
      · exact hva trivial trivial
    · exact hva trivial trivial
  | essai =>
    rw [hphase] at hi hva
    obtain ⟨k, hk⟩ := hi
    rw [hk]
    dsimp only
    split
    · exact hva trivial trivial
    · next hrefuse =>
      refine hva trivial ⟨k, hk, fun hrepond => hrefuse (.inr ?_)⟩
      -- the program itself does not answer yet
      by_cases hne : k = i
      · subst hne
        simp [Repond] at hrepond
      · unfold Repond at hrepond ⊢
        rwa [aller_other hne] at hrepond
  | remplacement =>
    rw [hphase] at hi hva hseul
    obtain ⟨k, hk, hmuet⟩ := hi
    dsimp only
    split
    · exact hva trivial trivial
    · refine Tenu.change (hseul trivial) (fun j _ hboucle => ?_) rfl
      -- nobody answers behind the file
      have hj := h.auteur hboucle
      rw [hk] at hj
      cases hj
      exact absurd (.inr (.inl hboucle)) hmuet
  | nouvelleLiaison =>
    rw [hphase] at hi hva hseul
    dsimp only
    split
    · exact hva trivial trivial
    · refine Tenu.change (hseul trivial) (fun j _ hboucle => ?_) rfl
      have hj := h.auteur hboucle
      rw [show s.fichier = .absent from hi] at hj
      cases hj
  | droits =>
    rw [hphase] at hi hva
    dsimp only
    split <;> exact hva trivial hi
  | ecoute | signaux =>
    rw [hphase] at hi hva
    cases refuse <;> exact hva trivial hi
  | boucle =>
    rw [hphase] at hi
    exact h.va (fun j _ => hordre hphase j) hi
  | fermeture ecoutee =>
    rw [hphase] at hi hva
    exact hva trivial hi
  | effacement =>
    rw [hphase] at hi hva hseul
    dsimp only
    split
    · exact hva trivial trivial
    · refine Tenu.change (hseul trivial) (fun j hj hboucle => ?_) trivial
      have hauteur := h.auteur hboucle
      rw [show s.fichier = .socket i from hi] at hauteur
      cases hauteur
      exact absurd rfl hj

/-- A program that is killed leaves the others where they are. -/
theorem Tenu.tuer (h : Tenu s) : Tenu (s.aller i .fini) := by
  have hsame : ∀ j, (s.aller i .fini).phases j = .fini ∨ (s.aller i .fini).phases j = s.phases j := by
    intro j
    by_cases hj : j = i
    · exact .inl (by rw [hj, aller_self])
    · exact .inr (aller_other hj)
  have htransit : ∀ j, EnTransit ((s.aller i .fini).phases j) → EnTransit (s.phases j) := by
    intro j hj
    rcases hsame j with hfini | heq
    · rw [hfini] at hj
      exact hj.elim
    · rwa [heq] at hj
  refine ⟨fun j k hj hk => h.seul j k (htransit j hj) (htransit k hk), fun j => ?_⟩
  rcases hsame j with hfini | heq
  · rw [hfini]
    trivial
  · rw [heq]
    have hj := h.juste j
    cases hphase : s.phases j with
    | remplacement =>
      rw [hphase] at hj
      obtain ⟨k, hk, hmuet⟩ := hj
      refine ⟨k, hk, fun hrepond => hmuet ?_⟩
      unfold Repond at hrepond ⊢
      rcases hsame k with hfini | heq
      · rw [hfini] at hrepond
        simp at hrepond
      · rwa [heq] at hrepond
    | _ =>
      rw [hphase] at hj
      exact hj

/-- **A step** keeps the invariant. -/
theorem Tenu.pas (h : Tenu s) {geste : Geste} (hordre : Ordonne s geste) : Tenu (s.pas geste) := by
  cases geste with
  | demarrer i =>
    unfold Systeme.pas
    dsimp only
    split
    · exact h.va (fun j _ => hordre j) trivial
    · exact h
  | avancer i refuse => exact h.avancer hordre
  | tuer i =>
    unfold Systeme.pas
    dsimp only
    split
    · exact h
    · exact h.tuer

theorem Depart.tenu (h : Depart s) : Tenu s := by
  have hnot : ∀ i, ¬ EnTransit (s.phases i) := by
    intro i hi
    rcases h i with hphase | hphase <;> rw [hphase] at hi <;> exact hi
  refine ⟨fun i _ hi => absurd hi (hnot i), fun i => ?_⟩
  rcases h i with hphase | hphase <;> rw [hphase] <;> trivial

theorem derouler_tenu (h : Depart s) {gestes : List Geste} (hordre : Ordonnes s gestes) :
    Tenu (s.derouler gestes) :=
  hordre.invariant (fun _ _ htenu => htenu.pas) h.tenu

/-- A file that is not a socket is not touched. -/
theorem Tenu.autre (h : Tenu s) (hautre : s.fichier = .autre) (geste : Geste) : (s.pas geste).fichier = .autre := by
  cases geste with
  | demarrer i | tuer i =>
    unfold Systeme.pas
    dsimp only
    split <;> exact hautre
  | avancer i refuse =>
    have hi := h.juste i
    show (s.avancer i refuse).fichier = .autre
    unfold Systeme.avancer
    cases hphase : s.phases i with
    | remplacement =>
      rw [hphase] at hi
      obtain ⟨k, hk, -⟩ := hi
      rw [hautre] at hk
      cases hk
    | nouvelleLiaison | effacement =>
      rw [hphase, Juste, hautre] at hi
      cases hi
    | liaison =>
      dsimp only
      split
      · exact hautre
      · rw [if_neg (by simp [hautre])]
        exact hautre
    | _ => simp [hautre, aller]

theorem derouler_autre (h : Depart s) {gestes : List Geste} (hordre : Ordonnes s gestes) (hautre : s.fichier = .autre) :
    (s.derouler gestes).fichier = .autre := by
  have hboth : Tenu (s.derouler gestes) ∧ (s.derouler gestes).fichier = .autre :=
    hordre.invariant (I := fun s => Tenu s ∧ s.fichier = .autre)
      (fun _ geste hs hgeste => ⟨hs.1.pas hgeste, hs.1.autre hs.2 geste⟩) ⟨h.tenu, hautre⟩
  exact hboth.2

end Tenu

/-! ### Starting -/

/-- A program is started, and makes some system calls that the kernel does not refuse. -/
def essais (i n : Nat) : List Geste := .demarrer i :: List.replicate n (.avancer i false)

section Demarrage

variable {s : Systeme} {i k : Nat}

/-- **A server starts alone.** It runs behind its file, or leaves everything as it was: a server is there, or a file
that is not a socket. -/
theorem demarrage (hi : s.phases i = .eteint) :
    (s.fichier = .absent → s.derouler (essais i 5) = s.changer i (.socket i) .boucle) ∧
    (s.fichier = .autre → s.derouler (essais i 3) = s.aller i .fini) ∧
    (∀ k, s.fichier = .socket k → s.Repond k → s.derouler (essais i 4) = s.aller i .fini) ∧
    (∀ k, s.fichier = .socket k → ¬ s.Repond k → s.derouler (essais i 9) = s.changer i (.socket i) .boucle) := by
  refine ⟨fun hfichier => ?_, fun hfichier => ?_, fun k hfichier hrepond => ?_, fun k hfichier hrepond => ?_⟩
  · simp [essais, derouler, pas, hi, aller, avancer, hfichier, changer]
  · simp [essais, derouler, pas, hi, aller, avancer, hfichier]
  · have hk : k ≠ i := by
      intro heq
      rw [heq, Repond, hi] at hrepond
      simp at hrepond
    have hrepond' : (⟨.socket k, Function.update s.phases i .essai⟩ : Systeme).Repond k := by
      unfold Repond at hrepond ⊢
      simpa [hk] using hrepond
    simp [essais, derouler, pas, hi, aller, avancer, hfichier, hrepond']
  · have hrepond' : ¬ (⟨.socket k, Function.update s.phases i .essai⟩ : Systeme).Repond k := by
      by_cases hk : k = i
      · simp [Repond, hk]
      · unfold Repond at hrepond ⊢
        simpa [hk] using hrepond
    simp [essais, derouler, pas, hi, aller, avancer, hfichier, changer, hrepond']

/-- The same, as long as no other program is starting or stopping. -/
theorem Tenu.demarrage (h : Tenu s) (hcalme : ∀ j, ¬ EnTransit (s.phases j)) (hi : s.phases i = .eteint) :
    ∃ n, s.derouler (essais i n) = s.changer i (.socket i) .boucle ∧ (∀ j, s.phases j ≠ .boucle) ∨
      s.derouler (essais i n) = s.aller i .fini ∧ (s.fichier = .autre ∨ ∃ j, s.phases j = .boucle) := by
  obtain ⟨habsent, hautre, hrepond, hmuet⟩ := Systeme.demarrage hi
  cases hfichier : s.fichier with
  | absent =>
    refine ⟨5, .inl ⟨habsent hfichier, fun j hboucle => ?_⟩⟩
    have hj := h.auteur hboucle
    rw [hfichier] at hj
    cases hj
  | autre => exact ⟨3, .inr ⟨hautre hfichier, .inl rfl⟩⟩
  | socket k =>
    by_cases hk : s.Repond k
    · refine ⟨4, .inr ⟨hrepond k hfichier hk, .inr ⟨k, ?_⟩⟩⟩
      have htransit := hcalme k
      rcases hk with hphase | hphase | hphase
      · rw [hphase] at htransit
        exact absurd trivial htransit
      · exact hphase
      · rw [hphase] at htransit
        exact absurd trivial htransit
    · refine ⟨9, .inl ⟨hmuet k hfichier hk, fun j hboucle => hk ?_⟩⟩
      have hj := h.auteur hboucle
      rw [hfichier] at hj
      cases hj
      exact .inr (.inl hboucle)

/-- **A server that runs is the one that clients reach**, after any starts, stops and deaths, as long as no
program begins to start or to stop while another one does; so there is one at most. A file that is not a
socket stays. And when nobody is starting or stopping, a program that is started gets to run, unless a
server runs, or the file is not a socket: then it leaves everything as it was. -/
theorem service_joignable (h : Depart s) {gestes : List Geste} (hordre : Ordonnes s gestes) :
    (∀ i, (s.derouler gestes).phases i = .boucle → (s.derouler gestes).fichier = .socket i) ∧
    (s.fichier = .autre → (s.derouler gestes).fichier = .autre) ∧
    ((∀ j, ¬ EnTransit ((s.derouler gestes).phases j)) → ∀ i, (s.derouler gestes).phases i = .eteint → ∃ n,
      (s.derouler gestes).derouler (essais i n) = (s.derouler gestes).changer i (.socket i) .boucle ∧
          (∀ j, (s.derouler gestes).phases j ≠ .boucle) ∨
        (s.derouler gestes).derouler (essais i n) = (s.derouler gestes).aller i .fini ∧
          ((s.derouler gestes).fichier = .autre ∨ ∃ j, (s.derouler gestes).phases j = .boucle)) := by
  have htenu := derouler_tenu h hordre
  exact ⟨fun i => htenu.auteur, derouler_autre h hordre, fun hcalme i => htenu.demarrage hcalme⟩

end Demarrage

/-- A server was killed, and its file is still there. -/
def apresPanne : Systeme where
  fichier := .socket 9
  phases i := if i = 9 then .fini else .eteint

/-- The next one replaces the file, and clients reach it. -/
theorem service_joignable_panne : (apresPanne.derouler (essais 1 9)).phases 1 = .boucle ∧
    (apresPanne.derouler (essais 1 9)).fichier = .socket 1 := by
  have hdepart : Depart apresPanne := fun i => by
    by_cases hi : i = 9 <;> simp [apresPanne, hi]
  have hordre : Ordonnes apresPanne (essais 1 9) := by
    refine ⟨fun j hj => ?_, ?_⟩
    · rcases hdepart j with hphase | hphase <;> rw [hphase] at hj <;> exact hj
    · refine ⟨?_, ?_, ?_, ?_, ?_, ?_, ?_, ?_, ?_, trivial⟩ <;> exact fun hboucle => absurd hboucle (by decide)
  have hboucle : (apresPanne.derouler (essais 1 9)).phases 1 = .boucle := by decide
  exact ⟨hboucle, (service_joignable hdepart hordre).1 1 hboucle⟩

/-- Two that start at once: both run, and the first one is not reached. -/
example :
    let s := apresPanne.derouler (essais 1 4 ++ essais 2 4 ++ List.replicate 5 (.avancer 1 false) ++
      List.replicate 5 (.avancer 2 false))
    s.phases 1 = .boucle ∧ s.phases 2 = .boucle ∧ s.fichier = .socket 2 := by decide

end Systeme

end AmlService
