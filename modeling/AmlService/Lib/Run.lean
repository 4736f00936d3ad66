import Mathlib.Data.List.Chain
import Mathlib.Data.List.Induction
import Mathlib.Logic.Function.Iterate
import Mathlib.Order.Defs.Unbundled

/-!
# AmlService.Lib.Run

**Runs of a step function.** A run is a fold over the actions taken. `Steps C` says
that every action of a run meets the condition `C` in the state where it is taken; the
rules here carry an invariant, or a relation between the two ends, along such a run.
-/

namespace Run

variable {σ α : Type} {step : σ → α → σ} {C : σ → α → Prop}

/-- Every action meets `C` in the state it is taken in. -/
def Steps (step : σ → α → σ) (C : σ → α → Prop) (s : σ) : List α → Prop
  | [] => True
  | a :: actions => C s a ∧ Steps step C (step s a) actions

/-- **Invariants**: what holds at first, and is kept by each action that meets the
condition, holds at the end. -/
theorem Steps.invariant {I : σ → Prop} (hstep : ∀ s a, I s → C s a → I (step s a)) {s : σ}
    {actions : List α} (h : Steps step C s actions) (hs : I s) : I (actions.foldl step s) := by
  induction actions generalizing s with
  | nil => exact hs
  | cons a actions ih => exact ih h.2 (hstep s a hs h.1)

/-- A condition that depends on no state holds all along. -/
theorem Steps.of_forall {s : σ} {actions : List α} (h : ∀ a ∈ actions, ∀ s, C s a) :
    Steps step C s actions := by
  induction actions generalizing s with
  | nil => trivial
  | cons a actions ih =>
    exact ⟨h a List.mem_cons_self s, ih fun b hb => h b (List.mem_cons_of_mem a hb)⟩

theorem Steps.and {D : σ → α → Prop} {s : σ} {actions : List α} (h : Steps step C s actions)
    (h' : Steps step D s actions) : Steps step (fun s a => C s a ∧ D s a) s actions := by
  induction actions generalizing s with
  | nil => trivial
  | cons a actions ih => exact ⟨⟨h.1, h'.1⟩, ih h.2 h'.2⟩

/-- What each action does, the whole run does. -/
theorem foldl_rel {R : σ → σ → Prop} [IsPreorder σ R] (hstep : ∀ s a, R s (step s a)) (s : σ)
    (actions : List α) : R s (actions.foldl step s) := by
  induction actions generalizing s with
  | nil => exact refl_of R s
  | cons a actions ih => exact trans_of R (hstep s a) (ih (step s a))

/-- Actions that change nothing. -/
theorem foldl_fixed {actions : List α} (h : ∀ a ∈ actions, ∀ s, step s a = s) (s : σ) :
    actions.foldl step s = s := by
  refine List.foldlRecOn (motive := fun t => t = s) actions step rfl fun t ht a ha => ?_
  rw [h a ha t, ht]

/-- **Each in turn.** Where dealing with `i` takes `i` from `B` to `A`, and leaves
every other where it is, dealing with all of a list takes all of them there. -/
theorem foldl_each {ι : Type} {f : σ → ι → σ} {B A : ι → σ → Prop}
    (hdo : ∀ s i, B i s → A i (f s i))
    (hbefore : ∀ s i j, j ≠ i → B j s → B j (f s i))
    (hafter : ∀ s i j, j ≠ i → A j s → A j (f s i)) {l : List ι} (hl : l.Nodup) {s : σ}
    (h : ∀ i ∈ l, B i s) : ∀ i ∈ l, A i (l.foldl f s) := by
  induction l using List.reverseRecOn generalizing s with
  | nil => simp
  | append_singleton l i ih =>
    -- `i` is still in `B` when its turn comes; the others, in `A` by then, stay there
    obtain ⟨hl, -, hdisjoint⟩ := List.nodup_append.mp hl
    have hne : ∀ j ∈ l, j ≠ i := fun j hj => hdisjoint j hj i (by simp)
    have hi : B i (l.foldl f s) := by
      refine List.foldlRecOn l f (h i (by simp)) fun t ht j hj => ?_
      exact hbefore t j i (hne j hj).symm ht
    rw [List.foldl_append]
    intro j hj
    rcases List.mem_append.mp hj with hj | hj
    · exact hafter _ i j (hne j hj) (ih hl (fun k hk => h k (List.mem_append_left _ hk)) j hj)
    · obtain rfl : j = i := by simpa using hj
      exact hdo _ j hi

/-- **Progress.** While a run is in `W`, a measure never goes down, and it goes up in each of the
turns counted: there are no more of these than the measure says. -/
theorem count_le_measure {f : σ → σ} {W : σ → Prop} {measure : σ → Nat} {counted : σ → Bool} {s : σ}
    (hstep : ∀ n, W (f^[n + 1] s) → W (f^[n] s) ∧
      measure (f^[n] s) + (if counted (f^[n] s) then 1 else 0) ≤ measure (f^[n + 1] s)) (n : Nat)
    (h : W (f^[n] s)) : (List.range n).countP (fun i => counted (f^[i] s)) ≤ measure (f^[n] s) := by
  induction n with
  | zero => simp
  | succ n ih =>
    obtain ⟨hbefore, hmeasure⟩ := hstep n h
    have hcount := ih hbefore
    rw [List.range_succ, List.countP_append, List.countP_singleton]
    omega

/-! ### The states gone through -/

/-- The states a run goes through, `visit` being those of one action. -/
def path (visit : σ → α → List σ) (step : σ → α → σ) (s : σ) : List α → List σ
  | [] => []
  | a :: actions => visit s a ++ path visit step (step s a) actions

theorem path_append (visit : σ → α → List σ) (s : σ) (actions actions' : List α) :
    path visit step s (actions ++ actions') =
      path visit step s actions ++ path visit step (actions.foldl step s) actions' := by
  induction actions generalizing s with
  | nil => rfl
  | cons a actions ih => rw [List.cons_append, path, path, ih, List.foldl_cons, List.append_assoc]

/-- What relates the states gone through by each action relates those of the run. -/
theorem isChain_path {visit : σ → α → List σ} {R : σ → σ → Prop} {I : σ → Prop}
    (hvisit : ∀ s a, I s → (s :: visit s a).IsChain R)
    (hlast : ∀ s a, (visit s a).getLastD s = step s a) (hstep : ∀ s a, I s → I (step s a)) {s : σ}
    (hs : I s) (actions : List α) : (s :: path visit step s actions).IsChain R := by
  induction actions generalizing s with
  | nil => exact .singleton s
  | cons a actions ih =>
    obtain ⟨hnext, hrest⟩ := List.isChain_cons.mp (ih (hstep s a hs))
    rw [path, ← List.cons_append]
    refine List.isChain_append.mpr ⟨hvisit s a hs, hrest, ?_⟩
    -- the rest of the run starts from the last state of the first action
    intro t ht
    rw [List.getLast?_cons, ← List.getLastD_eq_getLast?, hlast] at ht
    obtain rfl : step s a = t := by simpa using ht
    exact hnext

theorem getLastD_append (first rest : List σ) (s : σ) :
    (first ++ rest).getLastD s = rest.getLastD (first.getLastD s) := by
  induction first generalizing s with
  | nil => rfl
  | cons t first ih => rw [List.cons_append, List.getLastD_cons, List.getLastD_cons, ih]

theorem getLastD_path {visit : σ → α → List σ} (hlast : ∀ s a, (visit s a).getLastD s = step s a)
    (s : σ) (actions : List α) :
    (path visit step s actions).getLastD s = actions.foldl step s := by
  induction actions generalizing s with
  | nil => rfl
  | cons a actions ih => rw [path, getLastD_append, hlast, ih, List.foldl_cons]

/-! ### Since when -/

/-- Where `P` holds only if just before there was `P` or `Q`, every `P` goes back to a
`Q`, with nothing but `P` in between. -/
theorem since {P Q : σ → Prop} {s : σ} {moments : List σ}
    (hchain : (s :: moments).IsChain fun a b => P b → Q a ∨ P a) (hs : ¬ P s) {before after : List σ}
    {t : σ} (hsplit : moments = before ++ t :: after) (ht : P t) :
    ∃ first u between, s :: before = first ++ u :: between ∧ Q u ∧ ∀ v ∈ between, P v := by
  subst hsplit
  -- backwards from `t`
  induction before using List.reverseRecOn generalizing t after with
  | nil =>
    rcases List.isChain_cons_cons.mp hchain with ⟨hfirst, -⟩
    exact ⟨[], s, [], rfl, (hfirst ht).resolve_right hs, by simp⟩
  | append_singleton before u ih =>
    rw [List.append_assoc] at hchain
    have hchain : ((s :: before) ++ u :: t :: after).IsChain fun a b => P b → Q a ∨ P a := hchain
    have hlast : Q u ∨ P u := (List.isChain_append_cons_cons.mp hchain).2.1 ht
    rcases hlast with hu | hu
    · exact ⟨s :: before, u, [], rfl, hu, by simp⟩
    · obtain ⟨first, v, between, heq, hv, hall⟩ := ih hu hchain
      refine ⟨first, v, between ++ [u], ?_, hv, ?_⟩
      · rw [← List.cons_append, heq, List.append_assoc, List.cons_append]
      · intro w hw
        rcases List.mem_append.mp hw with hw | hw
        · exact hall w hw
        · obtain rfl : w = u := by simpa using hw
          exact hu

end Run
