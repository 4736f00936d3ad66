import AmlService.Command.Nodes
import AmlService.Lib.Forest
import Mathlib.Data.List.Nodup

/-!
# AmlService.Command.NodeClear

What `command_clear` does to nodes linked as a forest: it returns, and empties the node
and what is below it.
-/

namespace AmlService.CommandNodes

open Forest

variable {ι H : Type}

variable [DecidableEq ι] {parent : ι → Option ι} {m m' : Memoire ι H} {c : ι} {fuel : Nat}

theorem clear_mono (fuel : Nat) :
    (∀ (m m' : Memoire ι H) (c : ι), clearNode fuel m c = some m' → clearNode (fuel + 1) m c = some m') ∧
      ∀ (m m' : Memoire ι H) (c : ι) (i : Nat),
        clearChildren fuel m c i = some m' → clearChildren (fuel + 1) m c i = some m' := by
  induction fuel with
  | zero =>
    constructor
    · intro m m' c h
      rw [clearNode] at h
      cases h
    · intro m m' c i h
      rw [clearChildren] at h
      cases h
  | succ fuel ih =>
    obtain ⟨ihNode, ihChildren⟩ := ih
    constructor
    · intro m m' c h
      rw [clearNode] at h ⊢
      obtain ⟨m₁, hm₁, rfl⟩ := Option.map_eq_some_iff.mp h
      rw [ihChildren m m₁ c 0 hm₁, Option.map_some]
    · intro m m' c i h
      rw [clearChildren] at h ⊢
      split at h
      · exact h
      · split at h
        · cases h
        · next m₁ hm₁ =>
          rw [ihNode _ m₁ _ hm₁]
          exact ihChildren m₁ m' c (i + 1) h

theorem clearNode_le {fuel' : Nat} (h : clearNode fuel m c = some m') (hle : fuel ≤ fuel') :
    clearNode fuel' m c = some m' := by
  induction hle with
  | refl => exact h
  | step _ ih => exact (clear_mono _).1 m m' c ih

theorem clearChildren_le {fuel' i : Nat} (h : clearChildren fuel m c i = some m') (hle : fuel ≤ fuel') :
    clearChildren fuel' m c i = some m' := by
  induction hle with
  | refl => exact h
  | step _ ih => exact (clear_mono _).2 m m' c i ih

/-- Below `c`, the children of each node of `m` are those that have it for parent. -/
def Lie (parent : ι → Option ι) (m : Memoire ι H) (c : ι) : Prop :=
  ∀ x, Below parent x c → (m x).children.Nodup ∧ ∀ y, y ∈ (m x).children ↔ parent y = some x

/-- `m'` is `m` with the nodes `P` emptied. -/
def Vides (P : ι → Prop) (m m' : Memoire ι H) : Prop :=
  (∀ x, P x → m' x = (m x).vide) ∧ ∀ x, ¬ P x → m' x = m x

/-- The loop of `command_clear`, when clearing a child empties what is below it. -/
theorem clearChildren_spec (hf : IsForest parent) {l : List ι}
    (ih : ∀ y, parent y = some c → ∀ m : Memoire ι H, Lie parent m y →
      ∃ fuel m', clearNode fuel m y = some m' ∧ Vides (Below parent · y) m m')
    (rest : List ι) (i : Nat) (hrest : rest = l.drop i) (hnodup : rest.Nodup)
    (hl : (m c).children = l) (hparent : ∀ y ∈ rest, parent y = some c) (hlie : ∀ y ∈ rest, Lie parent m y) :
    ∃ fuel m', clearChildren fuel m c i = some m' ∧ Vides (fun x => ∃ y ∈ rest, Below parent x y) m m' := by
  induction rest generalizing i m with
  | nil =>
    have hend : l[i]? = none := List.getElem?_eq_none (List.drop_eq_nil_iff.mp hrest.symm)
    exact ⟨1, m, by simp [clearChildren, hl, hend], by simp, by simp⟩
  | cons y rest ihRest =>
    have hy : l[i]? = some y := by
      have hhead := congrArg List.head? hrest
      simpa [List.head?_drop] using hhead.symm
    have hyc := hparent y List.mem_cons_self
    have hrest' : rest = l.drop (i + 1) := by
      have htail := congrArg List.tail hrest
      simpa [List.tail_drop] using htail
    obtain ⟨hynot, hnodup⟩ := List.nodup_cons.mp hnodup
    -- the child, cut from its parent, is cleared
    obtain ⟨fuel₁, m₁, hm₁, hbelow₁, hother₁⟩ :=
      ih y hyc (Function.update m y { m y with parent := none }) fun x hx => by
        have hkeep := hlie y List.mem_cons_self x hx
        by_cases hxy : x = y
        · subst hxy
          simpa using hkeep
        · simpa [hxy] using hkeep
    have hm₁vide : ∀ x, Below parent x y → m₁ x = (m x).vide := by
      intro x hx
      rw [hbelow₁ x hx]
      by_cases hxy : x = y
      · subst hxy
        simp [vide_parent]
      · simp [hxy]
    have hm₁m : ∀ x, ¬ Below parent x y → m₁ x = m x := by
      intro x hx
      have hxy : x ≠ y := by
        rintro rfl
        exact hx .refl
      rw [hother₁ x hx, Function.update_of_ne hxy]
    -- what is below the next children is not below it
    have hsep : ∀ z ∈ rest, ∀ x, Below parent x z → ¬ Below parent x y := by
      intro z hz x hx
      have hne : z ≠ y := by
        rintro rfl
        exact hynot hz
      exact hf.disjoint_siblings (hparent z (List.mem_cons_of_mem y hz)) hyc hne hx
    obtain ⟨fuel₂, m₂, hm₂, hbelow₂, hother₂⟩ := ihRest (m := m₁) (i + 1) hrest' hnodup
      (by rw [hm₁m c (hf.not_below_child hyc), hl])
      (fun z hz => hparent z (List.mem_cons_of_mem y hz))
      fun z hz x hx => by
        rw [hm₁m x (hsep z hz x hx)]
        exact hlie z (List.mem_cons_of_mem y hz) x hx
    refine ⟨max fuel₁ fuel₂ + 1, m₂, ?_, ?_, ?_⟩
    · simp only [clearChildren, hl, hy, clearNode_le hm₁ (le_max_left fuel₁ fuel₂)]
      exact clearChildren_le hm₂ (le_max_right fuel₁ fuel₂)
    · rintro x ⟨z, hz, hx⟩
      by_cases hrestx : ∃ z ∈ rest, Below parent x z
      · obtain ⟨w, hw, hxw⟩ := hrestx
        rw [hbelow₂ x ⟨w, hw, hxw⟩, hm₁m x (hsep w hw x hxw)]
      · rcases List.mem_cons.mp hz with rfl | hz
        · rw [hother₂ x hrestx, hm₁vide x hx]
        · exact absurd ⟨z, hz, hx⟩ hrestx
    · intro x hx
      rw [hother₂ x fun ⟨z, hz, hxz⟩ => hx ⟨z, List.mem_cons_of_mem y hz, hxz⟩,
        hm₁m x fun hxy => hx ⟨y, List.mem_cons_self, hxy⟩]

/-- **Clearing** a node returns, and empties what is below it. -/
theorem clearNode_spec (hf : IsForest parent) (c : ι) (m : Memoire ι H) (h : Lie parent m c) :
    ∃ fuel m', clearNode fuel m c = some m' ∧ Vides (Below parent · c) m m' := by
  induction c using hf.down.induction generalizing m with
  | _ c ih =>
    obtain ⟨hnodup, hchildren⟩ := h c .refl
    obtain ⟨fuel, m₁, hm₁, hvides, hautres⟩ := clearChildren_spec hf ih (m c).children 0 rfl hnodup rfl
      (fun y hy => (hchildren y).mp hy)
      fun y hy x hx => h x (hx.tail ((hchildren y).mp hy))
    have hbelow : ∀ x, Below parent x c ↔ x = c ∨ ∃ y ∈ (m c).children, Below parent x y := by
      intro x
      simp only [hchildren]
      exact below_iff
    have hc : m₁ c = m c := by
      refine hautres c fun ⟨y, hy, hcy⟩ => ?_
      exact hf.not_below_child ((hchildren y).mp hy) hcy
    refine ⟨fuel + 1, Function.update m₁ c (m₁ c).vide, by simp [clearNode, hm₁], ?_, ?_⟩
    · intro x hx
      by_cases hxc : x = c
      · subst hxc
        rw [Function.update_self, hc]
      · rw [Function.update_of_ne hxc]
        exact hvides x (((hbelow x).mp hx).resolve_left hxc)
    · intro x hx
      have hxc : x ≠ c := fun hxc => hx ((hbelow x).mpr (.inl hxc))
      rw [Function.update_of_ne hxc]
      exact hautres x fun hxy => hx ((hbelow x).mpr (.inr hxy))

end AmlService.CommandNodes
