import Mathlib.Logic.Relation
import Mathlib.Order.WellFounded

/-!
# AmlService.Lib.Forest

**Forests given by their parent links.** `parent x` is the node `x` hangs from, if any.
The links form a forest when following them ends both ways: up to a root, and down to
the leaves. Hanging a tree from a node that is not in it keeps a forest; so does
cutting links.
-/

namespace Forest

open Relation

variable {ι : Type*} {parent parent' : ι → Option ι} {x y a b p c : ι}

/-- One step up. -/
def Up (parent : ι → Option ι) (c p : ι) : Prop := parent c = some p

/-- `x` is in the tree under `a`, `a` included. -/
def Below (parent : ι → Option ι) (x a : ι) : Prop := ReflTransGen (Up parent) x a

structure IsForest (parent : ι → Option ι) : Prop where
  up : WellFounded fun p c => Up parent c p
  down : WellFounded (Up parent)

/-! ### Well-founded relations, one edge more -/

/-- What a new edge `a` below `b` is not under stays accessible. -/
theorem acc_insert_edge {r : ι → ι → Prop} (hr : WellFounded r) (x : ι)
    (hx : ¬ ReflTransGen r b x) : Acc (fun x y => r x y ∨ (x = a ∧ y = b)) x := by
  induction x using hr.induction with
  | _ x ih =>
    constructor
    rintro y (hy | ⟨rfl, rfl⟩)
    · exact ih y hy fun hby => hx (hby.tail hy)
    · exact absurd .refl hx

theorem wellFounded_insert_edge {r : ι → ι → Prop} (hr : WellFounded r) (hab : ¬ ReflTransGen r b a) :
    WellFounded fun x y => r x y ∨ (x = a ∧ y = b) := by
  constructor
  intro x
  induction x using hr.induction with
  | _ x ih =>
    constructor
    rintro y (hy | ⟨rfl, rfl⟩)
    · exact ih y hy
    · exact acc_insert_edge hr y hab

/-! ### Changing the links -/

/-- **Cutting** links. -/
theorem IsForest.cut (h : IsForest parent) (hsub : ∀ c p, parent' c = some p → parent c = some p) :
    IsForest parent' where
  up := Subrelation.wf (fun {p c} hcp => hsub c p hcp) h.up
  down := Subrelation.wf (fun {c p} hcp => hsub c p hcp) h.down

theorem reflTransGen_flip_up : ReflTransGen (fun p c => Up parent c p) a x ↔ Below parent x a :=
  reflTransGen_swap

/-- **Linking** a node to one that is not below it. -/
theorem IsForest.link (h : IsForest parent) (hpc : ¬ Below parent p c)
    (hlink : ∀ x y, parent' x = some y → parent x = some y ∨ (x = c ∧ y = p)) : IsForest parent' where
  up := by
    have hwf := wellFounded_insert_edge h.up (a := p) (b := c) fun hcp => hpc (reflTransGen_flip_up.mp hcp)
    refine Subrelation.wf (fun {y x} hxy => ?_) hwf
    exact (hlink x y hxy).imp_right And.symm
  down := by
    have hwf := wellFounded_insert_edge h.down (a := c) (b := p) hpc
    exact Subrelation.wf (fun {x y} hxy => hlink x y hxy) hwf

/-! ### What is below what -/

/-- A node is not below its own children. -/
theorem IsForest.not_below_child (h : IsForest parent) (hc : parent c = some p) : ¬ Below parent p c := by
  intro hpc
  have hcycle : TransGen (Up parent) c c := .head' hc hpc
  exact h.down.transGen.irrefl.irrefl c hcycle

theorem below_total (ha : Below parent x a) (hb : Below parent x b) :
    Below parent a b ∨ Below parent b a := by
  refine ReflTransGen.total_of_right_unique (fun c p q hp hq => ?_) ha hb
  exact Option.some.inj ((Eq.symm hp).trans hq)

/-- Of a node and another of another parent line: below a node is below its parent. -/
theorem Below.of_ne (h : Below parent a b) (hne : a ≠ b) (ha : parent a = some p) : Below parent p b := by
  rcases h.cases_head with rfl | ⟨q, hq, hqb⟩
  · exact absurd rfl hne
  · obtain rfl : p = q := Option.some.inj ((Eq.symm ha).trans hq)
    exact hqb

/-- **Siblings** have nothing in common below them. -/
theorem IsForest.disjoint_siblings (h : IsForest parent) (ha : parent a = some p) (hb : parent b = some p)
    (hne : a ≠ b) (hx : Below parent x a) : ¬ Below parent x b := by
  intro hx'
  rcases below_total hx hx' with hab | hba
  · exact h.not_below_child hb (hab.of_ne hne ha)
  · exact h.not_below_child ha (hba.of_ne hne.symm hb)

/-- What is below a node is the node, or below one of its children. -/
theorem below_iff : Below parent x p ↔ x = p ∨ ∃ c, parent c = some p ∧ Below parent x c := by
  constructor
  · intro h
    rcases h.cases_tail with rfl | ⟨c, hxc, hc⟩
    · exact .inl rfl
    · exact .inr ⟨c, hc, hxc⟩
  · rintro (rfl | ⟨c, hc, hxc⟩)
    · exact .refl
    · exact .tail hxc hc

end Forest
