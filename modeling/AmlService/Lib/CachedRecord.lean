import AmlService.Lib.Run
import Mathlib.Logic.Function.Basic

/-!
# AmlService.Lib.CachedRecord

**A record written whole, from a copy.** A client that changes one field of a record sends
the copy it read last, with that field changed, and reads the record again later. A field
changed since the copy was read is written back as it was, and so lost.

`run_stored_iff` says exactly when every field ends up with the last value asked for it.
-/

namespace CachedRecord

variable {ι β : Type} [DecidableEq ι]

/-- A field is changed, or the record is read again. -/
inductive Op (ι β : Type)
  | set (i : ι) (v : β)
  | reload

structure State (ι β : Type) where
  copy : Option (ι → β)
  stored : ι → β

/-- Without a copy nothing is written. -/
def step (s : State ι β) : Op ι β → State ι β
  | .set i v =>
    match s.copy with
    | none => s
    | some copy => { s with stored := Function.update copy i v }
  | .reload => { s with copy := some s.stored }

def run (s : State ι β) (ops : List (Op ι β)) : State ι β := ops.foldl step s

theorem run_append (s : State ι β) (ops ops' : List (Op ι β)) :
    run s (ops ++ ops') = run (run s ops) ops' :=
  List.foldl_append

/-- The operation changes field `i`. -/
def Op.sets (i : ι) : Op ι β → Bool
  | .set j _ => j = i
  | .reload => false

/-- The value asked for field `i`, `v` until now, after an operation. -/
def asked (i : ι) (v : β) : Op ι β → β
  | .set j w => if j = i then w else v
  | .reload => v

/-- The last value asked for field `i`, or else the one it had. -/
def wanted (s : State ι β) (ops : List (Op ι β)) (i : ι) : β := ops.foldl (asked i) (s.stored i)

/-- The copy, if there is one, is the record. -/
def Fresh (s : State ι β) : Prop := ∀ copy, s.copy = some copy → copy = s.stored

/-- A change of field `i` to `v` in state `s` outlives what comes after: it is written, and
the record is read again before the next change; or the field had the value already, in
the copy or, without one, in the record. -/
def Outlives (s : State ι β) (i : ι) (v : β) (after : List (Op ι β)) : Prop :=
  (s.copy.isSome = true ∧ ∀ op ∈ after.head?, op = .reload) ∨ s.copy.getD s.stored i = v

/-- The last change of every field outlives what comes after. -/
def AllOutlive (s : State ι β) (ops : List (Op ι β)) : Prop :=
  ∀ before i v after, ops = before ++ .set i v :: after → (∀ op ∈ after, op.sets i = false) →
    Outlives (run s before) i v after

/-! ### A field that settled -/

/-- Field `i` is `x`, in the record and in the copy. -/
structure Settled (s : State ι β) (i : ι) (x : β) : Prop where
  stored : s.stored i = x
  copy : ∀ copy, s.copy = some copy → copy i = x

variable {s : State ι β} {i : ι} {x v : β}

theorem Settled.step (h : Settled s i x) {op : Op ι β} (hop : op.sets i = false) :
    Settled (step s op) i x := by
  cases op with
  | set j w =>
    have hne : i ≠ j := fun heq => by simp [Op.sets, heq] at hop
    cases hcopy : s.copy with
    | none => simpa [CachedRecord.step, hcopy] using h
    | some copy =>
      simp only [CachedRecord.step, hcopy]
      refine ⟨?_, fun later hlater => h.copy later (hcopy.trans hlater)⟩
      dsimp only
      rw [Function.update_of_ne hne]
      exact h.copy copy hcopy
  | reload =>
    refine ⟨h.stored, fun copy hread => ?_⟩
    obtain rfl := Option.some.inj hread
    exact h.stored

theorem Settled.run (h : Settled s i x) {ops : List (Op ι β)} (hops : ∀ op ∈ ops, op.sets i = false) :
    (run s ops).stored i = x := by
  induction ops generalizing s with
  | nil => exact h.stored
  | cons op ops ih =>
    exact ih (h.step (hops op List.mem_cons_self)) fun op hop => hops op (List.mem_cons_of_mem _ hop)

/-! ### The last change of a field -/

/-- **One change**, the last one of its field. -/
theorem stored_iff_outlives {after : List (Op ι β)} (hafter : ∀ op ∈ after, op.sets i = false) :
    (run (step s (.set i v)) after).stored i = v ↔ Outlives s i v after := by
  unfold Outlives
  cases hcopy : s.copy with
  | none =>
    -- nothing is written
    have hsettled : Settled s i (s.stored i) := ⟨rfl, fun copy h => by cases hcopy.symm.trans h⟩
    rw [step, hcopy]
    dsimp only
    rw [hsettled.run hafter]
    simp
  | some copy =>
    rw [step, hcopy]
    dsimp only
    cases after with
    | nil => simp [run]
    | cons op after =>
      have hrest : ∀ op ∈ after, op.sets i = false := fun op hop => hafter op (List.mem_cons_of_mem _ hop)
      cases op with
      | reload =>
        -- the copy read again holds the change
        have hsettled : Settled
            (step { s with copy := some copy, stored := Function.update copy i v } .reload) i v := by
          refine ⟨by simp [step], fun later hlater => ?_⟩
          obtain rfl := Option.some.inj hlater
          simp
        have hkept := hsettled.run hrest
        exact iff_of_true hkept (.inl ⟨rfl, by simp⟩)
      | set j w =>
        -- the next change writes the field as it was in the copy
        have hne : i ≠ j := fun heq => by simp [Op.sets, heq] at hafter
        have hsettled : Settled (step
            { s with copy := some copy, stored := Function.update copy i v } (.set j w)) i (copy i) := by
          refine ⟨by simp [step, hne], fun later hlater => ?_⟩
          obtain rfl := Option.some.inj hlater
          rfl
        have hkept := hsettled.run hrest
        rw [run, List.foldl_cons, ← run, hkept]
        simp

theorem foldl_asked {ops : List (Op ι β)} (h : ∀ op ∈ ops, op.sets i = false) (v : β) :
    ops.foldl (asked i) v = v := by
  refine Run.foldl_fixed (fun op hop v => ?_) v
  have hother := h op hop
  cases op with
  | set j w =>
    have hne : j ≠ i := by simpa [Op.sets] using hother
    rw [asked, if_neg hne]
  | reload => rfl

theorem wanted_append_set (s : State ι β) (before : List (Op ι β)) (i : ι) (v : β)
    {after : List (Op ι β)} (hafter : ∀ op ∈ after, op.sets i = false) :
    wanted s (before ++ .set i v :: after) i = v := by
  rw [wanted, List.foldl_append, List.foldl_cons, foldl_asked hafter, asked, if_pos rfl]

/-- A field is never changed, or there is a last change of it. -/
theorem exists_last_set (i : ι) (ops : List (Op ι β)) :
    (∀ op ∈ ops, op.sets i = false) ∨
      ∃ before v after, ops = before ++ .set i v :: after ∧ ∀ op ∈ after, op.sets i = false := by
  induction ops with
  | nil => exact .inl (by simp)
  | cons op ops ih =>
    rcases ih with hnone | ⟨before, v, after, rfl, hlast⟩
    · cases hop : op.sets i with
      | false => exact .inl (by simpa [hop] using hnone)
      | true =>
        cases op with
        | reload => cases hop
        | set j w =>
          obtain rfl : j = i := by simpa [Op.sets] using hop
          exact .inr ⟨[], w, ops, rfl, hnone⟩
    · exact .inr ⟨op :: before, v, after, rfl, hlast⟩

/-- **Every field ends up with the last value asked for it** if and only if the last change
of every field outlives what comes after. -/
theorem run_stored_iff (hfresh : Fresh s) (ops : List (Op ι β)) :
    (∀ i, (run s ops).stored i = wanted s ops i) ↔ AllOutlive s ops := by
  constructor
  · intro h before i v after heq hafter
    have hi := h i
    rw [heq, wanted_append_set s before i v hafter, run_append] at hi
    exact (stored_iff_outlives hafter).mp hi
  · intro h i
    rcases exists_last_set i ops with hnone | ⟨before, v, after, heq, hafter⟩
    · have hsettled : Settled s i (s.stored i) := ⟨rfl, fun copy hcopy => by rw [hfresh copy hcopy]⟩
      rw [hsettled.run hnone, wanted, foldl_asked hnone]
    · rw [heq, wanted_append_set s before i v hafter, run_append]
      exact (stored_iff_outlives hafter).mpr (h before i v after heq hafter)

end CachedRecord
