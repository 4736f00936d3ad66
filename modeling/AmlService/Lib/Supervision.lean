import Mathlib.Data.List.Induction

/-!
# AmlService.Lib.Supervision

**A link that is watched.** It is down or up; attempts to open it are refused or succeed;
on an open link requests are answered or fail. A failure closes the link if it is fatal,
or if it is one too many in a row. A `Policy` says which; `follow` goes through the
incidents of a link, and refuses those that no watched link can have.
-/

namespace Supervision

variable {ε : Type}

/-- What happens to a link. `completed`: all that was to be asked was answered. A refusal
and a loss are dated, in milliseconds. -/
inductive Incident (ε : Type)
  | refused (ms : Int)
  | opened
  | answered
  | completed
  | failed (e : ε)
  | lost (ms : Int)
  deriving Repr, DecidableEq

/-- Which failures close the link at once, and how many in a row do. -/
structure Policy (ε : Type) where
  fatal : ε → Bool
  limit : Nat

/-- `failures`: those since the last answer, or since the link is up. -/
inductive Line
  | down
  | up (failures : Nat)
  | closing
  deriving Repr, DecidableEq

/-- `losses`: refusals and losses since all was last answered; `last` dates the last one. -/
structure Watch where
  line : Line
  losses : Nat
  last : Int
  deriving Repr, DecidableEq

def Watch.start : Watch := { line := .down, losses := 0, last := 0 }

/-- One incident; `none` if it cannot happen. -/
def Policy.step (P : Policy ε) (w : Watch) : Incident ε → Option Watch
  | .refused ms =>
    if w.line = .down then some { w with losses := w.losses + 1, last := ms } else none
  | .opened => if w.line = .down then some { w with line := .up 0 } else none
  | .answered =>
    match w.line with
    | .up _ => some { w with line := .up 0 }
    | _ => none
  | .completed =>
    match w.line with
    | .up _ => some { w with losses := 0 }
    | _ => none
  | .failed e =>
    match w.line with
    | .up n => some { w with line := if P.fatal e ∨ P.limit ≤ n + 1 then .closing else .up (n + 1) }
    | _ => none
  | .lost ms =>
    match w.line with
    | .closing => some { line := .down, losses := w.losses + 1, last := ms }
    | _ => none

/-- A list of incidents. -/
def Policy.follow (P : Policy ε) (w : Watch) (incidents : List (Incident ε)) : Option Watch :=
  incidents.foldlM P.step w

/-! ### Reading the incidents -/

/-- After it, failures are counted from zero. -/
def Incident.resets : Incident ε → Bool
  | .opened | .answered => true
  | _ => false

def Incident.isFailure : Incident ε → Bool
  | .failed _ => true
  | _ => false

def Incident.isCompleted : Incident ε → Bool
  | .completed => true
  | _ => false

/-- The date of a refusal or of a loss. -/
def Incident.loss? : Incident ε → Option Int
  | .refused ms | .lost ms => some ms
  | _ => none

/-- The failures since the last answer, or since the link was opened. -/
def failuresSince (incidents : List (Incident ε)) : Nat :=
  (incidents.reverse.takeWhile fun i => !i.resets).countP Incident.isFailure

/-- The dates of the refusals and losses since all was last answered, the last one first. -/
def lossesSince (incidents : List (Incident ε)) : List Int :=
  (incidents.reverse.takeWhile fun i => !i.isCompleted).filterMap Incident.loss?

@[simp] theorem failuresSince_append (incidents : List (Incident ε)) (i : Incident ε) :
    failuresSince (incidents ++ [i]) =
      if i.resets then 0 else failuresSince incidents + if i.isFailure then 1 else 0 := by
  rw [failuresSince, List.reverse_append, List.reverse_singleton, List.singleton_append,
    List.takeWhile_cons]
  cases i.resets <;> simp [failuresSince, List.countP_cons]

@[simp] theorem lossesSince_append (incidents : List (Incident ε)) (i : Incident ε) :
    lossesSince (incidents ++ [i]) =
      if i.isCompleted then [] else i.loss?.toList ++ lossesSince incidents := by
  rw [lossesSince, List.reverse_append, List.reverse_singleton, List.singleton_append,
    List.takeWhile_cons]
  cases i.isCompleted <;> cases hloss : i.loss? <;> simp [lossesSince, hloss]

section Follow

variable {P : Policy ε} {w w' : Watch} {incidents incidents' : List (Incident ε)}

theorem Policy.follow_append (P : Policy ε) (w : Watch) (incidents incidents' : List (Incident ε)) :
    P.follow w (incidents ++ incidents') = (P.follow w incidents).bind fun w => P.follow w incidents' :=
  List.foldlM_append

theorem Policy.follow_closing {n : Nat} {e : ε} (hline : w.line = .up n)
    (hclose : P.fatal e = true ∨ P.limit ≤ n + 1) (ms : Int) :
    P.follow w [.failed e, .lost ms] = some { line := .down, losses := w.losses + 1, last := ms } := by
  simp [Policy.follow, Policy.step, hline, hclose]

theorem Policy.follow_counted {n : Nat} {e : ε} (hline : w.line = .up n)
    (hstay : ¬ (P.fatal e = true ∨ P.limit ≤ n + 1)) :
    P.follow w [.failed e] = some { w with line := .up (n + 1) } := by
  simp [Policy.follow, Policy.step, hline, hstay]

/-- A line is up after an incident that opens it or answers on it, or because it was. -/
theorem Policy.step_line {i : Incident ε} (h : P.step w i = some w') {n : Nat} (hn : w'.line = .up n) :
    (i.resets = true ∧ n = 0) ∨
      (i.resets = false ∧ i.isFailure = false ∧ w.line = .up n) ∨
      (i.resets = false ∧ i.isFailure = true ∧ ∃ k, w.line = .up k ∧ n = k + 1 ∧ n < P.limit) := by
  cases i with
  | refused ms =>
    simp only [Policy.step, Option.ite_none_right_eq_some, Option.some.injEq] at h
    obtain ⟨-, rfl⟩ := h
    exact .inr (.inl ⟨rfl, rfl, hn⟩)
  | opened =>
    simp only [Policy.step, Option.ite_none_right_eq_some, Option.some.injEq] at h
    obtain ⟨-, rfl⟩ := h
    cases hn
    exact .inl ⟨rfl, rfl⟩
  | answered =>
    simp only [Policy.step] at h
    split at h <;> cases h
    cases hn
    exact .inl ⟨rfl, rfl⟩
  | completed =>
    simp only [Policy.step] at h
    split at h <;> cases h
    exact .inr (.inl ⟨rfl, rfl, hn⟩)
  | failed e =>
    simp only [Policy.step] at h
    split at h <;> cases h
    next k hk =>
    dsimp only at hn
    split at hn
    · cases hn
    · next hfew =>
      cases hn
      rw [not_or, Nat.not_le] at hfew
      exact .inr (.inr ⟨rfl, rfl, k, hk, rfl, hfew.2⟩)
  | lost ms =>
    simp only [Policy.step] at h
    split at h <;> cases h
    cases hn

/-- Refusals and losses are counted and dated, until all is answered. -/
theorem Policy.step_losses {i : Incident ε} (h : P.step w i = some w') :
    w'.losses = (if i.isCompleted then 0 else i.loss?.toList.length + w.losses) ∧
      w'.last = i.loss?.getD w.last := by
  cases i with
  | refused _ | opened =>
    simp only [Policy.step, Option.ite_none_right_eq_some, Option.some.injEq] at h
    obtain ⟨-, rfl⟩ := h
    simp [Incident.isCompleted, Incident.loss?, Nat.add_comm]
  | answered | completed | failed _ | lost _ =>
    simp only [Policy.step] at h
    split at h <;> cases h
    simp [Incident.isCompleted, Incident.loss?, Nat.add_comm]

/-- **What a watch says** of the incidents it has followed. -/
structure Tells (P : Policy ε) (incidents : List (Incident ε)) (w : Watch) : Prop where
  up : ∀ n, w.line = .up n → n = failuresSince incidents ∧ n < P.limit
  losses : w.losses = (lossesSince incidents).length
  last : ∀ ms, (lossesSince incidents).head? = some ms → w.last = ms

theorem Policy.tells (hlimit : 0 < P.limit) (h : P.follow .start incidents = some w) :
    Tells P incidents w := by
  induction incidents using List.reverseRecOn generalizing w with
  | nil =>
    cases h
    exact ⟨nofun, rfl, nofun⟩
  | append_singleton incidents i ih =>
    rw [P.follow_append] at h
    obtain ⟨w₁, hfollow, hlast⟩ := Option.bind_eq_some_iff.mp h
    obtain ⟨hup, hlosses, hdate⟩ := ih hfollow
    have hstep : P.step w₁ i = some w := by simpa [Policy.follow] using hlast
    obtain ⟨hcount, hdated⟩ := Policy.step_losses hstep
    refine ⟨fun n hn => ?_, ?_, fun ms hms => ?_⟩
    · rw [failuresSince_append]
      rcases Policy.step_line hstep hn with ⟨hreset, rfl⟩ | ⟨hreset, hfail, hline⟩ |
        ⟨hreset, hfail, k, hline, rfl, hfew⟩
      · simp [hreset, hlimit]
      · simpa [hreset, hfail] using hup n hline
      · simpa [hreset, hfail, hfew] using (hup k hline).1
    · rw [hcount, lossesSince_append, hlosses]
      split <;> simp
    · rw [lossesSince_append] at hms
      rw [hdated]
      cases hcompleted : i.isCompleted <;> cases hloss : i.loss? <;> simp_all

/-- **When a failure closes the link**: it is fatal, or one too many in a row; and the loss
is then the next thing that happens. -/
theorem Policy.follow_failed (hlimit : 0 < P.limit) {e : ε}
    (h : P.follow .start (incidents ++ .failed e :: incidents') = some w) (hw : w.line ≠ .closing) :
    (∃ ms rest, incidents' = .lost ms :: rest) ↔
      P.fatal e = true ∨ failuresSince incidents + 1 = P.limit := by
  rw [P.follow_append] at h
  obtain ⟨w₁, hfollow, hrest⟩ := Option.bind_eq_some_iff.mp h
  obtain ⟨w₂, hstep, hrest⟩ := Option.bind_eq_some_iff.mp hrest
  simp only [Policy.step] at hstep
  split at hstep <;> cases hstep
  next n hn =>
  obtain ⟨rfl, hfew⟩ := (P.tells hlimit hfollow).up n hn
  by_cases hclose : P.fatal e = true ∨ P.limit ≤ failuresSince incidents + 1
  · refine ⟨fun _ => hclose.imp_right fun hle => by omega, fun _ => ?_⟩
    rw [if_pos hclose] at hrest
    cases incidents' with
    | nil =>
      cases hrest
      exact absurd rfl hw
    | cons i rest =>
      obtain ⟨w₃, hnext, -⟩ := Option.bind_eq_some_iff.mp hrest
      cases i with
      | lost ms => exact ⟨ms, rest, rfl⟩
      | _ => cases hnext
  · refine ⟨?_, fun hfatal => absurd (hfatal.imp_right fun heq => by omega) hclose⟩
    rintro ⟨ms, rest, rfl⟩
    rw [if_neg hclose, List.foldlM_cons] at hrest
    cases hrest

end Follow

end Supervision
