import Mathlib.Data.List.Basic
import Mathlib.Tactic.SplitIfs

/-!
# AmlService.Lib.Scan

**Left-to-right scanning of a stream that arrives in pieces.**

A `Scanner` looks at the unread input and says whether a unit starts right here
(`emit n`), whether it could still be completed (`wait`), or whether the first
symbol can be dropped (`skip`). Two of the three verdicts must be *stable*: more
input never revokes an `emit` nor a `skip`. That is all it takes for the units to
be independent of how the input is cut into chunks (`Scanner.feed_chunks`).

`Reads` is the declarative counterpart: which units a left-to-right reading of the
whole input contains, given what a unit is and which inputs deserve waiting.
-/

namespace Scan

/-- What is decided about the unread input at the current position. -/
inductive Verdict
  | emit (n : Nat)
  | wait
  | skip
  deriving Repr, DecidableEq

namespace Verdict

/-- One check of a unit in the making: `wait` until there is `enough` input, `skip`
when it is not `ok`, else go on with the next checks. -/
def check (enough ok : Prop) [Decidable enough] [Decidable ok] (next : Verdict) : Verdict :=
  if enough then (if ok then next else skip) else wait

variable {enough ok enough' ok' : Prop} [Decidable enough] [Decidable ok]
  [Decidable enough'] [Decidable ok'] {next next' : Verdict}

theorem check_eq_emit {n : Nat} :
    check enough ok next = emit n ↔ enough ∧ ok ∧ next = emit n := by
  unfold check; split_ifs <;> simp_all

theorem check_eq_skip :
    check enough ok next = skip ↔ enough ∧ (¬ ok ∨ next = skip) := by
  unfold check; split_ifs <;> simp_all

theorem check_eq_wait :
    check enough ok next = wait ↔ ¬ enough ∨ (ok ∧ next = wait) := by
  unfold check; split_ifs <;> simp_all

/-- A check is not revoked by later input if its condition is not. -/
theorem check_stable (henough : enough → enough') (hok : enough → (ok ↔ ok'))
    (hnext : enough → ok → next ≠ wait → next' = next)
    (h : check enough ok next ≠ wait) : check enough' ok' next' = check enough ok next := by
  unfold check at h ⊢
  by_cases he : enough
  · simp only [he, henough he, if_true] at h ⊢
    by_cases ho : ok
    · simp only [ho, (hok he).mp ho, if_true] at h ⊢
      exact hnext he ho h
    · simp only [ho, mt (hok he).mpr ho, if_false]
  · simp [he] at h

end Verdict

/-- A left-to-right scanner whose `emit` and `skip` verdicts are stable under
later input. -/
structure Scanner (α : Type*) where
  verdict : List α → Verdict
  verdict_nil : verdict [] = .wait
  emit_pos : ∀ {s n}, verdict s = .emit n → 0 < n
  emit_le : ∀ {s n}, verdict s = .emit n → n ≤ s.length
  stable : ∀ {s}, verdict s ≠ .wait → ∀ t, verdict (s ++ t) = verdict s

namespace Scanner

variable {α : Type*} (S : Scanner α)

theorem length_pos_of_skip {s : List α} (h : S.verdict s = .skip) : 0 < s.length := by
  cases s with
  | nil => rw [S.verdict_nil] at h; exact absurd h (by simp)
  | cons _ _ => simp

/-- The first unit of the input, if there is one, and what is left unread. -/
def next (s : List α) : Option (List α) × List α :=
  match _h : S.verdict s with
  | .emit n => (some (s.take n), s.drop n)
  | .wait => (none, s)
  | .skip => next s.tail
termination_by s.length
decreasing_by
  have := S.length_pos_of_skip _h
  simp only [List.length_tail]; omega

/-- All the units of the input, in order, and what is left unread. -/
def scan (s : List α) : List (List α) × List α :=
  match _h : S.verdict s with
  | .emit n =>
    let rest := scan (s.drop n)
    (s.take n :: rest.1, rest.2)
  | .wait => ([], s)
  | .skip => scan s.tail
termination_by s.length
decreasing_by
  · have := S.emit_pos _h
    have := S.emit_le _h
    simp only [List.length_drop]; omega
  · have := S.length_pos_of_skip _h
    simp only [List.length_tail]; omega

variable {S} {s : List α}

theorem emit_append {n : Nat} (h : S.verdict s = .emit n) (t : List α) :
    S.verdict (s ++ t) = .emit n :=
  (S.stable (by simp [h]) t).trans h

theorem skip_append (h : S.verdict s = .skip) (t : List α) :
    S.verdict (s ++ t) = .skip :=
  (S.stable (by simp [h]) t).trans h

theorem next_of_emit {n : Nat} (h : S.verdict s = .emit n) :
    S.next s = (some (s.take n), s.drop n) := by
  rw [next]; split <;> simp_all

theorem next_of_wait (h : S.verdict s = .wait) : S.next s = (none, s) := by
  rw [next]; split <;> simp_all

theorem next_of_skip (h : S.verdict s = .skip) : S.next s = S.next s.tail := by
  rw [next]; split <;> simp_all

theorem scan_of_emit {n : Nat} (h : S.verdict s = .emit n) :
    S.scan s = (s.take n :: (S.scan (s.drop n)).1, (S.scan (s.drop n)).2) := by
  rw [scan]; split <;> simp_all

theorem scan_of_wait (h : S.verdict s = .wait) : S.scan s = ([], s) := by
  rw [scan]; split <;> simp_all

theorem scan_of_skip (h : S.verdict s = .skip) : S.scan s = S.scan s.tail := by
  rw [scan]; split <;> simp_all

/-- A whole scan is a first unit followed by the scan of what it leaves. -/
theorem scan_eq_next (s : List α) :
    S.scan s =
      match S.next s with
      | (some u, r) => (u :: (S.scan r).1, (S.scan r).2)
      | (none, r) => ([], r) := by
  induction hn : s.length using Nat.strongRecOn generalizing s with
  | _ n ih =>
    cases hv : S.verdict s with
    | emit n => rw [scan_of_emit hv, next_of_emit hv]
    | wait => rw [scan_of_wait hv, next_of_wait hv]
    | skip =>
      have hpos := S.length_pos_of_skip hv
      rw [scan_of_skip hv, next_of_skip hv]
      exact ih s.tail.length (by simp only [List.length_tail]; omega) s.tail rfl

/-- `next` without a unit leaves an input on which the scanner waits. -/
theorem verdict_of_next_none (s : List α) (h : (S.next s).1 = none) :
    S.verdict (S.next s).2 = .wait := by
  induction hn : s.length using Nat.strongRecOn generalizing s with
  | _ n ih =>
    cases hv : S.verdict s with
    | emit n => rw [next_of_emit hv] at h; exact absurd h (by simp)
    | wait => rw [next_of_wait hv]; exact hv
    | skip =>
      have hpos := S.length_pos_of_skip hv
      rw [next_of_skip hv] at h ⊢
      exact ih s.tail.length (by simp only [List.length_tail]; omega) s.tail h rfl

/-! ### Independence of the chunks -/

/-- **Scanning in two goes.** Scanning `s ++ t` is scanning `s`, then its unread
rest followed by `t`. -/
theorem scan_append (s t : List α) :
    S.scan (s ++ t) =
      ((S.scan s).1 ++ (S.scan ((S.scan s).2 ++ t)).1,
        (S.scan ((S.scan s).2 ++ t)).2) := by
  -- by length, since an emit drops several symbols at once
  induction hn : s.length using Nat.strongRecOn generalizing s with
  | _ n ih =>
    cases hv : S.verdict s with
    | wait => rw [scan_of_wait hv]; rfl
    -- the verdict on `s` stands whatever comes after it
    | emit n =>
      have hpos := S.emit_pos hv
      have hle := S.emit_le hv
      have ih' := ih (s.drop n).length (by simp only [List.length_drop]; omega) (s.drop n) rfl
      rw [scan_of_emit hv, scan_of_emit (emit_append hv t),
        List.take_append_of_le_length hle, List.drop_append_of_le_length hle, ih']
      rfl
    | skip =>
      have hpos := S.length_pos_of_skip hv
      have htail : (s ++ t).tail = s.tail ++ t :=
        List.tail_append_of_ne_nil (List.ne_nil_of_length_pos hpos)
      rw [scan_of_skip hv, scan_of_skip (skip_append hv t), htail]
      exact ih s.tail.length (by simp only [List.length_tail]; omega) s.tail rfl

/-- Scanning stops on an input on which the scanner waits. -/
theorem verdict_scan (s : List α) : S.verdict (S.scan s).2 = .wait := by
  induction hn : s.length using Nat.strongRecOn generalizing s with
  | _ n ih =>
    cases hv : S.verdict s with
    | wait => rw [scan_of_wait hv]; exact hv
    | emit n =>
      have hpos := S.emit_pos hv
      have hle := S.emit_le hv
      rw [scan_of_emit hv]
      exact ih (s.drop n).length (by simp only [List.length_drop]; omega) (s.drop n) rfl
    | skip =>
      have hpos := S.length_pos_of_skip hv
      rw [scan_of_skip hv]
      exact ih s.tail.length (by simp only [List.length_tail]; omega) s.tail rfl

/-- One arrival: the units completed by `chunk`, and the new unread rest. -/
def feed (S : Scanner α) (acc : List (List α) × List α) (chunk : List α) :
    List (List α) × List α :=
  (acc.1 ++ (S.scan (acc.2 ++ chunk)).1, (S.scan (acc.2 ++ chunk)).2)

/-- **The chunks do not matter.** Feeding the chunks one after the other, from a
rest on which the scanner waits, gives the scan of everything at once. -/
theorem feed_chunks (chunks : List (List α)) :
    ∀ (acc : List (List α) × List α), S.verdict acc.2 = .wait →
      chunks.foldl S.feed acc =
        (acc.1 ++ (S.scan (acc.2 ++ chunks.flatten)).1,
          (S.scan (acc.2 ++ chunks.flatten)).2) := by
  induction chunks with
  | nil =>
    intro acc hw
    simp [scan_of_wait hw]
  | cons c cs ih =>
    -- the rest that `c` leaves is one on which the scanner waits again
    intro acc _
    rw [List.foldl_cons, ih (S.feed acc c) (verdict_scan _)]
    simp only [feed, List.flatten_cons]
    rw [← List.append_assoc acc.2 c, scan_append (acc.2 ++ c)]
    simp

end Scanner

/-! ### Reading a whole input -/

section Reads

variable {α : Type*} (unitAt : List α → Nat → Prop) (pending : List α → Prop)

/-- The units of a left-to-right reading of a complete input: at each position,
take the unit that starts there, stop where one may still be completed by later
input, else drop one symbol. -/
inductive Reads : List α → List (List α) → Prop
  | emit {s n us} : unitAt s n → Reads (s.drop n) us → Reads s (s.take n :: us)
  | stop {s} : (∀ n, ¬ unitAt s n) → pending s → Reads s []
  | skip {a s us} : (∀ n, ¬ unitAt (a :: s) n) → ¬ pending (a :: s) → Reads s us →
      Reads (a :: s) us
  | done : (∀ n, ¬ unitAt [] n) → Reads [] []

variable {unitAt pending}

/-- A reading is determined by its input as soon as the unit at a position is. -/
theorem Reads.unique (huniq : ∀ s n m, unitAt s n → unitAt s m → n = m)
    {s : List α} {us vs : List (List α)} (hu : Reads unitAt pending s us)
    (hv : Reads unitAt pending s vs) : us = vs := by
  induction hu generalizing vs with
  | emit hat _ ih =>
    cases hv with
    | emit hat' hrest =>
      obtain rfl := huniq _ _ _ hat hat'
      rw [ih hrest]
    | stop hno _ => exact absurd hat (hno _)
    | skip hno _ _ => exact absurd hat (hno _)
    | done hno => exact absurd hat (hno _)
  | stop hno hp =>
    cases hv with
    | emit hat _ => exact absurd hat (hno _)
    | stop _ _ => rfl
    | skip _ hnp _ => exact absurd hp hnp
    | done _ => rfl
  | skip hno hnp _ ih =>
    cases hv with
    | emit hat _ => exact absurd hat (hno _)
    | stop _ hp => exact absurd hp hnp
    | skip _ _ hrest => exact ih hrest
  | done hno =>
    cases hv with
    | emit hat _ => exact absurd hat (hno _)
    | stop _ _ => rfl
    | done _ => rfl

/-- An input no suffix of which starts a unit contains none. -/
theorem Reads.nil_of_no_unit :
    ∀ {s : List α}, (∀ t, t <:+ s → ∀ n, ¬ unitAt t n) → Reads unitAt pending s []
  | [], h => .done (h [] (List.suffix_refl _))
  | a :: s, h => by
    by_cases hp : pending (a :: s)
    · exact .stop (h _ (List.suffix_refl _)) hp
    · exact .skip (h _ (List.suffix_refl _)) hp
        (Reads.nil_of_no_unit fun t ht => h t (ht.trans (List.suffix_cons a s)))

/-- **A scanner reads what the declarative reading does**, provided it emits exactly
the units, drops no input that is still pending, and, where it waits although
nothing is pending, has no unit left to miss. -/
theorem Scanner.reads_scan (S : Scanner α)
    (hemit : ∀ {s n}, S.verdict s = .emit n ↔ unitAt s n)
    (hskip : ∀ {s}, S.verdict s = .skip → ¬ pending s)
    (hwait : ∀ {s}, S.verdict s = .wait → pending s ∨ ∀ t, t <:+ s → ∀ n, ¬ unitAt t n)
    (s : List α) : Reads unitAt pending s (S.scan s).1 := by
  induction hn : s.length using Nat.strongRecOn generalizing s with
  | _ n ih =>
    have hno : (∀ n, S.verdict s ≠ .emit n) → ∀ n, ¬ unitAt s n :=
      fun h n hat => h n (hemit.mpr hat)
    cases hv : S.verdict s with
    | emit n =>
      have hpos := S.emit_pos hv
      have hle := S.emit_le hv
      rw [Scanner.scan_of_emit hv]
      exact .emit (hemit.mp hv)
        (ih (s.drop n).length (by simp only [List.length_drop]; omega) (s.drop n) rfl)
    | wait =>
      rw [Scanner.scan_of_wait hv]
      rcases hwait hv with hp | hnone
      · exact .stop (hno (by simp [hv])) hp
      · exact Reads.nil_of_no_unit hnone
    | skip =>
      have hpos := S.length_pos_of_skip hv
      rw [Scanner.scan_of_skip hv]
      cases s with
      | nil => exact absurd hpos (by simp)
      | cons a s =>
        exact .skip (hno (by simp [hv])) (hskip hv)
          (ih s.length (by rw [← hn]; simp) s rfl)

end Reads

end Scan
