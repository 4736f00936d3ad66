import Mathlib.Data.List.Basic

/-!
# AmlService.Lib.Lines

**Lines in a stream.** A line is what stands before a separator. `join` closes each of
several lines, `cut` takes the first line off a stream, and `split` takes off all of
them; lines that do not contain the separator are found again (`split_join`).
-/

namespace Lines

variable {α : Type} {sep : α}

/-- Several lines, each closed by the separator. -/
def join (sep : α) (lines : List (List α)) : List α := lines.flatMap fun line => line ++ [sep]

@[simp] theorem join_nil : join sep [] = [] := rfl

theorem join_cons (line : List α) (lines : List (List α)) :
    join sep (line :: lines) = line ++ sep :: join sep lines := by
  simp [join]

theorem join_append (lines lines' : List (List α)) :
    join sep (lines ++ lines') = join sep lines ++ join sep lines' :=
  List.flatMap_append

theorem join_concat (lines : List (List α)) (line : List α) :
    join sep (lines ++ [line]) = join sep lines ++ (line ++ [sep]) := by
  rw [join_append, join_cons, join_nil]

variable [DecidableEq α]

/-- The first line, and what comes after its separator. -/
def cut (sep : α) : List α → Option (List α × List α)
  | [] => none
  | x :: xs => if x = sep then some ([], xs) else (cut sep xs).map fun (line, rest) => (x :: line, rest)

theorem cut_none {xs : List α} : cut sep xs = none ↔ sep ∉ xs := by
  induction xs with
  | nil => simp [cut]
  | cons x xs ih =>
    unfold cut
    by_cases h : x = sep
    · simp [h]
    · simp [h, ih, Ne.symm h]

theorem cut_inv {xs line rest : List α} (h : cut sep xs = some (line, rest)) :
    xs = line ++ sep :: rest ∧ sep ∉ line := by
  induction xs generalizing line with
  | nil => cases h
  | cons x xs ih =>
    unfold cut at h
    split at h
    · next hx =>
      obtain ⟨rfl, rfl⟩ := Prod.mk.inj (Option.some.inj h)
      exact ⟨by rw [hx]; rfl, by simp⟩
    · next hx =>
      obtain ⟨⟨line', rest'⟩, hcut, heq⟩ := Option.map_eq_some_iff.mp h
      obtain ⟨rfl, rfl⟩ := Prod.mk.inj heq
      obtain ⟨rfl, hline⟩ := ih hcut
      exact ⟨rfl, by simp [hline, Ne.symm hx]⟩

theorem cut_line {line : List α} (h : sep ∉ line) (rest : List α) :
    cut sep (line ++ sep :: rest) = some (line, rest) := by
  induction line with
  | nil => simp [cut]
  | cons x line ih =>
    obtain ⟨hx, hline⟩ : sep ≠ x ∧ sep ∉ line := by simpa using h
    simp [cut, ih hline, Ne.symm hx]

theorem cut_lt {xs line rest : List α} (h : cut sep xs = some (line, rest)) : rest.length < xs.length := by
  obtain ⟨rfl, -⟩ := cut_inv h
  simp only [List.length_append, List.length_cons]
  omega

/-- All the lines, and the unfinished one. -/
def split (sep : α) : List α → List (List α) × List α
  | [] => ([], [])
  | x :: xs =>
    let (lines, tail) := split sep xs
    if x = sep then ([] :: lines, tail)
    else
      match lines with
      | [] => ([], x :: tail)
      | line :: lines => ((x :: line) :: lines, tail)

theorem split_of_not_mem {xs : List α} (h : sep ∉ xs) : split sep xs = ([], xs) := by
  induction xs with
  | nil => rfl
  | cons x xs ih =>
    obtain ⟨hx, hxs⟩ : sep ≠ x ∧ sep ∉ xs := by simpa using h
    simp [split, ih hxs, Ne.symm hx]

theorem split_line {line : List α} (h : sep ∉ line) (xs : List α) :
    split sep (line ++ sep :: xs) = (line :: (split sep xs).1, (split sep xs).2) := by
  induction line with
  | nil => simp [split]
  | cons x line ih =>
    obtain ⟨hx, hline⟩ : sep ≠ x ∧ sep ∉ line := by simpa using h
    rw [List.cons_append]
    simp [split, ih hline, Ne.symm hx]

/-- A stream begins with one line. -/
theorem line_unique {line line' rest rest' : List α} (h : line ++ sep :: rest = line' ++ sep :: rest')
    (hline : sep ∉ line) (hline' : sep ∉ line') : line = line' := by
  have hsplit := congrArg (split sep) h
  rw [split_line hline, split_line hline'] at hsplit
  simp only [Prod.mk.injEq, List.cons.injEq] at hsplit
  exact hsplit.1.1

/-- **The lines are found again.** -/
theorem split_join {lines : List (List α)} {tail : List α} (h : ∀ line ∈ lines, sep ∉ line)
    (htail : sep ∉ tail) : split sep (join sep lines ++ tail) = (lines, tail) := by
  induction lines with
  | nil => exact split_of_not_mem htail
  | cons line lines ih =>
    have hline := h line List.mem_cons_self
    rw [join_cons, List.append_assoc, List.cons_append, split_line hline,
      ih fun l hl => h l (List.mem_cons_of_mem line hl)]

end Lines
