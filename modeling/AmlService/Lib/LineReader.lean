import AmlService.Lib.Lines

/-!
# AmlService.Lib.LineReader

**Reading lines from a stream that comes in chunks.** What comes next completes what was left over
(`split_append`). A reader that has received the beginning of some lines has read the first of them
(`split_of_prefix`).
-/

namespace Lines

variable {α : Type} [DecidableEq α] {sep : α}

/-- More of a stream: what was left over is completed first. -/
theorem split_append (xs ys : List α) : split sep (xs ++ ys) =
    ((split sep xs).1 ++ (split sep ((split sep xs).2 ++ ys)).1, (split sep ((split sep xs).2 ++ ys)).2) := by
  induction xs with
  | nil => rfl
  | cons x xs ih =>
    rw [List.cons_append]
    simp only [split, ih]
    by_cases hx : x = sep
    · simp [hx]
    · cases hlines : (split sep xs).1 with
      | nil => simp [hx, split]
      | cons line lines => simp [hx]

/-- What is left over is no line. -/
theorem split_tail (xs : List α) : sep ∉ (split sep xs).2 := by
  induction xs with
  | nil => simp [split]
  | cons x xs ih =>
    simp only [split]
    by_cases hx : x = sep
    · simpa [hx] using ih
    · cases hlines : (split sep xs).1 <;> simp [hx, ih, Ne.symm hx]

/-- **The beginning of some lines** is the first of them, and the beginning of one more. -/
theorem split_of_prefix {xs : List α} {lines : List (List α)} (h : xs <+: join sep lines)
    (hlines : ∀ line ∈ lines, sep ∉ line) : (split sep xs).1 <+: lines := by
  obtain ⟨rest, hrest⟩ := h
  have hsplit := split_join hlines (List.not_mem_nil (a := sep))
  rw [List.append_nil, ← hrest, split_append] at hsplit
  exact ⟨_, (Prod.mk.inj hsplit).1⟩

/-- The first line of the beginning of some lines. -/
theorem cut_of_prefix {xs line rest : List α} {lines : List (List α)} (h : xs <+: join sep lines)
    (hlines : ∀ line ∈ lines, sep ∉ line) (hcut : cut sep xs = some (line, rest)) :
    ∃ others, lines = line :: others := by
  obtain ⟨rfl, hline⟩ := cut_inv hcut
  obtain ⟨others, hothers⟩ := split_of_prefix h hlines
  rw [split_line hline] at hothers
  exact ⟨_, hothers.symm⟩

/-- The lines that fit in one line are that line, or none. -/
theorem lines_of_one {line : List α} {lines : List (List α)} (h : join sep lines <+: line ++ [sep])
    (hlines : ∀ line ∈ lines, sep ∉ line) (hline : sep ∉ line) : lines = [] ∨ lines = [line] := by
  cases lines with
  | nil => exact .inl rfl
  | cons first lines =>
    right
    obtain ⟨rest, hrest⟩ := h
    rw [join_cons, List.append_assoc, List.cons_append] at hrest
    obtain rfl := line_unique hrest (hlines first List.mem_cons_self) hline
    have hnil := List.append_cancel_left hrest
    cases lines with
    | nil => rfl
    | cons second lines => simp [join_cons] at hnil

omit [DecidableEq α] in
/-- The beginning of one line that ends with the separator is that line. -/
theorem eq_of_prefix_line {xs line : List α} (h : xs <+: line ++ [sep]) (hline : sep ∉ line)
    (hlast : xs.getLast? = some sep) : xs = line ++ [sep] := by
  rcases List.prefix_concat_iff.mp h with heq | hbefore
  · exact heq
  · exact absurd (hbefore.subset (List.mem_of_getLast? hlast)) hline

end Lines
