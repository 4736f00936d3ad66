import Mathlib.Logic.Function.Iterate

/-!
# AmlService.Lib.Backlog

**A queue that gives room back late.** What has left a queue of bytes goes on taking its place until
the queue is empty. A bound on what such a queue holds is then no bound on what is waiting in it
(`rounds_grow`): a queue that is never quite empty fills up, however short it stays.
-/

namespace Backlog

/-- What has left since the queue was last empty, and what is waiting. -/
@[ext] structure Queue where
  left : Nat
  waiting : Nat
  settled : waiting = 0 → left = 0

namespace Queue

def empty : Queue := ⟨0, 0, fun _ => rfl⟩

/-- All that takes place. -/
def held (q : Queue) : Nat := q.left + q.waiting

/-- Some more to wait. -/
def put (q : Queue) (n : Nat) : Queue where
  left := q.left
  waiting := q.waiting + n
  settled h := q.settled (by omega)

/-- Some leave, as many as there were. -/
def take (q : Queue) (n : Nat) : Queue :=
  if h : q.waiting ≤ n then empty
  else { left := q.left + n, waiting := q.waiting - n, settled := fun h' => absurd h' (by omega) }

variable {q : Queue} {n capacity : Nat}

@[simp] theorem put_left : (q.put n).left = q.left := rfl
@[simp] theorem put_waiting : (q.put n).waiting = q.waiting + n := rfl

theorem take_all (h : q.waiting ≤ n) : q.take n = empty := dif_pos h

@[simp] theorem take_left (h : n < q.waiting) : (q.take n).left = q.left + n := by
  simp [take, Nat.not_le.mpr h]

@[simp] theorem take_waiting : (q.take n).waiting = q.waiting - n := by
  unfold take
  split
  · next h => simp [empty, Nat.sub_eq_zero_of_le h]
  · rfl

/-- Nothing is waiting: nothing takes place. -/
theorem eq_empty (h : q.waiting = 0) : q = empty := Queue.ext (q.settled h) h

@[simp] theorem empty_take : empty.take n = empty := take_all (Nat.zero_le n)

/-- The queue takes some more, with what is waiting. -/
def Fits (capacity : Nat) (q : Queue) (n : Nat) : Prop := q.waiting + n ≤ capacity

/-- It takes some more, with all that takes place. -/
def HasRoom (capacity : Nat) (q : Queue) (n : Nat) : Prop := q.held + n ≤ capacity

/-- A round: some leave, and as many come. -/
def round (n : Nat) (q : Queue) : Queue := (q.take n).put n

/-- **A queue that is never empty grows**, though no more is waiting in it. -/
theorem rounds_grow (h : n < q.waiting) (k : Nat) :
    ((round n)^[k] q).left = q.left + k * n ∧ ((round n)^[k] q).waiting = q.waiting := by
  induction k with
  | zero => simp
  | succ k ih =>
    obtain ⟨hleft, hwaiting⟩ := ih
    have hmore : n < ((round n)^[k] q).waiting := by rwa [hwaiting]
    rw [Function.iterate_succ_apply']
    refine ⟨?_, ?_⟩
    · rw [round, put_left, take_left hmore, hleft, Nat.succ_mul, Nat.add_assoc]
    · rw [round, put_waiting, take_waiting, hwaiting]
      omega

end Queue

end Backlog
