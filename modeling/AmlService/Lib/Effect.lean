import Mathlib.Order.Defs.Unbundled

/-!
# AmlService.Lib.Effect

**What a stateful computation does to its state, as a relation.** `Keeps R m` says
that every run of the fallible computation `m`, whether it succeeds or fails, leaves
a state related by `R` to the one it started from. For a preorder `R` the relation
passes through sequencing, so that a program keeps what its primitive steps keep.
-/

namespace Effect

variable {ε σ α β : Type}

/-- Computations that read and write a state `σ` and may fail with an `ε`; a failure
keeps the state reached. -/
abbrev Fallible (ε σ α : Type) := ExceptT ε (StateM σ) α

/-- A computation that changes the state and cannot fail. -/
def Fallible.act (f : σ → σ) : Fallible ε σ Unit := fun s => (.ok (), f s)

/-- A computation that reads and changes the state and cannot fail. -/
def Fallible.lift (f : σ → α × σ) : Fallible ε σ α := fun s => (.ok (f s).1, (f s).2)

/-- The same computation, with its failures translated. -/
def Fallible.mapError {ε' : Type} (f : ε → ε') (m : Fallible ε σ α) : Fallible ε' σ α := fun s =>
  match m s with
  | (.ok a, s) => (.ok a, s)
  | (.error e, s) => (.error (f e), s)

/-- Every run of `m` is an `R` step. -/
def Keeps (R : σ → σ → Prop) (m : Fallible ε σ α) : Prop := ∀ s, R s (m s).2

/-! ### Running a computation -/

theorem get_run (s : σ) : (get : Fallible ε σ σ) s = (.ok s, s) := rfl

theorem lift_run (f : σ → α × σ) (s : σ) :
    (Fallible.lift f : Fallible ε σ α) s = (.ok (f s).1, (f s).2) := rfl

theorem bind_run (m : Fallible ε σ α) (f : α → Fallible ε σ β) (s : σ) :
    (m >>= f) s =
      match m s with
      | (.ok a, s') => f a s'
      | (.error e, s') => (.error e, s') := by
  show (match m s with | (r, s') => ExceptT.bindCont f r s') = _
  rcases m s with ⟨_ | _, _⟩ <;> rfl

theorem bind_run_ok {m : Fallible ε σ α} {f : α → Fallible ε σ β} {s s' : σ} {a : α}
    (h : m s = (.ok a, s')) : (m >>= f) s = f a s' := by
  rw [bind_run, h]

theorem bind_run_error {m : Fallible ε σ α} {f : α → Fallible ε σ β} {s s' : σ} {e : ε}
    (h : m s = (.error e, s')) : (m >>= f) s = (.error e, s') := by
  rw [bind_run, h]

/-- A second half that only looks at what the first gives. -/
theorem bind_run_snd {m : Fallible ε σ α} {f : α → Fallible ε σ β} (hf : ∀ a s, (f a s).2 = s) (s : σ) :
    ((m >>= f) s).2 = (m s).2 := by
  rw [bind_run]
  rcases m s with ⟨_ | a, t⟩
  · rfl
  · exact hf a t

/-- A successful sequence is two successful runs, one after the other. -/
theorem bind_run_inv {m : Fallible ε σ α} {f : α → Fallible ε σ β} {s s' : σ} {b : β}
    (h : (m >>= f) s = (.ok b, s')) : ∃ a t, m s = (.ok a, t) ∧ f a t = (.ok b, s') := by
  rw [bind_run] at h
  rcases hm : m s with ⟨_ | a, t⟩
  · rw [hm] at h; cases h
  · rw [hm] at h; exact ⟨a, t, rfl, h⟩

@[simp] theorem mapError_ok {ε' : Type} {f : ε → ε'} {m : Fallible ε σ α} {s t : σ} {a : α} :
    Fallible.mapError f m s = (.ok a, t) ↔ m s = (.ok a, t) := by
  unfold Fallible.mapError
  rcases m s with ⟨_ | _, _⟩
  · exact ⟨nofun, nofun⟩
  · constructor <;> rintro ⟨⟩ <;> rfl

theorem mapError_error {ε' : Type} {f : ε → ε'} {m : Fallible ε σ α} {s t : σ} {e : ε}
    (h : m s = (.error e, t)) : Fallible.mapError f m s = (.error (f e), t) := by
  rw [Fallible.mapError, h]

theorem mapError_snd {ε' : Type} (f : ε → ε') (m : Fallible ε σ α) (s : σ) :
    (Fallible.mapError f m s).2 = (m s).2 := by
  unfold Fallible.mapError
  rcases m s with ⟨_ | _, _⟩ <;> rfl

theorem ok_of_isOk {r : Except ε α × σ} (h : r.1.isOk = true) : ∃ a, r = (.ok a, r.2) := by
  obtain ⟨_ | a, s⟩ := r
  · cases h
  · exact ⟨a, rfl⟩

/-! ### The rules of `Keeps` -/

variable {R : σ → σ → Prop}

theorem Keeps.act {f : σ → σ} (h : ∀ s, R s (f s)) : Keeps R (Fallible.act f : Fallible ε σ Unit) :=
  h

theorem Keeps.lift {f : σ → α × σ} (h : ∀ s, R s (f s).2) :
    Keeps R (Fallible.lift f : Fallible ε σ α) :=
  h

theorem Keeps.mapError {ε' : Type} {m : Fallible ε σ α} (hm : Keeps R m) (f : ε → ε') :
    Keeps R (Fallible.mapError f m) := by
  intro s
  rw [mapError_snd]
  exact hm s

theorem Keeps.mono {R' : σ → σ → Prop} {m : Fallible ε σ α} (hm : Keeps R m)
    (h : ∀ {s t}, R s t → R' s t) : Keeps R' m :=
  fun s => h (hm s)

section Preorder

variable [IsPreorder σ R]

theorem Keeps.pure (a : α) : Keeps R (Pure.pure a : Fallible ε σ α) := fun s => refl_of R s

theorem Keeps.throw (e : ε) : Keeps R (throw e : Fallible ε σ α) := fun s => refl_of R s

theorem Keeps.get : Keeps R (MonadState.get : Fallible ε σ σ) := fun s => refl_of R s

/-- **Sequencing.** -/
theorem Keeps.bind {m : Fallible ε σ α} {f : α → Fallible ε σ β} (hm : Keeps R m)
    (hf : ∀ a, Keeps R (f a)) : Keeps R (m >>= f) := by
  intro s
  have hstep := hm s
  rw [bind_run]
  rcases hs : m s with ⟨_ | a, t⟩ <;> rw [hs] at hstep
  · exact hstep
  · exact trans_of R hstep (hf a t)

omit [IsPreorder σ R] in
theorem Keeps.ite {c : Prop} [Decidable c] {m n : Fallible ε σ α} (hm : c → Keeps R m)
    (hn : ¬ c → Keeps R n) : Keeps R (if c then m else n) := by
  split
  · next h => exact hm h
  · next h => exact hn h

end Preorder

/-! ### Failures -/

/-- Every failure of `m` is one of `P`. -/
def Fails (P : ε → Prop) (m : Fallible ε σ α) : Prop := ∀ s e t, m s = (.error e, t) → P e

section Fails

variable {P : ε → Prop}

theorem Fails.pure (a : α) : Fails P (Pure.pure a : Fallible ε σ α) := nofun

theorem Fails.throw {e : ε} (h : P e) : Fails P (throw e : Fallible ε σ α) := by
  intro s f t hf
  obtain ⟨hf, -⟩ := Prod.mk.inj hf
  rwa [← Except.error.inj hf]

theorem Fails.get : Fails P (MonadState.get : Fallible ε σ σ) := nofun

theorem Fails.act (f : σ → σ) : Fails P (Fallible.act f : Fallible ε σ Unit) := nofun

theorem Fails.lift (f : σ → α × σ) : Fails P (Fallible.lift f : Fallible ε σ α) := nofun

theorem Fails.bind {m : Fallible ε σ α} {f : α → Fallible ε σ β} (hm : Fails P m)
    (hf : ∀ a, Fails P (f a)) : Fails P (m >>= f) := by
  intro s e t h
  rw [bind_run] at h
  rcases hs : m s with ⟨e' | a, t'⟩ <;> rw [hs] at h
  · obtain ⟨he, rfl⟩ := Prod.mk.inj h
    obtain rfl := Except.error.inj he
    exact hm s e' t' hs
  · exact hf a t' e t h

theorem Fails.ite {c : Prop} [Decidable c] {m n : Fallible ε σ α} (hm : c → Fails P m)
    (hn : ¬ c → Fails P n) : Fails P (if c then m else n) := by
  split
  · next h => exact hm h
  · next h => exact hn h

theorem Fails.mapError {ε' : Type} {Q : ε' → Prop} {f : ε → ε'} {m : Fallible ε σ α} (h : ∀ e, Q (f e)) :
    Fails Q (Fallible.mapError f m) := by
  intro s e t herror
  rw [Fallible.mapError] at herror
  rcases hm : m s with ⟨e' | a, t'⟩ <;> rw [hm] at herror
  · cases herror
    exact h e'
  · cases herror

end Fails

/-! ### Refusals -/

/-- A failure in `P` is a refusal: nothing was done before it but an `R` step. -/
def Refuses (P : ε → Prop) (R : σ → σ → Prop) (m : Fallible ε σ α) : Prop :=
  ∀ s e t, m s = (.error e, t) → P e → R s t

section Refuses

variable {P : ε → Prop}

theorem Refuses.of_fails {m : Fallible ε σ α} (h : Fails (fun e => ¬ P e) m) : Refuses P R m :=
  fun s e t herror he => absurd he (h s e t herror)

theorem Refuses.of_keeps {m : Fallible ε σ α} (h : Keeps R m) : Refuses P R m := by
  intro s e t herror _
  have hstep := h s
  rwa [herror] at hstep

/-- What is done before the refusal does not count. -/
theorem Refuses.after [IsPreorder σ R] {m : Fallible ε σ α} {f : α → Fallible ε σ β} (hm : Keeps R m)
    (hf : ∀ a, Refuses P R (f a)) : Refuses P R (m >>= f) := by
  intro s e t herror he
  have hstep := hm s
  rw [bind_run] at herror
  rcases hs : m s with ⟨e' | a, t'⟩ <;> rw [hs] at herror hstep
  · cases herror
    exact hstep
  · exact trans_of R hstep (hf a t' e t herror he)

/-- What follows a refusal does not happen. -/
theorem Refuses.before {m : Fallible ε σ α} {f : α → Fallible ε σ β} (hm : Refuses P R m)
    (hf : ∀ a, Fails (fun e => ¬ P e) (f a)) : Refuses P R (m >>= f) := by
  intro s e t herror he
  rw [bind_run] at herror
  rcases hs : m s with ⟨e' | a, t'⟩ <;> rw [hs] at herror
  · cases herror
    exact hm s e t hs he
  · exact absurd he (hf a t' e t herror)

theorem Refuses.ite {c : Prop} [Decidable c] {m n : Fallible ε σ α} (hm : c → Refuses P R m)
    (hn : ¬ c → Refuses P R n) : Refuses P R (if c then m else n) := by
  split
  · next h => exact hm h
  · next h => exact hn h

end Refuses

end Effect
