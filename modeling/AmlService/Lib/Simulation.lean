import AmlService.Lib.Effect

/-!
# AmlService.Lib.Simulation

**Two computations on states of which one is a part of the other.** `Simulates π view m n`
says that `m` does to the part `π` of its state what `n` does to it, and gives the same
result, unless it fails with an error of its own, one that `view` does not show; an `Unseen`
computation may come in between.

`Ensures` is the triple of a fallible computation: from which states it ends where, when it
succeeds and when it fails.
-/

namespace Effect

variable {ε ε' σ τ α β : Type}

/-! ### Simulation -/

/-- What `m` does is what `n` does, as far as `π` and `view` show it. -/
def Simulates (π : τ → σ) (view : ε' → Option ε) (m : Fallible ε' τ α) (n : Fallible ε σ α) : Prop :=
  ∀ t, match m t with
    | (.ok a, t') => n (π t) = (.ok a, π t')
    | (.error e, t') => ∀ e', view e = some e' → n (π t) = (.error e', π t')

section Simulates

variable {π : τ → σ} {view : ε' → Option ε}

theorem Simulates.ok {m : Fallible ε' τ α} {n : Fallible ε σ α} (h : Simulates π view m n) {t t' : τ} {a : α}
    (hm : m t = (.ok a, t')) : n (π t) = (.ok a, π t') := by
  have ht := h t
  rwa [hm] at ht

theorem Simulates.error {m : Fallible ε' τ α} {n : Fallible ε σ α} (h : Simulates π view m n) {t t' : τ} {e : ε'}
    {e' : ε} (hm : m t = (.error e, t')) (he : view e = some e') : n (π t) = (.error e', π t') := by
  have ht := h t
  rw [hm] at ht
  exact ht e' he

theorem Simulates.pure (a : α) :
    Simulates π view (Pure.pure a : Fallible ε' τ α) (Pure.pure a : Fallible ε σ α) :=
  fun _ => rfl

/-- A failure that is shown. -/
theorem Simulates.throw {e : ε'} {e' : ε} (h : view e = some e') :
    Simulates π view (throw e : Fallible ε' τ α) (throw e' : Fallible ε σ α) := by
  intro t f hf
  rw [h] at hf
  rw [← Option.some.inj hf]
  rfl

/-- **Sequencing.** -/
theorem Simulates.bind {m : Fallible ε' τ α} {n : Fallible ε σ α} {f : α → Fallible ε' τ β}
    {g : α → Fallible ε σ β} (hm : Simulates π view m n) (hf : ∀ a, Simulates π view (f a) (g a)) :
    Simulates π view (m >>= f) (n >>= g) := by
  intro t
  have hstep := hm t
  rw [bind_run]
  rcases hmt : m t with ⟨e | a, t'⟩ <;> rw [hmt] at hstep
  · intro e' he
    exact bind_run_error (hstep e' he)
  · have hrest := hf a t'
    dsimp only at hstep ⊢
    rwa [bind_run_ok hstep]

/-- What looks at the whole state, and at its part only. -/
theorem Simulates.get {f : τ → Fallible ε' τ β} {g : σ → Fallible ε σ β}
    (h : ∀ t, Simulates π view (f t) (g (π t))) :
    Simulates π view (MonadState.get >>= f) (MonadState.get >>= g) := by
  intro t
  rw [bind_run_ok (get_run t), bind_run_ok (get_run (π t))]
  exact h t t

theorem Simulates.act {f : τ → τ} {g : σ → σ} (h : ∀ t, π (f t) = g (π t)) :
    Simulates π view (Fallible.act f : Fallible ε' τ Unit) (Fallible.act g : Fallible ε σ Unit) := by
  intro t
  show (Except.ok (), g (π t)) = (.ok (), π (f t))
  rw [h]

theorem Simulates.ite {c : Prop} [Decidable c] {m m' : Fallible ε' τ α} {n n' : Fallible ε σ α}
    (h : c → Simulates π view m n) (h' : ¬ c → Simulates π view m' n') :
    Simulates π view (if c then m else m') (if c then n else n') := by
  split
  · next hc => exact h hc
  · next hc => exact h' hc

theorem bind_pure_run (n : Fallible ε σ α) : (n >>= fun a => Pure.pure a) = n := by
  funext s
  rw [bind_run]
  rcases n s with ⟨_ | _, _⟩ <;> rfl

/-! ### What is not seen -/

/-- A computation that leaves the part alone, and fails only with errors of its own. -/
def Unseen (π : τ → σ) (view : ε' → Option ε) (m : Fallible ε' τ α) : Prop :=
  ∀ t, match m t with
    | (.ok _, t') => π t' = π t
    | (.error e, _) => view e = none

theorem Unseen.pure (a : α) : Unseen π view (Pure.pure a : Fallible ε' τ α) := fun _ => rfl

theorem Unseen.act {f : τ → τ} (h : ∀ t, π (f t) = π t) :
    Unseen π view (Fallible.act f : Fallible ε' τ Unit) :=
  h

theorem Unseen.throw {e : ε'} (h : view e = none) :
    Unseen π view (MonadExcept.throw e : Fallible ε' τ α) :=
  fun _ => h

theorem Unseen.bind {m : Fallible ε' τ α} {f : α → Fallible ε' τ β} (hm : Unseen π view m)
    (hf : ∀ a, Unseen π view (f a)) : Unseen π view (m >>= f) := by
  intro t
  have hstep := hm t
  rw [bind_run]
  rcases hmt : m t with ⟨e | a, t'⟩ <;> rw [hmt] at hstep
  · exact hstep
  · have hrest := hf a t'
    dsimp only at hstep ⊢
    rwa [hstep] at hrest

theorem Unseen.simulates {m : Fallible ε' τ Unit} (h : Unseen π view m) :
    Simulates π view m (Pure.pure () : Fallible ε σ Unit) := by
  intro t
  have hstep := h t
  rcases hmt : m t with ⟨e | a, t'⟩ <;> rw [hmt] at hstep
  · intro e' he
    rw [hstep] at he
    cases he
  · show (Except.ok (), π t) = _
    rw [← hstep]

/-- What comes after, unseen. -/
theorem Simulates.andThen {m : Fallible ε' τ Unit} {n : Fallible ε σ Unit} {f : Unit → Fallible ε' τ Unit}
    (hm : Simulates π view m n) (hf : ∀ a, Unseen π view (f a)) : Simulates π view (m >>= f) n := by
  have h := hm.bind (g := fun a => Pure.pure a) fun a => (hf a).simulates
  rwa [bind_pure_run] at h

end Simulates

/-! ### Triples -/

/-- Started in `pre`, a run that succeeds ends in `post`, and one that fails in `fail`. -/
def Ensures (pre : σ → Prop) (m : Fallible ε σ α) (post : α → σ → Prop) (fail : ε → σ → Prop) : Prop :=
  ∀ s, pre s → match m s with
    | (.ok a, s') => post a s'
    | (.error e, s') => fail e s'

section Ensures

variable {pre : σ → Prop} {fail : ε → σ → Prop}

theorem Ensures.ok {m : Fallible ε σ α} {post : α → σ → Prop} (h : Ensures pre m post fail) {s s' : σ} {a : α}
    (hs : pre s) (hm : m s = (.ok a, s')) : post a s' := by
  have hrun := h s hs
  rwa [hm] at hrun

theorem Ensures.error {m : Fallible ε σ α} {post : α → σ → Prop} (h : Ensures pre m post fail) {s s' : σ} {e : ε}
    (hs : pre s) (hm : m s = (.error e, s')) : fail e s' := by
  have hrun := h s hs
  rwa [hm] at hrun

/-- The end of any run. -/
theorem Ensures.snd {m : Fallible ε σ α} {post : σ → Prop} (h : Ensures pre m (fun _ => post) fun _ => post) {s : σ}
    (hs : pre s) : post (m s).2 := by
  have hrun := h s hs
  rcases hm : m s with ⟨_ | _, _⟩ <;> rw [hm] at hrun <;> exact hrun

theorem Ensures.pure {a : α} {post : α → σ → Prop} (h : ∀ s, pre s → post a s) :
    Ensures pre (Pure.pure a : Fallible ε σ α) post fail :=
  h

theorem Ensures.throw {e : ε} {post : α → σ → Prop} (h : ∀ s, pre s → fail e s) :
    Ensures pre (MonadExcept.throw e : Fallible ε σ α) post fail :=
  h

theorem Ensures.act {f : σ → σ} {post : Unit → σ → Prop} (h : ∀ s, pre s → post () (f s)) :
    Ensures pre (Fallible.act f : Fallible ε σ Unit) post fail :=
  h

/-- **Sequencing.** -/
theorem Ensures.bind {m : Fallible ε σ α} {f : α → Fallible ε σ β} {mid : α → σ → Prop} {post : β → σ → Prop}
    (hm : Ensures pre m mid fail) (hf : ∀ a, Ensures (mid a) (f a) post fail) :
    Ensures pre (m >>= f) post fail := by
  intro s hs
  have hstep := hm s hs
  rw [bind_run]
  rcases hms : m s with ⟨e | a, t⟩ <;> rw [hms] at hstep
  · exact hstep
  · exact hf a t hstep

theorem Ensures.get {f : σ → Fallible ε σ β} {post : β → σ → Prop}
    (h : ∀ s, Ensures (fun t => pre t ∧ t = s) (f s) post fail) :
    Ensures pre (MonadState.get >>= f) post fail := by
  intro s hs
  rw [bind_run_ok (get_run s)]
  exact h s s ⟨hs, rfl⟩

theorem Ensures.ite {c : Prop} [Decidable c] {m n : Fallible ε σ α} {post : α → σ → Prop}
    (hm : c → Ensures pre m post fail) (hn : ¬ c → Ensures pre n post fail) :
    Ensures pre (if c then m else n) post fail := by
  split
  · next hc => exact hm hc
  · next hc => exact hn hc

/-- A weaker end, from a stronger start. -/
theorem Ensures.imp {pre' : σ → Prop} {m : Fallible ε σ α} {post post' : α → σ → Prop} {fail' : ε → σ → Prop}
    (h : Ensures pre m post fail) (hpre : ∀ s, pre' s → pre s) (hpost : ∀ a s, post a s → post' a s)
    (hfail : ∀ e s, fail e s → fail' e s) : Ensures pre' m post' fail' := by
  intro s hs
  have hrun := h s (hpre s hs)
  rcases hm : m s with ⟨e | a, t⟩ <;> rw [hm] at hrun
  · exact hfail e t hrun
  · exact hpost a t hrun

end Ensures

end Effect
