import Mathlib.Data.List.Basic
import Mathlib.Data.List.Forall2

/-!
# AmlService.Lib.Answering

**The other end of a link.** A device holds a memory, takes in the requests in the
order they come, and owes an answer to each request that has one, in that order. A
link shows what goes by on it, as a list of events; `Device.Follows` says that the
device can be at the other end, while someone else may change its memory at any time.

Where the time it takes matters, and not the memory, a `Responder` takes in the requests
some time after they are sent, and its answers are read some time after they are given.
The requests are numbered, so that each answer read can be told from the others.
-/

namespace Answering

variable {μ ρ α φ : Type}

/-- What a request makes of the memory and what it is answered; and whether something
read on the link is a given answer. -/
structure Device (μ ρ α φ : Type) where
  receive : μ → ρ → μ × Option α
  fits : α → φ → Bool

/-- What goes by on the link: a request, an answer that is read, a new link. -/
inductive Event (ρ φ : Type)
  | request (r : ρ)
  | answer (f : φ)
  | opened
  deriving Repr, DecidableEq

/-- The memory of the device, and the answers not read yet. -/
structure Side (μ α : Type) where
  memory : μ
  owed : List α

/-- The device has taken in a request. -/
def Device.take (D : Device μ ρ α φ) (s : Side μ α) (r : ρ) : Side μ α where
  memory := (D.receive s.memory r).1
  owed := s.owed ++ (D.receive s.memory r).2.toList

/-- One event; `none` for an answer that the device has not given. -/
def Device.step (D : Device μ ρ α φ) (s : Side μ α) : Event ρ φ → Option (Side μ α)
  | .request r => some (D.take s r)
  | .answer f =>
    match s.owed with
    | [] => none
    | a :: owed => if D.fits a f then some { s with owed } else none
  | .opened => some { s with owed := [] }

/-- The device follows the events, and its memory may change by `change` in between. -/
inductive Device.Follows (D : Device μ ρ α φ) (change : μ → μ → Prop) :
    Side μ α → List (Event ρ φ) → Side μ α → Prop
  | done (s) : Follows D change s [] s
  | touched {s m es t} : change s.memory m → Follows D change { s with memory := m } es t →
      Follows D change s es t
  | event {s e s' es t} : D.step s e = some s' → Follows D change s' es t →
      Follows D change s (e :: es) t

/-- Nobody else has a hand in the memory. -/
def untouched : μ → μ → Prop := fun _ _ => False

section Follows

variable {D : Device μ ρ α φ} {change : μ → μ → Prop} {s t u : Side μ α} {es es' : List (Event ρ φ)}
  {r : ρ}

theorem Device.Follows.append (h : D.Follows change s es t) (h' : D.Follows change t es' u) :
    D.Follows change s (es ++ es') u := by
  induction h with
  | done _ => exact h'
  | touched hchange _ ih => exact .touched hchange (ih h')
  | event hstep _ ih => exact .event hstep (ih h')

theorem Device.Follows.append_inv (h : D.Follows change s (es ++ es') u) :
    ∃ t, D.Follows change s es t ∧ D.Follows change t es' u := by
  generalize hall : es ++ es' = all at h
  induction h generalizing es with
  | done s =>
    obtain ⟨rfl, rfl⟩ := List.append_eq_nil_iff.mp hall
    exact ⟨s, .done s, .done s⟩
  | touched hchange _ ih =>
    obtain ⟨t, hfirst, hrest⟩ := ih hall
    exact ⟨t, .touched hchange hfirst, hrest⟩
  | @event s e s' rest u hstep hfollows ih =>
    cases es with
    | nil =>
      rw [List.nil_append] at hall
      subst hall
      exact ⟨s, .done s, .event hstep hfollows⟩
    | cons e' es =>
      rw [List.cons_append] at hall
      obtain ⟨rfl, htail⟩ := List.cons.inj hall
      obtain ⟨t, hfirst, hrest⟩ := ih htail
      exact ⟨t, .event hstep hfirst, hrest⟩

/-- The first event comes after changes of the memory only. -/
theorem Device.Follows.cons_inv {e : Event ρ φ} (h : D.Follows change s (e :: es) t) :
    ∃ u v, D.Follows change s [] u ∧ D.step u e = some v ∧ D.Follows change v es t := by
  generalize hall : e :: es = all at h
  induction h with
  | done _ => cases hall
  | touched hchange _ ih =>
    obtain ⟨u, v, hidle, hstep, hrest⟩ := ih hall
    exact ⟨u, v, .touched hchange hidle, hstep, hrest⟩
  | @event s _ _ _ _ hstep hfollows _ =>
    obtain ⟨rfl, rfl⟩ := List.cons.inj hall
    exact ⟨s, _, .done s, hstep, hfollows⟩

/-- **At a request**: the device takes it in, as it is then. -/
theorem Device.Follows.at_request (h : D.Follows change s (es ++ .request r :: es') t) :
    ∃ u, D.Follows change s es u ∧ D.Follows change (D.take u r) es' t := by
  obtain ⟨v, hbefore, hafter⟩ := h.append_inv
  obtain ⟨u, w, hidle, hstep, hrest⟩ := hafter.cons_inv
  cases hstep
  have hfirst := hbefore.append hidle
  rw [List.append_nil] at hfirst
  exact ⟨u, hfirst, hrest⟩

/-- **What the memory keeps** through each change and each request taken in. -/
theorem Device.Follows.keeps {I : μ → Prop} (hchange : ∀ m m', change m m' → I m → I m')
    (h : D.Follows change s es t) (htake : ∀ r, .request r ∈ es → ∀ m, I m → I (D.receive m r).1)
    (hs : I s.memory) : I t.memory := by
  induction h with
  | done _ => exact hs
  | touched hstep _ ih => exact ih htake (hchange _ _ hstep hs)
  | @event s e s' es t hstep _ ih =>
    refine ih (fun r hr => htake r (List.mem_cons_of_mem e hr)) ?_
    cases e with
    | request r =>
      cases hstep
      exact htake r List.mem_cons_self _ hs
    | answer f =>
      simp only [Device.step] at hstep
      split at hstep
      · cases hstep
      · split at hstep <;> cases hstep
        exact hs
    | opened =>
      cases hstep
      exact hs

/-- A device that takes all the events, one by one, follows them. -/
theorem Device.Follows.of_steps (h : es.foldlM D.step s = some t) : D.Follows change s es t := by
  induction es generalizing s with
  | nil =>
    cases h
    exact .done _
  | cons e es ih =>
    obtain ⟨s', hstep, hrest⟩ := Option.bind_eq_some_iff.mp h
    exact .event hstep (ih hrest)

/-! ### A device that nobody touches -/

theorem Device.Follows.nil_untouched (h : D.Follows untouched s [] t) : t = s := by
  cases h with
  | done _ => rfl
  | touched hchange _ => exact hchange.elim

theorem Device.Follows.cons_untouched {e : Event ρ φ} (h : D.Follows untouched s (e :: es) t) :
    ∃ v, D.step s e = some v ∧ D.Follows untouched v es t := by
  obtain ⟨u, v, hidle, hstep, hrest⟩ := h.cons_inv
  rw [hidle.nil_untouched] at hstep
  exact ⟨v, hstep, hrest⟩

/-- Answers only: no request, and no new link. -/
def Event.isAnswer : Event ρ φ → Bool
  | .answer _ => true
  | _ => false

/-- Owing nothing, a device answers nothing. -/
theorem Device.Follows.silent (h : D.Follows untouched s es t) (hs : s.owed = [])
    (hes : ∀ e ∈ es, e.isAnswer = true) : es = [] ∧ t = s := by
  cases es with
  | nil => exact ⟨rfl, h.nil_untouched⟩
  | cons e es =>
    obtain ⟨v, hstep, -⟩ := h.cons_untouched
    have he := hes e List.mem_cons_self
    cases e with
    | answer f =>
      rw [Device.step, hs] at hstep
      cases hstep
    | request _ | opened => cases he

/-- Owing one answer, it gives that one, or nothing. -/
theorem Device.Follows.owing (h : D.Follows untouched s es t) {a : α} (hs : s.owed = [a])
    (hes : ∀ e ∈ es, e.isAnswer = true) :
    (es = [] ∧ t = s) ∨ ∃ f, es = [.answer f] ∧ D.fits a f = true ∧ t = { s with owed := [] } := by
  cases es with
  | nil => exact .inl ⟨rfl, h.nil_untouched⟩
  | cons e es =>
    obtain ⟨v, hstep, hrest⟩ := h.cons_untouched
    have he := hes e List.mem_cons_self
    cases e with
    | request _ | opened => cases he
    | answer f =>
      rw [Device.step, hs] at hstep
      dsimp only at hstep
      split at hstep
      · next hfits =>
        cases hstep
        obtain ⟨rfl, rfl⟩ := hrest.silent rfl fun e he => hes e (List.mem_cons_of_mem _ he)
        exact .inr ⟨f, rfl, hfits, rfl⟩
      · cases hstep

/-- **One exchange**, by a device that owes nothing: it is read nothing before it takes
in the request, and after it the answer to that request, or nothing. -/
theorem Device.Follows.exchange (h : D.Follows untouched s (es ++ .request r :: es') t)
    (hs : s.owed = []) {a : α} (ha : (D.receive s.memory r).2 = some a)
    (hes : ∀ e ∈ es, e.isAnswer = true) (hes' : ∀ e ∈ es', e.isAnswer = true) :
    es = [] ∧ ((es' = [] ∧ t = D.take s r) ∨
      ∃ f, es' = [.answer f] ∧ D.fits a f = true ∧ t = { D.take s r with owed := [] }) := by
  obtain ⟨u, hbefore, hafter⟩ := h.at_request
  obtain ⟨rfl, rfl⟩ := hbefore.silent hs hes
  have howed : (D.take u r).owed = [a] := by simp [Device.take, hs, ha]
  exact ⟨rfl, hafter.owing howed hes'⟩

end Follows

/-! ### Answers that take time -/

/-- The answer to a request, if it has one, and whether something read on the link is a
given answer. -/
structure Responder (ρ α φ : Type) where
  answer : ρ → Option α
  fits : α → φ → Bool

/-- A link: how many requests were sent, which have not arrived yet, which answers were
given and not read yet, and to which request the last one read was. -/
structure Post (ρ α : Type) where
  sent : Nat
  travelling : List (Nat × ρ)
  owed : List (Nat × α)
  read : Option Nat

/-- A new link. -/
def Post.start : Post ρ α := { sent := 0, travelling := [], owed := [], read := none }

def Post.send (p : Post ρ α) (r : ρ) : Post ρ α :=
  { p with sent := p.sent + 1, travelling := p.travelling ++ [(p.sent, r)] }

namespace Responder

variable (R : Responder ρ α φ)

/-- The first request on its way arrives, and is answered. -/
def arrive (p : Post ρ α) : Option (Post ρ α) :=
  match p.travelling with
  | [] => none
  | (k, r) :: travelling =>
    some { p with travelling, owed := p.owed ++ ((R.answer r).map fun a => (k, a)).toList }

/-- One event; `none` for an answer that was not given. -/
def step (p : Post ρ α) : Event ρ φ → Option (Post ρ α)
  | .request r => some (p.send r)
  | .answer f =>
    match p.owed with
    | [] => none
    | (k, a) :: owed => if R.fits a f then some { p with owed, read := some k } else none
  | .opened => some .start

/-- The responder follows the events; requests arrive when they will. -/
inductive Follows : Post ρ α → List (Event ρ φ) → Post ρ α → Prop
  | done (p) : Follows p [] p
  | arrived {p p' es q} : R.arrive p = some p' → Follows p' es q → Follows p es q
  | event {p e p' es q} : R.step p e = some p' → Follows p' es q → Follows p (e :: es) q

/-- The answers to come, to requests that have arrived or not. -/
def pending (p : Post ρ α) : List (Nat × α) :=
  p.owed ++ p.travelling.filterMap fun x => (R.answer x.2).map fun a => (x.1, a)

end Responder

/-- Requests arrive in the order of their numbers, and are answered in it. -/
structure Post.Sound (p : Post ρ α) : Prop where
  order : (p.owed.map Prod.fst ++ p.travelling.map Prod.fst).Pairwise (· < ·)
  bound : ∀ k ∈ p.owed.map Prod.fst ++ p.travelling.map Prod.fst, k < p.sent
  past : ∀ k ∈ p.read, k < p.sent ∧ ∀ x ∈ p.travelling, k < x.1

section Responder

variable {R : Responder ρ α φ} {p p' q : Post ρ α} {es es' : List (Event ρ φ)} {e : Event ρ φ} {r : ρ}

/-- An arrival changes no answer to come. -/
theorem Responder.arrive_pending (h : R.arrive p = some p') :
    R.pending p' = R.pending p ∧ p'.sent = p.sent ∧ p'.read = p.read := by
  unfold Responder.arrive at h
  split at h
  · cases h
  · next k r travelling htravel =>
    cases h
    refine ⟨?_, rfl, rfl⟩
    simp only [Responder.pending, htravel, List.filterMap_cons]
    cases R.answer r <;> simp

theorem Responder.pending_send (p : Post ρ α) (r : ρ) :
    R.pending (p.send r) = R.pending p ++ ((R.answer r).map fun a => (p.sent, a)).toList := by
  simp only [Responder.pending, Post.send, List.filterMap_append, List.append_assoc]
  cases h : R.answer r <;> simp [h]

theorem Post.Sound.start : (Post.start : Post ρ α).Sound :=
  ⟨by simp [Post.start], by simp [Post.start], by simp [Post.start]⟩

theorem Post.Sound.arrive (hp : p.Sound) (h : R.arrive p = some p') : p'.Sound := by
  unfold Responder.arrive at h
  split at h
  · cases h
  · next k r travelling htravel =>
    cases h
    obtain ⟨horder, hbound, hpast⟩ := hp
    rw [htravel] at horder hbound hpast
    -- the number of the request goes from one list to the other, or is dropped
    have hsub : List.Sublist ((p.owed ++ ((R.answer r).map fun a => (k, a)).toList).map Prod.fst ++
        travelling.map Prod.fst) (p.owed.map Prod.fst ++ ((k, r) :: travelling).map Prod.fst) := by
      cases R.answer r <;> simp
    exact ⟨horder.sublist hsub, fun j hj => hbound j (hsub.subset hj),
      fun j hj => ⟨(hpast j hj).1, fun x hx => (hpast j hj).2 x (List.mem_cons_of_mem _ hx)⟩⟩

theorem Post.Sound.step (hp : p.Sound) (h : R.step p e = some p') : p'.Sound := by
  cases e with
  | opened =>
    cases h
    exact .start
  | request r =>
    cases h
    obtain ⟨horder, hbound, hpast⟩ := hp
    refine ⟨?_, fun j hj => ?_, fun j hj => ?_⟩
    · simp only [Post.send, List.map_append, ← List.append_assoc]
      refine List.pairwise_append.mpr ⟨horder, by simp, fun j hj i hi => ?_⟩
      obtain rfl : i = p.sent := by simpa using hi
      exact hbound j hj
    · simp only [Post.send, List.map_append, ← List.append_assoc] at hj ⊢
      rcases List.mem_append.mp hj with hj | hj
      · exact Nat.lt_succ_of_lt (hbound j hj)
      · obtain rfl : j = p.sent := by simpa using hj
        exact Nat.lt_succ_self _
    · refine ⟨Nat.lt_succ_of_lt (hpast j hj).1, fun x hx => ?_⟩
      rcases List.mem_append.mp hx with hx | hx
      · exact (hpast j hj).2 x hx
      · obtain rfl : x = (p.sent, r) := by simpa using hx
        exact (hpast j hj).1
  | answer f =>
    simp only [Responder.step] at h
    split at h
    · cases h
    · next k a owed howed =>
      split at h <;> cases h
      obtain ⟨horder, hbound, hpast⟩ := hp
      rw [howed, List.map_cons, List.cons_append] at horder hbound
      obtain ⟨hfirst, hrest⟩ := List.pairwise_cons.mp horder
      refine ⟨hrest, fun j hj => hbound j (List.mem_cons_of_mem _ hj), fun j hj => ?_⟩
      obtain rfl : k = j := by simpa using hj
      refine ⟨hbound k List.mem_cons_self, fun x hx => hfirst x.1 ?_⟩
      exact List.mem_append_right _ (List.mem_map_of_mem hx)

theorem Responder.Follows.sound (h : R.Follows p es q) (hp : p.Sound) : q.Sound := by
  induction h with
  | done _ => exact hp
  | arrived harrive _ ih => exact ih (hp.arrive harrive)
  | event hstep _ ih => exact ih (hp.step hstep)

theorem Responder.Follows.append {es'' : List (Event ρ φ)} {t : Post ρ α} (h : R.Follows p es q)
    (h' : R.Follows q es'' t) : R.Follows p (es ++ es'') t := by
  induction h with
  | done _ => exact h'
  | arrived harrive _ ih => exact .arrived harrive (ih h')
  | event hstep _ ih => exact .event hstep (ih h')

/-- One way of following the events, one by one. -/
theorem Responder.Follows.of_foldlM {next : Post ρ α → Event ρ φ → Option (Post ρ α)}
    (hnext : ∀ {p e p'}, next p e = some p' → R.Follows p [e] p') (h : es.foldlM next p = some q) :
    R.Follows p es q := by
  induction es generalizing p with
  | nil =>
    cases h
    exact .done _
  | cons e es ih =>
    obtain ⟨p', hstep, hrest⟩ := Option.bind_eq_some_iff.mp h
    exact (hnext hstep).append (ih hrest)

/-- A responder that takes in each request at once. -/
def Responder.promptStep (R : Responder ρ α φ) (p : Post ρ α) : Event ρ φ → Option (Post ρ α)
  | .request r => R.arrive (p.send r)
  | e => R.step p e

theorem Responder.Follows.of_prompt (h : es.foldlM R.promptStep p = some q) : R.Follows p es q := by
  refine .of_foldlM (fun {p e p'} hstep => ?_) h
  cases e with
  | request r => exact .event rfl (.arrived hstep (.done p'))
  | answer _ | opened => exact .event hstep (.done p')

/-- The answers read are the first ones to come. -/
theorem Responder.Follows.answers (h : R.Follows p es q) (hes : ∀ e ∈ es, e.isAnswer = true) :
    ∃ popped, R.pending p = popped ++ R.pending q ∧
      List.Forall₂ (fun (x : Nat × α) e => ∃ f, e = Event.answer f ∧ R.fits x.2 f = true) popped es ∧
      q.read = (popped.getLast?.map Prod.fst).or p.read := by
  induction h with
  | done p => exact ⟨[], rfl, .nil, rfl⟩
  | arrived harrive _ ih =>
    obtain ⟨popped, hpending, hpopped, hread⟩ := ih hes
    obtain ⟨hsame, -, hkept⟩ := Responder.arrive_pending harrive
    rw [hsame] at hpending
    rw [hkept] at hread
    exact ⟨popped, hpending, hpopped, hread⟩
  | @event p e p' es q hstep _ ih =>
    obtain ⟨popped, hpending, hpopped, hread⟩ := ih fun e he => hes e (List.mem_cons_of_mem _ he)
    have he := hes e List.mem_cons_self
    cases e with
    | request _ | opened => cases he
    | answer f =>
      simp only [Responder.step] at hstep
      split at hstep
      · cases hstep
      · next k a owed howed =>
        split at hstep
        · next hfits =>
          cases hstep
          refine ⟨(k, a) :: popped, ?_, .cons ⟨f, rfl, hfits⟩ hpopped, ?_⟩
          · rw [List.cons_append, ← hpending]
            simp [Responder.pending, howed]
          · rw [hread, List.getLast?_cons]
            cases popped.getLast? <;> rfl
        · cases hstep

/-- **Whose answer it is.** A request is sent; what is read after it is skipped until
something that could be its answer. That is its answer if and only if no earlier answer
to come could be taken for it; and the request has then arrived. -/
theorem Responder.Follows.attributed {a : α} {f : φ} (hp : p.Sound) (ha : R.answer r = some a)
    (h : R.Follows (p.send r) (es ++ [.answer f]) q) (hes : ∀ e ∈ es, e.isAnswer = true)
    (hfits : ∀ b g, R.fits b g = true → (R.fits a g = true ↔ b = a)) (hf : R.fits a f = true)
    (hskipped : ∀ g, .answer g ∈ es → R.fits a g = false) :
    (q.read = some p.sent ↔ ∀ x ∈ R.pending p, x.2 ≠ a) ∧
      (q.read = some p.sent → ∀ x ∈ q.travelling, x.1 ≠ p.sent) := by
  have hall : ∀ e ∈ es ++ [Event.answer f], e.isAnswer = true := by
    intro e he
    rcases List.mem_append.mp he with he | he
    · exact hes e he
    · obtain rfl : e = .answer f := by simpa using he
      rfl
  obtain ⟨popped, hpending, hpopped, hread⟩ := h.answers hall
  have hearlier := List.forall₂_take_append popped es [.answer f] hpopped
  have hlast := List.forall₂_drop_append popped es [.answer f] hpopped
  rw [← List.take_append_drop es.length popped] at hpending hread
  generalize popped.take es.length = earlier at hearlier hpending hread
  generalize popped.drop es.length = last at hlast hpending hread
  obtain ⟨y, hy, rfl⟩ : ∃ y, R.fits y.2 f = true ∧ last = [y] := by
    cases hlast with
    | cons hfirst hnil =>
      cases hnil
      obtain ⟨g, heq, hg⟩ := hfirst
      cases heq
      exact ⟨_, hg, rfl⟩
  have hown : y.2 = a := (hfits _ _ hy).mp hf
  have hread : q.read = some y.1 := by
    rw [hread, List.getLast?_concat]
    rfl
  rw [Responder.pending_send, ha] at hpending
  have hnumber : ∀ x ∈ R.pending p, x.1 < p.sent := by
    intro x hx
    refine hp.bound x.1 (List.mem_append.mpr ?_)
    refine (List.mem_append.mp hx).imp List.mem_map_of_mem fun hx => ?_
    obtain ⟨z, hz, heq⟩ := List.mem_filterMap.mp hx
    obtain ⟨b, -, rfl⟩ := Option.map_eq_some_iff.mp heq
    exact List.mem_map_of_mem hz
  have hskips : ∀ x ∈ earlier, x.2 ≠ a := by
    intro x hx heq
    obtain ⟨i, hi, rfl⟩ := List.mem_iff_getElem.mp hx
    have hi' : i < es.length := hearlier.length_eq ▸ hi
    obtain ⟨g, hg, hfit⟩ := (List.forall₂_iff_get.mp hearlier).2 i hi hi'
    have hmem : Event.answer g ∈ es := by
      rw [← hg]
      exact List.get_mem es ⟨i, hi'⟩
    have hnot := hskipped g hmem
    rw [(hfits _ g hfit).mpr heq] at hnot
    cases hnot
  refine ⟨?_, fun hmine x hx heq => ?_⟩
  · rw [hread]
    constructor
    · intro hmine x hx heq
      -- the last answer read is not one of the earlier ones, so that all these were skipped
      rcases List.eq_nil_or_concat (R.pending q) with hnil | ⟨rest, z, hz⟩
      · rw [hnil, List.append_nil] at hpending
        obtain ⟨hearlier, -⟩ := List.append_inj' hpending rfl
        exact hskips x (hearlier ▸ hx) heq
      · rw [hz, List.concat_eq_append, ← List.append_assoc] at hpending
        obtain ⟨hall, -⟩ := List.append_inj' hpending rfl
        have hy : y ∈ R.pending p := by
          rw [hall]
          simp
        have hlt := hnumber y hy
        rw [Option.some.inj hmine] at hlt
        exact Nat.lt_irrefl _ hlt
    · intro hnone
      have hmem : y ∈ R.pending p ++ ((some a).map fun a => (p.sent, a)).toList := by
        rw [hpending]
        simp
      rcases List.mem_append.mp hmem with hy | hy
      · exact absurd hown (hnone y hy)
      · obtain rfl : y = (p.sent, a) := by simpa using hy
        rfl
  · have hsound : (p.send r).Sound := hp.step (R := R) (e := .request r) rfl
    have hlt := ((h.sound hsound).past p.sent hmine).2 x hx
    omega

end Responder

end Answering
