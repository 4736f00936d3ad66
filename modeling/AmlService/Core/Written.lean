import AmlService.Core.Control

/-!
# AmlService.Core.Written

Which requests a computation sends. `Ecrit vise juste m`: among the requests that `m`
sends, those that `vise` singles out are all `juste`; and if `m` succeeds there is one.
The rules follow the shape of a handler: readings, one write, and what comes after it.
-/

namespace AmlService

open Effect

variable {σ ε α β : Type}

/-- What is sent is in `P`. -/
def Emet (P : List UInt8 → Prop) (a b : SweetDawn σ) : Prop :=
  ∃ added, b.world.journal = a.world.journal ++ added ∧ ∀ request, .sent request ∈ added → P request

instance (P : List UInt8 → Prop) : IsPreorder (SweetDawn σ) (Emet P) where
  refl a := ⟨[], (List.append_nil _).symm, by simp⟩
  trans a b c := by
    rintro ⟨added, hjournal, hall⟩ ⟨added', hjournal', hall'⟩
    refine ⟨added ++ added', by rw [hjournal', hjournal, List.append_assoc], fun request hr => ?_⟩
    exact (List.mem_append.mp hr).elim (hall request) (hall' request)

theorem Emet.mono {P Q : List UInt8 → Prop} {a b : SweetDawn σ} (hsub : ∀ request, P request → Q request)
    (h : Emet P a b) : Emet Q a b :=
  h.imp fun _ h => ⟨h.1, fun request hr => hsub request (h.2 request hr)⟩

/-- Nothing is sent. -/
theorem Emet.silent {P : List UInt8 → Prop} {a b : SweetDawn σ} {o : Obs} (ho : ∀ request, o ≠ .sent request)
    (h : b.world.journal = a.world.journal ++ [o]) : Emet P a b := by
  refine ⟨[o], h, fun request hr => ?_⟩
  exact absurd (List.mem_singleton.mp hr).symm (ho request)

def Ecrit (vise juste : List UInt8 → Prop) (m : Fallible ε (SweetDawn σ) α) : Prop :=
  ∀ s, ∃ added, (m s).2.world.journal = s.world.journal ++ added ∧
    (∀ request, .sent request ∈ added → vise request → juste request) ∧
    ((m s).1.isOk = true → ∃ request, .sent request ∈ added ∧ vise request)

section Rules

variable {vise juste : List UInt8 → Prop} {m : Fallible ε (SweetDawn σ) α}
  {f : α → Fallible ε (SweetDawn σ) β}

theorem Ecrit.emet (h : Ecrit vise juste m) : Keeps (Emet fun request => vise request → juste request) m := by
  intro s
  obtain ⟨added, hjournal, hall, -⟩ := h s
  exact ⟨added, hjournal, hall⟩

theorem Ecrit.throw (e : ε) : Ecrit vise juste (throw e : Fallible ε (SweetDawn σ) α) :=
  fun _ => ⟨[], (List.append_nil _).symm, by simp, nofun⟩

theorem Ecrit.mapError {ε' : Type} (h : Ecrit vise juste m) (g : ε → ε') :
    Ecrit vise juste (Fallible.mapError g m) := by
  intro s
  obtain ⟨added, hjournal, hall, hone⟩ := h s
  refine ⟨added, by rw [mapError_snd, hjournal], hall, fun hok => hone ?_⟩
  obtain ⟨a, heq⟩ := ok_of_isOk hok
  rw [mapError_ok.mp heq]
  rfl

theorem Ecrit.ite {c : Prop} [Decidable c] {n : Fallible ε (SweetDawn σ) α} (hm : c → Ecrit vise juste m)
    (hn : ¬ c → Ecrit vise juste n) : Ecrit vise juste (if c then m else n) := by
  split
  · next h => exact hm h
  · next h => exact hn h

/-- The write comes last. -/
theorem Ecrit.after (hm : Keeps (Emet fun request => vise request → juste request) m)
    (hf : ∀ a, Ecrit vise juste (f a)) : Ecrit vise juste (m >>= f) := by
  intro s
  obtain ⟨added, hjournal, hall⟩ := hm s
  rw [bind_run]
  rcases hrun : m s with ⟨e | a, t⟩ <;> rw [hrun] at hjournal
  · exact ⟨added, hjournal, hall, nofun⟩
  · obtain ⟨added', hjournal', hall', hone⟩ := hf a t
    refine ⟨added ++ added', by rw [hjournal', hjournal, List.append_assoc], fun request hr => ?_,
      fun hok => ?_⟩
    · exact (List.mem_append.mp hr).elim (hall request) (hall' request)
    · obtain ⟨request, hr, hvise⟩ := hone hok
      exact ⟨request, List.mem_append_right _ hr, hvise⟩

/-- The write comes first. -/
theorem Ecrit.before (hm : Ecrit vise juste m)
    (hf : ∀ a, Keeps (Emet fun request => vise request → juste request) (f a)) :
    Ecrit vise juste (m >>= f) := by
  intro s
  obtain ⟨added, hjournal, hall, hone⟩ := hm s
  rw [bind_run]
  rcases hrun : m s with ⟨e | a, t⟩ <;> rw [hrun] at hjournal hone
  · exact ⟨added, hjournal, hall, nofun⟩
  · obtain ⟨added', hjournal', hall'⟩ := hf a t
    obtain ⟨request, hr, hvise⟩ := hone rfl
    refine ⟨added ++ added', by rw [hjournal', hjournal, List.append_assoc], fun request hr => ?_,
      fun _ => ⟨request, List.mem_append_left _ hr, hvise⟩⟩
    exact (List.mem_append.mp hr).elim (hall request) (hall' request)

/-- What follows sends nothing. -/
theorem Ecrit.before_pure (hm : Ecrit vise juste m) (g : α → β) :
    Ecrit vise juste (do let a ← m; return g a) :=
  hm.before fun _ => .pure _

end Rules

/-! ### Requests -/

section Requests

variable {vise juste : List UInt8 → Prop} {requestCode : UInt8} {arguments : List UInt8}

/-- A request is the only one it sends, and has sent it if it succeeds. -/
theorem Requested.own {expectedCode : Int} {added : List Obs} {a b : SweetDawn σ}
    {r : Except AmlErr (List UInt8)} (h : Requested requestCode expectedCode arguments added a b r) :
    (∀ request, .sent request ∈ added →
        protocolBuildRequest requestCode arguments requestBufferSize = some request) ∧
      (r.isOk = true → ∃ request, .sent request ∈ added) := by
  cases h.dialogue with
  | unsent hsent => exact ⟨fun request hr => (hsent request hr).elim, nofun⟩
  | @sent before request hbuild _ hbefore =>
    refine ⟨fun other ho => ?_, fun _ => ⟨request, by simp⟩⟩
    rcases List.mem_append.mp ho with ho | ho
    · exact (hbefore other ho).elim
    · obtain rfl : other = request := by simpa using ho
      exact hbuild
  | @waited before after skipped request result hbuild _ hbefore hafter =>
    refine ⟨fun other ho => ?_, fun _ => ⟨request, by simp⟩⟩
    rcases List.mem_append.mp ho with ho | ho
    · exact (hbefore other ho).elim
    · rcases List.mem_cons.mp ho with ho | ho
      · cases ho
        exact hbuild
      · exact (hafter other ho).elim

/-- **One request**, whose only frame is singled out and as it should be. -/
theorem envoyerRequete_ecrit {expectedCode timeoutMs : Int} {responseCapacity : Nat}
    (hcap : expectedCode ≠ sweetdawnNoResponse → amlProtocolMaxFrameSize ≤ responseCapacity)
    (hexp : estEvenement (UInt8.ofInt expectedCode) = false)
    (hframe : ∀ request, protocolBuildRequest requestCode arguments requestBufferSize = some request →
      vise request ∧ juste request) :
    Ecrit vise juste (envoyerRequete requestCode expectedCode timeoutMs arguments responseCapacity :
      AmlM σ (List UInt8)) := by
  intro s
  obtain ⟨added, hreq⟩ := envoyerRequete_requested hcap hexp
    (rfl : envoyerRequete requestCode expectedCode timeoutMs arguments responseCapacity s = (_, _))
  obtain ⟨hown, hone⟩ := hreq.own
  refine ⟨added, hreq.exchange.world.journal, fun request hr _ => (hframe request (hown request hr)).2,
    fun hok => ?_⟩
  obtain ⟨request, hr⟩ := hone hok
  exact ⟨request, hr, (hframe request (hown request hr)).1⟩

theorem demander_ecrit {responseCode : UInt8} (hanswers : Answers responseCode) (timeoutMs : Int)
    (minData : Nat)
    (hframe : ∀ request, protocolBuildRequest requestCode arguments requestBufferSize = some request →
      vise request ∧ juste request) :
    Ecrit vise juste (demander requestCode arguments responseCode timeoutMs minData :
      AmlM σ (List UInt8)) :=
  (envoyerRequete_ecrit (fun _ => Nat.le_refl _) hanswers hframe).before fun _ =>
    .ite (fun _ => .throw _) fun _ => .pure _

theorem envoyer_ecrit
    (hframe : ∀ request, protocolBuildRequest requestCode arguments requestBufferSize = some request →
      vise request ∧ juste request) :
    Ecrit vise juste (envoyer requestCode arguments : AmlM σ Unit) :=
  (envoyerRequete_ecrit (fun hne => absurd rfl hne) (by decide) hframe).before_pure _

/-- A request that is not singled out. -/
theorem demander_emet {P : List UInt8 → Prop} {responseCode : UInt8} (hanswers : Answers responseCode)
    (timeoutMs : Int) (minData : Nat)
    (hframe : ∀ request, protocolBuildRequest requestCode arguments requestBufferSize = some request →
      P request) :
    Keeps (Emet P) (demander requestCode arguments responseCode timeoutMs minData :
      AmlM σ (List UInt8)) :=
  (demander_ecrit hanswers timeoutMs minData
    fun request hr => ⟨trivial, hframe request hr⟩).emet.mono fun h => h.mono fun _ hp => hp trivial

end Requests

end AmlService
