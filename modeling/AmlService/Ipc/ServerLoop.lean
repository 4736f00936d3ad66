import AmlService.Ipc.ClientStream
import AmlService.Lib.Run

/-!
# AmlService.Ipc.ServerLoop

The streams of all the clients, over the turns of the loop. Between two turns every
client conforms to its streams; in the middle of a broadcast some clients are still
owed the event, and `foldl_each` takes them from there to the end.

A turn reads a client only if `poll` was asked to, when its output was empty and its
buffer held no line (`Arme`).
-/

namespace AmlService

open Effect

variable {σ : Type}

/-! ### The invariant -/

/-- Whoever was disconnected for a full buffer had sent a long line. -/
def PleinsJustifies (json : JsonC) (journal : List IpcObs) : Prop :=
  ∀ slot before, before ++ [.closed slot .tamponPlein] <+: journal →
    ¬ LignesCourtes (liaison json slot before).received

/-- The slots are in order: the free ones are blank, and no descriptor has two. -/
structure Rangee (json : JsonC) (server : IpcServer σ) : Prop where
  libre : ∀ slot, (server.clients slot).fd = none → server.clients slot = .libre
  distincts : ∀ s t fd, (server.clients s).fd = some fd → (server.clients t).fd = some fd → s = t
  pleins : PleinsJustifies json server.journal

/-- **The invariant of the loop.** -/
structure Flux (json : JsonC) (server : IpcServer σ) : Prop extends Rangee json server where
  enOrdre : ∀ slot, (server.clients slot).fd.isSome → EnOrdre json slot server

section Server

variable {json : JsonC} {slot : Slot}

theorem PleinsJustifies.log {journal : List IpcObs} (h : PleinsJustifies json journal) {o : IpcObs}
    (ho : ∀ s, o = .closed s .tamponPlein → ¬ LignesCourtes (liaison json s journal).received) :
    PleinsJustifies json (journal ++ [o]) := by
  intro s before hprefix
  rcases List.prefix_concat_iff.mp hprefix with heq | hprefix
  · obtain ⟨rfl, hlast⟩ := List.append_inj' heq rfl
    exact ho s (List.singleton_inj.mp hlast).symm
  · exact h s before hprefix

theorem PleinsJustifies.append {journal added : List IpcObs} (h : PleinsJustifies json journal)
    (hadded : ∀ o ∈ added, o.client? = some slot) : PleinsJustifies json (journal ++ added) := by
  induction added using List.reverseRecOn with
  | nil => rwa [List.append_nil]
  | append_singleton added o ih =>
    rw [← List.append_assoc]
    refine (ih fun p hp => hadded p (List.mem_append_left _ hp)).log ?_
    rintro s rfl
    cases hadded _ (List.mem_append_right _ (List.mem_singleton_self _))

theorem Rangee.congr {a b : IpcServer σ} (h : Rangee json a) (hclients : b.clients = a.clients)
    (hpleins : PleinsJustifies json b.journal) : Rangee json b := by
  refine ⟨?_, ?_, hpleins⟩ <;> rw [hclients]
  · exact h.libre
  · exact h.distincts

/-- Nothing that the streams depend on has changed. -/
theorem Flux.congr {a b : IpcServer σ} (h : Flux json a) (hclients : b.clients = a.clients)
    (hjournal : b.journal = a.journal) : Flux json b := by
  refine { h.toRangee.congr hclients (hjournal ▸ h.pleins) with enOrdre := ?_ }
  rw [hclients]
  intro s hs
  rw [EnOrdre, hclients, hjournal]
  exact h.enOrdre s hs

theorem Rangee.touche {a b : IpcServer σ} (h : Rangee json a) (ht : Touche slot a b)
    (hfd : (a.clients slot).fd.isSome) : Rangee json b := by
  have hfds : ∀ s, (b.clients s).fd = (a.clients s).fd := by
    intro s
    by_cases hs : s = slot
    · rw [hs, ht.fd]
    · rw [ht.others s hs]
  refine ⟨?_, ?_, ?_⟩
  · intro s hnone
    rw [hfds] at hnone
    have hs : s ≠ slot := by
      rintro rfl
      rw [hnone] at hfd
      cases hfd
    rw [ht.others s hs]
    exact h.libre s hnone
  · intro s t fd hs ht
    rw [hfds] at hs ht
    exact h.distincts s t fd hs ht
  · obtain ⟨added, hjournal, hall⟩ := ht.journal
    rw [hjournal]
    exact h.pleins.append hall

/-! ### Disconnections -/

theorem clientReset_same (a : IpcServer σ) (reason : Fermeture) :
    (clientReset slot reason a).clients slot = .libre :=
  a.modify_same slot fun _ => .libre

theorem clientReset_clients (a : IpcServer σ) (reason : Fermeture) {s : Slot} (hs : s ≠ slot) :
    (clientReset slot reason a).clients s = a.clients s :=
  a.modify_other slot (fun _ => .libre) hs

theorem clientReset_liaison (a : IpcServer σ) (reason : Fermeture) (s : Slot) :
    liaison json s (clientReset slot reason a).journal = liaison json s a.journal :=
  liaison_log _ _

theorem clientReset_rangee {a : IpcServer σ} (h : Rangee json a) {reason : Fermeture}
    (hreason : reason = .tamponPlein → ¬ LignesCourtes (liaison json slot a.journal).received) :
    Rangee json (clientReset slot reason a) := by
  have hothers : ∀ s, s ≠ slot → (clientReset slot reason a).clients s = a.clients s :=
    fun s hs => clientReset_clients a reason hs
  refine ⟨?_, ?_, ?_⟩
  · intro s hnone
    by_cases hs : s = slot
    · rw [hs, clientReset_same]
    · rw [hothers s hs] at hnone ⊢
      exact h.libre s hnone
  · have hold : ∀ s fd, ((clientReset slot reason a).clients s).fd = some fd →
        (a.clients s).fd = some fd := by
      intro s fd hfd
      by_cases hs : s = slot
      · rw [hs, clientReset_same] at hfd
        cases hfd
      · rwa [hothers s hs] at hfd
    exact fun s t fd hs ht => h.distincts s t fd (hold s fd hs) (hold t fd ht)
  · refine h.pleins.log ?_
    intro s hclosed
    obtain ⟨rfl, hr⟩ := IpcObs.closed.inj hclosed
    exact hreason hr

section OuFermer

variable {α : Type} {m : IpcM σ α} {a : IpcServer σ}

theorem ouFermer_clients (ht : Touche slot a (m a).2) {s : Slot} (hs : s ≠ slot) :
    (ouFermer slot m a).clients s = a.clients s := by
  have hmoved := ht.others s hs
  unfold ouFermer
  rcases hm : m a with ⟨reason | _, b⟩ <;> rw [hm] at hmoved
  · exact (clientReset_clients b reason hs).trans hmoved
  · exact hmoved

theorem ouFermer_liaison (ht : Touche slot a (m a).2) {s : Slot} (hs : s ≠ slot) :
    liaison json s (ouFermer slot m a).journal = liaison json s a.journal := by
  have hmoved : liaison json s (m a).2.journal = liaison json s a.journal := by
    obtain ⟨added, hjournal, hall⟩ := ht.journal
    rw [hjournal]
    exact liaison_other hs hall _
  unfold ouFermer
  rcases hm : m a with ⟨reason | _, b⟩ <;> rw [hm] at hmoved
  · exact (clientReset_liaison b reason s).trans hmoved
  · exact hmoved

theorem ouFermer_rangee (h : Rangee json a) (hfd : (a.clients slot).fd.isSome)
    (ht : Touche slot a (m a).2)
    (hplein : ∀ b, m a = (.error .tamponPlein, b) → ¬ LignesCourtes (liaison json slot b.journal).received) :
    Rangee json (ouFermer slot m a) := by
  have hmoved := h.touche ht hfd
  unfold ouFermer
  rcases hm : m a with ⟨reason | _, b⟩ <;> rw [hm] at hmoved
  · refine clientReset_rangee hmoved ?_
    rintro rfl
    exact hplein b hm
  · exact hmoved

theorem ouFermer_enOrdre (hok : ∀ x b, m a = (.ok x, b) → EnOrdre json slot b)
    (hfd : ((ouFermer slot m a).clients slot).fd.isSome) : EnOrdre json slot (ouFermer slot m a) := by
  unfold ouFermer at hfd ⊢
  rcases hm : m a with ⟨reason | x, b⟩ <;> rw [hm] at hfd
  · rw [clientReset_same] at hfd
    cases hfd
  · exact hok x b hm

/-- **Serving a client keeps the streams**, when it keeps its own. -/
theorem Flux.ouFermer (h : Flux json a) (hfd : (a.clients slot).fd.isSome)
    (ht : Touche slot a (m a).2) (hok : ∀ x b, m a = (.ok x, b) → EnOrdre json slot b)
    (hplein : ∀ b, m a = (.error .tamponPlein, b) → ¬ LignesCourtes (liaison json slot b.journal).received) :
    Flux json (ouFermer slot m a) := by
  refine { ouFermer_rangee h.toRangee hfd ht hplein with enOrdre := ?_ }
  intro s hs
  by_cases hslot : s = slot
  · subst hslot
    exact ouFermer_enOrdre hok hs
  · have hclient := ouFermer_clients ht hslot
    rw [EnOrdre, hclient, ouFermer_liaison ht hslot]
    rw [hclient] at hs
    exact h.enOrdre s hs

end OuFermer

/-! ### Events -/

/-- A client is owed one more event than it has been queued. -/
def Du (json : JsonC) (event : JsonValue) (slot : Slot) (server : IpcServer σ) : Prop :=
  (server.clients slot).fd.isSome → ∃ l, Conforme json (server.clients slot) l ∧
    liaison json slot server.journal = l.step json slot (.broadcast event)

theorem mettreEnFile_other (event : JsonValue) (server : IpcServer σ) {i j : Slot} (h : j ≠ i) :
    (mettreEnFile json event server i).clients j = server.clients j ∧
      liaison json j (mettreEnFile json event server i).journal = liaison json j server.journal := by
  unfold mettreEnFile
  split
  · exact ⟨ouFermer_clients (clientAppend_touche _ server) h,
      ouFermer_liaison (clientAppend_touche _ server) h⟩
  · exact ⟨rfl, rfl⟩

theorem mettreEnFile_rangee {server : IpcServer σ} (h : Rangee json server) (event : JsonValue)
    (i : Slot) : Rangee json (mettreEnFile json event server i) := by
  unfold mettreEnFile
  split
  · next hsub =>
    exact ouFermer_rangee h hsub.1 (clientAppend_touche _ server)
      fun c hc => absurd rfl (clientAppend_fails _ server .tamponPlein c hc)
  · exact h

/-- The client that was owed the event has it in its queue, or it was no subscriber. -/
theorem mettreEnFile_enOrdre {event : JsonValue} {server : IpcServer σ} {i : Slot}
    (hdue : Du json event i server) (hfd : ((mettreEnFile json event server i).clients i).fd.isSome) :
    EnOrdre json i (mettreEnFile json event server i) := by
  unfold mettreEnFile at hfd ⊢
  split at hfd
  · next hsub =>
    rw [if_pos hsub]
    obtain ⟨l, hconf, hl⟩ := hdue hsub.1
    refine ouFermer_enOrdre (fun u c hc => ?_) hfd
    obtain ⟨hclient, hjournal⟩ := clientAppend_ok hc
    have hevent := hconf.event i event
    rw [if_pos hsub.2] at hevent
    rw [EnOrdre, hclient, hjournal, hl]
    exact hevent
  · next hsub =>
    rw [if_neg hsub]
    obtain ⟨l, hconf, hl⟩ := hdue hfd
    have hevent := hconf.event i event
    rw [if_neg fun hs => hsub ⟨hfd, hs⟩] at hevent
    rw [EnOrdre, hl]
    exact hevent

/-- **An event** is queued for all subscribers. -/
theorem Flux.broadcast {server : IpcServer σ} (h : Flux json server) (event : JsonValue) :
    Flux json (ipcServerBroadcast json server event) := by
  unfold ipcServerBroadcast
  rcases halloc : allouer server with ⟨reason | u, a⟩
  · obtain ⟨hclients, hjournal⟩ := allouer_same halloc
    exact h.congr hclients hjournal
  obtain ⟨hclients, hjournal⟩ := allouer_same halloc
  have ha := h.congr hclients hjournal
  have hlogged : Rangee json (a.log (.broadcast event)) :=
    ha.toRangee.congr rfl (ha.pleins.log (by rintro s ⟨⟩))
  have hrangee : Rangee json
      ((List.finRange ipcServerMaxClients).foldl (mettreEnFile json event) (a.log (.broadcast event))) :=
    List.foldlRecOn _ _ hlogged fun b hb i _ => mettreEnFile_rangee hb event i
  refine { hrangee with enOrdre := fun s => ?_ }
  -- a slot is owed the event until its turn, and conforms from then on
  refine Run.foldl_each (B := Du json event) (A := fun i b => (b.clients i).fd.isSome → EnOrdre json i b)
    ?_ ?_ ?_ (List.nodup_finRange _) ?_ s (List.mem_finRange s)
  · exact fun b i hdue hfd => mettreEnFile_enOrdre hdue hfd
  · intro b i j hj hdue hfd
    obtain ⟨hclient, hl⟩ := mettreEnFile_other event b hj
    rw [hclient] at hfd ⊢
    rw [hl]
    exact hdue hfd
  · intro b i j hj hconf hfd
    obtain ⟨hclient, hl⟩ := mettreEnFile_other event b hj
    rw [hclient] at hfd
    rw [EnOrdre, hclient, hl]
    exact hconf hfd
  · intro i _ hfd
    exact ⟨_, ha.enOrdre i hfd, liaison_log _ _⟩

/-! ### Lines -/

/-- A client with nothing to be sent has no line left in its buffer. -/
def SansLigne (slot : Slot) (server : IpcServer σ) : Prop :=
  (server.clients slot).fd.isSome → (server.clients slot).output.length = 0 →
    newline ∉ (server.clients slot).input

theorem traiterLigne_flux {app : Application σ} {server : IpcServer σ} (h : Flux json server) (i : Slot) :
    Flux json (traiterLigne json app server i) := by
  unfold traiterLigne
  split
  · next hready =>
    refine h.ouFermer hready.1 (processBufferedMessage_touche app server) ?_ ?_
    · exact fun x b hb => processBufferedMessage_conforme hb (h.enOrdre i hready.1)
    · exact fun b hb => absurd rfl (processBufferedMessage_fails app server .tamponPlein b hb)
  · exact h

theorem traiterLigne_other {app : Application σ} (server : IpcServer σ) {i j : Slot} (h : j ≠ i) :
    (traiterLigne json app server i).clients j = server.clients j := by
  unfold traiterLigne
  split
  · exact ouFermer_clients (processBufferedMessage_touche app server) h
  · rfl

/-- Either there was no line, or its response is to be sent. -/
theorem traiterLigne_sansLigne {app : Application σ} (server : IpcServer σ) (i : Slot) :
    SansLigne i (traiterLigne json app server i) := by
  unfold traiterLigne
  split
  · unfold AmlService.ouFermer
    rcases hm : processBufferedMessage json app i server with ⟨reason | processed, b⟩
    · intro _ _
      rw [clientReset_same]
      exact List.not_mem_nil
    rw [processBufferedMessage, bind_run_ok (get_run server)] at hm
    rcases hcut : Lines.cut newline (server.clients i).input with _ | ⟨line, rest⟩ <;> rw [hcut] at hm
    · obtain ⟨-, rfl⟩ := Prod.mk.inj hm
      exact fun _ _ => Lines.cut_none.mp hcut
    -- a line was taken: there is at least the newline of its response to send
    obtain ⟨_, c, -, hm⟩ := bind_run_inv hm
    obtain ⟨response, d, hmessage, hm⟩ := bind_run_inv hm
    obtain ⟨_, e, hlog, hpure⟩ := bind_run_inv hm
    obtain ⟨-, rfl⟩ := Prod.mk.inj hlog
    obtain ⟨-, rfl⟩ := Prod.mk.inj hpure
    intro _ hempty
    rw [IpcServer.log_clients, (processMessage_ok hmessage).1] at hempty
    have hlength : ((c.clients i).output ++ json.print response ++ [newline]).length = 0 := hempty
    simp at hlength
  · next hbusy => exact fun hfd hempty => absurd ⟨hfd, hempty⟩ hbusy

theorem traiterLignes_flux {app : Application σ} {server : IpcServer σ} (h : Flux json server) :
    Flux json (traiterLignes json app server) :=
  List.foldlRecOn _ _ h fun _ hb i _ => traiterLigne_flux hb i

theorem traiterLignes_sansLigne (app : Application σ) (server : IpcServer σ) (slot : Slot) :
    SansLigne slot (traiterLignes json app server) := by
  refine Run.foldl_each (B := fun _ _ => True) (A := SansLigne) ?_ ?_ ?_ (List.nodup_finRange _) ?_
    slot (List.mem_finRange slot)
  · exact fun b i _ => traiterLigne_sansLigne b i
  · exact fun _ _ _ _ _ => trivial
  · intro b i j hj hnone
    rw [SansLigne, traiterLigne_other b hj]
    exact hnone
  · exact fun _ _ => trivial

/-! ### Readiness -/

/-- A descriptor polled for reading is that of a client with nothing to be sent, and no
line in its buffer. -/
def Arme (server : IpcServer σ) (polled : Nat × Bool) : Prop :=
  polled.2 = false → ∀ slot, (server.clients slot).fd = some polled.1 →
    (server.clients slot).output.length = 0 ∧ newline ∉ (server.clients slot).input

theorem pollFds_arme {server : IpcServer σ} (h : Rangee json server)
    (hnone : ∀ slot, SansLigne slot server) : ∀ polled ∈ pollFds server, Arme server polled := by
  intro polled hpolled hinput slot hslot
  obtain ⟨owner, -, howner⟩ := List.mem_filterMap.mp hpolled
  obtain ⟨fd, hfd, rfl⟩ := Option.map_eq_some_iff.mp howner
  obtain rfl := h.distincts owner slot fd hfd hslot
  have hempty : (server.clients owner).output.length = 0 := by
    simpa using of_decide_eq_false hinput
  exact ⟨hempty, hnone owner (by rw [hfd]; rfl) hempty⟩

theorem pollFds_nodup {server : IpcServer σ} (h : Rangee json server) :
    ((pollFds server).map Prod.fst).Nodup := by
  have hfds : (pollFds server).map Prod.fst =
      (List.finRange ipcServerMaxClients).filterMap fun slot => (server.clients slot).fd := by
    rw [pollFds, List.map_filterMap]
    refine List.filterMap_congr fun slot _ => ?_
    cases (server.clients slot).fd <;> rfl
  rw [hfds]
  refine List.Nodup.filterMap ?_ (List.nodup_finRange _)
  exact fun s t fd hs ht => h.distincts s t fd hs ht

/-! ### New clients -/

/-- Either there is no room, or a free slot gets the client. -/
theorem placer_cases (fd : Nat) (server : IpcServer σ) :
    placer fd server = server ∨ ∃ slot,
      (placer fd server).journal = server.journal ++ [.accepted slot fd] ∧
      (server.clients slot).fd = none ∧
      (placer fd server).clients slot = { server.clients slot with fd := some fd } ∧
      ∀ s, s ≠ slot → (placer fd server).clients s = server.clients s := by
  unfold placer
  split
  · exact .inl rfl
  next slot hslot =>
  have hfree : (server.clients slot).fd = none := by simpa using List.find?_some hslot
  refine .inr ⟨slot, rfl, hfree, ?_, ?_⟩
  · rw [IpcServer.log_clients, IpcServer.modify_same]
  · intro s hs
    rw [IpcServer.log_clients, server.modify_other slot _ hs]

/-- When the free slots are empty, the client starts from nothing. -/
theorem placer_inv {server : IpcServer σ} (h : Rangee json server) (fd : Nat) :
    placer fd server = server ∨ ∃ slot,
      (placer fd server).journal = server.journal ++ [.accepted slot fd] ∧
      (placer fd server).clients slot = { IpcClient.libre with fd := some fd } ∧
      ∀ s, s ≠ slot → (placer fd server).clients s = server.clients s := by
  rcases placer_cases fd server with heq | ⟨slot, hjournal, hfree, hsame, hother⟩
  · exact .inl heq
  · rw [h.libre slot hfree] at hsame
    exact .inr ⟨slot, hjournal, hsame, hother⟩

/-- **A slot given to a new client** starts from nothing, whoever held it before. -/
theorem placer_flux {server : IpcServer σ} (h : Flux json server) {fd : Nat}
    (hfresh : ∀ slot, (server.clients slot).fd ≠ some fd) : Flux json (placer fd server) := by
  rcases placer_inv h.toRangee fd with heq | ⟨slot, hjournal, hsame, hother⟩
  · rw [heq]
    exact h
  have hfds : ∀ s f, ((placer fd server).clients s).fd = some f →
      (s = slot ∧ f = fd) ∨ (s ≠ slot ∧ (server.clients s).fd = some f ∧ f ≠ fd) := by
    intro s f hf
    by_cases hs : s = slot
    · rw [hs, hsame] at hf
      exact .inl ⟨hs, (Option.some.inj hf).symm⟩
    · rw [hother s hs] at hf
      exact .inr ⟨hs, hf, fun he => hfresh s (he ▸ hf)⟩
  refine { libre := ?_, distincts := ?_, pleins := ?_, enOrdre := ?_ }
  · intro s hnone
    by_cases hs : s = slot
    · rw [hs, hsame] at hnone
      cases hnone
    · rw [hother s hs] at hnone ⊢
      exact h.libre s hnone
  · intro s t f hs ht
    rcases hfds s f hs with ⟨rfl, rfl⟩ | ⟨-, hs, hne⟩
    · rcases hfds t f ht with ⟨rfl, -⟩ | ⟨-, -, hne⟩
      · rfl
      · exact absurd rfl hne
    · rcases hfds t f ht with ⟨-, rfl⟩ | ⟨-, ht, -⟩
      · exact absurd rfl hne
      · exact h.distincts s t f hs ht
  · rw [hjournal]
    exact h.pleins.log (by rintro s ⟨⟩)
  · intro s hs
    rw [EnOrdre, hjournal, liaison_log]
    by_cases hslot : s = slot
    · -- its streams begin here: those of whoever held the slot before are over
      subst hslot
      rw [hsame, Liaison.step, if_pos rfl]
      exact .vide fd
    · rw [hother s hslot] at hs ⊢
      rw [Liaison.step, if_neg (Ne.symm hslot)]
      exact h.enOrdre s hs

theorem placer_arme {server : IpcServer σ} (h : Rangee json server) {fd : Nat} {polled : Nat × Bool}
    (harme : Arme server polled) : Arme (placer fd server) polled := by
  rcases placer_inv h fd with heq | ⟨slot, -, hsame, hother⟩
  · rwa [heq]
  intro hinput s hs
  by_cases hslot : s = slot
  · rw [hslot, hsame]
    exact ⟨rfl, List.not_mem_nil⟩
  · rw [hother s hslot] at hs ⊢
    exact harme hinput s hs

/-- New clients keep the streams, and what `poll` was asked. -/
theorem acceptLoop_flux {polled : List (Nat × Bool)} (accepts : List IpcAccept) {server : IpcServer σ}
    (h : Flux json server) (harme : ∀ p ∈ polled, Arme server p) :
    Flux json (acceptLoop accepts server) ∧ ∀ p ∈ polled, Arme (acceptLoop accepts server) p := by
  induction accepts generalizing server with
  | nil => exact ⟨h.congr rfl rfl, harme⟩
  | cons outcome accepts ih =>
    cases outcome with
    | interrupted => exact ih h harme
    | wouldBlock => exact ⟨h.congr rfl rfl, harme⟩
    | failed => exact ⟨h.congr rfl rfl, harme⟩
    | connection fd nonblocking =>
      rw [acceptLoop]
      split
      · next hnew => exact ih (placer_flux h hnew.2) fun p hp => placer_arme h.toRangee (harme p hp)
      · exact ih h harme

/-! ### Serving what is ready -/

theorem servirFd_flux {revents : Nat → Revents} {server : IpcServer σ} (h : Flux json server)
    {polled : Nat × Bool} (harme : Arme server polled) : Flux json (servirFd revents server polled) := by
  unfold servirFd
  split
  · exact h
  next slot hslot =>
  have hfd : (server.clients slot).fd = some polled.1 := by
    simpa using List.find?_some hslot
  have hsome : (server.clients slot).fd.isSome := by rw [hfd]; rfl
  refine h.ouFermer hsome (servirClient_touche _ server) ?_ ?_
  · exact fun u b hb => servirClient_conforme hb (h.enOrdre slot hsome)
  · intro b hb
    -- found full when it is read, so polled for reading: its buffer held no line then
    obtain ⟨rfl, hpollin, -, hfull⟩ := servirClient_plein hb
    have hinput : polled.2 = false := by
      simpa [Revents.asked] using (Bool.and_eq_true_iff.mp hpollin).2
    exact (h.enOrdre slot hsome).plein hfull (harme hinput slot hfd).2

theorem servirFd_arme {revents : Nat → Revents} {server : IpcServer σ} {polled other : Nat × Bool}
    (hne : other.1 ≠ polled.1) (harme : Arme server other) :
    Arme (servirFd revents server polled) other := by
  unfold servirFd
  split
  · exact harme
  next slot hslot =>
  have hfd : (server.clients slot).fd = some polled.1 := by
    simpa using List.find?_some hslot
  have htouche : Touche slot server (servirClient slot ((revents polled.1).asked polled.2) server).2 :=
    servirClient_touche _ server
  intro hinput s hs
  by_cases hslot : s = slot
  · -- the client served keeps its descriptor, or loses it
    subst hslot
    unfold AmlService.ouFermer at hs
    rcases hm : servirClient s ((revents polled.1).asked polled.2) server with ⟨reason | _, b⟩ <;>
      rw [hm] at hs htouche
    · rw [clientReset_same] at hs
      cases hs
    · exact absurd (Option.some.inj (hs.symm.trans (htouche.fd.trans hfd))) hne
  · rw [ouFermer_clients htouche hslot] at hs ⊢
    exact harme hinput s hs

/-- **All that is ready is served**: what is kept by serving a descriptor that was polled rightly is
kept by serving all of them. -/
theorem servir_invariant {revents : Nat → Revents} {I : IpcServer σ → Prop}
    (hserve : ∀ server polled, I server → Arme server polled → I (servirFd revents server polled))
    {polled : List (Nat × Bool)} {server : IpcServer σ} (hnodup : (polled.map Prod.fst).Nodup)
    (harme : ∀ p ∈ polled, Arme server p) (h : I server) : I (polled.foldl (servirFd revents) server) := by
  induction polled generalizing server with
  | nil => exact h
  | cons first polled ih =>
    obtain ⟨hfirst, hnodup⟩ := List.nodup_cons.mp hnodup
    refine ih hnodup (fun p hp => ?_) (hserve server first h (harme first List.mem_cons_self))
    refine servirFd_arme (fun heq => hfirst ?_) (harme p (List.mem_cons_of_mem first hp))
    rw [← heq]
    exact List.mem_map_of_mem hp

theorem servir_flux {revents : Nat → Revents} {polled : List (Nat × Bool)} {server : IpcServer σ}
    (hnodup : (polled.map Prod.fst).Nodup) (h : Flux json server)
    (harme : ∀ p ∈ polled, Arme server p) : Flux json (polled.foldl (servirFd revents) server) :=
  servir_invariant (fun _ _ hs harmed => servirFd_flux hs harmed) hnodup harme h

theorem attendre_flux {server : IpcServer σ} (h : Flux json server)
    (hnone : ∀ slot, SansLigne slot server) : Flux json (attendre server) := by
  unfold attendre
  split
  · exact h
  next outcome polls _ =>
  dsimp only
  have hpolled : Flux json { server with noyau := { server.noyau with polls } } := h.congr rfl rfl
  have harme : ∀ p ∈ pollFds server, Arme { server with noyau := { server.noyau with polls } } p :=
    pollFds_arme h.toRangee hnone
  split
  · exact h.congr rfl rfl
  · exact hpolled
  · exact hpolled
  · next listen revents _ =>
    cases listen with
    | false => exact servir_flux (pollFds_nodup h.toRangee) hpolled harme
    | true =>
      obtain ⟨haccepted, harme⟩ := acceptLoop_flux _ hpolled harme
      exact servir_flux (pollFds_nodup h.toRangee) haccepted harme

/-! ### Runs -/

theorem arreter_flux {server : IpcServer σ} (h : Flux json server) : Flux json (arreter server) := by
  have hstopped : Flux json { server with running := false } := h.congr rfl rfl
  refine List.foldlRecOn _ _ hstopped fun b hb slot _ => ?_
  split
  · have hrangee : Rangee json (clientReset slot .arret b) := clientReset_rangee hb.toRangee nofun
    refine { hrangee with enOrdre := fun s hs => ?_ }
    by_cases hslot : s = slot
    · rw [hslot, clientReset_same] at hs
      cases hs
    · rw [clientReset_clients b .arret hslot] at hs
      rw [EnOrdre, clientReset_clients b .arret hslot, clientReset_liaison]
      exact hb.enOrdre s hs
  · exact hb

/-- What the events broadcast keep, the periodic task keeps. -/
theorem appelerTick_invariant {app : Application σ} {I : IpcServer σ → Prop}
    (hcongr : ∀ a b, I a → b.clients = a.clients → b.journal = a.journal → I b)
    (hbroadcast : ∀ a event, I a → I (ipcServerBroadcast json a event)) {server : IpcServer σ}
    (h : I server) : I (appelerTick json app server) := by
  unfold appelerTick
  split
  · exact h
  · next tick _ =>
    have hcalled : I { server with context := (tick server.context).context } := hcongr server _ h rfl rfl
    have hevents : I ((tick server.context).events.foldl (ipcServerBroadcast json) _) :=
      List.foldlRecOn _ _ hcalled fun b hb event _ => hbroadcast b event hb
    exact hcongr _ _ hevents rfl rfl

theorem appelerTick_flux {app : Application σ} {server : IpcServer σ} (h : Flux json server) :
    Flux json (appelerTick json app server) :=
  appelerTick_invariant (fun _ _ ha hclients hjournal => ha.congr hclients hjournal)
    (fun _ event ha => ha.broadcast event) h

theorem arretDemandeLu_same (server : IpcServer σ) :
    (arretDemandeLu server).2.clients = server.clients ∧
      (arretDemandeLu server).2.journal = server.journal := by
  unfold arretDemandeLu
  split <;> exact ⟨rfl, rfl⟩

/-- The beginning of a turn, up to the lines: whether the loop stops there. -/
def avantLignes (json : JsonC) (app : Application σ) (server : IpcServer σ) : Bool × IpcServer σ :=
  let (stop, server) := arretDemandeLu server
  if !server.running || stop then (true, server)
  else
    let server := appelerTick json app server
    let (stop, server) := if app.tick.isSome then arretDemandeLu server else (false, server)
    (!server.running || stop, server)

theorem tour_eq (app : Application σ) (server : IpcServer σ) :
    tour json app server =
      if (avantLignes json app server).1 then arreter (avantLignes json app server).2
      else attendre (traiterLignes json app (avantLignes json app server).2) := by
  unfold tour avantLignes
  dsimp only
  split <;> rfl

/-- What the looks at the stop flag and the periodic task keep, the beginning of a turn keeps. -/
theorem avantLignes_invariant {app : Application σ} {I : IpcServer σ → Prop}
    (hlook : ∀ s, I s → I (arretDemandeLu s).2) (htick : ∀ s, I s → I (appelerTick json app s))
    {server : IpcServer σ} (h : I server) : I (avantLignes json app server).2 := by
  unfold avantLignes
  dsimp only
  split
  · exact hlook server h
  -- after the periodic task the stop flag is looked at again
  split
  · exact hlook _ (htick _ (hlook server h))
  · exact htick _ (hlook server h)

theorem avantLignes_flux {app : Application σ} {server : IpcServer σ} (h : Flux json server) :
    Flux json (avantLignes json app server).2 :=
  avantLignes_invariant (fun s hs => hs.congr (arretDemandeLu_same s).1 (arretDemandeLu_same s).2)
    (fun _ hs => appelerTick_flux hs) h

/-- **One turn.** -/
theorem tour_flux {app : Application σ} {server : IpcServer σ} (h : Flux json server) :
    Flux json (tour json app server) := by
  have hbefore : Flux json (avantLignes json app server).2 := avantLignes_flux h
  rw [tour_eq]
  split
  · exact arreter_flux hbefore
  · exact attendre_flux (traiterLignes_flux hbefore) (traiterLignes_sansLigne app _)

theorem ipcServerInit_flux (context : σ) (noyau : Noyau) : Flux json (ipcServerInit context noyau) where
  libre _ _ := rfl
  distincts := nofun
  pleins := by
    intro slot before hprefix
    simp [ipcServerInit] at hprefix
  enOrdre := nofun

/-- **A run.** What every turn keeps, a run keeps. -/
theorem ipcServerRun_invariant {app : Application σ} {I : IpcServer σ → Prop}
    (htour : ∀ a, I a → I (tour json app a)) {server : IpcServer σ} (h : I server) (turns : Nat) :
    I (ipcServerRun json app server turns) := by
  show I ((tour json app)^[turns] server)
  induction turns with
  | zero => exact h
  | succ turns ih =>
    rw [Function.iterate_succ_apply']
    exact htour _ ih

theorem ipcServerRun_flux {app : Application σ} {server : IpcServer σ} (h : Flux json server) (turns : Nat) :
    Flux json (ipcServerRun json app server turns) :=
  ipcServerRun_invariant (fun _ ha => tour_flux ha) h turns

end Server

/-- **The streams of every client**, whatever the turns bring. A client connected after any
number of turns, its slot new or taken over, has been sent, with what is still to send,
the response to each line worked off and, once it has subscribed, each event, each on a
line, in the order they were queued; what it has sent is the lines worked off, in order,
and its input buffer. No client was ever disconnected for a full buffer unless it had
sent a line of more than 4095 bytes. -/
theorem flux_des_clients (json : JsonC) (app : Application σ) (context : σ) (noyau : Noyau)
    (turns : Nat) :
    let server := ipcServerRun json app (ipcServerInit context noyau) turns
    (∀ slot, (server.clients slot).fd.isSome →
      let client := server.clients slot
      let l := liaison json slot server.journal
      l.sent ++ client.pending = Lines.join newline (l.queued.map json.print) ∧
        Lines.split newline (l.sent ++ client.pending) = (l.queued.map json.print, []) ∧
        l.received = Lines.join newline l.lines ++ client.input ∧
        ∀ line ∈ l.lines, newline ∉ line) ∧
    ∀ slot before, before ++ [.closed slot .tamponPlein] <+: server.journal →
      ¬ LignesCourtes (liaison json slot before).received := by
  intro server
  have h : Flux json server := ipcServerRun_flux (ipcServerInit_flux context noyau) turns
  refine ⟨fun slot hslot => ?_, h.pleins⟩
  have hconf := h.enOrdre slot hslot
  refine ⟨hconf.output, ?_, hconf.input, hconf.lines⟩
  have hlines := json.print_lines (liaison json slot server.journal).queued
  have hsplit := Lines.split_join hlines List.not_mem_nil
  rw [List.append_nil] at hsplit
  rw [hconf.output, hsplit]

/-! ### A subscriber -/

/-- A text of json-c, all ASCII. -/
def octets (text : String) : List UInt8 := text.toList.map fun c => UInt8.ofNat c.toNat

def abonnement : List UInt8 :=
  octets "\x7b\"type\":\"request\",\"id\":1,\"command\":\"subscribe\",\"args\":[]\x7d"

def finMinuteur : JsonValue :=
  .obj [("type", .str "event"), ("event", .str "timer_ended"), ("data", .obj [("timer", .str "light")])]

/-- json-c, on a subscription and an event. -/
def jsonAbonnement : JsonC where
  parse message :=
    if message = abonnement then
      some (.obj [("type", .str "request"), ("id", .int 1), ("command", .str "subscribe"), ("args", .arr [])])
    else none
  print value :=
    let text :=
      if (value.get? "event").isSome then
        "\x7b\"type\":\"event\",\"event\":\"timer_ended\",\"data\":\x7b\"timer\":\"light\"\x7d\x7d"
      else "\x7b\"type\":\"response\",\"id\":1,\"ok\":true,\"result\":\x7b\"subscribed\":true\x7d\x7d"
    (octets text).filter (· ≠ newline)
  print_line := by simp

/-- The kernel, for a client that connects, subscribes and reads slowly. -/
def noyauAbonnement : Noyau where
  signals := []
  allocations := []
  polls :=
    let lisible := fun _ => ⟨true, false, false, false, false⟩
    let inscriptible := fun _ => ⟨false, true, false, false, false⟩
    [.ready true lisible, .ready false lisible, .ready false inscriptible, .ready false inscriptible]
  accepts := [.connection 5 true]
  recvs := [.bytes (abonnement ++ [newline, 0x78])]
  sends := [.wrote 10, .wouldBlock, .wrote 20]

/-- The fourth call of the periodic task broadcasts an event. -/
def minuterie : Application Nat where
  tick := some fun calls => ⟨if calls = 3 then [finMinuteur] else [], false, calls + 1⟩
  handler := none

/-- The event is queued behind a response of which ten bytes are gone. -/
theorem flux_des_clients_abonnement :
    let server := ipcServerRun jsonAbonnement minuterie (ipcServerInit 0 noyauAbonnement) 4
    let l := liaison jsonAbonnement 0 server.journal
    l.lines = [abonnement] ∧ l.sent.length = 30 ∧ (server.clients 0).input = [0x78] ∧
      ((Lines.split newline (l.sent ++ (server.clients 0).pending)).1).length = 2 := by
  have hvalues :
      let server := ipcServerRun jsonAbonnement minuterie (ipcServerInit 0 noyauAbonnement) 4
      let l := liaison jsonAbonnement 0 server.journal
      (server.clients 0).fd.isSome = true ∧ l.lines = [abonnement] ∧ l.sent.length = 30 ∧
        (server.clients 0).input = [0x78] := by decide +kernel
  dsimp only at hvalues
  obtain ⟨hconnected, hlines, hsent, hinput⟩ := hvalues
  have hrun := flux_des_clients jsonAbonnement minuterie 0 noyauAbonnement 4
  have hsplit := (hrun.1 0 hconnected).2.1
  refine ⟨hlines, hsent, hinput, ?_⟩
  rw [hsplit, List.length_map]
  decide +kernel

end AmlService
