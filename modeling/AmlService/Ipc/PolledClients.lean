import AmlService.Ipc.LongLines

/-!
# AmlService.Ipc.PolledClients

The results of `poll` go to the clients they are about. They are matched to the slots by their
descriptors, after new clients were accepted and while others are disconnected, and a descriptor
that is closed may be given again. What holds is that nobody is disconnected between the call of
`poll` and the last of the new clients, and that each descriptor is looked at once.

A client is known by the place of the journal where it was accepted (`Tenant`), so that a slot or a
descriptor taken over is another client's. The slots change hands at entries of the journal only.
-/

namespace AmlService

open Effect

variable {σ : Type}

/-! ### Who holds the slots -/

/-- A client that holds a slot: the place of the journal where it was accepted, its descriptor. -/
structure Tenant where
  depuis : Nat
  fd : Nat
  deriving Repr, DecidableEq

/-- One entry of the journal; `place` is where it stands. -/
def Tenant.step (slot : Slot) (place : Nat) (held : Option Tenant) : IpcObs → Option Tenant
  | .accepted s fd => if s = slot then some ⟨place, fd⟩ else held
  | .closed s _ => if s = slot then none else held
  | _ => held

/-- The client that holds a slot, from `place` on. -/
def tenantDepuis (slot : Slot) (place : Nat) (held : Option Tenant) : List IpcObs → Option Tenant
  | [] => held
  | o :: journal => tenantDepuis slot (place + 1) (Tenant.step slot place held o) journal

/-- The client that holds a slot. -/
def tenant (slot : Slot) (journal : List IpcObs) : Option Tenant := tenantDepuis slot 0 none journal

/-- No two slots hold one descriptor. -/
def Separes (journal : List IpcObs) : Prop :=
  ∀ s t c d, tenant s journal = some c → tenant t journal = some d → c.fd = d.fd → s = t

section Tenant

variable {slot : Slot}

theorem tenantDepuis_append (place : Nat) (held : Option Tenant) (journal added : List IpcObs) :
    tenantDepuis slot place held (journal ++ added) =
      tenantDepuis slot (place + journal.length) (tenantDepuis slot place held journal) added := by
  induction journal generalizing place held with
  | nil => rfl
  | cons o journal ih =>
    rw [List.cons_append, tenantDepuis, ih, tenantDepuis, List.length_cons, Nat.add_assoc, Nat.add_comm 1]

@[simp] theorem tenant_log (journal : List IpcObs) (o : IpcObs) :
    tenant slot (journal ++ [o]) = Tenant.step slot journal.length (tenant slot journal) o := by
  simp [tenant, tenantDepuis_append, tenantDepuis]

/-- Bytes and lines do not change who holds a slot. -/
theorem step_client {o : IpcObs} {s : Slot} (h : o.client? = some s) (place : Nat) (held : Option Tenant) :
    Tenant.step slot place held o = held := by
  cases o with
  | received | processed | sent => rfl
  | _ => cases h

theorem tenant_client {added : List IpcObs} {s : Slot} (h : ∀ o ∈ added, o.client? = some s)
    (journal : List IpcObs) : tenant slot (journal ++ added) = tenant slot journal := by
  induction added using List.reverseRecOn with
  | nil => simp
  | append_singleton added o ih =>
    rw [← List.append_assoc, tenant_log, step_client (h o (by simp))]
    exact ih fun p hp => h p (List.mem_append_left _ hp)

/-- Who holds a slot was accepted before. -/
theorem tenant_depuis {journal : List IpcObs} {c : Tenant} (h : tenant slot journal = some c) :
    c.depuis < journal.length := by
  induction journal using List.reverseRecOn with
  | nil => cases h
  | append_singleton journal o ih =>
    rw [tenant_log] at h
    rw [List.length_append, List.length_singleton]
    cases o with
    | accepted s fd =>
      rw [Tenant.step] at h
      split at h
      · obtain rfl := Option.some.inj h
        exact Nat.lt_succ_self _
      · exact Nat.lt_succ_of_lt (ih h)
    | closed s reason =>
      rw [Tenant.step] at h
      split at h
      · cases h
      · exact Nat.lt_succ_of_lt (ih h)
    | _ => exact Nat.lt_succ_of_lt (ih h)

theorem Separes.congr {journal journal' : List IpcObs} (h : Separes journal)
    (hsame : ∀ s, tenant s journal' = tenant s journal) : Separes journal' := by
  intro s t c d hs ht
  rw [hsame] at hs ht
  exact h s t c d hs ht

/-- A slot is given up. -/
theorem Separes.closed {journal : List IpcObs} (h : Separes journal) (i : Slot) (reason : Fermeture) :
    Separes (journal ++ [.closed i reason]) := by
  intro s t c d hs ht
  simp only [tenant_log, Tenant.step] at hs ht
  split at hs
  · cases hs
  split at ht
  · cases ht
  exact h s t c d hs ht

/-- A slot is given to a client, with a descriptor that no slot holds. -/
theorem Separes.accepted {journal : List IpcObs} (h : Separes journal) (i : Slot) {fd : Nat}
    (hfresh : ∀ s c, tenant s journal = some c → c.fd ≠ fd) : Separes (journal ++ [.accepted i fd]) := by
  intro s t c d hs ht hfd
  simp only [tenant_log, Tenant.step] at hs ht
  split at hs
  · next hi =>
    obtain rfl := Option.some.inj hs
    split at ht
    · next hi' => exact hi.symm.trans hi'
    · exact absurd hfd.symm (hfresh t d ht)
  · split at ht
    · obtain rfl := Option.some.inj ht
      exact absurd hfd (hfresh s c hs)
    · exact h s t c d hs ht hfd

end Tenant

/-! ### What the loop does to the slots -/

/-- An invariant that is kept by all that the loop does to the slots. -/
structure Boucle (I : IpcServer σ → Prop) : Prop where
  congr : ∀ a b, I a → b.clients = a.clients → b.journal = a.journal → I b
  touche : ∀ slot a b, I a → Touche slot a b → I b
  reset : ∀ slot reason a, I a → I (clientReset slot reason a)
  event : ∀ event a, I a → I (a.log (.broadcast event))
  placer : ∀ fd a, I a → (∀ slot, (a.clients slot).fd ≠ some fd) → I (placer fd a)

section Boucle

variable {json : JsonC} {app : Application σ} {I : IpcServer σ → Prop} (h : Boucle I)
include h

theorem Boucle.ouFermer {α : Type} {slot : Slot} {m : IpcM σ α} (hm : Keeps (Touche slot) m) {a : IpcServer σ}
    (ha : I a) : I (ouFermer slot m a) := by
  have htouche := h.touche slot a (m a).2 ha (hm a)
  unfold AmlService.ouFermer
  rcases hrun : m a with ⟨reason | x, b⟩ <;> rw [hrun] at htouche
  · exact h.reset slot reason b htouche
  · exact htouche

theorem Boucle.broadcast {a : IpcServer σ} (ha : I a) (event : JsonValue) :
    I (ipcServerBroadcast json a event) := by
  unfold ipcServerBroadcast
  rcases halloc : allouer a with ⟨reason | u, b⟩
  · obtain ⟨hclients, hjournal⟩ := allouer_same halloc
    exact h.congr a b ha hclients hjournal
  · obtain ⟨hclients, hjournal⟩ := allouer_same halloc
    refine List.foldlRecOn _ _ (h.event event b (h.congr a b ha hclients hjournal)) fun c hc slot _ => ?_
    unfold mettreEnFile
    split
    · exact h.ouFermer (clientAppend_touche _) hc
    · exact hc

theorem Boucle.appelerTick {a : IpcServer σ} (ha : I a) : I (appelerTick json app a) :=
  appelerTick_invariant h.congr (fun _ event hb => h.broadcast hb event) ha

theorem Boucle.avantLignes {a : IpcServer σ} (ha : I a) : I (avantLignes json app a).2 :=
  avantLignes_invariant (fun b hb => h.congr b _ hb (arretDemandeLu_same b).1 (arretDemandeLu_same b).2)
    (fun _ hb => h.appelerTick hb) ha

theorem Boucle.traiterLignes {a : IpcServer σ} (ha : I a) : I (traiterLignes json app a) := by
  refine List.foldlRecOn _ _ ha fun b hb slot _ => ?_
  unfold traiterLigne
  split
  · exact h.ouFermer (processBufferedMessage_touche app) hb
  · exact hb

theorem Boucle.acceptLoop (accepts : List IpcAccept) {a : IpcServer σ} (ha : I a) : I (acceptLoop accepts a) := by
  induction accepts generalizing a with
  | nil => exact h.congr a _ ha rfl rfl
  | cons outcome accepts ih =>
    cases outcome with
    | interrupted => exact ih ha
    | wouldBlock => exact h.congr a _ ha rfl rfl
    | failed => exact h.congr a _ ha rfl rfl
    | connection fd nonblocking =>
      rw [AmlService.acceptLoop]
      split
      · next hnew => exact ih (h.placer fd a ha hnew.2)
      · exact ih ha

theorem Boucle.accueillir (listen : Bool) (polls : List IpcPoll) {a : IpcServer σ} (ha : I a) :
    I (accueillir listen { a with noyau := { a.noyau with polls } }) := by
  have hpolled : I { a with noyau := { a.noyau with polls } } := h.congr a _ ha rfl rfl
  unfold AmlService.accueillir
  split
  · exact h.acceptLoop _ hpolled
  · exact hpolled

theorem Boucle.servirFd {revents : Nat → Revents} {a : IpcServer σ} (ha : I a) (polled : Nat × Bool) :
    I (servirFd revents a polled) := by
  unfold AmlService.servirFd
  split
  · exact ha
  · exact h.ouFermer (servirClient_touche _) ha

theorem Boucle.attendre {a : IpcServer σ} (ha : I a) : I (attendre a) := by
  rcases hpolls : a.noyau.polls with _ | ⟨outcome, polls⟩
  · rw [AmlService.attendre, hpolls]
    exact ha
  cases outcome with
  | failed | interrupted | timeout =>
    rw [AmlService.attendre, hpolls]
    exact h.congr a _ ha rfl rfl
  | ready listen revents =>
    rw [attendre_ready hpolls]
    exact List.foldlRecOn _ _ (h.accueillir listen polls ha) fun b hb polled _ => h.servirFd hb polled

theorem Boucle.arreter {a : IpcServer σ} (ha : I a) : I (arreter a) := by
  refine List.foldlRecOn _ _ (h.congr a _ ha rfl rfl) fun b hb slot _ => ?_
  split
  · exact h.reset slot .arret b hb
  · exact hb

/-- **One turn.** -/
theorem Boucle.tour {a : IpcServer σ} (ha : I a) : I (tour json app a) := by
  rw [tour_eq]
  split
  · exact h.arreter (h.avantLignes ha)
  · exact h.attendre (h.traiterLignes (h.avantLignes ha))

/-- **A run.** -/
theorem Boucle.run {a : IpcServer σ} (ha : I a) (turns : Nat) : I (ipcServerRun json app a turns) :=
  ipcServerRun_invariant (fun _ hb => h.tour hb) ha turns

end Boucle

/-! ### The journal says who holds the slots -/

/-- The slots are held by those that the journal says, and no descriptor was ever held twice. -/
structure Identifies (server : IpcServer σ) : Prop where
  tenus : ∀ slot, (server.clients slot).fd = (tenant slot server.journal).map Tenant.fd
  separes : ∀ before, before <+: server.journal → Separes before

section Identifies

variable {slot : Slot} {server : IpcServer σ}

theorem Identifies.fd (h : Identifies server) {c : Tenant} (hc : tenant slot server.journal = some c) :
    (server.clients slot).fd = some c.fd := by
  rw [h.tenus, hc]
  rfl

theorem Identifies.log {o : IpcObs} {after : IpcServer σ} (h : Identifies server)
    (hjournal : after.journal = server.journal ++ [o])
    (htenus : ∀ slot, (after.clients slot).fd = (tenant slot after.journal).map Tenant.fd)
    (hsepares : Separes after.journal) : Identifies after := by
  refine ⟨htenus, fun before hbefore => ?_⟩
  rw [hjournal] at hbefore
  rcases List.prefix_concat_iff.mp hbefore with rfl | hbefore
  · rwa [hjournal] at hsepares
  · exact h.separes before hbefore

/-- **The loop keeps it.** -/
theorem boucle_identifies : Boucle (@Identifies σ) where
  congr a b h hclients hjournal := by
    refine ⟨?_, ?_⟩
    · rw [hclients, hjournal]
      exact h.tenus
    · rw [hjournal]
      exact h.separes
  touche slot a b h ht := by
    obtain ⟨added, hjournal, hadded⟩ := ht.journal
    have hsame : ∀ s, tenant s b.journal = tenant s a.journal := by
      intro s
      rw [hjournal, tenant_client hadded]
    refine ⟨fun s => ?_, fun before hbefore => ?_⟩
    · rw [hsame, ← h.tenus]
      by_cases hs : s = slot
      · rw [hs, ht.fd]
      · rw [ht.others s hs]
    · rw [hjournal] at hbefore
      rcases List.prefix_or_prefix_of_prefix hbefore (List.prefix_append a.journal added) with hbefore | ⟨rest, rfl⟩
      · exact h.separes before hbefore
      · have hrest : rest <+: added := (List.prefix_append_right_inj _).mp hbefore
        exact (h.separes _ List.prefix_rfl).congr fun s => tenant_client (fun o ho => hadded o (hrest.subset ho)) _
  reset slot reason a h := by
    refine h.log rfl (fun s => ?_) ((h.separes _ List.prefix_rfl).closed slot reason)
    show ((clientReset slot reason a).clients s).fd = (tenant s (a.journal ++ [.closed slot reason])).map _
    by_cases hs : s = slot
    · subst hs
      simp [clientReset_same, Tenant.step, IpcClient.libre]
    · rw [clientReset_clients a reason hs, tenant_log, Tenant.step, if_neg (Ne.symm hs), h.tenus]
  event event a h := by
    refine h.log rfl (fun s => ?_) ((h.separes _ List.prefix_rfl).congr fun s => ?_)
    · show (a.clients s).fd = (tenant s (a.journal ++ [.broadcast event])).map _
      rw [tenant_log, h.tenus]
      rfl
    · rw [IpcServer.log_journal, tenant_log]
      rfl
  placer fd a h hfresh := by
    rcases placer_cases fd a with heq | ⟨slot, hjournal, -, hsame, hother⟩
    · rwa [heq]
    refine h.log hjournal (fun s => ?_) ?_
    · rw [hjournal, tenant_log, Tenant.step]
      by_cases hs : s = slot
      · subst hs
        simp [hsame]
      · rw [hother s hs, if_neg (Ne.symm hs), h.tenus]
    · rw [hjournal]
      refine (h.separes _ List.prefix_rfl).accepted slot fun s c hc hfd => ?_
      exact hfresh s (hfd ▸ h.fd hc)

/-- A descriptor is held by one slot. -/
theorem Identifies.distincts (h : Identifies server) {s t : Slot} {fd : Nat}
    (hs : (server.clients s).fd = some fd) (ht : (server.clients t).fd = some fd) : s = t := by
  rw [h.tenus] at hs ht
  obtain ⟨c, hc, hcfd⟩ := Option.map_eq_some_iff.mp hs
  obtain ⟨d, hd, hdfd⟩ := Option.map_eq_some_iff.mp ht
  exact h.separes _ List.prefix_rfl s t c d hc hd (hcfd.trans hdfd.symm)

/-- What is polled is the descriptor of a client. -/
theorem pollFds_tenant (h : Identifies server) {polled : Nat × Bool} (hpolled : polled ∈ pollFds server) :
    ∃ owner client, tenant owner server.journal = some client ∧ client.fd = polled.1 := by
  obtain ⟨owner, -, howner⟩ := List.mem_filterMap.mp hpolled
  obtain ⟨fd, hfd, rfl⟩ := Option.map_eq_some_iff.mp howner
  rw [h.tenus] at hfd
  obtain ⟨client, hclient, rfl⟩ := Option.map_eq_some_iff.mp hfd
  exact ⟨owner, client, hclient, rfl⟩

end Identifies

/-! ### From the call of `poll` to its results -/

section Service

variable {owner slot : Slot} {client : Tenant} {server : IpcServer σ} {revents : Nat → Revents}

/-- A new client does not take the slot of another. -/
theorem placer_tenant (h : Identifies server) (hclient : tenant owner server.journal = some client) (fd : Nat) :
    tenant owner (placer fd server).journal = some client := by
  rcases placer_cases fd server with heq | ⟨slot, hjournal, hfree, -, -⟩
  · rwa [heq]
  have hne : slot ≠ owner := by
    rintro rfl
    rw [h.fd hclient] at hfree
    cases hfree
  rw [hjournal, tenant_log, Tenant.step, if_neg hne]
  exact hclient

theorem acceptLoop_tenant (accepts : List IpcAccept) (h : Identifies server)
    (hclient : tenant owner server.journal = some client) :
    tenant owner (acceptLoop accepts server).journal = some client := by
  induction accepts generalizing server with
  | nil => exact hclient
  | cons outcome accepts ih =>
    cases outcome with
    | interrupted => exact ih h hclient
    | wouldBlock => exact hclient
    | failed => exact hclient
    | connection fd nonblocking =>
      rw [acceptLoop]
      split
      · next hnew => exact ih (boucle_identifies.placer fd server h hnew.2) (placer_tenant h hclient fd)
      · exact ih h hclient

theorem accueillir_tenant (listen : Bool) (polls : List IpcPoll) (h : Identifies server)
    (hclient : tenant owner server.journal = some client) :
    tenant owner (accueillir listen { server with noyau := { server.noyau with polls } }).journal =
      some client := by
  unfold accueillir
  split
  · exact acceptLoop_tenant _ (boucle_identifies.congr server _ h rfl rfl) hclient
  · exact hclient

/-- Another client is served, and perhaps disconnected. -/
theorem ouFermer_tenant {α : Type} {m : IpcM σ α} (hm : Keeps (Touche slot) m) (hne : slot ≠ owner) :
    tenant owner (ouFermer slot m server).journal = tenant owner server.journal := by
  obtain ⟨added, hjournal, hadded⟩ := (hm server).journal
  have hmoved : tenant owner (m server).2.journal = tenant owner server.journal := by
    rw [hjournal, tenant_client hadded]
  unfold ouFermer
  rcases hrun : m server with ⟨reason | x, after⟩ <;> rw [hrun] at hmoved
  · show tenant owner (after.journal ++ [.closed slot reason]) = _
    rw [tenant_log, Tenant.step, if_neg hne]
    exact hmoved
  · exact hmoved

/-- **A client is found by its descriptor.** -/
theorem servirFd_owner (h : Identifies server) (hclient : tenant owner server.journal = some client)
    {polled : Nat × Bool} (hfd : client.fd = polled.1) :
    servirFd revents server polled =
      ouFermer owner (servirClient owner ((revents polled.1).asked polled.2)) server := by
  have howner : (server.clients owner).fd = some polled.1 := hfd ▸ h.fd hclient
  unfold servirFd
  split
  · next hnone =>
    rw [List.find?_eq_none] at hnone
    exact absurd (decide_eq_true howner) (hnone owner (List.mem_finRange owner))
  · next slot hslot =>
    have hfound : (server.clients slot).fd = some polled.1 := by simpa using List.find?_some hslot
    rw [h.distincts hfound howner]

/-- The results for other descriptors are not about it. -/
theorem servirFd_tenant (h : Identifies server) (hclient : tenant owner server.journal = some client)
    {polled : Nat × Bool} (hfd : client.fd ≠ polled.1) :
    tenant owner (servirFd revents server polled).journal = some client := by
  unfold servirFd
  split
  · exact hclient
  · next slot hslot =>
    have hfound : (server.clients slot).fd = some polled.1 := by simpa using List.find?_some hslot
    have hne : slot ≠ owner := by
      rintro rfl
      rw [h.fd hclient] at hfound
      exact hfd (Option.some.inj hfound)
    rw [ouFermer_tenant (servirClient_touche _) hne]
    exact hclient

/-- Until its own result is looked at, a client that was polled holds its slot. -/
theorem servir_tenant (h : Identifies server) (hclient : tenant owner server.journal = some client)
    {done : List (Nat × Bool)} (hdone : ∀ p ∈ done, client.fd ≠ p.1) :
    Identifies (done.foldl (servirFd revents) server) ∧
      tenant owner (done.foldl (servirFd revents) server).journal = some client := by
  induction done generalizing server with
  | nil => exact ⟨h, hclient⟩
  | cons polled done ih =>
    refine ih (boucle_identifies.servirFd h polled) ?_ fun p hp => hdone p (List.mem_cons_of_mem _ hp)
    exact servirFd_tenant h hclient (hdone polled List.mem_cons_self)

end Service

/-! ### A turn -/

/-- The server of a turn, when it calls `poll`. -/
def avantPoll (json : JsonC) (app : Application σ) (server : IpcServer σ) : IpcServer σ :=
  traiterLignes json app (avantLignes json app server).2

/-- The result for a descriptor polled in `asked`, looked at in `point`, goes to a client: it was
accepted before the call of `poll`, it holds its slot as it did then, and it alone is served. -/
structure Rendu (revents : Nat → Revents) (asked point : IpcServer σ) (polled : Nat × Bool) (owner : Slot)
    (client : Tenant) : Prop where
  fd : client.fd = polled.1
  demande : tenant owner asked.journal = some client
  avant : client.depuis < asked.journal.length
  present : tenant owner point.journal = some client
  servi : servirFd revents point polled =
    ouFermer owner (servirClient owner ((revents polled.1).asked polled.2)) point
  autres : ∀ s, s ≠ owner → (servirFd revents point polled).clients s = point.clients s

theorem ipcServerInit_identifies (context : σ) (noyau : Noyau) : Identifies (ipcServerInit context noyau) where
  tenus _ := rfl
  separes before hbefore := by
    obtain rfl : before = [] := List.prefix_nil.mp hbefore
    intro s t c d hs
    cases hs

/-- **The results of `poll` go to the clients they are about**, in every turn of every run, whatever
the kernel answers; and no descriptor is ever held by two slots, wherever the journal is cut. -/
theorem resultats_de_poll (json : JsonC) (app : Application σ) (context : σ) (noyau : Noyau) (turns : Nat) :
    Identifies (ipcServerRun json app (ipcServerInit context noyau) turns) ∧
    let server := ipcServerRun json app (ipcServerInit context noyau) turns
    let asked := avantPoll json app server
    ∀ listen revents polls done polled todo, (avantLignes json app server).1 = false →
      asked.noyau.polls = .ready listen revents :: polls → pollFds asked = done ++ polled :: todo →
      let accepted := accueillir listen { asked with noyau := { asked.noyau with polls } }
      let point := done.foldl (servirFd revents) accepted
      tour json app server = todo.foldl (servirFd revents) (servirFd revents point polled) ∧
        Identifies asked ∧ Identifies point ∧ ∃ owner client, Rendu revents asked point polled owner client := by
  have hrun : Identifies (ipcServerRun json app (ipcServerInit context noyau) turns) :=
    boucle_identifies.run (ipcServerInit_identifies context noyau) turns
  refine ⟨hrun, ?_⟩
  intro server asked listen revents polls done polled todo hgoes hpolls hsplit accepted point
  have hasked : Identifies asked := boucle_identifies.traiterLignes (boucle_identifies.avantLignes hrun)
  have hflux : Flux json server := ipcServerRun_flux (ipcServerInit_flux context noyau) turns
  have hnodup : ((pollFds asked).map Prod.fst).Nodup :=
    pollFds_nodup (traiterLignes_flux (avantLignes_flux hflux)).toRangee
  obtain ⟨owner, client, hclient, hfd⟩ := pollFds_tenant hasked
    (show polled ∈ pollFds asked by rw [hsplit]; simp)
  have hdone : ∀ p ∈ done, client.fd ≠ p.1 := by
    intro p hp heq
    rw [hsplit, List.map_append, List.map_cons, hfd.symm.trans heq] at hnodup
    exact (List.nodup_append.mp hnodup).2.2 p.1 (List.mem_map_of_mem hp) p.1 (by simp) rfl
  obtain ⟨hpoint, hpresent⟩ : Identifies point ∧ tenant owner point.journal = some client :=
    servir_tenant (boucle_identifies.accueillir listen polls hasked)
      (accueillir_tenant listen polls hasked hclient) hdone
  have hservi : servirFd revents point polled =
      ouFermer owner (servirClient owner ((revents polled.1).asked polled.2)) point :=
    servirFd_owner hpoint hpresent hfd
  refine ⟨?_, hasked, hpoint, owner, client, hfd, hclient, tenant_depuis hclient, hpresent, hservi, ?_⟩
  · rw [tour_eq, hgoes, if_neg Bool.false_ne_true]
    show attendre asked = _
    rw [attendre_ready hpolls, hsplit, List.foldl_append, List.foldl_cons]
  · intro s hs
    rw [hservi]
    exact ouFermer_clients (servirClient_touche _ point) hs

/-- The kernel, for two clients; when a third connects, the first hangs up and the second writes. -/
def noyauTrois : Noyau where
  signals := []
  allocations := []
  polls := [.ready true lisible, .ready true lisible]
  accepts := [.connection 5 true, .connection 6 true, .wouldBlock, .connection 7 true]
  recvs := [.bytes [], .bytes [0x78]]
  sends := []

/-- The server after one turn: two clients. -/
def serveurDeux : IpcServer Unit := ipcServerRun jsonAbonnement sansTache (ipcServerInit () noyauTrois) 1

/-- In the second turn, when the second client is looked at: the third one is there, the first gone. -/
def serveurTrois : IpcServer Unit :=
  let asked := avantPoll jsonAbonnement sansTache serveurDeux
  servirFd lisible (accueillir true { asked with noyau := { asked.noyau with polls := [] } }) (5, false)

set_option maxRecDepth 4000 in
theorem resultats_de_poll_trois :
    (serveurTrois.clients 0).fd = none ∧ (serveurTrois.clients 2).fd = some 7 ∧
      ∃ owner client,
        Rendu lisible (avantPoll jsonAbonnement sansTache serveurDeux) serveurTrois (6, false) owner client := by
  have hpolled : pollFds (avantPoll jsonAbonnement sansTache serveurDeux) = [(5, false)] ++ (6, false) :: [] := by
    decide +kernel
  have hclients : (serveurTrois.clients 0).fd = none ∧ (serveurTrois.clients 2).fd = some 7 := by
    decide +kernel
  have hturn := (resultats_de_poll jsonAbonnement sansTache () noyauTrois 1).2 true lisible [] [(5, false)]
    (6, false) [] (by decide +kernel) rfl hpolled
  exact ⟨hclients.1, hclients.2, hturn.2.2.2⟩

end AmlService
