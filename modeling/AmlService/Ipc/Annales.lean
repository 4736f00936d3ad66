import AmlService.Ipc.Dialogue

/-!
# AmlService.Ipc.Annales

**The journal of the server against its application.** Each response in it is the answer of the
application in the very state that it was in when the loop came to the line
(`ipcServerRun_traitee`). And as long as there is memory, the events broadcast are those that the
application has given, each once and in their order: the server of any moment is some steps of the
application after the server of any earlier one (`Deroule`).
-/

namespace AmlService

open Effect

variable {σ : Type}

/-- The events broadcast, in a part of the journal. -/
def diffuses (journal : List IpcObs) : List JsonValue :=
  journal.filterMap fun
    | .broadcast event => some event
    | _ => none

/-- There is memory for what is to come. -/
def MemoireDisponible (server : IpcServer σ) : Prop := ∀ granted ∈ server.noyau.allocations, granted = true

section Neutre

variable {json : JsonC} {app : Application σ} {slot : Slot} {a b : IpcServer σ}

theorem diffuses_append (before after : List IpcObs) : diffuses (before ++ after) = diffuses before ++ diffuses after :=
  List.filterMap_append

theorem diffuses_neutre {added : List IpcObs} (h : ∀ o ∈ added, o.neutre = true) : diffuses added = [] := by
  refine List.filterMap_eq_nil_iff.mpr fun o ho => ?_
  have hneutre := h o ho
  cases o <;> first | rfl | cases hneutre

/-- An entry of a journal that goes on without it was there before. -/
theorem split_of_not_mem_added {journal added before after : List IpcObs} {o : IpcObs} (ho : o ∉ added)
    (h : journal ++ added = before ++ o :: after) : ∃ after', journal = before ++ o :: after' := by
  rcases List.append_eq_append_iff.mp h with ⟨more, -, hadded⟩ | ⟨rest, hjournal, hrest⟩
  · rw [hadded] at ho
    exact absurd (List.mem_append_right more List.mem_cons_self) ho
  · cases rest with
    | nil =>
      rw [List.nil_append] at hrest
      rw [← hrest] at ho
      exact absurd List.mem_cons_self ho
    | cons first rest =>
      obtain ⟨rfl, -⟩ := List.cons.inj hrest
      exact ⟨rest, hjournal⟩

/-- An entry of a journal is one of those before the last, or the last. -/
theorem split_concat {journal before after : List IpcObs} {o p : IpcObs} (h : journal ++ [o] = before ++ p :: after) :
    (∃ after', journal = before ++ p :: after') ∨ journal = before ∧ o = p := by
  rcases List.eq_nil_or_concat after with rfl | ⟨others, last, rfl⟩
  · obtain ⟨hbefore, hlast⟩ := List.append_inj' h rfl
    exact .inr ⟨hbefore, (List.cons.inj hlast).1⟩
  · have hmore : journal ++ [o] = (before ++ p :: others) ++ [last] := by simpa using h
    exact .inl ⟨others, (List.append_inj' hmore rfl).1⟩

theorem SansTrace.neutre (h : SansTrace a b) : Neutre a b :=
  ⟨h.context, ⟨[], by rw [h.journal, List.append_nil], by simp⟩, h.allocations⟩

theorem ouFermer_neutre {α : Type} {m : IpcM σ α} (h : Neutre a (m a).2) : Neutre a (ouFermer slot m a) := by
  unfold ouFermer
  rcases hm : m a with ⟨reason | _, c⟩ <;> rw [hm] at h
  · exact trans_of Neutre h (.modify_log c slot (fun _ => .libre) rfl)
  · exact h

theorem mettreEnFile_neutre (event : JsonValue) (a : IpcServer σ) (slot : Slot) :
    Neutre a (mettreEnFile json event a slot) := by
  unfold mettreEnFile
  split
  · exact ouFermer_neutre (clientAppend_sansTrace (json.print event) a).neutre
  · exact refl_of Neutre a

theorem servirFd_neutre (revents : Nat → Revents) (a : IpcServer σ) (polled : Nat × Bool) :
    Neutre a (servirFd revents a polled) := by
  unfold servirFd
  split
  · exact refl_of Neutre a
  · exact ouFermer_neutre (servirClient_neutre _ a)

theorem placer_neutre (fd : Nat) (a : IpcServer σ) : Neutre a (placer fd a) := by
  unfold placer
  split
  · exact refl_of Neutre a
  · exact .modify_log a _ _ rfl

theorem acceptLoop_neutre (accepts : List IpcAccept) (a : IpcServer σ) : Neutre a (acceptLoop accepts a) := by
  induction accepts generalizing a with
  | nil => exact .same rfl rfl rfl
  | cons outcome accepts ih =>
    cases outcome with
    | interrupted => exact ih a
    | wouldBlock | failed => exact .same rfl rfl rfl
    | connection fd nonblocking =>
      rw [acceptLoop]
      split
      · exact trans_of Neutre (placer_neutre fd a) (ih _)
      · exact ih a

theorem arretDemandeLu_neutre (a : IpcServer σ) : Neutre a (arretDemandeLu a).2 := by
  unfold arretDemandeLu
  split
  · exact refl_of Neutre a
  · exact .same rfl rfl rfl

theorem attendre_neutre (a : IpcServer σ) : Neutre a (attendre a) := by
  have hserve : ∀ (revents : Nat → Revents) (b : IpcServer σ), Neutre a b →
      Neutre a ((pollFds a).foldl (servirFd revents) b) := by
    intro revents b hb
    exact List.foldlRecOn _ _ hb fun c hc polled _ => trans_of Neutre hc (servirFd_neutre revents c polled)
  unfold attendre
  split
  · exact refl_of Neutre a
  next outcome polls _ =>
  dsimp only
  split
  · exact .same rfl rfl rfl
  · exact .same rfl rfl rfl
  · exact .same rfl rfl rfl
  · next listen revents _ =>
    have hpolled : Neutre a { a with noyau := { a.noyau with polls } } := .same rfl rfl rfl
    cases listen with
    | false => exact hserve revents _ hpolled
    | true => exact hserve revents _ (trans_of Neutre hpolled (acceptLoop_neutre _ _))

theorem arreter_neutre (a : IpcServer σ) : Neutre a (arreter a) := by
  have hstopped : Neutre a { a with running := false } := .same rfl rfl rfl
  refine List.foldlRecOn _ _ hstopped fun b hb slot _ => ?_
  split
  · exact trans_of Neutre hb (.modify_log b slot (fun _ => .libre) rfl)
  · exact hb

end Neutre

/-! ### Where the responses come from -/

/-- The server of a turn, as the loop comes to the line of a client. -/
def avantLigne (json : JsonC) (app : Application σ) (slot : Slot) (server : IpcServer σ) : IpcServer σ :=
  ((List.finRange ipcServerMaxClients).take slot).foldl (traiterLigne json app) (avantLignes json app server).2

/-- **Where a response comes from.** In one of the turns the loop came to the client of this slot, and
found the server as `server` is: with this line first in the buffer of the client. Its entry is then
the next one of the journal, and the response is what the application answers in the state that it
was in. -/
structure Traitee (json : JsonC) (app : Application σ) (start : IpcServer σ) (turns : Nat) (slot : Slot)
    (line : List UInt8) (response : JsonValue) (server : IpcServer σ) : Prop where
  moment : ∃ turn < turns, (avantLignes json app (ipcServerRun json app start turn)).1 = false ∧
    server = avantLigne json app slot (ipcServerRun json app start turn)
  journal : ∃ after,
    (ipcServerRun json app start turns).journal = server.journal ++ .processed slot line response :: after
  ligne : ∃ rest, Lines.cut newline (server.clients slot).input = some (line, rest)
  reponse : response = reponseA json app server.context line

/-- The entry is about a line. -/
def IpcObs.deLigne : IpcObs → Bool
  | .processed _ _ _ => true
  | _ => false

/-- The journal goes on, and no line is worked off. -/
def SansReponse (a b : IpcServer σ) : Prop := ∃ added, b.journal = a.journal ++ added ∧ ∀ o ∈ added, o.deLigne = false

section Traitee

variable {json : JsonC} {app : Application σ} {slot : Slot} {a b c : IpcServer σ}

theorem SansReponse.trans (h : SansReponse a b) (h' : SansReponse b c) : SansReponse a c := by
  obtain ⟨added, hjournal, hnone⟩ := h
  obtain ⟨added', hjournal', hnone'⟩ := h'
  refine ⟨added ++ added', by rw [hjournal', hjournal, List.append_assoc], ?_⟩
  exact fun o ho => (List.mem_append.mp ho).elim (hnone o) (hnone' o)

theorem Neutre.sansReponse (h : Neutre a b) : SansReponse a b := by
  obtain ⟨added, hjournal, hnone⟩ := h.journal
  refine ⟨added, hjournal, fun o ho => ?_⟩
  have hneutre := hnone o ho
  cases o <;> first | rfl | cases hneutre

theorem broadcast_sansReponse (event : JsonValue) (a : IpcServer σ) :
    SansReponse a (ipcServerBroadcast json a event) := by
  have htrace := (allouer_sansTrace a).neutre.sansReponse
  unfold ipcServerBroadcast
  rcases halloc : allouer a with ⟨reason | u, b⟩ <;> rw [halloc] at htrace
  · exact htrace
  · refine htrace.trans (List.foldlRecOn _ _ (⟨[.broadcast event], rfl, by simp [IpcObs.deLigne]⟩ : SansReponse b _) ?_)
    exact fun c hc slot _ => hc.trans (mettreEnFile_neutre event c slot).sansReponse

/-- The beginning of a turn. -/
theorem avantLignes_sansReponse (a : IpcServer σ) : SansReponse a (avantLignes json app a).2 := by
  have htick : ∀ b : IpcServer σ, SansReponse a b → SansReponse a (appelerTick json app b) := by
    intro b hb
    refine appelerTick_invariant (I := SansReponse a) ?_ (fun c event hc => hc.trans (broadcast_sansReponse event c)) hb
    intro c d hc _ hjournal
    obtain ⟨added, hadded, hnone⟩ := hc
    exact ⟨added, hjournal.trans hadded, hnone⟩
  refine avantLignes_invariant (fun b hb => ?_) htick (refl_of Neutre a).sansReponse
  exact hb.trans (arretDemandeLu_neutre b).sansReponse

/-- A line of the journal was there before what says nothing of lines. -/
theorem SansReponse.split (h : SansReponse a b) {before after : List IpcObs} {line : List UInt8} {response : JsonValue}
    (hsplit : b.journal = before ++ .processed slot line response :: after) :
    ∃ after', a.journal = before ++ .processed slot line response :: after' := by
  obtain ⟨added, hjournal, hnone⟩ := h
  refine split_of_not_mem_added (fun hmem => ?_) (hjournal.symm.trans hsplit)
  cases hnone _ hmem

/-- **One client.** Its line, if one is worked off, is the next entry. -/
theorem traiterLigne_traitee (a : IpcServer σ) (i : Slot) {before after : List IpcObs} {line : List UInt8}
    {response : JsonValue}
    (hsplit : (traiterLigne json app a i).journal = before ++ .processed slot line response :: after) :
    (∃ after', a.journal = before ++ .processed slot line response :: after') ∨
      slot = i ∧ a.journal = before ∧ (∃ rest, Lines.cut newline (a.clients i).input = some (line, rest)) ∧
        response = reponseA json app a.context line := by
  unfold traiterLigne at hsplit
  split at hsplit
  swap
  · exact .inl ⟨after, hsplit⟩
  obtain ⟨-, -, hjournal⟩ := @processBufferedMessage_repond _ json app i a
  unfold ouFermer at hsplit
  rcases hjournal with hjournal | ⟨worked, rest, hcut, hrun, hjournal⟩
  · rcases hm : processBufferedMessage json app i a with ⟨reason | _, b⟩ <;> rw [hm] at hsplit hjournal
    · have hclosed : SansReponse b (clientReset i reason b) := ⟨[.closed i reason], rfl, by simp [IpcObs.deLigne]⟩
      obtain ⟨after', hbefore⟩ := hclosed.split hsplit
      exact .inl ⟨after', hjournal.symm.trans hbefore⟩
    · exact .inl ⟨after, hjournal.symm.trans hsplit⟩
  · rw [hrun] at hsplit
    rcases split_concat (hjournal.symm.trans hsplit) with hold | ⟨hbefore, hentry⟩
    · exact .inl hold
    · obtain ⟨rfl, rfl, rfl⟩ := IpcObs.processed.inj hentry
      exact .inr ⟨rfl, hbefore, ⟨rest, hcut⟩, rfl⟩

/-- The clients, one after the other. -/
theorem foldl_traiterLigne_traitee (a : IpcServer σ) {before : List IpcObs} {line : List UInt8} {response : JsonValue}
    (count : Nat) : count ≤ ipcServerMaxClients → ∀ {after : List IpcObs},
    (((List.finRange ipcServerMaxClients).take count).foldl (traiterLigne json app) a).journal =
      before ++ .processed slot line response :: after →
    (∃ after', a.journal = before ++ .processed slot line response :: after') ∨
      ∃ b, b = ((List.finRange ipcServerMaxClients).take slot).foldl (traiterLigne json app) a ∧ b.journal = before ∧
        (∃ rest, Lines.cut newline (b.clients slot).input = some (line, rest)) ∧
        response = reponseA json app b.context line := by
  induction count with
  | zero => exact fun _ after hsplit => .inl ⟨after, hsplit⟩
  | succ count ih =>
    intro hcount after hsplit
    rw [List.take_add_one, List.getElem?_eq_getElem (by simpa using Nat.lt_of_succ_le hcount), List.getElem_finRange,
      Option.toList_some, List.foldl_append, List.foldl_cons, List.foldl_nil] at hsplit
    rcases traiterLigne_traitee _ _ hsplit with ⟨after', hold⟩ | ⟨rfl, hbefore, hcut, hresponse⟩
    · exact ih (Nat.le_of_succ_le hcount) hold
    · exact .inr ⟨_, rfl, hbefore, hcut, hresponse⟩

/-- **One turn**: a line of the journal was there before, or was worked off in this turn. -/
theorem tour_traitee {before after : List IpcObs} {line : List UInt8} {response : JsonValue}
    (hsplit : (tour json app a).journal = before ++ .processed slot line response :: after) :
    (∃ after', a.journal = before ++ .processed slot line response :: after') ∨
      (avantLignes json app a).1 = false ∧ (avantLigne json app slot a).journal = before ∧
        (∃ rest, Lines.cut newline ((avantLigne json app slot a).clients slot).input = some (line, rest)) ∧
        response = reponseA json app (avantLigne json app slot a).context line := by
  rw [tour_eq] at hsplit
  split at hsplit
  · exact .inl (((avantLignes_sansReponse a).trans (arreter_neutre _).sansReponse).split hsplit)
  next hgoes =>
  have hwait := attendre_neutre (traiterLignes json app (avantLignes json app a).2)
  obtain ⟨after', hlines⟩ := hwait.sansReponse.split hsplit
  have hall : traiterLignes json app (avantLignes json app a).2 =
      ((List.finRange ipcServerMaxClients).take ipcServerMaxClients).foldl (traiterLigne json app)
        (avantLignes json app a).2 := by
    rw [List.take_of_length_le (by simp)]
    rfl
  rw [hall] at hlines
  rcases foldl_traiterLigne_traitee _ _ le_rfl hlines with ⟨after'', hold⟩ | ⟨b, rfl, hworked⟩
  · exact .inl ((avantLignes_sansReponse a).split hold)
  · exact .inr ⟨by simpa using hgoes, hworked⟩

/-- **A run**: every response in the journal was given by the application, when the loop came to its
line. -/
theorem ipcServerRun_traitee (start : IpcServer σ) (hstart : start.journal = []) {turns : Nat}
    {before after : List IpcObs} {line : List UInt8} {response : JsonValue}
    (hsplit : (ipcServerRun json app start turns).journal = before ++ .processed slot line response :: after) :
    ∃ server, Traitee json app start turns slot line response server ∧ server.journal = before := by
  suffices hturn : ∃ turn < turns, (avantLignes json app (ipcServerRun json app start turn)).1 = false ∧
      (avantLigne json app slot (ipcServerRun json app start turn)).journal = before ∧
      (∃ rest, Lines.cut newline ((avantLigne json app slot (ipcServerRun json app start turn)).clients slot).input =
        some (line, rest)) ∧
      response = reponseA json app (avantLigne json app slot (ipcServerRun json app start turn)).context line by
    obtain ⟨turn, hlt, hgoes, hbefore, hcut, hresponse⟩ := hturn
    exact ⟨_, ⟨⟨turn, hlt, hgoes, rfl⟩, ⟨after, hbefore.symm ▸ hsplit⟩, hcut, hresponse⟩, hbefore⟩
  induction turns generalizing after with
  | zero =>
    have hnone : start.journal = before ++ .processed slot line response :: after := hsplit
    rw [hstart] at hnone
    exact absurd hnone.symm (List.append_ne_nil_of_right_ne_nil before (List.cons_ne_nil _ _))
  | succ turns ih =>
    have hlast : ipcServerRun json app start (turns + 1) = tour json app (ipcServerRun json app start turns) :=
      Function.iterate_succ_apply' (tour json app) turns start
    rw [hlast] at hsplit
    rcases tour_traitee hsplit with ⟨after', hold⟩ | hnew
    · obtain ⟨turn, hlt, hworked⟩ := ih hold
      exact ⟨turn, Nat.lt_succ_of_lt hlt, hworked⟩
    · exact ⟨turns, Nat.lt_succ_self turns, hnew⟩

end Traitee

/-! ### What is broadcast -/

/-- All that was broadcast is so. -/
def ToutDiffuse (P : JsonValue → Prop) (server : IpcServer σ) : Prop := ∀ event ∈ diffuses server.journal, P event

section Broadcast

variable {json : JsonC} {app : Application σ} {a b : IpcServer σ} {P : JsonValue → Prop}

theorem ToutDiffuse.neutre (h : ToutDiffuse P a) (hstep : Neutre a b) : ToutDiffuse P b := by
  obtain ⟨added, hjournal, hneutre⟩ := hstep.journal
  rw [ToutDiffuse, hjournal, diffuses_append, diffuses_neutre hneutre, List.append_nil]
  exact h

theorem ToutDiffuse.broadcast {event : JsonValue} (h : ToutDiffuse P a) (hevent : P event) :
    ToutDiffuse P (ipcServerBroadcast json a event) := by
  have htrace := h.neutre (allouer_sansTrace a).neutre
  unfold ipcServerBroadcast
  rcases halloc : allouer a with ⟨reason | u, b⟩ <;> rw [halloc] at htrace
  · exact htrace
  · have hlogged : ToutDiffuse P (b.log (.broadcast event)) := by
      rw [ToutDiffuse, IpcServer.log_journal, diffuses_append]
      exact List.forall_mem_append.mpr ⟨htrace, fun e he => List.mem_singleton.mp he ▸ hevent⟩
    exact List.foldlRecOn _ _ hlogged fun c hc slot _ => hc.neutre (mettreEnFile_neutre event c slot)

/-- A response is no event. -/
theorem ToutDiffuse.traiterLigne (h : ToutDiffuse P a) (slot : Slot) :
    ToutDiffuse P (traiterLigne json app a slot) := by
  unfold AmlService.traiterLigne
  split
  swap
  · exact h
  obtain ⟨-, -, hjournal⟩ := @processBufferedMessage_repond _ json app slot a
  have hserved : ToutDiffuse P (processBufferedMessage json app slot a).2 := by
    rcases hjournal with hjournal | ⟨line, _, -, -, hjournal⟩ <;> rw [ToutDiffuse, hjournal]
    · exact h
    · rw [diffuses_append]
      exact (List.append_nil (diffuses a.journal)).symm ▸ h
  unfold ouFermer
  rcases hrun : processBufferedMessage json app slot a with ⟨reason | _, b⟩ <;> rw [hrun] at hserved
  · exact hserved.neutre (.modify_log b slot (fun _ => .libre) rfl)
  · exact hserved

theorem ToutDiffuse.appelerTick
    (hevents : ∀ task context, app.tick = some task → ∀ event ∈ (task context).events, P event)
    (h : ToutDiffuse P a) : ToutDiffuse P (appelerTick json app a) := by
  unfold AmlService.appelerTick
  split
  · exact h
  · next task htask =>
    have hcalled : ToutDiffuse P { a with context := (task a.context).context } := h
    have hall : ToutDiffuse P ((task a.context).events.foldl (ipcServerBroadcast json) _) :=
      List.foldlRecOn _ _ hcalled fun c hc event hevent => hc.broadcast (hevents task a.context htask event hevent)
    exact hall

/-- **What is broadcast is what the periodic task gives**, whether there is memory or not. -/
theorem ipcServerRun_broadcasts {start : IpcServer σ} (hstart : start.journal = [])
    (hevents : ∀ task context, app.tick = some task → ∀ event ∈ (task context).events, P event) (turns : Nat) :
    ToutDiffuse P (ipcServerRun json app start turns) := by
  have hstarts : ToutDiffuse P start := by
    rw [ToutDiffuse, hstart]
    exact fun _ hevent => by cases hevent
  refine ipcServerRun_invariant (fun b hb => ?_) hstarts turns
  have hbefore : ToutDiffuse P (avantLignes json app b).2 :=
    avantLignes_invariant (fun c hc => hc.neutre (arretDemandeLu_neutre c)) (fun c hc => hc.appelerTick hevents) hb
  rw [tour_eq]
  split
  · exact hbefore.neutre (arreter_neutre _)
  · have hlines : ToutDiffuse P (traiterLignes json app (avantLignes json app b).2) :=
      List.foldlRecOn _ _ hbefore fun c hc slot _ => hc.traiterLigne slot
    exact hlines.neutre (attendre_neutre _)

end Broadcast

/-! ### The states of the application -/

/-- The states of the application, with the events it has given since: each comes of a call of the
periodic task or of a command. -/
inductive Vecu (app : Application σ) (start : σ) : List JsonValue → σ → Prop
  | start : Vecu app start [] start
  | tick {task : σ → Tick σ} {events : List JsonValue} {context : σ} (h : app.tick = some task) :
      Vecu app start events context → Vecu app start (events ++ (task context).events) (task context).context
  | commande {events : List JsonValue} {context : σ} (demande : Demande) :
      Vecu app start events context → Vecu app start events (repondre app context demande).2

theorem Vecu.trans {app : Application σ} {start context later : σ} {events more : List JsonValue}
    (h : Vecu app start events context) (h' : Vecu app context more later) : Vecu app start (events ++ more) later := by
  induction h' with
  | start => exact (List.append_nil events).symm ▸ h
  | tick htask _ ih =>
    rw [← List.append_assoc]
    exact ih.tick htask
  | commande demande _ ih => exact ih.commande demande

/-- **The server went on**, with memory: its application took some steps, and the events broadcast are
those that it gave. -/
structure Deroule (app : Application σ) (a b : IpcServer σ) : Prop where
  memoire : MemoireDisponible b
  vecu : ∃ added, b.journal = a.journal ++ added ∧ Vecu app a.context (diffuses added) b.context

/-- Some events are broadcast. -/
structure Transmis (events : List JsonValue) (a b : IpcServer σ) : Prop where
  memoire : MemoireDisponible b
  context : b.context = a.context
  journal : ∃ added, b.journal = a.journal ++ added ∧ diffuses added = events

section Deroule

variable {json : JsonC} {app : Application σ} {slot : Slot} {a b c : IpcServer σ} {event : JsonValue}
  {events more : List JsonValue}

theorem Deroule.refl (h : MemoireDisponible a) : Deroule app a a := ⟨h, [], by simp, .start⟩

theorem Deroule.trans (h : Deroule app a b) (h' : Deroule app b c) : Deroule app a c := by
  obtain ⟨added, hjournal, hvecu⟩ := h.vecu
  obtain ⟨added', hjournal', hvecu'⟩ := h'.vecu
  refine ⟨h'.memoire, added ++ added', by rw [hjournal', hjournal, List.append_assoc], ?_⟩
  rw [diffuses_append]
  exact hvecu.trans hvecu'

theorem Neutre.memoire (h : Neutre a b) (hm : MemoireDisponible a) : MemoireDisponible b :=
  fun granted hgranted => hm granted (h.allocations.subset hgranted)

theorem Neutre.deroule (h : Neutre a b) (hm : MemoireDisponible a) : Deroule app a b := by
  obtain ⟨added, hjournal, hneutre⟩ := h.journal
  refine ⟨h.memoire hm, added, hjournal, ?_⟩
  rw [diffuses_neutre hneutre, h.context]
  exact .start

theorem Transmis.refl (hm : MemoireDisponible a) : Transmis [] a a := ⟨hm, rfl, [], by simp, rfl⟩

theorem Transmis.trans (h : Transmis events a b) (h' : Transmis more b c) : Transmis (events ++ more) a c := by
  obtain ⟨added, hjournal, hevents⟩ := h.journal
  obtain ⟨added', hjournal', hmore⟩ := h'.journal
  refine ⟨h'.memoire, h'.context.trans h.context, added ++ added', ?_, ?_⟩
  · rw [hjournal', hjournal, List.append_assoc]
  · rw [diffuses_append, hevents, hmore]

theorem Transmis.neutre (h : Transmis events a b) (h' : Neutre b c) : Transmis events a c := by
  obtain ⟨added, hjournal, hneutre⟩ := h'.journal
  have hquiet : Transmis [] b c := ⟨h'.memoire h.memoire, h'.context, added, hjournal, diffuses_neutre hneutre⟩
  exact List.append_nil events ▸ h.trans hquiet

/-- **An event broadcast**, when there is memory for it. -/
theorem broadcast_transmis (event : JsonValue) (hm : MemoireDisponible a) :
    Transmis [event] a (ipcServerBroadcast json a event) := by
  have hgranted : ∃ b, allouer a = (.ok (), b) ∧ SansTrace a b := by
    have htrace := allouer_sansTrace a
    unfold allouer at htrace ⊢
    split
    · exact ⟨a, rfl, refl_of SansTrace a⟩
    · next granted rest heq =>
      rw [heq] at htrace
      have htrue : granted = true := hm granted (heq ▸ List.mem_cons_self)
      exact ⟨_, by rw [htrue]; rfl, htrace⟩
  obtain ⟨b, halloc, htrace⟩ := hgranted
  unfold ipcServerBroadcast
  rw [halloc]
  have hlogged : Transmis [event] b (b.log (.broadcast event)) :=
    ⟨htrace.neutre.memoire hm, rfl, [.broadcast event], rfl, rfl⟩
  have hstart : Transmis [] a b := (Transmis.refl hm).neutre htrace.neutre
  exact List.foldlRecOn _ _ (hstart.trans hlogged) fun c hc slot _ => hc.neutre (mettreEnFile_neutre event c slot)

theorem broadcasts_transmis (events : List JsonValue) (hm : MemoireDisponible a) :
    Transmis events a (events.foldl (ipcServerBroadcast json) a) := by
  induction events generalizing a with
  | nil => exact .refl hm
  | cons event events ih =>
    have hfirst := @broadcast_transmis _ json a event hm
    exact hfirst.trans (ih hfirst.memoire)

theorem appelerTick_deroule (hm : MemoireDisponible a) : Deroule app a (appelerTick json app a) := by
  unfold appelerTick
  split
  · exact .refl hm
  · next task htask =>
    have hcalled := @broadcasts_transmis _ json { a with context := (task a.context).context }
      (task a.context).events hm
    obtain ⟨added, hjournal, hevents⟩ := hcalled.journal
    refine ⟨hcalled.memoire, added, hjournal, ?_⟩
    rw [hevents]
    exact hcalled.context ▸ Vecu.start.tick htask

/-- **A line worked off**: its response is no event. -/
theorem traiterLigne_deroule (hm : MemoireDisponible a) (slot : Slot) :
    Deroule app a (traiterLigne json app a slot) := by
  unfold traiterLigne
  split
  swap
  · exact .refl hm
  obtain ⟨hcontext, hallocations, hjournal⟩ := @processBufferedMessage_repond _ json app slot a
  have hserved : Deroule app a (processBufferedMessage json app slot a).2 := by
    have hvecu : Vecu app a.context [] (processBufferedMessage json app slot a).2.context := by
      rcases hcontext with hcontext | ⟨demande, hcontext⟩ <;> rw [hcontext]
      · exact .start
      · exact Vecu.start.commande demande
    refine ⟨fun granted hgranted => hm granted (hallocations.subset hgranted), ?_⟩
    rcases hjournal with hjournal | ⟨line, _, -, -, hjournal⟩
    · exact ⟨[], by rw [hjournal, List.append_nil], hvecu⟩
    · exact ⟨_, hjournal, hvecu⟩
  unfold ouFermer
  rcases hrun : processBufferedMessage json app slot a with ⟨reason | _, b⟩ <;> rw [hrun] at hserved
  · exact hserved.trans ((Neutre.modify_log b slot (fun _ => .libre) rfl).deroule hserved.memoire)
  · exact hserved

theorem foldl_traiterLigne_deroule (slots : List Slot) (hm : MemoireDisponible a) :
    Deroule app a (slots.foldl (traiterLigne json app) a) :=
  List.foldlRecOn _ _ (.refl hm) fun _ hb slot _ => hb.trans (traiterLigne_deroule hb.memoire slot)

/-- The beginning of a turn. -/
theorem avantLignes_deroule (hm : MemoireDisponible a) : Deroule app a (avantLignes json app a).2 := by
  exact avantLignes_invariant (I := Deroule app a)
    (fun b hb => hb.trans ((arretDemandeLu_neutre b).deroule hb.memoire))
    (fun b hb => hb.trans (appelerTick_deroule hb.memoire)) (.refl hm)

theorem avantLigne_deroule (hm : MemoireDisponible a) : Deroule app a (avantLigne json app slot a) := by
  have hbefore := @avantLignes_deroule _ json app a hm
  exact hbefore.trans (foldl_traiterLigne_deroule _ hbefore.memoire)

/-- The rest of a turn that goes on. -/
theorem deroule_avantLigne (hm : MemoireDisponible a) (hgoes : (avantLignes json app a).1 = false) :
    Deroule app (avantLigne json app slot a) (tour json app a) := by
  have hhere := (@avantLigne_deroule _ json app slot a hm).memoire
  have hlines : Deroule app (avantLigne json app slot a) (traiterLignes json app (avantLignes json app a).2) := by
    have hsplit : traiterLignes json app (avantLignes json app a).2 =
        ((List.finRange ipcServerMaxClients).drop slot).foldl (traiterLigne json app) (avantLigne json app slot a) := by
      rw [avantLigne, ← List.foldl_append, List.take_append_drop]
      rfl
    rw [hsplit]
    exact foldl_traiterLigne_deroule _ hhere
  rw [tour_eq, hgoes, if_neg Bool.false_ne_true]
  exact hlines.trans ((attendre_neutre _).deroule hlines.memoire)

/-- **One turn.** -/
theorem tour_deroule (hm : MemoireDisponible a) : Deroule app a (tour json app a) := by
  have hbefore := @avantLignes_deroule _ json app a hm
  rw [tour_eq]
  split
  · exact hbefore.trans ((arreter_neutre _).deroule hbefore.memoire)
  · have hlines := hbefore.trans
      (@foldl_traiterLigne_deroule _ json app _ (List.finRange ipcServerMaxClients) hbefore.memoire)
    exact hlines.trans ((attendre_neutre _).deroule hlines.memoire)

/-- **A run**, from an earlier turn on. -/
theorem ipcServerRun_deroule {start : IpcServer σ} (hm : MemoireDisponible start) (turn more : Nat) :
    Deroule app (ipcServerRun json app start turn) (ipcServerRun json app start (turn + more)) := by
  have hrun : ∀ turns, Deroule app start (ipcServerRun json app start turns) := fun turns =>
    ipcServerRun_invariant (fun b hb => hb.trans (tour_deroule hb.memoire)) (.refl hm) turns
  have hsplit : ipcServerRun json app start (turn + more) =
      ipcServerRun json app (ipcServerRun json app start turn) more := by
    rw [Nat.add_comm]
    exact Function.iterate_add_apply (tour json app) more turn start
  rw [hsplit]
  exact ipcServerRun_invariant (fun b hb => hb.trans (tour_deroule hb.memoire)) (.refl (hrun turn).memoire) more

/-- **A line of a run**: the application went on from the start to it, and from it to the end. -/
theorem Traitee.deroule {start server : IpcServer σ} {turns : Nat} {line : List UInt8} {response : JsonValue}
    (h : Traitee json app start turns slot line response server) (hm : MemoireDisponible start) :
    Deroule app start server ∧ Deroule app server (ipcServerRun json app start turns) := by
  obtain ⟨turn, hlt, hgoes, rfl⟩ := h.moment
  obtain ⟨more, rfl⟩ := Nat.exists_eq_add_of_lt hlt
  have hstart : Deroule app start (ipcServerRun json app start turn) := by
    have hrun := @ipcServerRun_deroule _ json app start hm 0 turn
    rwa [Nat.zero_add] at hrun
  have hrest : Deroule app (tour json app (ipcServerRun json app start turn))
      (ipcServerRun json app start (turn + more + 1)) := by
    have hnext : ipcServerRun json app start (turn + 1) = tour json app (ipcServerRun json app start turn) :=
      Function.iterate_succ_apply' (tour json app) turn start
    have hrun := @ipcServerRun_deroule _ json app start hm (turn + 1) more
    rwa [hnext, Nat.add_right_comm] at hrun
  exact ⟨hstart.trans (avantLigne_deroule hstart.memoire), (deroule_avantLigne hstart.memoire hgoes).trans hrest⟩

end Deroule

/-! ### A client that has subscribed -/

section Abonne

variable {json : JsonC} {slot : Slot} {line : List UInt8}

theorem liaison_vide (journal : List IpcObs) : (liaison json slot journal).lines = [] →
    (liaison json slot journal).queued = [] ∧ (liaison json slot journal).subscribed = false := by
  induction journal using List.reverseRecOn with
  | nil => exact fun _ => ⟨rfl, rfl⟩
  | append_singleton journal o ih =>
    rw [liaison_log]
    cases o with
    | accepted s fd =>
      rw [Liaison.step]
      split
      · exact fun _ => ⟨rfl, rfl⟩
      · exact ih
    | received s bytes | sent s bytes =>
      rw [Liaison.step]
      split <;> exact ih
    | processed s line response =>
      rw [Liaison.step]
      split
      · intro h
        simp at h
      · exact ih
    | broadcast event =>
      rw [Liaison.step]
      split
      · next hsubscribed =>
        intro h
        rw [(ih h).2] at hsubscribed
        cases hsubscribed
      · exact ih
    | closed s reason => exact ih

/-- **After its subscription**, a client that asks for nothing else is queued the events broadcast from
then on, each once and in their order. -/
theorem liaison_abonnee (hline : demandeAbonnement json line = true) (journal : List IpcObs) :
    (liaison json slot journal).lines = [line] → (liaison json slot journal).subscribed = true ∧
      ∃ before response after, journal = before ++ .processed slot line response :: after ∧
        (liaison json slot journal).queued = response :: diffuses after := by
  induction journal using List.reverseRecOn with
  | nil => exact fun h => by cases h
  | append_singleton journal o ih =>
    rw [liaison_log]
    -- an entry that changes neither the lines nor what is queued, and is no event
    have hsame : diffuses [o] = [] → (liaison json slot journal).lines = [line] →
        (liaison json slot journal).subscribed = true ∧ ∃ before response after,
          journal ++ [o] = before ++ .processed slot line response :: after ∧
            (liaison json slot journal).queued = response :: diffuses after := by
      intro hquiet h
      obtain ⟨hsubscribed, before, response, after, hjournal, hqueued⟩ := ih h
      refine ⟨hsubscribed, before, response, after ++ [o], by rw [hjournal]; simp, ?_⟩
      unfold diffuses at hquiet hqueued ⊢
      rw [List.filterMap_append, hquiet, List.append_nil]
      exact hqueued
    cases o with
    | accepted s fd =>
      rw [Liaison.step]
      split
      · exact fun h => by cases h
      · exact hsame rfl
    | received s bytes | sent s bytes =>
      rw [Liaison.step]
      split <;> exact hsame rfl
    | processed s worked response =>
      rw [Liaison.step]
      split
      · next hs =>
        intro h
        have h : (liaison json slot journal).lines ++ [worked] = [line] := h
        obtain ⟨hnone, hone⟩ := List.append_inj' (show _ ++ [worked] = [] ++ [line] from h) rfl
        obtain ⟨hempty, -⟩ := liaison_vide journal hnone
        obtain rfl : worked = line := by simpa using hone
        subst hs
        refine ⟨by simp [hline], journal, response, [], rfl, ?_⟩
        show (liaison json s journal).queued ++ [response] = _
        rw [hempty]
        rfl
      · exact hsame rfl
    | broadcast event =>
      rw [Liaison.step]
      split
      · intro h
        obtain ⟨hsubscribed, before, response, after, hjournal, hqueued⟩ := ih h
        refine ⟨hsubscribed, before, response, after ++ [.broadcast event], by rw [hjournal]; simp, ?_⟩
        show (liaison json slot journal).queued ++ [event] = _
        rw [hqueued]
        simp [diffuses]
      · next hnot =>
        intro h
        exact absurd (ih h).1 hnot
    | closed s reason => exact hsame rfl

end Abonne

end AmlService
