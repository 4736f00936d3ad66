import AmlService.Ipc.ClientFate
import Mathlib.Data.List.TakeWhile

/-!
# AmlService.Ipc.LongLines

How long a line may be. A buffer is found full before the server looks for more bytes: a
line of 4096 bytes fills it without its newline, and its client is disconnected, although
the limit is meant to allow it (`IPC_SERVER_MAX_MESSAGE`) and `ctl.c` sends such a line.

Each turn in which the kernel lets the server get on with a client that waits brings some
of its bytes, so that it does not wait forever; what it comes to then depends on the
length of its line alone.
-/

namespace AmlService

open Effect

variable {σ : Type}

section Line

variable {slot : Slot} {fd : Nat} {line : List UInt8} {a s : IpcServer σ} {json : JsonC} {app : Application σ}

/-! ### A turn in which the client is served -/

/-- The next `recv` gives bytes. -/
def fournit : List IpcRecv → Bool
  | .bytes (_ :: _) :: _ => true
  | _ => false

/-- The server when it comes to the descriptor `fd` among those polled. -/
def avantService (fd : Nat) (revents : Nat → Revents) (polled : List (Nat × Bool)) (server : IpcServer σ) :
    IpcServer σ :=
  (polled.takeWhile fun p => p.1 ≠ fd).foldl (servirFd revents) server

/-- From the lines on, the server gets on with the client: nothing is left to be sent to it and,
unless its line is there already, `poll` finds it readable and its bytes come. -/
def serviEnsuite (json : JsonC) (app : Application σ) (slot : Slot) (fd : Nat) (server : IpcServer σ) : Bool :=
  (server.clients slot).output.isEmpty &&
    ((server.clients slot).input.contains newline ||
      let server := traiterLignes json app server
      match server.noyau.polls with
      | .ready listen revents :: polls =>
        let pret := avantService fd revents (pollFds server)
          (accueillir listen { server with noyau := { server.noyau with polls } })
        (revents fd).pollin && !(revents fd).pollerr && !(revents fd).pollnval && fournit pret.noyau.recvs
      | _ => false)

/-- The kernel lets the server get on with the client in this turn. -/
def servi (json : JsonC) (app : Application σ) (slot : Slot) (fd : Nat) (server : IpcServer σ) : Bool :=
  serviEnsuite json app slot fd (avantLignes json app server).2

/-- A line found in the buffer is the end of the waiting. -/
theorem traiterLigne_attend {i : Slot} (hline : newline ∉ line) (hdepuis : a.journal <+: s.journal)
    (hbefore : Attend slot fd a s) (hwait : Attend slot fd a (traiterLigne json app s i))
    (hsent : (connexion slot a (traiterLigne json app s i)).received <+: line ++ [newline]) :
    (traiterLigne json app s i).clients slot = s.clients slot := by
  by_cases hi : i = slot
  swap
  · exact traiterLigne_other s (Ne.symm hi)
  subst hi
  unfold traiterLigne at hwait hsent ⊢
  split at hwait
  swap
  · next hbusy => rw [if_neg hbusy]
  next hready =>
  rw [if_pos hready] at hsent ⊢
  unfold ouFermer at hwait hsent ⊢
  rcases hm : processBufferedMessage json app i s with ⟨reason | processed, b⟩ <;> rw [hm] at hwait hsent
  · have hfd := hwait.fd
    rw [clientReset_same] at hfd
    cases hfd
  · cases processed with
    | false => rw [processBufferedMessage_false hm]
    | true =>
      have hregle := processBufferedMessage_regle hdepuis hbefore hline hm hsent
      exact absurd hregle hwait.not_regle

theorem traiterLignes_attend (hline : newline ∉ line) (h : Devenir slot fd line a s)
    (hwait : Attend slot fd a (traiterLignes json app s))
    (hsent : (connexion slot a (traiterLignes json app s)).received <+: line ++ [newline]) :
    (traiterLignes json app s).clients slot = s.clients slot := by
  suffices hrun : Devenir slot fd line a (traiterLignes json app s) ∧
      (Attend slot fd a (traiterLignes json app s) →
        (connexion slot a (traiterLignes json app s)).received <+: line ++ [newline] →
          (traiterLignes json app s).clients slot = s.clients slot) from hrun.2 hwait hsent
  refine List.foldlRecOn _ _ (motive := fun b => Devenir slot fd line a b ∧ (Attend slot fd a b →
    (connexion slot a b).received <+: line ++ [newline] → b.clients slot = s.clients slot))
    ⟨h, fun _ _ => rfl⟩ ?_
  rintro b ⟨hb, hsame⟩ i _
  have hpas : Pas slot fd line a b (traiterLigne json app b i) := traiterLigne_pas hline b i
  refine ⟨hpas.devenir hb, fun hwait hsent => ?_⟩
  have hbefore := hb.attend hpas.journal hsent hwait
  have hpart := (connexion_suit slot hb.depuis hpas.journal).received.trans hsent
  rw [traiterLigne_attend hline hb.depuis hbefore hwait hsent, hsame hbefore hpart]

theorem readClient_recoit {s b : IpcServer σ} {u : Unit} (h : readClient slot s = (.ok u, b))
    (hfournit : fournit s.noyau.recvs = true) :
    ∃ byte bytes, b.journal = s.journal ++ [.received slot (byte :: bytes)] := by
  unfold readClient at h
  dsimp only at h
  split at h
  · cases h
  next hroom =>
  split at h
  · next hdry => simp [fournit, hdry] at hfournit
  next outcome recvs hrecvs =>
  rcases outcome with (_ | ⟨byte, chunk⟩) | _ | _
  · cases h
  · obtain ⟨-, rfl⟩ := Prod.mk.inj h
    have hpos : 0 < (s.clients slot).capacity :=
      Nat.lt_min.mpr ⟨Nat.sub_pos_of_lt (Nat.not_le.mp hroom), by decide⟩
    obtain ⟨count, hcount⟩ := Nat.exists_eq_succ_of_ne_zero hpos.ne'
    refine ⟨byte, chunk.take count, ?_⟩
    show s.journal ++ [.received slot ((byte :: chunk).take (s.clients slot).capacity)] = _
    rw [hcount, List.take_succ_cons]
  · simp [fournit, hrecvs] at hfournit
  · simp [fournit, hrecvs] at hfournit

/-- **Served**, a client that still waits has been received from. -/
theorem servirFd_recoit {revents : Nat → Revents} (h : Rangee json s) (hdepuis : a.journal <+: s.journal)
    (hbefore : Attend slot fd a s) (harme : Arme s (fd, false)) (hpollin : (revents fd).pollin = true)
    (hpollerr : (revents fd).pollerr = false) (hpollnval : (revents fd).pollnval = false)
    (hfournit : fournit s.noyau.recvs = true) (hwait : Attend slot fd a (servirFd revents s (fd, false))) :
    (connexion slot a s).received.length <
      (connexion slot a (servirFd revents s (fd, false))).received.length := by
  obtain ⟨hempty, -⟩ := harme rfl slot hbefore.fd
  have hfind : ((List.finRange ipcServerMaxClients).find? fun i => (s.clients i).fd = some fd) = some slot := by
    rcases hi : (List.finRange ipcServerMaxClients).find? fun i => (s.clients i).fd = some fd with _ | i
    · have hnot := List.find?_eq_none.mp hi slot (List.mem_finRange slot)
      simp [hbefore.fd] at hnot
    · have hfd : (s.clients i).fd = some fd := by simpa using List.find?_some hi
      rw [h.distincts i slot fd hfd hbefore.fd]
  unfold servirFd at hwait ⊢
  rw [hfind] at hwait ⊢
  dsimp only at hwait ⊢
  unfold ouFermer at hwait ⊢
  rcases hm : servirClient slot ((revents fd).asked false) s with ⟨reason | u, b⟩ <;> rw [hm] at hwait
  · have hfd := hwait.fd
    rw [clientReset_same] at hfd
    cases hfd
  rw [servirClient, if_neg (by simp [Revents.asked, hpollerr, hpollnval])] at hm
  obtain ⟨_, c, hread, hrest⟩ := bind_run_inv hm
  rw [lireSiPret, bind_run_ok (get_run s), if_pos ⟨by simp [Revents.asked, hpollin], hempty⟩] at hread
  obtain ⟨byte, bytes, hjournal⟩ := readClient_recoit hread hfournit
  have hreceived : (connexion slot a c).received = (connexion slot a s).received ++ byte :: bytes := by
    rw [connexion_append slot hdepuis hjournal]
    simp [Connexion.step, hbefore.closed]
  -- what is sent afterwards takes nothing back
  have hafter : Keeps (Lit slot) (do
      ecrireSiPret slot ((revents fd).asked false)
      if ((revents fd).asked false).pollhup && !((revents fd).asked false).pollin then throw .raccroche
      else return () : IpcM σ Unit) :=
    .bind (permet_lit.ecrireSiPret _) fun _ => .ite (fun _ => .throw _) fun _ => .pure _
  have hlit : Lit slot c b := by
    have hlit := hafter c
    rwa [hrest] at hlit
  have hsuit := connexion_suit slot (hdepuis.trans ⟨_, hjournal.symm⟩) hlit.journal
  have hlength := hsuit.received.length_le
  rw [hreceived, List.length_append, List.length_cons] at hlength
  show _ < (connexion slot a b).received.length
  omega

theorem servir_arme {revents : Nat → Revents} {polled : List (Nat × Bool)} {other : Nat × Bool}
    (hother : other.1 ∉ polled.map Prod.fst) (harme : Arme s other) :
    Arme (polled.foldl (servirFd revents) s) other := by
  refine List.foldlRecOn polled _ (motive := fun b => Arme b other) harme fun b hb p hp => ?_
  exact servirFd_arme (fun heq => hother (heq ▸ List.mem_map_of_mem hp)) hb

/-- Others are served before and after. -/
theorem servir_recoit {revents : Nat → Revents} {before later : List (Nat × Bool)}
    (hnodup : ((before ++ (fd, false) :: later).map Prod.fst).Nodup) (hflux : Flux json s)
    (harme : ∀ p ∈ before ++ (fd, false) :: later, Arme s p) (h : Devenir slot fd line a s)
    (hpollin : (revents fd).pollin = true) (hpollerr : (revents fd).pollerr = false)
    (hpollnval : (revents fd).pollnval = false)
    (hfournit : fournit (before.foldl (servirFd revents) s).noyau.recvs = true)
    (hsent : (connexion slot a ((before ++ (fd, false) :: later).foldl (servirFd revents) s)).received <+:
      line ++ [newline])
    (hwait : Attend slot fd a ((before ++ (fd, false) :: later).foldl (servirFd revents) s)) :
    (connexion slot a s).received.length <
      (connexion slot a ((before ++ (fd, false) :: later).foldl (servirFd revents) s)).received.length := by
  rw [List.map_append, List.map_cons, List.nodup_append, List.nodup_cons] at hnodup
  obtain ⟨hnodup, ⟨hfd, hnodup'⟩, hdisjoint⟩ := hnodup
  have harmes : ∀ p ∈ before, Arme s p := fun p hp => harme p (by simp [hp])
  rw [List.foldl_append, List.foldl_cons] at hsent hwait ⊢
  have hpas : Pas slot fd line a s (before.foldl (servirFd revents) s) := servir_pas hnodup harmes
  have hrangee : Rangee json (before.foldl (servirFd revents) s) := (servir_flux hnodup hflux harmes).toRangee
  have harmed : ∀ p ∈ (fd, false) :: later, Arme (before.foldl (servirFd revents) s) p := by
    intro p hp
    refine servir_arme (fun hmem => ?_) (harme p (List.mem_append_right _ hp))
    exact hdisjoint p.1 hmem p.1 (List.mem_map_of_mem (f := Prod.fst) hp) rfl
  generalize before.foldl (servirFd revents) s = b at hpas hrangee harmed hfournit hsent hwait ⊢
  have harme' := harmed _ List.mem_cons_self
  have hserved : Pas slot fd line a b (servirFd revents b (fd, false)) := servirFd_pas harme'
  have hafter : Pas slot fd line a (servirFd revents b (fd, false))
      (later.foldl (servirFd revents) (servirFd revents b (fd, false))) := by
    refine servir_pas hnodup' fun p hp => servirFd_arme ?_ (harmed p (List.mem_cons_of_mem _ hp))
    exact fun heq => hfd (heq ▸ List.mem_map_of_mem hp)
  have hb := hpas.devenir h
  have hc := hserved.devenir hb
  have hwaited := hc.attend hafter.journal hsent hwait
  have hpart := (connexion_suit slot hc.depuis hafter.journal).received.trans hsent
  have hgrows := servirFd_recoit hrangee hb.depuis (hb.attend hserved.journal hpart hwaited) harme' hpollin
    hpollerr hpollnval hfournit hwaited
  have hstart := (connexion_suit slot h.depuis hpas.journal).received.length_le
  have hend := (connexion_suit slot hc.depuis hafter.journal).received.length_le
  omega

/-- Where the descriptor of a client with nothing to be sent stands among those polled. -/
theorem pollFds_split (h : Rangee json s) (hfd : (s.clients slot).fd = some fd)
    (hempty : (s.clients slot).output.length = 0) :
    ∃ later, pollFds s = (pollFds s).takeWhile (fun p => p.1 ≠ fd) ++ (fd, false) :: later := by
  have hmem : (fd, false) ∈ pollFds s :=
    List.mem_filterMap.mpr ⟨slot, List.mem_finRange slot, by simp [hfd, hempty]⟩
  rcases hdrop : (pollFds s).dropWhile (fun p => p.1 ≠ fd) with _ | ⟨first, later⟩
  · have hall := List.dropWhile_eq_nil_iff.mp hdrop (fd, false) hmem
    simp at hall
  refine ⟨later, ?_⟩
  have hfirst : first.1 = fd := by
    have hhead := List.head?_dropWhile_not (fun p : Nat × Bool => decide (p.1 ≠ fd)) (pollFds s)
    rw [hdrop] at hhead
    simpa using hhead
  have hin : first ∈ pollFds s := (List.dropWhile_sublist _).subset (hdrop ▸ List.mem_cons_self)
  obtain rfl : first = (fd, false) := by
    obtain ⟨i, -, hi⟩ := List.mem_filterMap.mp hin
    obtain ⟨other, hother, rfl⟩ := Option.map_eq_some_iff.mp hi
    obtain rfl : other = fd := hfirst
    obtain rfl := h.distincts i slot other hother hfd
    simp [hempty]
  rw [← hdrop, List.takeWhile_append_dropWhile]

theorem apresLignes_recoit (hline : newline ∉ line) (hflux : Flux json s) (h : Devenir slot fd line a s)
    (hservi : serviEnsuite json app slot fd s = true)
    (hsent : (connexion slot a (attendre (traiterLignes json app s))).received <+: line ++ [newline])
    (hwait : Attend slot fd a (attendre (traiterLignes json app s))) :
    (connexion slot a s).received.length <
      (connexion slot a (attendre (traiterLignes json app s))).received.length := by
  have hpas : Pas slot fd line a s (traiterLignes json app s) := traiterLignes_pas hline s
  have hlines : Flux json (traiterLignes json app s) := traiterLignes_flux hflux
  have hnone : ∀ i, SansLigne i (traiterLignes json app s) := traiterLignes_sansLigne app s
  have hafter : Pas slot fd line a (traiterLignes json app s) _ := attendre_pas hlines hnone
  have ht := hpas.devenir h
  have hwaited := ht.attend hafter.journal hsent hwait
  have hpart := (connexion_suit slot ht.depuis hafter.journal).received.trans hsent
  have hsame := traiterLignes_attend hline h hwaited hpart
  rw [serviEnsuite, ← hsame, Bool.and_eq_true, Bool.or_eq_true] at hservi
  obtain ⟨hempty, hservi⟩ := hservi
  have hempty : ((traiterLignes json app s).clients slot).output.length = 0 := by simpa using hempty
  have hstart := (connexion_suit slot h.depuis hpas.journal).received.length_le
  generalize traiterLignes json app s = t at *
  -- no line is left, so that the bytes have come
  have hunfinished := hnone slot (by simp [hwaited.fd]) hempty
  have hpolled := hservi.resolve_left (by simpa using hunfinished)
  dsimp only at hpolled
  split at hpolled
  swap
  · cases hpolled
  next listen revents polls hpolls =>
  simp only [Bool.and_eq_true, Bool.not_eq_true'] at hpolled
  obtain ⟨⟨⟨hpollin, hpollerr⟩, hpollnval⟩, hfournit⟩ := hpolled
  rw [attendre_ready hpolls] at hsent hwait ⊢
  obtain ⟨hwelcome, harme⟩ := accueillir_flux listen polls hlines hnone
  have hwelcomed : Pas slot fd line a t _ := accueillir_pas listen polls t
  have hnodup := pollFds_nodup hlines.toRangee
  obtain ⟨later, hsplit⟩ := pollFds_split hlines.toRangee hwaited.fd hempty
  unfold avantService at hfournit
  generalize (pollFds t).takeWhile (fun p => p.1 ≠ fd) = before at hsplit hfournit
  rw [hsplit] at hnodup harme hsent hwait ⊢
  have hgrows := servir_recoit hnodup hwelcome harme (hwelcomed.devenir ht) hpollin hpollerr hpollnval hfournit
    hsent hwait
  have hnext := (connexion_suit slot ht.depuis hwelcomed.journal).received.length_le
  omega

/-- **A turn in which the client is served** brings some of its bytes, if it still waits. -/
theorem tour_recoit (hline : newline ∉ line) (hflux : Flux json s) (h : Devenir slot fd line a s)
    (hservi : servi json app slot fd s = true)
    (hsent : (connexion slot a (tour json app s)).received <+: line ++ [newline])
    (hwait : Attend slot fd a (tour json app s)) :
    (connexion slot a s).received.length < (connexion slot a (tour json app s)).received.length := by
  have hpas : Pas slot fd line a s (avantLignes json app s).2 := avantLignes_pas s
  have hbefore : Flux json (avantLignes json app s).2 := avantLignes_flux hflux
  rw [tour_eq] at hsent hwait ⊢
  split at hwait
  · have hfd := hwait.fd
    rw [arreter_fd] at hfd
    cases hfd
  next hgoes =>
  rw [if_neg hgoes] at hsent ⊢
  have hgrows := apresLignes_recoit hline hbefore (hpas.devenir h) hservi hsent hwait
  have hstart := (connexion_suit slot h.depuis hpas.journal).received.length_le
  omega

/-! ### A run -/

theorem ipcServerRun_succ (s : IpcServer σ) (n : Nat) :
    ipcServerRun json app s (n + 1) = tour json app (ipcServerRun json app s n) :=
  Function.iterate_succ_apply' (tour json app) n s

theorem ipcServerRun_devenir (hline : newline ∉ line) (h : Flux json a) (hfd : (a.clients slot).fd = some fd)
    (hidle : (a.clients slot).input = []) (n : Nat) : Devenir slot fd line a (ipcServerRun json app a n) := by
  induction n with
  | zero =>
    have hwait : Attend slot fd a a := ⟨hfd, by simpa [Connexion.debut] using hidle, by simp [Connexion.debut],
      by simp [Connexion.debut]⟩
    exact ⟨List.prefix_rfl, fun _ => .inl hwait⟩
  | succ n ih =>
    rw [ipcServerRun_succ]
    exact (tour_pas hline (ipcServerRun_flux h n)).devenir ih

/-- The client gets on: it is served, or it waits no longer. -/
def avance (json : JsonC) (app : Application σ) (slot : Slot) (fd : Nat) (a s : IpcServer σ) : Bool :=
  !(connexion slot a s).enAttente || servi json app slot fd s

theorem tour_avance (hline : newline ∉ line) (hflux : Flux json s) (h : Devenir slot fd line a s)
    (hsent : (connexion slot a (tour json app s)).received <+: line ++ [newline])
    (hwait : Attend slot fd a (tour json app s)) :
    (Attend slot fd a s ∧ (connexion slot a s).received <+: line ++ [newline]) ∧
      (connexion slot a s).received.length + (if avance json app slot fd a s then 1 else 0) ≤
        (connexion slot a (tour json app s)).received.length := by
  have hpas : Pas slot fd line a s (tour json app s) := tour_pas hline hflux
  have hbefore := h.attend hpas.journal hsent hwait
  have hsuit := connexion_suit slot h.depuis hpas.journal
  refine ⟨⟨hbefore, hsuit.received.trans hsent⟩, ?_⟩
  split
  · next havance =>
    have hservi : servi json app slot fd s = true := by
      simpa [avance, Connexion.enAttente, hbefore.processed, hbefore.closed] using havance
    exact tour_recoit hline hflux h hservi hsent hwait
  · exact hsuit.received.length_le

/-- **It does not wait forever**: no more turns than it has bytes to send, and one for its line. -/
theorem ipcServerRun_regle {turns : Nat} (hline : newline ∉ line) (h : Flux json a)
    (hfd : (a.clients slot).fd = some fd) (hidle : (a.clients slot).input = [])
    (hsent : (connexion slot a (ipcServerRun json app a turns)).received <+: line ++ [newline])
    (hserved : line.length + 2 ≤
      (List.range turns).countP fun i => avance json app slot fd a (ipcServerRun json app a i)) :
    Regle line (connexion slot a (ipcServerRun json app a turns)) := by
  have hdevenir : ∀ n, Devenir slot fd line a (ipcServerRun json app a n) :=
    ipcServerRun_devenir hline h hfd hidle
  refine ((hdevenir turns).devenir hsent).resolve_left fun hwait => ?_
  have hcount := @Run.count_le_measure _ (tour json app)
    (fun s => Attend slot fd a s ∧ (connexion slot a s).received <+: line ++ [newline])
    (fun s => (connexion slot a s).received.length) (avance json app slot fd a) a ?_ turns ⟨hwait, hsent⟩
  · have hlength := hsent.length_le
    rw [List.length_append, List.length_singleton] at hlength
    unfold ipcServerRun at hserved hlength
    omega
  · intro n
    rw [Function.iterate_succ_apply']
    rintro ⟨hwait, hsent⟩
    exact tour_avance hline (ipcServerRun_flux h n) (hdevenir n) hsent hwait

end Line

/-! ### The limit -/

/-- A state of the server, after any number of turns. -/
def Atteint (json : JsonC) (app : Application σ) (server : IpcServer σ) : Prop :=
  ∃ context noyau turns, ipcServerRun json app (ipcServerInit context noyau) turns = server

/-- From `a` on, in so many turns, a connected client of which nothing is pending sends a line and
nothing else, the server gets on with it long enough, and it is not lost before its answer: neither
by itself, nor for want of memory or of room for the response, nor because the server stops. -/
structure Envoi (json : JsonC) (app : Application σ) (slot : Slot) (fd : Nat) (line : List UInt8)
    (a : IpcServer σ) (turns : Nat) : Prop where
  atteint : Atteint json app a
  connecte : (a.clients slot).fd = some fd
  rien : (a.clients slot).input = []
  ligne : newline ∉ line
  envoye : (connexion slot a (ipcServerRun json app a turns)).received <+: line ++ [newline]
  servi : line.length + 2 ≤
    (List.range turns).countP fun i => avance json app slot fd a (ipcServerRun json app a i)
  garde : (connexion slot a (ipcServerRun json app a turns)).processed = [] →
    ∀ reason, (connexion slot a (ipcServerRun json app a turns)).closed = some reason → reason = .tamponPlein

/-- The request as `ctl.c` sends it, if it does: with its newline, it is to fit in its buffer. -/
def ctlMessage (request : List UInt8) : Option (List UInt8) :=
  let message := request ++ [newline]
  if message.length ≥ ipcServerMaxMessage + 2 then none else some message

/-- What is promised of a line: it is worked off and its response queued if it has at most 4096
bytes, and otherwise its client is disconnected with no part of it worked off; what `ctl.c` sends is
worked off. -/
structure LigneTenue (line : List UInt8) (c : Connexion) : Prop where
  traitee : (∃ response, (line, response) ∈ c.processed) ↔ line.length ≤ ipcServerMaxMessage
  refusee : ipcServerMaxMessage < line.length → c.closed = some .tamponPlein ∧ c.processed = []
  ctl : ∀ message, ctlMessage line = some message → ∃ response, (line, response) ∈ c.processed

theorem ctlMessage_length {line message : List UInt8} (h : ctlMessage line = some message) :
    line.length ≤ ipcServerMaxMessage := by
  unfold ctlMessage at h
  dsimp only at h
  split at h
  · cases h
  next hfits =>
  rw [List.length_append, List.length_singleton] at hfits
  omega

/-- **A line is kept to its promise** unless it has 4096 bytes exactly, whatever else the server does
meanwhile and however the bytes come. -/
theorem ligneTenue_iff {json : JsonC} {app : Application σ} {slot : Slot} {fd : Nat} {line : List UInt8}
    {a : IpcServer σ} {turns : Nat} (h : Envoi json app slot fd line a turns) :
    LigneTenue line (connexion slot a (ipcServerRun json app a turns)) ↔ line.length ≠ ipcServerMaxMessage := by
  have hflux : Flux json a := by
    obtain ⟨context, noyau, before, rfl⟩ := h.atteint
    exact ipcServerRun_flux (ipcServerInit_flux context noyau) before
  have hregle := ipcServerRun_regle h.ligne hflux h.connecte h.rien h.envoye h.servi
  have hgarde := h.garde
  generalize connexion slot a (ipcServerRun json app a turns) = c at hregle hgarde ⊢
  rcases hregle with ⟨⟨response, later, hprocessed⟩, hshort⟩ | ⟨hprocessed, reason, hclosed, hplein⟩
  · -- worked off: it is shorter
    have hdone : ∃ response, (line, response) ∈ c.processed := ⟨response, by simp [hprocessed]⟩
    refine iff_of_true ⟨⟨fun _ => hshort.le, fun _ => hdone⟩, ?_, fun _ _ => hdone⟩ hshort.ne
    exact fun hlong => absurd hshort hlong.not_gt
  · -- disconnected: it is not, and 4096 bytes are promised to be worked off
    obtain rfl := hgarde hprocessed reason hclosed
    have hlong := hplein rfl
    have hnone : ¬ ∃ response, (line, response) ∈ c.processed := by simp [hprocessed]
    constructor
    · intro htenue hlength
      exact hnone (htenue.traitee.mpr hlength.le)
    · intro hne
      have hlonger := lt_of_le_of_ne hlong hne.symm
      refine ⟨⟨fun hdone => absurd hdone hnone, fun hle => absurd hle hlonger.not_ge⟩, ?_, ?_⟩
      · exact fun _ => ⟨hclosed, hprocessed⟩
      · exact fun message hmessage => absurd (ctlMessage_length hmessage) hlonger.not_ge

/-! ### A lone client -/

/-- json-c, when it reads nothing. -/
def jsonMuet : JsonC := ⟨fun _ => none, fun _ => [], fun _ => List.not_mem_nil⟩

/-- An application that does nothing. -/
def sansTache : Application Unit := ⟨none, none⟩

/-- Whatever is polled for reading is readable. -/
def lisible (_ : Nat) : Revents := ⟨true, false, false, false, false⟩

/-- The kernel, for one client that connects and whose bytes come in these pieces. -/
def noyauSeul (pieces : List (List UInt8)) (turns : Nat) : Noyau where
  signals := []
  allocations := []
  polls := .ready true lisible :: List.replicate turns (.ready false lisible)
  accepts := [.connection 5 true]
  recvs := pieces.map .bytes
  sends := []

/-- The server once this client is connected. -/
def serveurSeul (pieces : List (List UInt8)) (turns : Nat) : IpcServer Unit :=
  ipcServerRun jsonMuet sansTache (ipcServerInit () (noyauSeul pieces turns)) 1

/-- A line of one byte, in two pieces. -/
theorem ligneTenue_courte : LigneTenue [0x78]
    (connexion 0 (serveurSeul [[0x78], [newline]] 2)
      (ipcServerRun jsonMuet sansTache (serveurSeul [[0x78], [newline]] 2) 3)) := by
  refine (@ligneTenue_iff _ jsonMuet sansTache 0 5 _ _ _ ⟨⟨_, _, 1, rfl⟩, ?_, ?_, ?_, ?_, ?_, ?_⟩).mpr ?_
  · decide +kernel
  · decide +kernel
  · decide
  · decide +kernel
  · decide +kernel
  · intro hnone
    exact absurd hnone (by decide +kernel)
  · decide

/-- The server with this client on slot 0, when it has received so much. -/
def seul (input : List UInt8) (fits : input.length ≤ ipcServerMaxMessage) (polls : List IpcPoll)
    (recvs : List IpcRecv) (journal : List IpcObs) : IpcServer Unit :=
  IpcServer.modify ⟨true, fun _ => .libre, (), ⟨[], [], polls, [], recvs, []⟩, journal⟩ 0 fun _ =>
    ⟨some 5, false, input, [], 0, fits, Nat.le_refl 0⟩

section Seul

variable {input : List UInt8} {fits : input.length ≤ ipcServerMaxMessage} {polls : List IpcPoll}
  {recvs : List IpcRecv} {journal : List IpcObs}

theorem traiterLignes_seul (hnone : newline ∉ input) :
    traiterLignes jsonMuet sansTache (seul input fits polls recvs journal) = seul input fits polls recvs journal := by
  refine List.foldlRecOn _ _ (motive := fun s => s = seul input fits polls recvs journal) rfl ?_
  rintro _ rfl i _
  unfold traiterLigne
  split
  · next hready =>
    have hi : i = 0 := by
      by_contra hne
      have hfree : (seul input fits polls recvs journal).clients i = .libre := IpcServer.modify_other _ 0 _ hne
      rw [hfree] at hready
      cases hready.1
    subst hi
    rw [ouFermer, processBufferedMessage, bind_run_ok (get_run _), seul, IpcServer.modify_same,
      Lines.cut_none.mpr hnone]
    rfl
  · rfl

/-- A turn comes down to a read. -/
theorem tour_seul (hnone : newline ∉ input) :
    tour jsonMuet sansTache (seul input fits (.ready false lisible :: polls) recvs journal) =
      ouFermer 0 (servirClient 0 ((lisible 5).asked false)) (seul input fits polls recvs journal) := by
  rw [tour_eq]
  show attendre (traiterLignes _ _ (seul input fits (.ready false lisible :: polls) recvs journal)) = _
  rw [traiterLignes_seul hnone]
  rfl

theorem servirClient_seul (s : IpcServer Unit) (hempty : (s.clients 0).output.length = 0) :
    servirClient 0 ((lisible 5).asked false) s = readClient 0 s := by
  rw [servirClient, if_neg (by decide), bind_run, lireSiPret, bind_run_ok (get_run s), if_pos ⟨rfl, hempty⟩]
  rcases readClient 0 s with ⟨reason | _, b⟩ <;> rfl

/-- A piece comes whole when there is room for it. -/
theorem receive_piece {client : IpcClient} {piece : List UInt8} (hsize : piece.length ≤ ipcReadSize)
    (hroom : (client.input ++ piece).length ≤ ipcServerMaxMessage) :
    client.receive piece = { client with input := client.input ++ piece, fits := hroom } ∧
      piece.take client.capacity = piece := by
  have htake : piece.take client.capacity = piece := by
    rw [List.length_append] at hroom
    exact List.take_of_length_le (Nat.le_min.mpr ⟨by omega, hsize⟩)
  exact ⟨by simp [IpcClient.receive, htake], htake⟩

theorem tour_seul_recoit {piece : List UInt8} (hnone : newline ∉ input) (hne : piece ≠ [])
    (hsize : piece.length ≤ ipcReadSize) (hroom : (input ++ piece).length ≤ ipcServerMaxMessage) :
    tour jsonMuet sansTache (seul input fits (.ready false lisible :: polls) (.bytes piece :: recvs) journal) =
      seul (input ++ piece) hroom polls recvs (journal ++ [.received 0 piece]) := by
  obtain ⟨byte, rest, rfl⟩ := List.exists_cons_of_ne_nil hne
  have hroom' := hroom
  rw [List.length_append, List.length_cons] at hroom'
  have hread : readClient 0 (seul input fits polls (.bytes (byte :: rest) :: recvs) journal) =
      (.ok (), seul (input ++ byte :: rest) hroom polls recvs (journal ++ [.received 0 (byte :: rest)])) := by
    obtain ⟨hreceive, htake⟩ := @receive_piece ⟨some 5, false, input, [], 0, fits, Nat.le_refl 0⟩ _ hsize hroom
    rw [readClient]
    refine (if_neg (show ¬ input.length ≥ ipcServerMaxMessage by omega)).trans ?_
    simp [seul, IpcServer.modify, IpcServer.log, hreceive, htake]
  rw [tour_seul hnone, ouFermer, servirClient_seul _ rfl, hread]

theorem tour_seul_plein (hnone : newline ∉ input) (hfull : ipcServerMaxMessage ≤ input.length) :
    tour jsonMuet sansTache (seul input fits (.ready false lisible :: polls) recvs journal) =
      clientReset 0 .tamponPlein (seul input fits polls recvs journal) := by
  have hread : readClient 0 (seul input fits polls recvs journal) =
      (.error .tamponPlein, seul input fits polls recvs journal) := by
    rw [readClient]
    exact if_pos hfull
  rw [tour_seul hnone, ouFermer, servirClient_seul _ rfl, hread]

/-- The bytes come piece after piece. -/
theorem run_seul {pieces : List (List UInt8)}
    (h : ∀ piece ∈ pieces, piece ≠ [] ∧ piece.length ≤ ipcReadSize ∧ newline ∉ piece) (hnone : newline ∉ input)
    (hroom : (input ++ pieces.flatten).length ≤ ipcServerMaxMessage) :
    ipcServerRun jsonMuet sansTache
        (seul input fits (List.replicate pieces.length (.ready false lisible) ++ polls)
          (pieces.map .bytes ++ recvs) journal) pieces.length =
      seul (input ++ pieces.flatten) hroom polls recvs (journal ++ pieces.map (.received 0)) := by
  induction pieces generalizing input fits journal with
  | nil => simp [ipcServerRun]
  | cons piece pieces ih =>
    rw [List.forall_mem_cons] at h
    obtain ⟨⟨hne, hsize, hpiece⟩, h⟩ := h
    have hflat : input ++ (piece :: pieces).flatten = input ++ piece ++ pieces.flatten := by simp
    have hlength : (input ++ piece).length ≤ ipcServerMaxMessage := by
      rw [hflat, List.length_append] at hroom
      omega
    have hrun := @ih (input ++ piece) hlength (journal ++ [.received 0 piece]) h (by simp [hnone, hpiece])
      (hflat ▸ hroom)
    rw [ipcServerRun, List.length_cons, Function.iterate_succ_apply]
    rw [List.replicate_succ, List.map_cons, List.cons_append, List.cons_append,
      tour_seul_recoit hnone hne hsize hlength]
    rw [ipcServerRun] at hrun
    rw [hrun]
    simp

theorem serveurSeul_eq (pieces : List (List UInt8)) (turns : Nat) :
    serveurSeul pieces turns = seul [] (Nat.zero_le _) (List.replicate turns (.ready false lisible))
      (pieces.map .bytes) [.accepted 0 5] := by
  have hlines : traiterLignes jsonMuet sansTache (ipcServerInit () (noyauSeul pieces turns)) =
      ipcServerInit () (noyauSeul pieces turns) := by
    refine List.foldlRecOn _ _ (motive := fun s => s = ipcServerInit () (noyauSeul pieces turns)) rfl ?_
    rintro _ rfl i _
    rfl
  have hrun : serveurSeul pieces turns = tour jsonMuet sansTache (ipcServerInit () (noyauSeul pieces turns)) :=
    ipcServerRun_succ (ipcServerInit () (noyauSeul pieces turns)) 0
  rw [hrun, tour_eq]
  have hbefore : avantLignes jsonMuet sansTache (ipcServerInit () (noyauSeul pieces turns)) =
      (false, ipcServerInit () (noyauSeul pieces turns)) := rfl
  rw [hbefore, if_neg Bool.false_ne_true]
  rw [hlines, attendre_ready rfl]
  have hpolled : pollFds (ipcServerInit () (noyauSeul pieces turns)) = [] := rfl
  rw [hpolled, List.foldl_nil, accueillir, if_pos rfl]
  show acceptLoop [.connection 5 true] _ = _
  rw [acceptLoop, if_pos ⟨rfl, by simp [ipcServerInit, IpcClient.libre]⟩]
  rfl

/-- **A full buffer**, however it filled: what the client sends next is not looked for. -/
theorem serveurSeul_plein {pieces more : List (List UInt8)}
    (h : ∀ piece ∈ pieces, piece ≠ [] ∧ piece.length ≤ ipcReadSize ∧ newline ∉ piece)
    (hfull : pieces.flatten.length = ipcServerMaxMessage) :
    connexion 0 (serveurSeul (pieces ++ more) (pieces.length + 1))
        (ipcServerRun jsonMuet sansTache (serveurSeul (pieces ++ more) (pieces.length + 1)) (pieces.length + 1)) =
      ⟨pieces.flatten, [], some .tamponPlein⟩ := by
  have hrun := @run_seul [] (Nat.zero_le _) [.ready false lisible] (more.map .bytes) [.accepted 0 5] pieces h
    List.not_mem_nil hfull.le
  have hnone : newline ∉ [] ++ pieces.flatten := by
    simpa using fun piece hp => (h piece hp).2.2
  rw [serveurSeul_eq, ipcServerRun_succ, List.map_append, List.replicate_succ', hrun,
    tour_seul_plein hnone hfull.ge, connexion]
  show (pieces.map (IpcObs.received 0) ++ [IpcObs.closed 0 .tamponPlein]).foldl (Connexion.step 0) .debut = _
  rw [List.foldl_append, Connexion.foldl_received 0 pieces rfl]
  rfl

end Seul

/-- A request of `ctl.c`, around the name of its command. -/
def debutRequete : List UInt8 := octets "\x7b\"type\":\"request\",\"id\":1,\"command\":\""

def finRequete : List UInt8 := octets "\",\"args\":[]\x7d"

def lettres (count : Nat) : List UInt8 := List.replicate count 0x61

@[simp] theorem lettres_length (count : Nat) : (lettres count).length = count := List.length_replicate

/-- The request for a command of 4048 letters, in four pieces. -/
def morceauxLimite : List (List UInt8) :=
  [debutRequete ++ lettres 988, lettres 1024, lettres 1024, lettres 1012 ++ finRequete]

def requeteLimite : List UInt8 := morceauxLimite.flatten

theorem morceauxLimite_pieces :
    ∀ piece ∈ morceauxLimite, piece ≠ [] ∧ piece.length ≤ ipcReadSize ∧ newline ∉ piece := by
  have hstart : debutRequete.length = 36 ∧ newline ∉ debutRequete := by decide +kernel
  have hend : finRequete.length = 12 ∧ newline ∉ finRequete := by decide +kernel
  have hletters : ∀ count, newline ∉ lettres count := by simp [lettres, newline]
  have hne : ∀ piece ∈ morceauxLimite, piece.length = 1024 ∧ newline ∉ piece := by
    simp [morceauxLimite, hstart, hend, hletters]
  intro piece hp
  obtain ⟨hsize, hnone⟩ := hne piece hp
  refine ⟨?_, hsize.le, hnone⟩
  rintro rfl
  cases hsize

theorem requeteLimite_length : requeteLimite.length = ipcServerMaxMessage := by
  have hstart : debutRequete.length = 36 := by decide +kernel
  have hend : finRequete.length = 12 := by decide +kernel
  simp [requeteLimite, morceauxLimite, hstart, hend]

/-- **A request of 4096 bytes** is sent, and its client is disconnected. -/
theorem ligneTenue_limite :
    ctlMessage requeteLimite = some (requeteLimite ++ [newline]) ∧
      connexion 0 (serveurSeul (morceauxLimite ++ [[newline]]) 5)
          (ipcServerRun jsonMuet sansTache (serveurSeul (morceauxLimite ++ [[newline]]) 5) 5) =
        ⟨requeteLimite, [], some .tamponPlein⟩ ∧
      ¬ LigneTenue requeteLimite (connexion 0 (serveurSeul (morceauxLimite ++ [[newline]]) 5)
          (ipcServerRun jsonMuet sansTache (serveurSeul (morceauxLimite ++ [[newline]]) 5) 5)) := by
  have hconnexion : connexion 0 (serveurSeul (morceauxLimite ++ [[newline]]) 5)
      (ipcServerRun jsonMuet sansTache (serveurSeul (morceauxLimite ++ [[newline]]) 5) 5) =
        ⟨requeteLimite, [], some .tamponPlein⟩ :=
    serveurSeul_plein morceauxLimite_pieces requeteLimite_length
  refine ⟨?_, hconnexion, fun htenue => ?_⟩
  · rw [ctlMessage]
    exact if_neg (by rw [List.length_append, requeteLimite_length]; decide)
  · obtain ⟨response, hmem⟩ := htenue.traitee.mpr requeteLimite_length.le
    rw [hconnexion] at hmem
    cases hmem

end AmlService
