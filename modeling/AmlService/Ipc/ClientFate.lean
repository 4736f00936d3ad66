import AmlService.Ipc.ServerLoop

/-!
# AmlService.Ipc.ClientFate

What becomes of a client that sends one line, followed through the turns of the loop.

What happens to the client of a slot from some moment on is read off the journal
(`connexion`). Each act of the loop keeps `Devenir`: either the client waits, and its
buffer is what was received from it, or its line was worked off, or it was disconnected.
A full buffer disconnects it only when its line has 4096 bytes at least, and a line
that is worked off has less.
-/

namespace AmlService

open Effect

variable {σ : Type}

/-! ### What becomes of a client -/

/-- What became of a client: what was received from it, the lines worked off with the
responses queued, and why it was disconnected, if it was. -/
structure Connexion where
  received : List UInt8
  processed : List (List UInt8 × JsonValue)
  closed : Option Fermeture

namespace Connexion

def debut : Connexion := ⟨[], [], none⟩

/-- One entry of the journal. After a disconnection, the slot is that of another client. -/
def step (slot : Slot) (c : Connexion) (o : IpcObs) : Connexion :=
  if c.closed.isSome then c
  else
    match o with
    | .received s bytes => if s = slot then { c with received := c.received ++ bytes } else c
    | .processed s line response =>
      if s = slot then { c with processed := c.processed ++ [(line, response)] } else c
    | .closed s reason => if s = slot then { c with closed := some reason } else c
    | _ => c

/-- The client is connected, and no line of it was worked off. -/
def enAttente (c : Connexion) : Bool := c.processed.isEmpty && c.closed.isNone

/-- `c'` comes later than `c`. -/
structure Suit (c c' : Connexion) : Prop where
  received : c.received <+: c'.received
  processed : c.processed <+: c'.processed
  closed : c.closed.isSome → c' = c

instance : IsPreorder Connexion Suit where
  refl c := ⟨List.prefix_rfl, List.prefix_rfl, fun _ => rfl⟩
  trans a b c := by
    intro hab hbc
    refine ⟨hab.received.trans hbc.received, hab.processed.trans hbc.processed, fun hclosed => ?_⟩
    have hb : b = a := hab.closed hclosed
    subst hb
    exact hbc.closed hclosed

theorem suit_step (slot : Slot) (c : Connexion) (o : IpcObs) : Suit c (c.step slot o) := by
  unfold step
  split
  · exact refl_of Suit c
  next hopen =>
  cases o with
  | received s bytes =>
    dsimp only
    split
    · exact ⟨List.prefix_append _ _, List.prefix_rfl, fun h => absurd h hopen⟩
    · exact refl_of Suit c
  | processed s line response =>
    dsimp only
    split
    · exact ⟨List.prefix_rfl, List.prefix_append _ _, fun h => absurd h hopen⟩
    · exact refl_of Suit c
  | closed s reason =>
    dsimp only
    split
    · exact ⟨List.prefix_rfl, List.prefix_rfl, fun h => absurd h hopen⟩
    · exact refl_of Suit c
  | _ => exact refl_of Suit c

/-- What serves a client does not disconnect it. -/
theorem foldl_closed {slot : Slot} {added : List IpcObs} (h : ∀ o ∈ added, o.client? = some slot) (c : Connexion) :
    (added.foldl (step slot) c).closed = c.closed := by
  refine List.foldlRecOn added _ (motive := fun c' : Connexion => c'.closed = c.closed) rfl ?_
  intro c' hc' o ho
  have hclient := h o ho
  rw [← hc']
  unfold step
  split
  · rfl
  cases o with
  | received t bytes | processed t line response =>
    obtain rfl : t = slot := Option.some.inj hclient
    simp
  | sent t bytes => rfl
  | _ => cases hclient

/-- What is said of other slots does not count. -/
theorem foldl_other {slot s : Slot} (hs : s ≠ slot) {added : List IpcObs} (h : ∀ o ∈ added, o.client? = some s)
    (c : Connexion) : added.foldl (step slot) c = c := by
  refine List.foldlRecOn added _ (motive := fun c' => c' = c) rfl ?_
  rintro _ rfl o ho
  have hclient := h o ho
  cases o with
  | received t bytes | processed t line response | sent t bytes =>
    obtain rfl : t = s := Option.some.inj hclient
    simp [step, hs]
  | _ => cases hclient

theorem foldl_received (slot : Slot) (pieces : List (List UInt8)) {c : Connexion} (hc : c.closed = none) :
    (pieces.map (IpcObs.received slot)).foldl (step slot) c = { c with received := c.received ++ pieces.flatten } := by
  induction pieces generalizing c with
  | nil => simp
  | cons piece pieces ih =>
    have hstep : c.step slot (.received slot piece) = { c with received := c.received ++ piece } := by
      simp [step, hc]
    rw [List.map_cons, List.foldl_cons, hstep, @ih { c with received := c.received ++ piece } hc]
    simp

end Connexion

/-- What has become of the client of `slot` between `a` and `b`. -/
def connexion (slot : Slot) (a b : IpcServer σ) : Connexion :=
  (b.journal.drop a.journal.length).foldl (Connexion.step slot) .debut

section Connexion

variable (slot : Slot) {a s s' : IpcServer σ}

@[simp] theorem connexion_self : connexion slot a a = .debut := by
  simp [connexion]

theorem connexion_append (h : a.journal <+: s.journal) {added : List IpcObs}
    (hs : s'.journal = s.journal ++ added) :
    connexion slot a s' = added.foldl (Connexion.step slot) (connexion slot a s) := by
  obtain ⟨since, hsince⟩ := h
  simp [connexion, hs, ← hsince]

theorem connexion_suit (h : a.journal <+: s.journal) (hs : s.journal <+: s'.journal) :
    (connexion slot a s).Suit (connexion slot a s') := by
  obtain ⟨added, hadded⟩ := hs
  rw [connexion_append slot h hadded.symm]
  exact Run.foldl_rel (Connexion.suit_step slot) _ added

end Connexion

/-! ### One line -/

/-- The client waits for an answer: its buffer is what was received from it. -/
structure Attend (slot : Slot) (fd : Nat) (a s : IpcServer σ) : Prop where
  fd : (s.clients slot).fd = some fd
  input : (s.clients slot).input = (connexion slot a s).received
  processed : (connexion slot a s).processed = []
  closed : (connexion slot a s).closed = none

/-- It does not any more: its line, of less than 4096 bytes, is worked off, or it is disconnected,
for a full buffer only if its line is not that short. -/
def Regle (line : List UInt8) (c : Connexion) : Prop :=
  (∃ response later, c.processed = (line, response) :: later) ∧ line.length < ipcServerMaxMessage ∨
    c.processed = [] ∧ ∃ reason, c.closed = some reason ∧
      (reason = .tamponPlein → ipcServerMaxMessage ≤ line.length)

/-- A client that has sent nothing but the start of its line waits, or does not any more. -/
structure Devenir (slot : Slot) (fd : Nat) (line : List UInt8) (a s : IpcServer σ) : Prop where
  depuis : a.journal <+: s.journal
  devenir : (connexion slot a s).received <+: line ++ [newline] →
    Attend slot fd a s ∨ Regle line (connexion slot a s)

section Line

variable {slot : Slot} {fd : Nat} {line : List UInt8} {a s s' : IpcServer σ} {c c' : Connexion}

theorem Regle.suit (h : Regle line c) (hs : c.Suit c') : Regle line c' := by
  rcases h with ⟨⟨response, later, hprocessed⟩, hlength⟩ | ⟨hprocessed, reason, hclosed, hplein⟩
  · obtain ⟨added, hadded⟩ := hs.processed
    exact .inl ⟨⟨response, later ++ added, by rw [← hadded, hprocessed, List.cons_append]⟩, hlength⟩
  · obtain rfl := hs.closed (by simp [hclosed])
    exact .inr ⟨hprocessed, reason, hclosed, hplein⟩

theorem Attend.not_regle (h : Attend slot fd a s) : ¬ Regle line (connexion slot a s) := by
  rintro (⟨⟨response, later, hprocessed⟩, -⟩ | ⟨-, reason, hclosed, -⟩)
  · simp [h.processed] at hprocessed
  · simp [h.closed] at hclosed

/-- Who still waits has waited all along. -/
theorem Devenir.attend (h : Devenir slot fd line a s) (hs : s.journal <+: s'.journal)
    (hsent : (connexion slot a s').received <+: line ++ [newline]) (hwait : Attend slot fd a s') :
    Attend slot fd a s := by
  have hsuit := connexion_suit slot h.depuis hs
  rcases h.devenir (hsuit.received.trans hsent) with hbefore | hregle
  · exact hbefore
  · exact absurd (hregle.suit hsuit) hwait.not_regle

/-- `s'` comes after `s`, and is as good. -/
structure Pas (slot : Slot) (fd : Nat) (line : List UInt8) (a s s' : IpcServer σ) : Prop where
  journal : s.journal <+: s'.journal
  devenir : Devenir slot fd line a s → Devenir slot fd line a s'

instance : IsPreorder (IpcServer σ) (Pas slot fd line a) where
  refl _ := ⟨List.prefix_rfl, id⟩
  trans _ _ _ h h' := ⟨h.journal.trans h'.journal, h'.devenir ∘ h.devenir⟩

/-- Only a client that waits is to be looked at. -/
theorem Pas.of_attend {added : List IpcObs} (hs : s'.journal = s.journal ++ added)
    (h : a.journal <+: s.journal → Attend slot fd a s →
      added.foldl (Connexion.step slot) (connexion slot a s) = connexion slot a s' →
      (connexion slot a s').received <+: line ++ [newline] →
      Attend slot fd a s' ∨ Regle line (connexion slot a s')) : Pas slot fd line a s s' := by
  have hjournal : s.journal <+: s'.journal := ⟨added, hs.symm⟩
  refine ⟨hjournal, fun hbefore => ⟨hbefore.depuis.trans hjournal, fun hsent => ?_⟩⟩
  have hsuit := connexion_suit slot hbefore.depuis hjournal
  rcases hbefore.devenir (hsuit.received.trans hsent) with hwait | hregle
  · exact h hbefore.depuis hwait (connexion_append slot hbefore.depuis hs).symm hsent
  · exact .inr (hregle.suit hsuit)

/-- What leaves the client as it is, and says nothing of it. -/
theorem Pas.same {added : List IpcObs} (hs : s'.journal = s.journal ++ added)
    (hclient : Attend slot fd a s → s'.clients slot = s.clients slot)
    (hadded : ∀ c, added.foldl (Connexion.step slot) c = c) : Pas slot fd line a s s' := by
  refine .of_attend hs fun _ hwait hc _ => .inl ?_
  rw [hadded] at hc
  exact ⟨by rw [hclient hwait, hwait.fd], by rw [hclient hwait, hwait.input, hc], by rw [← hc, hwait.processed],
    by rw [← hc, hwait.closed]⟩

theorem Pas.congr (hclients : s'.clients = s.clients) (hjournal : s'.journal = s.journal) :
    Pas slot fd line a s s' :=
  .same (by rw [hjournal, List.append_nil]) (fun _ => by rw [hclients]) fun _ => rfl

/-! ### Serving it -/

/-- Bytes were received and sent, and no more. -/
structure Lit (slot : Slot) (s s' : IpcServer σ) : Prop where
  fd : (s'.clients slot).fd = (s.clients slot).fd
  flux : ∃ added bytes, s'.journal = s.journal ++ added ∧
    (s'.clients slot).input = (s.clients slot).input ++ bytes ∧
    ∀ c : Connexion, c.closed = none →
      added.foldl (Connexion.step slot) c = { c with received := c.received ++ bytes }

instance : IsPreorder (IpcServer σ) (Lit slot) where
  refl s := ⟨rfl, [], [], by simp, by simp, by simp⟩
  trans r s t := by
    rintro ⟨hfd, added, bytes, hjournal, hinput, hstep⟩ ⟨hfd', added', bytes', hjournal', hinput', hstep'⟩
    refine ⟨hfd'.trans hfd, added ++ added', bytes ++ bytes', ?_, ?_, fun c hc => ?_⟩
    · rw [hjournal', hjournal, List.append_assoc]
    · rw [hinput', hinput, List.append_assoc]
    · rw [List.foldl_append, hstep c hc, hstep' { c with received := c.received ++ bytes } hc]
      simp

theorem permet_lit : Permet slot (@Lit σ slot) where
  autour _ _ _ := ⟨rfl, [], [], by simp, by simp, by simp⟩
  modify server f hf := by
    refine ⟨?_, [], [], by simp, ?_, by simp⟩
    · rw [IpcServer.modify_same, (hf _).1]
    · rw [IpcServer.modify_same, (hf _).2, List.append_nil]
  received server chunk := by
    refine ⟨?_, [_], chunk.take (server.clients slot).capacity, rfl, ?_, fun c hc => ?_⟩
    · rw [IpcServer.log_clients, IpcServer.modify_same]
      rfl
    · rw [IpcServer.log_clients, IpcServer.modify_same]
      rfl
    · simp [Connexion.step, hc]
  sent server count bytes := by
    refine ⟨?_, [_], [], rfl, ?_, fun c _ => ?_⟩
    · rw [IpcServer.log_clients, IpcServer.modify_same]
      rfl
    · rw [IpcServer.log_clients, IpcServer.modify_same, List.append_nil]
      rfl
    · simp [Connexion.step]

theorem Lit.journal (h : Lit slot s s') : s.journal <+: s'.journal := by
  obtain ⟨added, bytes, hjournal, -⟩ := h.flux
  exact ⟨added, hjournal.symm⟩

theorem Attend.lit (h : Attend slot fd a s) (hdepuis : a.journal <+: s.journal) (hlit : Lit slot s s') :
    Attend slot fd a s' := by
  obtain ⟨added, bytes, hjournal, hinput, hstep⟩ := hlit.flux
  have hc := (connexion_append slot hdepuis hjournal).trans (hstep _ h.closed)
  exact ⟨hlit.fd.trans h.fd, by simp [hinput, h.input, hc], by simp [hc, h.processed], by simp [hc, h.closed]⟩

section OuFermer

variable {α : Type} {m : IpcM σ α}

/-- Another client is served. -/
theorem ouFermer_pas_other {i : Slot} (hi : i ≠ slot) (ht : Touche i s (m s).2) :
    Pas slot fd line a s (ouFermer i m s) := by
  have hclient := ouFermer_clients ht hi.symm
  obtain ⟨added, hjournal, hadded⟩ := ht.journal
  have hother := Connexion.foldl_other hi hadded
  unfold ouFermer at hclient ⊢
  rcases hm : m s with ⟨reason | x, b⟩ <;> rw [hm] at hjournal hclient
  · have hreset : (clientReset i reason b).journal = s.journal ++ (added ++ [.closed i reason]) := by
      show b.journal ++ _ = _
      rw [hjournal, List.append_assoc]
    refine .same hreset (fun _ => hclient) fun c => ?_
    rw [List.foldl_append, hother]
    simp [Connexion.step, hi]
  · exact .same hjournal (fun _ => hclient) hother

/-- The client itself is served: it is enough to know how it fares when it is not disconnected,
and why it would be. -/
theorem ouFermer_pas (ht : Touche slot s (m s).2)
    (hok : ∀ x b, m s = (.ok x, b) → a.journal <+: s.journal → Attend slot fd a s →
      (connexion slot a b).received <+: line ++ [newline] → Attend slot fd a b ∨ Regle line (connexion slot a b))
    (herror : ∀ reason b, m s = (.error reason, b) → a.journal <+: s.journal → Attend slot fd a s →
      (connexion slot a b).received <+: line ++ [newline] →
        (connexion slot a b).processed = [] ∧ (reason = .tamponPlein → ipcServerMaxMessage ≤ line.length)) :
    Pas slot fd line a s (ouFermer slot m s) := by
  obtain ⟨added, hjournal, hadded⟩ := ht.journal
  unfold ouFermer
  rcases hm : m s with ⟨reason | x, b⟩ <;> rw [hm] at hjournal
  · have hreset : (clientReset slot reason b).journal = s.journal ++ (added ++ [.closed slot reason]) := by
      show b.journal ++ _ = _
      rw [hjournal, List.append_assoc]
    refine .of_attend hreset fun hdepuis hwait hc hsent => .inr (.inr ?_)
    have hopen : (connexion slot a b).closed = none := by
      rw [connexion_append slot hdepuis hjournal, Connexion.foldl_closed hadded, hwait.closed]
    have hclosed : connexion slot a (clientReset slot reason b) =
        { connexion slot a b with closed := some reason } := by
      rw [← hc, List.foldl_append, ← connexion_append slot hdepuis hjournal]
      simp [Connexion.step, hopen]
    rw [hclosed] at hsent ⊢
    obtain ⟨hprocessed, hplein⟩ := herror reason b hm hdepuis hwait hsent
    exact ⟨hprocessed, reason, rfl, hplein⟩
  · exact .of_attend hjournal fun hdepuis hwait _ hsent => hok x b hm hdepuis hwait hsent

end OuFermer

/-! ### A turn of the loop -/

variable {json : JsonC} {app : Application σ}

theorem mettreEnFile_pas (event : JsonValue) (s : IpcServer σ) (i : Slot) :
    Pas slot fd line a s (mettreEnFile json event s i) := by
  unfold mettreEnFile
  split
  swap
  · exact refl_of (Pas slot fd line a) s
  by_cases hi : i = slot
  swap
  · exact ouFermer_pas_other hi (clientAppend_touche _ s)
  subst hi
  have hlit : Lit i s (clientAppend i (json.print event) s).2 := permet_lit.clientAppend _ s
  refine ouFermer_pas (clientAppend_touche _ s) ?_ ?_
  · intro x b hm hdepuis hwait _
    rw [hm] at hlit
    exact .inl (hwait.lit hdepuis hlit)
  · intro reason b hm hdepuis hwait _
    rw [hm] at hlit
    refine ⟨(hwait.lit hdepuis hlit).processed, ?_⟩
    rintro rfl
    exact absurd rfl (clientAppend_fails _ s .tamponPlein b hm)

theorem ipcServerBroadcast_pas (s : IpcServer σ) (event : JsonValue) :
    Pas slot fd line a s (ipcServerBroadcast json s event) := by
  unfold ipcServerBroadcast
  rcases halloc : allouer s with ⟨reason | u, b⟩
  · obtain ⟨hclients, hjournal⟩ := allouer_same halloc
    exact .congr hclients hjournal
  obtain ⟨hclients, hjournal⟩ := allouer_same halloc
  have hlog : Pas slot fd line a s (b.log (.broadcast event)) := by
    refine .same (by rw [IpcServer.log_journal, hjournal]) (fun _ => by rw [IpcServer.log_clients, hclients]) ?_
    simp [Connexion.step]
  exact trans_of (Pas slot fd line a) hlog (Run.foldl_rel (mettreEnFile_pas event) _ _)

theorem appelerTick_pas (s : IpcServer σ) : Pas slot fd line a s (appelerTick json app s) := by
  refine appelerTick_invariant ?_ ?_ (refl_of (Pas slot fd line a) s)
  · intro b c hb hclients hjournal
    exact trans_of (Pas slot fd line a) hb (.congr hclients hjournal)
  · intro b event hb
    exact trans_of (Pas slot fd line a) hb (ipcServerBroadcast_pas b event)

/-- **A line of a client that waits** is its line, and was not too long. -/
theorem processBufferedMessage_regle {s b : IpcServer σ} (hdepuis : a.journal <+: s.journal)
    (hwait : Attend slot fd a s) (hline : newline ∉ line)
    (h : processBufferedMessage json app slot s = (.ok true, b))
    (hsent : (connexion slot a b).received <+: line ++ [newline]) : Regle line (connexion slot a b) := by
  rw [processBufferedMessage, bind_run_ok (get_run s)] at h
  rcases hcut : Lines.cut newline (s.clients slot).input with _ | ⟨taken, rest⟩ <;> rw [hcut] at h
  · cases h
  obtain ⟨_, c, hconsume, h⟩ := bind_run_inv h
  obtain ⟨response, d, hmessage, h⟩ := bind_run_inv h
  obtain ⟨_, e, hlog, hpure⟩ := bind_run_inv h
  obtain ⟨-, rfl⟩ := Prod.mk.inj hconsume
  obtain ⟨-, rfl⟩ := Prod.mk.inj hlog
  obtain ⟨-, rfl⟩ := Prod.mk.inj hpure
  have hjournal : (d.log (.processed slot taken response)).journal =
      s.journal ++ [.processed slot taken response] := by
    rw [IpcServer.log_journal, (processMessage_ok hmessage).2, IpcServer.modify_journal]
  have hc : connexion slot a (d.log (.processed slot taken response)) =
      { connexion slot a s with processed := [(taken, response)] } := by
    rw [connexion_append slot hdepuis hjournal]
    simp [Connexion.step, hwait.closed, hwait.processed]
  rw [hc] at hsent ⊢
  -- what was received is the line taken, and what comes after it
  obtain ⟨hinput, htaken⟩ := Lines.cut_inv hcut
  rw [← hwait.input, hinput] at hsent
  obtain ⟨more, hmore⟩ := hsent
  rw [List.append_assoc, List.cons_append] at hmore
  obtain rfl := Lines.line_unique hmore htaken hline
  have hfits := (s.clients slot).fits
  rw [hinput, List.length_append, List.length_cons] at hfits
  exact .inl ⟨⟨response, [], rfl⟩, by omega⟩

theorem processBufferedMessage_false {s b : IpcServer σ}
    (h : processBufferedMessage json app slot s = (.ok false, b)) : b = s := by
  rw [processBufferedMessage, bind_run_ok (get_run s)] at h
  rcases hcut : Lines.cut newline (s.clients slot).input with _ | ⟨taken, rest⟩ <;> rw [hcut] at h
  · exact (Prod.mk.inj h).2.symm
  obtain ⟨_, c, -, h⟩ := bind_run_inv h
  obtain ⟨response, d, -, h⟩ := bind_run_inv h
  obtain ⟨_, e, -, hpure⟩ := bind_run_inv h
  cases hpure

/-- A response that cannot be queued: the line is not counted as worked off. -/
theorem processBufferedMessage_error {s b : IpcServer σ} {reason : Fermeture}
    (h : processBufferedMessage json app slot s = (.error reason, b)) (hdepuis : a.journal <+: s.journal)
    (hwait : Attend slot fd a s) : (connexion slot a b).processed = [] := by
  rw [processBufferedMessage, bind_run_ok (get_run s)] at h
  rcases hcut : Lines.cut newline (s.clients slot).input with _ | ⟨taken, rest⟩ <;> rw [hcut] at h
  · cases h
  dsimp only at h
  rw [bind_run_ok (rfl : Fallible.act _ s = (.ok (), s.modify slot fun client => client.consume (taken.length + 1))),
    bind_run] at h
  have hlit : Lit slot (s.modify slot fun client => client.consume (taken.length + 1))
      (processMessage json app slot (sansRetour taken) _).2 := permet_lit.processMessage app _ _
  obtain ⟨added, bytes, hjournal, -, hstep⟩ := hlit.flux
  rcases hmessage : processMessage json app slot (sansRetour taken)
    (s.modify slot fun client => client.consume (taken.length + 1)) with ⟨e | response, d⟩ <;>
    rw [hmessage] at h hjournal
  · obtain ⟨-, rfl⟩ := Prod.mk.inj h
    rw [connexion_append slot hdepuis hjournal, hstep _ hwait.closed, hwait.processed]
  · cases h

theorem traiterLigne_pas (hline : newline ∉ line) (s : IpcServer σ) (i : Slot) :
    Pas slot fd line a s (traiterLigne json app s i) := by
  unfold traiterLigne
  split
  swap
  · exact refl_of (Pas slot fd line a) s
  by_cases hi : i = slot
  swap
  · exact ouFermer_pas_other hi (processBufferedMessage_touche app s)
  subst hi
  refine ouFermer_pas (processBufferedMessage_touche app s) ?_ ?_
  · intro processed b hm hdepuis hwait hsent
    cases processed with
    | false =>
      rw [processBufferedMessage_false hm]
      exact .inl hwait
    | true => exact .inr (processBufferedMessage_regle hdepuis hwait hline hm hsent)
  · intro reason b hm hdepuis hwait _
    refine ⟨processBufferedMessage_error hm hdepuis hwait, ?_⟩
    rintro rfl
    exact absurd rfl (processBufferedMessage_fails app s .tamponPlein b hm)

theorem traiterLignes_pas (hline : newline ∉ line) (s : IpcServer σ) :
    Pas slot fd line a s (traiterLignes json app s) :=
  Run.foldl_rel (traiterLigne_pas hline) s _

theorem placer_pas (other : Nat) (s : IpcServer σ) : Pas slot fd line a s (placer other s) := by
  unfold placer
  split
  · exact refl_of (Pas slot fd line a) s
  next i hi =>
  have hfree := List.find?_some hi
  refine .same rfl (fun hwait => ?_) fun c => by simp [Connexion.step]
  have hne : slot ≠ i := by
    rintro rfl
    simp [hwait.fd] at hfree
  rw [IpcServer.log_clients, s.modify_other i _ hne]

theorem acceptLoop_pas (accepts : List IpcAccept) (s : IpcServer σ) :
    Pas slot fd line a s (acceptLoop accepts s) := by
  induction accepts generalizing s with
  | nil => exact .congr rfl rfl
  | cons outcome accepts ih =>
    cases outcome with
    | interrupted => exact ih s
    | wouldBlock | failed => exact .congr rfl rfl
    | connection other nonblocking =>
      rw [acceptLoop]
      split
      · exact trans_of (Pas slot fd line a) (placer_pas other s) (ih _)
      · exact ih s

/-- **A full buffer** without a newline: the line has 4096 bytes at least. -/
theorem Attend.longue (h : Attend slot fd a s) (hsent : (connexion slot a s).received <+: line ++ [newline])
    (hnone : newline ∉ (s.clients slot).input) (hfull : ipcServerMaxMessage ≤ (s.clients slot).input.length) :
    ipcServerMaxMessage ≤ line.length := by
  rw [← h.input] at hsent
  rcases List.prefix_concat_iff.mp hsent with hall | hpart
  · simp [hall] at hnone
  · exact hfull.trans hpart.length_le

theorem servirFd_pas {revents : Nat → Revents} {polled : Nat × Bool} (harme : Arme s polled) :
    Pas slot fd line a s (servirFd revents s polled) := by
  unfold servirFd
  split
  · exact refl_of (Pas slot fd line a) s
  next i hi =>
  have hfd : (s.clients i).fd = some polled.1 := by simpa using List.find?_some hi
  by_cases hslot : i = slot
  swap
  · exact ouFermer_pas_other hslot (servirClient_touche _ s)
  subst hslot
  have hlit : Lit i s (servirClient i ((revents polled.1).asked polled.2) s).2 := permet_lit.servirClient _ s
  refine ouFermer_pas (servirClient_touche _ s) ?_ ?_
  · intro x b hm hdepuis hwait _
    rw [hm] at hlit
    exact .inl (hwait.lit hdepuis hlit)
  · intro reason b hm hdepuis hwait hsent
    rw [hm] at hlit
    refine ⟨(hwait.lit hdepuis hlit).processed, ?_⟩
    rintro rfl
    -- found full when it is read, so polled for reading: its buffer held no line then
    obtain ⟨rfl, hpollin, -, hfull⟩ := servirClient_plein hm
    have hinput : polled.2 = false := by
      simpa [Revents.asked] using (Bool.and_eq_true_iff.mp hpollin).2
    exact hwait.longue hsent (harme hinput i hfd).2 hfull

theorem servir_pas {revents : Nat → Revents} {polled : List (Nat × Bool)} {s : IpcServer σ}
    (hnodup : (polled.map Prod.fst).Nodup) (harme : ∀ p ∈ polled, Arme s p) :
    Pas slot fd line a s (polled.foldl (servirFd revents) s) := by
  refine servir_invariant (fun b p hb harmed => ?_) hnodup harme (refl_of (Pas slot fd line a) s)
  exact trans_of (Pas slot fd line a) hb (servirFd_pas harmed)

theorem clientReset_arret_pas (s : IpcServer σ) (i : Slot) :
    Pas slot fd line a s (clientReset i .arret s) := by
  by_cases hi : i = slot
  · subst hi
    refine .of_attend rfl fun _ hwait hc _ => .inr (.inr ?_)
    rw [← hc]
    simp [Connexion.step, hwait.closed, hwait.processed]
  · exact .same rfl (fun _ => clientReset_clients s .arret (Ne.symm hi)) fun c => by simp [Connexion.step, hi]

theorem arreter_pas (s : IpcServer σ) : Pas slot fd line a s (arreter s) := by
  have hstopped : Pas slot fd line a s { s with running := false } := .congr rfl rfl
  refine trans_of (Pas slot fd line a) hstopped (Run.foldl_rel (fun s i => ?_) _ _)
  split
  · exact clientReset_arret_pas s i
  · exact refl_of (Pas slot fd line a) s

/-- Nobody is connected once the loop has stopped. -/
theorem arreter_fd (s : IpcServer σ) (i : Slot) : ((arreter s).clients i).fd = none := by
  refine Run.foldl_each (B := fun _ _ => True) (A := fun i s => (IpcServer.clients s i).fd = none) ?_ ?_ ?_
    (List.nodup_finRange _) (fun _ _ => trivial) i (List.mem_finRange i)
  · intro s i _
    split
    · rw [clientReset_same]
      rfl
    · next hfd => simpa using hfd
  · exact fun _ _ _ _ _ => trivial
  · intro s i j hj hnone
    split
    · rwa [clientReset_clients s .arret hj]
    · exact hnone

/-- New clients, if `poll` reports any. -/
def accueillir (listen : Bool) (server : IpcServer σ) : IpcServer σ :=
  if listen then acceptLoop server.noyau.accepts server else server

theorem attendre_ready {listen : Bool} {revents : Nat → Revents} {polls : List IpcPoll}
    (h : s.noyau.polls = .ready listen revents :: polls) :
    attendre s = (pollFds s).foldl (servirFd revents)
      (accueillir listen { s with noyau := { s.noyau with polls } }) := by
  rw [attendre, h]
  rfl

theorem accueillir_pas (listen : Bool) (polls : List IpcPoll) (s : IpcServer σ) :
    Pas slot fd line a s (accueillir listen { s with noyau := { s.noyau with polls } }) := by
  have hpolled : Pas slot fd line a s { s with noyau := { s.noyau with polls } } := .congr rfl rfl
  unfold accueillir
  split
  · exact trans_of (Pas slot fd line a) hpolled (acceptLoop_pas _ _)
  · exact hpolled

theorem accueillir_flux (listen : Bool) (polls : List IpcPoll) (h : Flux json s) (hnone : ∀ i, SansLigne i s) :
    Flux json (accueillir listen { s with noyau := { s.noyau with polls } }) ∧
      ∀ p ∈ pollFds s, Arme (accueillir listen { s with noyau := { s.noyau with polls } }) p := by
  have hpolled : Flux json { s with noyau := { s.noyau with polls } } := h.congr rfl rfl
  have harme : ∀ p ∈ pollFds s, Arme { s with noyau := { s.noyau with polls } } p :=
    pollFds_arme h.toRangee hnone
  unfold accueillir
  split
  · exact acceptLoop_flux _ hpolled harme
  · exact ⟨hpolled, harme⟩

theorem attendre_pas (h : Flux json s) (hnone : ∀ i, SansLigne i s) : Pas slot fd line a s (attendre s) := by
  rcases hpolls : s.noyau.polls with _ | ⟨outcome, polls⟩
  · rw [attendre, hpolls]
    exact refl_of (Pas slot fd line a) s
  cases outcome with
  | failed | interrupted | timeout =>
    rw [attendre, hpolls]
    exact .congr rfl rfl
  | ready listen revents =>
    rw [attendre_ready hpolls]
    exact trans_of (Pas slot fd line a) (accueillir_pas listen polls s)
      (servir_pas (pollFds_nodup h.toRangee) (accueillir_flux listen polls h hnone).2)

theorem avantLignes_pas (s : IpcServer σ) : Pas slot fd line a s (avantLignes json app s).2 := by
  refine avantLignes_invariant (fun t ht => ?_) (fun t ht => ?_) (refl_of (Pas slot fd line a) s)
  · exact trans_of (Pas slot fd line a) ht (.congr (arretDemandeLu_same t).1 (arretDemandeLu_same t).2)
  · exact trans_of (Pas slot fd line a) ht (appelerTick_pas t)

theorem apresLignes_pas (hline : newline ∉ line) (h : Flux json s) :
    Pas slot fd line a s (attendre (traiterLignes json app s)) :=
  trans_of (Pas slot fd line a) (traiterLignes_pas hline s)
    (attendre_pas (traiterLignes_flux h) (traiterLignes_sansLigne app s))

/-- **One turn.** -/
theorem tour_pas (hline : newline ∉ line) (h : Flux json s) : Pas slot fd line a s (tour json app s) := by
  rw [tour_eq]
  split
  · exact trans_of (Pas slot fd line a) (avantLignes_pas s) (arreter_pas _)
  · exact trans_of (Pas slot fd line a) (avantLignes_pas s) (apresLignes_pas hline (avantLignes_flux h))

end Line

end AmlService
