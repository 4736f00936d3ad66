import AmlService.App.AlarmRuns

/-!
# AmlService.App.LightRefresh

Changes of the lights. The AML says that they changed (a light-change frame), the next
tick reads them again and tells the clients. The flag that asks for the readings is
cleared before they are made: one that fails is not made again, unless another
light-change frame comes.

What holds along a run (`Signalee`): the flag is set, or the lights have been read and
told since the last light-change frame.
-/

namespace AmlService

open Effect

/-! ### Told since the last change -/

/-- Both lights were asked for, then read, then told. -/
def Relecture (added : List Obs) : Prop :=
  ∃ request₁ response₁ request₂ response₂,
    protocolBuildRequest amlReqLightQuery [ControlLightTarget.light.byte] requestBufferSize =
      some request₁ ∧
    protocolBuildRequest amlReqLightQuery [ControlLightTarget.mood.byte] requestBufferSize =
      some request₂ ∧
    List.Sublist [.sent request₁, .frame response₁, .sent request₂, .frame response₂,
      .broadcast "light_changed" (eclairageJson (decodeLight (frameData response₁))
        (decodeLight (frameData response₂)))] added

/-- After the last light-change frame, both lights were asked for, read and told. -/
def AJour (journal : List Obs) : Prop :=
  ∀ before data after, journal = before ++ .event amlEvtLightRefresh data :: after →
    ¬ LightEvent after → Relecture after

/-- The lights are to be read, or the clients know. -/
def Signalee (s : Service) : Prop := s.eventContext.eclairageChange = true ∨ AJour s.world.journal

theorem Relecture.mono {added added' : List Obs} (h : Relecture added) (hsub : List.Sublist added added') :
    Relecture added' := by
  obtain ⟨q₁, r₁, q₂, r₂, hq₁, hq₂, hfound⟩ := h
  exact ⟨q₁, r₁, q₂, r₂, hq₁, hq₂, hfound.trans hsub⟩

theorem lightEvent_cons {o : Obs} {added : List Obs} :
    LightEvent (o :: added) ↔ (∃ data, o = .event amlEvtLightRefresh data) ∨ LightEvent added := by
  rw [← List.singleton_append, LightEvent.append]
  refine or_congr_left ?_
  cases o with
  | event code data => simp [LightEvent, eventsOf, Obs.event?]
  | _ => simp [LightEvent, eventsOf, Obs.event?]

/-- Without a new one, the last light-change frame stays where it was. -/
theorem split_of_not_lightEvent {journal added before after : List Obs} {data : List UInt8}
    (hnone : ¬ LightEvent added)
    (hsplit : journal ++ added = before ++ .event amlEvtLightRefresh data :: after) :
    ∃ rest, journal = before ++ .event amlEvtLightRefresh data :: rest ∧ after = rest ++ added := by
  rcases List.append_eq_append_iff.mp hsplit with ⟨tail, hbefore, hadded⟩ | ⟨tail, hjournal, hafter⟩
  · -- the frame would be among the new entries
    refine absurd ?_ hnone
    rw [hadded, LightEvent.append, lightEvent_cons]
    exact .inr (.inl ⟨data, rfl⟩)
  · cases tail with
    | nil =>
      refine absurd ?_ hnone
      rw [List.nil_append] at hafter
      rw [← hafter, lightEvent_cons]
      exact .inl ⟨data, rfl⟩
    | cons o rest =>
      obtain ⟨ho, hrest⟩ := List.cons.inj hafter
      subst ho
      exact ⟨rest, hjournal, hrest⟩

theorem AJour.append {journal added : List Obs} (h : AJour journal) (hnone : ¬ LightEvent added) :
    AJour (journal ++ added) := by
  intro before data after hsplit hafter
  obtain ⟨rest, hjournal, rfl⟩ := split_of_not_lightEvent hnone hsplit
  rw [LightEvent.append, not_or] at hafter
  exact (h before data rest hjournal hafter.1).mono (List.sublist_append_left rest added)

/-- The flag is kept, and set by a light-change frame. -/
def KeepsLight (a b : Service) : Prop :=
  Attached a → Attached b ∧ ∃ added, b.world.journal = a.world.journal ++ added ∧
    (a.eventContext.eclairageChange = true ∨ LightEvent added → b.eventContext.eclairageChange = true)

instance : IsPreorder Service KeepsLight where
  refl a := fun ha => ⟨ha, [], (List.append_nil _).symm,
    fun h => h.resolve_right (by simp [LightEvent, eventsOf])⟩
  trans a b c := by
    intro h h' ha
    obtain ⟨hb, added, hjournal, hflag⟩ := h ha
    obtain ⟨hc, added', hjournal', hflag'⟩ := h' hb
    refine ⟨hc, added ++ added', by rw [hjournal', hjournal, List.append_assoc], ?_⟩
    rw [LightEvent.append, ← or_assoc]
    exact fun hset => hflag' (hset.imp_left hflag)

/-- A light-change frame received meanwhile has the flag set. -/
theorem KeepsLight.received {a b : Service} (h : KeepsLight a b) (ha : Attached a)
    (hlight : LightEvent (b.world.journal.drop a.world.journal.length)) :
    b.eventContext.eclairageChange = true := by
  obtain ⟨-, added, hjournal, hflag⟩ := h ha
  rw [hjournal, List.drop_left] at hlight
  exact hflag (.inr hlight)

/-- Such a step keeps what the clients are owed. -/
theorem Signalee.keeps {a b : Service} (h : Signalee a) (ha : Attached a) (hstep : KeepsLight a b) :
    Signalee b := by
  obtain ⟨-, added, hjournal, hflag⟩ := hstep ha
  by_cases hlight : LightEvent added
  · exact .inl (hflag (.inr hlight))
  rcases h with hset | hknown
  · exact .inl (hflag (.inl hset))
  · right
    rw [hjournal]
    exact hknown.append hlight

end AmlService
