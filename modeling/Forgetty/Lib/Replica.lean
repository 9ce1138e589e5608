import Forgetty.Lib.Run

/-! Replicas. A system has a view and a log of what it tells; a replica starts from the
view and follows what is told. A step is told in full when the replica of the state
before becomes the view of the state after, and the replica shows the system all along a
run exactly if every step is told in full. -/

namespace Forgetty.Lib

variable {σ ι τ δ : Type*} (view : σ → τ) (log : σ → List δ) (follow : τ → δ → τ)

/-- What was told between the two states leads from the one view to the other. -/
def Told (s t : σ) : Prop := ∃ ds, log t = log s ++ ds ∧ view t = ds.foldl follow (view s)

/-- The replica of someone who started in the one state, in the other. -/
def replica (s t : σ) : τ := ((log t).drop (log s).length).foldl follow (view s)

variable {view log follow} {s t u : σ}

theorem Told.refl (s : σ) : Told view log follow s s := ⟨[], (List.append_nil _).symm, rfl⟩

theorem Told.trans (h : Told view log follow s t) (h' : Told view log follow t u) :
    Told view log follow s u := by
  obtain ⟨ds, hlog, hview⟩ := h
  obtain ⟨ds', hlog', hview'⟩ := h'
  refine ⟨ds ++ ds', ?_, ?_⟩
  · rw [hlog', hlog, List.append_assoc]
  · rw [hview', hview, List.foldl_append]

theorem replica_self (s : σ) : replica view log follow s s = view s := by
  rw [replica, List.drop_length]
  rfl

/-- A replica goes on from where it is. -/
theorem replica_of_append {ds : List δ} (hs : log s <+: log t) (hlog : log u = log t ++ ds) :
    replica view log follow s u = ds.foldl follow (replica view log follow s t) := by
  rw [replica, replica, hlog, List.drop_append_of_le_length hs.length_le, List.foldl_append]

theorem told_iff {ds : List δ} (hlog : log t = log s ++ ds) :
    Told view log follow s t ↔ view t = ds.foldl follow (view s) := by
  constructor
  · rintro ⟨ds', hlog', hview⟩
    rw [hview, List.append_cancel_left (hlog.symm.trans hlog')]
  · exact fun hview => ⟨ds, hlog, hview⟩

variable {step : σ → ι → σ} {I : σ → Prop} {guard : σ → ι → Prop}

/-- The replica shows the view in every state of a run exactly if every step is told in
full. -/
theorem replica_along_iff {is : List ι} (hlog : ∀ t i, I t → log t <+: log (step t i))
    (hI : ∀ t i, I t → I (step t i))
    (hguard : ∀ t i, I t → (Told view log follow t (step t i) ↔ guard t i)) (h0 : I s) :
    Along step (fun t => view t = replica view log follow s t) s is ↔ Meets step guard s is := by
  have hstep : ∀ t i, I t ∧ log s <+: log t → view t = replica view log follow s t →
      (view (step t i) = replica view log follow s (step t i) ↔ guard t i) := by
    rintro t i ⟨ht, hs⟩ hview
    obtain ⟨ds, hds⟩ := hlog t i ht
    rw [replica_of_append hs hds.symm, ← hview, ← told_iff hds.symm]
    exact hguard t i ht
  refine along_iff_meets (I := fun t => I t ∧ log s <+: log t) (fun t i ht _ _ => ?_) hstep
    ⟨h0, List.prefix_refl _⟩ (replica_self s).symm
  exact ⟨hI t i ht.1, ht.2.trans (hlog t i ht.1)⟩

end Forgetty.Lib
