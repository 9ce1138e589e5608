import Forgetty.Sync.Registry

/-! Pairing windows. Every request for one sets the flag that connections look at, and starts
a timer that clears it again. All timers clear the same flag, and it is the one that persistent
pairing set when the daemon came up. -/

namespace Forgetty

open Lib

/-- What becomes of a device that connects. -/
inductive Admission where
  | known
  | paired
  | rejected
  deriving DecidableEq, Repr

/-- `pairing::handle_connection`, with the flag as the accept loop found it. -/
def handleConnection (deviceId : String) (registry : DeviceRegistry) (allowPairing : Bool) :
    Admission :=
  if registry.isAuthorized deviceId then .known
  else if allowPairing then .paired
  else .rejected

/-- A call of `enable_pairing`. -/
structure PairingRequest where
  start : ℕ
  secs : ℕ
  deriving DecidableEq, Repr

/-- When the window ends, with the clock moving so often in a second. -/
def PairingRequest.deadline (rate : ℕ) (r : PairingRequest) : ℕ := r.start + r.secs * rate

/-- The flag, the clock, and the tasks that sleep until they clear the flag. How the endpoint
was built and what was asked of it are kept for the statements. -/
structure SyncEndpoint where
  allowPairing : Bool
  now : ℕ
  timers : List ℕ
  persistent : Bool
  requests : List PairingRequest
  deriving DecidableEq, Repr

namespace SyncEndpoint

inductive Step where
  | enablePairing (secs : ℕ)
  /-- The clock moves by its unit. -/
  | tick
  deriving DecidableEq, Repr

/-- `SyncEndpointBuilder::build`. -/
def build (allowPairing : Bool) : SyncEndpoint :=
  { allowPairing := allowPairing, now := 0, timers := [], persistent := allowPairing,
    requests := [] }

section Clock

-- How often the clock moves in a second.
variable (rate : ℕ)

/-- The request is made, or the clock is moved. -/
def begin (s : SyncEndpoint) : Step → SyncEndpoint
  | .enablePairing secs =>
    let r : PairingRequest := { start := s.now, secs := secs }
    { s with
      allowPairing := true
      timers := s.timers ++ [PairingRequest.deadline rate r]
      requests := s.requests ++ [r] }
  | .tick => { s with now := s.now + 1 }

/-- The timers that have run out clear the flag. -/
def wake (s : SyncEndpoint) : SyncEndpoint :=
  if ∃ d ∈ s.timers, d ≤ s.now then
    { s with allowPairing := false, timers := s.timers.filter (s.now < ·) }
  else s

def step (s : SyncEndpoint) (i : Step) : SyncEndpoint := (s.begin rate i).wake

/-! ### What is to hold -/

/-- Pairing is on for good, or a window is open. -/
def Allowed (s : SyncEndpoint) : Prop :=
  s.persistent = true ∨
    ∃ r ∈ s.requests, r.start ≤ s.now ∧ s.now < PairingRequest.deadline rate r

/-- A device that is not known is paired exactly then. -/
def AdmitsRight (s : SyncEndpoint) : Prop :=
  ∀ deviceId registry, DeviceRegistry.isAuthorized deviceId registry = false →
    (handleConnection deviceId registry s.allowPairing = .paired ↔ s.Allowed rate)

/-- If a window ends with this step, then all do, and pairing is not on for good. -/
def EndsAlone (s : SyncEndpoint) (i : Step) : Prop :=
  (∃ d ∈ (s.begin rate i).timers, d ≤ (s.begin rate i).now) →
    s.persistent = false ∧ ∀ d ∈ (s.begin rate i).timers, d ≤ (s.begin rate i).now

/-! ### The timers -/

/-- The timers that have not run out are those of the open windows. -/
structure Timed (s : SyncEndpoint) : Prop where
  started : ∀ r ∈ s.requests, r.start ≤ s.now
  timers : ∀ d, s.now < d → (d ∈ s.timers ↔ ∃ r ∈ s.requests, PairingRequest.deadline rate r = d)

/-- No timer has run out. -/
def Asleep (s : SyncEndpoint) : Prop := ∀ d ∈ s.timers, s.now < d

variable {rate} {s : SyncEndpoint}

theorem timed_build (allowPairing : Bool) : (build allowPairing).Timed rate :=
  ⟨by simp [build], by simp [build]⟩

theorem Timed.begin (h : s.Timed rate) (i : Step) : (s.begin rate i).Timed rate := by
  cases i with
  | enablePairing secs =>
    refine ⟨fun r hr => ?_, fun d hd => ?_⟩
    · simp only [SyncEndpoint.begin, List.mem_append, List.mem_singleton] at hr
      rcases hr with hr | rfl
      · exact h.started r hr
      · exact Nat.le_refl _
    · simp only [SyncEndpoint.begin, List.mem_append, List.mem_singleton] at hd ⊢
      rw [h.timers d hd]
      constructor
      · rintro (⟨r, hr, hrd⟩ | rfl)
        · exact ⟨r, .inl hr, hrd⟩
        · exact ⟨_, .inr rfl, rfl⟩
      · rintro ⟨r, hr | rfl, hrd⟩
        · exact .inl ⟨r, hr, hrd⟩
        · exact .inr hrd.symm
  | tick =>
    refine ⟨fun r hr => ?_, fun d hd => ?_⟩
    · exact Nat.le_succ_of_le (h.started r hr)
    · exact h.timers d (Nat.lt_of_succ_lt hd)

theorem Timed.wake (h : s.Timed rate) : s.wake.Timed rate := by
  unfold SyncEndpoint.wake
  split_ifs
  · refine ⟨h.started, fun d (hd : s.now < d) => ?_⟩
    rw [← h.timers d hd]
    simp [hd]
  · exact h

theorem asleep_wake (s : SyncEndpoint) : s.wake.Asleep := by
  unfold wake
  split_ifs with hd
  · intro d hmem
    simpa using (List.mem_filter.mp hmem).2
  · intro d hmem
    by_contra hle
    exact hd ⟨d, hmem, Nat.not_lt.mp hle⟩

/-- A window is open as long as its timer runs. -/
theorem Timed.allowed_iff (h : s.Timed rate) :
    s.Allowed rate ↔ s.persistent = true ∨ ∃ d ∈ s.timers, s.now < d := by
  refine or_congr_right ⟨?_, ?_⟩
  · rintro ⟨r, hr, -, hd⟩
    exact ⟨_, (h.timers _ hd).mpr ⟨r, hr, rfl⟩, hd⟩
  · rintro ⟨d, hmem, hd⟩
    obtain ⟨r, hr, rfl⟩ := (h.timers d hd).mp hmem
    exact ⟨r, hr, h.started r hr, hd⟩

theorem handleConnection_eq_paired {deviceId : String} {registry : DeviceRegistry} {b : Bool}
    (h : DeviceRegistry.isAuthorized deviceId registry = false) :
    handleConnection deviceId registry b = .paired ↔ b = true := by
  cases b <;> simp [handleConnection, h]

/-- Admission is decided by the flag. -/
theorem admitsRight_iff : s.AdmitsRight rate ↔ (s.allowPairing = true ↔ s.Allowed rate) := by
  constructor
  · intro h
    have hnone : DeviceRegistry.isAuthorized "" { devices := [] } = false := rfl
    rw [← h "" { devices := [] } hnone, handleConnection_eq_paired hnone]
  · intro h deviceId registry hid
    rw [handleConnection_eq_paired hid, h]

/-- Before the timers are looked at, the flag is set if a timer is there. -/
theorem begin_allowPairing (hs : s.Timed rate) (ha : s.Asleep) (h : s.AdmitsRight rate)
    (i : Step) : (s.begin rate i).allowPairing = true ↔
      s.persistent = true ∨ ∃ d, d ∈ (s.begin rate i).timers := by
  cases i with
  | enablePairing secs =>
    simp only [begin, true_iff]
    exact .inr ⟨_, List.mem_append_right _ (List.mem_singleton_self _)⟩
  | tick =>
    show s.allowPairing = true ↔ s.persistent = true ∨ ∃ d, d ∈ s.timers
    rw [admitsRight_iff.mp h, hs.allowed_iff]
    refine or_congr_right (exists_congr fun d => ?_)
    exact and_iff_left_of_imp (ha d)

theorem begin_persistent (i : Step) : (s.begin rate i).persistent = s.persistent := by
  cases i <;> rfl

theorem wake_persistent : s.wake.persistent = s.persistent := by
  unfold wake
  split_ifs <;> rfl

/-- A step that starts with the right flag ends with it exactly if no window ends within
another or within persistent pairing. -/
theorem admitsRight_step_iff (hs : s.Timed rate) (ha : s.Asleep) (h : s.AdmitsRight rate)
    (i : Step) : (s.step rate i).AdmitsRight rate ↔ s.EndsAlone rate i := by
  have hflag := begin_allowPairing hs ha h i
  have htimed : (s.step rate i).Timed rate := (hs.begin i).wake
  rw [admitsRight_iff, htimed.allowed_iff, EndsAlone, step, wake_persistent, begin_persistent]
  unfold wake
  split_ifs with hd
  · simp only [false_iff, not_or, Bool.not_eq_true, not_exists, not_and,
      List.mem_filter, decide_eq_true_eq, and_imp, Nat.not_lt, hd, forall_const]
    refine and_congr_right fun _ => forall₂_congr fun d _ => ?_
    exact ⟨fun h => Nat.not_lt.mp fun hlt => absurd hlt (Nat.not_lt.mpr (h hlt)), fun h _ => h⟩
  · rw [hflag]
    refine iff_of_true (or_congr_right (exists_congr fun d => ?_)) (fun hdue => absurd hdue hd)
    refine ⟨fun hmem => ⟨hmem, ?_⟩, fun hmem => hmem.1⟩
    exact Nat.not_le.mp fun hle => hd ⟨d, hmem, hle⟩

/-- Along a run a device that is not known is paired exactly while pairing is on for good or a
window is open, if and only if no window ends while another is open or pairing is on for good. -/
theorem pairing_run (allowPairing : Bool) (is : List Step) :
    Along (step rate) (AdmitsRight rate) (build allowPairing) is ↔
      Meets (step rate) (EndsAlone rate) (build allowPairing) is := by
  refine along_iff_meets (I := fun s => s.Timed rate ∧ s.Asleep) ?_ ?_ ?_ ?_
  · exact fun t i ht _ _ => ⟨(ht.1.begin i).wake, asleep_wake _⟩
  · exact fun t i ht hp => admitsRight_step_iff ht.1 ht.2 hp i
  · exact ⟨timed_build allowPairing, by simp [Asleep, build]⟩
  · rw [admitsRight_iff, (timed_build allowPairing).allowed_iff]
    simp [build]

/-- The first of two overlapping windows ends, and the second with it. -/
theorem not_admitsRight_overlap :
    ¬ ∀ rate allowPairing is,
      Along (step rate) (AdmitsRight rate) (build allowPairing) is := by
  intro h
  have hlast := (h 1 false [.enablePairing 2, .tick, .enablePairing 2, .tick]).last
  rw [admitsRight_iff] at hlast
  have hopen : (run (step 1) (build false)
      [.enablePairing 2, .tick, .enablePairing 2, .tick]).Allowed 1 :=
    .inr ⟨⟨1, 2⟩, by decide, by decide, by decide⟩
  exact absurd (hlast.mpr hopen) (by decide)

end Clock

end SyncEndpoint

end Forgetty
