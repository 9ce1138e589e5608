import Forgetty.Lib.Interruption
import Forgetty.Workspace.Persistence

/-! A save that fails or is interrupted. The answers of the operating system stand for all of it:
code interrupted at a call is code whose calls are refused from there on, and a write may stop after
any number of symbols. Up to the rename the session file is not touched, and the rename is one step.
When it is refused the file itself is written, and a state nested too deep is no session once it is
stored. A state that is no text is not stored at all. -/

namespace Forgetty

open Lib FileStore

section

variable {α : Type} (os : Os Uuid) (codec : SessionCodec α) (path : FilePath)
  (state : WorkspaceState) (d : Disk α)

/-- What a file holds for the program. -/
def sessionAt : Option WorkspaceState := (d.files.get path).bind codec.decode

/-- The text of a state cut off is no session, and the whole text is no other one. -/
def SessionCodec.ReadsWhole : Prop :=
  ∀ s n t, s.IsText → codec.decode ((codec.encode s).take n) = some t →
    (codec.encode s).length ≤ n ∧ t = s

/-- After the save the file holds what it held or the new state, and it is there if it was. -/
structure AllOrNothing : Prop where
  session : sessionAt codec path (saveToPath os codec path state d).1 = sessionAt codec path d ∨
    sessionAt codec path (saveToPath os codec path state d).1 = some state
  kept : path ∈ d.files → path ∈ (saveToPath os codec path state d).1.files

/-- The number of symbols that come to be in the file if it is written in place. -/
def DirectWrite (n : ℕ) : Prop :=
  match os.answer (d.calls + 3) with
  | .works => n = (codec.encode state).length
  | .refused => False
  | .broke k => n = k

/-- No session is in the file; or the state is no text; or the save does not come to the rename; or
the rename works, or is refused and the file is written in place to its end or not at all, with a
state that is not nested too deep. -/
def SaveGuard : Prop :=
  sessionAt codec path d = none ∨ ¬state.IsText ∨
    (os.answer d.calls = .works → os.answer (d.calls + 1) = .works →
      if os.answer (d.calls + 2) = .works then state.nesting ≤ recursionLimit
      else ∀ n, DirectWrite os codec state d n →
        (codec.encode state).length ≤ n ∧ state.nesting ≤ recursionLimit)

end

/-! ### The session file after a save -/

section

variable {α : Type} {os : Os Uuid} {codec : SessionCodec α} {path : FilePath}
  {state : WorkspaceState} {d : Disk α}

theorem jsonTmp_ne (path : FilePath) : path ≠ .jsonTmp path := by
  intro h
  have hsize := congrArg sizeOf h
  simp at hsize

theorem createDirAll_ok (h : os.answer d.calls = .works) : d.createDirAll os = (d.count, .ok ()) := by
  simp [createDirAll, h]

theorem write_ok (h : os.answer d.calls = .works) (p : FilePath) (c : List α) :
    d.write os p c = ({ d.count with files := d.files.insert p c }, .ok ()) := by
  simp [FileStore.write, h]

section

variable (codec path state)

/-- The file is not touched before the temporary file is complete. -/
theorem saveToPath_get_early (h : ¬(os.answer d.calls = .works ∧ os.answer (d.calls + 1) = .works)) :
    (saveToPath os codec path state d).1.files.get path = d.files.get path := by
  by_cases hdir : os.answer d.calls = .works
  · have htmp : os.answer (d.calls + 1) ≠ .works := fun htmp => h ⟨hdir, htmp⟩
    rw [saveToPath, createDirAll_ok hdir, andThen_ok]
    cases codec.toStringPretty state with
    | error e => rfl
    | ok json =>
      cases hw : os.answer (d.calls + 1) with
      | works => exact absurd hw htmp
      | refused => simp [FileStore.write, count, andThen, hw]
      | broke k => simp [FileStore.write, count, andThen, hw, jsonTmp_ne]
  · simp [saveToPath, createDirAll, count, andThen, hdir]

/-- Nor is it touched for a state that is no text. -/
theorem saveToPath_get_refused (h : ¬state.IsText) :
    (saveToPath os codec path state d).1.files.get path = d.files.get path := by
  have hrefused : codec.toStringPretty state = .error _ := if_neg h
  by_cases hdir : os.answer d.calls = .works
  · simp [saveToPath, createDirAll, count, hdir, hrefused]
  · simp [saveToPath, createDirAll, count, andThen, hdir]

/-- The rename puts the whole text there. -/
theorem saveToPath_get_renamed (htext : state.IsText) (hdir : os.answer d.calls = .works)
    (htmp : os.answer (d.calls + 1) = .works) (hren : os.answer (d.calls + 2) = .works) :
    (saveToPath os codec path state d).1.files.get path = some (codec.encode state) := by
  simp [saveToPath, SessionCodec.toStringPretty_ok htext, createDirAll, FileStore.write,
    FileStore.rename, count, hdir, htmp, hren]

/-- When it is refused, the file is written in place. -/
theorem saveToPath_get_direct (htext : state.IsText) (hdir : os.answer d.calls = .works)
    (htmp : os.answer (d.calls + 1) = .works) (hren : os.answer (d.calls + 2) ≠ .works) :
    (saveToPath os codec path state d).1.files.get path =
      match os.answer (d.calls + 3) with
      | .works => some (codec.encode state)
      | .refused => d.files.get path
      | .broke k => some ((codec.encode state).take k) := by
  have hsave : saveToPath os codec path state d =
      FileStore.write os
        { d.count.count.count with
          files := d.files.insert (.jsonTmp path) (codec.encode state) } path (codec.encode state) := by
    have hrename : ∀ d' : Disk α, os.answer d'.calls ≠ .works →
        d'.rename os (.jsonTmp path) path = (d'.count, .error failure) := by
      intro d' ha
      unfold FileStore.rename
      split
      · contradiction
      · contradiction
      · rfl
    rw [saveToPath, createDirAll_ok hdir, andThen_ok, SessionCodec.toStringPretty_ok htext]
    dsimp only
    rw [write_ok (by exact htmp), andThen_ok, hrename _ (by exact hren)]
    rfl
  rw [hsave]
  cases hw : os.answer (d.calls + 3) with
  | works => simp [FileStore.write, count, hw]
  | refused => simp [FileStore.write, count, hw, jsonTmp_ne]
  | broke k => simp [FileStore.write, count, hw]

/-- In any case the file is as it was, or has a beginning of the text. -/
theorem saveToPath_get (os : Os Uuid) (d : Disk α) :
    (saveToPath os codec path state d).1.files.get path = d.files.get path ∨
      ∃ k, (saveToPath os codec path state d).1.files.get path =
        some ((codec.encode state).take k) := by
  by_cases htext : state.IsText
  · by_cases hreach : os.answer d.calls = .works ∧ os.answer (d.calls + 1) = .works
    · obtain ⟨hdir, htmp⟩ := hreach
      have hwhole : codec.encode state = (codec.encode state).take (codec.encode state).length :=
        List.take_length.symm
      by_cases hren : os.answer (d.calls + 2) = .works
      · have hget := saveToPath_get_renamed codec path state htext hdir htmp hren
        exact .inr ⟨_, hget.trans (congrArg some hwhole)⟩
      · have hget := saveToPath_get_direct codec path state htext hdir htmp hren
        cases hw : os.answer (d.calls + 3) with
        | works =>
          rw [hw] at hget
          exact .inr ⟨_, hget.trans (congrArg some hwhole)⟩
        | refused =>
          rw [hw] at hget
          exact .inl hget
        | broke k =>
          rw [hw] at hget
          exact .inr ⟨k, hget⟩
    · exact .inl (saveToPath_get_early codec path state hreach)
  · exact .inl (saveToPath_get_refused codec path state htext)

end

theorem allOrNothing_of_untouched
    (h : (saveToPath os codec path state d).1.files.get path = d.files.get path) :
    AllOrNothing os codec path state d where
  session := .inl (congrArg (Option.bind · codec.decode) h)
  kept hmem := by
    rw [PMap.mem_def] at hmem ⊢
    rwa [h]

/-- A text in the file is right exactly if it is whole and can be read, or there was no session. -/
theorem allOrNothing_of_written (hcodec : codec.ReadsWhole) (htext : state.IsText) {n : ℕ}
    (h : (saveToPath os codec path state d).1.files.get path = some ((codec.encode state).take n)) :
    AllOrNothing os codec path state d ↔ sessionAt codec path d = none ∨
      (codec.encode state).length ≤ n ∧ state.nesting ≤ recursionLimit := by
  have hafter : sessionAt codec path (saveToPath os codec path state d).1 =
      codec.decode ((codec.encode state).take n) := by
    rw [sessionAt, h]
    rfl
  have hkept : path ∈ (saveToPath os codec path state d).1.files := PMap.mem_of_get h
  have hread : codec.decode ((codec.encode state).take n) = some state ↔
      (codec.encode state).length ≤ n ∧ state.nesting ≤ recursionLimit := by
    constructor
    · intro hdec
      have hn := (hcodec state n state htext hdec).1
      rw [List.take_of_length_le hn, codec.decode_encode_iff htext] at hdec
      exact ⟨hn, hdec⟩
    · rintro ⟨hn, hdepth⟩
      rw [List.take_of_length_le hn, codec.decode_encode_iff htext]
      exact hdepth
  rw [← hread]
  cases hdec : codec.decode ((codec.encode state).take n) with
  | none =>
    rw [hdec] at hafter
    constructor
    · intro hall
      rcases hall.session with hsame | hnew
      · exact .inl (hsame.symm.trans hafter)
      · exact .inr (hafter.symm.trans hnew)
    · rintro (hnone | hsome)
      · exact ⟨.inl (hafter.trans hnone.symm), fun _ => hkept⟩
      · cases hsome
  | some t =>
    obtain rfl : t = state := (hcodec state n t htext hdec).2
    rw [hdec] at hafter
    exact iff_of_true ⟨.inr hafter, fun _ => hkept⟩ (.inr rfl)

theorem allOrNothing_of_whole (hcodec : codec.ReadsWhole) (htext : state.IsText)
    (h : (saveToPath os codec path state d).1.files.get path = some (codec.encode state)) :
    AllOrNothing os codec path state d ↔ sessionAt codec path d = none ∨
      state.nesting ≤ recursionLimit := by
  rw [← List.take_length (l := codec.encode state)] at h
  rw [allOrNothing_of_written hcodec htext h, and_iff_right (Nat.le_refl _)]

/-- As long as the rename is not refused, the save may be interrupted in any call. -/
theorem allOrNothing_interrupted (hcodec : codec.ReadsWhole) (hren : os.answer (d.calls + 2) = .works)
    (hdepth : state.nesting ≤ recursionLimit) (n : ℕ) (a : Answer) :
    AllOrNothing (os.interrupted n a) codec path state d := by
  by_cases htext : state.IsText
  · by_cases hreach : (os.interrupted n a).answer d.calls = .works ∧
        (os.interrupted n a).answer (d.calls + 1) = .works
    · by_cases hrenamed : (os.interrupted n a).answer (d.calls + 2) = .works
      · have hget := saveToPath_get_renamed codec path state htext hreach.1 hreach.2 hrenamed
        exact (allOrNothing_of_whole hcodec htext hget).mpr (.inr hdepth)
      · have hlast : n < d.calls + 3 := by
          by_contra hlt
          exact hrenamed ((Os.interrupted_of_lt (by omega)).trans hren)
        have hget := saveToPath_get_direct codec path state htext hreach.1 hreach.2 hrenamed
        rw [Os.interrupted_of_gt hlast] at hget
        exact allOrNothing_of_untouched hget
    · exact allOrNothing_of_untouched (saveToPath_get_early codec path state hreach)
  · exact allOrNothing_of_untouched (saveToPath_get_refused codec path state htext)

/-- A save that fails or is interrupted anywhere leaves the old session or the new one exactly if it
meets the guard. -/
theorem allOrNothing_iff (hcodec : codec.ReadsWhole) :
    AllOrNothing os codec path state d ↔ SaveGuard os codec path state d := by
  unfold SaveGuard
  by_cases htext : state.IsText
  · by_cases hreach : os.answer d.calls = .works ∧ os.answer (d.calls + 1) = .works
    · obtain ⟨hdir, htmp⟩ := hreach
      simp only [hdir, htmp, htext, not_true_eq_false, false_or, forall_const]
      split_ifs with hren
      · have hget := saveToPath_get_renamed codec path state htext hdir htmp hren
        rw [allOrNothing_of_whole hcodec htext hget]
      · have hget := saveToPath_get_direct codec path state htext hdir htmp hren
        unfold DirectWrite
        cases hw : os.answer (d.calls + 3) with
        | works =>
          rw [hw] at hget
          rw [allOrNothing_of_whole hcodec htext hget]
          simp
        | refused =>
          rw [hw] at hget
          exact iff_of_true (allOrNothing_of_untouched hget) (.inr fun _ h => h.elim)
        | broke k =>
          rw [hw] at hget
          rw [allOrNothing_of_written hcodec htext hget]
          simp
    · have hget := saveToPath_get_early codec path state hreach
      exact iff_of_true (allOrNothing_of_untouched hget)
        (.inr (.inr fun hdir htmp => absurd ⟨hdir, htmp⟩ hreach))
  · have hget := @saveToPath_get_refused _ os codec path state d htext
    exact iff_of_true (allOrNothing_of_untouched hget) (.inr (.inl htext))

end

theorem readsWhole_doubled : SessionCodec.doubled.ReadsWhole := by
  intro s n t htext h
  match n with
  | 0 => cases h
  | 1 => cases h
  | n + 2 =>
    simp only [SessionCodec.doubled, List.take_succ_cons, List.take_nil] at h ⊢
    split_ifs at h
    exact ⟨by simp, (Option.some.inj h).symm⟩

/-- The rename is refused, and the disk is full after one symbol. -/
def fullDisk : Os Uuid where
  answer
    | 2 => .refused
    | 3 => .broke 1
    | _ => .works
  names _ := []

def savedDisk : Disk WorkspaceState :=
  { files := PMap.empty.insert (.session ⟨7⟩) (SessionCodec.doubled.encode .new)
    calls := 0
    unlinked := [] }

theorem allOrNothing_iff_fullDisk :
    SessionCodec.doubled.ReadsWhole ∧
      (AllOrNothing fullDisk .doubled (.session ⟨7⟩) .new savedDisk ↔
        SaveGuard fullDisk .doubled (.session ⟨7⟩) .new savedDisk) :=
  ⟨readsWhole_doubled, allOrNothing_iff readsWhole_doubled⟩

/-- The session that was there is gone. -/
theorem not_allOrNothing_fullDisk :
    ¬∀ (os : Os Uuid) (path : FilePath) (state : WorkspaceState) (d : Disk WorkspaceState),
      AllOrNothing os .doubled path state d := by
  intro h
  have hall := h fullDisk (.session ⟨7⟩) .new savedDisk
  have hget := @saveToPath_get_direct _ fullDisk .doubled (.session ⟨7⟩) .new savedDisk
    (by decide) rfl rfl (by decide)
  rw [allOrNothing_of_written readsWhole_doubled (by decide) hget] at hall
  rcases hall with hnone | ⟨hlength, -⟩
  · cases hnone
  · exact absurd hlength (by decide)

end Forgetty
