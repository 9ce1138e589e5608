import Forgetty.Sync.Registry

/-! Several processes with one registry file. Each has a list of its own that it loaded when
it came up, and every change writes its whole list over the file. A connection looks whether
its device is known, lets go of the lock, and later adds the device or notes that it was
seen. -/

namespace Forgetty

open Lib

/-- A connection behind its first look at the registry. -/
structure PairingHandler where
  deviceId : String
  isAuthorized : Bool
  allowPairing : Bool
  deriving DecidableEq, Repr

/-- What a process saves while it holds the lock of its list. -/
inductive Saving where
  | addition
  | lastSeen
  | removal (deviceId : String)
  deriving DecidableEq, Repr

/-- A daemon, or a process that was started to revoke a device. -/
structure RegistryProcess where
  registry : DeviceRegistry
  handlers : List PairingHandler
  saving : Option Saving
  deriving DecidableEq, Repr

/-- The file and the temporary file, the processes, and the devices whose removal was
acknowledged and that were not paired since. Without a file there is no device. -/
structure SharedRegistry where
  file : List DeviceEntry
  tmp : Option (List DeviceEntry)
  processes : PMap ℕ RegistryProcess
  revoked : List String

namespace SharedRegistry

/-- What the processes do, one of them at a time. A save is two of these steps. -/
inductive Step where
  | load (n : ℕ)
  | exit (n : ℕ)
  /-- The first look at the registry. -/
  | accept (n : ℕ) (deviceId : String) (allowPairing : Bool)
  /-- The connection takes the lock again. -/
  | proceed (n k : ℕ) (name now : String)
  | remove (n : ℕ) (deviceId : String)
  /-- The temporary file is renamed, and the lock is released. -/
  | rename (n : ℕ)

/-- No process has loaded the file. -/
def initial (file : List DeviceEntry) : SharedRegistry :=
  { file := file, tmp := none, processes := .empty, revoked := [] }

def setProcess (n : ℕ) (p : RegistryProcess) (s : SharedRegistry) : SharedRegistry :=
  { s with processes := s.processes.insert n p }

/-- The list in memory is changed and written to the temporary file. -/
def write (n : ℕ) (p : RegistryProcess) (registry : DeviceRegistry) (saving : Saving)
    (s : SharedRegistry) : SharedRegistry :=
  { s with tmp := some registry.devices }.setProcess n
    { p with registry := registry, saving := some saving }

/-- A process whose lock is free. -/
def idle (n : ℕ) (s : SharedRegistry) : Option RegistryProcess :=
  (s.processes.get n).filter (·.saving = none)

def load (n : ℕ) (s : SharedRegistry) : SharedRegistry :=
  if n ∈ s.processes then s
  else { s with tmp := none }.setProcess n
    { registry := { devices := s.file }, handlers := [], saving := none }

def exit (n : ℕ) (s : SharedRegistry) : SharedRegistry :=
  match s.idle n with
  | none => s
  | some _ => { s with processes := s.processes.erase n }

def accept (n : ℕ) (deviceId : String) (allowPairing : Bool) (s : SharedRegistry) :
    SharedRegistry :=
  match s.idle n with
  | none => s
  | some p =>
    let h : PairingHandler :=
      { deviceId := deviceId, isAuthorized := p.registry.isAuthorized deviceId,
        allowPairing := allowPairing }
    s.setProcess n { p with handlers := p.handlers ++ [h] }

/-- A known device was seen, an unknown one is added if pairing is allowed. What the first
look found decides which. -/
def proceed (n k : ℕ) (name now : String) (s : SharedRegistry) : SharedRegistry :=
  match s.idle n with
  | none => s
  | some p =>
    match p.handlers[k]? with
    | none => s
    | some h =>
      let p := { p with handlers := p.handlers.eraseIdx k }
      if h.isAuthorized then
        s.write n p { devices := DeviceRegistry.seen h.deviceId now p.registry.devices } .lastSeen
      else if h.allowPairing then
        let entry : DeviceEntry :=
          { deviceId := h.deviceId, name := name, pairedAt := now, lastSeen := none }
        { s with revoked := s.revoked.filter (· ≠ h.deviceId) }.write n p (p.registry.push entry)
          .addition
      else s.setProcess n p

def remove (n : ℕ) (deviceId : String) (s : SharedRegistry) : SharedRegistry :=
  match s.idle n with
  | none => s
  | some p =>
    let registry := p.registry.retainOthers deviceId
    if registry.devices.length < p.registry.devices.length then
      s.write n p registry (.removal deviceId)
    else s

/-- A rename that finds no temporary file is an error, and the removal is not acknowledged. -/
def rename (n : ℕ) (s : SharedRegistry) : SharedRegistry :=
  match s.processes.get n with
  | none => s
  | some p =>
    match p.saving, s.tmp with
    | none, _ => s
    | some _, none => s.setProcess n { p with saving := none }
    | some saving, some devices =>
      let s := { s with file := devices, tmp := none }.setProcess n { p with saving := none }
      match saving with
      | .removal deviceId => { s with revoked := deviceId :: s.revoked }
      | _ => s

def step (s : SharedRegistry) : Step → SharedRegistry
  | .load n => s.load n
  | .exit n => s.exit n
  | .accept n deviceId allowPairing => s.accept n deviceId allowPairing
  | .proceed n k name now => s.proceed n k name now
  | .remove n deviceId => s.remove n deviceId
  | .rename n => s.rename n

/-! ### What is to hold -/

def deviceIds (devices : List DeviceEntry) : List String := devices.map (·.deviceId)

/-- A device whose removal was acknowledged is neither in the file nor in any list, and no
device is there twice. -/
structure Durable (s : SharedRegistry) : Prop where
  file : ∀ id ∈ s.revoked, id ∉ deviceIds s.file
  lists : ∀ id ∈ s.revoked, ∀ n p, s.processes.get n = some p →
    p.registry.isAuthorized id = false
  fileIds : (deviceIds s.file).Nodup
  listIds : ∀ n p, s.processes.get n = some p → (deviceIds p.registry.devices).Nodup

/-- A connection that was unknown when it looked still is when it adds its device, and when
a removal is acknowledged no process has the device in its list. -/
def Guard (s : SharedRegistry) : Step → Prop
  | .proceed n k _ _ => ∀ p h, s.idle n = some p → p.handlers[k]? = some h →
      h.isAuthorized = false → h.allowPairing = true → p.registry.isAuthorized h.deviceId = false
  | .rename n => ∀ p id, s.processes.get n = some p → p.saving = some (.removal id) →
      s.tmp ≠ none → ∀ m q, s.processes.get m = some q → q.registry.isAuthorized id = false
  | _ => True

/-- The temporary file is the list of a process that has not renamed it yet. -/
def Written (s : SharedRegistry) : Prop :=
  ∀ devices, s.tmp = some devices →
    ∃ n p, s.processes.get n = some p ∧ p.saving ≠ none ∧ p.registry.devices = devices

/-! ### The lists -/

theorem isAuthorized_iff {r : DeviceRegistry} {id : String} :
    r.isAuthorized id = true ↔ id ∈ deviceIds r.devices := by
  simp [DeviceRegistry.isAuthorized, deviceIds]

theorem isAuthorized_eq_false {r : DeviceRegistry} {id : String} :
    r.isAuthorized id = false ↔ id ∉ deviceIds r.devices := by
  rw [← isAuthorized_iff, Bool.not_eq_true]

@[simp] theorem deviceIds_seen (id now : String) (devices : List DeviceEntry) :
    deviceIds (DeviceRegistry.seen id now devices) = deviceIds devices := by
  induction devices with
  | nil => rfl
  | cons d ds ih =>
    rw [DeviceRegistry.seen]
    split_ifs
    · rfl
    · simpa [deviceIds] using ih

@[simp] theorem deviceIds_push (entry : DeviceEntry) (r : DeviceRegistry) :
    deviceIds (r.push entry).devices = deviceIds r.devices ++ [entry.deviceId] := by
  simp [deviceIds, DeviceRegistry.push]

theorem deviceIds_retainOthers_sublist (id : String) (r : DeviceRegistry) :
    (deviceIds (r.retainOthers id).devices).Sublist (deviceIds r.devices) :=
  List.Sublist.map _ List.filter_sublist

section Steps

variable {s : SharedRegistry} {n : ℕ} {p : RegistryProcess}

theorem idle_eq_some : s.idle n = some p ↔ s.processes.get n = some p ∧ p.saving = none := by
  simp [idle, Option.filter_eq_some_iff]

/-- A list without a revoked device, and without one twice, goes in the place of another. -/
theorem Durable.setProcess (h : Durable s)
    (hgone : ∀ id ∈ s.revoked, id ∉ deviceIds p.registry.devices)
    (hids : (deviceIds p.registry.devices).Nodup) : Durable (s.setProcess n p) where
  file := h.file
  lists id hid m q hq := by
    rw [SharedRegistry.setProcess, PMap.get_insert] at hq
    split_ifs at hq
    · obtain rfl := Option.some.inj hq
      exact isAuthorized_eq_false.mpr (hgone id hid)
    · exact h.lists id hid m q hq
  fileIds := h.fileIds
  listIds m q hq := by
    rw [SharedRegistry.setProcess, PMap.get_insert] at hq
    split_ifs at hq
    · obtain rfl := Option.some.inj hq
      exact hids
    · exact h.listIds m q hq

/-- A process gets a list that is a part of its own. -/
theorem Durable.setPart (h : Durable s) {q : RegistryProcess} (hp : s.processes.get n = some p)
    (hsub : (deviceIds q.registry.devices).Sublist (deviceIds p.registry.devices)) :
    Durable (s.setProcess n q) :=
  h.setProcess (fun id hid hmem => isAuthorized_eq_false.mp (h.lists id hid n p hp) (hsub.subset hmem))
    ((h.listIds n p hp).sublist hsub)

theorem Durable.withTmp (h : Durable s) (tmp : Option (List DeviceEntry)) :
    Durable { s with tmp := tmp } := ⟨h.file, h.lists, h.fileIds, h.listIds⟩

theorem Durable.load (h : Durable s) (n : ℕ) : Durable (s.load n) := by
  unfold SharedRegistry.load
  split_ifs
  · exact h
  · exact (h.withTmp none).setProcess h.file h.fileIds

theorem Durable.exit (h : Durable s) (n : ℕ) : Durable (s.exit n) := by
  unfold SharedRegistry.exit
  split
  · exact h
  · have hget {m : ℕ} {q : RegistryProcess} (hq : (s.processes.erase n).get m = some q) :
        s.processes.get m = some q := by
      rw [PMap.get_erase] at hq
      split_ifs at hq
      exact hq
    exact ⟨h.file, fun id hid m q hq => h.lists id hid m q (hget hq), h.fileIds,
      fun m q hq => h.listIds m q (hget hq)⟩

theorem Durable.accept (h : Durable s) (n : ℕ) (id : String) (allowPairing : Bool) :
    Durable (s.accept n id allowPairing) := by
  unfold SharedRegistry.accept
  split
  · exact h
  · rename_i p hp
    exact h.setPart (idle_eq_some.mp hp).1 (List.Sublist.refl _)

theorem Durable.remove (h : Durable s) (n : ℕ) (id : String) : Durable (s.remove n id) := by
  unfold SharedRegistry.remove
  split
  · exact h
  · rename_i p hp
    dsimp only
    split_ifs
    · exact (h.withTmp _).setPart (idle_eq_some.mp hp).1 (deviceIds_retainOthers_sublist id _)
    · exact h

/-- A device is added that was not known when the connection looked. -/
theorem durable_addition_iff (h : Durable s) (hp : s.processes.get n = some p)
    (q : RegistryProcess) (entry : DeviceEntry) :
    Durable ({ s with revoked := s.revoked.filter (· ≠ entry.deviceId) }.write n q
        (p.registry.push entry) .addition) ↔ p.registry.isAuthorized entry.deviceId = false := by
  have hids := h.listIds n p hp
  rw [isAuthorized_eq_false]
  constructor
  · intro hd
    have hnew := hd.listIds n _ (PMap.get_insert_self _ _ _)
    simp only [deviceIds_push] at hnew
    exact fun hmem => (List.nodup_append.mp hnew).2.2 _ hmem _ (List.mem_singleton_self _) rfl
  · intro hnot
    have hrest : Durable { s with revoked := s.revoked.filter (· ≠ entry.deviceId) } :=
      ⟨fun id hid => h.file id (List.mem_filter.mp hid).1,
        fun id hid => h.lists id (List.mem_filter.mp hid).1, h.fileIds, h.listIds⟩
    refine (hrest.withTmp _).setProcess (fun id hid hmem => ?_) ?_
    · obtain ⟨hid, hne⟩ := List.mem_filter.mp hid
      rw [deviceIds_push, List.mem_append, List.mem_singleton] at hmem
      rcases hmem with hmem | rfl
      · exact isAuthorized_eq_false.mp (h.lists id hid n p hp) hmem
      · simp at hne
    · rw [deviceIds_push]
      exact List.nodup_append.mpr ⟨hids, by simp, by grind⟩

theorem guard_proceed {k : ℕ} {name now : String} {handler : PairingHandler}
    (hidle : s.idle n = some p) (hk : p.handlers[k]? = some handler) :
    s.Guard (.proceed n k name now) ↔ (handler.isAuthorized = false → handler.allowPairing = true →
      p.registry.isAuthorized handler.deviceId = false) := by
  refine ⟨fun h => h p handler hidle hk, fun h q handler' hq hk' => ?_⟩
  obtain rfl := Option.some.inj (hidle.symm.trans hq)
  obtain rfl := Option.some.inj (hk.symm.trans hk')
  exact h

theorem durable_proceed_iff (h : Durable s) (n k : ℕ) (name now : String) :
    Durable (s.proceed n k name now) ↔ s.Guard (.proceed n k name now) := by
  unfold SharedRegistry.proceed
  cases hidle : s.idle n with
  | none => exact iff_of_true h fun p _ hp => absurd (hidle.symm.trans hp) (by simp)
  | some p =>
    obtain ⟨hp, -⟩ := idle_eq_some.mp hidle
    dsimp only
    cases hk : p.handlers[k]? with
    | none =>
      refine iff_of_true h fun q handler hq hk' => ?_
      obtain rfl := Option.some.inj (hidle.symm.trans hq)
      exact absurd (hk.symm.trans hk') (by simp)
    | some handler =>
      rw [guard_proceed hidle hk]
      dsimp only
      by_cases hauth : handler.isAuthorized = true
      · rw [if_pos hauth]
        refine iff_of_true ((h.withTmp _).setPart hp ?_) fun hnot => absurd hauth (by simp [hnot])
        simp
      · rw [if_neg hauth]
        by_cases hallow : handler.allowPairing = true
        · rw [if_pos hallow]
          have hiff := @durable_addition_iff s n p h hp
            { p with handlers := p.handlers.eraseIdx k }
            { deviceId := handler.deviceId, name := name, pairedAt := now, lastSeen := none }
          exact hiff.trans ⟨fun hfalse _ _ => hfalse, fun hall => hall (by simpa using hauth) hallow⟩
        · rw [if_neg hallow]
          exact iff_of_true (h.setPart hp (List.Sublist.refl _)) fun _ h' => absurd h' hallow

/-- The file becomes the list of a process. -/
theorem Durable.setFile (h : Durable s) (hp : s.processes.get n = some p) :
    Durable { s with file := p.registry.devices, tmp := none } :=
  ⟨fun id hid => isAuthorized_eq_false.mp (h.lists id hid n p hp), h.lists, h.listIds n p hp,
    h.listIds⟩

theorem durable_revoke_iff (h : Durable s) (id : String) :
    Durable { s with revoked := id :: s.revoked } ↔
      id ∉ deviceIds s.file ∧
        ∀ m q, s.processes.get m = some q → q.registry.isAuthorized id = false := by
  constructor
  · intro hd
    exact ⟨hd.file id List.mem_cons_self, hd.lists id List.mem_cons_self⟩
  · rintro ⟨hfile, hlists⟩
    refine ⟨fun id' hid => ?_, fun id' hid => ?_, h.fileIds, h.listIds⟩
    · rcases List.mem_cons.mp hid with rfl | hid
      · exact hfile
      · exact h.file id' hid
    · rcases List.mem_cons.mp hid with rfl | hid
      · exact hlists
      · exact h.lists id' hid

/-- The lists stay as they are when a process releases its lock. -/
theorem forall_lists_release {P : DeviceRegistry → Prop} (hp : s.processes.get n = some p) :
    (∀ m q, (s.processes.insert n { p with saving := none }).get m = some q → P q.registry) ↔
      ∀ m q, s.processes.get m = some q → P q.registry := by
  refine ⟨fun h m q hq => ?_, fun h m q hq => ?_⟩
  · by_cases hm : m = n
    · subst hm
      obtain rfl := Option.some.inj (hp.symm.trans hq)
      exact h m { p with saving := none } (PMap.get_insert_self _ _ _)
    · exact h m q ((PMap.get_insert_of_ne hm).trans hq)
  · rw [PMap.get_insert] at hq
    split_ifs at hq
    · obtain rfl := Option.some.inj hq
      exact h n p hp
    · exact h m q hq

/-- The removal is acknowledged when the temporary file got the name of the registry. -/
theorem durable_rename_iff (hw : Written s) (h : Durable s) (n : ℕ) :
    Durable (s.rename n) ↔ s.Guard (.rename n) := by
  unfold SharedRegistry.rename
  cases hp : s.processes.get n with
  | none => exact iff_of_true h fun p _ hp' => absurd (hp.symm.trans hp') (by simp)
  | some p =>
    dsimp only
    cases hsaving : p.saving with
    | none =>
      refine iff_of_true h fun q id hq hq' => ?_
      obtain rfl := Option.some.inj (hp.symm.trans hq)
      exact absurd (hsaving.symm.trans hq') (by simp)
    | some saving =>
      cases htmp : s.tmp with
      | none =>
        exact iff_of_true (h.setPart hp (List.Sublist.refl _)) fun _ _ _ _ hne => absurd htmp hne
      | some devices =>
        obtain ⟨m, owner, howner, -, rfl⟩ := hw devices htmp
        have hd := (h.setFile howner).setPart (q := { p with saving := none }) hp
          (List.Sublist.refl _)
        cases saving with
        | removal id =>
          refine (durable_revoke_iff hd id).trans ?_
          simp only [setProcess, forall_lists_release (P := fun r => r.isAuthorized id = false) hp]
          refine ⟨fun ⟨_, hlists⟩ q id' hq hq' _ => ?_, fun hg => ?_⟩
          · obtain rfl := Option.some.inj (hp.symm.trans hq)
            obtain rfl : id = id' := by simpa [hsaving] using hq'
            exact hlists
          · have hlists := hg p id hp hsaving (by simp [htmp])
            exact ⟨isAuthorized_eq_false.mp (hlists m owner howner), hlists⟩
        | _ =>
          refine iff_of_true hd fun q id hq hq' => ?_
          obtain rfl := Option.some.inj (hp.symm.trans hq)
          exact absurd (hsaving.symm.trans hq') (by simp)

theorem durable_step_iff (hw : Written s) (h : Durable s) (i : Step) :
    Durable (s.step i) ↔ s.Guard i := by
  cases i with
  | load n => exact iff_of_true (h.load n) trivial
  | exit n => exact iff_of_true (h.exit n) trivial
  | accept n id allowPairing => exact iff_of_true (h.accept n id allowPairing) trivial
  | proceed n k name now => exact durable_proceed_iff h n k name now
  | remove n id => exact iff_of_true (h.remove n id) trivial
  | rename n => exact durable_rename_iff hw h n

/-! ### The temporary file -/

theorem written_write (n : ℕ) (p : RegistryProcess) (registry : DeviceRegistry) (saving : Saving) :
    Written (s.write n p registry saving) := by
  intro devices htmp
  obtain rfl := Option.some.inj htmp
  exact ⟨n, _, PMap.get_insert_self _ _ _, by simp, rfl⟩

theorem written_of_none (h : s.tmp = none) : Written s :=
  fun _ htmp => absurd (h.symm.trans htmp) (by simp)

/-- A process that is not saving is not the one the temporary file is from. -/
theorem Written.of_idle (h : Written s) (hp : s.idle n = some p) {processes : PMap ℕ RegistryProcess}
    (hsame : ∀ m, m ≠ n → processes.get m = s.processes.get m) :
    Written { s with processes := processes } := by
  intro devices htmp
  obtain ⟨m, owner, howner, hsaving, heq⟩ := h devices htmp
  refine ⟨m, owner, (hsame m ?_).trans howner, hsaving, heq⟩
  rintro rfl
  obtain ⟨hget, hidle⟩ := idle_eq_some.mp hp
  obtain rfl := Option.some.inj (hget.symm.trans howner)
  exact hsaving hidle

theorem Written.setIdle (h : Written s) (hp : s.idle n = some p) (q : RegistryProcess) :
    Written (s.setProcess n q) := h.of_idle hp fun _ hm => PMap.get_insert_of_ne hm

theorem Written.step (h : Written s) (i : Step) : Written (s.step i) := by
  cases i with
  | load n =>
    simp only [SharedRegistry.step, load]
    split_ifs
    · exact h
    · exact written_of_none rfl
  | exit n =>
    simp only [SharedRegistry.step, exit]
    split
    · exact h
    · rename_i p hp
      exact h.of_idle hp fun _ hm => PMap.get_erase_of_ne hm
  | accept n id allowPairing =>
    simp only [SharedRegistry.step, accept]
    split
    · exact h
    · rename_i p hp
      exact h.setIdle hp _
  | proceed n k name now =>
    simp only [SharedRegistry.step, proceed]
    split
    · exact h
    · rename_i p hp
      split
      · exact h
      · split_ifs
        · exact written_write n _ _ _
        · exact written_write n _ _ _
        · exact h.setIdle hp _
  | remove n id =>
    simp only [SharedRegistry.step, remove]
    split
    · exact h
    · split_ifs
      · exact written_write n _ _ _
      · exact h
  | rename n =>
    simp only [SharedRegistry.step, rename]
    split
    · exact h
    · split
      · exact h
      · rename_i htmp
        exact written_of_none htmp
      · split <;> exact written_of_none rfl

end Steps

/-- A removal that was acknowledged stays, and no device is there twice, exactly if no device
was twice in the file at the start and every step meets the guard. -/
theorem durable_along_iff (file : List DeviceEntry) (steps : List Step) :
    Along step Durable (initial file) steps ↔
      (deviceIds file).Nodup ∧ Meets step Guard (initial file) steps := by
  have hstart : Durable (initial file) ↔ (deviceIds file).Nodup :=
    ⟨fun h => h.fileIds, fun h => ⟨fun _ hid => absurd hid List.not_mem_nil,
      fun _ hid => absurd hid List.not_mem_nil, h, fun _ _ hq => absurd hq (by simp [initial])⟩⟩
  rw [← hstart]
  exact along_iff_and_meets (fun _ i hw _ _ => hw.step i) (fun _ i hw h => durable_step_iff hw h i)
    fun _ => written_of_none rfl

/-- With `save_of_saves`, a save that nobody comes between leaves the same in the file. -/
theorem stored_write_rename {α ν : Type} {os : Os ν} {codec : RegistryCodec α}
    {d : RegistryDisk α} (hd : DeviceStore.Saves os d) (s : SharedRegistry) (n : ℕ)
    (p : RegistryProcess) (registry : DeviceRegistry) (saving : Saving) :
    DeviceStore.stored codec (registry.save os codec d).1 =
      some ((s.write n p registry saving).rename n).file := by
  have hfile : ((s.write n p registry saving).rename n).file = registry.devices := by
    simp only [write, setProcess, rename, PMap.get_insert_self]
    cases saving <;> rfl
  rw [hfile]
  exact DeviceStore.inStep_saved hd registry

/-- Two daemons have the device. It is revoked in one of them; the other still lets it in,
and then writes it back to the file. -/
def revokedInOne : List Step :=
  [.load 0, .load 1, .remove 0 "phone", .rename 0, .accept 1 "phone" false,
    .proceed 1 0 "Phone" "2026-01-02T00:00:00Z", .rename 1]

/-- Two connections of a new device look before either adds it. -/
def pairedTwice : List Step :=
  [.load 0, .accept 0 "phone" true, .accept 0 "phone" true, .proceed 0 0 "Phone" "now",
    .rename 0, .proceed 0 0 "Phone" "now", .rename 0]

theorem not_durable :
    ¬Along step Durable (initial [phone]) revokedInOne ∧
      ¬Along step Durable (initial []) pairedTwice := by
  constructor
  · intro h
    have hfile := h.last.file "phone" (by decide)
    exact hfile (by decide)
  · intro h
    exact absurd h.last.fileIds (by decide)

end SharedRegistry

end Forgetty
