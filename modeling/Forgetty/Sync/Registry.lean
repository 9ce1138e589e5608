import Forgetty.Lib.FileStore
import Forgetty.Lib.Run

/-! The registry of paired devices: a list in memory and the file it is saved to after every
change. Memory is changed first, so that memory and file part when the file cannot be
saved. -/

namespace Forgetty

open Lib FileStore

structure DeviceEntry where
  deviceId : String
  name : String
  pairedAt : String
  lastSeen : Option String
  deriving DecidableEq, Repr

/-- The file of the registry and the one it is written to first. -/
inductive RegistryPath where
  | file
  | tmp
  deriving DecidableEq, Repr

/-- The JSON library at the type of the file. What is printed is read back. -/
structure RegistryCodec (α : Type) where
  encode : List DeviceEntry → List α
  decode : List α → Option (List DeviceEntry)
  decode_encode : ∀ devices, decode (encode devices) = some devices

abbrev RegistryDisk (α : Type) := FileStore RegistryPath α

inductive RegistryError where
  | io (error : IoError)
  | json
  deriving DecidableEq, Repr

@[ext] structure DeviceRegistry where
  devices : List DeviceEntry
  deriving DecidableEq, Repr

namespace DeviceRegistry

section Code

variable {α ν : Type} (os : Os ν) (codec : RegistryCodec α)

/-- What an earlier daemon left in the temporary file is dropped. -/
def load (d : RegistryDisk α) : RegistryDisk α × Except RegistryError DeviceRegistry :=
  let d := if .tmp ∈ d.files then (d.remove os .tmp).1 else d
  if .file ∈ d.files then
    match d.read os .file with
    | (d, .error e) => (d, .error (.io e))
    | (d, .ok data) =>
      match codec.decode data with
      | none => (d, .error .json)
      | some devices => (d, .ok { devices := devices })
  else (d, .ok { devices := [] })

def isAuthorized (endpointId : String) (r : DeviceRegistry) : Bool :=
  r.devices.any (·.deviceId = endpointId)

/-- Write the temporary file and give it the name of the registry. -/
def save (r : DeviceRegistry) (d : RegistryDisk α) : RegistryDisk α × Except IoError Unit :=
  andThen (d.createDirAll os) fun _ d =>
    let json := codec.encode r.devices
    andThen (d.write os .tmp json) fun _ d => d.rename os .tmp .file

/-! What the operations do in memory. -/

def push (entry : DeviceEntry) (r : DeviceRegistry) : DeviceRegistry :=
  { r with devices := r.devices ++ [entry] }

def retainOthers (deviceId : String) (r : DeviceRegistry) : DeviceRegistry :=
  { r with devices := r.devices.filter (·.deviceId ≠ deviceId) }

/-- Only the first entry of the device is changed. -/
def seen (deviceId now : String) : List DeviceEntry → List DeviceEntry
  | [] => []
  | d :: ds =>
    if d.deviceId = deviceId then { d with lastSeen := some now } :: ds
    else d :: seen deviceId now ds

/-! The operations. -/

def add (entry : DeviceEntry) (r : DeviceRegistry) (d : RegistryDisk α) :
    DeviceRegistry × RegistryDisk α × Except IoError Unit :=
  let r := r.push entry
  (r, r.save os codec d)

def remove (deviceId : String) (r : DeviceRegistry) (d : RegistryDisk α) :
    DeviceRegistry × RegistryDisk α × Except IoError Bool :=
  let before := r.devices.length
  let r := r.retainOthers deviceId
  let removed := decide (r.devices.length < before)
  if removed then
    (r, andThen (r.save os codec d) fun _ d => (d, .ok removed))
  else (r, d, .ok removed)

def updateLastSeen (deviceId now : String) (r : DeviceRegistry) (d : RegistryDisk α) :
    DeviceRegistry × RegistryDisk α × Except IoError Unit :=
  let r := { r with devices := seen deviceId now r.devices }
  (r, r.save os codec d)

end Code

end DeviceRegistry

/-! ### Memory and file -/

/-- The registry of a process and the disk. -/
structure DeviceStore (α : Type) where
  registry : DeviceRegistry
  disk : RegistryDisk α

inductive RegistryOp where
  | add (entry : DeviceEntry)
  | remove (deviceId : String)
  | updateLastSeen (deviceId now : String)

namespace DeviceStore

variable {α ν : Type} (os : Os ν) (codec : RegistryCodec α)

/-- An operation, and whether it reported an error. -/
def exec (s : DeviceStore α) : RegistryOp → DeviceStore α × Except IoError Unit
  | .add entry =>
    let r := s.registry.add os codec entry s.disk
    (⟨r.1, r.2.1⟩, r.2.2)
  | .remove deviceId =>
    let r := s.registry.remove os codec deviceId s.disk
    (⟨r.1, r.2.1⟩, r.2.2.map fun _ => ())
  | .updateLastSeen deviceId now =>
    let r := s.registry.updateLastSeen os codec deviceId now s.disk
    (⟨r.1, r.2.1⟩, r.2.2)

def step (s : DeviceStore α) (op : RegistryOp) : DeviceStore α := (s.exec os codec op).1

/-- What a daemon that came up now would load. Without a file that is no device. -/
def stored (d : RegistryDisk α) : Option (List DeviceEntry) :=
  match d.files.get .file with
  | none => some []
  | some data => codec.decode data

/-- The list in memory is what the file decodes to. -/
def InStep (s : DeviceStore α) : Prop := stored codec s.disk = some s.registry.devices

/-- What an operation makes of the list in memory. -/
def memoryAfter (r : DeviceRegistry) : RegistryOp → DeviceRegistry
  | .add entry => r.push entry
  | .remove deviceId => r.retainOthers deviceId
  | .updateLastSeen deviceId now => { r with devices := DeviceRegistry.seen deviceId now r.devices }

/-- The directory can be made, the file written and renamed. -/
def Saves (d : RegistryDisk α) : Prop :=
  os.answer d.calls = .works ∧ os.answer (d.calls + 1) = .works ∧ os.answer (d.calls + 2) = .works

/-- The operation changes nothing in memory, or the file is saved. -/
def Keeps (s : DeviceStore α) (op : RegistryOp) : Prop :=
  memoryAfter s.registry op = s.registry ∨ Saves os s.disk

section Steps

variable {os codec} {s : DeviceStore α} {d : RegistryDisk α} {r : DeviceRegistry}

theorem save_of_saves (h : Saves os d) :
    (r.save os codec d).1.files.get .file = some (codec.encode r.devices) ∧
      (r.save os codec d).2 = .ok () := by
  obtain ⟨hdir, hwrite, hrename⟩ := h
  have hrename' : os.answer (d.calls + 1 + 1) = .works := hrename
  simp [DeviceRegistry.save, createDirAll, hdir, write, count, hwrite, rename, hrename']

/-- A save that fails leaves the file as it was, and says so. -/
theorem save_of_not_saves (h : ¬Saves os d) :
    (r.save os codec d).1.files.get .file = d.files.get .file ∧
      ∃ e, (r.save os codec d).2 = .error e := by
  have hne : RegistryPath.file ≠ .tmp := by decide
  unfold DeviceRegistry.save
  by_cases hdir : os.answer d.calls = .works
  · by_cases hwrite : os.answer (d.calls + 1) = .works
    · have hrename : os.answer (d.calls + 1 + 1) ≠ .works := fun h' => h ⟨hdir, hwrite, h'⟩
      simp [createDirAll, hdir, write, count, hwrite, rename, hrename, hne]
    · simp only [createDirAll, hdir, if_true, andThen_ok, write, count]
      cases hanswer : os.answer (d.calls + 1) with
      | works => exact absurd hanswer hwrite
      | refused => simp [andThen]
      | broke k => simp [andThen, hne]
  · simp [createDirAll, hdir, andThen, count]

theorem length_retainOthers_lt {deviceId : String} :
    (r.retainOthers deviceId).devices.length < r.devices.length ↔ r.retainOthers deviceId ≠ r := by
  have hle : (r.retainOthers deviceId).devices.length ≤ r.devices.length :=
    List.length_filter_le _ _
  constructor
  · intro hlt heq
    rw [heq] at hlt
    omega
  · intro hne
    refine Nat.lt_of_le_of_ne hle fun hlen => hne (DeviceRegistry.ext ?_)
    exact List.filter_eq_self.mpr (List.length_filter_eq_length_iff.mp hlen)

/-- An operation saves, or it is the removal of a device that is not there. -/
theorem step_eq (s : DeviceStore α) (op : RegistryOp) :
    s.step os codec op =
        ⟨memoryAfter s.registry op, ((memoryAfter s.registry op).save os codec s.disk).1⟩ ∨
      s.step os codec op = s ∧ memoryAfter s.registry op = s.registry := by
  cases op with
  | add entry => exact Or.inl rfl
  | updateLastSeen deviceId now => exact Or.inl rfl
  | remove deviceId =>
    by_cases h : (s.registry.retainOthers deviceId).devices.length < s.registry.devices.length
    · refine Or.inl ?_
      simp only [step, exec, DeviceRegistry.remove, h, decide_true, if_true, memoryAfter]
      rcases (s.registry.retainOthers deviceId).save os codec s.disk with ⟨d, e | u⟩ <;> rfl
    · have hsame : s.registry.retainOthers deviceId = s.registry :=
        not_not.mp (mt length_retainOthers_lt.mpr h)
      refine Or.inr ⟨?_, hsame⟩
      simp [step, exec, DeviceRegistry.remove, hsame]

theorem step_registry (s : DeviceStore α) (op : RegistryOp) :
    (s.step os codec op).registry = memoryAfter s.registry op := by
  rcases @step_eq _ _ os codec s op with hstep | ⟨hstep, hsame⟩
  · rw [hstep]
  · rw [hstep, hsame]

theorem inStep_saved (h : Saves os d) (r : DeviceRegistry) :
    InStep codec ⟨r, (r.save os codec d).1⟩ := by
  obtain ⟨hfile, -⟩ := @save_of_saves _ _ os codec d r h
  simp [InStep, stored, hfile, codec.decode_encode]

/-- One operation. -/
theorem inStep_step_iff (h : s.InStep codec) (op : RegistryOp) :
    (s.step os codec op).InStep codec ↔ s.Keeps os op := by
  rcases @step_eq _ _ os codec s op with hstep | ⟨hstep, hsame⟩
  · rw [hstep]
    by_cases hsaves : Saves os s.disk
    · exact iff_of_true (inStep_saved hsaves _) (Or.inr hsaves)
    · obtain ⟨hfile, -⟩ := @save_of_not_saves _ _ os codec s.disk (memoryAfter s.registry op) hsaves
      have hstored : stored codec ((memoryAfter s.registry op).save os codec s.disk).1 =
          some s.registry.devices := by
        rw [← h, stored, stored, hfile]
      rw [InStep, hstored, Keeps, or_iff_left hsaves, Option.some.injEq, DeviceRegistry.ext_iff,
        eq_comm]
  · rw [hstep]
    exact iff_of_true h (Or.inl hsame)

end Steps

theorem read_ok {d d' : RegistryDisk α} {p : RegistryPath} {data : List α}
    (h : FileStore.read os d p = (d', .ok data)) :
    d'.files = d.files ∧ d.files.get p = some data := by
  have hfiles := @read_files _ _ _ os d p
  rw [h] at hfiles
  refine ⟨hfiles, ?_⟩
  unfold FileStore.read at h
  split at h
  case h_1 c _ hget =>
    simp only [Prod.mk.injEq, Except.ok.injEq] at h
    rw [hget, h.2]
  all_goals simp at h

/-- A registry that was loaded is what the file decodes to. -/
theorem inStep_load {d d' : RegistryDisk α} {r : DeviceRegistry}
    (h : DeviceRegistry.load os codec d = (d', .ok r)) : InStep codec ⟨r, d'⟩ := by
  unfold DeviceRegistry.load at h
  dsimp only at h
  generalize (if RegistryPath.tmp ∈ d.files then (d.remove os .tmp).1 else d) = d₁ at h
  split_ifs at h with hfile
  · rcases hread : FileStore.read os d₁ .file with ⟨d₂, e | data⟩
    · simp [hread] at h
    · obtain ⟨hfiles, hget⟩ := read_ok os hread
      simp only [hread] at h
      cases hdecode : codec.decode data with
      | none => simp [hdecode] at h
      | some devices =>
        simp only [hdecode, Prod.mk.injEq, Except.ok.injEq] at h
        obtain ⟨rfl, rfl⟩ := h
        simp [InStep, stored, hfiles, hget, hdecode]
  · simp only [Prod.mk.injEq, Except.ok.injEq] at h
    obtain ⟨rfl, rfl⟩ := h
    simp [InStep, stored, PMap.get_eq_none hfile]

/-- Memory and file are in step after every operation exactly if they were at the start and
every operation either changes nothing in memory or is saved. -/
theorem inStep_along_iff (s : DeviceStore α) (ops : List RegistryOp) :
    Along (step os codec) (InStep codec) s ops ↔
      InStep codec s ∧ Meets (step os codec) (Keeps os) s ops :=
  along_iff_and_meets (I := fun _ => True) (P := InStep codec) (fun _ _ _ _ _ => trivial)
    (fun _ op _ h => inStep_step_iff h op) fun _ => trivial

end DeviceStore

/-! ### A disk that is full -/

/-- A file of one symbol, that of less being unreadable. -/
def RegistryCodec.whole : RegistryCodec (List DeviceEntry) where
  encode devices := [devices]
  decode
    | [devices] => some devices
    | _ => none
  decode_encode _ := rfl

def phone : DeviceEntry :=
  { deviceId := "phone", name := "Phone", pairedAt := "2026-01-01T00:00:00Z", lastSeen := none }

/-- The directory is there, and nothing more can be written. -/
def Os.full : Os Unit where
  answer n := if n = 0 then .works else .refused
  names _ := []

/-- One device, in memory and in the file. -/
def onePhone : DeviceStore (List DeviceEntry) where
  registry := { devices := [phone] }
  disk := { files := PMap.empty.insert .file [[phone]], calls := 0, unlinked := [] }

/-- The removal reports an error, the device is gone from memory and is still in the file. -/
theorem not_inStep_full :
    DeviceStore.InStep .whole onePhone ∧
      (∃ e, (onePhone.exec Os.full .whole (.remove "phone")).2 = .error e) ∧
      (onePhone.step Os.full .whole (.remove "phone")).registry.isAuthorized "phone" = false ∧
      DeviceStore.stored .whole (onePhone.step Os.full .whole (.remove "phone")).disk =
        some [phone] ∧
      ¬DeviceStore.InStep .whole (onePhone.step Os.full .whole (.remove "phone")) := by
  refine ⟨rfl, ⟨_, rfl⟩, rfl, rfl, ?_⟩
  show ¬(some [phone] = some [])
  simp

end Forgetty
