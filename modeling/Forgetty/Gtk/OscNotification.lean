import Forgetty.Session.Events
import Mathlib.Data.List.DropRight

/-! Notification sequences in the output of a pane: OSC 9, 99 and 777, found by a scan of the
raw bytes before the parser gets them. -/

namespace Forgetty

inductive NotificationSource where
  | osc9
  | osc99
  | osc777
  deriving DecidableEq, Repr

structure NotificationPayload where
  title : String
  body : String
  paneName : String
  source : Option NotificationSource
  deriving DecidableEq, Repr

/-! ### Sequences -/

def esc : UInt8 := 0x1B

def bel : UInt8 := 0x07

def semicolon : UInt8 := 0x3B

/-- `777;notify;` -/
def osc777Prefix : Bytes := [0x37, 0x37, 0x37, 0x3B, 0x6E, 0x6F, 0x74, 0x69, 0x66, 0x79, 0x3B]

/-- `99;` -/
def osc99Prefix : Bytes := [0x39, 0x39, 0x3B]

/-- `9;` -/
def osc9Prefix : Bytes := [0x39, 0x3B]

/-- `4;`, of a progress bar. -/
def progressPrefix : Bytes := [0x34, 0x3B]

/-- The notification between the start of the sequence and its terminator. -/
def parseOscBody (body : Bytes) : Option NotificationPayload :=
  if osc777Prefix.isPrefixOf body then
    let rest := body.drop osc777Prefix.length
    match rest.idxOf? semicolon with
    | some sep =>
      some
        { title := Utf8.decodeLossy (rest.take sep)
          body := Utf8.decodeLossy (rest.drop (sep + 1))
          paneName := ""
          source := some .osc777 }
    | none =>
      some { title := Utf8.decodeLossy rest, body := "", paneName := "", source := some .osc777 }
  else if osc99Prefix.isPrefixOf body then
    -- What is behind the last semicolon, or everything.
    let text := (body.drop osc99Prefix.length).rtakeWhile (· ≠ semicolon)
    some
      { title := "Forgetty", body := Utf8.decodeLossy text, paneName := "", source := some .osc99 }
  else if osc9Prefix.isPrefixOf body then
    let rest := body.drop osc9Prefix.length
    if progressPrefix.isPrefixOf rest ∨ rest = [0x34] then none
    else
      some
        { title := "Forgetty", body := Utf8.decodeLossy rest, paneName := "", source := some .osc9 }
  else none

/-- The bytes up to the terminator, BEL or `ESC \`, and the bytes behind its first one. -/
def splitOsc : Bytes → Option (Bytes × Bytes)
  | [] => none
  | b :: rest =>
    if b = bel ∨ (b = esc ∧ rest.head? = some 0x5C) then some ([], rest)
    else (splitOsc rest).map fun r => (b :: r.1, r.2)

def scanOsc : ℕ → Bytes → Option NotificationPayload
  | 0, _ => none
  | _, [] => none
  | n + 1, b :: rest =>
    if b = esc ∧ rest.head? = some 0x5D then
      match splitOsc rest.tail with
      | none => none
      | some (body, rest) => (parseOscBody body).or (scanOsc n rest)
    else scanOsc n rest

/-- The first notification. -/
def scanOscNotification (data : Bytes) : Option NotificationPayload := scanOsc data.length data

theorem splitOsc_length {data body rest : Bytes} (h : splitOsc data = some (body, rest)) :
    rest.length < data.length := by
  induction data generalizing body rest with
  | nil => exact nomatch h
  | cons b data ih =>
    rw [splitOsc] at h
    split_ifs at h
    · obtain ⟨-, rfl⟩ := Prod.mk.inj (Option.some.inj h)
      exact Nat.lt_succ_self _
    · obtain ⟨r, hr, heq⟩ := Option.map_eq_some_iff.mp h
      obtain ⟨-, rfl⟩ := Prod.mk.inj heq
      exact (ih hr).trans (Nat.lt_succ_self _)

/-- The scan ends by itself: more steps than bytes find nothing more. -/
theorem scanOsc_of_le {n : ℕ} {data : Bytes} (h : data.length ≤ n) :
    scanOsc n data = scanOscNotification data := by
  rw [scanOscNotification]
  induction n using Nat.strong_induction_on generalizing data with
  | h n ih =>
    cases data with
    | nil => cases n <;> rfl
    | cons b rest =>
      have more {k : ℕ} {rest' : Bytes} (hlt : rest'.length ≤ rest.length)
          (hk : rest.length ≤ k) (hkn : k < n) : scanOsc k rest' = scanOsc rest'.length rest' :=
        ih k hkn (hlt.trans hk)
      cases n with
      | zero => exact absurd h (Nat.not_succ_le_zero _)
      | succ n =>
        have hn : rest.length ≤ n := Nat.le_of_succ_le_succ h
        rw [List.length_cons, scanOsc, scanOsc]
        split_ifs
        · split
          · rfl
          · rename_i body rest' heq
            have hlen : rest'.length ≤ rest.length :=
              (splitOsc_length heq).le.trans (by rw [List.length_tail]; omega)
            rw [more hlen hn (Nat.lt_succ_self n)]
            rcases Nat.lt_or_ge rest.length (n + 1) with hlt | hge
            · rw [more hlen le_rfl hlt]
            · omega
        · exact more le_rfl hn (Nat.lt_succ_self n)

/-- A payload names the sequence it comes from, and no pane yet. -/
theorem parseOscBody_source {body : Bytes} {payload : NotificationPayload}
    (h : parseOscBody body = some payload) : payload.source.isSome ∧ payload.paneName = "" := by
  unfold parseOscBody at h
  dsimp only at h
  split_ifs at h
  · split at h <;> (obtain rfl := Option.some.inj h; exact ⟨rfl, rfl⟩)
  · obtain rfl := Option.some.inj h
    exact ⟨rfl, rfl⟩
  · obtain rfl := Option.some.inj h
    exact ⟨rfl, rfl⟩

end Forgetty
