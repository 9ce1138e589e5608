import Forgetty.Daemon.Serving
import Forgetty.Gtk.OutputHandler
import Forgetty.Gtk.OutputReader

/-! What attaching to a pane does besides showing it. The ring of the pane is the first
message of the new connection, and it is handled as any other output: what the parser replies
to it goes to the pseudoterminal, and its bells and notifications are raised again. -/

namespace Forgetty

open Lib

/-- What the window receives before live output. -/
def replayMessages (c : OutputConn) : List Bytes :=
  if c.replay = [] ∨ maxFrameSize < c.replay.length then [] else [c.replay]

/-- These are the messages that the reader of the window makes of the frame of the replay. -/
theorem replayMessages_delivered {c : OutputConn} {frame : Bytes} {r : Source UInt8}
    (h : writeFrame c.replay = .ok frame) (hr : r.unread = frame) (hend : r.fails = false) :
    (OutputReader.subscribeOutputLoop (fun _ => true) [] r).sent = replayMessages c := by
  obtain ⟨hle, rfl⟩ := writeFrame_eq_ok.mp h
  have hframes := writeFrames_singleton hle
  obtain ⟨-, -, hsent, -⟩ := EndsAfter.of_short [] 0 hframes (Nat.zero_le _)
    (by simp) (by simpa using hr) hend
  rw [hsent, replayMessages]
  by_cases hnil : c.replay = [] <;> simp [hnil, not_lt.mpr hle]

/-- What a window has set for its panes. -/
structure PaneSettings where
  bellMode : BellMode
  notificationMode : NotificationMode
  onNotify : Bool

namespace OutputState

/-- A window attaches to a pane of the daemon: a new widget, and the replay. -/
def attach (P : VtParser) (settings : PaneSettings) (clock : ℕ → Readings) (da : DrawingArea)
    (now : Instant) (p : PaneId) (sm : SessionManager) : OutputState P × List HandlerEffect :=
  handleMessages clock da (replayMessages (OutputConn.subscribe p sm))
    (create P settings.bellMode settings.notificationMode settings.onNotify p now)

/-- The new parser behind the replay. -/
def fedReplay (P : VtParser) (replay : Bytes) : Terminal P :=
  ((Terminal.new P 80 240).feed cursorStyle).feed replay

/-- What is written to pseudoterminals. -/
def sentInput (effects : List HandlerEffect) : List (PaneId × Bytes) :=
  effects.filterMap fun
    | .sendInput p data => some (p, data)
    | _ => none

/-- Nothing is written, no bell rings and no notification is raised. -/
def Quiet (r : OutputState P × List HandlerEffect) : Prop :=
  r.2 = [] ∧ r.1.notificationRing = false ∧ r.1.bellFlashUntil = none

/-- The parser replies nothing to the replay, a bell in it is neither shown nor heard nor
notified, and neither is a notification sequence. -/
structure Harmless (P : VtParser) (settings : PaneSettings) (da : DrawingArea) (replay : Bytes) :
    Prop where
  replies : (fedReplay P replay).writePtyBuf = []
  bells : .bell ∈ (fedReplay P replay).events →
    settings.bellMode = .none ∧ (da.hasFocus = true ∨ settings.notificationMode = .none)
  notifications : (scanOscNotification replay).isSome →
    da.hasFocus = true ∨ settings.notificationMode = .none

section Bells

variable {P : VtParser} {clock : Readings} {da : DrawingArea} {acc : BellPass P}

/-- Something to see or to hear, or a notification. -/
def Loud (acc : BellPass P) : Prop :=
  acc.effects ≠ [] ∨ acc.flashScheduled = true ∨ acc.state.notificationRing = true

theorem notifies_eq_false {s : OutputState P} :
    s.notifies da = false ↔ da.hasFocus = true ∨ s.notificationMode = .none := by
  unfold notifies
  cases da.hasFocus <;> simp

/-- An event leaves everything as it is, or lifts the suppression of a bell, or rings. -/
theorem onEvent_cases (clock : Readings) (da : DrawingArea) (acc : BellPass P)
    (e : TerminalEvent × ℕ) :
    onEvent clock da acc e = acc ∨
      onEvent clock da acc e = { acc with state := { acc.state with suppressBellUntil := none } } ∨
      onEvent clock da acc e = ringBell clock da e.2 acc := by
  obtain ⟨e, k⟩ := e
  cases e with
  | titleChanged title => exact Or.inl rfl
  | bell =>
    rw [onEvent]
    dsimp only
    split_ifs
    · exact Or.inl rfl
    · exact Or.inr (Or.inl rfl)
    · exact Or.inr (Or.inr rfl)

/-- What the events keep, whether a bell rings or not. -/
theorem onEvent_keeps (e : TerminalEvent × ℕ) :
    (onEvent clock da acc e).state.notificationMode = acc.state.notificationMode ∧
      sentInput (onEvent clock da acc e).effects = sentInput acc.effects := by
  rcases onEvent_cases clock da acc e with heq | heq | heq <;> rw [heq]
  · exact ⟨rfl, rfl⟩
  · exact ⟨rfl, rfl⟩
  · unfold ringBell sentInput
    dsimp only
    constructor
    · split_ifs <;> rfl
    · split_ifs <;> simp

theorem foldl_onEvent_keeps (es : List (TerminalEvent × ℕ)) :
    (es.foldl (onEvent clock da) acc).state.notificationMode = acc.state.notificationMode ∧
      sentInput (es.foldl (onEvent clock da) acc).effects = sentInput acc.effects := by
  induction es generalizing acc with
  | nil => exact ⟨rfl, rfl⟩
  | cons e es ih =>
    obtain ⟨hmode, hsent⟩ := @ih (onEvent clock da acc e)
    obtain ⟨hmode', hsent'⟩ := @onEvent_keeps P clock da acc e
    exact ⟨hmode.trans hmode', hsent.trans hsent'⟩

theorem Loud.ringBell (h : Loud acc) (k : ℕ) : Loud (ringBell clock da k acc) := by
  rcases h with h | h | h
  · exact Or.inl fun hnil => h (List.append_eq_nil_iff.mp hnil).1
  · exact Or.inr (Or.inl (by simp [OutputState.ringBell, h]))
  · refine Or.inr (Or.inr ?_)
    unfold OutputState.ringBell
    dsimp only
    split_ifs <;> first | rfl | exact h

theorem Loud.onEvent (h : Loud acc) (e : TerminalEvent × ℕ) : Loud (onEvent clock da acc e) := by
  rcases onEvent_cases clock da acc e with heq | heq | heq <;> rw [heq]
  · exact h
  · exact h
  · exact h.ringBell e.2

theorem Loud.foldl (h : Loud acc) (es : List (TerminalEvent × ℕ)) :
    Loud (es.foldl (OutputState.onEvent clock da) acc) := by
  induction es generalizing acc with
  | nil => exact h
  | cons e es ih => exact ih (h.onEvent e)

/-- Without a bell mode the ring of the notification is all there is. -/
theorem ringBell_of_none (h : acc.state.bellMode = .none) (k : ℕ) :
    ringBell clock da k acc =
      { state :=
          { acc.state with
            lastBell := clock.bell k
            notificationRing := acc.state.notificationRing || acc.state.notifies da }
        effects := acc.effects
        flashScheduled := acc.flashScheduled
        payload := if acc.state.notifies da then
            some { title := "", body := "", paneName := da.widgetName, source := none }
          else acc.payload } := by
  unfold ringBell notifies
  cases hn : !da.hasFocus && decide (acc.state.notificationMode ≠ .none) <;> simp_all

/-- A bell is shown or heard or notified. -/
theorem loud_ringBell (h : ¬(acc.state.bellMode = .none ∧ acc.state.notifies da = false)) (k : ℕ) :
    Loud (ringBell clock da k acc) := by
  cases hmode : acc.state.bellMode with
  | visual => exact Or.inr (Or.inl (by simp [ringBell, hmode]))
  | audio => exact Or.inl (by simp [ringBell, hmode])
  | both => exact Or.inl (by simp [ringBell, hmode])
  | none =>
    have hnotify : acc.state.notifies da = true :=
      Bool.of_not_eq_false fun hfalse => h ⟨hmode, hfalse⟩
    rw [ringBell_of_none hmode]
    exact Or.inr (Or.inr (by rw [hnotify, Bool.or_true]))

/-- Titles make nothing ring. -/
theorem foldl_onEvent_titles {es : List (TerminalEvent × ℕ)} (h : ∀ e ∈ es, e.1 ≠ .bell) :
    es.foldl (onEvent clock da) acc = acc := by
  induction es with
  | nil => rfl
  | cons e es ih =>
    have htitle : onEvent clock da acc e = acc := by
      obtain ⟨e, k⟩ := e
      cases e with
      | titleChanged title => rfl
      | bell => exact absurd rfl (h _ List.mem_cons_self)
    rw [List.foldl_cons, htitle]
    exact ih fun e he => h e (List.mem_cons_of_mem _ he)

/-- The first bell rings when none is suppressed and the last one is long ago. -/
theorem loud_foldl {es : List (TerminalEvent × ℕ)} (hbell : ∃ e ∈ es, e.1 = .bell)
    (hlast : ∀ k, millis 200 ≤ (clock.bell k).durationSince acc.state.lastBell)
    (hfree : acc.state.suppressBellUntil = none)
    (h : ¬(acc.state.bellMode = .none ∧ acc.state.notifies da = false)) :
    Loud (es.foldl (onEvent clock da) acc) := by
  induction es with
  | nil => exact absurd hbell (by simp)
  | cons e es ih =>
    obtain ⟨e, k⟩ := e
    rw [List.foldl_cons]
    cases e with
    | titleChanged title =>
      obtain ⟨e, he, hb⟩ := hbell
      rcases List.mem_cons.mp he with rfl | he
      · exact nomatch hb
      · exact ih ⟨e, he, hb⟩
    | bell =>
      have hring : onEvent clock da acc (.bell, k) = ringBell clock da k acc := by
        rw [onEvent]
        dsimp only
        rw [if_neg (Int.not_lt.mpr (hlast k)), if_neg (by rw [hfree]; exact Bool.false_ne_true)]
      rw [hring]
      exact (loud_ringBell h k).foldl es

/-- Without a bell mode and a notification, a pass over the events tells nobody. -/
structure Silent (da : DrawingArea) (acc : BellPass P) : Prop where
  mode : acc.state.bellMode = .none
  notifies : acc.state.notifies da = false
  effects : acc.effects = []
  flashScheduled : acc.flashScheduled = false
  payload : acc.payload = none
  ring : acc.state.notificationRing = false
  flash : acc.state.bellFlashUntil = none

theorem Silent.onEvent (h : Silent da acc) (e : TerminalEvent × ℕ) :
    Silent da (onEvent clock da acc e) := by
  rcases onEvent_cases clock da acc e with heq | heq | heq <;> rw [heq]
  · exact h
  · exact ⟨h.mode, h.notifies, h.effects, h.flashScheduled, h.payload, h.ring, h.flash⟩
  · rw [ringBell_of_none h.mode]
    exact ⟨h.mode, h.notifies, h.effects, h.flashScheduled, by rw [h.notifies]; exact h.payload,
      by rw [h.notifies, Bool.or_false]; exact h.ring, h.flash⟩

theorem Silent.foldl (h : Silent da acc) (es : List (TerminalEvent × ℕ)) :
    Silent da (es.foldl (OutputState.onEvent clock da) acc) := by
  induction es generalizing acc with
  | nil => exact h
  | cons e es ih => exact ih (h.onEvent e)

theorem loud_ringBells {s : OutputState P} (hbell : .bell ∈ s.terminal.events)
    (hlast : ∀ k, millis 200 ≤ (clock.bell k).durationSince s.lastBell)
    (hfree : s.suppressBellUntil = none) (h : ¬(s.bellMode = .none ∧ s.notifies da = false)) :
    Loud (s.ringBells clock da) := by
  obtain ⟨k, hk⟩ := List.mem_iff_getElem?.mp hbell
  have hmem : (TerminalEvent.bell, k) ∈ s.terminal.events.zipIdx :=
    List.mem_zipIdx_iff_getElem?.mpr hk
  exact loud_foldl ⟨_, hmem, rfl⟩ hlast hfree h

/-- Nobody is told of bells when there are none, or none is shown, heard or notified. -/
theorem ringBells_silent {s : OutputState P} (hring : s.notificationRing = false)
    (hflash : s.bellFlashUntil = none)
    (h : .bell ∈ s.terminal.events → s.bellMode = .none ∧ s.notifies da = false) :
    let bells := s.ringBells clock da
    bells.effects = [] ∧ bells.flashScheduled = false ∧ bells.payload = none ∧
      bells.state.notificationRing = false ∧ bells.state.bellFlashUntil = none := by
  by_cases hbell : .bell ∈ s.terminal.events
  · obtain ⟨hmode, hnotifies⟩ := h hbell
    have hstart : Silent da
        ⟨{ s with terminal := { s.terminal with events := [] } }, [], false, none⟩ :=
      ⟨hmode, hnotifies, rfl, rfl, rfl, hring, hflash⟩
    have hend : Silent da (s.ringBells clock da) := hstart.foldl s.terminal.events.zipIdx
    obtain ⟨-, -, heffects, hscheduled, hpayload, hring, hflash⟩ := hend
    exact ⟨heffects, hscheduled, hpayload, hring, hflash⟩
  · have htitles : ∀ e ∈ s.terminal.events.zipIdx, e.1 ≠ .bell := fun e he heq =>
      hbell (heq ▸ List.fst_mem_of_mem_zipIdx he)
    unfold ringBells
    rw [foldl_onEvent_titles htitles]
    exact ⟨rfl, rfl, rfl, hring, hflash⟩

end Bells

section Handling

variable {P : VtParser} {clock : Readings} {da : DrawingArea} {settings : PaneSettings}
  {now : Instant} {p : PaneId} {replay : Bytes}

/-- No notification of the window is input of a pane. -/
theorem sentInput_raise (osc : Option NotificationPayload) (bells : BellPass P) :
    sentInput (raise clock da osc bells).2 = [] := by
  have told (s : OutputState P) (payload : NotificationPayload) :
      sentInput (s.told payload) = [] := by
    unfold OutputState.told
    split_ifs <;> rfl
  have toldOsc (s : OutputState P) (canSendDesktop : Bool) (payload : NotificationPayload) :
      sentInput (s.toldOsc canSendDesktop payload) = [] := by
    unfold OutputState.toldOsc
    rw [sentInput, List.filterMap_append, ← sentInput, ← sentInput, told, List.append_nil]
    split
    · split_ifs <;> rfl
    · rfl
  have all {α : Type} {f : α → List HandlerEffect} (payload : Option α)
      (h : ∀ x, sentInput (f x) = []) : sentInput ((payload.map f).getD []) = [] := by
    cases payload with
    | none => rfl
    | some x => exact h x
  unfold raise
  dsimp only
  rw [sentInput, List.filterMap_append, List.filterMap_append, ← sentInput, ← sentInput,
    ← sentInput]
  have hflash : sentInput (if bells.flashScheduled then [.redrawBell] else []) = [] := by
    split_ifs <;> rfl
  rw [hflash, List.nil_append]
  exact List.append_eq_nil_iff.mpr ⟨all _ (told _), all _ (toldOsc _ _)⟩

theorem raise_ring (osc : Option NotificationPayload) (bells : BellPass P) :
    (raise clock da osc bells).1.notificationRing =
      (bells.state.notificationRing || (osc.isSome && bells.state.notifies da)) := by
  unfold raise
  dsimp only
  cases osc with
  | none => split_ifs <;> simp_all
  | some payload =>
    cases bells.state.notifies da <;> simp <;> split_ifs <;> rfl

/-- Nothing scheduled and nothing to notify. -/
theorem raise_silent {osc : Option NotificationPayload} {bells : BellPass P}
    (hflash : bells.flashScheduled = false) (hpayload : bells.payload = none)
    (hosc : osc.isSome → bells.state.notifies da = false) :
    raise clock da osc bells = (bells.state, []) := by
  have hnone : (osc.bind fun payload =>
      if bells.state.notifies da then some { payload with paneName := da.widgetName } else none) =
      none := by
    cases osc with
    | none => rfl
    | some payload => rw [Option.bind_some, hosc rfl]; rfl
  unfold raise
  simp [hnone, hflash, hpayload]

theorem settle_ring (s : OutputState P) :
    s.settle.notificationRing = s.notificationRing ∧ s.settle.bellFlashUntil = s.bellFlashUntil := by
  unfold settle
  dsimp only
  split_ifs <;> exact ⟨rfl, rfl⟩

/-- The replay of a new pane: nothing is suppressed, and the last bell is a second ago. -/
theorem handleData_create :
    handleData clock da replay
        (create P settings.bellMode settings.notificationMode settings.onNotify p now) =
      let taken := (takeOutput clock replay
        (create P settings.bellMode settings.notificationMode settings.onNotify p now)).1
      let bells := taken.ringBells clock da
      let raised := raise clock da (scanOscNotification replay) bells
      (raised.1.settle, (fedReplay P replay).writePtyBuf.map (HandlerEffect.sendInput p) ++
        bells.effects ++ raised.2) :=
  rfl

theorem sentInput_handleData_create :
    sentInput (handleData clock da replay
        (create P settings.bellMode settings.notificationMode settings.onNotify p now)).2 =
      (fedReplay P replay).writePtyBuf.map (p, ·) := by
  have hbells (s : OutputState P) : sentInput (s.ringBells clock da).effects = [] :=
    (foldl_onEvent_keeps _).2
  rw [handleData_create]
  dsimp only
  rw [sentInput, List.filterMap_append, List.filterMap_append, ← sentInput, ← sentInput,
    ← sentInput, hbells, sentInput_raise, List.append_nil, List.append_nil, sentInput,
    List.filterMap_map]
  exact congrFun List.filterMap_eq_map _

theorem quiet_handleData_create (hclock : ∀ k, now ≤ clock.bell k) :
    Quiet (handleData clock da replay
        (create P settings.bellMode settings.notificationMode settings.onNotify p now)) ↔
      Harmless P settings da replay := by
  rw [handleData_create]
  set s := (takeOutput clock replay
    (create P settings.bellMode settings.notificationMode settings.onNotify p now)).1
  have hnotifies : s.notifies da = false ↔
      da.hasFocus = true ∨ settings.notificationMode = .none := notifies_eq_false
  have hkept : (s.ringBells clock da).state.notifies da = s.notifies da := by
    unfold notifies
    rw [show (s.ringBells clock da).state.notificationMode = s.notificationMode from
      (foldl_onEvent_keeps _).1]
  have hlast : ∀ k, millis 200 ≤ (clock.bell k).durationSince s.lastBell := by
    intro k
    have hk := hclock k
    show millis 200 ≤ max (clock.bell k - (now - millis 1000)) 0
    unfold millis Instant at *
    omega
  constructor
  · rintro ⟨heffects, hring, -⟩
    obtain ⟨hfront, hraised⟩ := List.append_eq_nil_iff.mp heffects
    obtain ⟨hreplies, hrung⟩ := List.append_eq_nil_iff.mp hfront
    rw [(settle_ring _).1, raise_ring, Bool.or_eq_false_iff, hkept] at hring
    refine ⟨List.map_eq_nil_iff.mp hreplies, fun hbell => ?_, fun hosc => ?_⟩
    · rw [← hnotifies]
      by_contra hloud
      rcases loud_ringBells hbell hlast rfl hloud with h | h | h
      · exact h hrung
      · simp [raise, h] at hraised
      · exact Bool.false_ne_true (hring.1.symm.trans h)
    · rw [hosc, Bool.true_and] at hring
      exact hnotifies.mp hring.2
  · rintro ⟨hreplies, hbells, hnotifications⟩
    rw [← hnotifies] at hbells hnotifications
    obtain ⟨heffects, hscheduled, hpayload, hring, hflash⟩ :=
      @ringBells_silent P clock da s rfl rfl hbells
    dsimp only
    rw [raise_silent hscheduled hpayload fun hosc => hkept.trans (hnotifications hosc), hreplies,
      heffects]
    exact ⟨rfl, (settle_ring _).1.trans hring, (settle_ring _).2.trans hflash⟩

end Handling

/-- The pseudoterminal gets what the parser replies to the replay and nothing else, and nobody
is told of anything exactly when the replay is harmless. -/
theorem attach_sideEffects (P : VtParser) (settings : PaneSettings) (clock : ℕ → Readings)
    (da : DrawingArea) (now : Instant) (p : PaneId) (sm : SessionManager)
    (hclock : ∀ k, now ≤ (clock 0).bell k) :
    sentInput (attach P settings clock da now p sm).2 =
        (replayMessages (OutputConn.subscribe p sm)).flatMap
          (fun replay => (fedReplay P replay).writePtyBuf.map (p, ·)) ∧
      (Quiet (attach P settings clock da now p sm) ↔
        ∀ replay ∈ replayMessages (OutputConn.subscribe p sm), Harmless P settings da replay) := by
  unfold attach
  generalize hmessages : replayMessages (OutputConn.subscribe p sm) = messages
  have hone : messages = [] ∨ ∃ replay, messages = [replay] := by
    rw [← hmessages, replayMessages]
    split_ifs
    · exact Or.inl rfl
    · exact Or.inr ⟨_, rfl⟩
  rcases hone with rfl | ⟨replay, rfl⟩
  · exact ⟨rfl, iff_of_true ⟨rfl, rfl, rfl⟩ fun replay h => absurd h List.not_mem_nil⟩
  · rw [List.flatMap_singleton, List.forall_mem_singleton]
    exact ⟨sentInput_handleData_create, quiet_handleData_create hclock⟩

end OutputState

/-! ### Windows that attach -/

open OutputState

/-- `ESC [ c`, by which a program asks what the terminal is. -/
def primaryAttributes : Bytes := [esc, 0x5B, 0x63]

/-- `ESC [ ? 62 ; 1 ; 6 ; 22 c` -/
def vt220Attributes : Bytes :=
  [esc, 0x5B, 0x3F, 0x36, 0x32, 0x3B, 0x31, 0x3B, 0x36, 0x3B, 0x32, 0x32, 0x63]

/-- What a terminal does about these queries and about bells. -/
def answers : Bytes → List VtCallback
  | [] => []
  | b :: rest =>
    if b = bel then .bell :: answers rest
    else if primaryAttributes.isPrefixOf (b :: rest) then
      .writePty vt220Attributes :: answers rest
    else answers rest

def VtParser.answering : VtParser where
  State := Unit
  new _ _ := ()
  vtWrite bytes _ := ((), answers bytes)
  isAlternateScreen _ := false
  scrollbarOffset _ := 0
  scrollViewportBottom := id

/-- The pane of a new tab puts out these bytes. -/
def putOut (bytes : Bytes) : SessionManager :=
  (emptyStart .counting).runOps .counting
    [.createTab 0 none .default none, .processPaneBytes (fun _ => none) true ⟨⟨1⟩⟩ bytes]

/-- The window is opened at zero, and the clock shows a second when the replay is handled. -/
def secondLater : ℕ → Readings := fun _ =>
  { echo := millis 1000, data := millis 1000, bell := fun _ => millis 1000
    flash := fun _ => millis 1000, elapsed := millis 1000, notified := millis 1000 }

/-- The settings of a window nobody configured. -/
def PaneSettings.default : PaneSettings where
  bellMode := .visual
  notificationMode := .all
  onNotify := true

def unfocused : DrawingArea := { hasFocus := false, widgetName := "pane" }

/-- `ESC ] 9 ; hi ESC \` -/
def oscNotification : Bytes := [esc, 0x5D, 0x39, semicolon, 0x68, 0x69, esc, 0x5C]

/-- A window that opens behind a query of a program writes the answer once more, behind a bell
it flashes, and behind a notification it notifies. -/
theorem not_quiet_attach :
    sentInput (attach .answering .default secondLater unfocused 0 ⟨⟨1⟩⟩
        (putOut primaryAttributes)).2 = [(⟨⟨1⟩⟩, vt220Attributes)] ∧
      ¬Quiet (attach .answering .default secondLater unfocused 0 ⟨⟨1⟩⟩
        (putOut primaryAttributes)) ∧
      (attach .answering .default secondLater unfocused 0 ⟨⟨1⟩⟩
        (putOut [bel])).1.bellFlashUntil = some (millis 1150) ∧
      (attach .answering .default secondLater unfocused 0 ⟨⟨1⟩⟩
        (putOut oscNotification)).1.notificationRing = true := by
  refine ⟨by decide, fun h => ?_, by decide, by decide⟩
  exact absurd h.1 (by decide)

/-- Text is harmless. -/
theorem quiet_attach_text :
    Quiet (attach .answering .default secondLater unfocused 0 ⟨⟨1⟩⟩ (putOut [0x68, 0x69])) := by
  have hlater : (0 : Instant) ≤ millis 1000 := by decide
  refine (attach_sideEffects .answering .default secondLater unfocused 0 ⟨⟨1⟩⟩
    (putOut [0x68, 0x69]) fun _ => hlater).2.mpr ?_
  have hreplay : replayMessages (OutputConn.subscribe ⟨⟨1⟩⟩ (putOut [0x68, 0x69])) =
      [[0x68, 0x69]] := by decide
  rw [hreplay, List.forall_mem_singleton]
  exact ⟨by decide, fun h => absurd h (by decide), fun h => absurd h (by decide)⟩

end Forgetty
