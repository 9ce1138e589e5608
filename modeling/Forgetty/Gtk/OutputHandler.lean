import Forgetty.Gtk.OscNotification
import Forgetty.Socket.SubscribeOutput

/-! What a pane of the window does with the output it is sent. The parser is fed, what it
replies goes back to the pseudoterminal, and bells and notifications are raised. The replay
of a new connection is one message among the others. -/

namespace Forgetty

open Lib

/-! ### The parser -/

/-- What the parser calls back while it is fed. -/
inductive VtCallback where
  | writePty (data : Bytes)
  | bell
  | titleChanged (title : String)

/-- The terminal library, which the repository links. -/
structure VtParser where
  State : Type
  new : ℕ → ℕ → State
  vtWrite : Bytes → State → State × List VtCallback
  isAlternateScreen : State → Bool
  scrollbarOffset : State → ℕ
  scrollViewportBottom : State → State

inductive TerminalEvent where
  | titleChanged (title : String)
  | bell
  deriving DecidableEq, Repr

/-- The parser with the events and the replies that are not drained yet. -/
structure Terminal (P : VtParser) where
  handle : P.State
  events : List TerminalEvent
  writePtyBuf : List Bytes

namespace Terminal

variable {P : VtParser}

def new (P : VtParser) (rows cols : ℕ) : Terminal P where
  handle := P.new rows cols
  events := []
  writePtyBuf := []

def onCallback (t : Terminal P) : VtCallback → Terminal P
  | .writePty data => if data = [] then t else { t with writePtyBuf := t.writePtyBuf ++ [data] }
  | .bell => { t with events := t.events ++ [.bell] }
  | .titleChanged title => { t with events := t.events ++ [.titleChanged title] }

def feed (bytes : Bytes) (t : Terminal P) : Terminal P :=
  if bytes = [] then t
  else
    let r := P.vtWrite bytes t.handle
    r.2.foldl onCallback { t with handle := r.1 }

end Terminal

/-! ### The pane -/

inductive BellMode where
  | visual
  | audio
  | both
  | none
  deriving DecidableEq, Repr

inductive NotificationMode where
  | all
  | ringOnly
  | none
  deriving DecidableEq, Repr

/-- Matches of a search: row, column and length. -/
structure SearchState where
  active : Bool
  allMatches : List (ℕ × ℕ × ℕ)
  viewportMatches : List (ℕ × ℕ × ℕ)
  currentIndex : ℕ
  currentViewportIndex : Option ℕ

/-- Points of time and durations in nanoseconds. -/
abbrev Instant := ℤ

def millis (n : ℤ) : ℤ := n * 1000000

/-- The time since then, or zero. -/
def Instant.durationSince (now earlier : Instant) : ℤ := max (now - earlier) 0

/-- The fields of `TerminalState` the handler of the output uses. `daemonPaneId` is there
when the client is, and `onNotify` tells whether the callback is registered. -/
structure OutputState (P : VtParser) where
  terminal : Terminal P
  bellMode : BellMode
  notificationMode : NotificationMode
  scrollLock : Bool
  viewportOffset : ℕ
  search : SearchState
  wasAlternateScreen : Bool
  bellFlashUntil : Option Instant
  lastBell : Instant
  suppressBellUntil : Option Instant
  suppressIntrEchoUntil : Option Instant
  lastPtyData : Instant
  mallocTrimmed : Bool
  notificationRing : Bool
  lastNotification : Instant
  onNotify : Bool
  daemonPaneId : Option PaneId

/-- The drawing area of the pane. -/
structure DrawingArea where
  hasFocus : Bool
  widgetName : String

/-- What the clock shows where the handler reads it. -/
structure Readings where
  echo : Instant
  data : Instant
  bell : ℕ → Instant
  flash : ℕ → Instant
  elapsed : Instant
  notified : Instant

/-- What others notice. -/
inductive HandlerEffect where
  | sendInput (paneId : PaneId) (data : Bytes)
  | errorBell
  | redrawBell
  | notify (paneId : PaneId) (title body : String) (source : NotificationSource)
  | onNotify (payload : NotificationPayload)
  deriving DecidableEq, Repr

/-- `ESC [ 1 SP q`, the blinking cursor. -/
def cursorStyle : Bytes := [esc, 0x5B, 0x31, 0x20, 0x71]

/-- The place of the first echo of a control character, such as `^C`. -/
def caretForm : Bytes → Option ℕ
  | a :: b :: rest =>
    if a = 0x5E ∧ (0x40 ≤ b ∧ b ≤ 0x5F ∨ b = 0x3F) then some 0
    else (caretForm (b :: rest)).map (· + 1)
  | _ => none

/-- The data without that echo, and the deadline that is left. -/
def dropFirstCaretFormEcho (now : Instant) (data : Bytes) :
    Option Instant → Bytes × Option Instant
  | none => (data, none)
  | some deadline =>
    if deadline < now then (data, none)
    else
      match caretForm data with
      | some i => (data.take i ++ data.drop (i + 2), none)
      | none => (data, some deadline)

/-- The loop over the events: the state, the effects, whether a redraw is due and what to
notify. -/
structure BellPass (P : VtParser) where
  state : OutputState P
  effects : List HandlerEffect
  flashScheduled : Bool
  payload : Option NotificationPayload

namespace OutputState

variable {P : VtParser}

/-- Notifications are on, and the pane is not the one with the focus. -/
def notifies (da : DrawingArea) (s : OutputState P) : Bool :=
  !da.hasFocus && decide (s.notificationMode ≠ .none)

/-- A bell that is neither too soon nor suppressed. -/
def ringBell (clock : Readings) (da : DrawingArea) (k : ℕ) (acc : BellPass P) : BellPass P :=
  let s := { acc.state with lastBell := clock.bell k }
  let flashes := decide (s.bellMode = .visual ∨ s.bellMode = .both)
  let beeps := decide (s.bellMode = .audio ∨ s.bellMode = .both)
  let s := if flashes then { s with bellFlashUntil := some (clock.flash k + millis 150) } else s
  { state := if s.notifies da then { s with notificationRing := true } else s
    effects := acc.effects ++ if beeps then [.errorBell] else []
    flashScheduled := acc.flashScheduled || flashes
    payload := if s.notifies da then
        some { title := "", body := "", paneName := da.widgetName, source := none }
      else acc.payload }

def onEvent (clock : Readings) (da : DrawingArea) (acc : BellPass P) :
    TerminalEvent × ℕ → BellPass P
  | (.titleChanged _, _) => acc
  | (.bell, k) =>
    let now := clock.bell k
    if now.durationSince acc.state.lastBell < millis 200 then acc
    else if acc.state.suppressBellUntil.any (now < ·) then
      { acc with state := { acc.state with suppressBellUntil := none } }
    else ringBell clock da k acc

/-- Feed the data and drain what the parser replied. Behind the alternate screen the cursor
blinks again. -/
def takeOutput (clock : Readings) (data : Bytes) (s : OutputState P) :
    OutputState P × List Bytes :=
  let fed := s.terminal.feed data
  let drained := { fed with writePtyBuf := [] }
  let isAlt := P.isAlternateScreen drained.handle
  ({ s with
      viewportOffset := P.scrollbarOffset s.terminal.handle
      terminal := if s.wasAlternateScreen && !isAlt then drained.feed cursorStyle else drained
      lastPtyData := clock.data
      mallocTrimmed := false
      wasAlternateScreen := isAlt },
    fed.writePtyBuf)

/-- Drain the events and ring for them. -/
def ringBells (clock : Readings) (da : DrawingArea) (s : OutputState P) : BellPass P :=
  s.terminal.events.zipIdx.foldl (onEvent clock da)
    ⟨{ s with terminal := { s.terminal with events := [] } }, [], false, none⟩

/-- Tell the window about a notification. -/
def told (s : OutputState P) (payload : NotificationPayload) : List HandlerEffect :=
  if s.onNotify then [.onNotify payload] else []

/-- Tell the daemon and the window about a notification sequence, the daemon at most every two
seconds. -/
def toldOsc (s : OutputState P) (canSendDesktop : Bool) (payload : NotificationPayload) :
    List HandlerEffect :=
  (match payload.source, s.daemonPaneId with
    | some src, some p => if canSendDesktop then [.notify p payload.title payload.body src] else []
    | _, _ => []) ++
  s.told (if canSendDesktop then payload else { payload with source := none })

/-- Raise what the bells and the notification sequence ask for. -/
def raise (clock : Readings) (da : DrawingArea) (oscNotification : Option NotificationPayload)
    (bells : BellPass P) : OutputState P × List HandlerEffect :=
  let s := bells.state
  let oscPayload := oscNotification.bind fun payload =>
    if s.notifies da then some { payload with paneName := da.widgetName } else none
  let s := if oscPayload.isSome then { s with notificationRing := true } else s
  let canSendDesktop := decide (millis 2000 ≤ clock.elapsed.durationSince s.lastNotification)
  let s :=
    if canSendDesktop && (bells.payload.isSome || oscPayload.isSome) then
      { s with lastNotification := clock.notified }
    else s
  (s, (if bells.flashScheduled then [.redrawBell] else []) ++ (bells.payload.map s.told).getD [] ++
    (oscPayload.map (s.toldOsc canSendDesktop)).getD [])

/-- Show the bottom again, and forget the matches of a search. -/
def settle (s : OutputState P) : OutputState P :=
  let s :=
    if s.scrollLock then s
    else
      let handle := P.scrollViewportBottom s.terminal.handle
      { s with
        terminal := { s.terminal with handle := handle }
        viewportOffset := P.scrollbarOffset handle }
  if s.search.active && !s.search.allMatches.isEmpty then
    { s with search :=
        { s.search with
          allMatches := [], viewportMatches := [], currentIndex := 0
          currentViewportIndex := none } }
  else s

/-- One message with data. -/
def handleData (clock : Readings) (da : DrawingArea) (data : Bytes) (s : OutputState P) :
    OutputState P × List HandlerEffect :=
  let echo := dropFirstCaretFormEcho clock.echo data s.suppressIntrEchoUntil
  let taken := takeOutput clock echo.1 { s with suppressIntrEchoUntil := echo.2 }
  let responses := (s.daemonPaneId.map fun p => taken.2.map (HandlerEffect.sendInput p)).getD []
  let bells := taken.1.ringBells clock da
  let raised := raise clock da (scanOscNotification echo.1) bells
  (raised.1.settle, responses ++ bells.effects ++ raised.2)

/-- The messages with data, one after the other, each with the clock of its own. -/
def handleMessages (clock : ℕ → Readings) (da : DrawingArea) (messages : List Bytes)
    (s : OutputState P) : OutputState P × List HandlerEffect :=
  messages.zipIdx.foldl (fun r message =>
    let t := handleData (clock message.2) da message.1 r.1
    (t.1, r.2 ++ t.2)) (s, [])

/-- A new pane of the window. -/
def create (P : VtParser) (bellMode : BellMode) (notificationMode : NotificationMode)
    (onNotify : Bool) (p : PaneId) (now : Instant) : OutputState P where
  terminal := (Terminal.new P 80 240).feed cursorStyle
  bellMode := bellMode
  notificationMode := notificationMode
  scrollLock := false
  viewportOffset := 0
  search :=
    { active := false, allMatches := [], viewportMatches := [], currentIndex := 0
      currentViewportIndex := none }
  wasAlternateScreen := false
  bellFlashUntil := none
  lastBell := now - millis 1000
  suppressBellUntil := none
  suppressIntrEchoUntil := none
  lastPtyData := now
  mallocTrimmed := false
  notificationRing := false
  lastNotification := now - millis 10000
  onNotify := onNotify
  daemonPaneId := some p

end OutputState

end Forgetty
