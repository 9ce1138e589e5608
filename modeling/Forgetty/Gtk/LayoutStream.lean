import Forgetty.Gtk.Workspaces
import Forgetty.Socket.LayoutLines

/-! The task of a window that reads the layout stream. Each line is one event, or is passed
over. However the stream is cut off, the window is handed the events of the lines that came
whole, and is where it would be had it seen the first events of the session itself. -/

namespace Forgetty

open Lib

/-- The events a window knows. It is not told of new workspaces nor of the active one. -/
inductive LayoutEvent where
  | tabCreated (workspaceIdx : ℕ) (tabId : Uuid) (paneId : PaneId)
  | tabClosed (workspaceIdx : ℕ) (tabId : Uuid)
  | paneSplit (tabId : Uuid) (parentPaneId newPaneId : PaneId) (direction : String)
  | tabMoved (workspaceIdx : ℕ) (tabId : Uuid) (newIndex : ℕ)
  | activeTabChanged (workspaceIdx tabIdx : ℕ)
  | workspaceRenamed (workspaceIdx : ℕ) (workspaceId : Uuid) (name : String)
  | workspaceDeleted (workspaceIdx : ℕ) (workspaceId : Uuid)
  | workspaceColorChanged (workspaceIdx : ℕ) (workspaceId : Uuid) (color : Option String)
  | workspacesReordered (fromIdx toIdx : ℕ) (fromWorkspaceId toWorkspaceId : Uuid)
  | activePaneChanged (workspaceIdx : ℕ) (tabId : Uuid) (paneId : Option PaneId)
  deriving DecidableEq, Repr

namespace LayoutEvent

/-! ### Reading -/

section Read

variable (params : Json) (key : String)

/-- A parameter that is missing is zero. -/
def idxParam : ℕ := ((params.get key).bind Json.asU64).getD 0

def textParam (default : String) : String := ((params.get key).bind Json.asStr).getD default

def uuidParam : Option Uuid := Uuid.parseStr (textParam params key "")

/-- No pane, or the pane with the id; an id that is none is refused. -/
def paneParam : Option (Option PaneId) :=
  match params.get key with
  | none => some none
  | some .null => some none
  | some (.str s) => (Uuid.parseStr s).map fun uuid => some ⟨uuid⟩
  | some _ => none

/-- The event of a notification; nothing for one that is not known or has an id that is none. -/
def ofParams (method : String) (params : Json) : Option LayoutEvent :=
  match method with
  | "tab_created" => do
    let tabId ← uuidParam params "tab_id"
    let paneUuid ← uuidParam params "pane_id"
    some (.tabCreated (idxParam params "workspace_idx") tabId ⟨paneUuid⟩)
  | "tab_closed" => do
    let tabId ← uuidParam params "tab_id"
    some (.tabClosed (idxParam params "workspace_idx") tabId)
  | "pane_split" => do
    let tabId ← uuidParam params "tab_id"
    let parent ← uuidParam params "parent_pane_id"
    let new ← uuidParam params "new_pane_id"
    some (.paneSplit tabId ⟨parent⟩ ⟨new⟩ (textParam params "direction" "horizontal"))
  | "tab_moved" => do
    let tabId ← uuidParam params "tab_id"
    some (.tabMoved (idxParam params "workspace_idx") tabId (idxParam params "new_index"))
  | "active_tab_changed" =>
    some (.activeTabChanged (idxParam params "workspace_idx") (idxParam params "tab_idx"))
  | "workspace_renamed" => do
    let workspaceId ← uuidParam params "workspace_id"
    some (.workspaceRenamed (idxParam params "workspace_idx") workspaceId
      (textParam params "name" ""))
  | "workspace_deleted" => do
    let workspaceId ← uuidParam params "workspace_id"
    some (.workspaceDeleted (idxParam params "workspace_idx") workspaceId)
  | "workspace_color_changed" => do
    let workspaceId ← uuidParam params "workspace_id"
    some (.workspaceColorChanged (idxParam params "workspace_idx") workspaceId
      ((params.get "color").bind Json.asStr))
  | "workspaces_reordered" => do
    let fromWorkspaceId ← uuidParam params "from_workspace_id"
    let toWorkspaceId ← uuidParam params "to_workspace_id"
    some (.workspacesReordered (idxParam params "from_idx") (idxParam params "to_idx")
      fromWorkspaceId toWorkspaceId)
  | "active_pane_changed" => do
    let tabId ← uuidParam params "tab_id"
    let paneId ← paneParam params "pane_id"
    some (.activePaneChanged (idxParam params "workspace_idx") tabId paneId)
  | _ => none

end Read

def ofJson (notification : Json) : Option LayoutEvent :=
  ofParams (((notification.get "method").bind Json.asStr).getD "")
    ((notification.get "params").getD .null)

def trim (line : Text) : Text := Clipboard.trimStart (Clipboard.trimEnd line)

/-- A blank line and one that is no JSON are passed over. -/
def ofLine (lib : JsonPrinter) (line : Text) : Option LayoutEvent :=
  let line := trim line
  if line = [] then none
  else
    match lib.parse line with
    | .error _ => none
    | .ok notification => ofJson notification

end LayoutEvent

/-- What the task sends on of the input, and how it ends. -/
def subscribeLayoutTask (lib : JsonPrinter) (input : Text) : List LayoutEvent × Except String Unit :=
  match Clipboard.lines [] input with
  | [] => ([], .ok ())
  | ackLine :: lines =>
    match lib.parse (LayoutEvent.trim ackLine) with
    | .error e => ([], .error e)
    | .ok ack =>
      if (ack.get "error").isSome then
        ([], .error s!"subscribe_layout rejected: {lib.display ack}")
      else (lines.filterMap (LayoutEvent.ofLine lib), .ok ())

/-! ### What the events are of -/

namespace LayoutEvent

def ofNotification : LayoutNotification → Option LayoutEvent
  | .tabCreated i tabId p => some (.tabCreated i tabId p)
  | .tabClosed i tabId => some (.tabClosed i tabId)
  | .paneSplit tabId p q direction => some (.paneSplit tabId p q direction)
  | .tabMoved i tabId k => some (.tabMoved i tabId k)
  | .activeTabChanged i j => some (.activeTabChanged i j)
  | .workspaceRenamed i id name => some (.workspaceRenamed i id name)
  | .workspaceDeleted i id => some (.workspaceDeleted i id)
  | .workspaceColorChanged i id color => some (.workspaceColorChanged i id color)
  | .workspacesReordered i j u v => some (.workspacesReordered i j u v)
  | .activePaneChanged i tabId p => some (.activePaneChanged i tabId p)
  | .activeWorkspaceChanged _ | .workspaceCreated .. => none

/-- What reaches the window of an event. -/
def ofSession (event : SessionEvent) : Option LayoutEvent :=
  (handleSubscribeLayout event).bind ofNotification

/-- The event of the session. -/
def session : LayoutEvent → SessionEvent
  | tabCreated i tabId p => .tabCreated i tabId p
  | tabClosed i tabId => .tabClosed i tabId
  | paneSplit tabId p q direction => .paneSplit tabId p q direction
  | tabMoved i tabId k => .tabMoved i tabId k
  | activeTabChanged i j => .activeTabChanged i j
  | workspaceRenamed i id name => .workspaceRenamed i id name
  | workspaceDeleted i id => .workspaceDeleted i id
  | workspaceColorChanged i id color => .workspaceColorChanged i id color
  | workspacesReordered i j u v => .workspacesReordered i j u v
  | activePaneChanged i tabId p => .activePaneChanged i tabId p

/-! ### One notification -/

section Notification

variable {params : Json} {n : LayoutNotification}

theorem bind_get_ordered {α : Type} (h : params.Printable) {f : Json → Option α}
    (hf : ∀ v, f (Json.ordered v) = f v) (key : String) :
    (params.ordered.get key).bind f = (params.get key).bind f := by
  rw [Json.get_ordered h]
  cases params.get key with
  | none => rfl
  | some v => exact hf v

theorem asStr_ordered (v : Json) : v.ordered.asStr = v.asStr := by cases v <;> rfl

theorem asU64_ordered (v : Json) : v.ordered.asU64 = v.asU64 := by cases v <;> rfl

theorem paneParam_ordered (h : params.Printable) (key : String) :
    paneParam params.ordered key = paneParam params key := by
  rw [paneParam, paneParam, Json.get_ordered h]
  cases params.get key with
  | none => rfl
  | some v => cases v <;> rfl

/-- The order of the keys does not matter. -/
theorem ofParams_ordered (h : params.Printable) (method : String) :
    ofParams method params.ordered = ofParams method params := by
  simp only [ofParams, idxParam, textParam, uuidParam, paneParam_ordered h,
    bind_get_ordered h asStr_ordered, bind_get_ordered h asU64_ordered]

theorem parseStr_paneId {p : PaneId} (h : p.uuid.bits < 2 ^ 128) :
    Uuid.parseStr (toString p) = some p.uuid := Uuid.parseStr_toString h

/-- What is read of the parameters of a notification is the notification. -/
theorem ofParams_params (h : n.Sized) : ofParams n.method n.params = ofNotification n := by
  cases n with
  | workspaceColorChanged i id color =>
    cases color <;>
      simp [ofParams, LayoutNotification.method, LayoutNotification.params, uuidParam, textParam,
        idxParam, Json.get, Json.asStr, Json.asU64, Json.ofOption, ofNotification,
        Uuid.parseStr_toString h.2]
  | activePaneChanged i tabId p =>
    obtain ⟨-, htab, hp⟩ := h
    cases p with
    | none =>
      simp [ofParams, LayoutNotification.method, LayoutNotification.params, uuidParam, textParam,
        idxParam, paneParam, Json.get, Json.asStr, Json.asU64, Json.ofOption, ofNotification,
        Uuid.parseStr_toString htab]
    | some q =>
      simp [ofParams, LayoutNotification.method, LayoutNotification.params, uuidParam, textParam,
        idxParam, paneParam, Json.get, Json.asStr, Json.asU64, Json.ofOption, ofNotification,
        Uuid.parseStr_toString htab, parseStr_paneId (hp q rfl)]
  | _ =>
    simp_all [ofParams, LayoutNotification.method, LayoutNotification.params,
      LayoutNotification.Sized, uuidParam, textParam, idxParam, Json.get, Json.asStr, Json.asU64,
      ofNotification, Uuid.parseStr_toString, parseStr_paneId]

theorem get_json (h : n.Sized) :
    n.json.get "method" = some (.str n.method) ∧ n.json.get "params" = some n.params.ordered := by
  rw [LayoutNotification.json, Json.get_ordered (n.printable h), Json.get_ordered (n.printable h)]
  exact ⟨rfl, rfl⟩

theorem ofJson_json (h : n.Sized) : ofJson n.json = ofNotification n := by
  obtain ⟨hmethod, hparams⟩ := get_json h
  rw [ofJson, hmethod, hparams]
  exact (ofParams_ordered (n.printable h).2.2.2.1 n.method).trans (ofParams_params h)

end Notification

/-! ### Lines -/

section Lines

open Clipboard

variable {line part text : Text} {records : List Text}

theorem lines_append (h : '\n' ∉ text) (line rest : Text) :
    lines line (text ++ rest) = lines (line ++ text) rest := by
  induction text generalizing line with
  | nil => rw [List.nil_append, List.append_nil]
  | cons c cs ih =>
    rw [List.mem_cons, not_or] at h
    rw [List.cons_append, lines, if_neg (Ne.symm h.1), ih h.2, List.append_assoc,
      List.singleton_append]

/-- Whole lines and the beginning of another. -/
theorem lines_terminated (hone : ∀ record ∈ records, '\n' ∉ record)
    (hcr : ∀ record ∈ records, stripCr record = record) (hpart : '\n' ∉ part) :
    lines [] (terminated '\n' records ++ part) =
      records ++ if part = [] then [] else [part] := by
  induction records with
  | nil =>
    have h := lines_append hpart [] []
    rw [List.append_nil] at h
    rw [terminated_nil, List.nil_append, h, List.nil_append, lines]
    cases part <;> rfl
  | cons record records ih =>
    rw [terminated_cons, List.append_assoc, lines_append (hone record List.mem_cons_self),
      List.nil_append, List.cons_append, lines, if_pos rfl, hcr record List.mem_cons_self,
      ih (fun r hr => hone r (List.mem_cons_of_mem _ hr)) fun r hr => hcr r (List.mem_cons_of_mem _ hr),
      List.cons_append]

variable {lib : JsonPrinter} {v : Json}

theorem stripCr_print (h : lib.Prints v) : stripCr (lib.print v) = lib.print v := by
  obtain ⟨inner, hprint⟩ := h.braced
  have hlast : (lib.print v).getLast? = some '\x7d' := by
    rw [hprint, ← List.cons_append, List.getLast?_concat]
  rw [stripCr, hlast, if_neg (by decide)]

theorem trim_print (h : lib.Prints v) : trim (lib.print v) = lib.print v := by
  obtain ⟨inner, hprint⟩ := h.braced
  rw [hprint, trim, ← List.cons_append, trimEnd,
    List.rdropWhile_concat_neg isWhitespace _ _ (by decide), trimStart, List.cons_append,
    List.dropWhile_cons_of_neg (by decide)]

/-- A beginning of a text between braces stays one when it is trimmed. -/
theorem trim_beginning (h : lib.Prints v) (hpart : part <+: lib.print v) (hne : part ≠ []) :
    trim part <+: part ∧ trim part ≠ [] := by
  obtain ⟨inner, hprint⟩ := h.braced
  obtain ⟨c, rest, rfl⟩ := List.exists_cons_of_ne_nil hne
  obtain rfl : c = '\x7b' := by
    rw [hprint, List.cons_prefix_cons] at hpart
    exact hpart.1
  have hend : trimEnd ('\x7b' :: rest) <+: '\x7b' :: rest := List.rdropWhile_prefix _ _
  have hfull : trimEnd ('\x7b' :: rest) ≠ [] := by
    rw [trimEnd, ne_eq, List.rdropWhile_eq_nil_iff]
    exact fun hall => absurd (hall _ List.mem_cons_self) (by decide)
  obtain ⟨c, rest', heq⟩ := List.exists_cons_of_ne_nil hfull
  have hc : c = '\x7b' := by
    rw [heq, List.cons_prefix_cons] at hend
    exact hend.1
  have hstart : trim ('\x7b' :: rest) = trimEnd ('\x7b' :: rest) := by
    rw [trim, heq, hc, trimStart, List.dropWhile_cons_of_neg (by decide)]
  rw [hstart]
  exact ⟨hend, hfull⟩

theorem ofLine_print (h : lib.Prints v) : ofLine lib (lib.print v) = ofJson v.ordered := by
  have hne : lib.print v ≠ [] := by
    obtain ⟨inner, hprint⟩ := h.braced
    rw [hprint]
    exact List.cons_ne_nil _ _
  simp only [ofLine, trim_print h, if_neg hne, h.read]

/-- A line that breaks off is passed over. -/
theorem ofLine_broken (h : lib.Prints v) (hpart : part <+: lib.print v)
    (hne : part ≠ lib.print v) : ofLine lib part = none := by
  by_cases hnil : part = []
  · subst hnil
    rfl
  · obtain ⟨htrim, hfull⟩ := trim_beginning h hpart hnil
    have hcut : trim part ≠ lib.print v := by
      intro heq
      rw [heq] at htrim
      exact hne (hpart.eq_of_length_le htrim.length_le)
    obtain ⟨e, he⟩ := h.broken (trim part) (htrim.trans hpart) hcut
    simp only [ofLine, if_neg hfull, he]

end Lines

end LayoutEvent

/-! ### The stream -/

section Stream

open Clipboard LayoutEvent

variable {lib : JsonPrinter} {reqId : Option Json} {es : List SessionEvent} {cut : Text}
  {ns : List LayoutNotification}

/-- The acknowledgment and the notifications are printed as they should be. -/
structure JsonPrinter.PrintsLayout (lib : JsonPrinter) (reqId : Option Json)
    (es : List SessionEvent) : Prop where
  ack : lib.Prints (layoutAck reqId)
  notification : ∀ n ∈ es.filterMap handleSubscribeLayout, n.Sized ∧ lib.Prints n.json

theorem JsonPrinter.PrintsLayout.line (h : lib.PrintsLayout reqId es) {record : Text}
    (hr : record ∈ layoutLines lib reqId es) : ∃ v, record = lib.print v ∧ lib.Prints v := by
  rcases List.mem_cons.mp hr with rfl | hr
  · exact ⟨_, rfl, h.ack⟩
  · obtain ⟨n, hn, rfl⟩ := List.mem_map.mp hr
    exact ⟨_, rfl, (h.notification n hn).2⟩

/-- The event a line is read as. -/
theorem ofLine_notification {n : LayoutNotification} (hs : n.Sized) (h : lib.Prints n.json) :
    ofLine lib (lib.print n.json) = ofNotification n := by
  rw [ofLine_print h, ← ofJson_json hs, LayoutNotification.json,
    Json.ordered_eq_self _ (Json.regular_ordered _ (n.printable hs))]

theorem filterMap_ofLine (h : ∀ n ∈ ns, n.Sized ∧ lib.Prints n.json) :
    (ns.map fun n => lib.print n.json).filterMap (ofLine lib) = ns.filterMap ofNotification := by
  rw [List.filterMap_map]
  apply List.filterMap_congr
  intro n hn
  exact ofLine_notification (h n hn).1 (h n hn).2

theorem print_ne_nil {v : Json} (h : lib.Prints v) : lib.print v ≠ [] := by
  obtain ⟨inner, hprint⟩ := h.braced
  rw [hprint]
  exact List.cons_ne_nil _ _

/-- The lines of a stream that was cut off. -/
theorem lines_cut (h : lib.PrintsLayout reqId es) {m : ℕ} {part : Text}
    (hcut : CutAt '\n' (layoutLines lib reqId es) cut m part) :
    lines [] cut = (layoutLines lib reqId es).take m ++ if part = [] then [] else [part] := by
  have hpart : '\n' ∉ part := by
    intro hmem
    have hmem := hcut.part.subset hmem
    cases hm : (layoutLines lib reqId es)[m]? with
    | none => simp [hm] at hmem
    | some record =>
      obtain ⟨v, rfl, hv⟩ := h.line (List.mem_of_getElem? hm)
      rw [hm, Option.getD_some] at hmem
      exact hv.oneLine hmem
  rw [hcut.eq]
  refine lines_terminated (fun record hr => ?_) (fun record hr => ?_) hpart
  · obtain ⟨v, rfl, hv⟩ := h.line (List.mem_of_mem_take hr)
    exact hv.oneLine
  · obtain ⟨v, rfl, hv⟩ := h.line (List.mem_of_mem_take hr)
    exact stripCr_print hv

/-- The events of a stream that was cut off in its first line. -/
theorem subscribeLayoutTask_of_length (h : (lines [] cut).length ≤ 1) :
    (subscribeLayoutTask lib cut).1 = [] := by
  unfold subscribeLayoutTask
  split
  · rfl
  · rename_i ackLine rest heq
    rw [heq, List.length_cons] at h
    have hrest : rest = [] := List.length_eq_zero_iff.mp (by omega)
    split
    · rfl
    · split_ifs
      · rfl
      · rw [hrest]
        rfl

/-- The events after the acknowledgment. -/
theorem subscribeLayoutTask_of_ack (h : lib.Prints (layoutAck reqId)) {rest : List Text}
    (hlines : lines [] cut = lib.print (layoutAck reqId) :: rest) :
    (subscribeLayoutTask lib cut).1 = rest.filterMap (ofLine lib) := by
  have herror : (layoutAck reqId).ordered.get "error" = none := by
    simp [layoutAck, Json.ordered, Json.orderedFields, Json.get]
  rw [subscribeLayoutTask, hlines]
  simp only [trim_print h, h.read, herror]
  rfl

/-- What the window is handed: the events of the notifications that came whole. -/
theorem events_of_cutAt (h : lib.PrintsLayout reqId es) {m : ℕ} {part : Text}
    (hcut : CutAt '\n' (layoutLines lib reqId es) cut m part) :
    (subscribeLayoutTask lib cut).1 =
      ((es.filterMap handleSubscribeLayout).take
        (wholes (layoutLines lib reqId es) m part - 1)).filterMap ofNotification := by
  have hlines := lines_cut h hcut
  cases m with
  | zero =>
    have hwholes : wholes (layoutLines lib reqId es) 0 part - 1 = 0 := by
      unfold wholes
      split_ifs <;> rfl
    rw [hwholes, List.take_zero, List.filterMap_nil]
    apply subscribeLayoutTask_of_length
    rw [hlines]
    split_ifs <;> simp
  | succ m =>
    set ns := es.filterMap handleSubscribeLayout with hns
    have hnext : (layoutLines lib reqId es)[m + 1]? = (ns[m]?).map fun n => lib.print n.json := by
      rw [layoutLines, List.getElem?_cons_succ, List.getElem?_map]
    have hkept : ∀ n ∈ ns.take m, n.Sized ∧ lib.Prints n.json := fun n hn =>
      h.notification n (List.mem_of_mem_take hn)
    rw [layoutLines, List.take_succ_cons, ← List.map_take, List.cons_append] at hlines
    rw [subscribeLayoutTask_of_ack h.ack hlines, List.filterMap_append, filterMap_ofLine hkept]
    have hpart := hcut.part
    rw [hnext] at hpart
    unfold wholes
    rw [hnext]
    cases hn : ns[m]? with
    | none =>
      rw [hn, Option.map_none, Option.getD_none, List.prefix_nil] at hpart
      subst hpart
      simp
    | some n =>
      obtain ⟨hsized, hprints⟩ := h.notification n (List.mem_of_getElem? hn)
      rw [hn, Option.map_some, Option.getD_some] at hpart
      rw [Option.map_some]
      by_cases hwhole : part = lib.print n.json
      · subst hwhole
        rw [if_neg (print_ne_nil hprints), if_pos rfl, Nat.add_sub_cancel, List.take_add_one, hn,
          List.filterMap_append, List.filterMap_cons, ofLine_notification hsized hprints]
        rfl
      · rw [if_neg fun heq => hwhole (Option.some.inj heq).symm, Nat.add_sub_cancel]
        split_ifs
        · simp
        · simp [ofLine_broken hprints hpart hwhole]

theorem layoutLines_take (lib : JsonPrinter) (reqId : Option Json) (es : List SessionEvent) (k : ℕ) :
    layoutLines lib reqId (es.take k) =
      (layoutLines lib reqId es).take (((es.take k).filterMap handleSubscribeLayout).length + 1) := by
  have hbegins := (List.take_prefix k es).filterMap handleSubscribeLayout
  rw [layoutLines, layoutLines, List.take_succ_cons, ← List.map_take,
    ← List.prefix_iff_eq_take.mp hbegins]

/-- The events handed over are those of the first events of the session, of as many as were
written in full before the stream was cut off. -/
theorem exists_events_of_cut (h : lib.PrintsLayout reqId es)
    (hcut : cut <+: serveSubscribeLayout lib reqId es) :
    ∃ j ≤ es.length, (subscribeLayoutTask lib cut).1 = (es.take j).filterMap ofSession ∧
      ∀ k ≤ es.length, 0 < k →
        (k ≤ j ↔ (serveSubscribeLayout lib reqId (es.take k)).dropLast <+: cut) := by
  obtain ⟨m, part, hat⟩ := exists_cutAt hcut
  have hevents := events_of_cutAt h hat
  have hle := hat.wholes_le
  have hlength : (layoutLines lib reqId es).length =
      (es.filterMap handleSubscribeLayout).length + 1 := by simp [layoutLines]
  have harrived : ∀ k, ((es.take k).filterMap handleSubscribeLayout).length + 1 ≤
      wholes (layoutLines lib reqId es) m part ↔
        (serveSubscribeLayout lib reqId (es.take k)).dropLast <+: cut := by
    intro k
    have hk := ((List.take_prefix k es).filterMap handleSubscribeLayout).length_le
    rw [serveSubscribeLayout, layoutLines_take]
    exact hat.le_wholes_iff (Nat.succ_pos _) (by omega)
  have hcompose : ∀ j, (es.take j).filterMap ofSession =
      ((es.take j).filterMap handleSubscribeLayout).filterMap ofNotification := by
    intro j
    rw [List.filterMap_filterMap]
    rfl
  cases hw : wholes (layoutLines lib reqId es) m part with
  | zero =>
    rw [hw] at hevents harrived
    refine ⟨0, Nat.zero_le _, by rw [hevents]; simp, fun k _ hpos => ?_⟩
    rw [← harrived k]
    omega
  | succ n =>
    rw [hw] at hevents harrived hle
    obtain ⟨j, hj, htake, hiff⟩ := exists_take_filterMap handleSubscribeLayout es
      (show n ≤ (es.filterMap handleSubscribeLayout).length by omega)
    refine ⟨j, hj, ?_, fun k hk _ => ?_⟩
    · rw [hevents, hcompose, htake, Nat.add_sub_cancel]
    · rw [← harrived k, hiff k hk]
      omega

/-- Events the window is not handed mean nothing to it. -/
theorem handleLayoutEvent_ofSession (term : Terminals) (e : SessionEvent)
    (mgr : WorkspaceManagerInner) :
    mgr.handleLayoutEvent term e =
      ((ofSession e).elim mgr fun event => mgr.handleLayoutEvent term event.session) := by
  cases e <;> rfl

theorem foldl_handleLayoutEvent (term : Terminals) (es : List SessionEvent)
    (mgr : WorkspaceManagerInner) :
    (es.filterMap ofSession).foldl (fun mgr event => mgr.handleLayoutEvent term event.session) mgr =
      es.foldl (fun mgr e => mgr.handleLayoutEvent term e) mgr := by
  induction es generalizing mgr with
  | nil => rfl
  | cons e es ih =>
    rw [List.foldl_cons, handleLayoutEvent_ofSession]
    cases he : ofSession e with
    | none => rw [List.filterMap_cons_none he, ih, Option.elim_none]
    | some event => rw [List.filterMap_cons_some he, List.foldl_cons, ih, Option.elim_some]

/-- The stream is transparent to the window, wherever it is cut off: the window is where it would
be had it been given the first events of the session as they were sent, as many as were
written in full. -/
theorem window_of_cut (term : Terminals) (mgr : WorkspaceManagerInner)
    (h : lib.PrintsLayout reqId es) (hcut : cut <+: serveSubscribeLayout lib reqId es) :
    ∃ j ≤ es.length, (subscribeLayoutTask lib cut).1 = (es.take j).filterMap ofSession ∧
      (subscribeLayoutTask lib cut).1.foldl
          (fun mgr event => mgr.handleLayoutEvent term event.session) mgr =
        (es.take j).foldl (fun mgr e => mgr.handleLayoutEvent term e) mgr ∧
      ∀ k ≤ es.length, 0 < k →
        (k ≤ j ↔ (serveSubscribeLayout lib reqId (es.take k)).dropLast <+: cut) := by
  obtain ⟨j, hj, hevents, hiff⟩ := exists_events_of_cut h hcut
  refine ⟨j, hj, hevents, ?_, hiff⟩
  rw [hevents, foldl_handleLayoutEvent]

end Stream

/-! ### A tab that is announced -/

def tabAnnounced : LayoutNotification := .tabCreated 0 ⟨2⟩ ⟨⟨1⟩⟩

def ackText : Text :=
  "\x7b\"jsonrpc\":\"2.0\",\"result\":\x7b\"ok\":true\x7d,\"id\":1\x7d".toList

def tabAnnouncedText : Text :=
  ("\x7b\"jsonrpc\":\"2.0\",\"method\":\"tab_created\",\"params\":\x7b" ++
    "\"pane_id\":\"00000000-0000-0000-0000-000000000001\"," ++
    "\"tab_id\":\"00000000-0000-0000-0000-000000000002\",\"workspace_idx\":0\x7d\x7d").toList

/-- The library on these two texts. -/
def twoTexts : JsonPrinter where
  print v := if (v.get "method").isSome then tabAnnouncedText else ackText
  parse text :=
    if text = ackText then .ok (layoutAck (some (.posInt 1))).ordered
    else if text = tabAnnouncedText then .ok tabAnnounced.json.ordered
    else .error "EOF while parsing"
  display _ := ""

/-- Neither text begins the other, and both are on one line between braces. -/
theorem twoTexts_spec :
    (tabAnnouncedText.isPrefixOf ackText = false ∧ ackText.isPrefixOf tabAnnouncedText = false) ∧
      ('\n' ∉ ackText ∧ ackText = '\x7b' :: ((ackText.drop 1).dropLast ++ ['\x7d'])) ∧
      '\n' ∉ tabAnnouncedText ∧
        tabAnnouncedText = '\x7b' :: ((tabAnnouncedText.drop 1).dropLast ++ ['\x7d']) := by
  decide +kernel

theorem texts_apart : ¬tabAnnouncedText <+: ackText ∧ ¬ackText <+: tabAnnouncedText := by
  simp only [← List.isPrefixOf_iff_prefix, twoTexts_spec.1, Bool.false_eq_true, not_false_iff,
    and_self]

theorem twoTexts_parse {text : Text} (hack : text ≠ ackText) (htab : text ≠ tabAnnouncedText) :
    twoTexts.parse text = .error "EOF while parsing" := (if_neg hack).trans (if_neg htab)

theorem twoTexts_parse_tab :
    twoTexts.parse tabAnnouncedText = .ok tabAnnounced.json.ordered := by
  have hne : tabAnnouncedText ≠ ackText := fun heq => texts_apart.1 (heq ▸ List.prefix_rfl)
  dsimp only [twoTexts]
  rw [if_neg hne, if_pos (Eq.refl tabAnnouncedText)]

theorem twoTexts_prints :
    twoTexts.PrintsLayout (some (.posInt 1)) [.paneCreated ⟨⟨1⟩⟩, .tabCreated 0 ⟨2⟩ ⟨⟨1⟩⟩] := by
  obtain ⟨hapart, hapart'⟩ := texts_apart
  obtain ⟨-, ⟨hackLine, hackBraced⟩, htabLine, htabBraced⟩ := twoTexts_spec
  have hack : twoTexts.print (layoutAck (some (.posInt 1))) = ackText := rfl
  have htab : twoTexts.print tabAnnounced.json = tabAnnouncedText := by decide +kernel
  have hsized : tabAnnounced.Sized := ⟨by decide, by decide, by decide⟩
  constructor
  · refine ⟨hackLine, ⟨_, hackBraced⟩, rfl, ?_⟩
    intro text hbegins hne
    rw [hack] at hbegins hne
    exact ⟨_, twoTexts_parse hne fun heq => hapart (heq ▸ hbegins)⟩
  · intro n hn
    have heq : LayoutNotification.tabCreated 0 ⟨2⟩ ⟨⟨1⟩⟩ = n := by
      simpa [handleSubscribeLayout] using hn
    obtain rfl : tabAnnounced = n := heq
    refine ⟨hsized, htab ▸ htabLine, ⟨_, htab.trans htabBraced⟩, ?_, ?_⟩
    · rw [htab]
      exact twoTexts_parse_tab
    · intro text hbegins hne
      rw [htab] at hbegins hne
      exact ⟨_, twoTexts_parse (fun heq => hapart' (heq ▸ hbegins)) hne⟩

def emptyWindow : WorkspaceManagerInner where
  workspaces := []
  activeIndex := 0
  pendingReorders := []
  pendingActivePane := []
  nextPage := 0
  grabbed := []

/-- The connection is lost within the line of the tab. -/
theorem window_of_cut_lostConnection :
    ∃ j ≤ 2, (subscribeLayoutTask twoTexts
        ((serveSubscribeLayout twoTexts (some (.posInt 1))
          [.paneCreated ⟨⟨1⟩⟩, .tabCreated 0 ⟨2⟩ ⟨⟨1⟩⟩]).take 80)).1 =
          ([.paneCreated ⟨⟨1⟩⟩, .tabCreated 0 ⟨2⟩ ⟨⟨1⟩⟩].take j).filterMap LayoutEvent.ofSession := by
  obtain ⟨j, hj, hevents, -⟩ := window_of_cut ⟨fun _ => true, fun _ => true⟩ emptyWindow
    twoTexts_prints (List.take_prefix 80 _)
  exact ⟨j, hj, hevents⟩

end Forgetty
