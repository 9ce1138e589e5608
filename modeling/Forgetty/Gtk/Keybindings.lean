import Forgetty.Config.ReadBack
import Forgetty.Lib.Run

/-! The keyboard shortcuts: the inventory of the actions that can be bound, what the application is
told about them at the start, when the configuration file changes and on the Keybindings page of
the settings, and what that page shows. The settings and the accelerators of the application are
kept apart, and every way of changing a binding changes both. -/

namespace Forgetty

open ConfigFile (TextMap unbound)

namespace ConfigFile.TextMap

def get (m : TextMap) (k : String) : Option String := m.entries.lookup k

def remove (m : TextMap) (k : String) : TextMap :=
  ⟨m.entries.filter (·.1 ≠ k), m.nodup.sublist (List.filter_sublist.map _)⟩

theorem lookup_filter_ne {es : List (String × String)} {k j : String} (h : j ≠ k) :
    (es.filter (·.1 ≠ k)).lookup j = es.lookup j := by
  induction es with
  | nil => rfl
  | cons e es ih =>
    obtain ⟨key, text⟩ := e
    by_cases hk : key = k
    · subst hk
      rw [List.filter_cons_of_neg (by simp), ih, List.lookup_cons, beq_false_of_ne h]
    · rw [List.filter_cons_of_pos (by simpa using hk), List.lookup_cons, List.lookup_cons, ih]

theorem lookup_filter_self (es : List (String × String)) (k : String) :
    (es.filter (·.1 ≠ k)).lookup k = none := by
  rw [List.lookup_eq_none_iff]
  intro e he
  have hne : e.1 ≠ k := by simpa using (List.mem_filter.mp he).2
  exact bne_iff_ne.mpr hne.symm

@[simp] theorem get_empty (k : String) : empty.get k = none := rfl

@[simp] theorem get_remove_self (m : TextMap) (k : String) : (m.remove k).get k = none :=
  lookup_filter_self m.entries k

theorem get_remove_of_ne (m : TextMap) {k j : String} (h : j ≠ k) : (m.remove k).get j = m.get j :=
  lookup_filter_ne h

@[simp] theorem get_insert_self (m : TextMap) (k v : String) : (m.insert k v).get k = some v := by
  rw [get, insert, List.lookup_append, lookup_filter_self]
  simp

theorem get_insert_of_ne (m : TextMap) {k j : String} (v : String) (h : j ≠ k) :
    (m.insert k v).get j = m.get j := by
  rw [get, insert, List.lookup_append, lookup_filter_ne h, List.lookup_cons, beq_false_of_ne h]
  simp [get]

end ConfigFile.TextMap

namespace Keybindings

/-! ### The actions that can be bound -/

structure ActionDef where
  displayName : String
  configKey : String
  actionName : String
  defaultAccels : List String
  category : String
deriving DecidableEq

def actionDefs : List ActionDef :=
  [ ⟨"Copy", "copy", "win.copy", ["<Control><Shift>c"], "Clipboard"⟩,
    ⟨"Paste", "paste", "win.paste", ["<Control>v", "<Control><Shift>v"], "Clipboard"⟩,
    ⟨"Select All", "select-all", "win.select-all", [], "Clipboard"⟩,
    ⟨"New Tab", "new-tab", "win.new-tab", ["<Control><Shift>t"], "Tabs"⟩,
    ⟨"Close Tab", "close-tab", "win.close-tab", [], "Tabs"⟩,
    ⟨"Close Pane", "close-pane", "win.close-pane", ["<Control><Shift>w"], "Tabs"⟩,
    ⟨"Change Tab Title", "change-tab-title", "win.change-tab-title", [], "Tabs"⟩,
    ⟨"Split Right", "split-right", "win.split-right", ["<Alt><Shift>equal"], "Panes"⟩,
    ⟨"Split Down", "split-down", "win.split-down", ["<Alt><Shift>minus"], "Panes"⟩,
    ⟨"Split Left", "split-left", "win.split-left", [], "Panes"⟩,
    ⟨"Split Up", "split-up", "win.split-up", [], "Panes"⟩,
    ⟨"Focus Pane Left", "focus-pane-left", "win.focus-pane-left",
      ["<Alt>Left"], "Focus Navigation"⟩,
    ⟨"Focus Pane Right", "focus-pane-right", "win.focus-pane-right",
      ["<Alt>Right"], "Focus Navigation"⟩,
    ⟨"Focus Pane Up", "focus-pane-up", "win.focus-pane-up", ["<Alt>Up"], "Focus Navigation"⟩,
    ⟨"Focus Pane Down", "focus-pane-down", "win.focus-pane-down",
      ["<Alt>Down"], "Focus Navigation"⟩,
    ⟨"Zoom In", "zoom-in", "win.zoom-in", ["<Control>equal"], "Zoom"⟩,
    ⟨"Zoom Out", "zoom-out", "win.zoom-out", ["<Control>minus"], "Zoom"⟩,
    ⟨"Reset Zoom", "zoom-reset", "win.zoom-reset", ["<Control>0"], "Zoom"⟩,
    ⟨"Find in Terminal", "search", "win.search", ["<Control><Shift>f"], "Search"⟩,
    ⟨"Clear", "clear", "win.clear", [], "Terminal"⟩,
    ⟨"Reset", "reset", "win.reset", [], "Terminal"⟩,
    ⟨"Appearance Sidebar", "appearance", "win.appearance", ["<Control>comma"], "Configuration"⟩,
    ⟨"Settings", "open-settings", "win.open-settings", ["<Control>period"], "Configuration"⟩,
    ⟨"Open Configuration File", "open-config", "win.open-config", [], "Configuration"⟩,
    ⟨"Reload Configuration", "reload-config", "win.reload-config", [], "Configuration"⟩,
    ⟨"Keyboard Shortcuts (reference)", "show-shortcuts", "win.show-shortcuts",
      ["F1", "<Control><Shift>p"], "Configuration"⟩,
    ⟨"New Workspace", "new-workspace", "win.new-workspace", ["<Control><Alt>n"], "Workspaces"⟩,
    ⟨"Rename Workspace", "rename-workspace", "win.rename-workspace", [], "Workspaces"⟩,
    ⟨"Delete Workspace", "delete-workspace", "win.delete-workspace", [], "Workspaces"⟩,
    ⟨"Toggle Workspace Sidebar", "toggle-workspace-sidebar", "win.toggle-workspace-sidebar",
      ["<Control><Alt>b"], "Workspaces"⟩,
    ⟨"Previous Workspace", "prev-workspace", "win.prev-workspace",
      ["<Control><Alt>Page_Up"], "Workspaces"⟩,
    ⟨"Next Workspace", "next-workspace", "win.next-workspace",
      ["<Control><Alt>Page_Down"], "Workspaces"⟩,
    ⟨"Switch to Workspace 1", "switch-workspace-1", "win.switch-workspace-1",
      ["<Alt>1"], "Workspaces"⟩,
    ⟨"Switch to Workspace 2", "switch-workspace-2", "win.switch-workspace-2",
      ["<Alt>2"], "Workspaces"⟩,
    ⟨"Switch to Workspace 3", "switch-workspace-3", "win.switch-workspace-3",
      ["<Alt>3"], "Workspaces"⟩,
    ⟨"Switch to Workspace 4", "switch-workspace-4", "win.switch-workspace-4",
      ["<Alt>4"], "Workspaces"⟩,
    ⟨"Switch to Workspace 5", "switch-workspace-5", "win.switch-workspace-5",
      ["<Alt>5"], "Workspaces"⟩,
    ⟨"Switch to Workspace 6", "switch-workspace-6", "win.switch-workspace-6",
      ["<Alt>6"], "Workspaces"⟩,
    ⟨"Switch to Workspace 7", "switch-workspace-7", "win.switch-workspace-7",
      ["<Alt>7"], "Workspaces"⟩,
    ⟨"Switch to Workspace 8", "switch-workspace-8", "win.switch-workspace-8",
      ["<Alt>8"], "Workspaces"⟩,
    ⟨"Switch to Workspace 9", "switch-workspace-9", "win.switch-workspace-9",
      ["<Alt>9"], "Workspaces"⟩,
    ⟨"New Window", "new-window", "win.new-window", ["<Control><Shift>n"], "Application"⟩,
    ⟨"Close Window", "close-window", "win.close-window", [], "Application"⟩,
    ⟨"Close Window Permanently", "close-window-permanently", "win.close-window-permanently",
      [], "Application"⟩,
    ⟨"Quit", "quit", "app.quit", ["<Control><Shift>q"], "Application"⟩,
    ⟨"About Forgetty", "show-about", "win.show-about", [], "Application"⟩ ]

/-- An action of the inventory. -/
abbrev Bindable := { d : ActionDef // d ∈ actionDefs }

theorem nodup_configKeys : (actionDefs.map (·.configKey)).Nodup := by decide +kernel

theorem nodup_actionNames : (actionDefs.map (·.actionName)).Nodup := by decide +kernel

variable {d d' : ActionDef}

theorem eq_of_configKey (hd : d ∈ actionDefs) (hd' : d' ∈ actionDefs)
    (h : d.configKey = d'.configKey) : d = d' :=
  List.inj_on_of_nodup_map nodup_configKeys hd hd' h

theorem eq_of_actionName (hd : d ∈ actionDefs) (hd' : d' ∈ actionDefs)
    (h : d.actionName = d'.actionName) : d = d' :=
  List.inj_on_of_nodup_map nodup_actionNames hd hd' h

theorem find_configKey (hd : d ∈ actionDefs) :
    actionDefs.find? (·.configKey = d.configKey) = some d := by
  cases h : actionDefs.find? (·.configKey = d.configKey) with
  | none =>
    have := List.find?_eq_none.mp h d hd
    simp at this
  | some d' =>
    have hkey : d'.configKey = d.configKey := by simpa using List.find?_some h
    rw [eq_of_configKey (List.mem_of_find?_eq_some h) hd hkey]

/-! ### How an accelerator is shown -/

def modifierTokens : List (Text × String) := [("<Control>".toList, "Ctrl"),
  ("<Shift>".toList, "Shift"), ("<Alt>".toList, "Alt"), ("<Super>".toList, "Super"),
  ("<Meta>".toList, "Meta"), ("<Hyper>".toList, "Hyper")]

/-- The modifier at the beginning, and what is behind it. -/
def stripModifier (rest : Text) : Option (String × Text) :=
  modifierTokens.findSome? fun m =>
    if m.1.isPrefixOf rest then some (m.2, rest.drop m.1.length) else none

/-- The modifiers in order, and the name of the key. -/
def parts : ℕ → Text → List String × Text
  | 0, rest => ([], rest)
  | fuel + 1, rest => match stripModifier rest with
    | some (name, rest') => (name :: (parts fuel rest').1, (parts fuel rest').2)
    | none => ([], rest)

def keyNames : List (String × String) := [("equal", "="), ("minus", "-"), ("plus", "+"),
  ("comma", ","), ("period", "."), ("slash", "/"), ("backslash", "\\"), ("space", "Space"),
  ("Tab", "Tab"), ("Return", "Enter"), ("Escape", "Esc"), ("escape", "Esc"), ("Delete", "Del"),
  ("BackSpace", "Backspace"), ("Page_Up", "Page Up"), ("Page_Down", "Page Down"),
  ("Home", "Home"), ("End", "End"), ("Insert", "Ins"), ("Left", "Left"), ("Right", "Right"),
  ("Up", "Up"), ("Down", "Down")]

def keyDisplay (rest : String) : String :=
  match keyNames.lookup rest with
  | some name => name
  | none => if rest.utf8ByteSize = 1 then rest.toUpper else rest

def noAccel : String := "— None —"

def accelToDisplay (accel : String) : String :=
  if accel = "" then noAccel
  else
    let (names, rest) := parts accel.toList.length accel.toList
    "+".intercalate (names ++ [keyDisplay (.ofList rest)])

theorem stripModifier_shorter {rest rest' : Text} {name : String}
    (h : stripModifier rest = some (name, rest')) : rest'.length < rest.length := by
  obtain ⟨m, hm, hif⟩ := List.exists_of_findSome?_eq_some h
  split_ifs at hif with hp
  obtain ⟨-, rfl⟩ := Prod.mk.inj (Option.some.inj hif)
  have hpos : ∀ t ∈ modifierTokens, 0 < t.1.length := by decide
  have hle := (List.isPrefixOf_iff_prefix.mp hp).length_le
  have := hpos m hm
  rw [List.length_drop]
  omega

/-- The loop over the modifiers ends where there is none. -/
theorem stripModifier_parts {fuel : ℕ} {rest : Text} (h : rest.length ≤ fuel) :
    stripModifier (parts fuel rest).2 = none := by
  induction fuel generalizing rest with
  | zero =>
    rw [List.length_eq_zero_iff.mp (Nat.le_zero.mp h)]
    decide
  | succ fuel ih =>
    rw [parts]
    cases hs : stripModifier rest with
    | none => exact hs
    | some found =>
      have := stripModifier_shorter hs
      exact ih (by omega)

/-! ### What is bound already -/

/-- The accelerator of the settings if there is one, else the first default. -/
def effective (keybindings : TextMap) (d : ActionDef) : Option String :=
  (keybindings.get d.configKey).or d.defaultAccels.head?

/-- Whether the accelerator is found at an action other than the one being edited. -/
def conflictsAt (newAccel skipKey : String) (keybindings : TextMap) (d : ActionDef) : Bool :=
  d.configKey ≠ skipKey &&
    match effective keybindings d with
    | none => false
    | some accel => accel = newAccel || newAccel ∈ d.defaultAccels

def findConflict (newAccel skipKey : String) (keybindings : TextMap) : Option String :=
  if newAccel = "" then none
  else (actionDefs.find? (conflictsAt newAccel skipKey keybindings)).map (·.displayName)

theorem of_findConflict_eq_none {newAccel skipKey : String} {keybindings : TextMap}
    (h : findConflict newAccel skipKey keybindings = none) (hne : newAccel ≠ "")
    (hd : d ∈ actionDefs) (hkey : d.configKey ≠ skipKey) :
    keybindings.get d.configKey ≠ some newAccel ∧ newAccel ∉ d.defaultAccels := by
  rw [findConflict, if_neg hne, Option.map_eq_none_iff, List.find?_eq_none] at h
  have hd := h d hd
  rw [conflictsAt, decide_eq_true hkey, Bool.true_and] at hd
  cases hget : keybindings.get d.configKey with
  | some accel => simp_all [effective]
  | none =>
    cases hdefaults : d.defaultAccels with
    | nil => simp
    | cons first others => simp_all [effective]

/-! ### What the application is told -/

/-- For every action the accelerators it was last given. -/
abbrev Accels := String → List String

def setAccelsForAction (action : String) (accels : List String) (given : Accels) : Accels :=
  Function.update given action accels

def setAll (all : List (String × List String)) (given : Accels) : Accels :=
  all.foldl (fun given a => setAccelsForAction a.1 a.2 given) given

/-- An accelerator of the settings. The empty text stands for no accelerator. -/
def accelsOf (accel : String) : List String := if accel = "" then [] else [accel]

/-- Names that are not in the inventory are passed over. -/
def applyOverride (given : Accels) (e : String × String) : Accels :=
  match actionDefs.find? (·.configKey = e.1) with
  | some d => setAccelsForAction d.actionName (accelsOf e.2) given
  | none => given

def applyKeybindingOverrides (keybindings : TextMap) (given : Accels) : Accels :=
  keybindings.entries.foldl applyOverride given

def profileAction (i : ℕ) : String := "win.open-profile-" ++ toString i

/-- The first nine profiles have accelerators. -/
def registerProfileActions (profiles : ℕ) (given : Accels) : Accels :=
  (List.range profiles).foldl (fun given i => if i < 9 then
    setAccelsForAction (profileAction i) ["<Control><Shift>" ++ toString (i + 1)] given
    else given) given

def unregisterProfileActions (count : ℕ) (given : Accels) : Accels :=
  (List.range count).foldl (fun given i => if i < 9 then
    setAccelsForAction (profileAction i) [] given else given) given

def firstAccels : List (String × List String) := [("win.new-tab", ["<Control><Shift>t"])]

def laterAccels : List (String × List String) :=
  [ ("win.split-right", ["<Alt><Shift>equal", "<Alt>plus"]),
    ("win.split-down", ["<Alt><Shift>minus", "<Alt>underscore"]),
    ("win.close-pane", ["<Control><Shift>w"]),
    ("win.copy", ["<Control><Shift>c"]),
    ("win.search", ["<Control><Shift>f"]),
    ("win.paste", ["<Control>v", "<Control><Shift>v"]),
    ("win.focus-pane-left", ["<Alt>Left"]),
    ("win.focus-pane-right", ["<Alt>Right"]),
    ("win.focus-pane-up", ["<Alt>Up"]),
    ("win.focus-pane-down", ["<Alt>Down"]),
    ("win.resize-pane-left", ["<Alt><Shift>Left"]),
    ("win.resize-pane-right", ["<Alt><Shift>Right"]),
    ("win.resize-pane-up", ["<Alt><Shift>Up"]),
    ("win.resize-pane-down", ["<Alt><Shift>Down"]),
    ("win.zoom-in", ["<Control>equal", "<Control>plus"]),
    ("win.zoom-out", ["<Control>minus"]),
    ("win.zoom-reset", ["<Control>0"]),
    ("win.show-shortcuts", ["F1", "<Control>question", "<Control><Shift>slash",
      "<Control><Shift>p"]),
    ("win.appearance", ["<Control>comma"]),
    ("win.open-settings", ["<Control>period"]),
    ("app.quit", ["<Control><Shift>q"]),
    ("win.new-workspace", ["<Control><Alt>n"]),
    ("win.switch-workspace-1", ["<Alt>1"]),
    ("win.switch-workspace-2", ["<Alt>2"]),
    ("win.switch-workspace-3", ["<Alt>3"]),
    ("win.switch-workspace-4", ["<Alt>4"]),
    ("win.switch-workspace-5", ["<Alt>5"]),
    ("win.switch-workspace-6", ["<Alt>6"]),
    ("win.switch-workspace-7", ["<Alt>7"]),
    ("win.switch-workspace-8", ["<Alt>8"]),
    ("win.switch-workspace-9", ["<Alt>9"]),
    ("win.prev-workspace", ["<Control><Alt>Page_Up"]),
    ("win.next-workspace", ["<Control><Alt>Page_Down"]),
    ("win.toggle-workspace-sidebar", ["<Control><Alt>b"]),
    ("win.new-window", ["<Control><Shift>n"]) ]

/-- What is registered while the window is built, before the settings are looked at. -/
def startAccels (profiles : ℕ) : Accels :=
  setAll laterAccels (registerProfileActions profiles (setAll firstAccels fun _ => []))

/-- The accelerators an action is given while the window is built. -/
def builtIn (d : ActionDef) : List String :=
  (laterAccels.lookup d.actionName).getD ((firstAccels.lookup d.actionName).getD [])

/-- The accelerators that are registered at the start and that the inventory does not know. -/
def undeclared : List String :=
  actionDefs.flatMap fun d => (builtIn d).filter (· ∉ d.defaultAccels)

example : undeclared = ["<Alt>plus", "<Alt>underscore", "<Control>plus", "<Control>question",
    "<Control><Shift>slash"] := by
  decide +kernel

theorem mem_undeclared (hd : d ∈ actionDefs) {accel : String} (h : accel ∈ builtIn d)
    (hdefault : accel ∉ d.defaultAccels) : accel ∈ undeclared :=
  List.mem_flatMap.mpr ⟨d, hd, List.mem_filter.mpr ⟨h, decide_eq_true hdefault⟩⟩

variable {given : Accels}

theorem setAll_of_not_mem {all : List (String × List String)} {action : String}
    (h : action ∉ all.map (·.1)) : setAll all given action = given action := by
  induction all generalizing given with
  | nil => rfl
  | cons a all ih =>
    rw [List.map_cons, List.mem_cons, not_or] at h
    calc setAll all (setAccelsForAction a.1 a.2 given) action
        = setAccelsForAction a.1 a.2 given action := ih h.2
      _ = given action := Function.update_of_ne h.1 _ _

theorem setAll_of_mem {all : List (String × List String)} (hn : (all.map (·.1)).Nodup)
    {action : String} {accels : List String} (h : (action, accels) ∈ all) :
    setAll all given action = accels := by
  induction all generalizing given with
  | nil => cases h
  | cons a all ih =>
    rw [List.map_cons, List.nodup_cons] at hn
    rcases List.mem_cons.mp h with rfl | h
    · calc setAll all (setAccelsForAction action accels given) action
          = setAccelsForAction action accels given action := setAll_of_not_mem hn.1
        _ = accels := Function.update_self _ _ _
    · exact ih hn.2 h

theorem setAll_eq_lookup {all : List (String × List String)} (hn : (all.map (·.1)).Nodup)
    (action : String) : setAll all given action = (all.lookup action).getD (given action) := by
  cases h : all.lookup action with
  | some accels =>
    have hmem : (action, accels) ∈ all := (ConfigFile.lookup_eq_some_iff_mem hn).mp h
    exact setAll_of_mem hn hmem
  | none =>
    refine setAll_of_not_mem fun hmem => ?_
    obtain ⟨a, ha, rfl⟩ := List.mem_map.mp hmem
    exact absurd (List.lookup_eq_none_iff.mp h a ha) (by simp)

/-- No profile has the name of an action of the inventory. -/
theorem profileAction_ne (hd : d ∈ actionDefs) (i : ℕ) : d.actionName ≠ profileAction i := by
  have hnone : ∀ d ∈ actionDefs, ¬ "win.open-profile-".toList <+: d.actionName.toList := by
    decide +kernel
  intro h
  refine hnone d hd ⟨(toString i).toList, ?_⟩
  rw [h, profileAction, String.toList_append]

theorem foldl_profiles (hd : d ∈ actionDefs) {accels : ℕ → List String} (is : List ℕ) :
    is.foldl (fun given i => if i < 9 then
      setAccelsForAction (profileAction i) (accels i) given else given) given d.actionName =
      given d.actionName := by
  induction is generalizing given with
  | nil => rfl
  | cons i is ih =>
    rw [List.foldl_cons, ih]
    split_ifs
    · exact Function.update_of_ne (profileAction_ne hd i) _ _
    · rfl

theorem registerProfileActions_apply (hd : d ∈ actionDefs) (profiles : ℕ) :
    registerProfileActions profiles given d.actionName = given d.actionName :=
  foldl_profiles hd _

theorem unregisterProfileActions_apply (hd : d ∈ actionDefs) (count : ℕ) :
    unregisterProfileActions count given d.actionName = given d.actionName :=
  foldl_profiles hd _

theorem startAccels_apply (hd : d ∈ actionDefs) (profiles : ℕ) :
    startAccels profiles d.actionName = builtIn d := by
  rw [startAccels, setAll_eq_lookup (by decide +kernel), registerProfileActions_apply hd,
    setAll_eq_lookup (by decide +kernel), builtIn]

theorem applyOverride_self (hd : d ∈ actionDefs) (accel : String) :
    applyOverride given (d.configKey, accel) d.actionName = accelsOf accel := by
  rw [applyOverride, find_configKey hd]
  exact Function.update_self _ _ _

theorem applyOverride_of_ne (hd : d ∈ actionDefs) {e : String × String} (h : e.1 ≠ d.configKey) :
    applyOverride given e d.actionName = given d.actionName := by
  rw [applyOverride]
  cases hfind : actionDefs.find? (·.configKey = e.1) with
  | none => rfl
  | some other =>
    have hkey : other.configKey = e.1 := by simpa using List.find?_some hfind
    refine Function.update_of_ne (fun hname => h ?_) _ _
    rw [← hkey, eq_of_actionName (List.mem_of_find?_eq_some hfind) hd hname.symm]

theorem foldl_applyOverride (hd : d ∈ actionDefs) {es : List (String × String)}
    (hn : (es.map (·.1)).Nodup) : es.foldl applyOverride given d.actionName =
      ((es.lookup d.configKey).map accelsOf).getD (given d.actionName) := by
  induction es generalizing given with
  | nil => rfl
  | cons e es ih =>
    rw [List.map_cons, List.nodup_cons] at hn
    obtain ⟨key, accel⟩ := e
    rw [List.foldl_cons, ih hn.2, List.lookup_cons]
    by_cases hkey : key = d.configKey
    · subst hkey
      have hnone : es.lookup d.configKey = none := by
        rw [List.lookup_eq_none_iff]
        exact fun e he => bne_iff_ne.mpr fun heq => hn.1 (List.mem_map.mpr ⟨e, he, heq.symm⟩)
      rw [hnone, applyOverride_self hd, beq_self_eq_true]
      rfl
    · rw [applyOverride_of_ne hd hkey, beq_false_of_ne (Ne.symm hkey)]

/-- An action has the accelerator of the settings, and without one what it had. -/
theorem applyKeybindingOverrides_apply (hd : d ∈ actionDefs) (keybindings : TextMap) :
    applyKeybindingOverrides keybindings given d.actionName =
      ((keybindings.get d.configKey).map accelsOf).getD (given d.actionName) :=
  foldl_applyOverride hd keybindings.nodup

/-! ### The window and its Keybindings page -/

/-- A key pressed in the dialog that waits for a shortcut. -/
structure KeyPress where
  keyName : Option String
  control : Bool
  shift : Bool
  alt : Bool
  super : Bool
deriving DecidableEq

def modifierKeys : List String := ["Shift_L", "Shift_R", "Control_L", "Control_R", "Alt_L", "Alt_R",
  "Super_L", "Super_R", "Meta_L", "Meta_R", "ISO_Level3_Shift", "Caps_Lock", "Num_Lock", "Hyper_L",
  "Hyper_R"]

def KeyPress.modifiers (p : KeyPress) : String :=
  (if p.control then "<Control>" else "") ++ (if p.shift then "<Shift>" else "") ++
    (if p.alt then "<Alt>" else "") ++ (if p.super then "<Super>" else "")

/-- The accelerator that is bound, unless the press cancels, is one of a modifier alone, or is of a
key without a name. -/
def KeyPress.accel? (p : KeyPress) : Option String :=
  let keyName := p.keyName.getD ""
  if keyName = "Escape" || keyName ∈ modifierKeys || keyName = "" then none
  else some (p.modifiers ++ keyName)

theorem KeyPress.accel_ne_empty {p : KeyPress} {accel : String} (h : p.accel? = some accel) :
    accel ≠ "" := by
  rw [accel?] at h
  split_ifs at h with hskip
  rw [← Option.some.inj h]
  intro hempty
  have hname : p.keyName.getD "" = "" := (String.append_eq_empty_iff.mp hempty).2
  simp [hname] at hskip

/-- A row of the page. The warning is the text while it is visible. -/
structure ShortcutRow where
  configKey : String
  shortcut : String
  accent : Bool
  resetSensitive : Bool
  conflict : Option String
deriving DecidableEq

def buildRow (keybindings : TextMap) (d : ActionDef) : ShortcutRow where
  configKey := d.configKey
  shortcut := accelToDisplay ((effective keybindings d).getD "")
  accent := (keybindings.get d.configKey).isSome
  resetSensitive := (keybindings.get d.configKey).isSome
  conflict := none

def boundRow (accel : String) (conflict : Option String) (r : ShortcutRow) : ShortcutRow :=
  { r with
    shortcut := accelToDisplay accel
    accent := true
    resetSensitive := true
    conflict := conflict.map ("⚠ Also assigned to: " ++ ·) }

def defaultRow (d : ActionDef) (r : ShortcutRow) : ShortcutRow :=
  { r with
    shortcut := match d.defaultAccels with
      | [] => noAccel
      | accel :: _ => accelToDisplay accel
    accent := false
    resetSensitive := false
    conflict := none }

/-- The settings the window shares, what the application was told, how many profiles have actions,
and the page while the settings are open. -/
structure Window where
  config : ConfigFile.Config
  given : Accels
  profiles : ℕ
  page : Option (List ShortcutRow)

def Window.start (config : ConfigFile.Config) : Window where
  config := config
  given := applyKeybindingOverrides config.keybindings (startAccels config.profiles.length)
  profiles := config.profiles.length
  page := none

inductive Event where
  | openSettings
  | leaveSettings
  /-- A key is pressed in the dialog of the action's Edit button. -/
  | press (d : Bindable) (p : KeyPress)
  | reset (d : Bindable)
  | resetAll
  /-- Another section or the appearance sidebar changes its own settings. -/
  | otherSettings (config : ConfigFile.Config)
  /-- The text editor saved the configuration, or the menu reloaded it. -/
  | replace (config : ConfigFile.Config)
  /-- The configuration file changed and was loaded. -/
  | hotReload (config : ConfigFile.Config)

def withBindings (keybindings : TextMap) (config : ConfigFile.Config) :
    ConfigFile.Config :=
  { config with keybindings := keybindings }

def updateRow (key : String) (f : ShortcutRow → ShortcutRow) (rows : List ShortcutRow) :
    List ShortcutRow :=
  rows.map fun r => if r.configKey = key then f r else r

/-- The handlers of the page can only run while it is there. -/
def step (w : Window) : Event → Window
  | .openSettings => { w with page := some (actionDefs.map (buildRow w.config.keybindings)) }
  | .leaveSettings => { w with page := none }
  | .press d p => match w.page, p.accel? with
    | some rows, some accel =>
      let keybindings := w.config.keybindings.insert d.1.configKey accel
      { w with
        config := withBindings keybindings w.config
        given := setAccelsForAction d.1.actionName [accel] w.given
        page := some (updateRow d.1.configKey
          (boundRow accel (findConflict accel d.1.configKey keybindings)) rows) }
    | _, _ => w
  | .reset d => match w.page with
    | some rows =>
      { w with
        config := withBindings (w.config.keybindings.remove d.1.configKey) w.config
        given := setAccelsForAction d.1.actionName d.1.defaultAccels w.given
        page := some (updateRow d.1.configKey (defaultRow d.1) rows) }
    | none => w
  | .resetAll => match w.page with
    | some rows =>
      { w with
        config := withBindings .empty w.config
        given := setAll (actionDefs.map fun d => (d.actionName, d.defaultAccels)) w.given
        page := some (rows.map fun r => match actionDefs.find? (·.configKey = r.configKey) with
          | some d => defaultRow d r
          | none => r) }
    | none => w
  | .otherSettings config => { w with config := withBindings w.config.keybindings config }
  | .replace config => { w with config := config }
  | .hotReload config =>
    { w with
      config := config
      given := applyKeybindingOverrides config.keybindings (registerProfileActions
        config.profiles.length (unregisterProfileActions w.profiles w.given))
      profiles := config.profiles.length }

/-! ### What every run keeps -/

/-- An action has its accelerator of the settings. One without has a default, that of the start or
that of the inventory. -/
structure Accounted (keybindings : TextMap) (given : Accels) (d : ActionDef) : Prop where
  bound : ∀ accel, keybindings.get d.configKey = some accel → given d.actionName = accelsOf accel
  unbound : keybindings.get d.configKey = none →
    given d.actionName = builtIn d ∨ given d.actionName = d.defaultAccels

/-- A configuration from outside keeps the actions bound that were: one that is put in the place of
the settings binds them as they are, and the file may bind them to something else. -/
def Keeps (w : Window) : Event → Prop
  | .replace config => ∀ d ∈ actionDefs,
      config.keybindings.get d.configKey = w.config.keybindings.get d.configKey
  | .hotReload config => ∀ d ∈ actionDefs, w.config.keybindings.get d.configKey ≠ none →
      config.keybindings.get d.configKey ≠ none
  | _ => True

def Window.Good (w : Window) : Prop := ∀ d ∈ actionDefs, Accounted w.config.keybindings w.given d

theorem Accounted.congr {keybindings keybindings' : TextMap} {given' : Accels}
    (h : Accounted keybindings given d)
    (hget : keybindings'.get d.configKey = keybindings.get d.configKey)
    (hgiven : given' d.actionName = given d.actionName) : Accounted keybindings' given' d where
  bound accel haccel := hgiven.trans (h.bound accel (hget.symm.trans haccel))
  unbound hnone := by
    rw [hgiven]
    exact h.unbound (hget.symm.trans hnone)

/-- What applies the settings leaves every action with its accelerator. -/
theorem Accounted.applyOverrides {keybindings : TextMap} (hd : d ∈ actionDefs)
    (h : keybindings.get d.configKey = none →
      given d.actionName = builtIn d ∨ given d.actionName = d.defaultAccels) :
    Accounted keybindings (applyKeybindingOverrides keybindings given) d where
  bound accel haccel := by
    rw [applyKeybindingOverrides_apply hd, haccel]
    rfl
  unbound hnone := by
    rw [applyKeybindingOverrides_apply hd, hnone]
    exact h hnone

theorem good_start (config : ConfigFile.Config) : (Window.start config).Good := fun _ hd =>
  .applyOverrides hd fun _ => Or.inl (startAccels_apply hd _)

/-- An action that is given its accelerators together with a change of its setting. -/
theorem Accounted.set {keybindings keybindings' : TextMap} {accels : List String}
    (hd : d ∈ actionDefs) (hd' : d' ∈ actionDefs) (h : Accounted keybindings given d')
    (hother : ∀ key, key ≠ d.configKey → keybindings'.get key = keybindings.get key)
    (hself : Accounted keybindings' (setAccelsForAction d.actionName accels given) d) :
    Accounted keybindings' (setAccelsForAction d.actionName accels given) d' := by
  by_cases heq : d' = d
  · rw [heq]
    exact hself
  · have hkey : d'.configKey ≠ d.configKey := fun hkey => heq (eq_of_configKey hd' hd hkey)
    have hname : d'.actionName ≠ d.actionName := fun hname => heq (eq_of_actionName hd' hd hname)
    exact h.congr (hother _ hkey) (Function.update_of_ne hname _ _)

theorem accounted_press {keybindings : TextMap} {accel : String} (hne : accel ≠ "") (d : ActionDef) :
    Accounted (keybindings.insert d.configKey accel)
      (setAccelsForAction d.actionName [accel] given) d where
  bound accel' h := by
    rw [TextMap.get_insert_self] at h
    rw [setAccelsForAction, Function.update_self, ← Option.some.inj h, accelsOf, if_neg hne]
  unbound h := by simp at h

theorem accounted_reset {keybindings : TextMap} (d : ActionDef) :
    Accounted (keybindings.remove d.configKey)
      (setAccelsForAction d.actionName d.defaultAccels given) d where
  bound accel h := by simp at h
  unbound _ := Or.inr (Function.update_self _ _ _)

theorem setAll_defaults (hd : d ∈ actionDefs) :
    setAll (actionDefs.map fun d => (d.actionName, d.defaultAccels)) given d.actionName =
      d.defaultAccels := by
  refine setAll_of_mem ?_ (List.mem_map.mpr ⟨d, hd, rfl⟩)
  rw [List.map_map]
  exact nodup_actionNames

theorem good_step {w : Window} {e : Event} (h : w.Good) (hk : Keeps w e) : (step w e).Good := by
  intro d' hd'
  have hd := h d' hd'
  cases e with
  | openSettings => exact hd
  | leaveSettings => exact hd
  | press d p =>
    rw [step]
    split
    next rows accel _ haccel =>
      exact hd.set d.2 hd' (fun key hkey => TextMap.get_insert_of_ne _ _ hkey)
        (accounted_press (KeyPress.accel_ne_empty haccel) d.1)
    next => exact hd
  | reset d =>
    rw [step]
    cases w.page with
    | none => exact hd
    | some rows =>
      exact hd.set d.2 hd' (fun key hkey => TextMap.get_remove_of_ne _ hkey) (accounted_reset d.1)
  | resetAll =>
    rw [step]
    cases w.page with
    | none => exact hd
    | some rows =>
      constructor
      · intro accel hsome
        cases hsome
      · exact fun _ => Or.inr (setAll_defaults hd')
  | otherSettings config => exact hd
  | replace config => exact hd.congr (hk d' hd') rfl
  | hotReload config =>
    refine .applyOverrides hd' fun hnone => ?_
    rw [registerProfileActions_apply hd', unregisterProfileActions_apply hd']
    exact hd.unbound (by_contra fun hsome => hk d' hd' hsome hnone)

theorem good_run {config : ConfigFile.Config} {events : List Event}
    (h : Lib.Meets step Keeps (Window.start config) events) :
    (Lib.run step (Window.start config) events).Good :=
  (Lib.along_of_invariant (P := Window.Good) (fun _ _ => good_step) (fun _ h => h)
    (good_start config) h).last

/-- The page has a row for each action of the inventory, in its order. -/
def Window.Laid (w : Window) : Prop :=
  ∀ rows, w.page = some rows → rows.map (·.configKey) = actionDefs.map (·.configKey)

theorem keys_map {f : ShortcutRow → ShortcutRow} (hf : ∀ r, (f r).configKey = r.configKey)
    (rows : List ShortcutRow) : (rows.map f).map (·.configKey) = rows.map (·.configKey) := by
  rw [List.map_map]
  exact List.map_congr_left fun r _ => hf r

theorem keys_updateRow {f : ShortcutRow → ShortcutRow} (hf : ∀ r, (f r).configKey = r.configKey)
    (key : String) (rows : List ShortcutRow) :
    (updateRow key f rows).map (·.configKey) = rows.map (·.configKey) :=
  keys_map (fun r => by split_ifs <;> simp [hf]) rows

theorem laid_step {w : Window} (h : w.Laid) (e : Event) : (step w e).Laid := by
  intro rows hrows
  cases e with
  | openSettings =>
    rw [← Option.some.inj hrows, List.map_map]
    rfl
  | leaveSettings => cases hrows
  | press d p =>
    rw [step] at hrows
    split at hrows
    next before accel hpage _ =>
      rw [← Option.some.inj hrows]
      refine (keys_updateRow ?_ _ before).trans (h before hpage)
      exact fun _ => rfl
    next => exact h rows hrows
  | reset d =>
    rw [step] at hrows
    cases hpage : w.page with
    | none => simp [hpage] at hrows
    | some before =>
      rw [hpage] at hrows
      rw [← Option.some.inj hrows]
      refine (keys_updateRow ?_ _ before).trans (h before hpage)
      exact fun _ => rfl
  | resetAll =>
    rw [step] at hrows
    cases hpage : w.page with
    | none => simp [hpage] at hrows
    | some before =>
      rw [hpage] at hrows
      rw [← Option.some.inj hrows]
      refine (keys_map ?_ before).trans (h before hpage)
      intro r
      split <;> rfl
  | otherSettings config => exact h rows hrows
  | replace config => exact h rows hrows
  | hotReload config => exact h rows hrows

theorem laid_run (config : ConfigFile.Config) (events : List Event) :
    (Lib.run step (Window.start config) events).Laid :=
  (Lib.along_of_step (P := Window.Laid) (fun _ h => by cases h) fun _ e h => laid_step h e).last

/-- What the press of a key on the page does. -/
theorem step_press {w : Window} {d : Bindable} {p : KeyPress} {accel : String}
    (hp : p.accel? = some accel) {rows : List ShortcutRow}
    (hpage : (step w (.press d p)).page = some rows) :
    (step w (.press d p)).config.keybindings = w.config.keybindings.insert d.1.configKey accel ∧
      (step w (.press d p)).given = setAccelsForAction d.1.actionName [accel] w.given ∧
      ∃ before, w.page = some before ∧ rows = updateRow d.1.configKey (boundRow accel
        (findConflict accel d.1.configKey (w.config.keybindings.insert d.1.configKey accel))) before := by
  cases hbefore : w.page with
  | none => simp [step, hbefore] at hpage
  | some before =>
    simp only [step, hbefore, hp, Option.some.injEq] at hpage ⊢
    exact ⟨rfl, trivial, before, rfl, hpage.symm⟩

/-- Without a warning in its row the shortcut is in conflict with none. -/
theorem findConflict_of_quiet {d : Bindable} {accel : String} {conflict : Option String}
    {before : List ShortcutRow} (hlaid : before.map (·.configKey) = actionDefs.map (·.configKey))
    (hquiet : ∀ r ∈ updateRow d.1.configKey (boundRow accel conflict) before,
      r.configKey = d.1.configKey → r.conflict = none) : conflict = none := by
  have hmem : d.1.configKey ∈ before.map (·.configKey) := by
    rw [hlaid]
    exact List.mem_map.mpr ⟨d.1, d.2, rfl⟩
  obtain ⟨r, hr, hkey⟩ := List.mem_map.mp hmem
  have hrow : boundRow accel conflict r ∈ updateRow d.1.configKey (boundRow accel conflict) before :=
    List.mem_map.mpr ⟨r, hr, if_pos hkey⟩
  exact Option.map_eq_none_iff.mp (hquiet _ hrow hkey)

/-- What an action was given is its accelerator of the settings, a default of the inventory, or one
that only the start registers. -/
theorem Accounted.of_mem {keybindings : TextMap} {accel : String} (hd : d ∈ actionDefs)
    (h : Accounted keybindings given d) (hmem : accel ∈ given d.actionName) :
    keybindings.get d.configKey = some accel ∨ accel ∈ d.defaultAccels ∨ accel ∈ undeclared := by
  cases hcase : keybindings.get d.configKey with
  | some bound =>
    rw [h.bound bound hcase, accelsOf] at hmem
    split_ifs at hmem with hempty
    · cases hmem
    · exact .inl (congrArg some (List.mem_singleton.mp hmem).symm)
  | none =>
    refine .inr (or_iff_not_imp_left.mpr fun hdefault => ?_)
    rcases h.unbound hcase with hstart | hinventory
    · exact mem_undeclared hd (hstart ▸ hmem) hdefault
    · exact absurd (hinventory ▸ hmem) hdefault

section Readings

variable {τ : Type} (reads : String → τ)

/-- An accelerator that is taken for the same as another one. -/
def Taken (accel : String) (accels : List String) : Prop :=
  ∃ written ∈ accels, reads written = reads accel

/-- The action has the accelerator in another writing, in the settings or as a default. -/
def WrittenOtherwise (keybindings : TextMap) (accel : String) (d : ActionDef) : Prop :=
  ∃ written, (keybindings.get d.configKey = some written ∨ written ∈ d.defaultAccels) ∧
    written ≠ accel ∧ reads written = reads accel

/-- Whatever accelerators GTK takes for the same: a shortcut that is bound without a warning is one
of that action, and of another action that can be bound only if it is written otherwise there,
since the page compares what is written, or if it is one that only the start registers. -/
theorem unwarned_exclusive {config : ConfigFile.Config} {events : List Event}
    (h : Lib.Meets step Keeps (Window.start config) events) (d : Bindable) {p : KeyPress}
    {accel : String} (hp : p.accel? = some accel) {rows : List ShortcutRow}
    (hpage : (step (Lib.run step (Window.start config) events) (.press d p)).page = some rows)
    (hquiet : ∀ r ∈ rows, r.configKey = d.1.configKey → r.conflict = none) :
    let w := Lib.run step (Window.start config) events
    Taken reads accel ((step w (.press d p)).given d.1.actionName) ∧
      ∀ d' : Bindable, Taken reads accel ((step w (.press d p)).given d'.1.actionName) →
        d' = d ∨ WrittenOtherwise reads w.config.keybindings accel d'.1 ∨
          Taken reads accel undeclared := by
  obtain ⟨hconfig, hgiven, before, hbefore, rfl⟩ := step_press hp hpage
  refine ⟨⟨accel, ?_, rfl⟩, fun d' ⟨written, hmem, hsame⟩ => ?_⟩
  · rw [hgiven, setAccelsForAction, Function.update_self]
    exact List.mem_singleton_self accel
  · refine or_iff_not_imp_left.mpr fun heq => ?_
    have hkey : d'.1.configKey ≠ d.1.configKey :=
      fun hkey => heq (Subtype.ext (eq_of_configKey d'.2 d.2 hkey))
    have hnone := findConflict_of_quiet (laid_run config events before hbefore) hquiet
    obtain ⟨hget, hdefault⟩ :=
      of_findConflict_eq_none hnone (KeyPress.accel_ne_empty hp) d'.2 hkey
    have hgood : (step (Lib.run step (Window.start config) events) (.press d p)).Good :=
      good_step (good_run h) trivial
    rcases (hgood d'.1 d'.2).of_mem d'.2 hmem with hbound | hlisted | hstart
    · rw [hconfig] at hbound
      have hne : written ≠ accel := fun hwritten => hget (hwritten ▸ hbound)
      rw [TextMap.get_insert_of_ne _ _ hkey] at hbound
      exact .inl ⟨written, .inl hbound, hne, hsame⟩
    · exact .inl ⟨written, .inr hlisted, fun hwritten => hdefault (hwritten ▸ hlisted), hsame⟩
    · exact .inr ⟨written, hstart, hsame⟩

end Readings

/-- The modifiers in any order, and the key with its small letter, as GTK reads it. -/
def smallLetters (accel : String) : List Bool × String :=
  let (names, rest) := parts accel.toList.length accel.toList
  (modifierTokens.map (·.2 ∈ names), (String.ofList rest).toLower)

def copyAction : Bindable :=
  ⟨⟨"Copy", "copy", "win.copy", ["<Control><Shift>c"], "Clipboard"⟩, by decide +kernel⟩

/-- With Shift the keys have the names of capitals. -/
def pressedY : KeyPress :=
  { keyName := some "Y", control := true, shift := true, alt := false, super := false }

def rowsBound : List ShortcutRow :=
  updateRow "copy" (boundRow "<Control><Shift>Y" (findConflict "<Control><Shift>Y" "copy"
    (TextMap.empty.insert "copy" "<Control><Shift>Y"))) (actionDefs.map (buildRow .empty))

theorem quiet_rowsBound : ∀ r ∈ rowsBound, r.configKey = "copy" → r.conflict = none := by
  decide +kernel

theorem unwarned_exclusive_copy :
    let w := Lib.run step (Window.start unbound) [.openSettings]
    Taken smallLetters "<Control><Shift>Y" ((step w (.press copyAction pressedY)).given "win.copy") ∧
      ∀ d' : Bindable, Taken smallLetters "<Control><Shift>Y"
          ((step w (.press copyAction pressedY)).given d'.1.actionName) →
        d' = copyAction ∨
          WrittenOtherwise smallLetters w.config.keybindings "<Control><Shift>Y" d'.1 ∨
          Taken smallLetters "<Control><Shift>Y" undeclared := by
  have hquiet := quiet_rowsBound
  exact @unwarned_exclusive _ smallLetters unbound [.openSettings] ⟨trivial, trivial⟩ copyAction
    pressedY "<Control><Shift>Y" (by decide +kernel) rowsBound rfl hquiet

/-- Ctrl+Shift+C may be bound to Paste without a warning, and stays a shortcut of Copy. -/
example : findConflict "<Control><Shift>C" "paste"
      (TextMap.empty.insert "paste" "<Control><Shift>C") = none ∧
    WrittenOtherwise smallLetters .empty "<Control><Shift>C" copyAction.1 :=
  ⟨by decide +kernel, "<Control><Shift>c", by decide +kernel⟩

/-! ### What the page shows -/

/-- A row but for its warning. -/
def unwarned (r : ShortcutRow) : ShortcutRow := { r with conflict := none }

/-- The page shows what it would if it were opened now, but for the warnings. -/
def Window.Current (w : Window) : Prop :=
  ∀ rows, w.page = some rows → rows.map unwarned = actionDefs.map (buildRow w.config.keybindings)

/-- While the page is open, a configuration from outside has the bindings the page has. -/
def KeepsShown (w : Window) : Event → Prop
  | .replace config => w.page ≠ none → ∀ d ∈ actionDefs,
      config.keybindings.get d.configKey = w.config.keybindings.get d.configKey
  | .hotReload config => w.page ≠ none → ∀ d ∈ actionDefs,
      config.keybindings.get d.configKey = w.config.keybindings.get d.configKey
  | _ => True

theorem buildRow_congr {keybindings keybindings' : TextMap}
    (h : keybindings'.get d.configKey = keybindings.get d.configKey) :
    buildRow keybindings' d = buildRow keybindings d := by
  rw [buildRow, buildRow, effective, effective, h]

theorem unwarned_boundRow (keybindings : TextMap) (d : ActionDef) {accel : String}
    (conflict : Option String) {r : ShortcutRow} (hkey : r.configKey = d.configKey) :
    unwarned (boundRow accel conflict r) = buildRow (keybindings.insert d.configKey accel) d := by
  simp [unwarned, boundRow, buildRow, effective, hkey]

theorem unwarned_defaultRow {keybindings : TextMap} (hnone : keybindings.get d.configKey = none)
    {r : ShortcutRow} (hkey : r.configKey = d.configKey) :
    unwarned (defaultRow d r) = buildRow keybindings d := by
  rw [unwarned, defaultRow, buildRow, effective, hnone, hkey]
  cases d.defaultAccels <;> rfl

/-- Rows that show what they should, row by row after a change of both. -/
theorem map_rows {keybindings keybindings' : TextMap} {f : ShortcutRow → ShortcutRow}
    {rows : List ShortcutRow} {defs : List ActionDef}
    (h : rows.map unwarned = defs.map (buildRow keybindings))
    (hf : ∀ r, ∀ d ∈ defs, unwarned r = buildRow keybindings d →
      unwarned (f r) = buildRow keybindings' d) :
    (rows.map f).map unwarned = defs.map (buildRow keybindings') := by
  induction rows generalizing defs with
  | nil =>
    rw [List.map_eq_nil_iff.mp h.symm]
    rfl
  | cons r rows ih =>
    cases defs with
    | nil => cases h
    | cons d defs =>
      rw [List.map_cons, List.map_cons, List.cons.injEq] at h
      rw [List.map_cons, List.map_cons, List.map_cons, hf r d List.mem_cons_self h.1,
        ih h.2 fun r' d' hd' => hf r' d' (List.mem_cons_of_mem d hd')]

theorem configKey_of_unwarned {keybindings : TextMap} {r : ShortcutRow}
    (h : unwarned r = buildRow keybindings d) : r.configKey = d.configKey :=
  congrArg ShortcutRow.configKey h

/-- One row is rewritten with the setting of its action. -/
theorem map_updateRow {keybindings keybindings' : TextMap} (hd : d ∈ actionDefs)
    {f : ShortcutRow → ShortcutRow} {rows : List ShortcutRow}
    (h : rows.map unwarned = actionDefs.map (buildRow keybindings))
    (hother : ∀ key, key ≠ d.configKey → keybindings'.get key = keybindings.get key)
    (hself : ∀ r : ShortcutRow, r.configKey = d.configKey →
      unwarned (f r) = buildRow keybindings' d) :
    (updateRow d.configKey f rows).map unwarned = actionDefs.map (buildRow keybindings') := by
  refine map_rows h fun r d' hd' hrow => ?_
  have hkey := configKey_of_unwarned hrow
  split_ifs with heq
  · rw [hself r heq, eq_of_configKey hd' hd (hkey.symm.trans heq)]
  · rw [hrow, buildRow_congr (hother _ (hkey ▸ heq))]

/-- The page stands while every action keeps its setting. -/
theorem Window.Current.congr {w w' : Window} (h : w.Current) (hpage : w'.page = w.page)
    (hget : w.page ≠ none → ∀ d ∈ actionDefs,
      w'.config.keybindings.get d.configKey = w.config.keybindings.get d.configKey) : w'.Current := by
  intro rows hrows
  have hopen : w.page ≠ none := by
    rw [← hpage, hrows]
    exact Option.some_ne_none rows
  rw [h rows (hpage.symm.trans hrows)]
  exact List.map_congr_left fun d hd => (buildRow_congr (hget hopen d hd)).symm

theorem current_step {w : Window} {e : Event} (h : w.Current) (hk : KeepsShown w e) :
    (step w e).Current := by
  cases e with
  | openSettings =>
    intro rows hrows
    rw [← Option.some.inj hrows, List.map_map]
    rfl
  | leaveSettings =>
    intro rows hrows
    cases hrows
  | press d p =>
    rw [step]
    split
    next before accel hpage haccel =>
      intro rows hrows
      rw [← Option.some.inj hrows]
      refine map_updateRow d.2 (h before hpage) (fun key hkey => TextMap.get_insert_of_ne _ _ hkey) ?_
      exact fun r hkey => unwarned_boundRow _ _ _ hkey
    next => exact h
  | reset d =>
    rw [step]
    cases hpage : w.page with
    | none => exact h
    | some before =>
      intro rows hrows
      rw [← Option.some.inj hrows]
      refine map_updateRow d.2 (h before hpage) (fun key hkey => TextMap.get_remove_of_ne _ hkey) ?_
      exact fun r hkey => unwarned_defaultRow (TextMap.get_remove_self _ _) hkey
  | resetAll =>
    rw [step]
    cases hpage : w.page with
    | none => exact h
    | some before =>
      intro rows hrows
      rw [← Option.some.inj hrows]
      refine map_rows (h before hpage) fun r d hd hrow => ?_
      have hkey := configKey_of_unwarned hrow
      rw [hkey, find_configKey hd]
      exact unwarned_defaultRow rfl hkey
  | otherSettings config => exact h.congr rfl fun _ _ _ => rfl
  | replace config => exact h.congr rfl hk
  | hotReload config => exact h.congr rfl hk

/-- In a run in which the bindings change on the page alone while it is open, every row shows at
any time the accelerator its action has in the settings, and offers to reset the actions that have
one: the page is the one that would be built anew, but for the warnings. -/
theorem page_current {config : ConfigFile.Config} {events : List Event}
    (h : Lib.Meets step KeepsShown (Window.start config) events) :
    Lib.Along step Window.Current (Window.start config) events :=
  Lib.along_of_invariant (fun _ _ => current_step) (fun _ h => h) (fun _ h => by cases h) h

theorem page_current_rebound : Lib.Along step Window.Current (Window.start unbound)
    [.openSettings, .press copyAction pressedY, .leaveSettings, .replace unbound, .openSettings] :=
  page_current ⟨trivial, trivial, trivial, fun h => absurd rfl h, trivial, trivial⟩

end Keybindings

end Forgetty
