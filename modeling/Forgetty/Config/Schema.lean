import Mathlib.Data.List.Nodup
import Forgetty.Config.Theme

/-! The configuration: how it is read from the entries of a TOML file, and how it is written.
A theme is written by its name, or in full when it has none, and settings that have their default
are left out where the writer says so. -/

namespace Forgetty.ConfigFile

open Lib
open Forgetty.Core (Reads)

/-! ### Settings with names -/

inductive BellMode where
  | visual
  | audio
  | both
  | none
  deriving DecidableEq, Repr

inductive CursorStyle where
  | block
  | bar
  | underline
  | blockHollow
  deriving DecidableEq, Repr

inductive NotificationMode where
  | all
  | ringOnly
  | none
  deriving DecidableEq, Repr

inductive OnLaunch where
  | restore
  | new
  deriving DecidableEq, Repr

def BellMode.rename : BellMode → String
  | visual => "visual"
  | audio => "audio"
  | both => "both"
  | none => "none"

def BellMode.variants : List (String × BellMode) :=
  [("visual", visual), ("audio", audio), ("both", both), ("none", none)]

def CursorStyle.rename : CursorStyle → String
  | block => "block"
  | bar => "bar"
  | underline => "underline"
  | blockHollow => "blockhollow"

/-- The hollow block has a second name. -/
def CursorStyle.variants : List (String × CursorStyle) :=
  [("block", block), ("bar", bar), ("underline", underline), ("blockhollow", blockHollow),
    ("block_hollow", blockHollow)]

def NotificationMode.rename : NotificationMode → String
  | all => "all"
  | ringOnly => "ringonly"
  | none => "none"

def NotificationMode.variants : List (String × NotificationMode) :=
  [("all", all), ("ringonly", ringOnly), ("none", none)]

def OnLaunch.rename : OnLaunch → String
  | restore => "restore"
  | new => "new"

def readEnum {α : Type} (variants : List (String × α)) (v : Toml) : Reads α := do
  match variants.lookup (← readVariant v) with
  | some a => .ok a
  | none => .error .invalid

/-! ### Profiles and keybindings -/

structure ProfileConfig where
  name : String
  command : String
  directory : Option String
  icon : Option String
  deriving DecidableEq, Repr

def profileChecks : Checks := [("name", check readString), ("command", check readString),
  ("directory", check readString), ("icon", check readString)]

def buildProfile (entries : Entries) : Reads ProfileConfig := do
  let name ← required readString "name" entries
  let command ← required readString "command" entries
  let directory ← field readString "directory" entries
  let icon ← field readString "icon" entries
  .ok ⟨name, command, directory, icon⟩

def readProfile : Toml → Reads ProfileConfig := readRecord profileChecks buildProfile

/-- The elements of an array, read in their order. -/
def readAll {α : Type} (read : Toml → Reads α) : List Toml → Reads (List α)
  | [] => .ok []
  | v :: vs => do
    let a ← read v
    let as ← readAll read vs
    .ok (a :: as)

def readArray {α : Type} (read : Toml → Reads α) : Toml → Reads (List α)
  | .array elems => readAll read elems
  | _ => .error .invalid

/-- A hash map from texts to texts, by its entries. Two of them are equal when their entries
are the same in any order. -/
structure TextMap where
  entries : List (String × String)
  nodup : (entries.map (·.1)).Nodup

namespace TextMap

def empty : TextMap := ⟨[], List.nodup_nil⟩

theorem nodup_insert (m : TextMap) (k v : String) :
    ((m.entries.filter (·.1 ≠ k) ++ [(k, v)]).map (·.1)).Nodup := by
  rw [List.map_append, List.nodup_append']
  refine ⟨m.nodup.sublist (List.filter_sublist.map _), List.nodup_singleton _, ?_⟩
  intro key hkey hk
  obtain ⟨e, he, rfl⟩ := List.mem_map.mp hkey
  have hne : e.1 ≠ k := by simpa using (List.mem_filter.mp he).2
  exact hne (List.mem_singleton.mp hk)

def insert (m : TextMap) (k v : String) : TextMap :=
  ⟨m.entries.filter (·.1 ≠ k) ++ [(k, v)], nodup_insert m k v⟩

end TextMap

/-- Entry by entry. -/
def readTexts (m : TextMap) : Entries → Reads TextMap
  | [] => .ok m
  | (k, v) :: entries => do
    let text ← readString v
    readTexts (m.insert k text) entries

def readTextMap : Toml → Reads TextMap
  | .table entries => readTexts .empty entries
  | _ => .error .invalid

/-! ### The theme of a configuration -/

mutual

/-- The value as a `toml::Value`, whose tables are sorted by their keys. -/
def Toml.toValue : Toml → Toml
  | .array elems => .array (valuesOf elems)
  | .table entries => .table ((entriesOf entries).mergeSort fun e e' => decide (e.1 ≤ e'.1))
  | .string text => .string text
  | .integer n => .integer n
  | .float x => .float x
  | .boolean b => .boolean b
  | .datetime text => .datetime text

def valuesOf : List Toml → List Toml
  | [] => []
  | v :: vs => v.toValue :: valuesOf vs

def entriesOf : List (String × Toml) → List (String × Toml)
  | [] => []
  | (k, v) :: entries => (k, v.toValue) :: entriesOf entries

end

/-- Sixteen colours, no more and no less. -/
def readPalette : Toml → Reads (Palette 16)
  | .array elems => do
    let colors ← readAll readRgba (elems.take 16)
    if elems.length = 16 then
      if h : colors.length = 16 then .ok ⟨colors, h⟩ else .error .invalid
    else .error .invalid
  | _ => .error .invalid

def themeChecks : Checks := [("ansi_colors", check readPalette), ("foreground", check readRgba),
  ("background", check readRgba), ("cursor", check readRgba), ("selection", check readRgba),
  ("search_match", check readRgba), ("search_current", check readRgba)]

def buildTheme (entries : Entries) : Reads Theme := do
  let ansiColors ← withDefault readPalette "ansi_colors" defaultAnsiColors entries
  let foreground ← withDefault readRgba "foreground" defaultForeground entries
  let background ← withDefault readRgba "background" defaultBackground entries
  let cursor ← withDefault readRgba "cursor" defaultCursorColor entries
  let selection ← withDefault readRgba "selection" defaultSelectionColor entries
  let searchMatch ← withDefault readRgba "search_match" defaultSearchMatchColor entries
  let searchCurrent ← withDefault readRgba "search_current" defaultSearchCurrentColor entries
  .ok ⟨ansiColors, foreground, background, cursor, selection, searchMatch, searchCurrent⟩

def readTheme : Toml → Reads Theme := readRecord themeChecks buildTheme

/-! ### The configuration -/

structure Config where
  fontFamily : String
  fontSize : BinaryFloat binary32
  theme : Theme
  themeName : Option String
  shell : Option String
  scrollbackLines : UInt64
  cursorStyle : CursorStyle
  bellMode : BellMode
  notificationMode : NotificationMode
  keybindings : TextMap
  onLaunch : OnLaunch
  profiles : List ProfileConfig
  defaultProfile : Option String
  pasteWarnSize : UInt64
  pasteWarnNewline : Bool
  sessionTrashDays : UInt32
  byteLogRingKb : UInt32
  byteLogMaxMb : UInt32

structure RawConfig where
  fontFamily : String
  fontSize : BinaryFloat binary32
  theme : Option Toml
  shell : Option String
  scrollbackLines : UInt64
  cursorStyle : CursorStyle
  bellMode : BellMode
  notificationMode : NotificationMode
  keybindings : TextMap
  onLaunch : Option String
  profiles : List ProfileConfig
  defaultProfile : Option String
  pasteWarnSize : UInt64
  pasteWarnNewline : Bool
  sessionTrashDays : UInt32
  byteLogRingKb : UInt32
  byteLogMaxMb : UInt32

def defaultFontFamily : String := "monospace"

def defaultFontSize : BinaryFloat binary32 := .ofInt binary32 12

def defaultScrollbackLines : UInt64 := 10000

def defaultPasteWarnSize : UInt64 := 5120

def defaultPasteWarnNewline : Bool := true

def defaultSessionTrashDays : UInt32 := 7

def defaultByteLogRingKb : UInt32 := 1024

def defaultByteLogMaxMb : UInt32 := 10

/-- Any value. -/
def readValue (v : Toml) : Reads Toml := .ok v.toValue

def rawConfigChecks : Checks := [("font_family", check readString), ("font_size", check readF32),
  ("theme", check readValue), ("shell", check readString), ("scrollback_lines", check readUsize),
  ("cursor_style", check (readEnum CursorStyle.variants)),
  ("bell_mode", check (readEnum BellMode.variants)),
  ("notification_mode", check (readEnum NotificationMode.variants)),
  ("keybindings", check readTextMap), ("on_launch", check readString),
  ("profiles", check (readArray readProfile)), ("default_profile", check readString),
  ("paste_warn_size", check readUsize), ("paste_warn_newline", check readBool),
  ("session_trash_days", check readU32), ("byte_log_ring_kb", check readU32),
  ("byte_log_max_mb", check readU32)]

def buildRawConfig (entries : Entries) : Reads RawConfig := do
  let fontFamily ← withDefault readString "font_family" defaultFontFamily entries
  let fontSize ← withDefault readF32 "font_size" defaultFontSize entries
  let theme ← field readValue "theme" entries
  let shell ← field readString "shell" entries
  let scrollbackLines ← withDefault readUsize "scrollback_lines" defaultScrollbackLines entries
  let cursorStyle ← withDefault (readEnum CursorStyle.variants) "cursor_style" .block entries
  let bellMode ← withDefault (readEnum BellMode.variants) "bell_mode" .visual entries
  let notificationMode ←
    withDefault (readEnum NotificationMode.variants) "notification_mode" .all entries
  let keybindings ← withDefault readTextMap "keybindings" .empty entries
  let onLaunch ← field readString "on_launch" entries
  let profiles ← withDefault (readArray readProfile) "profiles" [] entries
  let defaultProfile ← field readString "default_profile" entries
  let pasteWarnSize ← withDefault readUsize "paste_warn_size" defaultPasteWarnSize entries
  let pasteWarnNewline ← withDefault readBool "paste_warn_newline" defaultPasteWarnNewline entries
  let sessionTrashDays ← withDefault readU32 "session_trash_days" defaultSessionTrashDays entries
  let byteLogRingKb ← withDefault readU32 "byte_log_ring_kb" defaultByteLogRingKb entries
  let byteLogMaxMb ← withDefault readU32 "byte_log_max_mb" defaultByteLogMaxMb entries
  .ok ⟨fontFamily, fontSize, theme, shell, scrollbackLines, cursorStyle, bellMode, notificationMode,
    keybindings, onLaunch, profiles, defaultProfile, pasteWarnSize, pasteWarnNewline,
    sessionTrashDays, byteLogRingKb, byteLogMaxMb⟩

def readRawConfig : Toml → Reads RawConfig := readRecord rawConfigChecks buildRawConfig

/-- The theme under a name or in a table, and its name. -/
def resolveTheme (t : Themes) : Option Toml → Reads (Theme × Option String)
  | some (.string name) =>
    (loadThemeByName t name).map fun found => (found.getD .default, some name)
  | some (.table entries) =>
    (attempt (readTheme (.table entries))).map fun theme => (theme.getD .default, none)
  | _ => .ok (.default, none)

/-- What is not known means to restore. -/
def onLaunchOf : Option String → OnLaunch
  | some "new" => .new
  | _ => .restore

/-- `Config::deserialize`. -/
def deserialize (t : Themes) (entries : Entries) : Reads Config := do
  let raw ← readRawConfig (.table entries)
  let (theme, themeName) ← resolveTheme t raw.theme
  .ok
    { fontFamily := raw.fontFamily
      fontSize := raw.fontSize
      theme := theme
      themeName := themeName
      shell := raw.shell
      scrollbackLines := raw.scrollbackLines
      cursorStyle := raw.cursorStyle
      bellMode := raw.bellMode
      notificationMode := raw.notificationMode
      keybindings := raw.keybindings
      onLaunch := onLaunchOf raw.onLaunch
      profiles := raw.profiles.filter fun p => p.name ≠ "" ∧ p.command ≠ ""
      defaultProfile := raw.defaultProfile
      pasteWarnSize := raw.pasteWarnSize
      pasteWarnNewline := raw.pasteWarnNewline
      sessionTrashDays := raw.sessionTrashDays
      byteLogRingKb := raw.byteLogRingKb
      byteLogMaxMb := raw.byteLogMaxMb }

/-- What an empty file is read as. -/
def unbound : Config where
  fontFamily := defaultFontFamily
  fontSize := defaultFontSize
  theme := .default
  themeName := none
  shell := none
  scrollbackLines := defaultScrollbackLines
  cursorStyle := .block
  bellMode := .visual
  notificationMode := .all
  keybindings := .empty
  onLaunch := .restore
  profiles := []
  defaultProfile := none
  pasteWarnSize := defaultPasteWarnSize
  pasteWarnNewline := defaultPasteWarnNewline
  sessionTrashDays := defaultSessionTrashDays
  byteLogRingKb := defaultByteLogRingKb
  byteLogMaxMb := defaultByteLogMaxMb

example (t : Themes) : deserialize t [] = .ok unbound := rfl

/-- `toml::from_str`. -/
def fromStr (t : Themes) (contents : Text) : Reads Config :=
  match t.parse contents with
  | some entries => deserialize t entries
  | none => .error .invalid

/-! ### Writing -/

def u8Toml (n : UInt8) : Toml := .integer (Int64.ofNat n.toNat)

def u32Toml (n : UInt32) : Toml := .integer (Int64.ofNat n.toNat)

/-- The integers of TOML are signed, and there is none for a larger number. -/
def usizeToml (n : UInt64) : Option Toml :=
  if n.toNat < 2 ^ 63 then some (.integer (Int64.ofNat n.toNat)) else none

def rgbaToml (c : Core.Rgba) : Toml :=
  .table [("r", u8Toml c.r), ("g", u8Toml c.g), ("b", u8Toml c.b), ("a", u8Toml c.a)]

def themeToml (theme : Theme) : Toml :=
  .table [("ansi_colors", .array (theme.ansiColors.1.map rgbaToml)),
    ("foreground", rgbaToml theme.foreground), ("background", rgbaToml theme.background),
    ("cursor", rgbaToml theme.cursor), ("selection", rgbaToml theme.selection),
    ("search_match", rgbaToml theme.searchMatch), ("search_current", rgbaToml theme.searchCurrent)]

/-- An entry for a setting that is there. -/
def optionEntry (name : String) (text : Option String) : Entries :=
  match text with
  | some s => [(name, .string s)]
  | none => []

def profileToml (p : ProfileConfig) : Toml :=
  .table ([("name", .string p.name), ("command", .string p.command)] ++
    optionEntry "directory" p.directory ++ optionEntry "icon" p.icon)

/-- An entry for a setting that is not left out. -/
def entryUnless (omitted : Bool) (name : String) (v : Toml) : Entries :=
  if omitted then [] else [(name, v)]

/-- `Config::serialize`. -/
def serialize (c : Config) : Option Entries := do
  let scrollbackLines ← usizeToml c.scrollbackLines
  let pasteWarnSize ← usizeToml c.pasteWarnSize
  some ([("font_family", .string c.fontFamily), ("font_size", .float c.fontSize.convert),
      ("theme", match c.themeName with
        | some name => .string name
        | none => themeToml c.theme)] ++
    optionEntry "shell" c.shell ++
    [("scrollback_lines", scrollbackLines), ("cursor_style", .string c.cursorStyle.rename),
      ("bell_mode", .string c.bellMode.rename),
      ("notification_mode", .string c.notificationMode.rename),
      ("on_launch", .string c.onLaunch.rename)] ++
    entryUnless c.keybindings.entries.isEmpty "keybindings"
      (.table (c.keybindings.entries.map fun e => (e.1, .string e.2))) ++
    entryUnless c.profiles.isEmpty "profiles" (.array (c.profiles.map profileToml)) ++
    optionEntry "default_profile" c.defaultProfile ++
    [("paste_warn_size", pasteWarnSize), ("paste_warn_newline", .boolean c.pasteWarnNewline)] ++
    entryUnless (c.sessionTrashDays == 7) "session_trash_days" (u32Toml c.sessionTrashDays) ++
    entryUnless (c.byteLogRingKb == 1024) "byte_log_ring_kb" (u32Toml c.byteLogRingKb) ++
    entryUnless (c.byteLogMaxMb == 10) "byte_log_max_mb" (u32Toml c.byteLogMaxMb))

end Forgetty.ConfigFile
