import Forgetty.Core.Case
import Forgetty.Core.Text
import Forgetty.Config.Toml

/-! Colour themes: the records of a theme file, the catalogue of the bundled themes and of the
files in the user's directory, and loading a theme by its name. -/

namespace Forgetty.ConfigFile

open Lib
open Forgetty.Core (Reads)

/-! ### Themes and their records -/

/-- An array with a number of colours. -/
abbrev Palette (n : ℕ) := { colors : List Core.Rgba // colors.length = n }

structure Theme where
  ansiColors : Palette 16
  foreground : Core.Rgba
  background : Core.Rgba
  cursor : Core.Rgba
  selection : Core.Rgba
  searchMatch : Core.Rgba
  searchCurrent : Core.Rgba
  deriving DecidableEq

def defaultForeground : Core.Rgba := .rgb 205 214 244

def defaultBackground : Core.Rgba := .rgb 40 40 40

def defaultCursorColor : Core.Rgba := .rgb 245 224 220

def defaultSelectionColor : Core.Rgba := ⟨88, 91, 112, 128⟩

def defaultSearchMatchColor : Core.Rgba := ⟨249, 226, 175, 80⟩

def defaultSearchCurrentColor : Core.Rgba := ⟨250, 179, 135, 160⟩

def defaultNormal : Palette 8 :=
  ⟨[.rgb 69 71 90, .rgb 243 139 168, .rgb 166 227 161, .rgb 249 226 175, .rgb 137 180 250,
    .rgb 245 194 231, .rgb 148 226 213, .rgb 186 194 222], rfl⟩

def defaultBright : Palette 8 :=
  ⟨[.rgb 88 91 112, .rgb 243 139 168, .rgb 166 227 161, .rgb 249 226 175, .rgb 137 180 250,
    .rgb 245 194 231, .rgb 148 226 213, .rgb 205 214 244], rfl⟩

/-- The normal colours and the bright ones. -/
def joinPalettes (normal bright : Palette 8) : Palette 16 :=
  ⟨normal.1 ++ bright.1, by rw [List.length_append, normal.2, bright.2]⟩

def defaultAnsiColors : Palette 16 := joinPalettes defaultNormal defaultBright

/-- `Theme::default`. -/
def Theme.default : Theme where
  ansiColors := defaultAnsiColors
  foreground := defaultForeground
  background := defaultBackground
  cursor := defaultCursorColor
  selection := defaultSelectionColor
  searchMatch := defaultSearchMatchColor
  searchCurrent := defaultSearchCurrentColor

/-- The fields of `RgbaFields`. -/
def rgbaChecks : Checks := [("r", check readU8), ("g", check readU8), ("b", check readU8),
  ("a", check readU8)]

def buildRgba (entries : Entries) : Reads Core.Rgba := do
  let r ← required readU8 "r" entries
  let g ← required readU8 "g" entries
  let b ← required readU8 "b" entries
  let a ← required readU8 "a" entries
  .ok ⟨r, g, b, a⟩

/-- A colour is a text or a table of its channels. -/
def readRgba : Toml → Reads Core.Rgba
  | .string text => Core.Rgba.fromHex text.toList
  | .table entries => do
    readEntries rgbaChecks entries
    buildRgba entries
  | _ => .error .invalid

/-- The eight colours of `AnsiColors` and of `BrightColors`. -/
structure AnsiColors where
  black : Core.Rgba
  red : Core.Rgba
  green : Core.Rgba
  yellow : Core.Rgba
  blue : Core.Rgba
  magenta : Core.Rgba
  cyan : Core.Rgba
  white : Core.Rgba

def AnsiColors.palette (c : AnsiColors) : Palette 8 :=
  ⟨[c.black, c.red, c.green, c.yellow, c.blue, c.magenta, c.cyan, c.white], rfl⟩

def ansiChecks : Checks := [("black", check readRgba), ("red", check readRgba),
  ("green", check readRgba), ("yellow", check readRgba), ("blue", check readRgba),
  ("magenta", check readRgba), ("cyan", check readRgba), ("white", check readRgba)]

def buildAnsiColors (entries : Entries) : Reads AnsiColors := do
  let black ← required readRgba "black" entries
  let red ← required readRgba "red" entries
  let green ← required readRgba "green" entries
  let yellow ← required readRgba "yellow" entries
  let blue ← required readRgba "blue" entries
  let magenta ← required readRgba "magenta" entries
  let cyan ← required readRgba "cyan" entries
  let white ← required readRgba "white" entries
  .ok ⟨black, red, green, yellow, blue, magenta, cyan, white⟩

def readAnsiColors : Toml → Reads AnsiColors := readRecord ansiChecks buildAnsiColors

/-- The `[colors]` table of a theme file. -/
structure ThemeColors where
  foreground : Core.Rgba
  background : Core.Rgba
  cursor : Option Core.Rgba
  selection : Option Core.Rgba
  ansi : Option AnsiColors
  bright : Option AnsiColors

def themeColorsChecks : Checks := [("foreground", check readRgba), ("background", check readRgba),
  ("cursor", check readRgba), ("selection", check readRgba), ("ansi", check readAnsiColors),
  ("bright", check readAnsiColors)]

def buildThemeColors (entries : Entries) : Reads ThemeColors := do
  let foreground ← required readRgba "foreground" entries
  let background ← required readRgba "background" entries
  let cursor ← field readRgba "cursor" entries
  let selection ← field readRgba "selection" entries
  let ansi ← field readAnsiColors "ansi" entries
  let bright ← field readAnsiColors "bright" entries
  .ok ⟨foreground, background, cursor, selection, ansi, bright⟩

def readThemeColors : Toml → Reads ThemeColors := readRecord themeColorsChecks buildThemeColors

def ThemeColors.intoTheme (c : ThemeColors) : Theme where
  ansiColors := joinPalettes ((c.ansi.map AnsiColors.palette).getD defaultNormal)
    ((c.bright.map AnsiColors.palette).getD defaultBright)
  foreground := c.foreground
  background := c.background
  cursor := c.cursor.getD defaultCursorColor
  selection := c.selection.getD defaultSelectionColor
  searchMatch := defaultSearchMatchColor
  searchCurrent := defaultSearchCurrentColor

/-- A theme file has its colours in one table. -/
def readThemeFile : Toml → Reads Theme :=
  readRecord [("colors", check readThemeColors)] fun entries =>
    (required readThemeColors "colors" entries).map ThemeColors.intoTheme

/-! ### Theme files -/

/-- A file of the user's directory of themes, by its name. One that cannot be read has no
contents. -/
structure DirEntry where
  fileName : Text
  contents : Option Text

/-- Where themes come from, and the parser of TOML files. -/
structure Themes where
  parse : Text → Option Entries
  bundled : List (String × Text)
  themesDir : List DirEntry

/-- `Result::ok`, of what does not panic. -/
def attempt {α : Type} : Reads α → Reads (Option α)
  | .ok a => .ok (some a)
  | .error .invalid => .ok none
  | .error .panicked => .error .panicked

def parseThemeFile (t : Themes) (contents : Text) : Reads Theme :=
  match t.parse contents with
  | some entries => readThemeFile (.table entries)
  | none => .error .invalid

/-- The stem of a file name and its extension, if it has one. -/
def splitExtension (fileName : Text) : Text × Option Text :=
  match fileName.reverse.dropWhile (· ≠ '.') with
  | _ :: c :: stem =>
    ((c :: stem).reverse, some (fileName.reverse.takeWhile (· ≠ '.')).reverse)
  | _ => (fileName, none)

/-- The name in the first line of the form `name = "..."`. -/
def extractNameField (contents : Text) : Option String :=
  (Clipboard.lines [] contents).findSome? fun line =>
    let trimmed := Clipboard.trimEnd (Clipboard.trimStart line)
    if "name".toList.isPrefixOf trimmed ∧ '=' ∈ trimmed then
      let value := Clipboard.trimEnd (Clipboard.trimStart (trimmed.dropWhile (· ≠ '=')).tail)
      if value.head? = some '"' ∧ value.getLast? = some '"' ∧ 2 ≤ value.length then
        some (String.ofList value.tail.dropLast)
      else none
    else none

/-- A readable file with the extension `toml`: the name of its theme, its own name and what is in
it. -/
structure CustomTheme where
  displayName : String
  path : Text
  contents : Text

/-- What is read of an entry of the directory. -/
def customTheme? (e : DirEntry) : Option CustomTheme :=
  let (stem, extension) := splitExtension e.fileName
  if extension = some "toml".toList then
    e.contents.map fun contents =>
      { displayName := (extractNameField contents).getD (String.ofList stem)
        path := e.fileName
        contents := contents }
  else none

def customThemes (t : Themes) : List CustomTheme := t.themesDir.filterMap customTheme?

/-! ### The catalogue -/

/-- Names under which themes are asked for, with their names upstream. -/
def themeAliases : List (String × String) :=
  [("Solarized Dark", "iTerm2 Solarized Dark"), ("Solarized Light", "iTerm2 Solarized Light"),
    ("Tokyo Night", "TokyoNight"), ("One Dark", "One Dark Two"), ("One Light", "Atom One Light"),
    ("Monokai", "Monokai Classic"), ("Ayu Dark", "Ayu"), ("Everforest", "Everforest Dark Hard"),
    ("Kanagawa", "Kanagawa Wave")]

inductive ThemeSource where
  | bundled
  | custom (path : Text)
  deriving DecidableEq

structure PreviewColors where
  background : Core.Rgba
  foreground : Core.Rgba
  ansiSample : List Core.Rgba
  deriving DecidableEq

structure ThemeCatalogEntry where
  name : String
  source : ThemeSource
  previewColors : PreviewColors
  deriving DecidableEq

/-- The colours of a swatch. -/
def Theme.preview (theme : Theme) : PreviewColors where
  background := theme.background
  foreground := theme.foreground
  ansiSample := theme.ansiColors.1.take 6

def previewFromToml (t : Themes) (contents : Text) : Reads (Option PreviewColors) :=
  (attempt (parseThemeFile t contents)).map fun theme => theme.map Theme.preview

/-- What comes of each element, if something does. -/
def collect {α β : Type} (f : α → Reads (Option β)) : List α → Reads (List β)
  | [] => .ok []
  | a :: as => do
    let b ← f a
    let bs ← collect f as
    .ok (b.toList ++ bs)

section Catalogue

variable (u : CaseTables)

def lowerName (name : String) : Text := u.toLowercase name.toList

def eqIgnoreAsciiCase (a b : String) : Bool :=
  a.toList.map Char.toLower == b.toList.map Char.toLower

/-- Sorted by the names in lower case. -/
def sortByName (entries : List ThemeCatalogEntry) : List ThemeCatalogEntry :=
  entries.mergeSort fun e e' => decide (lowerName u e.name ≤ lowerName u e'.name)

def bundledEntry (t : Themes) (theme : String × Text) : Reads (Option ThemeCatalogEntry) :=
  (previewFromToml t theme.2).map fun preview =>
    preview.map fun colors => { name := theme.1, source := .bundled, previewColors := colors }

def customEntry (t : Themes) (file : CustomTheme) : Reads (Option ThemeCatalogEntry) :=
  (previewFromToml t file.contents).map fun preview =>
    preview.map fun colors =>
      { name := file.displayName, source := .custom file.path, previewColors := colors }

/-- An alias becomes an entry if its name is free and there is the theme that it stands for. -/
def pushAlias (customNames : List Text) (entries : List ThemeCatalogEntry)
    (aliased : String × String) : List ThemeCatalogEntry :=
  if lowerName u aliased.1 ∈ customNames then entries
  else if entries.any fun e => eqIgnoreAsciiCase e.name aliased.1 then entries
  else
    match entries.find? (·.name = aliased.2) with
    | some upstream => entries ++ [{ upstream with name := aliased.1 }]
    | none => entries

def loadThemeCatalog (t : Themes) : Reads (List ThemeCatalogEntry) := do
  let default : ThemeCatalogEntry :=
    { name := "Default Dark", source := .bundled, previewColors := Theme.default.preview }
  let bundled := sortByName u (← collect (bundledEntry t) t.bundled)
  let custom := sortByName u (← collect (customEntry t) (customThemes t))
  let customNames := custom.map fun e => lowerName u e.name
  let entries := default :: (bundled.filter fun e => lowerName u e.name ∉ customNames) ++ custom
  .ok (sortByName u (themeAliases.foldl (pushAlias u customNames) entries))

end Catalogue

/-- The upstream name of an alias. -/
def resolveAlias (name : String) : String := (themeAliases.lookup name).getD name

/-- A theme by its display name: a file of the user's comes before a bundled theme. -/
def loadThemeByName (t : Themes) (name : String) : Reads (Option Theme) :=
  if name = "Default Dark" then .ok (some Theme.default)
  else
    let resolved := resolveAlias name
    match (customThemes t).find? fun f => f.displayName = name ∨ f.displayName = resolved with
    | some file => attempt (parseThemeFile t file.contents)
    | none =>
      match t.bundled.find? fun theme => theme.1 = name ∨ theme.1 = resolved with
      | some theme => attempt (parseThemeFile t theme.2)
      | none => .ok none

end Forgetty.ConfigFile
