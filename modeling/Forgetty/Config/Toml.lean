import Forgetty.Core.Rgba
import Forgetty.Lib.BinaryFloat

/-! The values of a TOML file and how the program's records are read from them. The entries of a
table are read in the order in which they stand, and the first that cannot be read ends the
reading. -/

namespace Forgetty.ConfigFile

open Lib
open Forgetty.Core (Reads)

/-- The format of `f32`. -/
def binary32 : FloatFormat := { precision := 24, minExp := -149, maxExp := 104 }

/-- The format of `f64`. -/
def binary64 : FloatFormat := { precision := 53, minExp := -1074, maxExp := 971 }

inductive Toml where
  | string (text : String)
  | integer (n : Int64)
  | float (x : BinaryFloat binary64)
  | boolean (b : Bool)
  | datetime (text : String)
  | array (elems : List Toml)
  | table (entries : List (String × Toml))

abbrev Entries := List (String × Toml)

/-! ### Single values -/

def readString : Toml → Reads String
  | .string text => .ok text
  | _ => .error .invalid

def readBool : Toml → Reads Bool
  | .boolean b => .ok b
  | _ => .error .invalid

/-- An integer that is not negative and below a bound. -/
def readBelow (bound : ℕ) : Toml → Reads ℕ
  | .integer n => if 0 ≤ n.toInt ∧ n.toInt < bound then .ok n.toInt.toNat else .error .invalid
  | _ => .error .invalid

def readU8 (v : Toml) : Reads UInt8 := (readBelow (2 ^ 8) v).map UInt8.ofNat

def readU32 (v : Toml) : Reads UInt32 := (readBelow (2 ^ 32) v).map UInt32.ofNat

def readUsize (v : Toml) : Reads UInt64 := (readBelow (2 ^ 64) v).map UInt64.ofNat

/-- Integers are taken for an `f32`, too. -/
def readF32 : Toml → Reads (BinaryFloat binary32)
  | .float x => .ok x.convert
  | .integer n => .ok (BinaryFloat.ofInt binary32 n.toInt)
  | _ => .error .invalid

/-- The variant of an enumeration, by its name or as the only entry of a table. -/
def readVariant : Toml → Reads String
  | .string name => .ok name
  | .table [(name, .table [])] => .ok name
  | _ => .error .invalid

/-! ### Records -/

/-- The fields of a record, each with what reading its value may end in. -/
abbrev Checks := List (String × (Toml → Reads Unit))

/-- Reading a value, whatever it gives. -/
def check {α : Type} (read : Toml → Reads α) (v : Toml) : Reads Unit := (read v).map fun _ => ()

/-- The entries are read in their order. Those that are no fields are skipped. -/
def readEntries (checks : Checks) : Entries → Reads Unit
  | [] => .ok ()
  | (name, v) :: entries => do
    match checks.lookup name with
    | some c => c v
    | none => .ok ()
    readEntries checks entries

def field {α : Type} (read : Toml → Reads α) (name : String) (entries : Entries) : Reads (Option α) :=
  match entries.lookup name with
  | some v => (read v).map some
  | none => .ok none

def required {α : Type} (read : Toml → Reads α) (name : String) (entries : Entries) : Reads α := do
  match ← field read name entries with
  | some a => .ok a
  | none => .error .invalid

def withDefault {α : Type} (read : Toml → Reads α) (name : String) (default : α) (entries : Entries) :
    Reads α := (field read name entries).map fun found => found.getD default

/-- A record is a table, or an array with the values of its fields one after the other. -/
def readRecord {α : Type} (checks : Checks) (build : Entries → Reads α) : Toml → Reads α
  | .table entries => do
    readEntries checks entries
    build entries
  | .array elems => do
    let entries := (checks.map (·.1)).zip elems
    readEntries checks entries
    if elems.length < checks.length then .error .invalid else build entries
  | _ => .error .invalid

end Forgetty.ConfigFile
