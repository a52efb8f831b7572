import Mathlib.Data.List.Lex
import Mathlib.Logic.Function.Basic
import Wnet.Foundation.SortedMap
import Wnet.Config.Text

/-!
# Reading a configuration

`CConfig` keeps the sections of one file in a map of maps. A failed assertion and
a buffer that overflows end the program, which is `none` here.
-/

namespace Wnet.Config

open Foundation

/-- The order in which `std::string` compares characters. -/
instance byteOrder : LinearOrder UInt8 where
  le_refl := UInt8.le_refl
  le_trans _ _ _ := UInt8.le_trans
  lt_iff_le_not_ge first second := by
    simp only [UInt8.lt_iff_toNat_lt, UInt8.le_iff_toNat_le]
    omega
  le_antisymm _ _ := UInt8.le_antisymm
  le_total := UInt8.le_total
  toDecidableLE := inferInstance
  toDecidableEq := inferInstance
  toDecidableLT := inferInstance

abbrev SectionMap := SortedMap Bytes Bytes

abbrev ConfigMap := SortedMap Bytes SectionMap

/-- `QY_LIGHT_CONTROL_SUCCESS`, `QY_LIGHT_CONTROL_FAIL` and `QY_LIGHT_CONTROL_ERROR`. -/
inductive ReturnCode
  | success
  | fail
  | error
  deriving DecidableEq

/-! ## One row -/

/-- The position of the first occurrence of a character. -/
def find (str : Bytes) (char : UInt8) : Option Nat := str.findIdx? (· == char)

def substr (str : Bytes) (pos count : Nat) : Bytes := (str.drop pos).take count

/-- The difference of two values of `size_t`. -/
def sizeSub (first second : Nat) : Nat := (first + 2 ^ 64 - second) % 2 ^ 64

/-- The return code of `_ParseValue` and what it leaves in `rKey` and `rValue`, which
are empty at the call. -/
def parseValue (str : Bytes) : Option (ReturnCode × Bytes × Bytes) :=
  if str = [] then some (.fail, [], [])
  else
    let str := trim isBlank str
    if str = [] ∨ str.head? = some hash ∨ str.head? = some semicolon then some (.fail, [], [])
    else
      match find str equals with
      | none => some (.error, [], [])
      | some pos =>
          let key := trim isBlank (substr str 0 pos)
          match find str hash with
          | some pos1 =>
              -- `assert(pos1-pos > 1)`, which an unsigned difference also meets if `#` comes first
              if 1 < sizeSub pos1 pos then
                some (.success, key,
                  trim isBlank (substr str (pos + 1) (sizeSub (sizeSub pos1 pos) 1)))
              else none
          | none =>
              some (.success, key, trim isBlank (substr str (pos + 1) (str.length - pos - 1)))

/-- The return code of `_GetSectionName`, what it makes of `rStr`, and `rSectionName`. -/
def getSectionName (str : Bytes) : ReturnCode × Bytes × Bytes :=
  let str := trimLeft isBlank str
  -- A bracket with less than two characters after it is no header, and no error either.
  if str = [] ∨ str.length ≤ 2 ∨ str.head? ≠ some openBracket then (.fail, str, [])
  else
    let str := trimRight isBlank str
    if str.getLast? ≠ some closeBracket then (.error, str, [])
    else (.success, str, trim isBlank (substr str 1 (str.length - 2)))

/-! ## One file -/

/-- The map and the section that `pMap` points to. -/
structure LoadState where
  configMap : ConfigMap
  pMap : Option Bytes

namespace LoadState

def enterSection (state : LoadState) (name : Bytes) : LoadState :=
  match state.configMap.find? name with
  | none => ⟨state.configMap.insert name .empty, some name⟩
  -- A section that is opened again is continued.
  | some _ => ⟨state.configMap, some name⟩

def insertSetting (state : LoadState) (name key value : Bytes) : LoadState :=
  { state with
    configMap := state.configMap.alter name fun map => (map.getD .empty).insert key value }

end LoadState

/-- The loop of `Load` over the rows that are read. -/
def loadRows (state : LoadState) : List Bytes → Option (ReturnCode × ConfigMap)
  | [] => some (.success, state.configMap)
  | data :: rest =>
      match getSectionName (cString data) with
      | (.success, _, name) => loadRows (state.enterSection name) rest
      | (.error, _, _) => some (.fail, state.configMap)
      | (.fail, str, _) =>
          match parseValue str with
          | none => none
          | some (.success, key, value) =>
              match state.pMap with
              | none => none
              | some name => loadRows (state.insertSetting name key value) rest
          -- What was inserted so far stays in the map.
          | some (.error, _, _) => some (.fail, state.configMap)
          | some (.fail, _, _) => loadRows state rest

/-- The files by their paths. -/
abbrev Files := Bytes → Option Bytes

structure CConfig where
  filePath : Bytes
  configMap : ConfigMap

namespace CConfig

def new : CConfig := ⟨[], .empty⟩

def load (files : Files) (config : CConfig) (filename : Bytes) : Option (ReturnCode × CConfig) :=
  match files filename with
  | none => none
  | some file =>
      (loadRows ⟨config.configMap, none⟩ (readRows file)).map fun (code, map) =>
        (code, ⟨filename, map⟩)

def getString (config : CConfig) (name key default : Bytes) : ReturnCode × Bytes :=
  match config.configMap.find? name with
  | none => (.fail, default)
  | some map =>
      match map.find? key with
      | none => (.fail, default)
      | some value => (.success, value)

/-- The line that `ToString` prints for a setting. -/
def settingLine (key value : Bytes) : Bytes := ascii "    " ++ key ++ ascii " = " ++ value

def headerLine (name : Bytes) : Bytes := ascii "[" ++ name ++ ascii "]"

def toString (config : CConfig) : Bytes :=
  config.configMap.entries.flatMap (fun (name, map) =>
    headerLine name ++ ascii "\n" ++
      map.entries.flatMap fun (key, value) => settingLine key value ++ ascii "\n") ++ ascii "\n"

def setCfgToMap (config : CConfig) (name key value : Bytes) : CConfig :=
  match config.configMap.find? name with
  | none => { config with
      configMap := config.configMap.insert name (SortedMap.empty.insert key value) }
  -- `it2->second = rValue` overwrites, unlike the `insert` of `Load`.
  | some map => { config with
      configMap := config.configMap.alter name fun _ => map.alter key fun _ => value }

end CConfig

end Wnet.Config
