import LatentFactors.Algorithm
import LatentFactors.Text.Json

/-!
# Parameters as JSON

The named parameters of an algorithm are written as a JSON object.  Every
value is a setting, whatever its type is.
-/

namespace LatentFactors.Command

mutual

/-- A JSON value as a setting. -/
def settingOf : Text.Json → Setting Float
  | .null => .absent
  | .bool b => .flag b
  | .number n => .number n
  | .string s => .text s
  | .array elements => .list (settingsOf elements)
  | .object members => .table (namedSettingsOf members)

/-- The elements of a JSON array as settings. -/
def settingsOf : List Text.Json → List (Setting Float)
  | [] => []
  | v :: rest => settingOf v :: settingsOf rest

/-- The members of a JSON object as settings. -/
def namedSettingsOf : List (String × Text.Json) → List (String × Setting Float)
  | [] => []
  | (name, v) :: rest => (name, settingOf v) :: namedSettingsOf rest

end

mutual

/-- A setting as a JSON value. -/
def jsonOf : Setting Float → Text.Json
  | .absent => .null
  | .flag b => .bool b
  | .number n => .number n
  | .text s => .string s
  | .list elements => .array (jsonsOf elements)
  | .table entries => .object (namedJsonsOf entries)

/-- The elements of a list as JSON values. -/
def jsonsOf : List (Setting Float) → List Text.Json
  | [] => []
  | s :: rest => jsonOf s :: jsonsOf rest

/-- The entries of a table as JSON members. -/
def namedJsonsOf : List (String × Setting Float) → List (String × Text.Json)
  | [] => []
  | (name, s) :: rest => (name, jsonOf s) :: namedJsonsOf rest

end

/-- The parameters in a setting, which has to be a table. -/
def paramsOf : Setting Float → Outcome Float (Params Float)
  | .table entries => .ok (.ofList entries)
  | _ => .error .wrongType

/-- Reads a JSON text as a setting. -/
def readSetting (text : String) : Outcome Float (Setting Float) :=
  match Text.Json.read text with
  | .ok v => .ok (settingOf v)
  | .error .malformed => .error .malformedJson
  | .error .longInteger => .error .longInteger

end LatentFactors.Command
