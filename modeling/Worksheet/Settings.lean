-- SUMMARY: Settings, from fields, from the environment and with overrides.
import Worksheet.Fault
import Worksheet.Text.Case
import Worksheet.Text.Pieces

/-!
# Settings

Settings have defaults, so every field and every variable may be missing. The
level of the log is kept in upper case, and the path of the log file without
steps that lead nowhere.
-/

namespace Worksheet

structure Settings where
  /-- A number format without a section for a number's sign is an error. -/
  strictSections : Bool
  /-- The value of table cells that the sheet does not have. -/
  emptyValue : String
  logLevel : String
  logFile : Option String
  contextualLogging : Bool
deriving DecidableEq, Repr

namespace Settings

def default : Settings := ⟨true, "", "INFO", none, true⟩

/-! ## Values of settings -/

/-- The levels that a log may have. -/
def levels : List String :=
  ["CRITICAL", "FATAL", "ERROR", "WARN", "WARNING", "INFO", "DEBUG", "NOTSET"]

/-- The level that a text names, in any case. -/
def level? (s : String) : Option String :=
  let name := String.ofList (Text.upperAll s.toList)
  if levels.contains name then some name else none

/-- A path without empty steps and steps that stay where they are. Exactly two
    slashes in front are kept, more are as good as one. -/
def normalPath (s : String) : String :=
  let chars := s.toList
  let slashes := (chars.takeWhile (· = '/')).length
  let root := if slashes = 0 then "" else if slashes = 2 then "//" else "/"
  let steps := (Text.pieces '/' chars).filter (fun step => step ≠ [] && step ≠ ['.'])
  let path := root ++ "/".intercalate (steps.map String.ofList)
  if path.isEmpty then "." else path

/-- The truth value of a word. -/
def word? (yes no : List String) (s : List Char) : Option Bool :=
  let name := String.ofList (Text.lowerAll s)
  if yes.contains name then some true else if no.contains name then some false else none

/-! ## Settings from untyped fields -/

/-- The truth value that an integer denotes. -/
def flagOf (n : Int) : Checked Bool :=
  if n = 0 then .ok false else if n = 1 then .ok true else Checked.fail .unreadableBoolean

/-- A truth value, or a value that denotes one. -/
def checkFlag : Value → Checked Bool
  | .bool b => .ok b
  | .negativeZero => .ok false
  | .integer n =>
    if -Schema.wordLimit ≤ n ∧ n < Schema.wordLimit then flagOf n else Checked.fail .notBoolean
  | .real x =>
    match Schema.integralReal x with
    | .ok n => flagOf n
    | .error _ => Checked.fail .notBoolean
  | .text s =>
    match word? ["1", "on", "t", "true", "y", "yes"] ["0", "off", "f", "false", "n", "no"]
        s.toList with
    | some b => .ok b
    | none => Checked.fail .unreadableBoolean
  | _ => Checked.fail .notBoolean

def checkLevel : Value → Checked String
  | .text s =>
    match level? s with
    | some l => .ok l
    | none => Checked.fail (.rule ("Unknown log level: " ++ s))
  | _ => Checked.fail .notText

def checkPath : Value → Checked (Option String)
  | .null => .ok none
  | .text s => .ok (some (normalPath s))
  | _ => Checked.fail .notPath

/-- The settings that untyped fields describe; fields with other names are ignored. -/
def ofFields (fields : Fields) : Checked Settings := do
  let (((strictSections, emptyValue), (logLevel, logFile)), contextualLogging) ← Checked.both
    (Checked.both
      (Checked.both (Schema.optional fields "strict_format_sections" true checkFlag)
        (Schema.optional fields "empty_cell_value" "" Schema.text))
      (Checked.both (Schema.optional fields "log_level" "INFO" checkLevel)
        (Schema.optional fields "log_file" none checkPath)))
    (Schema.optional fields "enable_contextual_logging" true checkFlag)
  pure { strictSections, emptyValue, logLevel, logFile, contextualLogging }

/-! ## Settings from the environment -/

/-- The values of environment variables. -/
abbrev Environment := List (String × String)

/-- The truth value of a variable; one that is missing or blank has the default. -/
def flagVariable (env : Environment) (name : String) (default : Bool) : Except Fault Bool :=
  match env.lookup name with
  | none => .ok default
  | some s =>
    let t := Text.trim s.toList
    if t.isEmpty then .ok default
    else match word? ["true", "1", "yes", "on"] ["false", "0", "no", "off"] t with
      | some b => .ok b
      | none => .error (.unreadableFlag name s)

/-- The settings of an environment. The flags are read first. -/
def ofEnvironment (env : Environment) : Except Fault Settings := do
  let strictSections ← flagVariable env "GRIDFRAME_STRICT_FORMAT_SECTIONS" true
  let contextualLogging ← flagVariable env "GRIDFRAME_CONTEXTUAL_LOGGING" true
  let emptyValue := (env.lookup "GRIDFRAME_EMPTY_CELL_VALUE").getD ""
  let logFile := ((env.lookup "GRIDFRAME_LOG_FILE").filter (!·.isEmpty)).map normalPath
  let logLevel ← (Checked.within "log_level"
    (checkLevel (.text ((env.lookup "GRIDFRAME_LOG_LEVEL").getD "INFO")))).mapError Fault.invalid
  pure { strictSections, emptyValue, logLevel, logFile, contextualLogging }

end Settings

/-- Settings as a session uses them: each has the checked value or one that was put
    in its place without a check. -/
structure Preferences where
  strictSections : Value
  emptyValue : Value
  logLevel : Value
  logFile : Value
  contextualLogging : Value

namespace Preferences

/-- Settings with overrides. Fields that name no setting are ignored. -/
def ofSettings (s : Settings) (overrides : Fields) : Preferences :=
  let value (name : String) (v : Value) : Value := (overrides.lookup name).getD v
  { strictSections := value "strict_format_sections" (.bool s.strictSections)
    emptyValue := value "empty_cell_value" (.text s.emptyValue)
    logLevel := value "log_level" (.text s.logLevel)
    logFile := value "log_file" ((s.logFile.map Value.text).getD .null)
    contextualLogging := value "enable_contextual_logging" (.bool s.contextualLogging) }

/-- The text of a value that may be missing. -/
def optionalText : Value → Value
  | .null => .null
  | v => .text v.plain

/-- The preferences as untyped fields. The log file is shown as a text. -/
def fields (p : Preferences) : Fields :=
  [("strict_format_sections", p.strictSections), ("empty_cell_value", p.emptyValue),
    ("log_level", p.logLevel), ("log_file", optionalText p.logFile),
    ("enable_contextual_logging", p.contextualLogging)]

/-- Whether all values can be written out. -/
def isWritable (p : Preferences) : Bool :=
  [p.strictSections, p.emptyValue, p.logLevel, p.logFile, p.contextualLogging].all
    Value.isWritable

/-- What a log takes for a level when it is started, besides the levels. -/
def startWords : List String := ["BASIC_FORMAT", "_STYLES"]

/-- Whether a log can be started with a level. -/
def canStart : Value → Bool
  | .text s => (Settings.levels ++ startWords).contains (String.ofList (Text.upperAll s.toList))
  | _ => false

end Preferences

end Worksheet
