import PanelExport.Document.Reader
import PanelExport.Settings.Value
import PanelExport.Text.SmallLetter

/-!
# Settings

What a run takes from its surroundings: the server, the batch, the files, the service and the log.
Settings come from named values, and those from the environment, whose variables carry a common
start and may be written in any case. What the program calls itself stands here as well.

* `Settings.ofFields_nil`: without values every setting has its standard.
* `Settings.environmentFields_nil`: an empty environment gives no values.
-/

namespace PanelExport

namespace Release

/-- The name of the program. -/
def program : String := "paneldump"

/-- The version of the program. -/
def version : String := "0.1.0"

/-- How the program names itself to servers. -/
def agent : String := program ++ "/" ++ version

end Release

/-- What can be set. -/
structure Settings where
  serverUrl : String
  token? : Option String
  orgId? : Option Int
  /-- The datasource for panels that refer to none. -/
  datasourceUid? : Option String
  intervalMs : Int
  maxDataPoints : Int
  outputDirectory : String
  pluginId : String
  apiPrefix : String
  origins : List String
  httpTimeout : Double
  logLevel : String

/-- Why there are no settings. -/
inductive SettingsFault where
  /-- A list in the environment is no document. -/
  | unreadable (name : String)
  /-- A value stands for nothing of the kind of its setting, or has no setting. -/
  | invalid
  deriving DecidableEq

namespace SettingsFault

/-- The kind of a fault, as events name it. -/
def kind : SettingsFault → String
  | .unreadable _ => "SettingsError"
  | .invalid => "ValidationError"

/-- The wording of a fault. -/
def message : SettingsFault → String
  | .unreadable name =>
    "error parsing value for field \"" ++ name ++ "\" from source \"EnvSettingsSource\""
  | .invalid => "a setting has a value of the wrong kind"

end SettingsFault

namespace Settings

/-- The settings when nothing is set. -/
def standard : Settings where
  serverUrl := "http://localhost:3000"
  token? := none
  orgId? := none
  datasourceUid? := none
  intervalMs := 15000
  maxDataPoints := 1
  outputDirectory := "."
  pluginId := "jcosta-paneldump-app"
  apiPrefix := ""
  origins := []
  httpTimeout := Double.ofInt 30
  logLevel := "INFO"

/-- The settings by name. -/
def toFields (s : Settings) : Fields :=
  [("grafana_url", .text s.serverUrl),
    ("grafana_token", Document.ofText? s.token?),
    ("grafana_org_id", s.orgId?.elim .null .int),
    ("default_datasource_uid", Document.ofText? s.datasourceUid?),
    ("query_interval_ms", .int s.intervalMs),
    ("query_max_data_points", .int s.maxDataPoints),
    ("output_dir", .text s.outputDirectory),
    ("plugin_id", .text s.pluginId),
    ("api_prefix", .text s.apiPrefix),
    ("cors_origins", Document.ofTexts s.origins),
    ("http_timeout", .float s.httpTimeout),
    ("log_level", .text s.logLevel)]

/-- The names of the settings. -/
def names : List String := standard.toFields.map (·.1)

/-- What the value under a name stands for, or the standard if there is none. -/
def entry {α : Type} (fields : Fields) (name : String) (read : Document → Option α)
    (standard : α) : Option α :=
  match fields.lookup name with
  | some d => read d
  | none => some standard

/-- The settings that named values give. -/
def read? (fields : Fields) : Option Settings := do
  return {
    serverUrl := ← entry fields "grafana_url" Setting.text? standard.serverUrl
    token? := ← entry fields "grafana_token" (Setting.optional Setting.text?) standard.token?
    orgId? := ← entry fields "grafana_org_id" (Setting.optional Setting.int?) standard.orgId?
    datasourceUid? :=
      ← entry fields "default_datasource_uid" (Setting.optional Setting.text?)
        standard.datasourceUid?
    intervalMs := ← entry fields "query_interval_ms" Setting.int? standard.intervalMs
    maxDataPoints := ← entry fields "query_max_data_points" Setting.int? standard.maxDataPoints
    outputDirectory := ← entry fields "output_dir" Setting.text? standard.outputDirectory
    pluginId := ← entry fields "plugin_id" Setting.text? standard.pluginId
    apiPrefix := ← entry fields "api_prefix" Setting.text? standard.apiPrefix
    origins := ← entry fields "cors_origins" Setting.texts? standard.origins
    httpTimeout := ← entry fields "http_timeout" Setting.double? standard.httpTimeout
    logLevel := ← entry fields "log_level" Setting.text? standard.logLevel }

/-- The settings that named values give, if each of them has a setting. -/
def ofFields (fields : Fields) : Except SettingsFault Settings :=
  match read? fields with
  | some s => if fields.all fun f => names.contains f.1 then .ok s else .error .invalid
  | none => .error .invalid

theorem ofFields_nil : ofFields [] = .ok standard := rfl

/-! ## The environment -/

/-- The start of every variable's name. -/
def variableStart : String := "paneldump_"

/-- A name in small letters. -/
def lowerName (name : String) : String :=
  name.map smallLetter

/-- The value that a variable gives. A list is written as a document; one that is nothing gives no
value. -/
def variableValue? (name value : String) : Except SettingsFault (Option Document) :=
  if name = "cors_origins" then
    match Document.read value.toList with
    | .ok .null => .ok none
    | .ok d => .ok (some d)
    | .error _ => .error (.unreadable name)
  else .ok (some (.text value))

/-- The value of a setting in an environment: the last variable of its name gives it. -/
def lookup? (environment : List (String × String)) (name : String) : Option String :=
  (environment.reverse.find? fun v => lowerName v.1 == variableStart ++ name).map (·.2)

/-- The values that an environment gives to settings. -/
def environmentFields (environment : List (String × String)) :
    List String → Except SettingsFault Fields
  | [] => .ok []
  | name :: names => do
    let d? ← match lookup? environment name with
      | some value => variableValue? name value
      | none => .ok none
    let fields ← environmentFields environment names
    return d?.toList.map (name, ·) ++ fields

theorem environmentFields_nil (names : List String) : environmentFields [] names = .ok [] := by
  induction names with
  | nil => rfl
  | cons name names ih => simp [environmentFields, lookup?, ih]; rfl

/-- The settings that an environment gives. -/
def ofEnvironment (environment : List (String × String)) : Except SettingsFault Settings := do
  ofFields (← environmentFields environment names)

end Settings

end PanelExport
