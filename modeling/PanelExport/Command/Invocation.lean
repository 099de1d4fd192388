import PanelExport.Command.Arguments
import PanelExport.Text.CharClass

/-!
# Invocations

What a command line asks for: one of four commands with its options, or none. The words in front of
the command belong to the program, those behind it to the command.

* `readPortNumber?_standard`: the standard endpoint can also be asked for.
-/

namespace PanelExport.Command

/-- The words of an export command. -/
structure ExportWords where
  dashboard? : Option String
  panel? : Option String
  timeRange? : Option String
  directory? : Option String
  datasource? : Option String
  deriving DecidableEq

/-- Where the resources are served. -/
structure Endpoint where
  host : String
  portNumber : Int
  deriving DecidableEq

/-- What is to be done. -/
inductive Invocation where
  /-- The results of a panel's queries are saved. -/
  | export (words : ExportWords)
  /-- The queries of a panel are shown. -/
  | queries (dashboard? panel? : Option String)
  /-- The metrics of some expressions are listed. -/
  | metrics (exprs : List String)
  /-- The resources are served. -/
  | serve (endpoint : Endpoint)
  deriving DecidableEq

/-- What a command line asks for. -/
structure CommandLine where
  logLevel? : Option String
  invocation? : Option Invocation
  deriving DecidableEq

/-! ## Grammars -/

/-- Every value will do. -/
def anyText (_ : String) : Bool := true

/-- The number that a word gives for an endpoint. -/
def readPortNumber? (word : String) : Option Int := readInt? (trim word).toList

/-- The words that give a number for an endpoint. -/
def isPortNumber (word : String) : Bool := (readPortNumber? word).isSome

/-- Where the resources are served when nothing else is asked for. -/
def Endpoint.standard : Endpoint := ⟨"127.0.0.1", 8000⟩

theorem readPortNumber?_standard : readPortNumber? "8000" = some Endpoint.standard.portNumber := by
  decide +kernel

/-- Options of which each takes any value, behind the one that asks for help. -/
def optionsOf (names : List String) : List OptionSpec :=
  [⟨"-h", .help⟩, ⟨"--help", .help⟩] ++ names.map (⟨·, .value anyText⟩)

/-- The words in front of a command. -/
def programGrammar : Grammar :=
  ⟨optionsOf ["--log-level"] ++ [⟨"--version", .version⟩], .command⟩

/-- The words of an export command. -/
def exportGrammar : Grammar :=
  ⟨optionsOf ["--dashboard", "--panel", "--timerange", "--output-dir", "--datasource"], .none⟩

/-- The words of a command that shows queries. -/
def queriesGrammar : Grammar := ⟨optionsOf ["--dashboard", "--panel"], .none⟩

/-- The words of a command that lists metrics. -/
def metricsGrammar : Grammar := ⟨optionsOf [], .many⟩

/-- The words of a command that serves. -/
def serveGrammar : Grammar :=
  ⟨optionsOf ["--host"] ++ [⟨"--port", .value isPortNumber⟩], .none⟩

/-! ## Readers -/

/-- What was found, if there is a place for all of it. -/
def Scanned.complete (s : Scanned) : Except Stop Scanned :=
  if s.surplus then .error .wrong else .ok s

/-- The invocation of a command that finds these words behind it. -/
def Invocation.ofWords (command : String) (words : List String) : Except Stop Invocation := do
  match command with
  | "export" =>
    let found ← (← exportGrammar.read words).complete
    return .export
      { dashboard? := found.value? "--dashboard"
        panel? := found.value? "--panel"
        timeRange? := found.value? "--timerange"
        directory? := found.value? "--output-dir"
        datasource? := found.value? "--datasource" }
  | "queries" =>
    let found ← (← queriesGrammar.read words).complete
    return .queries (found.value? "--dashboard") (found.value? "--panel")
  | "parse" =>
    let found ← (← metricsGrammar.read words).complete
    return .metrics found.operands
  | "serve" =>
    let found ← (← serveGrammar.read words).complete
    return .serve
      { host := (found.value? "--host").getD Endpoint.standard.host
        portNumber :=
          ((found.value? "--port").bind readPortNumber?).getD Endpoint.standard.portNumber }
  | _ => throw .wrong

namespace CommandLine

/-- What some words ask for. What ends the reading of a command's words comes before what is wrong
with the words in front of it. -/
def ofWords (words : List String) : Except Stop CommandLine := do
  let found ← programGrammar.read words
  match found.operands with
  | [] =>
    let found ← found.complete
    return ⟨found.value? "--log-level", none⟩
  | command :: words =>
    let invocation ← Invocation.ofWords command words
    let found ← found.complete
    return ⟨found.value? "--log-level", some invocation⟩

end CommandLine

end PanelExport.Command
