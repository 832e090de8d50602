import Declang.Command.Arguments
import Declang.Command.Files
import Declang.Format
import Declang.Parse
import Declang.Settings
import Declang.Text.Utf8
namespace Declang

/-- What a run prints and its exit code. -/
structure Outcome where
  code : UInt32
  stdout : String
  stderr : String
  deriving DecidableEq, Repr

/-- Why a request to show a source file fails. -/
inductive CommandError where
  | settings (error : SettingsError)
  | format (error : FormatError)
  | unreadable (path : String) (fault : FileFault)
  /-- The source file is not UTF-8. -/
  | notText (path : String)
  | source (error : SourceError)
  deriving DecidableEq, Repr

def SettingsError.message : SettingsError → String
  | badPath => "an override names no path"
  | unreadableFile => "the configuration file cannot be read"
  | badFile => "the configuration file is no TOML document"
  | badPosition => "a path names a position that its array cannot have"
  | badValue place => "the value of '" ++ placeText place ++ "' has another type"
  | incomplete => "a setting is not given"

/-- A line for each format. -/
def formatChoices : String :=
  String.join (Format.all.map fun format =>
    "  " ++ format.name ++ " - " ++ format.description ++ "\n")

/-- What the command says about an error. A format that is not known brings a list of those that
are. -/
def CommandError.report : CommandError → String
  | settings error => "Error: configuration error: " ++ error.message ++ "\n"
  | format error => "Error: " ++ error.message ++ "\n\nAvailable formats:\n" ++ formatChoices
  | unreadable path fault => "Error: cannot read " ++ path ++ ": " ++ fault.message ++ "\n"
  | notText path => "Error: cannot read " ++ path ++ ": stream did not contain valid UTF-8\n"
  | source error => "Error: " ++ error.message ++ "\n"

namespace Command

def versionText : String := "chav 0.1.0\n"

def usageText : String := "Usage: chav [OPTIONS] [path]\n"

def helpText : String :=
  "Lex and parse chav source files\n\n" ++ usageText ++ "\n" ++
  "Arguments:\n" ++
  "  [path]  Path to the chav source file\n\n" ++
  "Options:\n" ++
  "  -f, --format <format>  Output format (default from configuration: ast-treeviz)\n" ++
  "  -c, --config <config>  TOML file layered over the built-in configuration\n" ++
  "      --list-formats     List available output formats\n" ++
  "  -h, --help             Print help\n" ++
  "  -V, --version          Print version\n"

def formatList : String :=
  "Available output formats:\n\n" ++
    String.join (Format.all.map fun format =>
      "  " ++ format.name ++ "\n    " ++ format.description ++ "\n\n")

/-- The bytes of a regular file. -/
def regularFile? (files : FileView) (path : String) : Option (List UInt8) :=
  match files path with
  | .ok content => if content.isRegular then some content.bytes else none
  | .error _ => none

/-- The text of a configuration file, whose extension may be left out. -/
def configText? (files : FileView) (name : String) : Option String :=
  match regularFile? files name with
  | some bytes => Utf8.text? bytes
  | none => do Utf8.text? (← regularFile? files (← addExtension? "toml" name))

def settings (files : FileView) (format? config? : Option String) :
    Except SettingsError Settings :=
  Settings.load (config?.map fun name => ⟨true, configText? files name⟩).toList
    (format?.map fun name => ("output.format", .text name)).toList

def options (settings : Settings) : FormatOptions :=
  ⟨⟨settings.maxLabelWidth, settings.showIcons⟩, settings.pretty⟩

def sourceText (files : FileView) (path : String) : Except CommandError String :=
  match files path with
  | .error fault => .error (.unreadable path fault)
  | .ok content =>
    match Utf8.text? content.bytes with
    | none => .error (.notText path)
    | some text => .ok text

/-- The tokens or the tree of a source text. -/
def rendering (format : Format) (options : FormatOptions) (source : String) :
    Except CommandError String := do
  let tokens ← (lex source).mapError fun e => .source (.lex e)
  match format.stage with
  | .tokens => (format.renderTokens tokens).mapError .format
  | .tree =>
    let arena ← (parse tokens).mapError fun e => .source (.parse e)
    match arena.tree? Arena.root with
    | none => throw (.source (.parse (.missingNode Arena.root)))
    | some tree => (format.renderTree options tree).mapError .format

/-- What to print for a source file. The settings come first, then the format, then the file. -/
def output (files : FileView) (path : String) (format? config? : Option String) :
    Except CommandError String := do
  let settings ← (settings files format? config?).mapError .settings
  let format ← (Format.ofName settings.format).mapError .format
  rendering format (options settings) (← sourceText files path)

/-- Ends a text with a newline. -/
def endLine (text : String) : String :=
  if text.toList.getLast? = some '\n' then text else text ++ "\n"

/-- Does what a request asks for. -/
def serve (files : FileView) : Request → Outcome
  | .help => ⟨0, helpText, ""⟩
  | .version => ⟨0, versionText, ""⟩
  | .listFormats => ⟨0, formatList, ""⟩
  | .render path format? config? =>
    match output files path format? config? with
    | .ok text => ⟨0, endLine text, ""⟩
    | .error e => ⟨1, "", e.report⟩

/-- Runs the command with these arguments. Arguments that cannot be read end it with code 2. -/
def run (files : FileView) (arguments : List String) : Outcome :=
  match Request.ofArguments arguments with
  | .ok request => serve files request
  | .error e => ⟨2, "", "error: " ++ e.message ++ "\n\n" ++ usageText⟩

/-- The files that a request may look at. -/
def paths : Request → List String
  | .render path _ config? =>
    path :: (config?.map fun name => name :: (addExtension? "toml" name).toList).getD []
  | _ => []

end Command

end Declang
