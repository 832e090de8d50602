namespace Declang

/-- An option that takes a value. -/
inductive OptionKey where
  | format
  | config
  deriving DecidableEq, Repr

/-- An option without a value. -/
inductive Switch where
  | listFormats
  | help
  | version
  deriving DecidableEq, Repr

/-- How an argument reads on its own. -/
inductive Argument where
  | plain (text : String)
  /-- Only plain arguments follow. -/
  | separator
  /-- A missing value is the next argument. -/
  | option (key : OptionKey) (value? : Option String)
  | switch (switch : Switch)
  | unknown (text : String)
  | needlessValue (text : String)
  deriving DecidableEq, Repr

inductive UsageError where
  | missingValue (key : OptionKey)
  | repeated (text : String)
  | unknownOption (text : String)
  | needlessValue (text : String)
  | secondPath (text : String)
  | noPath
  deriving DecidableEq, Repr

/-- What the arguments ask for. -/
inductive Request where
  | help
  | version
  | listFormats
  | render (path : String) (format? config? : Option String)
  deriving DecidableEq, Repr

def OptionKey.name : OptionKey → String
  | format => "--format"
  | config => "--config"

def Switch.name : Switch → String
  | listFormats => "--list-formats"
  | help => "--help"
  | version => "--version"

def UsageError.message : UsageError → String
  | missingValue key => "a value is required for '" ++ key.name ++ "'"
  | repeated text => "the argument '" ++ text ++ "' cannot be used multiple times"
  | unknownOption text | secondPath text => "unexpected argument '" ++ text ++ "' found"
  | needlessValue text => "unexpected value in '" ++ text ++ "'"
  | noPath => "the path of a source file was not provided"

namespace Argument

/-- An argument after two dashes: a name, with a value if there is an equals sign. -/
def ofLong (text : String) (cs : List Char) : Argument :=
  let name := String.ofList ('-' :: '-' :: cs.takeWhile (· ≠ '='))
  let value? := match cs.dropWhile (· ≠ '=') with
    | [] => none
    | _ :: value => some (String.ofList value)
  match [OptionKey.format, .config].find? (·.name == name) with
  | some key => option key value?
  | none =>
    match [Switch.listFormats, .help, .version].find? (·.name == name), value? with
    | none, _ => unknown text
    | some s, none => switch s
    | some _, some _ => needlessValue text

/-- A value that is joined to its option, with or without an equals sign. -/
def joinedValue? : List Char → Option String
  | [] => none
  | '=' :: value => some (String.ofList value)
  | value => some (String.ofList value)

/-- A letter after one dash. A switch ends the reading, so what is joined to it is not looked at. -/
def ofShort (text : String) : Char → List Char → Argument
  | 'f', cs => option .format (joinedValue? cs)
  | 'c', cs => option .config (joinedValue? cs)
  | 'h', _ => switch .help
  | 'V', _ => switch .version
  | _, _ => unknown text

/-- A lone dash is plain. -/
def ofText (text : String) : Argument :=
  match text.toList with
  | ['-', '-'] => separator
  | '-' :: '-' :: cs => ofLong text cs
  | '-' :: c :: cs => ofShort text c cs
  | _ => plain text

end Argument

/-- What has been read so far. -/
structure Draft where
  path? : Option String := none
  format? : Option String := none
  config? : Option String := none
  listFormats : Bool := false
  deriving DecidableEq, Repr

namespace Draft

def setPath (draft : Draft) (path : String) : Except UsageError Draft :=
  match draft.path? with
  | some _ => .error (.secondPath path)
  | none => .ok { draft with path? := some path }

def setOption (draft : Draft) (value : String) : OptionKey → Except UsageError Draft
  | .format =>
    match draft.format? with
    | some _ => .error (.repeated OptionKey.format.name)
    | none => .ok { draft with format? := some value }
  | .config =>
    match draft.config? with
    | some _ => .error (.repeated OptionKey.config.name)
    | none => .ok { draft with config? := some value }

def setListFormats (draft : Draft) : Except UsageError Draft :=
  if draft.listFormats then .error (.repeated Switch.listFormats.name)
  else .ok { draft with listFormats := true }

/-- A path is needed unless the formats are asked for. -/
def finish (draft : Draft) : Except UsageError Request :=
  if draft.listFormats then .ok .listFormats
  else
    match draft.path? with
    | none => .error .noPath
    | some path => .ok (.render path draft.format? draft.config?)

end Draft

/-- Reads the arguments in order. The first one that is wrong, or that asks for help or the version,
decides. -/
def Request.read (draft : Draft) : List String → Except UsageError Request
  | [] => draft.finish
  | text :: rest =>
    match Argument.ofText text with
    | .plain path => do read (← draft.setPath path) rest
    | .separator => do (← rest.foldlM Draft.setPath draft).finish
    | .unknown text => .error (.unknownOption text)
    | .needlessValue text => .error (.needlessValue text)
    | .switch .help => .ok .help
    | .switch .version => .ok .version
    | .switch .listFormats => do read (← draft.setListFormats) rest
    | .option key (some value) => do read (← draft.setOption value key) rest
    | .option key none =>
      match rest with
      | [] => .error (.missingValue key)
      | next :: rest =>
        match Argument.ofText next with
        | .plain value => do read (← draft.setOption value key) rest
        | _ => .error (.missingValue key)

def Request.ofArguments (arguments : List String) : Except UsageError Request :=
  Request.read {} arguments

end Declang
