namespace MediaSession

inductive LogLevel where
  | trace
  | debug
  | info
  | warn
  | error
  deriving DecidableEq, Inhabited, Repr

def LogLevel.all : List LogLevel := [.trace, .debug, .info, .warn, .error]

def LogLevel.name : LogLevel → String
  | .trace => "trace"
  | .debug => "debug"
  | .info => "info"
  | .warn => "warn"
  | .error => "error"

def LogLevel.severity : LogLevel → Nat
  | .trace => 0
  | .debug => 1
  | .info => 2
  | .warn => 3
  | .error => 4

inductive LogFormat where
  | text
  | json
  deriving DecidableEq, Inhabited, Repr

def LogFormat.all : List LogFormat := [.text, .json]

def LogFormat.name : LogFormat → String
  | .text => "text"
  | .json => "json"

def isLogLevel (text : String) : Bool := LogLevel.all.any (·.name == text)

def isLogFormat (text : String) : Bool := LogFormat.all.any (·.name == text)

/-- What a variable of the environment says, or else the value given in the settings. -/
def fromEnvironment (entry : Option String) (fallback : String) : String :=
  entry.getD fallback

/-- The least level that a filter admits; an empty filter admits errors alone. -/
def LogLevel.ofFilter? (filter : String) : Option LogLevel :=
  if filter = "" then some .error else all.find? (·.name == filter)

/-- The first filter that can be read, in the environment, then in the settings. -/
def LogLevel.chosen (entry : Option String) (setting : String) : LogLevel :=
  ((entry.bind ofFilter?).or (ofFilter? setting)).getD .info

def LogFormat.ofName (name : String) : LogFormat := if name = "json" then .json else .text

structure Logging where
  level : LogLevel
  format : LogFormat
  deriving DecidableEq, Repr

def Logging.admits (logging : Logging) (level : LogLevel) : Bool :=
  logging.level.severity ≤ level.severity

inductive LoggingError where
  | alreadyInitialised
  deriving DecidableEq, Repr

def LoggingError.message : LoggingError → String
  | .alreadyInitialised => "Logging bereits initialisiert"

def Logging.initialise (current : Option Logging) (levelEntry formatEntry : Option String)
    (level format : String) : Except LoggingError Logging :=
  match current with
  | some _ => .error .alreadyInitialised
  | none =>
    .ok { level := .chosen levelEntry level
          format := .ofName (fromEnvironment formatEntry format) }

/-- Once set up, logging reports itself at this level. -/
def Logging.announcement : LogLevel := .debug

end MediaSession
