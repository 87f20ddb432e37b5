import MediaSession.Configuration
import MediaSession.Toml.Reader

namespace MediaSession

/-- What stands at the path of a configuration file; a directory cannot be read. -/
inductive ConfigurationFile where
  | missing
  | unreadable
  | content (bytes : ByteArray)

inductive ConfigurationError where
  | unreadable
  | malformed
  deriving DecidableEq, Repr

def ConfigurationError.message (path : String) : ConfigurationError → String
  | .unreadable => "Konfigurationsdatei '" ++ path ++ "' nicht lesbar"
  | .malformed => "Konfigurationsfehler in '" ++ path ++ "'"

def Configuration.ofToml? (document : String) : Option Configuration :=
  (Toml.read? document).bind (ofDatum? .toml)

/-- Without a file everything is left at its usual value. -/
def ConfigurationFile.load : ConfigurationFile → Except ConfigurationError Configuration
  | .missing => .ok {}
  | .unreadable => .error .unreadable
  | .content bytes =>
    match String.fromUTF8? bytes with
    | none => .error .unreadable
    | some document =>
      match Configuration.ofToml? document with
      | some config => .ok config
      | none => .error .malformed

end MediaSession
