import TypeSchema.Failure

/-!
# The log

What a run reports besides its results.
-/

namespace TypeSchema

inductive Level where
  | debug
  | info
  | warning
deriving DecidableEq, Repr

namespace Level

def text : Level → String
  | .debug => "DEBUG"
  | .info => "INFO"
  | .warning => "WARNING"

end Level

inductive Event where
  | cycleCut (place : Place) (name : String)
  | skipped (kind name : String)
  | failed (name : String) (failure : Failure)
  | duplicate (name kind : String)
  | bundleWritten (definitions : Nat) (path : String)
  | filesWritten (files : Nat) (directory : String)
  | loaded (path summary : String)
deriving DecidableEq, Repr

namespace Event

def level : Event → Level
  | .cycleCut .. | .bundleWritten .. | .filesWritten .. => .info
  | .skipped .. | .loaded .. => .debug
  | .failed .. | .duplicate .. => .warning

def message : Event → String
  | .cycleCut place name => "Breaking cycle at " ++ place.text ++ " through " ++ name
  | .skipped kind name => "Skipping " ++ kind ++ " declaration " ++ name
  | .failed name failure => "Could not resolve " ++ name ++ ": " ++ failure.message
  | .duplicate name kind => "Duplicate declaration " ++ name ++ " (" ++ kind ++ ") ignored"
  | .bundleWritten definitions path =>
    "Wrote " ++ toString definitions ++ " definitions to " ++ path
  | .filesWritten files directory =>
    "Wrote " ++ toString files ++ " schema files to " ++ directory
  | .loaded path summary => "Loaded type graph " ++ path ++ ": " ++ summary

end Event

end TypeSchema
