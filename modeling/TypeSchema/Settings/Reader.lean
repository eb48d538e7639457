import TypeSchema.Reading
import TypeSchema.Settings.Basic

/-!
# Reading settings
-/

namespace TypeSchema

open Reading

def Reading.depth (v : Value) : Reading Nat :=
  (integer v).check fun n => if 0 < n then .ok n.toNat else fault (.notGreater 0)

namespace ResolverSettings

def modelName : String := "ResolverConfig"

def readFields (v : Value) : Reading ResolverSettings :=
  let default : ResolverSettings := {}
  (fun cycles maxDepth datesAsStrings skipPrivate =>
      { cycles, maxDepth, datesAsStrings, skipPrivate }) <$>
    fieldOr "cycle_policy" default.cycles (oneOf (CyclePolicy.all.map fun p => (p.text, p))) v <*>
    fieldOr "max_depth" default.maxDepth depth v <*>
    fieldOr "dates_as_strings" default.datesAsStrings boolean v <*>
    fieldOr "skip_private" default.skipPrivate boolean v

def read (entries : List (Scalar × Value)) : Reading ResolverSettings := document readFields entries

end ResolverSettings

namespace OutputSettings

def modelName : String := "OutputConfig"

def readFields (v : Value) : Reading OutputSettings :=
  let default : OutputSettings := {}
  OutputSettings.mk <$>
    fieldOr "bundle" default.bundle boolean v <*>
    fieldOr "pretty" default.pretty boolean v <*>
    fieldOr "schema_uri" default.schemaUri text v

def read (entries : List (Scalar × Value)) : Reading OutputSettings := document readFields entries

end OutputSettings

namespace Settings

def modelName : String := "ConverterConfig"

def readFields (v : Value) : Reading Settings :=
  Settings.mk <$>
    fieldOr "resolver" {} (record ResolverSettings.modelName ResolverSettings.readFields) v <*>
    fieldOr "output" {} (record OutputSettings.modelName OutputSettings.readFields) v

/-- References without a bundle would refer to nothing. -/
def checkRefs (s : Settings) : Reading Settings :=
  if s.RefsBundled then .ok s
  else fault (.rule "resolver.cycle_policy=ref requires output.bundle")

def read (entries : List (Scalar × Value)) : Reading Settings :=
  document (fun v => (readFields v).check checkRefs) entries

end Settings

end TypeSchema
