import TypeSchema.Settings.Basic

/-!
# Settings as values
-/

namespace TypeSchema

namespace ResolverSettings

def toValue (s : ResolverSettings) : Value :=
  .fields [("cycle_policy", .text s.cycles.text), ("max_depth", .int s.maxDepth),
    ("dates_as_strings", .bool s.datesAsStrings), ("skip_private", .bool s.skipPrivate)]

end ResolverSettings

namespace OutputSettings

def toValue (s : OutputSettings) : Value :=
  .fields [("bundle", .bool s.bundle), ("pretty", .bool s.pretty),
    ("schema_uri", .text s.schemaUri)]

end OutputSettings

namespace Settings

def toValue (s : Settings) : Value :=
  .fields [("resolver", s.resolver.toValue), ("output", s.output.toValue)]

end Settings

end TypeSchema
