import TypeSchema.Text.Lines
import TypeSchema.Yaml.Node.Reader
import TypeSchema.Yaml.Token.Scan

/-!
# Reading YAML

The value of a text of at most one document.
-/

namespace TypeSchema.Yaml

def isPrintable (c : Char) : Bool :=
  c = '\t' || c = '\n' || ('\x20' ≤ c && c ≤ '\x7e') || c = '\u0085' ||
    ('\u00a0' ≤ c && c ≤ '\ufffd') || 0x10000 ≤ c.toNat

def parse (text : String) : Except Fault Value := do
  let cs := Text.unifyBreaks text.toList
  if !cs.all isPrintable then throw .malformed
  let (ts, fault?) := tokens cs
  (← Node.ofTokens ts fault?).value

end TypeSchema.Yaml
