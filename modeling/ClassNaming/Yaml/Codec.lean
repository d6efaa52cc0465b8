/-
Settings files in YAML.

Of the tags a file can have, those of sets, bytes, ordered mappings and pairs are not read: a text with one of them
counts as malformed here, and so does one with an escape that names half of a surrogate pair. A file is taken as a whole,
so nothing is found in one whose bytes are not all text.
-/
import ClassNaming.Settings.Codec
import ClassNaming.Yaml.Content
import ClassNaming.Yaml.Writer

namespace ClassNaming.Yaml

def Stop.unloaded : Stop → Unloaded
  | .malformed => .malformed "<YAML error>"
  | .fault cause => .fault cause

instance codec : Codec where
  load cs := (read cs).mapError Stop.unloaded
  early _ := none
  dump := write

end ClassNaming.Yaml
