import PipelineUpkeep.Data.Decode
import PipelineUpkeep.Data.Json.Printer
import PipelineUpkeep.Data.Json.Reader
import PipelineUpkeep.Data.Toml.Printer
import PipelineUpkeep.Data.Toml.Reader
import PipelineUpkeep.Data.Yaml.Printer
import PipelineUpkeep.Data.Yaml.Reader
/-!
# Codecs

A codec reads and writes texts of the three file formats.  What is said about
files is said for any codec; the standard one consists of the readers and writers
of this library.  Only TOML cannot write every value.
-/

namespace PipelineUpkeep.Data

structure Codec where
  read? : Format → String → Option Value
  write? : Format → Value → Option String

/-- JSON with one item a line, TOML, and YAML in block style. -/
def Codec.standard : Codec where
  read?
    | .json => Json.read?
    | .toml => Toml.read?
    | .yaml => Yaml.read?
  write?
    | .json => fun value => some (Json.pretty value)
    | .toml => Toml.write?
    | .yaml => fun value => some (Yaml.write value)

/-- Read a text and decode its value. -/
def Codec.decode? {α : Type} (codec : Codec) (decode : Decoder α) (format : Format)
    (text : String) : Option α :=
  (codec.read? format text).bind (decode format)

end PipelineUpkeep.Data
