import PipelineUpkeep.Configuration.Basic
import PipelineUpkeep.Data.Codec
import PipelineUpkeep.Files.Directory
import PipelineUpkeep.Files.Error
/-!
# Configuration files

The extension of its name says the format of a file.  A file of another name is
read as the first of TOML, JSON and YAML that it can be read as, and written as
TOML.  Without a path the first file of a list is taken, and the standard
configuration if none is there.
-/

namespace PipelineUpkeep

open Data

namespace Configuration

/-- The files that are looked for, in order. -/
def candidates : List String :=
  ["ci-autocancel.toml", "ci-autocancel.json", "ci-autocancel.yaml", "ci-autocancel.yml"]

/-- The configuration that a text holds. -/
def ofText (codec : Codec) (path text : String) : Except FileError Configuration :=
  match Format.ofExtension? (extensionOf path) with
  | some format =>
      match codec.decode? decode format text with
      | some configuration => .ok configuration
      | none => .error (.configurationMalformed format path)
  | none =>
      -- Nothing tells the format, so each is tried; YAML reads nearly anything and comes last.
      match [Format.toml, .json, .yaml].findSome? (codec.decode? decode · text) with
      | some configuration => .ok configuration
      | none => .error (.configurationUnknown path)

/-- Read the configuration at a path. -/
def loadFrom (codec : Codec) (directory : Directory) (path : String) :
    Except FileError Configuration :=
  match directory.read? path with
  | none => .error (.configurationUnreadable path)
  | some text => ofText codec path text

/-- Read the configuration at a path, or look for one. -/
def load (codec : Codec) (directory : Directory) (path : Option String) :
    Except FileError Configuration :=
  match path with
  | some path => loadFrom codec directory path
  | none =>
      match candidates.find? directory.has with
      | some path => loadFrom codec directory path
      | none => .ok .standard

/-- Write a configuration. -/
def save (codec : Codec) (configuration : Configuration) (path : String)
    (directory : Directory) : Except FileError Directory :=
  let format := (Format.ofExtension? (extensionOf path)).getD .toml
  match codec.write? format configuration.encode with
  | none => .error .numberTooLarge
  | some text =>
      match directory.write? path text with
      | none => .error (.configurationUnwritable path)
      | some directory => .ok directory

end Configuration

end PipelineUpkeep
