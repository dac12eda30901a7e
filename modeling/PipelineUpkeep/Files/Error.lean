import PipelineUpkeep.Data.Value
/-!
# Errors of files

What can go wrong with the files of a configuration and of a state, as causes;
`message` gives the text of each.
-/

namespace PipelineUpkeep

open Data

inductive FileError where
  | configurationUnreadable (path : String)
  /-- The text is not of the format that the name of the file says. -/
  | configurationMalformed (format : Format) (path : String)
  /-- The name of the file says no format, and its text is of none of the three. -/
  | configurationUnknown (path : String)
  | configurationUnwritable (path : String)
  /-- A file of this name is there, and it was not asked to replace it. -/
  | configurationPresent (path : String)
  | stateUnreadable (path : String)
  | stateMalformed (format : Format) (path : String)
  | stateUnwritable (path : String)
  /-- The folder for the state cannot be made. -/
  | folderUnavailable (path : String)
  /-- The format cannot hold a number of more than 63 bits. -/
  | numberTooLarge
  deriving DecidableEq, Repr

namespace FileError

def message : FileError → String
  | configurationUnreadable path => "Failed to read config file: " ++ path
  | configurationMalformed format path =>
      "Failed to parse " ++ format.name ++ " config: " ++ path
  | configurationUnknown path => "Failed to parse config file: " ++ path
  | configurationUnwritable path => "Failed to write config file: " ++ path
  | configurationPresent path =>
      "Config file already exists: " ++ path ++ " (use --force to overwrite)"
  | stateUnreadable path => "Failed to read state file: " ++ path
  | stateMalformed format path => "Failed to parse " ++ format.name ++ " state: " ++ path
  | stateUnwritable path => "Failed to write state file: " ++ path
  | folderUnavailable path => "Failed to create data directory: " ++ path
  | numberTooLarge => "out-of-range value for u64 type"

end FileError

end PipelineUpkeep
