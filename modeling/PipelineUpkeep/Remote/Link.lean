import PipelineUpkeep.Text.Blank
/-!
# Links to pipeline pages

The page of a pipeline lies under the web address of its server and the path of
its project.  Slashes at the end of the address and at both ends of the path do
not count.
-/

namespace PipelineUpkeep

open Text

/-- Drop the slashes at the end. -/
def trimSlashesEnd (text : List Char) : List Char :=
  dropEndWhile (· == '/') text

/-- Drop the slashes at both ends. -/
def trimSlashes (text : List Char) : List Char :=
  trimSlashesEnd (text.dropWhile (· == '/'))

/-- The pages of one project. -/
structure PipelineLinks where
  baseUrl : String
  projectPath : String
  deriving DecidableEq, Repr, Inhabited

namespace PipelineLinks

def ofAddress (baseUrl projectPath : String) : PipelineLinks :=
  ⟨String.ofList (trimSlashesEnd baseUrl.toList), String.ofList (trimSlashes projectPath.toList)⟩

/-- The page of a pipeline. -/
def pipeline (links : PipelineLinks) (id : Nat) : String :=
  links.baseUrl ++ "/" ++ links.projectPath ++ "/-/pipelines/" ++ toString id

end PipelineLinks

end PipelineUpkeep
