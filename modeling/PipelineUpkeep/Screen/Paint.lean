/-!
# Text styles of a terminal

A text is written between the codes that switch a style on and off, or as it is
where styles are switched off.
-/

namespace PipelineUpkeep.Screen

/-- The styles that reports use. -/
inductive Style where
  | brightGreen
  | brightYellow
  | brightRed
  | cyan
  | dim
  | underlined
  deriving DecidableEq, Repr

namespace Style

/-- The number of the code that switches a style on. -/
def code : Style → String
  | brightGreen => "38;5;10"
  | brightYellow => "38;5;11"
  | brightRed => "38;5;9"
  | cyan => "36"
  | dim => "2"
  | underlined => "4"

end Style

/-- Whether texts are written with styles. -/
structure Palette where
  colored : Bool

/-- No styles. -/
def Palette.plain : Palette := ⟨false⟩

/-- A text in a style. -/
def Palette.paint (palette : Palette) (style : Style) (text : String) : String :=
  if palette.colored then "\x1b[" ++ style.code ++ "m" ++ text ++ "\x1b[0m" else text

end PipelineUpkeep.Screen
