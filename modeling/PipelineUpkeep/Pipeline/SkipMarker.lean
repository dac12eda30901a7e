import PipelineUpkeep.Pipeline.Rows
/-!
# Commit messages that ask to skip CI

A head commit asks to skip CI when its message, in lower case, holds one of two
markers.  The markers are ASCII, so only characters whose lower case holds an
ASCII character matter: the capital letters, the Kelvin sign (its lower case is
`k`) and the dotted capital I (its lower case is `i` and a combining dot).
-/

namespace PipelineUpkeep

/-- The lower case of a character, exact where it holds an ASCII character. -/
def lowerForMarker (c : Char) : List Char :=
  if c = '\u212a' then ['k']
  else if c = '\u0130' then ['i', '\u0307']
  else [c.toLower]

/-- The markers that ask to skip CI. -/
def skipMarkers : List String := ["[ci skip]", "[skip ci]"]

/-- `part` occurs in `text` as consecutive elements. -/
def occursIn (part : List Char) : List Char → Bool
  | [] => part.isEmpty
  | c :: rest => part.isPrefixOf (c :: rest) || occursIn part rest

def messageAsksToSkip (message : String) : Bool :=
  let lower := message.toList.flatMap lowerForMarker
  skipMarkers.any fun marker => occursIn marker.toList lower

def RefHead.requestsCiSkip (head : RefHead) : Bool :=
  messageAsksToSkip head.message

theorem occursIn_eq_true_iff (part text : List Char) :
    occursIn part text = true ↔ part <:+: text := by
  induction text with
  | nil => simp [occursIn]
  | cons c rest ih =>
      rw [occursIn, Bool.or_eq_true, List.isPrefixOf_iff_prefix, ih, List.infix_cons_iff]

end PipelineUpkeep
