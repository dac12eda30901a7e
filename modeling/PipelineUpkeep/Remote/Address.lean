import PipelineUpkeep.Remote.PathSegment
import PipelineUpkeep.Text.Blank
import PipelineUpkeep.Text.Decimal
/-!
# Web addresses

The address of a server: a scheme, a host, a port and a path.  What comes after a
question mark or a number sign does not count.  Schemes of the web, of which an
address without slashes is understood too, have a host and a path; those of other
schemes may be mere names, below which there is nothing.
-/

namespace PipelineUpkeep

open Text

/-- Why a text is not the address of a server. -/
inductive AddressError where
  | noScheme
  | emptyHost
  | malformedHost
  | malformedNumericHost
  | malformedBracketHost
  | forbiddenHostCharacter
  | malformedPort
  /-- The text is an address, but one that has no path. -/
  | noPath
  deriving DecidableEq, Repr

def AddressError.message : AddressError → String
  | noScheme => "Invalid base URL: relative URL without a base"
  | emptyHost => "Invalid base URL: empty host"
  | malformedHost => "Invalid base URL: invalid international domain name"
  | malformedNumericHost => "Invalid base URL: invalid IPv4 address"
  | malformedBracketHost => "Invalid base URL: invalid IPv6 address"
  | forbiddenHostCharacter => "Invalid base URL: invalid domain character"
  | malformedPort => "Invalid base URL: invalid port number"
  | noPath => "Invalid API base URL: relative URL with a cannot-be-a-base base"

structure WebAddress where
  scheme : String
  host : String
  /-- Left out where it is the usual one of the scheme. -/
  port : Option Nat
  /-- The segments of the path; `[[]]` is the root. -/
  path : List (List Char)
  deriving DecidableEq, Repr

namespace WebAddress

/-- Drop controls and blanks at both ends, and every tab and line break. -/
def cleaned (text : String) : List Char :=
  let drop (c : Char) : Bool := c.toNat ≤ 0x20
  (dropEndWhile drop (text.toList.dropWhile drop)).filter (!isTabOrBreak ·)

/-- The scheme before the first colon, in lower case, and what follows. -/
def readScheme? (text : List Char) : Option (String × List Char) :=
  match splitAtFirst? ':' text with
  | some (first :: more, rest) =>
      let allowed (c : Char) : Bool := c.isAlphanum || c == '+' || c == '-' || c == '.'
      if first.isAlpha && more.all allowed then
        some (String.ofList ((first :: more).map Char.toLower), rest)
      else none
  | _ => none

/-- The usual port of a scheme of the web. -/
def usualPort? : String → Option Nat
  | "http" => some 80
  | "https" => some 443
  | "ws" => some 80
  | "wss" => some 443
  | "ftp" => some 21
  | _ => none

/-- What ends the host and port of an address. -/
def endsAuthority (special : Bool) (c : Char) : Bool :=
  c == '/' || c == '?' || c == '#' || (special && c == '\\')

/-- Leave out what stands before the last at sign. -/
def withoutUser (authority : List Char) : List Char :=
  (authority.reverse.takeWhile (· != '@')).reverse

/-- The host and the port after the first colon that is not in brackets. -/
def splitPort : List Char → Bool → List Char × Option (List Char)
  | [], _ => ([], none)
  | ':' :: rest, false => ([], some rest)
  | c :: rest, inside =>
      let inside := if c = '[' then true else if c = ']' then false else inside
      let (host, port) := splitPort rest inside
      (c :: host, port)

/-- The port that digits name; none for no digits. -/
def readPort (digits : Option (List Char)) : Except AddressError (Option Nat) :=
  match digits with
  | none | some [] => .ok none
  | some digits =>
      match readNatUpTo? 65535 digits with
      | some port => if digits.all isDigit then .ok (some port) else .error .malformedPort
      | none => .error .malformedPort

/-- A host cannot hold this character. -/
def isForbiddenInHost (c : Char) : Bool :=
  c.toNat ≤ 0x20 || c.toNat = 0x7F ||
    ['#', '%', '/', ':', '<', '>', '?', '@', '[', '\\', ']', '^', '|'].contains c

/-- The number that a part of a numeric host names: decimal, octal after a zero, or
hexadecimal after `0x`. -/
def readHostNumber? (part : List Char) : Option Nat :=
  match part with
  | [] => none
  | '0' :: 'x' :: digits | '0' :: 'X' :: digits => valueInBase? 16 digits
  | '0' :: digit :: digits => valueInBase? 8 (digit :: digits)
  | digits => valueInBase? 10 digits

/-- The parts of a host between its points; one point at the end does not count. -/
def hostParts (host : List Char) : List (List Char) :=
  let parts := host.splitOn '.'
  if parts.length > 1 ∧ parts.getLast? = some [] then parts.dropLast else parts

/-- The last part of the host is a numeral, which makes the whole host numeric. -/
def isNumericHost (host : List Char) : Bool :=
  match (hostParts host).getLast? with
  | some [] | none => false
  | some part =>
      part.all isDigit ||
        match part with
        | '0' :: 'x' :: digits | '0' :: 'X' :: digits => (valueInBase? 16 digits).isSome
        | _ => false

/-- At most four numbers, of one byte each but for the last, which fills the bytes
that are left. -/
def isNumericAddress (host : List Char) : Bool :=
  let parts := hostParts host
  match parts.mapM readHostNumber? with
  | none => false
  | some numbers =>
      numbers.length ≤ 4 && numbers.dropLast.all (· ≤ 255) &&
        numbers.getLast?.getD 0 < Nat.pow 256 (5 - numbers.length)

/-- Four numbers up to 255 without leading zeros. -/
def isDottedQuad (text : List Char) : Bool :=
  let parts := text.splitOn '.'
  parts.length == 4 && parts.all fun part =>
    (readNat? part).any (· ≤ 255) && (part.length == 1 || part.head? != some '0')

/-- How many 16-bit groups a colon-separated text has, if it is well formed; a dotted
quad at its end counts for two. -/
def groupCount? (text : List Char) : Option Nat :=
  if text.isEmpty then some 0
  else
    let groups := text.splitOn ':'
    let isGroup (group : List Char) : Bool :=
      !group.isEmpty && group.length ≤ 4 && group.all fun c => (hexValue? c).isSome
    match groups.getLast? with
    | none => none
    | some last =>
        if !groups.dropLast.all isGroup then none
        else if isGroup last then some groups.length
        else if isDottedQuad last then some (groups.length + 1)
        else none

/-- The first place where two colons stand side by side. -/
def splitAtDoubleColon? : List Char → Option (List Char × List Char)
  | ':' :: ':' :: rest => some ([], rest)
  | c :: rest => (splitAtDoubleColon? rest).map fun (front, back) => (c :: front, back)
  | [] => none

/-- Eight groups; two colons stand for one or more groups of zero. -/
def isBracketAddress (text : List Char) : Bool :=
  match splitAtDoubleColon? text with
  | none => groupCount? text == some 8
  | some (front, back) =>
      match groupCount? front, groupCount? back with
      | some a, some b => a + b ≤ 7 && !front.contains '.'
      | _, _ => false

/-- Check a host between brackets. -/
def checkBracketHost (host : List Char) : Except AddressError String :=
  if host.getLast? = some ']' ∧ isBracketAddress (host.drop 1).dropLast then
    .ok (String.ofList (host.map Char.toLower))
  else .error .malformedBracketHost

/-- The host of a scheme of the web. -/
def readSpecialHost (host : List Char) : Except AddressError String :=
  if host.isEmpty then .error .emptyHost
  else if host.head? = some '[' then checkBracketHost host
  else
    match String.fromUTF8? ⟨(percentDecode host).toArray⟩ with
    | none => .error .malformedHost
    | some decoded =>
        let name := decoded.toList.map Char.toLower
        if name.any isForbiddenInHost then .error .malformedHost
        else if name.isEmpty then .error .emptyHost
        else if isNumericHost name && !isNumericAddress name then .error .malformedNumericHost
        else .ok (String.ofList name)

/-- The host of another scheme, which may be empty. -/
def readOpaqueHost (host : List Char) : Except AddressError String :=
  if host.head? = some '[' then checkBracketHost host
  else if host.any fun c => isForbiddenInHost c && c != '%' then .error .forbiddenHostCharacter
  else .ok (String.ofList host)

/-- The segments of a path after its first slash, dots resolved. -/
def resolveSegments : List (List Char) → List (List Char) → List (List Char)
  | path, [] => path
  | path, [last] =>
      if isDoubleDot last then path.dropLast ++ [[]]
      else if isSingleDot last then path ++ [[]]
      else path ++ [percentEncode isEscapedInPath last]
  | path, segment :: rest =>
      if isDoubleDot segment then resolveSegments path.dropLast rest
      else if isSingleDot segment then resolveSegments path rest
      else resolveSegments (path ++ [percentEncode isEscapedInPath segment]) rest

/-- The path of an address up to a question mark or number sign. -/
def readPath (special : Bool) (text : List Char) : List (List Char) :=
  let path := text.takeWhile fun c => c != '?' && c != '#'
  let path := if special then path.map fun c => if c = '\\' then '/' else c else path
  resolveSegments [] ((path.drop 1).splitOn '/')

/-- Host, port and path after the slashes. -/
def readAfterSlashes (scheme : String) (special : Bool) (text : List Char) :
    Except AddressError WebAddress := do
  let authority := text.takeWhile (!endsAuthority special ·)
  let (host, digits) := splitPort (withoutUser authority) false
  let host ← if special then readSpecialHost host else readOpaqueHost host
  let port ← readPort digits
  return {
    scheme, host
    port := port.filter (some · != usualPort? scheme)
    path := readPath special (text.dropWhile (!endsAuthority special ·)) }

/-- Read an address. -/
def ofText (text : String) : Except AddressError WebAddress :=
  match readScheme? (cleaned text) with
  | none => .error .noScheme
  | some ("file", rest) =>
      .ok ⟨"file", "", none, readPath true rest⟩
  | some (scheme, rest) =>
      if (usualPort? scheme).isSome then
        readAfterSlashes scheme true (rest.dropWhile fun c => c == '/' || c == '\\')
      else
        match rest with
        | '/' :: '/' :: rest => readAfterSlashes scheme false rest
        | '/' :: rest => .ok ⟨scheme, "", none, readPath false ('/' :: rest)⟩
        | _ => .error .noPath

/-- The path below the path of an address, which may end in a slash or not. -/
def below (address : WebAddress) (names : List String) : WebAddress :=
  let path := if address.path.getLast? = some [] then address.path.dropLast else address.path
  { address with path := path ++ names.map String.toList }

/-- The path as it is asked for. -/
def pathText (address : WebAddress) : String :=
  String.ofList ('/' :: ['/'].intercalate address.path)

end WebAddress

end PipelineUpkeep
