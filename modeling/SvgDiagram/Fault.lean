import SvgDiagram.Value.Moment

/-!
Why a request fails. Every cause has one constructor, and one function gives the words of all of them.
-/

namespace SvgDiagram

inductive OutputKind where
  | svg
  | png
  | webm
  deriving DecidableEq, Repr

def OutputKind.name : OutputKind → String
  | .svg => "svg"
  | .png => "png"
  | .webm => "webm"

inductive Fault where
  /-- A value does not support what is done with it. -/
  | wrongShape
  /-- A named part is asked of a value that has no named parts. -/
  | noParts
  | missingKey (key : String)
  | emptyText
  | notReal (text : String)
  | bytesNotReal (data : List UInt8)
  | notInteger (base : Nat) (text : String)
  | bytesNotInteger (data : List UInt8)
  | tooManyDigits (count : Nat)
  | tooLargeForFloat
  | infiniteInteger
  | nanInteger
  | pairLength (index length : Nat)
  | malformedDocument
  | badCharacterCode
  /-- Half of a character that is written as two codes. -/
  | halfCharacter
  | noSuchYear (year : Nat)
  | noSuchMonth
  | noSuchDay
  | noSuchHour
  | noSuchMinute
  | noSuchSecond
  | noSuchOffset (minutes : Int)
  | invalidExpression (text : String)
  | unknownElement (name : String)
  | unknownAttribute (name element : String)
  | noCentre (kind : String)
  | openOutline
  | noCoordinates
  | outlineWithoutSource
  | outlineWithoutData
  /-- A field of an element has a value that cannot be converted to what it needs, or none at all. -/
  | invalidField
  | missingType
  | unknownType (name : String)
  | unknownDefinition (name : String)
  | libraryNotFound (path : String)
  | homeUnknown
  | nulInPath
  | denied (kind : OutputKind) (path : String)
  | unknownTool (name : String)
  | undecodable
  | fileNotFound
  | isDirectory
  | notDirectory
  | alreadyExists
  | destinationTaken (path : String)
  | transportFailed
  deriving DecidableEq, Repr

namespace Fault

/-- Where the settings are kept, as messages name the place. -/
def settingsPlace : String := "~/.config/mcp-svg-animator/config.yaml"

def message : Fault → String
  | wrongShape => "value has the wrong shape"
  | noParts => "value has no named parts"
  | missingKey key => Text.quoted key
  | emptyText => "string index out of range"
  | notReal text => "could not convert string to float: " ++ Text.quoted text
  | bytesNotReal data => "could not convert string to float: " ++ Text.quotedBytes data
  | bytesNotInteger data => "invalid literal for int() with base 10: " ++ Text.quotedBytes data
  | notInteger base text =>
    "invalid literal for int() with base " ++ toString base ++ ": " ++ Text.quoted text
  | tooManyDigits count =>
    "Exceeds the limit (4300 digits) for integer string conversion: value has " ++ toString count ++
      " digits; use sys.set_int_max_str_digits() to increase the limit"
  | tooLargeForFloat => "int too large to convert to float"
  | infiniteInteger => "cannot convert float infinity to integer"
  | nanInteger => "cannot convert float NaN to integer"
  | pairLength index length =>
    "dictionary update sequence element #" ++ toString index ++ " has length " ++ toString length ++
      "; 2 is required"
  | malformedDocument => "malformed document"
  | badCharacterCode => "chr() arg not in range(0x110000)"
  | halfCharacter => "surrogates not allowed"
  | noSuchYear year => "year " ++ toString year ++ " is out of range"
  | noSuchMonth => "month must be in 1..12"
  | noSuchDay => "day is out of range for month"
  | noSuchHour => "hour must be in 0..23"
  | noSuchMinute => "minute must be in 0..59"
  | noSuchSecond => "second must be in 0..59"
  | noSuchOffset minutes =>
    "offset must be a timedelta strictly between -timedelta(hours=24) and timedelta(hours=24), not " ++
      spanText minutes ++ "."
  | invalidExpression text => "Invalid position expression: " ++ text
  | unknownElement name => "Unknown element reference: " ++ name
  | unknownAttribute name element =>
    "Unknown attribute '" ++ name ++ "' on element '" ++ element ++ "'"
  | noCentre kind => "Cannot calculate center for element type: " ++ kind
  | openOutline => "Cannot calculate center for open path"
  | noCoordinates => "Path has no coordinates"
  | outlineWithoutSource => "Path element requires either 'd' or 'segments'"
  | outlineWithoutData => "PathSpec requires either 'd' or 'segments'"
  | invalidField => "value is not valid for its field"
  | missingType => "Element spec missing 'type' key"
  | unknownType name => "Unknown element type: " ++ name
  | unknownDefinition name => "Unknown definition: " ++ name
  | libraryNotFound path => "Library file not found: " ++ path
  | homeUnknown => "Could not determine home directory."
  | nulInPath => "embedded null byte"
  | denied kind path =>
    "Writing " ++ kind.name ++ " to " ++ path ++ " is not allowed. Configure allowed paths in " ++
      settingsPlace
  | unknownTool name => "Unknown tool: " ++ name
  | undecodable => "file holds no text"
  | fileNotFound => "no such file or directory"
  | isDirectory => "is a directory"
  | notDirectory => "not a directory"
  | alreadyExists => "file exists"
  | destinationTaken path => "Destination path '" ++ path ++ "' already exists"
  | transportFailed => "transport failed"

end Fault
end SvgDiagram
