/-
What can go wrong, by cause, and the wording of each cause.
-/
import Maquette.Datum.Display
import Maquette.Datum.Reader

namespace Maquette

/-! ## Invalid documents -/

/-- The documents that are checked before they are used. -/
inductive DocumentKind where
  | outline
  | tokens
  | interaction
  | tokenMatch
  deriving DecidableEq, Repr

def DocumentKind.label : DocumentKind → String
  | .outline => "IRS"
  | .tokens => "IRT"
  | .interaction => "IML"
  | .tokenMatch => "TokenMatch"

/-- What a value in a document is not. -/
inductive Offence where
  /-- A field that has to be there is not. -/
  | absent
  | notARecord
  /-- The value is no record, where one of the given model is expected. -/
  | notA (model : String)
  | notAList
  | emptyList
  | notAText
  | emptyText
  | notANumber
  /-- A text, where a number is expected, does not read as one. -/
  | unreadableNumber
  | negative
  | notPositive
  | aboveOne
  | notAnInteger
  | fractional
  | notFinite
  /-- An integer is beyond what its reader takes. -/
  | hugeInteger
  | unreadableInteger
  | notATruth
  | unreadableTruth
  /-- The value is none of the given texts. -/
  | notOneOf (options : List String)
  /-- A trigger is not `on` followed by a capitalized word. -/
  | notATrigger
  /-- Two slots have the same name. -/
  | repeatedSlot (name : String)
  deriving DecidableEq, Repr

/-- Texts in quotes, with commas and a last `or`. -/
def alternatives (options : List String) : String :=
  let quoted := options.map quoteText
  match quoted.reverse with
  | [] => ""
  | [one] => one
  | final :: others => ", ".intercalate others.reverse ++ " or " ++ final

/-- The wording of an offence. -/
def Offence.message : Offence → String
  | absent => "Field required"
  | notARecord => "Input should be a valid dictionary"
  | notA model => "Input should be a valid dictionary or instance of " ++ model
  | notAList => "Input should be a valid list"
  | emptyList => "List should have at least 1 item after validation, not 0"
  | notAText => "Input should be a valid string"
  | emptyText => "String should have at least 1 character"
  | notANumber => "Input should be a valid number"
  | unreadableNumber => "Input should be a valid number, unable to parse string as a number"
  | negative => "Input should be greater than or equal to 0"
  | notPositive => "Input should be greater than 0"
  | aboveOne => "Input should be less than or equal to 1"
  | notAnInteger => "Input should be a valid integer"
  | fractional => "Input should be a valid integer, got a number with a fractional part"
  | notFinite => "Input should be a finite number"
  | hugeInteger => "Unable to parse input string as an integer, exceeded maximum size"
  | unreadableInteger => "Input should be a valid integer, unable to parse string as an integer"
  | notATruth => "Input should be a valid boolean"
  | unreadableTruth => "Input should be a valid boolean, unable to interpret input"
  | notOneOf options => "Input should be " ++ alternatives options
  | notATrigger => "String should match pattern '^on[A-Z]\\w*$'"
  | repeatedSlot name => "Value error, duplicate slot name '" ++ name ++ "'"

/-- One offence against a document's shape: where and what. -/
structure Issue where
  path : List String
  offence : Offence
  deriving DecidableEq, Repr

def Issue.dotted (i : Issue) : String := ".".intercalate i.path

def Issue.message (i : Issue) : String := i.offence.message

/-! ## Hosts -/

/-- What is wrong with the host of an address. -/
inductive HostProblem where
  /-- One of the brackets around a numeric host is missing. -/
  | unclosed
  /-- The text in brackets is no numeric address. -/
  | notNumeric (host : String)
  /-- An address of the old, dotted kind stands in brackets. -/
  | dotted
  /-- An address of a later version is not written as one. -/
  | badVersion
  /-- A character of the host stands for one that parts an address. -/
  | misleading (host : String)
  deriving DecidableEq, Repr

/-- The wording of a problem with a host. -/
def HostProblem.message : HostProblem → String
  | unclosed => "Invalid IPv6 URL"
  | notNumeric host => quoteText host ++ " does not appear to be an IPv4 or IPv6 address"
  | dotted => "An IPv4 address cannot be in brackets"
  | badVersion => "IPvFuture address is invalid"
  | misleading host =>
    "netloc '" ++ host ++ "' contains invalid characters under NFKC normalization"

/-! ## Causes -/

/-- Why an operation has no result. -/
inductive Fault where
  /-- A value is of a kind that the operation is not defined on. -/
  | wrongKind
  /-- A member was asked of a value that has none of that name. -/
  | noMember
  /-- A number is beyond the greatest double, or infinite where an integer is needed. -/
  | tooLarge
  /-- A value that is no number is to be rounded to an integer. -/
  | notANumber
  /-- A text is no number. -/
  | badNumber (s : String)
  /-- A text is no integer. -/
  | badInteger (s : String)
  /-- An integer is spelled with more digits than are read. -/
  | longInteger (digits : Nat)
  /-- A text stands where a number is to be written with a fixed number of places. -/
  | unplaced
  /-- An item of a list of pairs is no pair. -/
  | badPair (position size : Nat)
  /-- Something is looked up that is not there; `what` is written as a quoted value. -/
  | missing (what : String)
  /-- A list has no item at a position. -/
  | noItem
  /-- A pair is expected and fewer values are given. -/
  | tooFew (given : Nat)
  /-- A pair is expected and more values are given. -/
  | tooMany
  /-- A document breaks its shape. -/
  | invalid (kind : DocumentKind) (issues : List Issue)
  /-- A text is no JSON document. -/
  | unreadable (error : ReadError)
  /-- A file does not exist. -/
  | noFile (path : String)
  /-- A directory is opened as a file. -/
  | aDirectory (path : String)
  /-- A path leads through a file. -/
  | notADirectory (path : String)
  /-- A directory is to be made where a file is. -/
  | fileInTheWay (path : String)
  /-- A path holds the character zero. -/
  | nulInPath
  /-- A path has a name that is too long. -/
  | longName (path : String)
  /-- A file holds something else than an object. -/
  | notAnObject (path : String)
  /-- An address does not name a design file. -/
  | notADesign (url : String)
  /-- The host of an address cannot be one. -/
  | badHost (problem : HostProblem)
  /-- The service answered with an error status. -/
  | refused (status : Int) (reason url : String)
  /-- The service could not be reached. -/
  | unreachable (message : String)
  /-- The service's answer is no JSON document. -/
  | garbled (error : ReadError)
  deriving Repr

namespace Fault

/-- The fault of a text that could not be read. An integer that is too long is one of its own. -/
def ofReadError (fault : ReadError → Fault) (e : ReadError) : Fault :=
  match e.problem with
  | .longInteger digits => .longInteger digits
  | _ => fault e

/-- A record has no such field. -/
def noField (key : String) : Fault := .missing (quoteText key)

/-- The first offence, and how many more there are. -/
def invalidText (kind : DocumentKind) (issues : List Issue) : String :=
  let (path, message) := match issues with
    | [] => ("", "invalid document")
    | i :: _ => (i.dotted, i.message)
  kind.label ++ " validation failed: " ++ (if path.isEmpty then "<root>" else path) ++ ": " ++
    message ++ (if 1 < issues.length then s!" (+{issues.length - 1} more)" else "")

/-- An answer's status in words: the client's faults below 500, the server's from there. -/
def refusedText (status : Int) (reason url : String) : String :=
  toString status ++ (if status < 500 then " Client Error: " else " Server Error: ") ++ reason ++
    " for url: " ++ url

/-- The wording of a fault. -/
def message : Fault → String
  | .wrongKind => "operation on a value of the wrong kind"
  | .noMember => "no such member"
  | .tooLarge => "number out of range"
  | .notANumber => "cannot convert float NaN to integer"
  | .badNumber s => "could not convert string to float: " ++ quoteText s
  | .badInteger s =>
    "invalid literal for int() with base 10: " ++ String.ofList ((quoteText s).toList.take 200)
  | .longInteger digits => Decimal.longText digits
  | .unplaced => "Unknown format code 'f' for object of type 'str'"
  | .badPair position size =>
    s!"dictionary update sequence element #{position} has length {size}; 2 is required"
  | .missing what => what
  | .noItem => "list index out of range"
  | .tooFew given => s!"not enough values to unpack (expected 2, got {given})"
  | .tooMany => "too many values to unpack (expected 2)"
  | .invalid kind issues => invalidText kind issues
  | .unreadable error => error.message
  | .noFile path => path
  | .aDirectory path => path
  | .notADirectory path => path
  | .fileInTheWay path => path
  | .nulInPath => "embedded null byte"
  | .longName path => path
  | .notAnObject path => "'" ++ path ++ "' is not a JSON object"
  | .notADesign url => "not a Figma file URL: " ++ url
  | .badHost problem => problem.message
  | .refused status reason url => refusedText status reason url
  | .unreachable message => message
  | .garbled error => error.message

end Fault

end Maquette
