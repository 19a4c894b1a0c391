/-
Addresses of the web taken apart: scheme, host, path, query and fragment.
-/
import Maquette.Fault
import Maquette.Web.Numeric
import Maquette.Web.Percent

namespace Maquette

/-- The parts of an address; a part that is missing is empty. -/
structure Url where
  scheme : String
  host : List Char
  path : List Char
  query : List Char
  fragment : List Char

namespace Url

/-! ## Parts -/

def isControlOrBlank (c : Char) : Bool := c.toNat ≤ 32

/-- An address without leading blanks and without line ends and tabs. -/
def clean (s : String) : List Char :=
  (s.toList.dropWhile isControlOrBlank).filter fun c => c ≠ '\t' && c ≠ '\r' && c ≠ '\n'

def isSchemeMark (c : Char) : Bool :=
  Percent.isAscii c && (c.isAlphanum || c = '+' || c = '-' || c = '.')

/-- The scheme of an address and what follows it. -/
def cutScheme (cs : List Char) : String × List Char :=
  match Text.cut? ':' cs with
  | some (c :: before, rest) =>
    if c.isAlpha && before.all isSchemeMark then
      (String.ofList ((c :: before).map Char.toLower), rest)
    else ("", cs)
  | _ => ("", cs)

/-- The host of an address without its scheme, and what follows it. -/
def cutHost (cs : List Char) : List Char × List Char :=
  match cs with
  | '/' :: '/' :: rest =>
    rest.span fun c => c ≠ '/' && c ≠ '?' && c ≠ '#'
  | _ => ([], cs)

/-- What stands before and after the first `sep`; nothing after it when there is none. -/
def cutAt (sep : Char) (cs : List Char) : List Char × List Char :=
  (Text.cut? sep cs).getD (cs, [])

/-! ## Hosts -/

/-- An address of a later version: `v`, hexadecimal digits, a point and more. -/
def isLaterVersion (cs : List Char) : Bool :=
  match cs with
  | 'v' :: rest =>
    let (version, more) := rest.span fun c => (Text.hexDigit? c).isSome
    !version.isEmpty && more.head? == some '.' && 2 ≤ more.length
  | _ => false

/-- What is wrong with the text between brackets. -/
def bracketProblem? (cs : List Char) : Option HostProblem :=
  if cs.head? == some 'v' then if isLaterVersion cs then none else some .badVersion
  else if Numeric.isDotted cs then some .dotted
  else if Numeric.isColonned cs then none
  else some (.notNumeric (String.ofList cs))

/-- Characters that stand for a slash, a colon, a question mark, a number sign or an at sign, alone
or among others, when they are brought into their plain form. -/
def misleading : List Nat :=
  [0x2047, 0x2048, 0x2049, 0x2100, 0x2101, 0x2105, 0x2106, 0x2a74, 0xfe13, 0xfe16, 0xfe55, 0xfe56,
   0xfe5f, 0xfe6b, 0xff03, 0xff0f, 0xff1a, 0xff1f, 0xff20]

/-- What is wrong with a host. -/
def hostProblem? (host : List Char) : Option HostProblem :=
  let opened := host.contains '['
  if opened != host.contains ']' then some .unclosed
  else
    let inside := (cutAt ']' (cutAt '[' host).2).1
    let bracket := if opened then bracketProblem? inside else none
    bracket.or
      (if host.any fun c => misleading.contains c.toNat then
        some (.misleading (String.ofList host)) else none)

/-! ## Reading -/

/-- The parts of an address. -/
def read (s : String) : Except Fault Url :=
  let (scheme, rest) := cutScheme (clean s)
  let (host, rest) := cutHost rest
  match hostProblem? host with
  | some problem => .error (.badHost problem)
  | none =>
    let (rest, fragment) := cutAt '#' rest
    let (path, query) := cutAt '?' rest
    .ok { scheme, host, path, query, fragment }

/-- The schemes whose paths may end in parameters. -/
def withParameters : List String :=
  ["", "ftp", "hdl", "prospero", "http", "imap", "https", "shttp", "rtsp", "rtsps", "rtspu", "sip",
   "sips", "mms", "sftp", "tel"]

/-- The steps of a path that are not empty, parameters of the last one left out. -/
def steps (u : Url) : List String :=
  let pieces := Text.splitOn (· = '/') u.path
  let pieces := if withParameters.contains u.scheme then
      pieces.dropLast ++ (pieces.getLast?.map fun p => (cutAt ';' p).1).toList
    else pieces
  (pieces.filter (!·.isEmpty)).map String.ofList

/-- The fields of a query that have a value, in order. -/
def fields (u : Url) : List (String × String) :=
  (Text.splitOn (· = '&') u.query).filterMap fun field =>
    let (name, value) := cutAt '=' field
    if value.isEmpty then none else some (Percent.decodeForm name, Percent.decodeForm value)

/-! ## Requests -/

/-- A path followed step by step: a single point stays, two points take back the step before. -/
def withoutDots (pieces : List String) : List String :=
  let kept := pieces.foldl (fun kept piece =>
    if piece == "." then kept else if piece == ".." then kept.dropLast else kept ++ [piece]) []
  let kept := if kept.head? == some "" then kept else "" :: kept
  if pieces.getLast?.any fun p => p == "." || p == ".." then kept ++ [""] else kept

def isPathMark (c : Char) : Bool :=
  Percent.isUnreserved c || "!$&'()*+,;=:@/".toList.contains c

def isQueryMark (c : Char) : Bool := isPathMark c || c = '?'

/-- A part of an address after its mark, nothing when it is empty. -/
def marked (mark : Char) (cs : List Char) : List Char := if cs.isEmpty then [] else mark :: cs

/-- What is asked of a host as it is sent: a path with its query and fragment in normal form, and
more fields for the query. -/
def target (s more : String) : String :=
  let (rest, fragment) := cutAt '#' s.toList
  let (path, query) := cutAt '?' rest
  let pieces := (Text.splitOn (· = '/') path).map String.ofList
  let path := Percent.encodeInvalid isPathMark ("/".intercalate (withoutDots pieces)).toList
  let query := Percent.encodeInvalid isQueryMark query
  let query := if more.isEmpty then query
    else if query.isEmpty then more.toList else query ++ '&' :: more.toList
  let fragment := Percent.encodeInvalid isQueryMark fragment
  String.ofList (Percent.plain (path ++ marked '?' query ++ marked '#' fragment))

end Url

end Maquette
