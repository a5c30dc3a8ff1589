import ShopValidation.Geodata.Query
import ShopValidation.Geodata.Response
import ShopValidation.Text.Hex
import ShopValidation.Text.Utf8

/-!
# Requests over HTTP

A question is a GET request to an endpoint, with the query as a form field. The path of the endpoint
is normalised: dot segments are resolved, a fragment is dropped, and what may not stand in a path or
query is percent-encoded. An error status is an error; any other reply is read for its body.
-/

namespace ShopValidation.Request

/-- A byte as percent sign and two upper-case digits. -/
def percentByte (byte : UInt8) : List Char :=
  ['%', Text.hexDigitUpper (byte.toNat / 16), Text.hexDigitUpper (byte.toNat % 16)]

/-- The bytes of a character, percent-encoded. -/
def percentChar (c : Char) : List Char := (String.utf8EncodeChar c).flatMap percentByte

/-- Whether a character stands for itself in a form field. -/
def isFormSafe (c : Char) : Bool :=
  c.isAlphanum || c = '*' || c = '-' || c = '.' || c = '_'

/-- The written form of a character in a form field. -/
def formChar (c : Char) : List Char :=
  if isFormSafe c then [c] else if c = ' ' then ['+'] else percentChar c

/-- The written form of a form field. -/
def formText (text : List Char) : List Char := text.flatMap formChar

/-- Whether a character is a printing character of ASCII. -/
def isAsciiPrint (c : Char) : Bool := 0x21 ≤ c.toNat && c.toNat ≤ 0x7E

/-- Whether a character stands for itself in a path. -/
def isPathSafe (c : Char) : Bool :=
  isAsciiPrint c &&
    !(['"', '#', '<', '>', '?', Char.ofNat 0x60, Char.ofNat 0x7B, Char.ofNat 0x7D].contains c)

/-- Whether a character stands for itself in a query. -/
def isQuerySafe (c : Char) : Bool :=
  isAsciiPrint c && !(['"', '#', '<', '>', Char.ofNat 0x27].contains c)

/-- Percent-encode what is not safe. -/
def encodeUnless (isSafe : Char → Bool) (text : List Char) : List Char :=
  text.flatMap fun c => if isSafe c then [c] else percentChar c

/-- Cut a text at every character of a kind. There is one part more than there are cuts. -/
def splitAll (isCut : Char → Bool) : List Char → List (List Char)
  | [] => [[]]
  | c :: rest =>
    if isCut c then [] :: splitAll isCut rest
    else
      match splitAll isCut rest with
      | [] => [[c]]
      | part :: parts => (c :: part) :: parts

/-- Whether a segment of a path means the place where it stands. -/
def isHere (segment : List Char) : Bool :=
  let low := segment.map Char.toLower
  low = ['.'] || low = ['%', '2', 'e']

/-- Whether a segment of a path means one level up. -/
def isUp (segment : List Char) : Bool :=
  let low := segment.map Char.toLower
  low = ['.', '.'] || low = ['.', '%', '2', 'e'] || low = ['%', '2', 'e', '.'] ||
    low = ['%', '2', 'e', '%', '2', 'e']

/-- Resolve dot segments. The segments that are done come last one first. A dot segment at the end
leaves the path ending in a slash. -/
def resolveDots : (done : List (List Char)) → List (List Char) → List (List Char)
  | done, [] => done.reverse
  | done, segment :: rest =>
    if isUp segment then
      if rest.isEmpty then ([] :: done.tail).reverse else resolveDots done.tail rest
    else if isHere segment then
      if rest.isEmpty then ([] :: done).reverse else resolveDots done rest
    else resolveDots (encodeUnless isPathSafe segment :: done) rest

/-- The text before the first character of a kind, and the text after it if there is one. -/
def cutAt (cut : Char) (text : List Char) : List Char × Option (List Char) :=
  (text.takeWhile (· ≠ cut),
    match text.dropWhile (· ≠ cut) with
    | [] => none
    | _ :: after => some after)

/-- Drop what may not be in an address at all: tabs and line ends, and blanks at the end. -/
def clean (text : List Char) : List Char :=
  let shown := text.filter fun c => !(c = '\t' || c = '\n' || c = '\r')
  (shown.reverse.dropWhile fun c => c.toNat ≤ 0x20).reverse

/-- The normalised path and the query of an endpoint. -/
def pathAndQuery (endpoint : List Char) : List Char × List Char :=
  let (address, _) := cutAt '#' (clean endpoint)
  let (path, query) := cutAt '?' address
  let segments := splitAll (fun c => c = '/' || c = '\\') (path.drop 1)
  (resolveDots [] segments |>.flatMap ('/' :: ·), encodeUnless isQuerySafe (query.getD []))

/-- The target of the request for a list of locations, at the endpoint with a path. -/
def target (path : String) (uids : List LocationUid) : String :=
  let (path, query) := pathAndQuery path.toList
  String.ofList <|
    path ++ ['?'] ++ (if query.isEmpty then [] else query ++ ['&']) ++
    ['d', 'a', 't', 'a', '='] ++ formText (Query.chars uids)

/-- What came back: nothing, or a status and the bytes of a body. -/
inductive HttpReply where
  | closed
  | response (status : Nat) (body : List UInt8)

/-- Whether a status comes without a body. -/
def hasNoBody (status : Nat) : Bool := status = 204 || status = 304

/-- Read what came back. -/
def read : HttpReply → Except GeodataError (List Resolved)
  | .closed => .error (.http none)
  | .response status body =>
    if 400 ≤ status ∧ status ≤ 599 then .error (.http (some status))
    else Response.parse (if hasNoBody status then "" else Text.decodeUtf8 body)

/-- Ask at an endpoint: the targets requested, and the outcome. Nothing is requested for an empty
list. -/
def resolve (path : String) (uids : List LocationUid) (reply : HttpReply) :
    List String × Except GeodataError (List Resolved) :=
  if uids.isEmpty then ([], .ok []) else ([target path uids], read reply)

end ShopValidation.Request
