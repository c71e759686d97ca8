import Codenaut.Text.Urls

/-!
# The browser's URLs

`new URL(value)` for a value without a base, as the URL Standard defines the basic
parser, as far as an `https` URL is concerned: a value with another scheme gives a
URL with that scheme or none. A text is a list of scalar values, which the browser
makes of any string first.
-/

set_option autoImplicit false

namespace Codenaut.Frontend

open Codenaut.Text

/-! ## Percent-encoding -/

def hexDigit (digit : Nat) : Char := "0123456789ABCDEF".toList.getD digit '0'

def percentEncodeByte (byte : UInt8) : List Char :=
  ['%', hexDigit (byte.toNat / 16), hexDigit (byte.toNat % 16)]

/-- UTF-8 percent-encoding with a set. -/
def percentEncode (set : Char → Bool) (text : List Char) : List Char :=
  text.flatMap fun char =>
    if set char then (String.utf8EncodeChar char).flatMap percentEncodeByte else [char]

def controlSet (char : Char) : Bool := char.toNat < 32 || 126 < char.toNat

def fragmentSet (char : Char) : Bool := controlSet char || char ∈ [' ', '"', '<', '>', '\x60']

def querySet (char : Char) : Bool := controlSet char || char ∈ [' ', '"', '#', '<', '>', '\'']

def pathSet (char : Char) : Bool :=
  controlSet char || char ∈ [' ', '"', '#', '<', '>', '?', '^', '\x60', '\x7b', '\x7d']

def userinfoSet (char : Char) : Bool :=
  pathSet char || char ∈ ['/', ':', ';', '=', '@', '[', '\\', ']', '|']

/-! ## Records -/

structure UrlRecord where
  username : List Char := []
  password : List Char := []
  host : List Char
  port : Option Nat := none
  path : List (List Char)
  query : Option (List Char) := none
  fragment : Option (List Char) := none
  deriving DecidableEq, Repr

/-- A URL with another scheme is not looked into. -/
inductive Parsed where
  | failure
  | other
  | https (record : UrlRecord)
  deriving DecidableEq, Repr

/-- Without blanks around it, without tabs and line ends. -/
def clean (value : List Char) : List Char :=
  ((value.dropWhile isControlOrSpace).rdropWhile isControlOrSpace).filter (· ∉ unsafeChars)

/-- The delimiters at which an authority ends. -/
def isAuthority (char : Char) : Bool := char ∉ ['/', '?', '#', '\\']

/-- The host ends at the first colon outside brackets. -/
def splitHost (inside : Bool) : List Char → List Char × Option (List Char)
  | [] => ([], none)
  | char :: rest =>
      if char = ':' ∧ inside = false then ([], some rest)
      else
        let (host, port) :=
          splitHost (if char = '[' then true else if char = ']' then false else inside) rest
        (char :: host, port)

/-- A port in digits, and none where it is the default one. -/
def parsePort (text : List Char) : Option (Option Nat) :=
  if text.all Char.isDigit = false then none
  else if text = [] then some none
  else
    let port := text.foldl (fun value digit => 10 * value + (digit.toNat - 48)) 0
    if 65535 < port then none else some (if port = 443 then none else some port)

structure Authority where
  username : List Char
  password : List Char
  host : List Char
  port : Option Nat

/-- Credentials, host and port. The host parser is the one of the standard. -/
def parseAuthority (hostParser : List Char → Option (List Char)) (text : List Char) :
    Option Authority :=
  let (userinfo, location) := rpartition '@' text
  let (username, password) := partition ':' (userinfo.getD [])
  let (host, port) := splitHost false location
  if host = [] then none
  else
    match hostParser host, parsePort (port.getD []) with
    | some host, some port =>
        some ⟨percentEncode userinfoSet username, percentEncode userinfoSet (password.getD []),
          host, port⟩
    | _, _ => none

/-! ## Paths -/

def isSingleDot (segment : List Char) : Bool :=
  [['.'], "%2e".toList].contains (segment.map Char.toLower)

def isDoubleDot (segment : List Char) : Bool :=
  [['.', '.'], ".%2e".toList, "%2e.".toList, "%2e%2e".toList].contains
    (segment.map Char.toLower)

/-- A segment before a slash, or the last one. -/
def addSegment (path : List (List Char)) (segment : List Char) (slash : Bool) :
    List (List Char) :=
  if isDoubleDot segment then path.dropLast ++ if slash then [] else [[]]
  else if isSingleDot segment then path ++ if slash then [] else [[]]
  else path ++ [segment]

def addSegments (path : List (List Char)) : List (List Char) → List (List Char)
  | [] => path
  | [last] => addSegment path last false
  | segment :: rest => addSegments (addSegment path segment true) rest

/-- A backslash is a slash. -/
def parsePath (text : List Char) : List (List Char) :=
  let slashed := text.map fun char => if char = '\\' then '/' else char
  let relative := if slashed.head? = some '/' then slashed.tail else slashed
  addSegments [] ((relative.splitOn '/').map (percentEncode pathSet))

/-! ## The parser -/

/-- What follows the scheme of an `https` URL. -/
def parseHttps (hostParser : List Char → Option (List Char)) (rest : List Char) :
    Option UrlRecord :=
  let located := rest.dropWhile (· ∈ ['/', '\\'])
  let (beforeFragment, fragment) := partition '#' (located.dropWhile isAuthority)
  let (path, query) := partition '?' beforeFragment
  (parseAuthority hostParser (located.takeWhile isAuthority)).map fun authority =>
    { username := authority.username
      password := authority.password
      host := authority.host
      port := authority.port
      path := parsePath path
      query := query.map (percentEncode querySet)
      fragment := fragment.map (percentEncode fragmentSet) }

def parseUrl (hostParser : List Char → Option (List Char)) (value : List Char) : Parsed :=
  match partition ':' (clean value) with
  | (head :: tail, some rest) =>
      if head.isAlpha && (head :: tail).all isSchemeChar then
        if (head :: tail).map Char.toLower = "https".toList then
          match parseHttps hostParser rest with
          | some record => .https record
          | none => .failure
        else .other
      else .failure
  | _ => .failure

def httpsFront : List Char := "https://".toList

namespace UrlRecord

def pathname (record : UrlRecord) : List Char :=
  record.path.flatMap fun segment => '/' :: segment

/-- `url.toString()`. -/
def href (record : UrlRecord) : List Char :=
  httpsFront ++
    (if record.username = [] ∧ record.password = [] then []
      else record.username ++
        (if record.password = [] then [] else ':' :: record.password) ++ ['@']) ++
    record.host ++
    (match record.port with
      | none => []
      | some port => ':' :: (toString port).toList) ++
    record.pathname ++
    (match record.query with
      | none => []
      | some query => '?' :: query) ++
    match record.fragment with
      | none => []
      | some fragment => '#' :: fragment

end UrlRecord

end Codenaut.Frontend
