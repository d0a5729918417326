import ScriptHost.Url.Host
/-!
# Addresses

An address has a scheme and, behind it, perhaps an authority, a path, a query and a fragment.  A
path is a list of segments, or plain text if no slash follows the scheme; a plain address has
nothing another one could be relative to.  Reading an address settles its form: case, dots, escapes
and the usual numbers of ports are gone from it.
-/

set_option autoImplicit false

namespace ScriptHost

/-- The path of a URL: segments, or a text that cannot be divided. -/
inductive UrlPath where
  | plain (text : String)
  | segments (names : List String)
deriving DecidableEq, Repr

/-- Whom a URL turns to. -/
structure UrlAuthority where
  user : String := ""
  password : String := ""
  host : UrlHost := .name ""
  port : Option Nat := none
deriving DecidableEq, Repr

/-- A URL in its parts. -/
structure Url where
  scheme : String
  authority : Option UrlAuthority := none
  path : UrlPath
  query : Option String := none
  fragment : Option String := none
deriving DecidableEq, Repr

/-! ## Writing -/

/-- The path as it is written. -/
def UrlPath.text : UrlPath → String
  | plain text => text
  | segments names => String.join (names.map ("/" ++ ·))

namespace UrlAuthority

/-- The user in front of the host, as it is written. -/
def userText (a : UrlAuthority) : String :=
  if a.user = "" ∧ a.password = "" then ""
  else a.user ++ (if a.password = "" then "" else ":" ++ a.password) ++ "@"

/-- The authority as it is written, without the slashes in front of it. -/
def text (a : UrlAuthority) : String :=
  a.userText ++ a.host.text ++ (match a.port with | some p => ":" ++ toString p | none => "")

end UrlAuthority

namespace Url

/-- What stands between scheme and path.  Without an authority a path that starts with two slashes
needs a dot in front of it. -/
def authorityText (u : Url) : String :=
  match u.authority, u.path with
  | some a, _ => "//" ++ a.text
  | none, .segments ("" :: _ :: _) => "/."
  | none, _ => ""

/-- The URL as it is written. -/
def text (u : Url) : String :=
  u.scheme ++ ":" ++ u.authorityText ++ u.path.text ++ (u.query.elim "" ("?" ++ ·)) ++
    (u.fragment.elim "" ("#" ++ ·))

/-! ## Schemes -/

/-- What an address looks like behind its scheme: a file has a path on a host, the schemes of the
web have a host and an optional port, and nothing is known of the others. -/
inductive Family where
  | file
  | web
  | other
deriving DecidableEq, Repr

/-- The port of a scheme that need not be written. -/
def usualPort? (scheme : String) : Option Nat :=
  [("http", 80), ("https", 443), ("ws", 80), ("wss", 443), ("ftp", 21)].lookup scheme

/-- The family of a scheme. -/
def Family.ofScheme (scheme : String) : Family :=
  if scheme = "file" then .file else if (usualPort? scheme).isSome then .web else .other

/-- Whether a character separates segments. -/
def Family.isSlash (f : Family) (c : Char) : Bool := c = '/' || (f ≠ .other && c = '\\')

/-- Whether the query or the fragment begins with a character. -/
def isTail (c : Char) : Bool := c = '?' || c = '#'

/-- The scheme in lower case, and what follows its colon. -/
def scheme? (cs : List Char) : Option (String × List Char) :=
  match cs, Text.splitFirst (· == ':') cs with
  | c :: _, some (scheme, rest) =>
    if c.isAlpha && scheme.all (fun c => c.isAlphanum || c = '+' || c = '-' || c = '.') then
      some (Text.lower (String.ofList scheme), rest)
    else none
  | _, _ => none

/-! ## Query and fragment -/

/-- Sets query and fragment from what follows the path. -/
def withTail (u : Url) : List Char → Url
  | '?' :: rest =>
    let marks := if Family.ofScheme u.scheme = .other then queryMarks else queryMarks ++ ['\'']
    match Text.splitFirst (· == '#') rest with
    | some (query, fragment) =>
      { u with
        query := some (escape marks query)
        fragment := some (escape fragmentMarks fragment) }
    | none => { u with query := some (escape marks rest), fragment := none }
  | '#' :: rest => { u with query := none, fragment := some (escape fragmentMarks rest) }
  | _ => { u with query := none, fragment := none }

/-! ## Paths -/

/-- Whether a segment stands for the place that it is in. -/
def isDot (cs : List Char) : Bool := [".", "%2e"].contains (Text.lower (String.ofList cs))

/-- Whether a segment stands for the place above. -/
def isDoubleDot (cs : List Char) : Bool :=
  ["..", "%2e.", ".%2e", "%2e%2e"].contains (Text.lower (String.ofList cs))

/-- A letter and a colon, or a bar in its place, name a drive. -/
def isDrive : List Char → Bool
  | [c, d] => c.isAlpha && (d = ':' || d = '|')
  | _ => false

/-- The path without its last segment, which stays if it names a drive. -/
def back (done : List String) : List String :=
  match done.getLast? with
  | some s => if isDrive s.toList then done else done.dropLast
  | none => []

/-- The path with further segments behind those that are done. -/
def walk (f : Family) (done : List String) : List (List Char) → List String
  | [] => done
  | s :: rest =>
    if isDoubleDot s then
      if rest.isEmpty then back done ++ [""] else walk f (back done) rest
    else if isDot s then
      if rest.isEmpty then done ++ [""] else walk f done rest
    else
      let name :=
        if f = .file ∧ done = [] ∧ isDrive s then String.ofList (s.take 1 ++ [':'])
        else escape pathMarks s
      walk f (done ++ [name]) rest

/-- A file has no empty segments at the start of its path. -/
def trimSegments (f : Family) (segments : List String) : List String :=
  if f = .file then
    match segments.dropWhile (· = "") with
    | [] => [""]
    | s :: rest => s :: rest
  else segments

/-- A path behind the segments `done`. -/
def pathBehind (f : Family) (done : List String) (cs : List Char) : UrlPath :=
  .segments (trimSegments f (walk f done (Text.cut f.isSlash cs)))

/-- A path behind an authority: it starts with a slash unless it is empty, and the known schemes
have no empty path. -/
def pathOf (f : Family) : List Char → UrlPath
  | [] => if f = .other then .segments [] else .segments [""]
  | c :: rest => if f.isSlash c then pathBehind f [] rest else pathBehind f [] (c :: rest)

/-- Whether a segment ends in front of a character. -/
def endsPath (f : Family) (c : Char) : Bool := f.isSlash c || isTail c

/-! ## Authorities -/

/-- User and password before the last at sign, and what follows it. -/
def readUser (f : Family) (cs : List Char) : Except UrlFault (UrlAuthority × List Char) :=
  let inside := cs.takeWhile (!endsPath f ·)
  let behind := cs.drop inside.length
  match Text.splitFirst (· == '@') inside.reverse with
  | none => .ok ({}, cs)
  | some (host, []) =>
    if host.isEmpty && !behind.isEmpty then .error .emptyHost
    else .ok ({}, host.reverse ++ behind)
  | some (host, info) =>
    let (user, password) := (Text.splitFirst (· == ':') info.reverse).getD (info.reverse, [])
    .ok ({ user := escape userMarks user, password := escape userMarks password },
      host.reverse ++ behind)

/-- The text of a host reaches to a colon outside of brackets or to the end of the authority. -/
def hostText (f : Family) (inBrackets : Bool) : List Char → List Char
  | [] => []
  | c :: rest =>
    if endsPath f c || (c = ':' && !inBrackets) then []
    else c :: hostText f (c = '[' || (inBrackets && c ≠ ']')) rest

/-- A port and what follows it; no digits are no port. -/
def readPort (cs : List Char) : Except UrlFault (Option Nat × List Char) :=
  let digits := cs.takeWhile Char.isDigit
  let rest := cs.drop digits.length
  let port := digits.foldl (fun n c => n * 10 + (c.toNat - '0'.toNat)) 0
  if 65535 < port then .error .badPort
  else
    match rest with
    | c :: _ =>
      if endsPath .web c then .ok (if digits.isEmpty then none else some port, rest)
      else .error .badPort
    | [] => .ok (if digits.isEmpty then none else some port, [])

/-- Reads an address from behind the two slashes. -/
def readAuthority (f : Family) (scheme : String) (cs : List Char) : Except UrlFault Url := do
  let (authority, cs) ← readUser f cs
  let host := hostText f false cs
  let cs := cs.drop host.length
  if f = .web && host.isEmpty then .error .emptyHost
  let host ← if f = .other then UrlHost.readPlain host else UrlHost.read host
  let (port, cs) ← match cs with
    | ':' :: rest => if host = .name "" then .error .emptyHost else readPort rest
    | _ => .ok (none, cs)
  if host = .name "" ∧ authority.userText ≠ "" then .error .emptyHost
  let path := cs.takeWhile (!isTail ·)
  let port := if port = usualPort? scheme then none else port
  .ok (withTail { scheme, authority := some { authority with host, port }, path := pathOf f path }
    (cs.drop path.length))

/-! ## Files -/

/-- Whether a text starts with a segment that names a drive. -/
def startsWithDrive (cs : List Char) : Bool :=
  isDrive (cs.take 2) && ((cs.drop 2).head?.all (endsPath .file))

/-- A file on a host, from the segments `done` of its path. -/
def fileAt (host : UrlHost) (done : List String) (cs : List Char) : Url :=
  let path := cs.takeWhile (!isTail ·)
  withTail { scheme := "file", authority := some { host }, path := pathBehind .file done path }
    (cs.drop path.length)

/-- A file from behind the two slashes.  This host has no name, and a drive is always on this
host. -/
def readFileHost (cs : List Char) : Except UrlFault Url := do
  let text := cs.takeWhile (!endsPath .file ·)
  if isDrive text then .ok (fileAt (.name "") [] cs)
  else
    let host ← if text.isEmpty then .ok (.name "") else UrlHost.read text
    let rest := cs.drop text.length
    let rest := match rest with
      | c :: behind => if isTail c then rest else behind
      | [] => []
    .ok (fileAt (if host = .name "localhost" ∨ startsWithDrive rest then .name "" else host)
      [] rest)

/-- A file, relative to another one if there is one. -/
def readFile (base : Option Url) (cs : List Char) : Except UrlFault Url :=
  let host := match base with
    | some { authority := some a, .. } => a.host
    | _ => .name ""
  let names := match base with
    | some { path := .segments names, .. } => names
    | _ => []
  match cs with
  | c :: rest =>
    if Family.file.isSlash c then
      if rest.head?.any Family.file.isSlash then readFileHost rest.tail
      else if startsWithDrive rest then .ok (fileAt (.name "") [] rest)
      else
        match names.head?.filter (isDrive ·.toList) with
        | some drive => .ok (fileAt (.name "") [drive] rest)
        | none => .ok (fileAt host [] rest)
    else
      match base with
      | some u =>
        if isTail c then
          .ok (if c = '?' then withTail u cs else { u with fragment := (withTail u cs).fragment })
        else if startsWithDrive cs then .ok (fileAt (.name "") [] cs)
        else .ok (fileAt host (back names) cs)
      | none => .ok (fileAt (.name "") [] cs)
  | [] => .ok ((base.map ({ · with fragment := none })).getD (fileAt (.name "") [] []))

/-! ## Reading -/

/-- The characters of an address: control characters and blanks around it and line ends and tabs
inside do not count. -/
def significant (text : String) : List Char :=
  let outside (c : Char) : Bool := c.toNat ≤ 0x20
  ((text.toList.dropWhile outside).reverse.dropWhile outside).reverse.filter fun c =>
    c ≠ '\t' ∧ c ≠ '\n' ∧ c ≠ '\r'

/-- Reads an address from behind its scheme. -/
def readBehind (scheme : String) (cs : List Char) : Except UrlFault Url :=
  match Family.ofScheme scheme with
  | .file => readFile none cs
  | .web => readAuthority .web scheme (cs.dropWhile Family.web.isSlash)
  | .other =>
    let path := cs.takeWhile (!isTail ·)
    let tail := cs.drop path.length
    match path with
    | '/' :: '/' :: _ => readAuthority .other scheme (cs.drop 2)
    | '/' :: rest => .ok (withTail { scheme, path := pathBehind .other [] rest } tail)
    | _ => .ok (withTail { scheme, path := .plain (escape [] path) } tail)

/-- Reads a URL that stands for itself. -/
def parse (text : String) : Except UrlFault Url :=
  match scheme? (significant text) with
  | some (scheme, rest) => readBehind scheme rest
  | none => .error .relativeWithoutBase

/-- Reads what follows another address with a host. -/
def readRelative (base : Url) (names : List String) (cs : List Char) : Except UrlFault Url :=
  let f := Family.ofScheme base.scheme
  let behind (done : List String) (cs : List Char) : Url :=
    let path := cs.takeWhile (!isTail ·)
    withTail { base with path := pathBehind f done path } (cs.drop path.length)
  match cs with
  | [] => .ok { base with fragment := none }
  | '/' :: '/' :: rest => readAuthority f base.scheme rest
  | c :: rest =>
    if c = '?' then .ok (withTail base cs)
    else if Family.web.isSlash c then
      if rest.head?.any Family.web.isSlash then
        readAuthority f base.scheme (rest.dropWhile Family.web.isSlash)
      else .ok (behind [] rest)
    else .ok (behind names.dropLast cs)

/-- The address that a text means at another address. -/
def join (base : Url) (text : String) : Except UrlFault Url :=
  let cs := significant text
  match scheme? cs, cs, base.path with
  | some (scheme, rest), _, _ => readBehind scheme rest
  | none, '#' :: rest, _ => .ok { base with fragment := some (escape fragmentMarks rest) }
  | none, _, .plain _ => .error .relativeToPlain
  | none, _, .segments names =>
    if base.scheme = "file" then readFile (some base) cs else readRelative base names cs

end Url

end ScriptHost
