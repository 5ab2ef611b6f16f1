import ColorTheme.Uri.Host
import ColorTheme.Uri.Path

/-!
# Names of documents

Editors name documents by URIs.  Two spellings of one URI name the same document, so names are
brought to a normal form: scheme and host in their plain spelling, the usual port left out, dots
in the path worked out, and characters that may not stand for themselves escaped.

* `Uri.ofString?` reads a name; a text without a scheme, or with an impossible host, is none.
-/

set_option autoImplicit false

namespace ColorTheme

/-- A name in normal form, and the path in it. -/
structure Uri where
  text : String
  path : String
deriving Repr, DecidableEq

namespace Uri

/-! ## Schemes -/

/-- The scheme of files on a disk. -/
def fileScheme : String := "file"

/-- Schemes whose names always have a host and a path, with the ports usual for them. -/
def hostedSchemes : List (String × Option Nat) :=
  [("http", some 80), ("https", some 443), ("ws", some 80), ("wss", some 443), ("ftp", some 21),
    (fileScheme, none)]

/-- Names of the scheme always have a host and a path. -/
def isHosted (scheme : String) : Bool := (hostedSchemes.lookup scheme).isSome

/-- The port that is usual for the scheme. -/
def usualPort? (scheme : String) : Option Nat := (hostedSchemes.lookup scheme).getD none

/-- Characters of a scheme behind the first. -/
def isSchemeChar (c : Char) : Bool := c.isAlphanum || c == '+' || c == '-' || c == '.'

/-! ## Users, hosts and ports -/

/-- What stands before and from the first character `mark` on. -/
def cut (mark : Char) (cs : List Char) : List Char × List Char :=
  (cs.takeWhile (· != mark), cs.dropWhile (· != mark))

/-- The user before the last `@`, if there is one, and what stands behind it. -/
def splitUser (cs : List Char) : Option (List Char) × List Char :=
  let behind := (cs.reverse.takeWhile (· != '@')).reverse
  match cs.reverse.dropWhile (· != '@') with
  | [] => (none, behind)
  | _ :: before => (some before.reverse, behind)

/-- A user with a password, of which either may be missing. -/
def userText (user : List Char) : List Char :=
  let (name, password) := cut ':' user
  let shown := escapeAll userEscapes name ++
    if password.length < 2 then [] else ':' :: escapeAll userEscapes (password.drop 1)
  if shown.isEmpty then [] else shown ++ ['@']

/-- The host before the first colon that is not `inside` brackets, and the rest. -/
def splitHost (inside : Bool) : List Char → List Char × List Char
  | [] => ([], [])
  | c :: cs =>
    if c == ':' && !inside then ([], c :: cs)
    else
      let (host, rest) := splitHost (c == '[' || (inside && c != ']')) cs
      (c :: host, rest)

/-- The greatest port. -/
def greatestPort : Nat := 65535

/-- The port behind a colon, with the colon, unless it is the usual one, and what follows it. -/
def port? (usual : Option Nat) : List Char → Option (List Char × List Char)
  | ':' :: cs =>
    let (digits, rest) := (cs.takeWhile Char.isDigit, cs.dropWhile Char.isDigit)
    (Address.ofDigits? 10 digits).bind fun port =>
      if greatestPort < port ∨ !rest.head?.all (· == '\\') then none
      else if digits.isEmpty ∨ usual = some port then some ([], rest)
      else some (':' :: Nat.toDigits 10 port, rest)
  | rest => some ([], rest)

/-- The text of an authority of the scheme, and what of it already belongs to the path.  With
`alone` nothing follows the authority in the name. -/
def authority? (scheme : String) (alone : Bool) (cs : List Char) :
    Option (List Char × List Char) :=
  let (user, rest) := splitUser cs
  let (host, port) := splitHost false rest
  let shown := userText (user.getD [])
  if host.isEmpty then
    if isHosted scheme || !port.isEmpty || !shown.isEmpty || (user == some [] && !alone) then none
    else some ([], [])
  else
    (if isHosted scheme then Host.ofText? host else Host.ofOpaque? host).bind fun host =>
      (port? (usualPort? scheme) port).map fun (port, rest) => (shown ++ host.text ++ port, rest)

/-! ## Where a document is -/

/-- The parts of a name between its scheme and its query. -/
structure Location where
  authority : List Char
  path : List Char

/-- The slashes before an authority. -/
def slashes : List Char := ['/', '/']

/-- The text of a path on a disk, which has no empty segments at the beginning. -/
def diskPathText (segments : List (List Char)) : List Char :=
  pathText (segments.dropWhile List.isEmpty)

/-- The location with the given segments on the local disk. -/
def Location.onDisk (segments : List (List Char)) : Location :=
  ⟨slashes, diskPathText (resolveFile segments)⟩

/-- The location that follows the scheme of files.  A host with the letter of a drive behind it
does not count, and one that looks like such a letter is none. -/
def Location.ofFile? : List Char → Option Location
  | '/' :: '/' :: rest =>
    let (host, path) := cut '/' rest
    if isDrive host then some (onDisk (fields '/' rest))
    else if host.isEmpty then some (onDisk (fields '/' path))
    else
      (Host.ofText? host).map fun host =>
        let segments := resolveFile (fields '/' (path.drop 1))
        if host = .name "localhost".toList then onDisk (fields '/' path)
        else
          ⟨if segments.head?.any isDrive then slashes else slashes ++ host.text,
            diskPathText segments⟩
  | '/' :: rest => some (onDisk (fields '/' rest))
  | rest => some (onDisk (fields '/' rest))

/-- The location that follows slashes and begins with an authority. -/
def Location.ofAuthority? (scheme : String) (alone : Bool) (cs : List Char) : Option Location :=
  let (authority, path) := cut '/' cs
  (authority? scheme (alone && path.isEmpty) authority).map fun (authority, rest) =>
    let path :=
      if rest.isEmpty && path.isEmpty && !isHosted scheme then []
      else
        let segments := if rest.isEmpty then path.drop 1 else rest ++ path
        pathText (resolve (fields '/' segments))
    ⟨slashes ++ authority, path⟩

/-- The location without an authority.  A path that begins with two slashes is kept apart from
one by a dot. -/
def Location.ofPath (cs : List Char) : Location :=
  match cs with
  | '/' :: rest =>
    let path := pathText (resolve (fields '/' rest))
    ⟨if slashes.isPrefixOf path then ['/', '.'] else [], path⟩
  | _ => ⟨[], escapeAll [] cs⟩

/-- The location that follows a scheme.  With `alone` nothing follows the location. -/
def Location.of? (scheme : String) (alone : Bool) (cs : List Char) : Option Location :=
  if isHosted scheme then
    let cs := cs.map fun c => if c == '\\' then '/' else c
    if scheme = fileScheme then ofFile? cs
    else ofAuthority? scheme alone (cs.dropWhile (· == '/'))
  else if slashes.isPrefixOf cs then ofAuthority? scheme alone (cs.drop slashes.length)
  else some (ofPath cs)

/-! ## Names -/

/-- Controls and the plain space. -/
def isControlOrSpace (c : Char) : Bool := decide (c.toNat ≤ 32)

/-- A text without controls and spaces at its ends, and without tabs and line ends. -/
def clean (cs : List Char) : List Char :=
  let inner := ((cs.dropWhile isControlOrSpace).reverse.dropWhile isControlOrSpace).reverse
  inner.filter fun c => c != '\t' && c != '\n' && c != '\r'

/-- The name that a text stands for. -/
def ofString? (text : String) : Option Uri :=
  let (schemeChars, rest) := cut ':' (clean text.toList)
  match schemeChars, rest with
  | first :: more, ':' :: rest =>
    if first.isAlpha && more.all isSchemeChar then
      let scheme := String.ofList (schemeChars.map Char.toLower)
      let (rest, fragment) := cut '#' rest
      let (rest, query) := cut '?' rest
      let escapes := if isHosted scheme then '\'' :: queryEscapes else queryEscapes
      (Location.of? scheme (query.isEmpty && fragment.isEmpty) rest).map fun location =>
        { text := scheme ++ ":" ++ String.ofList (location.authority ++ location.path ++
            escapeAll escapes query ++ fragment.take 1 ++
            escapeAll fragmentEscapes (fragment.drop 1))
          path := String.ofList location.path }
    else none
  | _, _ => none

end Uri

end ColorTheme
