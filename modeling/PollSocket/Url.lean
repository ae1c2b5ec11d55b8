import PollSocket.Text.Hex
import PollSocket.Text.Quoted
import PollSocket.Text.Utf8

set_option autoImplicit false

/-!
# Addresses

An address is split into a scheme, an authority, a path, a query and a fragment. Escapes of the form
`%41` stand for bytes. The parts are kept as the bytes they stand for; path and fragment also as they
were written, because an address is printed as it was read wherever that is a proper way to write
it.
-/

namespace PollSocket

/-- Credentials in an address. -/
structure UserInfo where
  name : List UInt8
  password : Option (List UInt8)
  deriving DecidableEq, Inhabited

/-- An address. -/
structure Url where
  scheme : String
  /-- What follows the scheme of an address that has neither authority nor rooted path. -/
  rootless : List UInt8
  user : Option UserInfo
  host : List UInt8
  path : List UInt8
  /-- The path as written, if that differs from its usual escaping. -/
  rawPath : List UInt8
  /-- A rooted path follows the scheme directly. -/
  omitHost : Bool
  /-- A question mark without a query. -/
  forceQuery : Bool
  query : List UInt8
  fragment : List UInt8
  /-- The fragment as written, if that differs from its usual escaping. -/
  rawFragment : List UInt8
  deriving DecidableEq, Inhabited

namespace Url

/-- An address with nothing in it. -/
def empty : Url := ⟨"", [], none, [], [], [], false, false, [], [], []⟩

/-- What is wrong with an address. -/
inductive Fault where
  | control
  | noScheme
  | colonInSegment
  | escape (text : List UInt8)
  | hostChar (text : List UInt8)
  | bracket
  | port (text : List UInt8)
  | literal (cause : String)
  | user
  deriving DecidableEq, Inhabited

/-- Wording of a fault. -/
def Fault.message : Fault → String
  | .control => "net/url: invalid control character in URL"
  | .noScheme => "missing protocol scheme"
  | .colonInSegment => "first path segment in URL cannot contain colon"
  | .escape text => "invalid URL escape " ++ Text.quote (Text.ofBytes text)
  | .hostChar text => "invalid character " ++ Text.quote (Text.ofBytes text) ++ " in host name"
  | .bracket => "missing ']' in host"
  | .port text => "invalid port " ++ Text.quote (Text.ofBytes text) ++ " after host"
  | .literal cause => cause
  | .user => "net/url: invalid userinfo"

/-! ## Escapes -/

/-- Part of an address; the parts differ in what they escape. -/
inductive Part where
  | path
  | user
  | host
  | zone
  | fragment
  deriving DecidableEq, Inhabited

/-- The byte is the given ASCII character. -/
def isAscii (b : UInt8) (c : Char) : Bool := b.toNat == c.toNat

/-- The byte is one of the ASCII characters of a text. -/
def isAmong (b : UInt8) (s : String) : Bool := s.toList.any (isAscii b)

/-- The byte is an ASCII letter or digit. -/
def isAlphanum (b : UInt8) : Bool :=
  (0x30 ≤ b && b ≤ 0x39) || (0x41 ≤ b && b ≤ 0x5A) || (0x61 ≤ b && b ≤ 0x7A)

/-- The byte has to be escaped in a part. -/
def mustEscape (part : Part) (b : UInt8) : Bool :=
  if isAlphanum b then false
  else if (part = .host || part = .zone) && isAmong b "!$&'()*+,;=:[]<>\"" then false
  else if isAmong b "-_.~" then false
  else if isAmong b "$&+,/:;=?@" then
    match part with
    | .path => isAscii b '?'
    | .user => isAmong b "@/?:"
    | .fragment => false
    | _ => true
  else if part = .fragment && isAmong b "!()*" then false
  else true

/-- Bytes with those escaped that have to be. -/
def escape (part : Part) (bytes : List UInt8) : List UInt8 :=
  bytes.flatMap fun b =>
    if mustEscape part b then
      0x25 :: (Text.encode (String.ofList
        [Text.upperHexDigit (b.toNat / 16), Text.upperHexDigit (b.toNat % 16)]))
    else [b]

/-- Value of a hexadecimal digit. -/
def hex? (b : UInt8) : Option Nat := if b < 0x80 then Text.hexValue? (Char.ofNat b.toNat) else none

/-- The escape of a byte may stand in a part. In a host only bytes outside ASCII and the percent
sign are escaped; in a zone also what may stand there unescaped, and a space. -/
def escapeAllowed (part : Part) (v : Nat) : Bool :=
  match part with
  | .host => 0x80 ≤ v || v == 0x25
  | .zone => v == 0x25 || v == 0x20 || !mustEscape .host (UInt8.ofNat v)
  | _ => true

/-- Bytes that a written part stands for. -/
def unescape (part : Part) : List UInt8 → Except Fault (List UInt8)
  | [] => .ok []
  | 0x25 :: rest =>
    match rest with
    | a :: b :: more =>
      match hex? a, hex? b with
      | some h, some l =>
        if escapeAllowed part (h * 16 + l) then do
          let tail ← unescape part more
          .ok (UInt8.ofNat (h * 16 + l) :: tail)
        else .error (.escape [0x25, a, b])
      | _, _ => .error (.escape [0x25, a, b])
    | short => .error (.escape (0x25 :: short))
  | b :: rest =>
    if (part = .host || part = .zone) && b < 0x80 && mustEscape part b then
      .error (.hostChar [b])
    else do
      let tail ← unescape part rest
      .ok (b :: tail)

/-- The text is a proper way to write a part. -/
def isEscaped (part : Part) (bytes : List UInt8) : Bool :=
  bytes.all fun b => isAmong b "!$&'()*+,;=:@[]%" || !mustEscape part b

/-! ## Hosts -/

/-- A colon and digits, or nothing. -/
def isPort : List UInt8 → Bool
  | [] => true
  | c :: ds => isAscii c ':' && ds.all fun d => 0x30 ≤ d && d ≤ 0x39

/-- Bytes up to the last one that satisfies a test, and from it on. -/
def splitLast (test : UInt8 → Bool) (bytes : List UInt8) : Option (List UInt8 × List UInt8) :=
  let tail := bytes.reverse.takeWhile fun b => !test b
  if tail.length = bytes.length then none
  else
    let n := bytes.length - tail.length - 1
    some (bytes.take n, bytes.drop n)

/-- Bytes up to the first one that satisfies a test, and behind it. -/
def splitFirst (test : UInt8 → Bool) (bytes : List UInt8) : List UInt8 × Option (List UInt8) :=
  match bytes.dropWhile fun b => !test b with
  | [] => (bytes, none)
  | _ :: rest => (bytes.takeWhile fun b => !test b, some rest)

/-- One of the four numbers of an address of version 4. -/
def isOctet (ds : List UInt8) : Bool :=
  let value := ds.foldl (fun n d => n * 10 + (d.toNat - 48)) 0
  1 ≤ ds.length && ds.length ≤ 3 && ds.all (fun d => 0x30 ≤ d && d ≤ 0x39) && value ≤ 255 &&
    (ds.length == 1 || ds.head? != some 0x30)

/-- Pieces of a text between separators. -/
def pieces (sep : UInt8) (bytes : List UInt8) : List (List UInt8) :=
  bytes.foldr (fun b acc =>
    if b == sep then [] :: acc
    else
      match acc with
      | p :: rest => (b :: p) :: rest
      | [] => [[b]]) [[]]

/-- An address of version 4. -/
def isVersion4 (bytes : List UInt8) : Bool :=
  let ps := pieces 0x2E bytes
  ps.length == 4 && ps.all isOctet

/-- A group of an address of version 6. -/
def isGroup (bytes : List UInt8) : Bool :=
  1 ≤ bytes.length && bytes.length ≤ 4 && bytes.all fun b => (hex? b).isSome

/-- Number of groups that a sequence of them has; an address of version 4 may end it. -/
def groups? (bytes : List UInt8) : Option Nat :=
  if bytes.isEmpty then some 0
  else
    let ps := pieces 0x3A bytes
    let last := ps.getLast?.getD []
    if ps.dropLast.all isGroup then
      if isGroup last then some ps.length
      else if isVersion4 last then some (ps.length + 1)
      else none
    else none

/-- The first pair of colons, as what lies in front of it and behind it. -/
def doubleColon? : List UInt8 → Option (List UInt8 × List UInt8)
  | 0x3A :: 0x3A :: rest => some ([], rest)
  | b :: rest => (doubleColon? rest).map fun (front, back) => (b :: front, back)
  | [] => none

/-- An address of version 6, perhaps with a zone that is not empty. -/
def isVersion6 (bytes : List UInt8) : Bool :=
  let (digits, zone) := splitFirst (· == 0x25) bytes
  zone != some [] && digits.contains 0x3A &&
    match doubleColon? digits with
    | none => groups? digits == some 8
    | some (front, back) =>
      match groups? front, groups? back with
      | some m, some n =>
        m + n ≤ 7 && !(front.contains 0x2E) && back.head? != some 0x3A
      | _, _ => false

/-- The part of a bracketed host from the mark of its zone on. -/
def zoneAt : List UInt8 → List UInt8 × List UInt8
  | 0x25 :: 0x32 :: 0x35 :: rest => ([], 0x25 :: 0x32 :: 0x35 :: rest)
  | b :: rest => let (front, back) := zoneAt rest; (b :: front, back)
  | [] => ([], [])

/-- The host that an authority names. -/
def hostOf (bytes : List UInt8) : Except Fault (List UInt8) :=
  match splitLast (isAscii · '[') bytes with
  | some (front, opened) =>
    if !front.isEmpty then .error (.literal "invalid IP-literal")
    else
      match splitLast (isAscii · ']') opened with
      | none => .error .bracket
      | some (inside, closed) => do
        let port := closed.drop 1
        if !isPort port then .error (.port port)
        let (address, zone) := zoneAt (inside.drop 1)
        let address ← unescape .host address
        let zone ← unescape .zone zone
        let name := address ++ zone
        if isVersion6 name then .ok (0x5B :: name ++ 0x5D :: port)
        else .error (.literal "invalid IP-literal")
  | none =>
    match splitLast (isAscii · ':') bytes with
    | some (_, port) => if isPort port then unescape .host bytes else .error (.port port)
    | none => unescape .host bytes

/-- A character that credentials may hold. -/
def isUserByte (b : UInt8) : Bool := isAlphanum b || isAmong b "-._:~!$&'()*+,;=%@"

/-- Credentials and host of an authority. -/
def authority (bytes : List UInt8) : Except Fault (Option UserInfo × List UInt8) :=
  match splitLast (isAscii · '@') bytes with
  | none => do
    let h ← hostOf bytes
    .ok (none, h)
  | some (info, rest) => do
    let h ← hostOf (rest.drop 1)
    if !info.all isUserByte then .error .user
    match splitFirst (isAscii · ':') info with
    | (name, none) => do
      let name ← unescape .user name
      .ok (some ⟨name, none⟩, h)
    | (name, some password) => do
      let name ← unescape .user name
      let password ← unescape .user password
      .ok (some ⟨name, some password⟩, h)

/-! ## Reading -/

/-- The scheme in front of a colon, in small letters, and what follows it. -/
def splitScheme (bytes : List UInt8) : Except Fault (String × List UInt8) :=
  let isLetter := fun b : UInt8 => (0x41 ≤ b && b ≤ 0x5A) || (0x61 ≤ b && b ≤ 0x7A)
  let name := bytes.takeWhile fun b => isAlphanum b || isAmong b "+-."
  match bytes.drop name.length with
  | 0x3A :: rest =>
    match name with
    | [] => .error .noScheme
    | b :: _ =>
      if isLetter b then
        .ok (String.ofList ((Text.ofBytes name).toList.map Char.toLower), rest)
      else .ok ("", bytes)
  | _ => .ok ("", bytes)

/-- With a path. -/
def withPath (u : Url) (written : List UInt8) : Except Fault Url := do
  let path ← unescape .path written
  .ok { u with path, rawPath := if escape .path path == written then [] else written }

/-- With a fragment. -/
def withFragment (u : Url) (written : List UInt8) : Except Fault Url := do
  let fragment ← unescape .fragment written
  .ok { u with
    fragment, rawFragment := if escape .fragment fragment == written then [] else written }

/-- An address without fragment. -/
def parseBody (bytes : List UInt8) : Except Fault Url := do
  if bytes.any fun b => b < 0x20 || b == 0x7F then .error .control
  if bytes == [0x2A] then return { empty with path := bytes }
  let (scheme, rest) ← splitScheme bytes
  let marks := (rest.filter (isAscii · '?')).length
  let (rest, query, forceQuery) :=
    if marks == 1 && rest.getLast? == some 0x3F then (rest.dropLast, [], true)
    else
      let (front, query) := splitFirst (isAscii · '?') rest
      (front, query.getD [], false)
  let u := { empty with scheme, query, forceQuery }
  let rooted := rest.head? == some 0x2F
  if !rooted && scheme != "" then return { u with rootless := rest }
  if !rooted && ((splitFirst (isAscii · '/') rest).1).contains 0x3A then .error .colonInSegment
  match rest with
  | 0x2F :: 0x2F :: more =>
    if scheme == "" && more.head? == some 0x2F then u.withPath rest
    else
      let name := more.takeWhile fun b => !isAscii b '/'
      let (user, host) ← authority name
      withPath { u with user, host } (more.drop name.length)
  | _ => withPath { u with omitHost := scheme != "" } rest

/-- An address with the given text. -/
def parse (s : String) : Except Fault Url :=
  let (front, fragment) := splitFirst (isAscii · '#') (Text.encode s)
  match parseBody front with
  | .error f => .error f
  | .ok u =>
    match fragment with
    | none => .ok u
    | some [] => .ok u
    | some f => u.withFragment f

/-- Wording of a fault in a text. -/
def faultMessage (s : String) (f : Fault) : String :=
  let shown := match parseBody (splitFirst (isAscii · '#') (Text.encode s)).1 with
    | .error _ => (splitFirst (isAscii · '#') (Text.encode s)).1
    | .ok _ => Text.encode s
  "parse " ++ Text.quote (Text.ofBytes shown) ++ ": " ++ f.message

/-! ## Writing -/

/-- The path as it is written. -/
def escapedPath (u : Url) : List UInt8 :=
  if !u.rawPath.isEmpty && isEscaped .path u.rawPath then u.rawPath
  else if u.path == [0x2A] then u.path
  else escape .path u.path

/-- The fragment as it is written. -/
def escapedFragment (u : Url) : List UInt8 :=
  if !u.rawFragment.isEmpty && isEscaped .fragment u.rawFragment then u.rawFragment
  else escape .fragment u.fragment

/-- Credentials as they are written. -/
def UserInfo.text (info : UserInfo) : List UInt8 :=
  match info.password with
  | none => escape .user info.name
  | some p => escape .user info.name ++ 0x3A :: escape .user p

/-- The address as it is written, with the credentials replaced by a text. -/
def textWith (u : Url) (user : Option (List UInt8)) : List UInt8 :=
  let scheme := if u.scheme == "" then [] else Text.encode u.scheme ++ [0x3A]
  let rest :=
    if !u.rootless.isEmpty then u.rootless
    else
      let named := u.scheme != "" || !u.host.isEmpty || u.user.isSome
      let hidden := u.omitHost && u.host.isEmpty && u.user.isNone
      let slashes := !u.host.isEmpty || !u.path.isEmpty || u.user.isSome
      let front :=
        if named && !hidden then
          (if slashes then [0x2F, 0x2F] else []) ++
            (match user with | none => [] | some t => t ++ [0x40]) ++ escape .host u.host
        else []
      let path := u.escapedPath
      let slash := !path.isEmpty && path.head? != some 0x2F && !u.host.isEmpty
      let dot := (scheme ++ front).isEmpty && !slash &&
        ((splitFirst (isAscii · '/') path).1).contains 0x3A
      front ++ (if slash then [0x2F] else []) ++ (if dot then [0x2E, 0x2F] else []) ++ path
  let query := if u.forceQuery || !u.query.isEmpty then 0x3F :: u.query else []
  let fragment := if u.fragment.isEmpty then [] else 0x23 :: u.escapedFragment
  scheme ++ rest ++ query ++ fragment

/-- The address as it is written. -/
def text (u : Url) : String := Text.ofBytes (u.textWith (u.user.map UserInfo.text))

/-- The address with its password hidden. -/
def shown (u : Url) : String :=
  match u.user with
  | some ⟨name, some _⟩ => Text.ofBytes (u.textWith (some (name ++ Text.encode ":***")))
  | _ => u.text

/-- A host without the colon of an empty port. -/
def withoutEmptyPort (host : List UInt8) : List UInt8 :=
  match splitLast (isAscii · ':') host with
  | some (front, [_]) => front
  | _ => host

end Url

end PollSocket
