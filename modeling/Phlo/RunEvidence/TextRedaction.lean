import Phlo.Library.BacktrackingPattern

/-!
# Redaction of credential-bearing text

`redactText` is what `redact_payload` does to a string: `redact_sensitive_text` (URL credentials, key
material, connection strings, key-value pairs, authorization headers) followed by the run-evidence
secret pattern.  The patterns are transcribed from the source and run by the backtracking matcher.

Case folding and white space follow the language's Unicode rules.  `\w` outside ASCII is read as
"not in a block of spaces, punctuation or symbols"; brackets in a URL authority are checked for
pairing only, and a percent escape above ASCII decodes to a replacement character.
-/

namespace Phlo.RunEvidence

open Phlo.Library

/-! ### Character classes -/

/-- `str.isspace`, the class `\s` and the characters `str.strip` removes. -/
def isSpace (c : Char) : Bool :=
  let n := c.toNat
  (9 ≤ n && n ≤ 13) || (28 ≤ n && n ≤ 32) || n == 0x85 || n == 0xa0 || n == 0x1680 ||
    (0x2000 ≤ n && n ≤ 0x200a) || n == 0x2028 || n == 0x2029 || n == 0x202f || n == 0x205f ||
    n == 0x3000

/-- The class `\w`. -/
def isWordChar (c : Char) : Bool :=
  let n := c.toNat
  c.isAlphanum || c == '_' ||
    (0xaa ≤ n && !isSpace c && !(n == 0xab || n == 0xac || n == 0xad || n == 0xae || n == 0xaf ||
      n == 0xb0 || n == 0xb1 || n == 0xb4 || n == 0xb6 || n == 0xb7 || n == 0xb8 || n == 0xbb ||
      n == 0xbf || n == 0xd7 || n == 0xf7 || (0x2000 ≤ n && n ≤ 0x206f) ||
      (0x20a0 ≤ n && n ≤ 0x20ff) || (0x2190 ≤ n && n ≤ 0x245f) || (0x2500 ≤ n && n ≤ 0x2bff) ||
      (0x3001 ≤ n && n ≤ 0x3004) || (0x3008 ≤ n && n ≤ 0x3020) || (0xd800 ≤ n && n ≤ 0xf8ff)))

/-- The lower-case ASCII letter a character is compared as when case is ignored: the long s and the
Kelvin sign fold into ASCII. -/
def foldCase (c : Char) : Char :=
  if c.toNat == 0x17f then 's' else if c.toNat == 0x212a then 'k' else c.toLower

/-- The class `[a-z]` when case is ignored. -/
def isLetterIgnoreCase (c : Char) : Bool :=
  c.isAlpha || c.toNat == 0x130 || c.toNat == 0x131 || c.toNat == 0x17f || c.toNat == 0x212a

/-! ### Pattern fragments -/

def letters (s : String) : Pattern := .seqs (s.toList.map fun c => .char fun x => foldCase x == c)

def oneOf (cs : String) : Pattern := .char fun x => cs.toList.contains x

def spaces : Pattern := .star true (.char isSpace)

def someSpaces : Pattern := .plus true (.char isSpace)

def wordBoundary : Pattern := .boundary isWordChar

/-- `\s*[:=]\s*` -/
def separator : Pattern := .seqs [spaces, oneOf ":=", spaces]

/-- `.+?(?=(?:[,;]\s+\w+\s*[:=])|\n|$)` -/
def upToNextField : Pattern :=
  .seqs [.plus false (.char fun x => x != '\n'),
    .followedBy (.alts
      [.seqs [oneOf ",;", someSpaces, .plus true (.char isWordChar), spaces, oneOf ":="],
       .char fun x => x == '\n', .atEnd])]

/-! ### The patterns of `phlo.exceptions` and `phlo.run_evidence.redaction` -/

def keyValueSensitivePattern : Pattern :=
  .seqs [.notAfter fun x => x == '?' || x == '&', wordBoundary,
    .group (.alts (["password", "passwd", "token", "secret", "api_key", "apikey",
      "credential"].map letters)),
    wordBoundary, separator,
    .plus true (.char fun x => !(isSpace x || x == ',' || x == ';' || x == '&'))]

def authorizationSensitivePattern : Pattern :=
  .seqs [wordBoundary, .group (.alts (["authorization", "bearer"].map letters)), wordBoundary,
    someSpaces, .plus true (.char fun x => !isSpace x)]

def connectionStringSensitivePattern : Pattern :=
  .seqs [wordBoundary, .group (.seqs [letters "connection", someSpaces, letters "string"]),
    wordBoundary, separator, upToNextField]

def keyMaterialSensitivePattern : Pattern :=
  .seqs [wordBoundary,
    .group (.alts (["private_key", "signing_key", "encryption_key"].map letters)),
    wordBoundary, .alts [separator, someSpaces], upToNextField]

def urlPattern : Pattern :=
  .seqs [.char isLetterIgnoreCase,
    .star true (.char fun x => isLetterIgnoreCase x || x.isDigit || x == '+' || x == '.' || x == '-'),
    .char fun x => x == ':', .char fun x => x == '/', .char fun x => x == '/',
    .plus true (.char fun x => !(isSpace x || x == '<' || x == '>' || x == '"' || x == '\''))]

def textSecretPattern : Pattern :=
  .seqs [wordBoundary,
    .group (.alts [letters "password", letters "passwd", letters "token", letters "secret",
      .seqs [letters "client", .opt (oneOf "_-"), letters "secret"], letters "authorization",
      .seqs [letters "api", .opt (oneOf "_-"), letters "key"],
      .seqs [letters "access", .opt (oneOf "_-"), letters "token"],
      .seqs [letters "private", .opt (oneOf "_-"), letters "key"]]),
    separator, .plus true (.char fun x => !(x == '&' || isSpace x || x == '/'))]

/-- The replacement `\1=<redacted>`. -/
def redactedField (_ name : List Char) : List Char := name ++ "=<redacted>".toList

/-- The replacement `\1 <redacted>`. -/
def redactedHeader (_ name : List Char) : List Char := name ++ " <redacted>".toList

/-! ### URLs -/

/-- The parts `urlsplit` returns. -/
structure SplitUrl where
  scheme : List Char
  netloc : List Char
  path : List Char
  query : List Char
  fragment : List Char

/-- `text.partition(c)`: the text before the first `c`, whether there is one, the text after it. -/
def partition (c : Char) (text : List Char) : List Char × Bool × List Char :=
  match text.dropWhile (· != c) with
  | [] => (text, false, [])
  | _ :: tail => (text.takeWhile (· != c), true, tail)

/-- The text behind the last `@`. -/
def afterLastAt (text : List Char) : List Char :=
  (text.reverse.takeWhile (· != '@')).reverse

/-- `text.split(c)` -/
def splitOn (c : Char) (text : List Char) : List (List Char) :=
  text.foldr (fun x acc =>
    match acc with
    | [] => [[x]]
    | part :: parts => if x == c then [] :: part :: parts else (x :: part) :: parts) [[]]

/-- `urlsplit`; `none` is its `ValueError`. -/
def urlsplit (url : List Char) : Option SplitUrl :=
  let (head, found, tail) := partition ':' url
  let isScheme := found && (head.head?.elim false Char.isAlpha) &&
    head.all fun x => x.isAlphanum || x == '+' || x == '-' || x == '.'
  let (scheme, rest) := if isScheme then (head.map Char.toLower, tail) else ([], url)
  let (netloc, rest) := match rest with
    | '/' :: '/' :: rest => rest.span fun x => !(x == '/' || x == '?' || x == '#')
    | _ => ([], rest)
  if netloc.contains '[' != netloc.contains ']' then none
  else
    let (rest, _, fragment) := partition '#' rest
    let (path, _, query) := partition '?' rest
    some ⟨scheme, netloc, path, query, fragment⟩

/-- The host of an authority: what stands behind the last `@`, in brackets or before the port. -/
def hostname (netloc : List Char) : List Char :=
  let hostinfo := afterLastAt netloc
  let (_, bracketed, inner) := partition '[' hostinfo
  if bracketed then (partition ']' inner).1 else (partition ':' hostinfo).1

def hexValue (c : Char) : Option ℕ :=
  if c.isDigit then some (c.toNat - '0'.toNat)
  else if 'a' ≤ c.toLower && c.toLower ≤ 'f' then some (c.toLower.toNat - 'a'.toNat + 10)
  else none

/-- `unquote_plus` -/
def unquotePlus : List Char → List Char
  | '%' :: a :: b :: rest =>
    match hexValue a, hexValue b with
    | some x, some y =>
      let n := 16 * x + y
      (if n < 128 then Char.ofNat n else Char.ofNat 0xfffd) :: unquotePlus rest
    | _, _ => '%' :: unquotePlus (a :: b :: rest)
  | '+' :: rest => ' ' :: unquotePlus rest
  | x :: rest => x :: unquotePlus rest
  | [] => []

def urlSecretQueryKeys : List String :=
  ["token", "access_token", "key", "signature", "password", "passwd", "secret", "sig", "api_key",
    "apikey", "client_secret", "credential"]

def redactParameter (parameter : List Char) : List Char :=
  let (name, separated, value) := partition '=' parameter
  let key := String.ofList ((unquotePlus name).map Char.toLower)
  let secret := separated && (urlSecretQueryKeys.contains key || "x-amz-".toList.isPrefixOf key.toList)
  name ++ (if separated then ['='] else []) ++ if secret then "REDACTED".toList else value

/-- `_redact_url`: credentials are cut out of the authority and blanked in the query; a text that is
no URL with a host is left as it is. -/
def redactUrl (candidate _group : List Char) : List Char :=
  let suffix := (candidate.reverse.takeWhile fun x => ".,;:!?)]\x7d".toList.contains x).reverse
  let url := candidate.take (candidate.length - suffix.length)
  match urlsplit url with
  | none => candidate
  | some parsed =>
    if parsed.netloc.isEmpty || (hostname parsed.netloc).isEmpty then candidate
    else
      let query := (splitOn '&' parsed.query).map redactParameter
      let query := List.intercalate ['&'] query
      parsed.scheme ++ (if parsed.scheme.isEmpty then [] else [':']) ++ ['/', '/'] ++
        afterLastAt parsed.netloc ++ parsed.path ++
        (if query.isEmpty then [] else '?' :: query) ++
        (if parsed.fragment.isEmpty then [] else '#' :: parsed.fragment) ++ suffix

/-! ### The text functions -/

/-- `redact_sensitive_text` -/
def redactSensitiveText (s : List Char) : List Char :=
  let s := replaceAll urlPattern redactUrl s
  let s := replaceAll keyMaterialSensitivePattern redactedField s
  let s := replaceAll connectionStringSensitivePattern redactedField s
  let s := replaceAll keyValueSensitivePattern redactedField s
  replaceAll authorizationSensitivePattern redactedHeader s

/-- What `redact_payload` makes of a string. -/
def redactText (s : String) : String :=
  String.ofList (replaceAll textSecretPattern redactedField (redactSensitiveText s.toList))

example : redactText "token=a" = "token=<redacted>" := by decide +kernel

/-! ### Keys and identifiers -/

/-- `str.lower`, as far as it can produce ASCII letters: the Kelvin sign and the dotted capital I
are the only characters outside ASCII whose lower case contains one. -/
def lower (s : List Char) : List Char :=
  s.flatMap fun c =>
    if c.toNat == 0x212a then ['k']
    else if c.toNat == 0x130 then ['i', Char.ofNat 0x307]
    else [c.toLower]

/-- `str.strip` -/
def strip (s : List Char) : List Char :=
  ((s.dropWhile isSpace).reverse.dropWhile isSpace).reverse

/-- `not value or not value.strip()` -/
def isBlank (s : String) : Bool := s.toList.all isSpace

end Phlo.RunEvidence
