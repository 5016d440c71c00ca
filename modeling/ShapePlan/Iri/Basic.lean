/-
The components of an IRI reference and the grammar of absolute IRIs. `split` cuts a text at its
delimiters whatever else it holds; `isAbsolute` checks that there is a scheme and that each component is
made of the characters it may hold. An empty scheme and a host in stray brackets are cut off as such, and are
then refused.
-/
namespace ShapePlan.Iri

/-! ## Characters -/

def isHex (c : Char) : Bool := c.isDigit || ('a' ≤ c && c ≤ 'f') || ('A' ≤ c && c ≤ 'F')

/-- Characters of the ASCII range that stand for themselves in every component. -/
def isAsciiPlain (c : Char) : Bool := c.isAlphanum || "!$&'()*+,-.;=_~".toList.contains c

/-- Characters beyond the ASCII range that stand for themselves. The last two of a plane never do. -/
def isWide (c : Char) : Bool :=
  let n := c.toNat
  (0xA0 ≤ n && n ≤ 0xD7FF) || (0xF900 ≤ n && n ≤ 0xFDCF) || (0xFDF0 ≤ n && n ≤ 0xFFEF) ||
    (0x10000 ≤ n && n ≤ 0xDFFFD && n % 0x10000 ≤ 0xFFFD) || (0xE1000 ≤ n && n ≤ 0xEFFFD)

def isPlain (c : Char) : Bool := isAsciiPlain c || isWide c

def isPrivate (c : Char) : Bool :=
  let n := c.toNat
  (0xE000 ≤ n && n ≤ 0xF8FF) || (0xF0000 ≤ n && n ≤ 0xFFFFD) || (0x100000 ≤ n && n ≤ 0x10FFFD)

def isUserChar (c : Char) : Bool := isPlain c || c = ':'

def isPathChar (c : Char) : Bool := isPlain c || c = ':' || c = '@' || c = '/'

def isFragmentChar (c : Char) : Bool := isPathChar c || c = '?'

def isQueryChar (c : Char) : Bool := isFragmentChar c || isPrivate c

/-- Every character is allowed, and a percent sign comes with two hexadecimal digits. -/
def wellEncoded (ok : Char → Bool) : List Char → Bool
  | [] => true
  | '%' :: a :: b :: r => isHex a && isHex b && wellEncoded ok r
  | c :: r => ok c && wellEncoded ok r

/-! ## Hosts -/

/-- What follows one to four hexadecimal digits. A fifth digit is refused. -/
def afterGroup? (cs : List Char) : Option (List Char) :=
  let n := (cs.takeWhile isHex).length
  if 1 ≤ n ∧ n ≤ 4 then some (cs.drop n) else none

/-- What follows a decimal number up to 255 without leading zeros. -/
def afterOctet? (cs : List Char) : Option (List Char) :=
  let ds := cs.takeWhile Char.isDigit
  let n := ds.foldl (fun n c => 10 * n + (c.toNat - '0'.toNat)) 0
  if 1 ≤ ds.length ∧ ds.length ≤ 3 ∧ n ≤ 255 ∧ (ds.length = 1 ∨ ds.head? ≠ some '0') then
    some (cs.drop ds.length)
  else none

def afterDot? : List Char → Option (List Char)
  | '.' :: r => some r
  | _ => none

def afterIpv4? (cs : List Char) : Option (List Char) :=
  afterOctet? cs >>= afterDot? >>= afterOctet? >>= afterDot? >>= afterOctet? >>= afterDot? >>= afterOctet?

/-- Reads up to `n` groups: how many were read, whether a dotted address closed them, and what follows. A dotted
address counts as two groups. -/
def groups : Nat → Bool → List Char → Nat × Bool × List Char
  | 0, _, cs => (0, false, cs)
  | n + 1, first, cs =>
    let body := if first then some cs else
      match cs with
      | ':' :: r => some r
      | _ => none
    match body with
    | none => (0, false, cs)
    | some body =>
      match if 1 ≤ n then afterIpv4? body else none with
      | some rest => (2, true, rest)
      | none =>
        match afterGroup? body with
        | none => (0, false, cs)
        | some rest =>
          let (k, dotted, rest) := groups n false rest
          (k + 1, dotted, rest)

/-- Eight groups, or fewer around one double colon. -/
def isIpv6 (cs : List Char) : Bool :=
  let (n, dotted, rest) := groups 8 true cs
  if n = 8 then rest.isEmpty
  else if dotted then false
  else
    match rest with
    | ':' :: ':' :: rest => (groups (7 - n) true rest).2.2.isEmpty
    | _ => false

/-- The form reserved for later address versions. -/
def isFutureIp (cs : List Char) : Bool :=
  let version := (cs.drop 1).takeWhile isHex
  let rest := (cs.drop 1).dropWhile isHex
  !version.isEmpty &&
    match rest with
    | '.' :: r => !r.isEmpty && r.all (fun c => isAsciiPlain c || c = ':')
    | _ => false

def isIpLiteral (cs : List Char) : Bool :=
  match cs.head? with
  | some 'v' => isFutureIp cs
  | some 'V' => isFutureIp cs
  | _ => isIpv6 cs

/-- Nothing, or a colon and digits. -/
def isPort : List Char → Bool
  | [] => true
  | ':' :: r => r.all Char.isDigit
  | _ => false

def isHostPort : List Char → Bool
  | '[' :: r =>
    match r.dropWhile (· ≠ ']') with
    | ']' :: rest => isIpLiteral (r.takeWhile (· ≠ ']')) && isPort rest
    | _ => false
  | cs => wellEncoded isPlain (cs.takeWhile (· ≠ ':')) && isPort (cs.dropWhile (· ≠ ':'))

def isAuthority (cs : List Char) : Bool :=
  match cs.dropWhile (· ≠ '@') with
  | '@' :: host => wellEncoded isUserChar (cs.takeWhile (· ≠ '@')) && isHostPort host
  | _ => isHostPort cs

/-! ## Components -/

structure Parts where
  scheme : Option (List Char)
  authority : Option (List Char)
  path : List Char
  query : Option (List Char)
  fragment : Option (List Char)
deriving DecidableEq, Repr

def isSchemeChar (c : Char) : Bool := c.isAlphanum || c = '+' || c = '-' || c = '.'

/-- The characters that end an authority. -/
def isDelimiter (c : Char) : Bool := c = '/' || c = '?' || c = '#'

/-- The text before the first `c`, and the text after it if there is one. -/
def cut (c : Char) (cs : List Char) : List Char × Option (List Char) :=
  match cs.dropWhile (· ≠ c) with
  | _ :: r => (cs.takeWhile (· ≠ c), some r)
  | [] => (cs, none)

/-- A scheme starts with a letter, or is empty. -/
def cutScheme (cs : List Char) : Option (List Char) × List Char :=
  if cs.head?.any (fun c => c.isAlpha || c = ':') then
    match cs.dropWhile isSchemeChar with
    | ':' :: r => (some (cs.takeWhile isSchemeChar), r)
    | _ => (none, cs)
  else (none, cs)

/-- The user part of an authority with its at sign, and what follows it. -/
def cutUser (cs : List Char) : List Char × List Char :=
  let run (c : Char) : Bool := c ≠ '@' && c ≠ '[' && !isDelimiter c
  match cs.dropWhile run with
  | '@' :: r => (cs.takeWhile run ++ ['@'], r)
  | _ => ([], cs)

/-- A host in brackets and its port. It goes on until a closing bracket has a delimiter or a port behind it. -/
def cutBrackets : List Char → List Char × List Char
  | ']' :: c :: r =>
    if isDelimiter c then ([']'], c :: r)
    else if c = ':' then (']' :: ':' :: r.takeWhile (!isDelimiter ·), r.dropWhile (!isDelimiter ·))
    else
      let (host, rest) := cutBrackets r
      (']' :: c :: host, rest)
  | c :: r =>
    let (host, rest) := cutBrackets r
    (c :: host, rest)
  | [] => ([], [])

def cutHost (cs : List Char) : List Char × List Char :=
  if cs.head? = some '[' then cutBrackets cs
  else (cs.takeWhile (!isDelimiter ·), cs.dropWhile (!isDelimiter ·))

def cutAuthority : List Char → Option (List Char) × List Char
  | '/' :: '/' :: r =>
    let (user, r) := cutUser r
    let (host, r) := cutHost r
    (some (user ++ host), r)
  | cs => (none, cs)

def split (cs : List Char) : Parts :=
  let (scheme, cs) := cutScheme cs
  let (authority, cs) := cutAuthority cs
  let (cs, fragment) := cut '#' cs
  let (path, query) := cut '?' cs
  ⟨scheme, authority, path, query, fragment⟩

/-- The text of the components, with their delimiters. -/
def Parts.join (p : Parts) : List Char :=
  (p.scheme.map (· ++ [':'])).getD [] ++ (p.authority.map (['/', '/'] ++ ·)).getD [] ++ p.path ++
    (p.query.map ('?' :: ·)).getD [] ++ (p.fragment.map ('#' :: ·)).getD []

/-- Every component is made of its own characters. -/
def Parts.wellFormed (p : Parts) : Bool :=
  p.scheme ≠ some [] && p.authority.all isAuthority && wellEncoded isPathChar p.path &&
    p.query.all (wellEncoded isQueryChar) && p.fragment.all (wellEncoded isFragmentChar)

def isAbsolute (s : String) : Bool :=
  let p := split s.toList
  p.scheme.isSome && p.wellFormed

end ShapePlan.Iri
