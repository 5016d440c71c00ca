/-
The tokens of documents. Escapes are decoded here; what an IRI or a name stands for is left to the grammar, since it
depends on the declarations before it. In documents made of lines, line breaks are tokens, and strings are short and
have double quotes.
-/
import ShapePlan.Iri.Basic
import ShapePlan.Text.LanguageTag
import ShapePlan.Value.Reader
import ShapePlan.Vocabulary

namespace ShapePlan.Document

inductive Token where
  /-- What stands between angle brackets. -/
  | iri (raw : List Char)
  /-- The two parts of a prefixed name, and whether the name must be checked as a whole. -/
  | name (label loc : String) (doubtful : Bool)
  | blank (label : String)
  | string (s : String)
  | number (lexical datatype : String)
  /-- What follows an at sign. -/
  | tag (s : String)
  | word (s : String)
  | mark (c : Char)
  /-- The two carets before a datatype. -/
  | carets
  | lineEnd
deriving DecidableEq, Repr

/-- How a document is read. -/
structure Mode where
  /-- IRIs and language tags are taken as they are, and strings may have line breaks. -/
  lenient : Bool
  /-- The document is made of lines. -/
  lines : Bool
deriving DecidableEq, Repr

/-! ## Characters -/

def inRanges (ranges : List (Nat × Nat)) (c : Char) : Bool := ranges.any fun r => r.1 ≤ c.toNat && c.toNat ≤ r.2

/-- The characters that a prefix can start with, beyond the ASCII letters. -/
def nameStarts : List (Nat × Nat) :=
  [(0xC0, 0xD6), (0xD8, 0xF6), (0xF8, 0x2FF), (0x370, 0x37D), (0x37F, 0x1FFF), (0x200C, 0x200D), (0x2070, 0x218F),
    (0x2C00, 0x2FEF), (0x3001, 0xD7FF), (0xF900, 0xFDCF), (0xFDF0, 0xFFFD), (0x10000, 0xEFFFF)]

def isNameStart (c : Char) : Bool := c.isAlpha || inRanges nameStarts c

def isLabelStart (c : Char) : Bool := isNameStart c || c = '_' || c.isDigit

def isNameChar (c : Char) : Bool :=
  isLabelStart c || c = '-' || inRanges [(0xB7, 0xB7), (0x300, 0x36F), (0x203F, 0x2040)] c

def isLineBreak (c : Char) : Bool := c = '\n' || c = '\r'

def marks : List Char := ['.', ',', ';', '[', ']', '(', ')', '{', '}']

/-! ## Escapes -/

def charEscape? : Char → Option Char
  | 't' => some '\t'
  | 'b' => some (Char.ofNat 8)
  | 'n' => some '\n'
  | 'r' => some '\r'
  | 'f' => some (Char.ofNat 12)
  | '"' => some '"'
  | '\'' => some '\''
  | '\\' => some '\\'
  | _ => none

/-- The low half of a surrogate pair, as an escape of its own. -/
def lowSurrogate? : List Char → Option (Nat × List Char)
  | '\\' :: 'u' :: r => (Reader.hex? 4 0 r).filter fun x => Reader.isLowSurrogate x.1
  | _ => none

/-- A character given by its code point, after the backslash. Only lenient reading joins surrogate pairs. -/
def codeEscape? (m : Mode) : List Char → Option (Char × List Char)
  | 'u' :: r => do
    let (n, r) ← Reader.hex? 4 0 r
    if m.lenient && Reader.isHighSurrogate n then
      let (low, r) ← lowSurrogate? r
      return (← Reader.char? (Reader.joinSurrogates n low), r)
    else return (← Reader.char? n, r)
  | 'U' :: r => do
    let (n, r) ← Reader.hex? 8 0 r
    return (← Reader.char? n, r)
  | _ => none

/-- An escape of a string, after the backslash. -/
def stringEscape? (m : Mode) (cs : List Char) : Option (Char × List Char) :=
  match cs with
  | c :: r =>
    match charEscape? c with
    | some d => some (d, r)
    | none => codeEscape? m cs
  | [] => none

/-! ## Tokens by kind -/

/-- The inside of an IRI up to its closing bracket. -/
def iriBody? (m : Mode) : Nat → List Char → List Char → Option (Token × List Char)
  | 0, _, _ => none
  | fuel + 1, acc, cs =>
    match cs with
    | '>' :: r => some (.iri acc.reverse, r)
    | '\\' :: r =>
      match codeEscape? m r with
      | some (c, r) => iriBody? m fuel (c :: acc) r
      | none => none
    | c :: r => iriBody? m fuel (c :: acc) r
    | [] => none

/-- The inside of a short string up to its closing quote. -/
def shortBody? (m : Mode) (quote : Char) : Nat → List Char → List Char → Option (Token × List Char)
  | 0, _, _ => none
  | fuel + 1, acc, cs =>
    match cs with
    | '\\' :: r =>
      match stringEscape? m r with
      | some (c, r) => shortBody? m quote fuel (c :: acc) r
      | none => none
    | c :: r =>
      if c = quote then some (.string (String.ofList acc.reverse), r)
      else if isLineBreak c && !m.lenient then none
      else shortBody? m quote fuel (c :: acc) r
    | [] => none

/-- The inside of a long string up to its three closing quotes. -/
def longBody? (m : Mode) (quote : Char) : Nat → List Char → List Char → Option (Token × List Char)
  | 0, _, _ => none
  | fuel + 1, acc, cs =>
    match cs with
    | '\\' :: r =>
      match stringEscape? m r with
      | some (c, r) => longBody? m quote fuel (c :: acc) r
      | none => none
    | c :: r =>
      if (c :: r).take 3 = [quote, quote, quote] then some (.string (String.ofList acc.reverse), r.drop 2)
      else longBody? m quote fuel (c :: acc) r
    | [] => none

/-- Moves the dots at the end of a name to what follows it. -/
def giveDots (name rest : List Char) : List Char × List Char :=
  ((name.reverse.dropWhile (· = '.')).reverse, name.reverse.takeWhile (· = '.') ++ rest)

def blank? : List Char → Option (Token × List Char)
  | [] => none
  | c :: r =>
    if isLabelStart c then
      let run (d : Char) : Bool := isNameChar d || d = '.'
      let (label, rest) := giveDots (c :: r.takeWhile run) (r.dropWhile run)
      some (.blank (String.ofList label), rest)
    else none

/-- The further parts of a tag, each a hyphen and some letters and digits, at most `n` of them. -/
def subtags : Nat → List Char → List Char
  | n + 1, '-' :: r =>
    let part := r.takeWhile Char.isAlphanum
    if part.isEmpty then [] else '-' :: part ++ subtags n (r.dropWhile Char.isAlphanum)
  | _, _ => []

def tag? (m : Mode) (cs : List Char) : Option (Token × List Char) :=
  let language := cs.takeWhile Char.isAlpha
  let tag := language ++ subtags cs.length (cs.dropWhile Char.isAlpha)
  let s := String.ofList tag
  if language.isEmpty || !(m.lenient || LanguageTag.isWellFormed s.toLower) then none
  else some (.tag s, cs.drop tag.length)

/-- An integer, a decimal with digits after its point, or a double with an exponent. -/
def number? (cs : List Char) : Option (Token × List Char) :=
  let unsigned := if cs.head? = some '+' ∨ cs.head? = some '-' then cs.drop 1 else cs
  let whole := unsigned.takeWhile Char.isDigit
  let afterWhole := unsigned.dropWhile Char.isDigit
  let (fraction, rest) :=
    match afterWhole with
    | '.' :: r => (r.takeWhile Char.isDigit, r.dropWhile Char.isDigit)
    | r => ([], r)
  let token (datatype : String) (rest : List Char) : Token × List Char :=
    (.number (String.ofList (cs.take (cs.length - rest.length))) datatype, rest)
  if whole.isEmpty && fraction.isEmpty then none
  else if rest.head? = some 'e' ∨ rest.head? = some 'E' then
    let signed := rest.drop 1
    let digits := if signed.head? = some '+' ∨ signed.head? = some '-' then signed.drop 1 else signed
    if digits.head?.any Char.isDigit then some (token Xsd.double (digits.dropWhile Char.isDigit)) else none
  else if fraction.isEmpty then some (token Xsd.integer afterWhole)
  else some (token Xsd.decimal rest)

/-! ### Prefixed names -/

/-- The characters that a backslash may precede in a local name. -/
def localEscapes : List Char := "_~.-!$&'()*+,;=".toList

/-- Characters with a meaning of their own in IRIs, which a backslash may precede too. -/
def doubtfulEscapes : List Char := "/?#@%".toList

/-- Characters of local names that make a name doubtful: the colon, the last characters of the first plane, and the
multiples of the two code points after them. -/
def isDoubtful (c : Char) : Bool :=
  let n := c.toNat
  c = ':' || (0xFFF0 ≤ n && n ≤ 0xFFFD) || n % 0xFFFE = 0 || n % 0xFFFF = 0

/-- The local part of a name, as far as it has been read. -/
structure LocalPart where
  /-- The last character comes first. -/
  text : List Char := []
  /-- The dots after the text, which belong to the name only if more of it follows. -/
  dots : Nat := 0
  /-- The text up to the last escape, if there has been one. -/
  escaped : Option (List Char) := none
  doubtful : Bool := false

namespace LocalPart

def push (l : LocalPart) (cs : List Char) : LocalPart :=
  { l with text := cs.reverse ++ List.replicate l.dots '.' ++ l.text, dots := 0 }

/-- A character of its own. Only strict reading has doubts. -/
def pushChar (m : Mode) (l : LocalPart) (c : Char) : LocalPart :=
  { l.push [c] with doubtful := l.doubtful || (!m.lenient && isDoubtful c) }

/-- A character after a backslash. Lenient reading takes every one of the ASCII range. -/
def escape? (m : Mode) (l : LocalPart) (c : Char) : Option LocalPart :=
  let pushed := l.push [c]
  let next := { pushed with escaped := some pushed.text }
  if m.lenient then if c.toNat < 0x80 then some next else none
  else if localEscapes.contains c then some next
  else if doubtfulEscapes.contains c then some { next with doubtful := true }
  else none

def read? (m : Mode) (l : LocalPart) : List Char → Option (LocalPart × List Char)
  | '%' :: a :: b :: r => if Iri.isHex a && Iri.isHex b then read? m (l.push ['%', a, b]) r else none
  | '\\' :: c :: r =>
    match l.escape? m c with
    | some l => read? m l r
    | none => none
  | c :: r =>
    if c = '%' || c = '\\' then none
    else if c = '.' && !l.text.isEmpty then read? m { l with dots := l.dots + 1 } r
    else if isLabelStart c || c = ':' || (isNameChar c && !l.text.isEmpty) then read? m (l.pushChar m c) r
    else some (l, c :: r)
  | [] => some (l, [])

end LocalPart

/-- The first characters that make up so many bytes. -/
def takeBytes? : Nat → List Char → Option (List Char)
  | 0, _ => some []
  | n + 1, c :: r => if c.utf8Size ≤ n + 1 then (takeBytes? (n + 1 - c.utf8Size) r).map (c :: ·) else none
  | _ + 1, [] => none

/-- The local part of a name, whether it is doubtful, and what follows it. A name with escapes that runs to the end of
the document is its text up to the last escape without the dots at the end of that; for each of these dots one byte is
left to be read. -/
def localPart? (m : Mode) (cs : List Char) : Option (String × Bool × List Char) := do
  let (l, r) ← LocalPart.read? m {} cs
  match r, l.escaped with
  | [], some text =>
    let dots := (text.takeWhile (· = '.')).length
    let last ← takeBytes? dots cs.reverse
    return (String.ofList (text.drop dots).reverse, l.doubtful, last.reverse)
  | r, _ => return (String.ofList l.text.reverse, l.doubtful, List.replicate l.dots '.' ++ r)

/-- A prefixed name, or a word if no colon follows. -/
def nameOrWord? (m : Mode) (cs : List Char) : Option (Token × List Char) :=
  let run (c : Char) : Bool := isNameChar c || c = '.'
  let label := cs.takeWhile run
  let start := cs.head?.any isNameStart
  match cs.dropWhile run with
  | ':' :: r => do
    if (label ≠ [] ∧ ¬ start) ∨ label.getLast? = some '.' then none
    let (loc, doubtful, r) ← localPart? m r
    return (.name (String.ofList label) loc doubtful, r)
  | r =>
    if start then
      let (word, rest) := giveDots label r
      some (.word (String.ofList word), rest)
    else none

/-! ## Scanning -/

/-- The token at the start of a text. -/
def token? (m : Mode) (cs : List Char) : Option (Token × List Char) :=
  match cs with
  | '<' :: '<' :: _ => none
  | '<' :: r => iriBody? m (r.length + 1) [] r
  | '_' :: ':' :: r => blank? r
  | '@' :: r => tag? m r
  | '^' :: '^' :: r => some (.carets, r)
  | '.' :: d :: r => if d.isDigit then number? cs else some (.mark '.', d :: r)
  | c :: r =>
    if c = '"' ∨ (c = '\'' ∧ ¬ m.lines) then
      if r.take 2 = [c, c] ∧ ¬ m.lines then longBody? m c (r.length + 1) [] (r.drop 2)
      else shortBody? m c (r.length + 1) [] r
    else if marks.contains c then some (.mark c, r)
    else if c.isDigit || c = '+' || c = '-' then number? cs
    else nameOrWord? m cs
  | [] => none

def isSpace (m : Mode) (c : Char) : Bool := c = ' ' || c = '\t' || (isLineBreak c && !m.lines)

/-- The tokens of a text. White space and comments are left out. -/
def scanFrom? (m : Mode) : Nat → List Char → Option (List Token)
  | 0, _ => none
  | fuel + 1, cs =>
    match cs.dropWhile (isSpace m) with
    | [] => some []
    | '#' :: r => scanFrom? m fuel (r.dropWhile fun c => !isLineBreak c)
    | c :: r =>
      if isLineBreak c then (scanFrom? m fuel r).map (.lineEnd :: ·)
      else
        match token? m (c :: r) with
        | some (t, r) => (scanFrom? m fuel r).map (t :: ·)
        | none => none

def scan? (m : Mode) (s : String) : Option (List Token) := scanFrom? m (s.length + 1) s.toList

end ShapePlan.Document
