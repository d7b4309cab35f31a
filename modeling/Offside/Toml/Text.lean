import Offside.Text.Hex

/-!
# Texts and keys of TOML

A text stands in double quotes, with escapes, or in single quotes, without
them; in three quotes of either kind it may have several lines.  A key is a
bare word or a text of one line, and parts of a key are joined by points.

Every reader returns what it read and the characters behind it.

Texts and keys follow TOML 1.0, as the package `toml`, which the program takes
from outside, documents that it does.
-/

namespace Offside
namespace Toml

def isBlank (c : Char) : Bool :=
  c == ' ' || c == '\t'

/-- Whether a character may stand for itself in a comment or in a text of one line. -/
def isPlain (c : Char) : Bool :=
  c == '\t' || decide (0x20 ≤ c.toNat ∧ c.toNat ≠ 0x7F)

/-- The character with the code point that some hexadecimal digits spell. -/
def codePoint? (digits : List Char) : Option Char := do
  let values ← digits.mapM Hex.digitValue?
  let n := values.foldl (fun n d => 16 * n + d) 0
  if Nat.isValidChar n then pure (Char.ofNat n) else none

def simpleEscape? : Char → Option Char
  | 'b' => some '\x08'
  | 't' => some '\t'
  | 'n' => some '\n'
  | 'f' => some '\x0c'
  | 'r' => some '\r'
  | '\x22' => some '\x22'
  | '\x5c' => some '\x5c'
  | _ => none

def consChar
    (c : Char)
    (result : Option (List Char × List Char)) :
    Option (List Char × List Char) :=
  result.map fun r => (c :: r.1, r.2)

/-- The rest of a text in double quotes, after the first one. -/
def basic : List Char → Option (List Char × List Char)
  | [] => none
  | '\x22' :: rest => some ([], rest)
  | '\x5c' :: 'u' :: a :: b :: c :: d :: rest => do
      let e ← codePoint? [a, b, c, d]
      consChar e (basic rest)
  | '\x5c' :: 'U' :: a :: b :: c :: d :: e :: f :: g :: h :: rest => do
      let e ← codePoint? [a, b, c, d, e, f, g, h]
      consChar e (basic rest)
  | '\x5c' :: c :: rest => do
      let e ← simpleEscape? c
      consChar e (basic rest)
  | c :: rest => if isPlain c && c != '\x5c' then consChar c (basic rest) else none

/-- The rest of a text in single quotes, after the first one. -/
def literal : List Char → Option (List Char × List Char)
  | [] => none
  | '\x27' :: rest => some ([], rest)
  | c :: rest => if isPlain c then consChar c (literal rest) else none

/-- Whether nothing but blanks stands before the end of a line. -/
def endsLine (cs : List Char) : Bool :=
  match cs.dropWhile isBlank with
  | '\n' :: _ => true
  | '\r' :: '\n' :: _ => true
  | _ => false

/-- The rest of a text of several lines in double quotes.  After a backslash at
the end of a line, blanks and line breaks are skipped. -/
def basicLines
    (skipping : Bool) :
    List Char → Option (List Char × List Char)
  | [] => none
  | '\x22' :: '\x22' :: '\x22' :: '\x22' :: '\x22' :: rest => some (['\x22', '\x22'], rest)
  | '\x22' :: '\x22' :: '\x22' :: '\x22' :: rest => some (['\x22'], rest)
  | '\x22' :: '\x22' :: '\x22' :: rest => some ([], rest)
  | '\r' :: '\n' :: rest =>
      if skipping then basicLines true rest else consChar '\n' (basicLines false rest)
  | '\n' :: rest =>
      if skipping then basicLines true rest else consChar '\n' (basicLines false rest)
  | '\x5c' :: 'u' :: a :: b :: c :: d :: rest => do
      let e ← codePoint? [a, b, c, d]
      consChar e (basicLines false rest)
  | '\x5c' :: 'U' :: a :: b :: c :: d :: e :: f :: g :: h :: rest => do
      let e ← codePoint? [a, b, c, d, e, f, g, h]
      consChar e (basicLines false rest)
  | '\x5c' :: c :: rest =>
      if endsLine (c :: rest) then
        basicLines true (c :: rest)
      else do
        let e ← simpleEscape? c
        consChar e (basicLines false rest)
  | c :: rest =>
      if skipping && isBlank c then basicLines true rest
      else if isPlain c && c != '\x5c' then consChar c (basicLines false rest)
      else none

/-- The rest of a text of several lines in single quotes. -/
def literalLines : List Char → Option (List Char × List Char)
  | [] => none
  | '\x27' :: '\x27' :: '\x27' :: '\x27' :: '\x27' :: rest => some (['\x27', '\x27'], rest)
  | '\x27' :: '\x27' :: '\x27' :: '\x27' :: rest => some (['\x27'], rest)
  | '\x27' :: '\x27' :: '\x27' :: rest => some ([], rest)
  | '\r' :: '\n' :: rest => consChar '\n' (literalLines rest)
  | '\n' :: rest => consChar '\n' (literalLines rest)
  | c :: rest => if isPlain c then consChar c (literalLines rest) else none

def trimFirstBreak : List Char → List Char
  | '\r' :: '\n' :: rest => rest
  | '\n' :: rest => rest
  | cs => cs

def text? : List Char → Option (List Char × List Char)
  | '\x22' :: '\x22' :: '\x22' :: rest => basicLines false (trimFirstBreak rest)
  | '\x22' :: rest => basic rest
  | '\x27' :: '\x27' :: '\x27' :: rest => literalLines (trimFirstBreak rest)
  | '\x27' :: rest => literal rest
  | _ => none

def isBareKeyChar (c : Char) : Bool :=
  c.isAlphanum || c == '_' || c == '-'

def keyPart? : List Char → Option (String × List Char)
  | '\x22' :: rest => (basic rest).map fun r => (String.ofList r.1, r.2)
  | '\x27' :: rest => (literal rest).map fun r => (String.ofList r.1, r.2)
  | cs =>
      let word := cs.takeWhile isBareKeyChar
      if word.isEmpty then none else some (String.ofList word, cs.dropWhile isBareKeyChar)

/-- Most parts that a key may have. -/
def greatestDepth : Nat := 79

/-- A key of at most so many parts, without the blanks around it. -/
def keyParts? : Nat → List Char → Option (List String × List Char)
  | 0, _ => none
  | n + 1, cs => do
      let (part, rest) ← keyPart? (cs.dropWhile isBlank)
      match rest.dropWhile isBlank with
      | '.' :: rest =>
          let (parts, rest) ← keyParts? n rest
          pure (part :: parts, rest)
      | rest => pure ([part], rest)

def key? (cs : List Char) : Option (List String × List Char) :=
  keyParts? greatestDepth cs

end Toml
end Offside
