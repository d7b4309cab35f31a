import Offside.Lexeme

/-!
# Lines of a source

A line is the lexemes up to a line break, and the text of that break.  Only the
last line of a source may lack a break, and then it has at least one lexeme.
What a layout scan asks of a line is here too: its indentation, and what stands
before its last content.
-/

namespace Offside

/-- The lexemes of one line, and the line break that ends it. -/
structure Line where
  body : List Lexeme
  /-- The text of the line break; empty on a last line without one. -/
  ending : List Char
  deriving DecidableEq, Repr

namespace Line

/-- Puts a lexeme in front of the first of some lines. -/
def prepend
    (t : Lexeme) :
    List Line → List Line
  | [] => [⟨[t], []⟩]
  | line :: rest => { line with body := t :: line.body } :: rest

def ofLexemes : List Lexeme → List Line
  | [] => []
  | t :: rest =>
      if t.kind = .newline then ⟨[], t.text⟩ :: ofLexemes rest else prepend t (ofLexemes rest)

def ofSource (source : List Char) : List Line :=
  ofLexemes (Lexeme.lex source)

/-- The characters of a line, its line break included. -/
def text (line : Line) : List Char :=
  line.body.flatMap Lexeme.text ++ line.ending

/-- The blanks at the start of a line. -/
def indentation (line : Line) : List Char :=
  match line.body with
  | ⟨.whitespace, blanks⟩ :: _ => blanks
  | _ => []

/-- What stands before the last of some lexemes that has a property. -/
def beforeLast? (p : Lexeme → Bool) : List Lexeme → Option (List Char)
  | [] => none
  | t :: rest =>
      match beforeLast? p rest with
      | some before => some (t.text ++ before)
      | none => if p t then some [] else none

/-- What stands before the last content of a line, unless the line is blank. -/
def beforeLastContent?
    (commentsAreBlank : Bool)
    (line : Line) :
    Option (List Char) :=
  beforeLast? (fun t => t.kind.isContent commentsAreBlank) line.body

theorem flatMap_text_prepend
    (t : Lexeme)
    (lines : List Line) :
    (prepend t lines).flatMap text = t.text ++ lines.flatMap text := by
  cases lines with
  | nil => simp [prepend, text]
  | cons line rest => simp [prepend, text]

/-- Grouping lexemes into lines keeps every character. -/
theorem flatMap_text_ofLexemes (ts : List Lexeme) :
    (ofLexemes ts).flatMap text = ts.flatMap Lexeme.text := by
  induction ts with
  | nil => rfl
  | cons t rest ih =>
      unfold ofLexemes
      split
      next => simp [text, ih]
      next => rw [flatMap_text_prepend, ih, List.flatMap_cons]

/-- The lines of a source put together are the source. -/
theorem flatMap_text_ofSource (source : List Char) :
    (ofSource source).flatMap text = source := by
  rw [ofSource, flatMap_text_ofLexemes, Lexeme.flatMap_text_lex]

end Line
end Offside
