import Offside.Text.Utf8

/-!
# Lexemes of a source

A source is cut into runs of four kinds: blanks, line breaks, comments and
words.  Each lexeme is the longest run of its kind that starts where the one
before ended, and a run that starts with two slashes is a comment rather than a
word.  Every character belongs to exactly one lexeme, so the texts of the
lexemes put together give the source back (`flatMap_text_lex`).
-/

namespace Offside

inductive LexemeKind where
  /-- Spaces and tabs. -/
  | whitespace
  /-- One line break, of one or two characters. -/
  | newline
  /-- Two slashes and what follows them on the line. -/
  | comment
  /-- Anything else up to the next blank or line break. -/
  | word
  deriving DecidableEq, Repr

structure Lexeme where
  kind : LexemeKind
  text : List Char
  deriving DecidableEq, Repr

namespace LexemeKind

def name : LexemeKind → String
  | whitespace => "whitespace"
  | newline => "newline"
  | comment => "comment"
  | word => "word"

/-- Whether a lexeme of this kind makes its line a line with content. -/
def isContent
    (kind : LexemeKind)
    (commentsAreBlank : Bool) :
    Bool :=
  match kind with
  | word => true
  | comment => !commentsAreBlank
  | whitespace | newline => false

end LexemeKind

namespace Lexeme

def isBlank (c : Char) : Bool :=
  c == ' ' || c == '\t'

def isBreak (c : Char) : Bool :=
  c == '\n' || c == '\r'

/-- Whether a character belongs to a word wherever it stands. -/
def isWordChar (c : Char) : Bool :=
  !isBlank c && !isBreak c

/-- The kind of the lexeme that starts at the front of a text that is not
empty and does not start with a line break. -/
def kindAt : List Char → LexemeKind
  | '/' :: '/' :: _ => .comment
  | c :: _ => if isBlank c then .whitespace else .word
  | [] => .word

/-- The characters that may stand in a lexeme of a kind other than a line break. -/
def belongs : LexemeKind → Char → Bool
  | .whitespace, c => isBlank c
  | .newline, c => isBreak c
  | .comment, c => !isBreak c
  | .word, c => isWordChar c

/-- The first lexeme of a text, and the text after it. -/
def next? : List Char → Option (Lexeme × List Char)
  | [] => none
  | '\r' :: '\n' :: rest => some (⟨.newline, ['\r', '\n']⟩, rest)
  | '\r' :: rest => some (⟨.newline, ['\r']⟩, rest)
  | '\n' :: rest => some (⟨.newline, ['\n']⟩, rest)
  | c :: rest =>
      let kind := kindAt (c :: rest)
      some (⟨kind, c :: rest.takeWhile (belongs kind)⟩, rest.dropWhile (belongs kind))

/-- A lexeme and the rest put together are the text. -/
theorem text_append_of_next?
    {cs rest : List Char}
    {t : Lexeme}
    (h : next? cs = some (t, rest)) :
    t.text ++ rest = cs := by
  unfold next? at h
  split at h
  next => cases h
  next => cases h; rfl
  next => cases h; rfl
  next => cases h; rfl
  next =>
    cases h
    simp [List.takeWhile_append_dropWhile]

theorem text_ne_nil_of_next?
    {cs rest : List Char}
    {t : Lexeme}
    (h : next? cs = some (t, rest)) :
    t.text ≠ [] := by
  unfold next? at h
  split at h
  next => cases h
  all_goals
    cases h
    simp

/-- Only the empty text has no first lexeme. -/
theorem next?_eq_none_iff {cs : List Char} : next? cs = none ↔ cs = [] := by
  unfold next?
  split <;> simp_all

theorem length_lt_of_next?
    {cs rest : List Char}
    {t : Lexeme}
    (h : next? cs = some (t, rest)) :
    rest.length < cs.length := by
  have happend := text_append_of_next? h
  have hpos := List.length_pos_iff.2 (text_ne_nil_of_next? h)
  have hlength := congrArg List.length happend
  rw [List.length_append] at hlength
  omega

/-- The lexemes of a text, in order. -/
def lex (cs : List Char) : List Lexeme :=
  match _h : next? cs with
  | none => []
  | some (t, rest) => t :: lex rest
termination_by cs.length
decreasing_by exact length_lt_of_next? _h

@[simp] theorem lex_nil : lex [] = [] := by
  rw [lex]
  rfl

theorem lex_of_next?
    {cs rest : List Char}
    {t : Lexeme}
    (h : next? cs = some (t, rest)) :
    lex cs = t :: lex rest := by
  rw [lex]
  split
  next h' => rw [h] at h'; cases h'
  next h' => rw [h] at h'; cases h'; rfl

/-- No character is lost or moved by cutting a text into lexemes. -/
theorem flatMap_text_lex (cs : List Char) : (lex cs).flatMap text = cs := by
  fun_induction lex cs with
  | case1 cs h => exact (next?_eq_none_iff.1 h).symm
  | case2 cs t rest h ih =>
      rw [List.flatMap_cons, ih]
      exact text_append_of_next? h

end Lexeme

/-- A kind of lexeme and the bytes of the source that it covers. -/
structure PlacedLexeme where
  kind : LexemeKind
  /-- Position of the first byte. -/
  start : Nat
  /-- Position after the last byte. -/
  stop : Nat
  deriving DecidableEq, Repr

namespace PlacedLexeme

/-- Lexemes with their places, the first of which starts at the given position. -/
def ofLexemes (start : Nat) : List Lexeme → List PlacedLexeme
  | [] => []
  | t :: rest =>
      ⟨t.kind, start, start + Utf8.byteLength t.text⟩
        :: ofLexemes (start + Utf8.byteLength t.text) rest

/-- The lexemes of a source with their places. -/
def ofSource (source : List Char) : List PlacedLexeme :=
  ofLexemes 0 (Lexeme.lex source)

/-- The same lexeme in a source that has so many more bytes before it. -/
def shift
    (base : Nat)
    (t : PlacedLexeme) :
    PlacedLexeme :=
  ⟨t.kind, base + t.start, base + t.stop⟩

/-- Lexemes that are moved on are placed from a later position on. -/
theorem map_shift_ofLexemes
    (base start : Nat)
    (ts : List Lexeme) :
    (ofLexemes start ts).map (shift base) = ofLexemes (base + start) ts := by
  induction ts generalizing start with
  | nil => rfl
  | cons t rest ih =>
      simp [ofLexemes, shift, ih, Nat.add_assoc]

end PlacedLexeme
end Offside
