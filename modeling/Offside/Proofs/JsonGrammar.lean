import Offside.Proofs.ReportReading
import Offside.Report.Json

/-!
# The grammar of JSON texts

What a JSON text stands for (`Datum`) is told by the grammar of JSON: `Reads d cs rest` says
that `d` can be read at the front of `cs`, so that `rest` remains.  Blanks may stand around
every value and every mark.  Numbers may have a sign, a fraction and an exponent, and characters of
a string may be escaped, by a pair of code units if they lie beyond the first plane.

The grammar alone does not say how far a number goes; a text as a whole does, since no digit
may follow a value (`IsText`).
-/

namespace Offside
namespace Json

/-- Whether a character may stand between the parts of a text. -/
def isBlank (c : Char) : Bool :=
  c == ' ' || c == '\t' || c == '\n' || c == '\r'

def skipBlanks (cs : List Char) : List Char :=
  cs.dropWhile isBlank

/-- A number: the mantissa times a power of ten. -/
structure Numeral where
  negative : Bool
  mantissa : Nat
  exponent : Int
  deriving DecidableEq, Repr

namespace Numeral

/-- A number that is written without sign, fraction and exponent. -/
def natural (n : Nat) : Numeral := ⟨false, n, 0⟩

/-- A run of one or more digits. -/
structure Digits (ds : List Char) : Prop where
  ne_nil : ds ≠ []
  isDigit : ∀ c ∈ ds, c.isDigit = true

/-- The part before the point: no zero leads other digits. -/
structure Whole (ds : List Char) : Prop extends Digits ds where
  no_leading_zero : ds.head? = some '0' → ds = ['0']

/-- The digits of a fraction, and its text. -/
inductive Fraction : List Char → List Char → Prop
  | missing : Fraction [] []
  | digits {ds : List Char} : Digits ds → Fraction ds ('.' :: ds)

/-- The letter that leads an exponent. -/
def IsMark (c : Char) : Prop := c = 'e' ∨ c = 'E'

inductive Exponent : Int → List Char → Prop
  | missing : Exponent 0 []
  | plain {e : Char} {ds : List Char} :
      IsMark e → Digits ds → Exponent (Nat.ofDigitChars 10 ds 0) (e :: ds)
  | plus {e : Char} {ds : List Char} :
      IsMark e → Digits ds → Exponent (Nat.ofDigitChars 10 ds 0) (e :: '+' :: ds)
  | minus {e : Char} {ds : List Char} :
      IsMark e → Digits ds → Exponent (-(Nat.ofDigitChars 10 ds 0 : Int)) (e :: '-' :: ds)

/-- The number without sign that a text spells. -/
inductive Unsigned : Nat → Int → List Char → Prop
  | mk {whole digits fraction exponent : List Char} {power : Int} :
      Whole whole → Fraction digits fraction → Exponent power exponent →
      Unsigned (Nat.ofDigitChars 10 (whole ++ digits) 0) (power - digits.length)
        (whole ++ (fraction ++ exponent))

/-- The number that a text spells. -/
inductive Spelled : Numeral → List Char → Prop
  | plain {mantissa : Nat} {exponent : Int} {cs : List Char} :
      Unsigned mantissa exponent cs → Spelled ⟨false, mantissa, exponent⟩ cs
  | minus {mantissa : Nat} {exponent : Int} {cs : List Char} :
      Unsigned mantissa exponent cs → Spelled ⟨true, mantissa, exponent⟩ ('-' :: cs)

end Numeral

/-- The character that a backslash and a letter stand for. -/
def escaped? : Char → Option Char
  | '\x22' => some '\x22'
  | '\x5c' => some '\x5c'
  | '/' => some '/'
  | 'b' => some '\x08'
  | 'f' => some '\x0c'
  | 'n' => some '\n'
  | 'r' => some '\r'
  | 't' => some '\t'
  | _ => none

/-- The code unit that four hexadecimal digits spell. -/
def codeUnit? (a b c d : Char) : Option Nat := do
  let a ← Hex.digitValue? a
  let b ← Hex.digitValue? b
  let c ← Hex.digitValue? c
  let d ← Hex.digitValue? d
  pure (4096 * a + 256 * b + 16 * c + d)

/-- A character of a string at the front of a text, and what follows. -/
inductive ReadsChar : Char → List Char → List Char → Prop
  | plain {c : Char} {rest : List Char} :
      c ≠ '\x22' → c ≠ '\x5c' → 0x20 ≤ c.toNat → ReadsChar c (c :: rest) rest
  | escape {e c : Char} {rest : List Char} :
      escaped? e = some c → ReadsChar c ('\x5c' :: e :: rest) rest
  | unit {a b c d : Char} {n : Nat} {rest : List Char} :
      codeUnit? a b c d = some n → Nat.isValidChar n →
      ReadsChar (Char.ofNat n) ('\x5c' :: 'u' :: a :: b :: c :: d :: rest) rest
  | pair {a b c d e f g h : Char} {high low : Nat} {rest : List Char} :
      codeUnit? a b c d = some high → codeUnit? e f g h = some low →
      0xD800 ≤ high → high < 0xDC00 → 0xDC00 ≤ low → low < 0xE000 →
      ReadsChar (Char.ofNat (0x10000 + 0x400 * (high - 0xD800) + (low - 0xDC00)))
        ('\x5c' :: 'u' :: a :: b :: c :: d :: '\x5c' :: 'u' :: e :: f :: g :: h :: rest) rest

/-- The characters of a string up to its closing quote, and what follows. -/
inductive ReadsString : List Char → List Char → List Char → Prop
  | close {rest : List Char} : ReadsString [] ('\x22' :: rest) rest
  | char {c : Char} {s cs next rest : List Char} :
      ReadsChar c cs next → ReadsString s next rest → ReadsString (c :: s) cs rest

/-- What a JSON text stands for. -/
inductive Datum where
  | null
  | bool (b : Bool)
  | number (n : Numeral)
  | string (cs : List Char)
  | array (items : List Datum)
  | object (fields : List (List Char × Datum))

section

variable {α : Type}

/-- The elements of a row after the first one, up to the mark that closes it, and what
follows.  How one element is read is a parameter. -/
inductive ReadsMore
    (close : Char)
    (ReadsOne : α → List Char → List Char → Prop) :
    List α → List Char → List Char → Prop
  | close {rest : List Char} : ReadsMore close ReadsOne [] (close :: rest) rest
  | next {item : α} {more : List α} {cs next rest : List Char} :
      ReadsOne item (skipBlanks cs) next →
      ReadsMore close ReadsOne more (skipBlanks next) rest →
      ReadsMore close ReadsOne (item :: more) (',' :: cs) rest

/-- A row of elements with commas between them, up to the mark that closes it, and what
follows. -/
inductive ReadsRow
    (close : Char)
    (ReadsOne : α → List Char → List Char → Prop) :
    List α → List Char → List Char → Prop
  | empty {cs rest : List Char} :
      skipBlanks cs = close :: rest → ReadsRow close ReadsOne [] cs rest
  | items {first : α} {more : List α} {cs next rest : List Char} :
      ReadsOne first (skipBlanks cs) next →
      ReadsMore close ReadsOne more (skipBlanks next) rest →
      ReadsRow close ReadsOne (first :: more) cs rest

/-- A name and, behind a colon, a value. -/
inductive ReadsField
    (ReadsOne : α → List Char → List Char → Prop) :
    List Char × α → List Char → List Char → Prop
  | mk {name cs mark next rest : List Char} {value : α} :
      ReadsString name cs mark → skipBlanks mark = ':' :: next →
      ReadsOne value (skipBlanks next) rest → ReadsField ReadsOne (name, value) ('\x22' :: cs) rest

end

/-- A value at the front of a text, and what follows. -/
inductive Reads : Datum → List Char → List Char → Prop
  | null {rest : List Char} : Reads .null ('n' :: 'u' :: 'l' :: 'l' :: rest) rest
  | yes {rest : List Char} : Reads (.bool true) ('t' :: 'r' :: 'u' :: 'e' :: rest) rest
  | no {rest : List Char} : Reads (.bool false) ('f' :: 'a' :: 'l' :: 's' :: 'e' :: rest) rest
  | number {n : Numeral} {text cs rest : List Char} :
      n.Spelled text → cs = text ++ rest → Reads (.number n) cs rest
  | string {s cs rest : List Char} :
      ReadsString s cs rest → Reads (.string s) ('\x22' :: cs) rest
  | array {items : List Datum} {cs rest : List Char} :
      ReadsRow ']' Reads items cs rest → Reads (.array items) ('[' :: cs) rest
  | object {fields : List (List Char × Datum)} {cs rest : List Char} :
      ReadsRow '\x7d' (ReadsField Reads) fields cs rest →
      Reads (.object fields) ('\x7b' :: cs) rest

/-- Whether a text as a whole spells a value; blanks may stand before it and after it. -/
def IsText
    (d : Datum)
    (text : List Char) :
    Prop :=
  ∃ after, Reads d (skipBlanks text) after ∧ skipBlanks after = []

mutual

/-- What a value stands for. -/
def datum : Json → Datum
  | number n => .number (.natural n)
  | string cs => .string cs
  | array items => .array (data items)
  | object fields => .object (dataOfFields fields)

def data : List Json → List Datum
  | [] => []
  | item :: rest => item.datum :: data rest

def dataOfFields : List (List Char × Json) → List (List Char × Datum)
  | [] => []
  | (name, value) :: rest => (name, value.datum) :: dataOfFields rest

end

theorem data_eq_map (items : List Json) : data items = items.map datum := by
  induction items with
  | nil => rfl
  | cons item rest ih => rw [data, ih, List.map_cons]

/-! Blanks and ends of numbers -/

theorem skipBlanks_cons
    {c : Char}
    (h : isBlank c = false)
    (cs : List Char) :
    skipBlanks (c :: cs) = c :: cs :=
  List.dropWhile_cons_of_neg (by simp [h])

theorem skipBlanks_freshLine_append
    (depth : Nat)
    (cs : List Char) :
    skipBlanks (freshLine depth ++ cs) = skipBlanks cs := by
  refine List.dropWhile_append_of_pos ?_
  intro c hc
  rcases List.mem_cons.1 hc with rfl | hc
  · rfl
  · rw [List.eq_of_mem_replicate hc]
    rfl

/-- Whether a number cannot go on with what follows. -/
def Ends (cs : List Char) : Prop :=
  ∀ c, cs.head? = some c → c.isDigit = false ∧ c ≠ '.' ∧ ¬ Numeral.IsMark c

theorem ends_nil : Ends [] := fun _ h => nomatch h

theorem ends_cons
    {c : Char}
    (h : c.isDigit = false ∧ c ≠ '.' ∧ ¬ Numeral.IsMark c)
    (cs : List Char) :
    Ends (c :: cs) := by
  intro d hd
  rw [← Option.some.inj hd]
  exact h

instance (c : Char) : Decidable (Numeral.IsMark c) :=
  inferInstanceAs (Decidable (c = 'e' ∨ c = 'E'))

theorem ends_of_isBlank
    {c : Char}
    (h : isBlank c = true)
    (cs : List Char) :
    Ends (c :: cs) := by
  refine ends_cons ?_ cs
  simp only [isBlank, Bool.or_eq_true, beq_iff_eq] at h
  rcases h with ((rfl | rfl) | rfl) | rfl <;> decide

/-- Blanks end a number, and so does what follows them if it ends one itself. -/
theorem ends_of_skipBlanks
    {cs : List Char}
    (h : Ends (skipBlanks cs)) :
    Ends cs := by
  cases cs with
  | nil => exact ends_nil
  | cons c cs =>
      cases hblank : isBlank c with
      | true => exact ends_of_isBlank hblank cs
      | false => rwa [skipBlanks_cons hblank] at h

theorem ends_freshLine_append
    (depth : Nat)
    (cs : List Char) :
    Ends (freshLine depth ++ cs) :=
  ends_of_isBlank (by decide) _

/-- A mark that closes a row is no part of one. -/
structure IsClosing (c : Char) : Prop where
  not_blank : isBlank c = false
  ne_comma : c ≠ ','
  ends : ∀ cs, Ends (c :: cs)

theorem isClosing_bracket : IsClosing ']' :=
  ⟨by decide, by decide, ends_cons (by decide)⟩

theorem isClosing_brace : IsClosing '\x7d' :=
  ⟨by decide, by decide, ends_cons (by decide)⟩

theorem ReadsMore.ends
    {α : Type}
    {ReadsOne : α → List Char → List Char → Prop}
    {close : Char}
    {items : List α}
    {cs rest : List Char}
    (hclose : IsClosing close)
    (h : ReadsMore close ReadsOne items cs rest) :
    Ends cs := by
  cases h with
  | close => exact hclose.ends _
  | next => exact ends_cons (by decide) _

end Json
end Offside
