import Offside.Text.CaseTables

/-!
# Lowercase text

A text is lowercased character by character, with two exceptions: a dotted
capital I becomes two characters, and a capital sigma that ends a word becomes a
final sigma.
-/

namespace Offside
namespace Lowercase

/-- Whether a character is one of the capitals of a run. -/
def inRun
    (run : CaseRun)
    (c : Char) :
    Bool :=
  decide (run.first ≤ c.toNat)
    && decide (c.toNat ≤ run.last)
    && (c.toNat - run.first) % run.step == 0

/-- The lowercase form of a character that has a simple one, else the character. -/
def ofChar (c : Char) : Char :=
  match caseRuns.find? fun run => inRun run c with
  | some run => Char.ofNat (run.lower + (c.toNat - run.first))
  | none => c

/-- Whether the nearest character that is not passed over is a letter with a case. -/
def meetsCased (cs : List Char) : Bool :=
  match cs.dropWhile caseIgnorable.contains with
  | [] => false
  | c :: _ => cased.contains c

/-- The lowercase form of a text, given the characters before it, nearest first. -/
def ofCharsAfter (before : List Char) : List Char → List Char
  | [] => []
  | c :: rest =>
      let lower :=
        if c.toNat = 0x0130 then
          ['i', Char.ofNat 0x0307]
        else if c.toNat = 0x03A3 then
          if meetsCased before && !meetsCased rest then [Char.ofNat 0x03C2] else [Char.ofNat 0x03C3]
        else
          [ofChar c]
      lower ++ ofCharsAfter (c :: before) rest

def ofString (s : String) : String :=
  String.ofList (ofCharsAfter [] s.toList)

end Lowercase
end Offside
