import Offside.Proofs.TomlIntegers
import Offside.Proofs.TomlTables

/-!
# Places in documents

A whole number stands in a text as the value of a key in some line, or within tables in braces
there.  The keys that lead to it are those of the last header, those of its line and those within
braces (`Writes`).  If it has 64 bits and all around it reads, the text reads, and the document
has the number where these keys lead (`Writes.parse?_eq`): the reader comes to it, defines it
there, and keeps what it has defined.
-/

namespace Offside
namespace Toml

theorem keeps_of_headerLine?
    {d after : Document}
    {cs rest : List Char}
    (h : headerLine? d cs = some (after, rest)) :
    d.root.Keeps after.root := by
  unfold headerLine? at h
  split at h
  all_goals
    simp only [Option.bind_eq_bind, Option.bind_eq_some_iff, Prod.exists] at h
    obtain ⟨parts, behind, -, h⟩ := h
    split at h
    next =>
      simp only [Option.bind_eq_some_iff, Option.pure_def, Option.some.injEq] at h
      obtain ⟨_, -, opened, hopened, heq⟩ := h
      cases heq
      exact Document.keeps_of_openHeader hopened
    next => cases h

/-- What a line with a key and a value does. -/
theorem exists_define_of_keyLine?
    {d after : Document}
    {cs rest : List Char}
    (h : keyLine? d cs = some (after, rest)) :
    ∃ parts value node behind,
      key? cs = some (parts, '=' :: value) ∧
      value? (value.length + 1) greatestDepth (value.dropWhile isBlank) = some (node, behind) ∧
      d.define parts node = some after := by
  simp only [keyLine?, Option.bind_eq_bind, Option.bind_eq_some_iff, Prod.exists] at h
  obtain ⟨parts, behind, hkey, h⟩ := h
  split at h
  next value =>
    simp only [Option.bind_eq_some_iff, Prod.exists, Option.pure_def, Option.some.injEq] at h
    obtain ⟨node, behind, hvalue, _, -, defined, hdefined, heq⟩ := h
    cases heq
    exact ⟨parts, value, node, behind, hkey, hvalue, hdefined⟩
  next => cases h

theorem keeps_of_line?
    {d after : Document}
    {cs rest : List Char}
    (h : line? d cs = some (after, rest)) :
    d.root.Keeps after.root := by
  unfold line? at h
  split at h
  next =>
    cases h
    exact .refl _
  next =>
    cases h
    exact .refl _
  next =>
    obtain ⟨_, -, heq⟩ := Option.map_eq_some_iff.1 h
    cases heq
    exact .refl _
  next => exact keeps_of_headerLine? h
  next =>
    obtain ⟨parts, value, node, behind, -, -, hdefined⟩ := exists_define_of_keyLine? h
    exact Document.keeps_of_define hdefined

/-- Lines are read one after the other up to the end of a text. -/
theorem lines?_succ
    {fuel : Nat}
    {d after : Document}
    {cs : List Char}
    (h : lines? (fuel + 1) d cs = some after) :
    (cs.dropWhile isBlank = [] ∧ after = d) ∨
      ∃ next rest,
        line? d (cs.dropWhile isBlank) = some (next, rest) ∧
        lines? fuel next rest = some after := by
  rw [lines?] at h
  split at h
  next hnil => exact .inl ⟨hnil, (Option.some.inj h).symm⟩
  next hcons =>
    obtain ⟨⟨next, rest⟩, hline, hrest⟩ := Option.bind_eq_some_iff.1 h
    exact .inr ⟨next, rest, hline, hrest⟩

/-- The lines that follow keep what is there. -/
theorem leads_of_lines?
    {fuel : Nat}
    {d after : Document}
    {cs : List Char}
    {i : Int64}
    {keys : List String}
    (h : lines? fuel d cs = some after)
    (hd : d.root.Leads i keys) :
    after.root.Leads i keys := by
  induction fuel generalizing d cs with
  | zero => cases h
  | succ fuel ih =>
      rcases lines?_succ h with ⟨-, rfl⟩ | ⟨next, rest, hline, hrest⟩
      · exact hd
      · exact ih hrest ((keeps_of_line? hline).leads hd)

/-- What a key with its value does to a table in braces, and what follows it. -/
theorem exists_pair_of_pairs?
    {fuel depth : Nat}
    {before entries : Entries}
    {cs rest : List Char}
    (h : pairs? (fuel + 1) depth before cs = some (entries, rest)) :
    ∃ parts value node behind defined,
      key? cs = some (parts, '=' :: value) ∧
      value? fuel depth (value.dropWhile isBlank) = some (node, behind) ∧
      defineKey parts node before = some defined ∧
      ((∃ more, behind.dropWhile isBlank = '\x7d' :: more ∧ defined = entries) ∨
        ∃ more,
          behind.dropWhile isBlank = ',' :: more ∧
          pairs? fuel depth defined more = some (entries, rest)) := by
  simp only [pairs?, Option.bind_eq_bind, Option.bind_eq_some_iff, Prod.exists] at h
  obtain ⟨parts, after, hkey, h⟩ := h
  split at h
  next value =>
    simp only [Option.bind_eq_some_iff, Prod.exists] at h
    obtain ⟨node, behind, hvalue, defined, hdefined, h⟩ := h
    refine ⟨parts, value, node, behind, defined, hkey, hvalue, hdefined, ?_⟩
    split at h
    next hclosed =>
      cases h
      exact .inl ⟨_, hclosed, rfl⟩
    next hcomma => exact .inr ⟨_, hcomma, h⟩
    next => cases h
  next => cases h

theorem leads_of_pairs?
    {fuel depth : Nat}
    {before entries : Entries}
    {cs rest : List Char}
    {i : Int64}
    {keys : List String}
    (h : pairs? fuel depth before cs = some (entries, rest))
    (hbefore : before.Leads i keys) :
    entries.Leads i keys := by
  induction fuel generalizing before cs with
  | zero => cases h
  | succ fuel ih =>
      obtain ⟨parts, value, node, behind, defined, -, -, hdefined, hend⟩ := exists_pair_of_pairs? h
      have hkept := (keeps_of_defineKey hdefined).leads hbefore
      rcases hend with ⟨more, -, rfl⟩ | ⟨more, -, hmore⟩
      · exact hkept
      · exact ih hmore hkept

/-- The rest of a table in braces, behind the value of a key. -/
def pairsBehind?
    (fuel depth : Nat)
    (defined : Entries)
    (behind : List Char) :
    Option (Entries × List Char) :=
  match behind.dropWhile isBlank with
  | '\x7d' :: rest => some (defined, rest)
  | ',' :: rest => pairs? fuel depth defined rest
  | _ => none

theorem pairs?_of_pair
    {fuel depth : Nat}
    {before defined : Entries}
    {cs value behind : List Char}
    {parts : List String}
    {node : Node}
    (hkey : key? cs = some (parts, '=' :: value))
    (hvalue : value? fuel depth (value.dropWhile isBlank) = some (node, behind))
    (hdefined : defineKey parts node before = some defined) :
    pairs? (fuel + 1) depth before cs = pairsBehind? fuel depth defined behind := by
  simp only [pairs?, hkey, hvalue, hdefined, Option.bind_eq_bind, Option.bind_some]
  rfl

theorem leads_of_pairsBehind?
    {fuel depth : Nat}
    {defined entries : Entries}
    {behind rest : List Char}
    {i : Int64}
    {keys : List String}
    (h : pairsBehind? fuel depth defined behind = some (entries, rest))
    (hdefined : defined.Leads i keys) :
    entries.Leads i keys := by
  rw [pairsBehind?] at h
  split at h
  next =>
    cases h
    exact hdefined
  next => exact leads_of_pairs? h hdefined
  next => cases h

mutual

/-- Whether a text starts with a value that has a literal at its front or behind some keys of a
table in braces, and what the value is and what follows if the literal is read as a number.
The first two numbers are those that bound the reading of the value. -/
inductive HoldsValue (literal : List Char) (i : Int64) :
    Nat → Nat → List Char → List String → Node → List Char → Prop
  | here
      {fuel depth : Nat}
      {behind : List Char}
      (hbehind : EndsToken behind) :
      HoldsValue literal i (fuel + 1) depth (literal ++ behind) [] (.int i) behind
  | inBraces
      {fuel depth : Nat}
      {cs rest : List Char}
      {keys : List String}
      {entries : Entries}
      (hpairs : HoldsPairs literal i fuel depth [] (cs.dropWhile isBlank) keys entries rest) :
      HoldsValue literal i (fuel + 1) (depth + 1) ('\x7b' :: cs) keys (.inline entries) rest

/-- Whether a text starts with the keys and values of a table in braces, some of which were read
before, and a literal stands in one of these values. -/
inductive HoldsPairs (literal : List Char) (i : Int64) :
    Nat → Nat → Entries → List Char → List String → Entries → List Char → Prop
  | first
      {fuel depth : Nat}
      {before defined entries : Entries}
      {cs value behind rest : List Char}
      {parts keys : List String}
      {node : Node}
      (hkey : key? cs = some (parts, '=' :: value))
      (hvalue : HoldsValue literal i fuel depth (value.dropWhile isBlank) keys node behind)
      (hdefined : defineKey parts node before = some defined)
      (hbehind : pairsBehind? fuel depth defined behind = some (entries, rest)) :
      HoldsPairs literal i (fuel + 1) depth before cs (parts ++ keys) entries rest
  | later
      {fuel depth : Nat}
      {before defined entries : Entries}
      {cs value behind more rest : List Char}
      {parts keys : List String}
      {node : Node}
      (hkey : key? cs = some (parts, '=' :: value))
      (hvalue : value? fuel depth (value.dropWhile isBlank) = some (node, behind))
      (hdefined : defineKey parts node before = some defined)
      (hcomma : behind.dropWhile isBlank = ',' :: more)
      (hmore : HoldsPairs literal i fuel depth defined more keys entries rest) :
      HoldsPairs literal i (fuel + 1) depth before cs keys entries rest

end

theorem HoldsPairs.exists_key?
    {literal cs rest : List Char}
    {i : Int64}
    {fuel depth : Nat}
    {before entries : Entries}
    {keys : List String}
    (h : HoldsPairs literal i fuel depth before cs keys entries rest) :
    ∃ parts value, key? cs = some (parts, '=' :: value) := by
  cases h with
  | first hkey | later hkey => exact ⟨_, _, hkey⟩

/-- A literal that spells a number is read as that number within values and tables in braces, and
they have the number. -/
theorem read_of_holds
    {literal : List Char}
    {i : Int64}
    (h : Spells literal i.toInt)
    (fuel : Nat) :
    (∀ depth cs keys node rest,
      HoldsValue literal i fuel depth cs keys node rest →
      value? fuel depth cs = some (node, rest) ∧ node.Leads i keys) ∧
    ∀ depth before cs keys entries rest,
      HoldsPairs literal i fuel depth before cs keys entries rest →
      pairs? fuel depth before cs = some (entries, rest) ∧ entries.Leads i keys := by
  induction fuel with
  | zero =>
      constructor
      · intro depth cs keys node rest hholds
        cases hholds
      · intro depth before cs keys entries rest hholds
        cases hholds
  | succ fuel ih =>
      obtain ⟨hvalues, hpairs⟩ := ih
      constructor
      · intro depth cs keys node rest hholds
        cases hholds with
        | here hbehind =>
            rw [value?_of_spells h hbehind, int64?_toInt]
            exact ⟨rfl, .here⟩
        | @inBraces _ _ cs _ _ entries hinner =>
            obtain ⟨hread, hleads⟩ := hpairs _ _ _ _ _ _ hinner
            refine ⟨?_, hleads⟩
            rw [value?]
            split
            next hclosed =>
              obtain ⟨parts, value, hkey⟩ := hinner.exists_key?
              rw [hclosed] at hkey
              cases hkey
            next =>
              rw [hread]
              rfl
      · intro depth before cs keys entries rest hholds
        cases hholds with
        | first hkey hinner hdefined hbehind =>
            obtain ⟨hread, hleads⟩ := hvalues _ _ _ _ _ hinner
            rw [pairs?_of_pair hkey hread hdefined]
            exact ⟨hbehind, leads_of_pairsBehind? hbehind (leads_of_defineKey hdefined hleads)⟩
        | later hkey hread hdefined hcomma hinner =>
            rw [pairs?_of_pair hkey hread hdefined, pairsBehind?, hcomma]
            exact hpairs _ _ _ _ _ _ hinner

/-- Whether the reading of a text comes to a place, with a document so far and so many steps
left. -/
inductive Reaches (text : List Char) : Nat → Document → List Char → Prop
  | start : Reaches text (text.length + 1) Document.empty text
  | line
      {left : Nat}
      {d next : Document}
      {cs rest : List Char}
      (hfront : Reaches text (left + 1) d cs)
      (hline : line? d (cs.dropWhile isBlank) = some (next, rest)) :
      Reaches text left next rest

theorem lines?_of_line?
    {d next : Document}
    {cs rest : List Char}
    (h : line? d (cs.dropWhile isBlank) = some (next, rest))
    (fuel : Nat) :
    lines? (fuel + 1) d cs = lines? fuel next rest := by
  rw [lines?]
  split
  next hnil =>
    rw [hnil] at h
    cases h
  next =>
    rw [h]
    rfl

/-- A text is read from every place that the reading comes to. -/
theorem Reaches.lines?_eq
    {text cs : List Char}
    {left : Nat}
    {d : Document}
    (h : Reaches text left d cs) :
    lines? (text.length + 1) Document.empty text = lines? left d cs := by
  induction h with
  | start => rfl
  | line _ hline ih => rw [ih, lines?_of_line? hline]

theorem line?_of_key?
    {d : Document}
    {cs rest : List Char}
    {parts : List String}
    (h : key? cs = some (parts, rest)) :
    line? d cs = keyLine? d cs := by
  unfold line?
  split
  next => cases h
  next => cases h
  next => cases h
  next => cases h
  next => rfl

/-- Whether a text reads as some entries if a literal, which stands in it as a value or in one, is
read as a number; and the keys that lead to it: those of the last header, those of its line, and
those within braces. -/
inductive Writes
    (text literal : List Char)
    (i : Int64) :
    List String → Entries → Prop
  | intro
      {left : Nat}
      {d next final : Document}
      {cs value behind rest : List Char}
      {parts keys : List String}
      {node : Node}
      {entries : Entries}
      (hlines : Reaches (trimMark text) (left + 1) d cs)
      (hkey : key? (cs.dropWhile isBlank) = some (parts, '=' :: value))
      (hvalue : HoldsValue literal i (value.length + 1) greatestDepth (value.dropWhile isBlank)
        keys node behind)
      (hend : lineEnd? behind = some rest)
      (hdefined : d.define parts node = some next)
      (hrest : lines? left next rest = some final)
      (hcontent : final.root.content? = some (.entries entries)) :
      Writes text literal i (d.header ++ (parts ++ keys)) entries

/-- A text with a whole number of 64 bits in it reads, and the number is what its keys lead to. -/
theorem Writes.parse?_eq
    {source : String}
    {literal : List Char}
    {i : Int64}
    {keys : List String}
    {entries : Entries}
    (h : Writes source.toList literal i keys entries)
    (hspells : Spells literal i.toInt) :
    parse? source = some (.entries entries) ∧ entries.Leads i keys := by
  cases h with
  | @intro left d next final cs value behind rest parts keys node _ hlines hkey hvalue hend
      hdefined hrest hcontent =>
      obtain ⟨hread, hleads⟩ := (read_of_holds hspells _).1 _ _ _ _ _ hvalue
      have hline : line? d (cs.dropWhile isBlank) = some (next, rest) := by
        rw [line?_of_key? hkey]
        simp only [keyLine?, hkey, hread, hend, hdefined, Option.bind_eq_bind, Option.bind_some,
          Option.pure_def]
      have hfinal := hlines.lines?_eq
      rw [lines?_of_line? hline, hrest] at hfinal
      refine ⟨?_, ?_⟩
      · rw [parse?, hfinal, Option.bind_some, hcontent]
      · have hnext := Document.leads_of_define hdefined hleads
        exact leads_of_content? (leads_of_lines? hrest hnext) hcontent

end Toml
end Offside
