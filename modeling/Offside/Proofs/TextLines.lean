import Mathlib.Data.List.TakeWhile
import Offside.Proofs.LineSplit
import Offside.Proofs.LineTrace

/-!
# Lines as they are written

A layout scan never sees a line: it groups lexemes by the line breaks among
them.  Here a text is cut into lines by its characters alone, at the two
characters of a line break, at a line feed, and at a carriage return that stands
by itself.  What a scan measures is then read off the characters of a line: the
blanks at its start, and where its last word or its comment begins.

`Line.ofSource_eq` says that the lexemes of a text, grouped by line breaks, are
the lexemes of its lines, and `Line.measure?_ofText` that a line measures the
same in both readings.
-/

namespace Offside

/-- A line as it is written: its characters, and the line break behind them. -/
structure TextLine where
  content : List Char
  /-- Empty on a last line without a line break. -/
  ending : List Char
  deriving DecidableEq, Repr

namespace TextLine

/-- The characters of a line, its line break included. -/
def text (line : TextLine) : List Char :=
  line.content ++ line.ending

/-- Puts a character in front of the first of some lines. -/
def prepend
    (c : Char) :
    List TextLine → List TextLine
  | [] => [⟨[c], []⟩]
  | line :: rest => { line with content := c :: line.content } :: rest

/-- The lines of a text.  What stands behind the last line break is a line when
it is not empty. -/
def split : List Char → List TextLine
  | [] => []
  | '\r' :: '\n' :: rest => ⟨[], ['\r', '\n']⟩ :: split rest
  | '\r' :: rest => ⟨[], ['\r']⟩ :: split rest
  | '\n' :: rest => ⟨[], ['\n']⟩ :: split rest
  | c :: rest => prepend c (split rest)

/-- The blanks at the start of a line. -/
def indentation (line : TextLine) : List Char :=
  line.content.takeWhile Lexeme.isBlank

/-- Whether a text starts with the two slashes of a comment. -/
def startsComment : List Char → Bool
  | '/' :: '/' :: _ => true
  | _ => false

/-- Whether nothing stands behind the blanks at the start of a line, or only a
comment where comments count as blank. -/
def isBlank
    (commentsAreBlank : Bool)
    (line : TextLine) :
    Bool :=
  let rest := line.content.dropWhile Lexeme.isBlank
  rest.isEmpty || commentsAreBlank && startsComment rest

/-- The places of a line at which a run of characters other than blanks starts:
what stands before the place, and what stands behind it.  The flag tells whether
the character before the text is in such a run. -/
def runsFrom
    (before : List Char)
    (inRun : Bool) :
    List Char → List (List Char × List Char)
  | [] => []
  | c :: rest =>
      if Lexeme.isBlank c then runsFrom (before ++ [c]) false rest
      else if inRun then runsFrom (before ++ [c]) true rest
      else (before, c :: rest) :: runsFrom (before ++ [c]) true rest

/-- The places at which the content of a text starts anew: its words, which end
at the first run that starts like a comment, and then that comment where comments
count as content. -/
def contentsOf
    (commentsAreBlank : Bool)
    (runs : List (List Char × List Char)) :
    List (List Char × List Char) :=
  runs.takeWhile (fun place => !startsComment place.2)
    ++ if commentsAreBlank then []
      else (runs.find? fun place => startsComment place.2).toList

/-- What stands before the last word of a line, or before its comment where
comments count as content; nothing when there is neither. -/
def beforeLastContent?
    (commentsAreBlank : Bool)
    (line : TextLine) :
    Option (List Char) :=
  (contentsOf commentsAreBlank (runsFrom [] false line.content)).getLast?.map Prod.fst

/-- The measure of a line, taken from its characters. -/
def measure?
    (options : Layout.Options)
    (line : TextLine) :
    Option Layout.Measure :=
  (line.beforeLastContent? options.commentsAreBlank).map fun before =>
    ⟨Layout.Columns.width options.tabWidth line.indentation,
      Layout.Columns.width options.tabWidth before⟩

theorem foldr_prepend_cons
    (before : List Char)
    (line : TextLine)
    (rest : List TextLine) :
    before.foldr prepend (line :: rest) =
      { line with content := before ++ line.content } :: rest := by
  induction before with
  | nil => rfl
  | cons c before ih => rw [List.foldr_cons, ih]; rfl

theorem foldr_prepend_nil
    {before : List Char}
    (hne : before ≠ []) :
    before.foldr prepend [] = [⟨before, []⟩] := by
  induction before with
  | nil => exact absurd rfl hne
  | cons c before ih =>
      by_cases hnil : before = []
      · subst hnil
        rfl
      · rw [List.foldr_cons, ih hnil]
        rfl

/-- No character of a line is one of a line break. -/
theorem not_isBreak_of_mem_split
    {cs : List Char}
    {line : TextLine}
    (hline : line ∈ split cs) :
    ∀ c ∈ line.content, Lexeme.isBreak c = false := by
  fun_induction split cs generalizing line with
  | case1 => cases hline
  | case2 rest ih | case3 rest _ ih | case4 rest ih =>
      rcases List.mem_cons.1 hline with rfl | hline
      · simp
      · exact ih hline
  | case5 c rest hpair hcarriage hfeed ih =>
      have hc : Lexeme.isBreak c = false := by
        simp only [Lexeme.isBreak, Bool.or_eq_false_iff, beq_eq_false_iff_ne, ne_eq]
        exact ⟨hfeed, hcarriage⟩
      cases hsplit : split rest with
      | nil =>
          rw [hsplit] at hline
          have hline : line = ⟨[c], []⟩ := by simpa [prepend] using hline
          simpa [hline] using hc
      | cons first others =>
          rw [hsplit] at hline ih
          rcases List.mem_cons.1 hline with rfl | hline
          · intro d hd
            rcases List.mem_cons.1 hd with rfl | hd
            · exact hc
            · exact ih List.mem_cons_self d hd
          · exact ih (List.mem_cons_of_mem first hline)

end TextLine

namespace Lexeme

/-- A run ends at the latest before a character that is not in it. -/
theorem takeWhile_append_cons
    {p : Char → Bool}
    {d : Char}
    (hd : p d = false)
    (cs ds : List Char) :
    (cs ++ d :: ds).takeWhile p = cs.takeWhile p ∧
      (cs ++ d :: ds).dropWhile p = cs.dropWhile p ++ d :: ds := by
  induction cs with
  | nil => simp [hd]
  | cons c cs ih => by_cases hc : p c = true <;> simp [hc, ih]

/-- Before a line break the first lexeme of a text is that of the text before it.  Only a
line feed may belong to the lexeme before it, when that ends in a carriage return. -/
theorem First.append_break
    {before rest : List Char}
    {t : Lexeme}
    {d : Char}
    (h : First before t rest)
    (hd : isBreak d = true)
    (hpair : before.getLast? = some '\r' → d ≠ '\n')
    (after : List Char) :
    First (before ++ d :: after) t (rest ++ d :: after) := by
  cases h with
  | carriageFeed => exact First.carriageFeed _
  | feed => exact First.feed _
  | carriage _ hfeed =>
      refine First.carriage _ ?_
      cases rest with
      | nil => simpa using hpair rfl
      | cons c rest => exact hfeed
  | run c rest hbreak =>
      have hkind := kindAt_ne_newline (c :: rest)
      have hslash : d ≠ '/' := by
        rintro rfl
        cases hd
      have hkindAt : kindAt (c :: (rest ++ d :: after)) = kindAt (c :: rest) := by
        by_cases hrest : rest = []
        · subst hrest
          rw [List.nil_append, kindAt_cons_cons, if_neg fun h => hslash h.2]
          exact (kindAt.eq_2 c [] (by simp)).symm
        · exact kindAt_cons_append c hrest (d :: after)
      have hstop : belongs (kindAt (c :: rest)) d = false := not_belongs_of_isBreak hkind hd
      obtain ⟨htake, hdrop⟩ := takeWhile_append_cons hstop rest after
      have hrun := First.run c (rest ++ d :: after) hbreak
      rw [hkindAt, htake, hdrop] at hrun
      exact hrun

/-- A text without line breaks starts with no line break. -/
theorem First.kind_ne_newline
    {cs rest : List Char}
    {t : Lexeme}
    (h : First cs t rest)
    (hcs : ∀ c ∈ cs, isBreak c = false) :
    t.kind ≠ .newline := by
  cases h with
  | carriageFeed => exact absurd (hcs '\r' List.mem_cons_self) (by decide)
  | carriage => exact absurd (hcs '\r' List.mem_cons_self) (by decide)
  | feed => exact absurd (hcs '\n' List.mem_cons_self) (by decide)
  | run => exact kindAt_ne_newline _

theorem not_isBreak_of_next?
    {cs rest : List Char}
    {t : Lexeme}
    (h : next? cs = some (t, rest))
    (hcs : ∀ c ∈ cs, isBreak c = false) :
    ∀ c ∈ rest, isBreak c = false := by
  intro c hc
  apply hcs
  rw [← text_append_of_next? h]
  exact List.mem_append_right t.text hc

/-- Such a text has no line break among its lexemes. -/
theorem kind_ne_newline_of_mem_lex
    {cs : List Char}
    (hcs : ∀ c ∈ cs, isBreak c = false) :
    ∀ t ∈ lex cs, t.kind ≠ .newline := by
  fun_induction lex cs with
  | case1 => simp
  | case2 cs t rest h ih =>
      intro u hu
      rcases List.mem_cons.1 hu with rfl | hu
      · exact (first_of_next? h).kind_ne_newline hcs
      · exact ih (not_isBreak_of_next? h hcs) u hu

/-- A line break parts the lexemes of the text before it from those behind it, unless it is
the line feed of a carriage return. -/
theorem lex_append_break
    {before : List Char}
    {d : Char}
    (hd : isBreak d = true)
    (hpair : before.getLast? = some '\r' → d ≠ '\n')
    (after : List Char) :
    lex (before ++ d :: after) = lex before ++ lex (d :: after) := by
  fun_induction lex before with
  | case1 before h =>
      rw [next?_eq_none_iff.1 h]
      rfl
  | case2 before t rest h ih =>
      have hfirst := (first_of_next? h).append_break hd hpair after
      have hrest : rest.getLast? = some '\r' → d ≠ '\n' := by
        intro hlast
        apply hpair
        rw [← text_append_of_next? h, List.getLast?_append, hlast]
        rfl
      rw [lex_of_next? (next?_of_first hfirst), ih hrest]
      rfl

end Lexeme

namespace Line

open Lexeme

/-- The lexemes of a written line. -/
def ofText (line : TextLine) : Line :=
  ⟨lex line.content, line.ending⟩

@[simp] theorem text_ofText (line : TextLine) : (ofText line).text = line.text := by
  rw [text, ofText, flatMap_text_lex]
  rfl

/-- The first line of a text ends where the first line break stands. -/
theorem ofSource_append_newline
    {before rest : List Char}
    {d : Char}
    {after ending : List Char}
    {lines : List TextLine}
    (hbefore : ∀ c ∈ before, isBreak c = false)
    (hd : isBreak d = true)
    (hnext : next? (d :: after) = some (⟨.newline, ending⟩, rest))
    (hrest : ofSource rest = lines.map ofText) :
    ofSource (before ++ d :: after) =
      (before.foldr TextLine.prepend (⟨[], ending⟩ :: lines)).map ofText := by
  have hpair : before.getLast? = some '\r' → d ≠ '\n' := by
    intro hlast
    exact absurd (hbefore '\r' (List.mem_of_getLast? hlast)) (by decide)
  rw [ofSource, lex_append_break hd hpair, lex_of_next? hnext,
    ofLexemes_body_newline (kind_ne_newline_of_mem_lex hbefore) rfl,
    TextLine.foldr_prepend_cons, List.append_nil, List.map_cons, ← hrest]
  rfl

/-- The lexemes of a text, some of whose first characters are set apart. -/
theorem ofSource_append_eq
    {before : List Char}
    (hbefore : ∀ c ∈ before, isBreak c = false)
    (cs : List Char) :
    ofSource (before ++ cs) = (before.foldr TextLine.prepend (TextLine.split cs)).map ofText := by
  fun_induction TextLine.split cs generalizing before with
  | case1 =>
      by_cases hnil : before = []
      · subst hnil
        simp
      · have hlex : lex before ≠ [] := by
          intro hlex
          apply hnil
          rw [← flatMap_text_lex before, hlex]
          rfl
        rw [List.append_nil, TextLine.foldr_prepend_nil hnil, ofSource,
          ofLexemes_body (kind_ne_newline_of_mem_lex hbefore) hlex]
        rfl
  | case2 rest ih =>
      exact ofSource_append_newline hbefore rfl rfl (ih (List.forall_mem_nil _))
  | case3 rest hfeed ih =>
      have hnext : next? ('\r' :: rest) = some (⟨.newline, ['\r']⟩, rest) := by
        apply next?_of_first
        apply First.carriage
        intro hhead
        obtain ⟨after, rfl⟩ := List.head?_eq_some_iff.1 hhead
        exact hfeed after rfl
      exact ofSource_append_newline hbefore rfl hnext (ih (List.forall_mem_nil _))
  | case4 rest ih =>
      exact ofSource_append_newline hbefore rfl rfl (ih (List.forall_mem_nil _))
  | case5 c rest hpair hcarriage hfeed ih =>
      have hc : ∀ d ∈ before ++ [c], isBreak d = false := by
        intro d hd
        rcases List.mem_append.1 hd with hd | hd
        · exact hbefore d hd
        · rw [List.mem_singleton.1 hd]
          simp only [isBreak, Bool.or_eq_false_iff, beq_eq_false_iff_ne, ne_eq]
          exact ⟨hfeed, hcarriage⟩
      have hrest := ih hc
      rwa [List.append_assoc, List.foldr_append] at hrest

/-- The lexemes of a text, grouped by the line breaks among them, are the lexemes
of its lines. -/
theorem ofSource_eq (cs : List Char) : ofSource cs = (TextLine.split cs).map ofText :=
  @ofSource_append_eq [] (by simp) cs

end Line

namespace TextLine

open Lexeme

theorem not_isBlank_of_startsComment
    {c : Char}
    {cs : List Char}
    (h : startsComment (c :: cs) = true) :
    Lexeme.isBlank c = false := by
  unfold startsComment at h
  split at h
  next heq =>
    cases heq
    rfl
  next => cases h

/-- Blanks start no run. -/
theorem runsFrom_blanks
    {blanks : List Char}
    (hblanks : ∀ c ∈ blanks, Lexeme.isBlank c = true)
    (before cs : List Char) :
    runsFrom before false (blanks ++ cs) = runsFrom (before ++ blanks) false cs := by
  induction blanks generalizing before with
  | nil => rw [List.nil_append, List.append_nil]
  | cons c blanks ih =>
      rw [List.cons_append, runsFrom, if_pos (hblanks c List.mem_cons_self),
        ih (fun d hd => hblanks d (List.mem_cons_of_mem c hd)), List.append_assoc]
      rfl

/-- The characters of a run start no other run. -/
theorem runsFrom_run
    {run : List Char}
    (hrun : ∀ c ∈ run, Lexeme.isBlank c = false)
    (before cs : List Char) :
    runsFrom before true (run ++ cs) = runsFrom (before ++ run) true cs := by
  induction run generalizing before with
  | nil => rw [List.nil_append, List.append_nil]
  | cons c run ih =>
      rw [List.cons_append, runsFrom, if_neg (by simp [hrun c List.mem_cons_self]), if_pos rfl,
        ih (fun d hd => hrun d (List.mem_cons_of_mem c hd)), List.append_assoc]
      rfl

/-- Where a blank follows, or nothing, it makes no difference whether the
character before is in a run. -/
theorem runsFrom_of_blank
    {cs : List Char}
    (hcs : ∀ c ∈ cs.head?, Lexeme.isBlank c = true)
    (before : List Char)
    (inRun : Bool) :
    runsFrom before inRun cs = runsFrom before false cs := by
  cases cs with
  | nil => rfl
  | cons c cs => rw [runsFrom, runsFrom, if_pos (hcs c rfl), if_pos (hcs c rfl)]

/-- A text that starts with blanks starts no run before their end. -/
theorem runsFrom_cons_of_blank
    {c : Char}
    (hc : Lexeme.isBlank c = true)
    (before cs : List Char) :
    runsFrom before false (c :: cs) =
      runsFrom (before ++ c :: cs.takeWhile Lexeme.isBlank) false
        (cs.dropWhile Lexeme.isBlank) := by
  have hblanks : ∀ d ∈ c :: cs.takeWhile Lexeme.isBlank, Lexeme.isBlank d = true := by
    intro d hd
    rcases List.mem_cons.1 hd with rfl | hd
    · exact hc
    · exact List.mem_takeWhile_imp hd
  rw [← runsFrom_blanks hblanks, List.cons_append, List.takeWhile_append_dropWhile]

/-- A text that starts with a word starts the next run behind the word. -/
theorem runsFrom_cons_of_word
    {c : Char}
    (hc : Lexeme.isBlank c = false)
    {cs : List Char}
    (hcs : ∀ d ∈ cs, isBreak d = false)
    (before : List Char) :
    runsFrom before false (c :: cs) =
      (before, c :: cs) ::
        runsFrom (before ++ c :: cs.takeWhile isWordChar) false (cs.dropWhile isWordChar) := by
  have hword : ∀ d ∈ cs.takeWhile isWordChar, Lexeme.isBlank d = false := by
    intro d hd
    have hd := List.mem_takeWhile_imp hd
    simp only [isWordChar, Bool.and_eq_true, Bool.not_eq_true'] at hd
    exact hd.1
  have hbehind : ∀ d ∈ (cs.dropWhile isWordChar).head?, Lexeme.isBlank d = true := by
    intro d hd
    have hmem : d ∈ cs := (List.dropWhile_suffix isWordChar).subset (List.mem_of_mem_head? hd)
    have hstop := List.head?_dropWhile_not isWordChar cs
    rw [Option.mem_def.1 hd] at hstop
    simpa [isWordChar, hcs d hmem] using hstop
  rw [← runsFrom_of_blank hbehind _ true, List.append_cons, ← runsFrom_run hword,
    List.takeWhile_append_dropWhile, runsFrom, if_neg (by simp [hc])]
  rfl

theorem contentsOf_cons_word
    {place : List Char × List Char}
    (hword : startsComment place.2 = false)
    (commentsAreBlank : Bool)
    (runs : List (List Char × List Char)) :
    contentsOf commentsAreBlank (place :: runs) = place :: contentsOf commentsAreBlank runs := by
  simp [contentsOf, hword]

theorem contentsOf_cons_comment
    {place : List Char × List Char}
    (hcomment : startsComment place.2 = true)
    (commentsAreBlank : Bool)
    (runs : List (List Char × List Char)) :
    contentsOf commentsAreBlank (place :: runs) =
      if commentsAreBlank then [] else [place] := by
  simp [contentsOf, hcomment]

end TextLine

namespace Line

open Lexeme TextLine

/-- The kind of a run shows in the characters that it starts with. -/
theorem kindAt_cons
    (c : Char)
    (cs : List Char) :
    kindAt (c :: cs) =
      if startsComment (c :: cs) = true then .comment
      else if Lexeme.isBlank c = true then .whitespace else .word := by
  unfold kindAt startsComment
  split <;> simp_all

/-- The first lexeme of a text that starts with no line break. -/
theorem lex_cons
    {c : Char}
    (hc : isBreak c = false)
    (cs : List Char) :
    lex (c :: cs) =
      ⟨kindAt (c :: cs), c :: cs.takeWhile (belongs (kindAt (c :: cs)))⟩ ::
        lex (cs.dropWhile (belongs (kindAt (c :: cs)))) :=
  lex_of_next? (next?_of_first (First.run c cs hc))

/-- The blanks that a line starts with are its first lexeme. -/
theorem indentation_ofText
    {line : TextLine}
    (hline : ∀ c ∈ line.content, isBreak c = false) :
    (ofText line).indentation = line.indentation := by
  obtain ⟨content, ending⟩ := line
  cases content with
  | nil => simp [ofText, indentation, TextLine.indentation]
  | cons c cs =>
      have hc := hline c List.mem_cons_self
      rw [ofText, lex_cons hc, kindAt_cons, TextLine.indentation]
      by_cases hblank : Lexeme.isBlank c = true
      · have hcomment : ¬ startsComment (c :: cs) = true := by
          intro hcomment
          rw [not_isBlank_of_startsComment hcomment] at hblank
          cases hblank
        rw [if_neg hcomment, if_pos hblank, List.takeWhile_cons_of_pos hblank]
        rfl
      · rw [List.takeWhile_cons_of_neg hblank, if_neg hblank]
        split <;> rfl

theorem beforeLast?_cons
    (p : Lexeme → Bool)
    (t : Lexeme)
    (ts : List Lexeme) :
    beforeLast? p (t :: ts) =
      ((beforeLast? p ts).map (t.text ++ ·)).or (if p t then some [] else none) := by
  rw [beforeLast?]
  cases beforeLast? p ts <;> simp

/-- The last lexeme with content starts where the last content does. -/
theorem beforeLast?_lex
    {cs : List Char}
    (hcs : ∀ c ∈ cs, isBreak c = false)
    (commentsAreBlank : Bool)
    (before : List Char) :
    (beforeLast? (fun t => t.kind.isContent commentsAreBlank) (lex cs)).map (before ++ ·) =
      (contentsOf commentsAreBlank (runsFrom before false cs)).getLast?.map Prod.fst := by
  fun_induction lex cs generalizing before with
  | case1 cs h =>
      rw [next?_eq_none_iff.1 h]
      cases commentsAreBlank <;> rfl
  | case2 cs t rest h ih =>
      have hih := ih (not_isBreak_of_next? h hcs) (before ++ t.text)
      rw [beforeLast?_cons, Option.map_or, Option.map_map]
      simp only [Function.comp_def, ← List.append_assoc]
      rw [hih]
      cases first_of_next? h with
      | carriageFeed | carriage => exact absurd (hcs '\r' List.mem_cons_self) (by decide)
      | feed => exact absurd (hcs '\n' List.mem_cons_self) (by decide)
      | run c cs hbreak =>
          have hbehind : ∀ d ∈ cs, isBreak d = false :=
            fun d hd => hcs d (List.mem_cons_of_mem c hd)
          by_cases hcomment : startsComment (c :: cs) = true
          · have hkind : kindAt (c :: cs) = .comment := by
              rw [kindAt_cons, if_pos hcomment]
            have hall : cs.dropWhile (belongs .comment) = [] := by
              rw [List.dropWhile_eq_nil_iff]
              intro d hd
              simp [belongs, hbehind d hd]
            rw [hkind, hall, runsFrom_cons_of_word (not_isBlank_of_startsComment hcomment) hbehind,
              contentsOf_cons_comment hcomment]
            cases commentsAreBlank <;> simp [runsFrom, contentsOf, LexemeKind.isContent]
          by_cases hblank : Lexeme.isBlank c = true
          · have hkind : kindAt (c :: cs) = .whitespace := by
              rw [kindAt_cons, if_neg hcomment, if_pos hblank]
            rw [hkind, runsFrom_cons_of_blank hblank]
            exact Option.or_none
          · have hkind : kindAt (c :: cs) = .word := by
              rw [kindAt_cons, if_neg hcomment, if_neg hblank]
            have hbelongs : belongs .word = isWordChar := rfl
            rw [hkind, hbelongs, runsFrom_cons_of_word (by simpa using hblank) hbehind,
              contentsOf_cons_word (by simpa using hcomment), List.getLast?_cons]
            cases (contentsOf commentsAreBlank _).getLast? <;> simp [LexemeKind.isContent]

/-- A line measures the same by its lexemes and by its characters. -/
theorem measure?_ofText
    {line : TextLine}
    (hline : ∀ c ∈ line.content, isBreak c = false)
    (options : Layout.Options) :
    (ofText line).measure? options = line.measure? options := by
  have hbefore :
      (ofText line).beforeLastContent? options.commentsAreBlank =
        line.beforeLastContent? options.commentsAreBlank := by
    have h := beforeLast?_lex hline options.commentsAreBlank []
    simp only [List.nil_append, Option.map_id'] at h
    exact h
  rw [measure?, hbefore, indentation_ofText hline, TextLine.measure?]

/-- So do all lines of a text. -/
theorem map_measure?_ofSource
    (options : Layout.Options)
    (cs : List Char) :
    (ofSource cs).map (measure? options) = (TextLine.split cs).map (TextLine.measure? options) := by
  rw [ofSource_eq, List.map_map]
  apply List.map_congr_left
  intro line hline
  exact measure?_ofText (TextLine.not_isBreak_of_mem_split hline) options

end Line

namespace TextLine

open Lexeme

/-- The blanks at the start of a line start no run. -/
theorem runsFrom_content (line : TextLine) :
    runsFrom [] false line.content =
      runsFrom line.indentation false (line.content.dropWhile Lexeme.isBlank) := by
  have hblanks : ∀ c ∈ line.content.takeWhile Lexeme.isBlank, Lexeme.isBlank c = true :=
    fun c hc => List.mem_takeWhile_imp hc
  conv_lhs => rw [← List.takeWhile_append_dropWhile (p := Lexeme.isBlank) (l := line.content)]
  exact runsFrom_blanks hblanks [] _

/-- A line is blank when it has no content. -/
theorem beforeLastContent?_eq_none_iff
    (line : TextLine)
    (commentsAreBlank : Bool) :
    line.beforeLastContent? commentsAreBlank = none ↔ line.isBlank commentsAreBlank = true := by
  rw [beforeLastContent?, isBlank, runsFrom_content, Option.map_eq_none_iff,
    List.getLast?_eq_none_iff]
  cases hrest : line.content.dropWhile Lexeme.isBlank with
  | nil => simp [runsFrom, contentsOf]
  | cons c rest =>
      have hc := List.head?_dropWhile_not Lexeme.isBlank line.content
      rw [hrest] at hc
      have hrun (before : List Char) :
          runsFrom before false (c :: rest) =
            (before, c :: rest) :: runsFrom (before ++ [c]) true rest := by
        rw [runsFrom, if_neg (by simpa using hc)]
        rfl
      rw [hrun]
      by_cases hcomment : startsComment (c :: rest) = true
      · rw [contentsOf_cons_comment hcomment]
        cases commentsAreBlank <;> simp [hcomment]
      · rw [contentsOf_cons_word (by simpa using hcomment)]
        simp [hcomment]

/-- What stands before a run goes on from what stands before the text. -/
theorem exists_append_of_mem_runsFrom
    {before cs : List Char}
    {inRun : Bool}
    {place : List Char × List Char}
    (h : place ∈ runsFrom before inRun cs) :
    ∃ more, place.1 = before ++ more := by
  induction cs generalizing before inRun with
  | nil => cases h
  | cons c cs ih =>
      have hrest {inRun : Bool} (h : place ∈ runsFrom (before ++ [c]) inRun cs) :
          ∃ more, place.1 = before ++ more := by
        obtain ⟨more, hmore⟩ := ih h
        exact ⟨c :: more, by rw [hmore, List.append_assoc]; rfl⟩
      rw [runsFrom] at h
      split at h
      next => exact hrest h
      next =>
        split at h
        next => exact hrest h
        next =>
          rcases List.mem_cons.1 h with rfl | h
          · exact ⟨[], (List.append_nil before).symm⟩
          · exact hrest h

theorem mem_of_mem_contentsOf
    {commentsAreBlank : Bool}
    {runs : List (List Char × List Char)}
    {place : List Char × List Char}
    (h : place ∈ contentsOf commentsAreBlank runs) :
    place ∈ runs := by
  rw [contentsOf] at h
  rcases List.mem_append.1 h with h | h
  · exact (List.takeWhile_prefix _).subset h
  · split at h
    next => cases h
    next => exact List.mem_of_find?_eq_some (Option.mem_toList.1 h)

/-- The last content of a line stands behind its indentation. -/
theorem exists_append_of_beforeLastContent?
    {line : TextLine}
    {commentsAreBlank : Bool}
    {before : List Char}
    (h : line.beforeLastContent? commentsAreBlank = some before) :
    ∃ more, before = line.indentation ++ more := by
  obtain ⟨place, hplace, rfl⟩ := Option.map_eq_some_iff.1 h
  have hmem := mem_of_mem_contentsOf (List.mem_of_getLast? hplace)
  rw [runsFrom_content] at hmem
  exact exists_append_of_mem_runsFrom hmem

end TextLine

end Offside
