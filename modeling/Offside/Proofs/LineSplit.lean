import Mathlib.Data.List.TakeWhile
import Offside.Line
import Offside.Proofs.LineCut

/-!
# Reading a text in two parts

Cutting a text into lexemes always takes the longest run, so that in general
two parts of a text read by themselves give other lexemes than the whole.  Where
the parts meet between two lines nothing of the kind happens: a line break ends
every lexeme, and no lexeme goes on behind it.

`lex_append` and `Line.ofSource_append` say so for lexemes and for lines.
Conversely, the lines of a text always meet in such places
(`Line.split_ofSource`), and each part of them is what its own text reads as.
-/

namespace Offside
namespace Lexeme

/-- The first lexeme of a text and the text after it, as a relation with one
rule for each shape of lexeme. -/
inductive First : List Char → Lexeme → List Char → Prop
  | carriageFeed (rest : List Char) :
      First ('\r' :: '\n' :: rest) ⟨.newline, ['\r', '\n']⟩ rest
  | carriage
      (rest : List Char)
      (hfeed : rest.head? ≠ some '\n') :
      First ('\r' :: rest) ⟨.newline, ['\r']⟩ rest
  | feed (rest : List Char) :
      First ('\n' :: rest) ⟨.newline, ['\n']⟩ rest
  | run
      (c : Char)
      (rest : List Char)
      (hbreak : isBreak c = false) :
      First (c :: rest)
        ⟨kindAt (c :: rest), c :: rest.takeWhile (belongs (kindAt (c :: rest)))⟩
        (rest.dropWhile (belongs (kindAt (c :: rest))))

theorem first_of_next?
    {cs rest : List Char}
    {t : Lexeme}
    (h : next? cs = some (t, rest)) :
    First cs t rest := by
  unfold next? at h
  split at h
  next => cases h
  next =>
    cases h
    exact First.carriageFeed _
  next hfeed =>
    cases h
    refine First.carriage _ ?_
    intro hhead
    obtain ⟨after, rfl⟩ := List.head?_eq_some_iff.1 hhead
    exact hfeed after rfl
  next =>
    cases h
    exact First.feed _
  next hpair hcarriage hfeed =>
    cases h
    refine First.run _ _ ?_
    simp only [isBreak, Bool.or_eq_false_iff, beq_eq_false_iff_ne, ne_eq]
    exact ⟨hfeed, hcarriage⟩

/-- A run does not start like a line break, so that it is no line break. -/
theorem kindAt_ne_newline (cs : List Char) : kindAt cs ≠ .newline := by
  unfold kindAt
  split
  · simp
  · split <;> simp
  · simp

theorem kindAt_cons_cons
    (c d : Char)
    (cs : List Char) :
    kindAt (c :: d :: cs) =
      if c = '/' ∧ d = '/' then .comment
      else if isBlank c then .whitespace else .word := by
  unfold kindAt
  split
  next heq =>
    cases heq
    rfl
  next hslashes heq =>
    cases heq
    have hno : ¬ (c = '/' ∧ d = '/') := by
      rintro ⟨rfl, rfl⟩
      exact hslashes cs rfl rfl
    rw [if_neg hno]
  next heq => cases heq

/-- The kind of a run shows in its first two characters. -/
theorem kindAt_cons_append
    (c : Char)
    {cs : List Char}
    (hne : cs ≠ [])
    (ds : List Char) :
    kindAt (c :: (cs ++ ds)) = kindAt (c :: cs) := by
  cases cs with
  | nil => exact absurd rfl hne
  | cons d cs => rw [List.cons_append, kindAt_cons_cons, kindAt_cons_cons]

/-- Only line breaks hold characters of a line break. -/
theorem not_belongs_of_isBreak
    {kind : LexemeKind}
    {c : Char}
    (hkind : kind ≠ .newline)
    (hc : isBreak c = true) :
    belongs kind c = false := by
  have hblank : isBlank c = false := by
    simp only [isBreak, Bool.or_eq_true, beq_iff_eq] at hc
    rcases hc with rfl | rfl <;> rfl
  cases kind with
  | whitespace => exact hblank
  | newline => exact absurd rfl hkind
  | comment => simp [belongs, hc]
  | word => simp [belongs, isWordChar, hc]

theorem next?_of_first
    {cs rest : List Char}
    {t : Lexeme}
    (h : First cs t rest) :
    next? cs = some (t, rest) := by
  cases h with
  | carriageFeed => rfl
  | carriage _ hfeed =>
      cases rest with
      | nil => rfl
      | cons c rest =>
          have hc : c ≠ '\n' := by
            rintro rfl
            exact hfeed rfl
          unfold next?
          split <;> grind
  | feed => rfl
  | run c after hbreak =>
      unfold next?
      split <;> simp_all [isBreak]

/-- Behind a character that is not in a run, the run does not go on. -/
theorem takeWhile_append_of_mem
    {p : Char → Bool}
    {cs : List Char}
    {d : Char}
    (hmem : d ∈ cs)
    (hd : p d = false)
    (ds : List Char) :
    (cs ++ ds).takeWhile p = cs.takeWhile p ∧
      (cs ++ ds).dropWhile p = cs.dropWhile p ++ ds := by
  induction cs with
  | nil => cases hmem
  | cons c cs ih =>
      by_cases hc : p c = true
      · have hne : d ≠ c := by
          rintro rfl
          rw [hd] at hc
          cases hc
        obtain ⟨htake, hdrop⟩ := ih ((List.mem_cons.1 hmem).resolve_left hne)
        simp [hc, htake, hdrop]
      · simp [hc]

/-- The first lexeme of a text does not change when text is put behind a cut. -/
theorem First.append
    {before rest after : List Char}
    {t : Lexeme}
    (h : First before t rest)
    (hcut : LineCut before after) :
    First (before ++ after) t (rest ++ after) := by
  by_cases hafter : after = []
  · rw [hafter, List.append_nil, List.append_nil]
    exact h
  cases h with
  | carriageFeed => exact First.carriageFeed _
  | feed => exact First.feed _
  | carriage _ hfeed =>
      refine First.carriage _ ?_
      cases rest with
      | nil =>
          have hends := (LineCut.concat_iff [] hafter).1 hcut
          simpa using hends
      | cons c rest => exact hfeed
  | run c rest hbreak =>
      rcases List.eq_nil_or_concat rest with rfl | ⟨inner, d, rfl⟩
      · have hends := (LineCut.concat_iff [] hafter).1 hcut
        rcases hends with rfl | ⟨rfl, -⟩ <;> cases hbreak
      · rw [List.concat_eq_append] at hcut ⊢
        have hends := (LineCut.concat_iff (c :: inner) hafter).1 hcut
        have hd : isBreak d = true := by
          rcases hends with rfl | ⟨rfl, -⟩ <;> rfl
        have hkind :=
          kindAt_cons_append c
            (List.append_ne_nil_of_right_ne_nil inner (List.cons_ne_nil d [])) after
        obtain ⟨htake, hdrop⟩ :=
          takeWhile_append_of_mem (List.mem_append_right inner (List.mem_singleton_self d))
            (not_belongs_of_isBreak (kindAt_ne_newline (c :: (inner ++ [d]))) hd) after
        have hrun := First.run c (inner ++ [d] ++ after) hbreak
        rw [hkind, htake, hdrop] at hrun
        exact hrun

/-- Behind a cut the lexemes of a text are those of the text behind it. -/
theorem lex_append
    {before after : List Char}
    (hcut : LineCut before after) :
    lex (before ++ after) = lex before ++ lex after := by
  fun_induction lex before with
  | case1 before h =>
      rw [next?_eq_none_iff.1 h]
      rfl
  | case2 before t rest h ih =>
      have hfirst := first_of_next? h
      have hrest : LineCut rest after := by
        rw [← text_append_of_next? h] at hcut
        exact hcut.of_append_left
      rw [lex_of_next? (next?_of_first (hfirst.append hcut)), ih hrest]
      rfl

/-- A run holds no character of a line break. -/
theorem First.not_isBreak
    {cs rest : List Char}
    {t : Lexeme}
    (h : First cs t rest)
    (hkind : t.kind ≠ .newline) :
    ∀ c ∈ t.text, isBreak c = false := by
  cases h with
  | carriageFeed => exact absurd rfl hkind
  | carriage => exact absurd rfl hkind
  | feed => exact absurd rfl hkind
  | run c rest hbreak =>
      intro d hd
      rcases List.mem_cons.1 hd with rfl | hd
      · exact hbreak
      · have hbelongs := List.mem_takeWhile_imp hd
        by_contra hne
        rw [not_belongs_of_isBreak hkind (by simpa using hne)] at hbelongs
        cases hbelongs

/-- Behind a line break there is a cut. -/
theorem First.lineCut
    {cs rest : List Char}
    {t : Lexeme}
    (h : First cs t rest)
    (hkind : t.kind = .newline) :
    LineCut t.text rest := by
  cases h with
  | carriageFeed => exact LineCut.feed ['\r'] rest
  | carriage _ hfeed => exact LineCut.carriage [] rest hfeed
  | feed => exact LineCut.feed [] rest
  | run => exact absurd hkind (kindAt_ne_newline _)

/-- The last lexeme before a cut is a line break. -/
theorem kind_getLast_lex
    {before after : List Char}
    (hcut : LineCut before after)
    (hafter : after ≠ []) :
    ∀ t ∈ (lex before).getLast?, t.kind = .newline := by
  fun_induction lex before with
  | case1 => simp
  | case2 before t rest h ih =>
      have htext := text_append_of_next? h
      by_cases hrest : rest = []
      · subst hrest
        intro u hu
        have htu : t = u := by simpa using hu
        subst htu
        by_contra hkind
        rw [List.append_nil] at htext
        obtain ⟨inner, c, hinner⟩ :=
          (List.eq_nil_or_concat t.text).resolve_left (text_ne_nil_of_next? h)
        rw [List.concat_eq_append] at hinner
        rw [← htext, hinner, LineCut.concat_iff _ hafter] at hcut
        have hc := (first_of_next? h).not_isBreak hkind c (by simp [hinner])
        rcases hcut with rfl | ⟨rfl, -⟩ <;> cases hc
      · have hne : lex rest ≠ [] := by
          intro hnil
          apply hrest
          rw [← flatMap_text_lex rest, hnil]
          rfl
        rw [List.getLast?_cons_of_ne_nil hne]
        rw [← htext] at hcut
        exact ih hcut.of_append_left

end Lexeme

namespace Line

open Lexeme

@[simp] theorem ofSource_nil : ofSource [] = [] := by
  simp [ofSource, ofLexemes]

/-- Only the empty text has no lines. -/
theorem eq_nil_of_ofSource_eq_nil
    {cs : List Char}
    (h : ofSource cs = []) :
    cs = [] := by
  rw [← flatMap_text_ofSource cs, h]
  rfl

theorem ofSource_of_newline
    {cs rest : List Char}
    {t : Lexeme}
    (h : next? cs = some (t, rest))
    (hkind : t.kind = .newline) :
    ofSource cs = ⟨[], t.text⟩ :: ofSource rest := by
  rw [ofSource, lex_of_next? h, ofLexemes, if_pos hkind]
  rfl

theorem ofSource_of_run
    {cs rest : List Char}
    {t : Lexeme}
    (h : next? cs = some (t, rest))
    (hkind : t.kind ≠ .newline) :
    ofSource cs = prepend t (ofSource rest) := by
  rw [ofSource, lex_of_next? h, ofLexemes, if_neg hkind]
  rfl

theorem prepend_append
    (t : Lexeme)
    {lines : List Line}
    (hne : lines ≠ [])
    (more : List Line) :
    prepend t (lines ++ more) = prepend t lines ++ more := by
  cases lines with
  | nil => exact absurd rfl hne
  | cons line rest => rfl

theorem ofLexemes_ne_nil
    {ts : List Lexeme}
    (hne : ts ≠ []) :
    ofLexemes ts ≠ [] := by
  cases ts with
  | nil => exact absurd rfl hne
  | cons t rest =>
      by_cases hkind : t.kind = .newline
      · simp [ofLexemes, hkind]
      · rw [ofLexemes, if_neg hkind]
        cases ofLexemes rest <;> simp [prepend]

/-- Lexemes behind a line break form lines of their own. -/
theorem ofLexemes_append
    {ts : List Lexeme}
    (hlast : ∀ t ∈ ts.getLast?, t.kind = .newline)
    (us : List Lexeme) :
    ofLexemes (ts ++ us) = ofLexemes ts ++ ofLexemes us := by
  induction ts with
  | nil => rfl
  | cons t rest ih =>
      by_cases hrest : rest = []
      · subst hrest
        simp [ofLexemes, hlast t rfl]
      · rw [List.getLast?_cons_of_ne_nil hrest] at hlast
        rw [List.cons_append, ofLexemes, ofLexemes, ih hlast]
        by_cases hkind : t.kind = .newline
        · rw [if_pos hkind, if_pos hkind]
          rfl
        · rw [if_neg hkind, if_neg hkind, prepend_append t (ofLexemes_ne_nil hrest)]

/-- Behind a cut the lines of a text are those of the text behind it. -/
theorem ofSource_append
    {before after : List Char}
    (hcut : LineCut before after) :
    ofSource (before ++ after) = ofSource before ++ ofSource after := by
  by_cases hafter : after = []
  · rw [hafter, List.append_nil, ofSource_nil, List.append_nil]
  · rw [ofSource, lex_append hcut, ofLexemes_append (kind_getLast_lex hcut hafter)]
    rfl

/-- The first line of a text, and what is left of the text behind it. -/
theorem exists_rest_of_ofSource_eq_cons
    {cs : List Char}
    {line : Line}
    {lines : List Line}
    (h : ofSource cs = line :: lines) :
    ∃ rest,
      cs = line.text ++ rest ∧
      line.text ≠ [] ∧
      LineCut line.text rest ∧
      ofSource rest = lines := by
  fun_induction lex cs generalizing line lines with
  | case1 cs hnone =>
      rw [next?_eq_none_iff.1 hnone, ofSource_nil] at h
      cases h
  | case2 cs t rest hnext ih =>
      have htext := text_append_of_next? hnext
      have hne := text_ne_nil_of_next? hnext
      by_cases hkind : t.kind = .newline
      · rw [ofSource_of_newline hnext hkind] at h
        cases h
        exact ⟨rest, htext.symm, hne, (first_of_next? hnext).lineCut hkind, rfl⟩
      · rw [ofSource_of_run hnext hkind] at h
        cases hlines : ofSource rest with
        | nil =>
            rw [hlines] at h
            cases h
            rw [eq_nil_of_ofSource_eq_nil hlines] at htext
            have hline : text ⟨[t], []⟩ = t.text := by simp [text]
            exact
              ⟨[], by rw [hline, htext], by rwa [hline], LineCut.stop _, ofSource_nil⟩
        | cons line' lines' =>
            rw [hlines] at h
            cases h
            obtain ⟨after, hrest, hne', hcut, hafter⟩ := ih hlines
            have hline : text { line' with body := t :: line'.body } = t.text ++ line'.text := by
              simp [text]
            refine ⟨after, ?_, ?_, ?_, hafter⟩
            · rw [hline, List.append_assoc, ← hrest, htext]
            · rw [hline]
              exact List.append_ne_nil_of_left_ne_nil hne _
            · rw [hline]
              exact hcut.append_left hne' t.text

/-- No line of a text is empty. -/
theorem text_ne_nil_of_mem_ofSource
    {cs : List Char}
    {line : Line}
    (hline : line ∈ ofSource cs) :
    line.text ≠ [] := by
  generalize hlines : ofSource cs = lines at hline
  induction lines generalizing cs with
  | nil => cases hline
  | cons first lines ih =>
      obtain ⟨rest, -, hne, -, hrest⟩ := exists_rest_of_ofSource_eq_cons hlines
      rcases List.mem_cons.1 hline with rfl | hline
      · exact hne
      · exact ih hrest hline

/-- Between two lines of a text there is a cut, and the texts on both sides of
it read as the lines on both sides. -/
theorem split_ofSource
    {cs : List Char}
    {front back : List Line}
    (h : ofSource cs = front ++ back) :
    LineCut (front.flatMap text) (back.flatMap text) ∧
      ofSource (front.flatMap text) = front ∧
      ofSource (back.flatMap text) = back := by
  have hcutBack :
      LineCut (front.flatMap text) (back.flatMap text) ∧
        ofSource (back.flatMap text) = back := by
    induction front generalizing cs with
    | nil =>
        rw [List.nil_append] at h
        have htext := flatMap_text_ofSource cs
        rw [h] at htext
        exact ⟨LineCut.start _, by rw [htext, h]⟩
    | cons line front ih =>
        rw [List.cons_append] at h
        obtain ⟨rest, rfl, hne, hcut, hrest⟩ := exists_rest_of_ofSource_eq_cons h
        obtain ⟨hcutFront, hback⟩ := ih hrest
        refine ⟨?_, hback⟩
        rw [List.flatMap_cons]
        by_cases hfront : front.flatMap text = []
        · have htext := flatMap_text_ofSource rest
          rw [hrest, List.flatMap_append, hfront, List.nil_append] at htext
          rw [hfront, List.append_nil, htext]
          exact hcut
        · exact hcutFront.append_left hfront line.text
  obtain ⟨hcut, hback⟩ := hcutBack
  refine ⟨hcut, ?_, hback⟩
  have htext := flatMap_text_ofSource cs
  have hboth := ofSource_append hcut
  rw [h, List.flatMap_append] at htext
  rw [htext, h, hback] at hboth
  exact (List.append_cancel_right hboth).symm

end Line
end Offside
