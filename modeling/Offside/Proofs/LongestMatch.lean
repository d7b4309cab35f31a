import Offside.Proofs.TextLines

/-!
# The first lexeme is the longest match

Each kind of lexeme has a pattern (`Matches`), and the patterns overlap: a
comment may match as a word as well, and what starts like a comment may be part
of a longer word.  Of all matches at the front of a text the longest one counts,
and of two that are as long the comment (`LongestMatch`).

The scanner does not try the patterns.  It decides on a kind by one or two
characters and then takes all characters of that kind.  `longestMatch_of_first`
shows that it finds the unbeaten match all the same, and as every text but the
empty one has a first lexeme, there is such a match at every place of a source.
-/

namespace Offside
namespace TextLine

theorem startsComment_append
    {cs : List Char}
    (h : startsComment cs = true)
    (ds : List Char) :
    startsComment (cs ++ ds) = true := by
  unfold startsComment at h
  split at h
  next => rfl
  next => cases h

end TextLine

namespace Lexeme

open TextLine (startsComment startsComment_append not_isBlank_of_startsComment)

theorem not_isBlank_of_isBreak
    {c : Char}
    (hc : isBreak c = true) :
    isBlank c = false :=
  @not_belongs_of_isBreak .whitespace c (by decide) hc

theorem not_isBreak_of_isBlank
    {c : Char}
    (hc : isBlank c = true) :
    isBreak c = false := by
  by_contra hbreak
  rw [not_isBlank_of_isBreak (by simpa using hbreak)] at hc
  cases hc

theorem isWordChar_eq_true_iff
    {c : Char} :
    isWordChar c = true ↔ isBlank c = false ∧ isBreak c = false := by
  simp [isWordChar]

/-- No comment starts with a blank. -/
theorem kindAt_of_isBlank
    {c : Char}
    (hc : isBlank c = true)
    (cs : List Char) :
    kindAt (c :: cs) = .whitespace := by
  have hcomment : startsComment (c :: cs) ≠ true := by
    intro hcomment
    rw [not_isBlank_of_startsComment hcomment] at hc
    cases hc
  rw [Line.kindAt_cons, if_neg hcomment, if_pos hc]

/-- A character other than a line break belongs to the run that it starts. -/
theorem belongs_kindAt
    {c : Char}
    (hbreak : isBreak c = false)
    (cs : List Char) :
    belongs (kindAt (c :: cs)) c = true := by
  rw [Line.kindAt_cons]
  split
  next => simp [belongs, hbreak]
  next =>
    split
    next hblank => exact hblank
    next hblank => simp [belongs, isWordChar, hbreak, hblank]

theorem kindAt_eq_comment_iff
    {c : Char}
    {cs : List Char} :
    kindAt (c :: cs) = .comment ↔ startsComment (c :: cs) = true := by
  rw [Line.kindAt_cons]
  split
  next hcomment => simp [hcomment]
  next hcomment => split <;> simp [hcomment]

/-- A run holds characters of its kind only, and ends before the first other. -/
theorem belongs_of_first
    {cs rest : List Char}
    {t : Lexeme}
    (h : First cs t rest)
    (hkind : t.kind ≠ .newline) :
    (∀ c ∈ t.text, belongs t.kind c = true) ∧ ∀ c ∈ rest.head?, belongs t.kind c = false := by
  cases h with
  | carriageFeed => exact absurd rfl hkind
  | carriage => exact absurd rfl hkind
  | feed => exact absurd rfl hkind
  | run c cs hbreak =>
      constructor
      · intro d hd
        rcases List.mem_cons.1 hd with rfl | hd
        · exact belongs_kindAt hbreak cs
        · exact List.mem_takeWhile_imp hd
      · intro d hd
        have hstop := List.head?_dropWhile_not (belongs (kindAt (c :: cs))) cs
        rw [Option.mem_def.1 hd] at hstop
        simpa using hstop

/-- The text of a lexeme starts like a comment only when it is one. -/
theorem startsComment_text_of_first
    {cs rest : List Char}
    {t : Lexeme}
    (h : First cs t rest) :
    startsComment t.text = true ↔ t.kind = .comment := by
  cases h with
  | carriageFeed => simp [startsComment]
  | carriage => simp [startsComment]
  | feed => simp [startsComment]
  | run c cs hbreak =>
      dsimp only
      constructor
      · intro hcomment
        have h := startsComment_append hcomment (cs.dropWhile (belongs (kindAt (c :: cs))))
        rw [List.cons_append, List.takeWhile_append_dropWhile] at h
        exact kindAt_eq_comment_iff.2 h
      · intro hkind
        have hcomment := kindAt_eq_comment_iff.1 hkind
        rw [hkind]
        unfold startsComment at hcomment
        split at hcomment
        next heq => cases heq; rfl
        next => cases hcomment

/-- The texts that the pattern of each kind matches. -/
inductive Matches : LexemeKind → List Char → Prop
  | blanks
      (text : List Char)
      (hne : text ≠ [])
      (hblank : ∀ c ∈ text, isBlank c = true) :
      Matches .whitespace text
  | carriageFeed : Matches .newline ['\r', '\n']
  | feed : Matches .newline ['\n']
  | carriage : Matches .newline ['\r']
  | comment
      (text : List Char)
      (hbreak : ∀ c ∈ text, isBreak c = false) :
      Matches .comment ('/' :: '/' :: text)
  | word
      (text : List Char)
      (hne : text ≠ [])
      (hword : ∀ c ∈ text, isWordChar c = true) :
      Matches .word text

/-- The match at the front of a text that no other one beats: none is longer,
and only a word may be as long, which a comment is preferred to. -/
structure LongestMatch
    (cs : List Char)
    (t : Lexeme) :
    Prop where
  fits : Matches t.kind t.text
  front : t.text <+: cs
  longest : ∀ kind text, Matches kind text → text <+: cs → text.length ≤ t.text.length
  preferred : ∀ kind, Matches kind t.text → kind = t.kind ∨ kind = .word ∧ t.kind = .comment

/-- No two matches are unbeaten. -/
theorem LongestMatch.unique
    {cs : List Char}
    {t u : Lexeme}
    (ht : LongestMatch cs t)
    (hu : LongestMatch cs u) :
    t = u := by
  have hlength : t.text.length = u.text.length :=
    Nat.le_antisymm (hu.longest _ _ ht.fits ht.front) (ht.longest _ _ hu.fits hu.front)
  have htext : t.text = u.text :=
    (List.prefix_of_prefix_length_le ht.front hu.front hlength.le).eq_of_length hlength
  have hkind : t.kind = u.kind := by
    have hfits := ht.fits
    rw [htext] at hfits
    rcases hu.preferred _ hfits with h | ⟨hword, hcomment⟩
    · exact h
    · have hfits := hu.fits
      rw [← htext] at hfits
      rcases ht.preferred _ hfits with h | ⟨h, -⟩
      · exact h.symm
      · rw [hcomment] at h
        cases h
  cases t
  cases u
  exact congrArg₂ Lexeme.mk hkind htext

theorem Matches.ne_nil
    {kind : LexemeKind}
    {text : List Char}
    (h : Matches kind text) :
    text ≠ [] := by
  cases h with
  | blanks _ hne => exact hne
  | word _ hne => exact hne
  | _ => simp

/-- Whatever matches a run goes on with characters of its kind. -/
theorem Matches.belongs_kindAt
    {kind : LexemeKind}
    {c : Char}
    {text rest : List Char}
    (h : Matches kind (c :: text))
    (hfront : text <+: rest)
    (hbreak : isBreak c = false) :
    ∀ d ∈ text, belongs (kindAt (c :: rest)) d = true := by
  intro d hd
  obtain ⟨more, rfl⟩ := hfront
  cases h with
  | blanks _ _ hblank =>
      rw [kindAt_of_isBlank (hblank c List.mem_cons_self)]
      exact hblank d (List.mem_cons_of_mem c hd)
  | carriageFeed => cases hbreak
  | feed => cases hbreak
  | carriage => cases hbreak
  | comment text hbreaks =>
      have hd : isBreak d = false := by
        rcases List.mem_cons.1 hd with rfl | hd
        · rfl
        · exact hbreaks d hd
      simp [Line.kindAt_cons, startsComment, belongs, hd]
  | word _ _ hword =>
      have hc := isWordChar_eq_true_iff.1 (hword c List.mem_cons_self)
      have hd := hword d (List.mem_cons_of_mem c hd)
      rw [Line.kindAt_cons, hc.1]
      split
      next => simp [belongs, (isWordChar_eq_true_iff.1 hd).2]
      next => exact hd

/-- The text of a first lexeme matches the pattern of its kind. -/
theorem matches_of_first
    {cs rest : List Char}
    {t : Lexeme}
    (h : First cs t rest) :
    Matches t.kind t.text := by
  have hne := text_ne_nil_of_next? (next?_of_first h)
  by_cases hkind : t.kind = .newline
  · cases h with
    | carriageFeed => exact Matches.carriageFeed
    | carriage => exact Matches.carriage
    | feed => exact Matches.feed
    | run => exact absurd hkind (kindAt_ne_newline _)
  have hcomment := startsComment_text_of_first h
  obtain ⟨hinside, -⟩ := belongs_of_first h hkind
  obtain ⟨kind, text⟩ := t
  cases kind with
  | whitespace => exact Matches.blanks text hne hinside
  | newline => exact absurd rfl hkind
  | comment =>
      have hcomment := hcomment.2 rfl
      unfold startsComment at hcomment
      split at hcomment
      next after heq =>
        subst heq
        exact Matches.comment after fun c hc => by
          simpa [belongs] using
            hinside c (List.mem_cons_of_mem _ (List.mem_cons_of_mem _ hc))
      next => cases hcomment
  | word => exact Matches.word text hne hinside

/-- Nothing that matches at the front of a text is longer than its first lexeme. -/
theorem length_le_of_matches
    {cs rest text : List Char}
    {t : Lexeme}
    {kind : LexemeKind}
    (h : First cs t rest)
    (hmatch : Matches kind text)
    (hfront : text <+: cs) :
    text.length ≤ t.text.length := by
  obtain ⟨d, text, rfl⟩ := List.exists_cons_of_ne_nil hmatch.ne_nil
  have hshort (hd : isBreak d = true) :
      d = '\r' ∧ text = ['\n'] ∨ text = [] := by
    cases hmatch with
    | blanks _ _ hblank =>
        have hblank := hblank d List.mem_cons_self
        rw [not_isBlank_of_isBreak hd] at hblank
        cases hblank
    | carriageFeed => exact Or.inl ⟨rfl, rfl⟩
    | feed => exact Or.inr rfl
    | carriage => exact Or.inr rfl
    | comment => cases hd
    | word _ _ hword =>
        have hword := hword d List.mem_cons_self
        rw [(isWordChar_eq_true_iff.1 hword).2] at hd
        cases hd
  cases h with
  | carriageFeed =>
      obtain ⟨rfl, -⟩ := List.cons_prefix_cons.1 hfront
      rcases hshort rfl with ⟨-, rfl⟩ | rfl <;> simp
  | carriage _ hfeed =>
      obtain ⟨rfl, hrest⟩ := List.cons_prefix_cons.1 hfront
      rcases hshort rfl with ⟨-, rfl⟩ | rfl
      · obtain ⟨more, rfl⟩ := hrest
        exact absurd rfl hfeed
      · simp
  | feed =>
      obtain ⟨rfl, -⟩ := List.cons_prefix_cons.1 hfront
      rcases hshort rfl with ⟨h, -⟩ | rfl
      · cases h
      · simp
  | run c cs hbreak =>
      obtain ⟨rfl, hrest⟩ := List.cons_prefix_cons.1 hfront
      have hinside := hmatch.belongs_kindAt hrest hbreak
      obtain ⟨more, hmore⟩ := hrest
      have htake :
          cs.takeWhile (belongs (kindAt (d :: cs))) =
            text ++ more.takeWhile (belongs (kindAt (d :: cs))) := by
        conv_lhs => arg 2; rw [← hmore]
        exact List.takeWhile_append_of_pos hinside
      simp [htake]

/-- The first character of a match tells its kind, up to comments and words. -/
theorem Matches.kind_iff
    {kind : LexemeKind}
    {c : Char}
    {cs : List Char}
    (h : Matches kind (c :: cs)) :
    (kind = .whitespace ↔ isBlank c = true) ∧ (kind = .newline ↔ isBreak c = true) := by
  cases h with
  | blanks _ _ hblank =>
      have hc := hblank c List.mem_cons_self
      simp [hc, not_isBreak_of_isBlank hc]
  | carriageFeed => decide
  | feed => decide
  | carriage => decide
  | comment => decide
  | word _ _ hword =>
      have hc := isWordChar_eq_true_iff.1 (hword c List.mem_cons_self)
      simp [hc.1, hc.2]

/-- Only a comment matches the patterns of two kinds. -/
theorem kind_eq_of_matches
    {kind kind' : LexemeKind}
    {text : List Char}
    (h : Matches kind text)
    (h' : Matches kind' text)
    (hcomment : startsComment text = true ↔ kind = .comment) :
    kind' = kind ∨ kind' = .word ∧ kind = .comment := by
  obtain ⟨c, cs, rfl⟩ := List.exists_cons_of_ne_nil h.ne_nil
  have hblank : kind' = .whitespace ↔ kind = .whitespace :=
    h'.kind_iff.1.trans h.kind_iff.1.symm
  have hbreak : kind' = .newline ↔ kind = .newline :=
    h'.kind_iff.2.trans h.kind_iff.2.symm
  have hstarts : kind' = .comment → kind = .comment := by
    rintro rfl
    cases h' with
    | comment => exact hcomment.1 rfl
  cases kind' with
  | whitespace => exact Or.inl (hblank.1 rfl).symm
  | newline => exact Or.inl (hbreak.1 rfl).symm
  | comment => exact Or.inl (hstarts rfl).symm
  | word =>
      cases kind with
      | whitespace => cases hblank.2 rfl
      | newline => cases hbreak.2 rfl
      | comment => exact Or.inr ⟨rfl, rfl⟩
      | word => exact Or.inl rfl

/-- The first lexeme of a text is its unbeaten match. -/
theorem longestMatch_of_first
    {cs rest : List Char}
    {t : Lexeme}
    (h : First cs t rest) :
    LongestMatch cs t where
  fits := matches_of_first h
  front := ⟨rest, text_append_of_next? (next?_of_first h)⟩
  longest := fun _ _ hmatch hfront => length_le_of_matches h hmatch hfront
  preferred := fun _ hmatch =>
    kind_eq_of_matches (matches_of_first h) hmatch (startsComment_text_of_first h)

/-- There is an unbeaten match at every place but the end of a text. -/
theorem existsUnique_longestMatch
    {cs : List Char}
    (hne : cs ≠ []) :
    ∃! t, LongestMatch cs t := by
  cases hnext : next? cs with
  | none => exact absurd (next?_eq_none_iff.1 hnext) hne
  | some pair =>
      have h := longestMatch_of_first (first_of_next? hnext)
      exact ⟨pair.1, h, fun u hu => hu.unique h⟩

end Lexeme
end Offside
