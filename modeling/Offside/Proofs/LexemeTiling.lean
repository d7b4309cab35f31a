import Offside.Proofs.ByteBoundary
import Offside.Proofs.LongestMatch

/-!
# The lexemes of a source tile it

What a lexeme is can be said without the scanner, by its text and by what
stands around it: blanks and words go on as far as they can on both sides, a
comment goes on to the end of its line, and a line break is one of three texts
(`Exact`).  `first_of_exact` and `exact_of_first` compare this with the first
lexeme of a text.  By induction on the lexemes the list that the scanner returns
is a tiling of the source into exact lexemes, and there is no other.
-/

namespace Offside
namespace Lexeme

open TextLine (startsComment startsComment_append)

/-- Characters of one class that have none of the class next to them. -/
structure MaximalRun
    (p : Char → Bool)
    (before text after : List Char) :
    Prop where
  inside : ∀ c ∈ text, p c = true
  starts : ∀ c ∈ before.getLast?, p c = false
  stops : ∀ c ∈ after.head?, p c = false

/-- What a lexeme of each kind is, between the text before it and the text
after it. -/
def Exact : LexemeKind → List Char → List Char → List Char → Prop
  | .whitespace, before, text, after => MaximalRun isBlank before text after
  | .newline, _, text, after =>
      text = ['\r', '\n'] ∨ text = ['\n'] ∨ text = ['\r'] ∧ after.head? ≠ some '\n'
  | .comment, _, text, after =>
      startsComment text = true ∧
        (∀ c ∈ text, isBreak c = false) ∧
        ∀ c ∈ after.head?, isBreak c = true
  | .word, before, text, after =>
      startsComment text = false ∧ MaximalRun isWordChar before text after

/-- A run of a kind is the first lexeme where it ends as soon as it can. -/
theorem first_of_run
    {kind : LexemeKind}
    {c : Char}
    {cs after : List Char}
    (hbreak : isBreak c = false)
    (hkind : kindAt (c :: (cs ++ after)) = kind)
    (hinside : ∀ d ∈ cs, belongs kind d = true)
    (hstops : ∀ d ∈ after.head?, belongs kind d = false) :
    First (c :: cs ++ after) ⟨kind, c :: cs⟩ after := by
  have htake : after.takeWhile (belongs kind) = [] := by
    cases after with
    | nil => rfl
    | cons d after => rw [List.takeWhile_cons_of_neg (by simp [hstops d rfl])]
  have hdrop : after.dropWhile (belongs kind) = after := by
    cases after with
    | nil => rfl
    | cons d after => rw [List.dropWhile_cons_of_neg (by simp [hstops d rfl])]
  have hrun := First.run c (cs ++ after) hbreak
  rw [hkind, List.takeWhile_append_of_pos hinside, htake, List.append_nil,
    List.dropWhile_append_of_pos hinside, hdrop] at hrun
  exact hrun

/-- A word that is no comment does not become one by what stands after it. -/
theorem kindAt_of_word
    {c : Char}
    {cs after : List Char}
    (hcomment : startsComment (c :: cs) = false)
    (hc : isWordChar c = true)
    (hstops : ∀ d ∈ after.head?, isWordChar d = false) :
    kindAt (c :: (cs ++ after)) = .word := by
  have hblank : isBlank c = false := (isWordChar_eq_true_iff.1 hc).1
  by_cases hcs : cs = []
  · subst hcs
    cases after with
    | nil => rw [List.append_nil, Line.kindAt_cons, hcomment, hblank]; rfl
    | cons d after =>
        have hd : d ≠ '/' := by
          rintro rfl
          exact absurd (hstops '/' rfl) (by decide)
        rw [List.nil_append, kindAt_cons_cons, if_neg (fun h => hd h.2), hblank]
        rfl
  · rw [kindAt_cons_append c hcs, Line.kindAt_cons, hcomment, hblank]
    rfl

/-- An exact lexeme is the first one of the text that starts with it. -/
theorem first_of_exact
    {kind : LexemeKind}
    {before text after : List Char}
    (h : Exact kind before text after)
    (hne : text ≠ []) :
    First (text ++ after) ⟨kind, text⟩ after := by
  obtain ⟨c, cs, rfl⟩ := List.exists_cons_of_ne_nil hne
  cases kind with
  | whitespace =>
      have hblank := h.inside c List.mem_cons_self
      exact
        first_of_run (not_isBreak_of_isBlank hblank) (kindAt_of_isBlank hblank _)
          (fun d hd => h.inside d (List.mem_cons_of_mem c hd)) h.stops
  | newline =>
      rcases h with h | h | ⟨h, hfeed⟩
      · cases h
        exact First.carriageFeed after
      · cases h
        exact First.feed after
      · cases h
        exact First.carriage after hfeed
  | comment =>
      obtain ⟨hcomment, hinside, hstops⟩ := h
      refine first_of_run (hinside c List.mem_cons_self) ?_ ?_ ?_
      · exact kindAt_eq_comment_iff.2 (startsComment_append hcomment after)
      · intro d hd
        simp [belongs, hinside d (List.mem_cons_of_mem c hd)]
      · intro d hd
        simp [belongs, hstops d hd]
  | word =>
      obtain ⟨hcomment, hrun⟩ := h
      have hc := hrun.inside c List.mem_cons_self
      exact
        first_of_run (isWordChar_eq_true_iff.1 hc).2 (kindAt_of_word hcomment hc hrun.stops)
          (fun d hd => hrun.inside d (List.mem_cons_of_mem c hd)) hrun.stops

/-- Two parts of a text that no run of a class of characters goes across. -/
def PartedBy
    (p : Char → Bool)
    (before after : List Char) :
    Prop :=
  ∀ c ∈ before.getLast?, ∀ d ∈ after.head?, p c = true → p d = false

theorem PartedBy.starts
    {p : Char → Bool}
    {before after : List Char}
    (h : PartedBy p before after)
    {d : Char}
    (hhead : d ∈ after.head?)
    (hd : p d = true) :
    ∀ c ∈ before.getLast?, p c = false := by
  intro c hc
  by_contra hclass
  rw [h c hc d hhead (by simpa using hclass)] at hd
  cases hd

/-- Two parts of a text that no run of blanks and no word goes across. -/
structure Parted (before after : List Char) : Prop where
  blanks : PartedBy isBlank before after
  words : PartedBy isWordChar before after

theorem Parted.start (after : List Char) : Parted [] after :=
  ⟨by simp [PartedBy], by simp [PartedBy]⟩

/-- The text is parted behind every exact lexeme. -/
theorem parted_of_exact
    {kind : LexemeKind}
    {before text after : List Char}
    (h : Exact kind before text after)
    (hne : text ≠ []) :
    Parted (before ++ text) after := by
  have hlast : ∀ c ∈ (before ++ text).getLast?, c ∈ text := by
    intro c hc
    rw [List.getLast?_append_of_ne_nil _ hne] at hc
    exact List.mem_of_getLast? hc
  have hbreaks (hbreak : ∀ c ∈ text, isBreak c = true) : Parted (before ++ text) after := by
    constructor
    all_goals
      intro c hc d _ hclass
      have hc := hbreak c (hlast c hc)
      simp [isWordChar, hc, not_isBlank_of_isBreak hc] at hclass
  cases kind with
  | whitespace =>
      refine ⟨fun c _ d hd _ => h.stops d hd, ?_⟩
      intro c hc d _ hword
      simp [isWordChar, h.inside c (hlast c hc)] at hword
  | newline =>
      apply hbreaks
      rcases h with rfl | rfl | ⟨rfl, -⟩ <;> simp [isBreak]
  | comment =>
      have hd : ∀ d ∈ after.head?, isBreak d = true := h.2.2
      exact
        ⟨fun c _ d hd' _ => not_isBlank_of_isBreak (hd d hd'),
          fun c _ d hd' _ => by simp [isWordChar, hd d hd']⟩
  | word =>
      refine ⟨?_, fun c _ d hd _ => h.2.stops d hd⟩
      intro c hc d _ hblank
      rw [(isWordChar_eq_true_iff.1 (h.2.inside c (hlast c hc))).1] at hblank
      cases hblank

/-- The first lexeme behind a place that parts the text is exact. -/
theorem exact_of_first
    {before cs rest : List Char}
    {t : Lexeme}
    (h : First cs t rest)
    (hparted : Parted before cs) :
    Exact t.kind before t.text rest := by
  have hcomment := startsComment_text_of_first h
  by_cases hkind : t.kind = .newline
  · cases h with
    | carriageFeed => exact Or.inl rfl
    | carriage _ hfeed => exact Or.inr (Or.inr ⟨rfl, hfeed⟩)
    | feed => exact Or.inr (Or.inl rfl)
    | run => exact absurd hkind (kindAt_ne_newline _)
  obtain ⟨hinside, hstops⟩ := belongs_of_first h hkind
  have hfirst : ∃ c ∈ cs.head?, c ∈ t.text := by
    have htext := text_append_of_next? (next?_of_first h)
    obtain ⟨c, text, hcons⟩ :=
      List.exists_cons_of_ne_nil (text_ne_nil_of_next? (next?_of_first h))
    exact ⟨c, by rw [← htext, hcons]; rfl, by rw [hcons]; exact List.mem_cons_self⟩
  obtain ⟨c, hhead, hc⟩ := hfirst
  have hclass := hinside c hc
  obtain ⟨kind, text⟩ := t
  cases kind with
  | whitespace => exact ⟨hinside, hparted.blanks.starts hhead hclass, hstops⟩
  | newline => exact absurd rfl hkind
  | comment =>
      exact
        ⟨hcomment.2 rfl, fun d hd => by simpa [belongs] using hinside d hd,
          fun d hd => by simpa [belongs] using hstops d hd⟩
  | word =>
      exact
        ⟨by simpa using hcomment, hinside, hparted.words.starts hhead hclass, hstops⟩

end Lexeme

namespace Utf8

/-- A text has one place at each position. -/
theorem append_inj_of_byteLength_eq
    {cs ds cs' ds' : List Char}
    (h : cs ++ ds = cs' ++ ds')
    (hlength : byteLength cs = byteLength cs') :
    cs = cs' ∧ ds = ds' := by
  have htake := takeBytes?_append cs ds
  rw [h, hlength, takeBytes?_append, Option.some_inj] at htake
  subst htake
  exact ⟨rfl, List.append_cancel_left h⟩

end Utf8

namespace PlacedLexeme

open Lexeme

/-- Lexemes that follow each other from one position to another, none of them
empty. -/
def Tiles (stop : Nat) : Nat → List PlacedLexeme → Prop
  | start, [] => start = stop
  | start, t :: rest => t.start = start ∧ t.start < t.stop ∧ Tiles stop t.stop rest

theorem Tiles.start_lt_stop
    {start stop : Nat}
    {ts : List PlacedLexeme}
    (h : Tiles stop start ts)
    {t : PlacedLexeme}
    (ht : t ∈ ts) :
    t.start < t.stop := by
  induction ts generalizing start with
  | nil => cases ht
  | cons u ts ih =>
      obtain ⟨-, hlt, hrest⟩ := h
      rcases List.mem_cons.1 ht with rfl | ht
      · exact hlt
      · exact ih hrest ht

/-- A lexeme covers a part of a source, from the position where the part starts
to the one where it ends. -/
structure Covers
    (source : List Char)
    (t : PlacedLexeme)
    (before text after : List Char) :
    Prop where
  source_eq : source = before ++ (text ++ after)
  start_eq : t.start = Utf8.byteLength before
  stop_eq : t.stop = Utf8.byteLength before + Utf8.byteLength text

theorem Covers.text_ne_nil
    {source before text after : List Char}
    {t : PlacedLexeme}
    (h : Covers source t before text after)
    (hlt : t.start < t.stop) :
    text ≠ [] := by
  rintro rfl
  rw [h.start_eq, h.stop_eq] at hlt
  exact Nat.lt_irrefl _ hlt

/-- A tiling of a source into lexemes each of which is exactly what its kind
says. -/
structure ExactTiling
    (source : List Char)
    (ts : List PlacedLexeme) :
    Prop where
  tiles : Tiles (Utf8.byteLength source) 0 ts
  places :
    ∀ t ∈ ts, ∃ before text after,
      Covers source t before text after ∧ Exact t.kind before text after

/-- The lexemes of a text tile it. -/
theorem tiles_ofLexemes_lex
    (start : Nat)
    (cs : List Char) :
    Tiles (start + Utf8.byteLength cs) start (ofLexemes start (lex cs)) := by
  fun_induction lex cs generalizing start with
  | case1 cs h =>
      rw [next?_eq_none_iff.1 h]
      rfl
  | case2 cs t rest h ih =>
      have hpos := Utf8.byteLength_pos (text_ne_nil_of_next? h)
      have hrest := ih (start + Utf8.byteLength t.text)
      rw [Nat.add_assoc, ← Utf8.byteLength_append, text_append_of_next? h] at hrest
      exact ⟨rfl, Nat.lt_add_of_pos_right hpos, hrest⟩

/-- Behind a place that parts a source all lexemes are exact. -/
theorem exact_of_mem_ofLexemes_lex
    {before cs : List Char}
    (hparted : Parted before cs)
    {t : PlacedLexeme}
    (ht : t ∈ ofLexemes (Utf8.byteLength before) (lex cs)) :
    ∃ inner text after,
      Covers (before ++ cs) t inner text after ∧ Exact t.kind inner text after := by
  fun_induction lex cs generalizing before with
  | case1 => cases ht
  | case2 cs u rest h ih =>
      have htext := text_append_of_next? h
      have hexact := exact_of_first (first_of_next? h) hparted
      rcases List.mem_cons.1 ht with rfl | ht
      · exact ⟨before, u.text, rest, ⟨by rw [htext], rfl, rfl⟩, hexact⟩
      · rw [← Utf8.byteLength_append] at ht
        have hrest := ih (parted_of_exact hexact (text_ne_nil_of_next? h)) ht
        rwa [List.append_assoc, htext] at hrest

/-- Exact lexemes that tile the rest of a source are the lexemes of the rest. -/
theorem eq_ofLexemes_lex_of_tiles
    {before cs : List Char}
    {ts : List PlacedLexeme}
    (htiles : Tiles (Utf8.byteLength (before ++ cs)) (Utf8.byteLength before) ts)
    (hexact :
      ∀ t ∈ ts, ∃ inner text after,
        Covers (before ++ cs) t inner text after ∧ Exact t.kind inner text after) :
    ts = ofLexemes (Utf8.byteLength before) (lex cs) := by
  induction ts generalizing before cs with
  | nil =>
      have hlength : Utf8.byteLength before = Utf8.byteLength (before ++ cs) := htiles
      rw [Utf8.byteLength_append, Nat.left_eq_add, Utf8.byteLength_eq_zero_iff] at hlength
      rw [hlength, lex_nil]
      rfl
  | cons t ts ih =>
      obtain ⟨hstart, hlt, hrest⟩ := htiles
      obtain ⟨inner, text, after, hcovers, htext⟩ := hexact t List.mem_cons_self
      obtain ⟨rfl, rfl⟩ :=
        Utf8.append_inj_of_byteLength_eq hcovers.source_eq (hstart ▸ hcovers.start_eq)
      have hne := hcovers.text_ne_nil hlt
      have hstop : t.stop = Utf8.byteLength (before ++ text) := by
        rw [hcovers.stop_eq, Utf8.byteLength_append]
      rw [lex_of_next? (next?_of_first (first_of_exact htext hne)), ofLexemes,
        ← Utf8.byteLength_append]
      rw [hstop, ← List.append_assoc] at hrest
      rw [← List.append_assoc] at hexact
      rw [← ih hrest fun u hu => hexact u (List.mem_cons_of_mem t hu), ← hstop, ← hstart]

theorem exactTiling_ofSource (source : List Char) : ExactTiling source (ofSource source) where
  tiles := by
    have h := tiles_ofLexemes_lex 0 source
    rwa [Nat.zero_add] at h
  places := fun _ ht => exact_of_mem_ofLexemes_lex (Parted.start source) ht

/-- The lexemes of a source are its only tiling into exact lexemes.  At every
place of the source one of the patterns matches, and each lexeme is the unbeaten
match at its place. -/
theorem exactTiling_iff_eq_ofSource (source : List Char) :
    (∀ ts, ExactTiling source ts ↔ ts = ofSource source) ∧
      (∀ before after,
        source = before ++ after → after ≠ [] → ∃! t, LongestMatch after t) ∧
      ∀ t ∈ ofSource source, ∃ before text after,
        Covers source t before text after ∧ LongestMatch (text ++ after) ⟨t.kind, text⟩ := by
  refine ⟨fun ts => ⟨fun h => ?_, ?_⟩, fun _ after _ hne => existsUnique_longestMatch hne, ?_⟩
  · exact @eq_ofLexemes_lex_of_tiles [] source ts h.tiles h.places
  · rintro rfl
    exact exactTiling_ofSource source
  · intro t ht
    have htiling := exactTiling_ofSource source
    obtain ⟨before, text, after, hcovers, hexact⟩ := htiling.places t ht
    have hne := hcovers.text_ne_nil (htiling.tiles.start_lt_stop ht)
    exact ⟨before, text, after, hcovers, longestMatch_of_first (first_of_exact hexact hne)⟩

-- Two slashes inside a word start no comment, and two carriage returns are two line breaks.
example :
    ofSource "a//b //é\r\r\n".toList =
      [⟨.word, 0, 4⟩, ⟨.whitespace, 4, 5⟩, ⟨.comment, 5, 9⟩, ⟨.newline, 9, 10⟩,
        ⟨.newline, 10, 12⟩] := by
  decide +kernel

end PlacedLexeme
end Offside
