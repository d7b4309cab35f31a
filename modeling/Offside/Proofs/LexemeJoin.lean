import Offside.Proofs.TextLines

/-!
# The lexemes of two texts put together

Where two texts are put together, a word or a run of blanks may go on from one into the
other, and a comment takes in what stands behind it, so that the lexemes of the whole are
in general not those of the parts.  Behind a line break none of this happens.  A line
break ends every lexeme, whatever stands before it (`lex_append_break`), and so the
lexemes of the parts follow each other, with the places of the second part moved on.

The one exception is a line break that is itself put together.  A carriage return that
ends the first text and a line feed that starts the second are two lexemes apart, and one
in the whole; all others stay as they are.
-/

namespace Offside
namespace PlacedLexeme

open Lexeme

theorem shift_shift
    (m n : Nat)
    (t : PlacedLexeme) :
    shift m (shift n t) = shift (m + n) t := by
  simp [shift, Nat.add_assoc]

@[simp] theorem ofSource_nil : ofSource [] = [] := by
  simp [ofSource, ofLexemes]

/-- Lexemes that are cut alike are placed alike, those of the second part further on. -/
theorem ofSource_append_of_lex_append
    {before after : List Char}
    (h : lex (before ++ after) = lex before ++ lex after) :
    ofSource (before ++ after) =
      ofSource before ++ (ofSource after).map (shift (Utf8.byteLength before)) := by
  rw [ofSource, h, ofLexemes_append, flatMap_text_lex, ofSource, ofSource,
    map_shift_ofLexemes, Nat.zero_add, Nat.add_zero]

/-- A line break is a lexeme of its own, whatever stands before it. -/
theorem ofSource_append_newline
    {before after ending rest : List Char}
    {d : Char}
    (hd : isBreak d = true)
    (hpair : before.getLast? = some '\r' → d ≠ '\n')
    (hnext : next? (d :: after) = some (⟨.newline, ending⟩, rest)) :
    ofSource (before ++ d :: after) =
      ofSource before ++
        ⟨.newline, Utf8.byteLength before, Utf8.byteLength (before ++ ending)⟩ ::
          (ofSource rest).map (shift (Utf8.byteLength (before ++ ending))) := by
  have hbreak :
      ofSource (d :: after) =
        ⟨.newline, 0, Utf8.byteLength ending⟩ ::
          (ofSource rest).map (shift (Utf8.byteLength ending)) := by
    rw [ofSource, lex_of_next? hnext, ofLexemes, ofSource, map_shift_ofLexemes, Nat.zero_add,
      Nat.add_zero]
  rw [ofSource_append_of_lex_append (lex_append_break hd hpair after), hbreak, List.map_cons,
    List.map_map, Utf8.byteLength_append]
  congr 2
  apply List.map_congr_left
  intro t _
  exact shift_shift _ _ t

/-- Behind a line break there is a cut, unless the line break goes on. -/
theorem lineCut_of_getLast?
    {before after : List Char}
    (hbreak : ∀ c ∈ before.getLast?, isBreak c = true)
    (hpair : ¬ (before.getLast? = some '\r' ∧ after.head? = some '\n')) :
    LineCut before after := by
  rcases List.eq_nil_or_concat before with rfl | ⟨inner, c, rfl⟩
  · exact LineCut.start after
  by_cases hafter : after = []
  · subst hafter
    exact LineCut.stop _
  rw [List.concat_eq_append] at hbreak hpair ⊢
  rw [List.getLast?_concat] at hbreak hpair
  have hc : c = '\n' ∨ c = '\r' := by simpa [isBreak] using hbreak c rfl
  rw [LineCut.concat_iff inner hafter]
  rcases hc with rfl | rfl
  · exact Or.inl rfl
  · exact Or.inr ⟨rfl, fun hfeed => hpair ⟨rfl, hfeed⟩⟩

/-- The lexemes of a text that is empty or ends in a line break, and those of the text put
behind it, are together the lexemes of the whole.  Where a carriage return and a line feed
meet, the last lexeme of the first text and the first one of the second become one. -/
theorem ofSource_append_behind_break
    {before : List Char}
    (hbreak : ∀ c ∈ before.getLast?, isBreak c = true)
    (after : List Char) :
    (¬ (before.getLast? = some '\r' ∧ after.head? = some '\n') →
      ofSource (before ++ after) =
        ofSource before ++ (ofSource after).map (shift (Utf8.byteLength before))) ∧
    (before.getLast? = some '\r' ∧ after.head? = some '\n' →
      ∃ front back,
        ofSource before =
          front ++ [⟨.newline, Utf8.byteLength before - 1, Utf8.byteLength before⟩] ∧
        ofSource after = ⟨.newline, 0, 1⟩ :: back ∧
        ofSource (before ++ after) =
          front ++
            ⟨.newline, Utf8.byteLength before - 1, Utf8.byteLength before + 1⟩ ::
              back.map (shift (Utf8.byteLength before))) := by
  constructor
  · intro hpair
    exact ofSource_append_of_lex_append (lex_append (lineCut_of_getLast? hbreak hpair))
  · rintro ⟨hcarriage, hfeed⟩
    obtain ⟨inner, rfl⟩ := List.getLast?_eq_some_iff.1 hcarriage
    obtain ⟨rest, rfl⟩ := List.head?_eq_some_iff.1 hfeed
    have hstart : Utf8.byteLength (inner ++ ['\r']) - 1 = Utf8.byteLength inner := by
      rw [Utf8.byteLength_append]
      rfl
    have hboth :
        Utf8.byteLength (inner ++ ['\r', '\n']) = Utf8.byteLength (inner ++ ['\r']) + 1 := by
      simp only [Utf8.byteLength_append]
      rfl
    have hlone : next? ['\r'] = some (⟨.newline, ['\r']⟩, []) := rfl
    have hline : next? ('\n' :: rest) = some (⟨.newline, ['\n']⟩, rest) := rfl
    have hpair : next? ('\r' :: '\n' :: rest) = some (⟨.newline, ['\r', '\n']⟩, rest) := rfl
    have hdistinct (h : inner.getLast? = some '\r') : '\r' ≠ '\n' := by decide
    rw [hstart]
    refine ⟨ofSource inner, (ofSource rest).map (shift 1), ?_, ?_, ?_⟩
    · have h := ofSource_append_newline rfl hdistinct hlone
      rwa [ofSource_nil] at h
    · have h := @ofSource_append_newline [] rest ['\n'] rest '\n' rfl (by simp) hline
      rwa [ofSource_nil] at h
    · have h := ofSource_append_newline rfl hdistinct hpair
      rw [hboth] at h
      rw [List.append_assoc, List.map_map]
      refine h.trans ?_
      congr 2
      apply List.map_congr_left
      intro t _
      exact (shift_shift _ _ t).symm

/-- A comment that ends in a carriage return, and a line feed behind it. -/
theorem ofSource_append_behind_break_halved :
    (∀ c ∈ "a //é\r".toList.getLast?, isBreak c = true) ∧
    ∃ front back,
      ofSource "a //é\r".toList = front ++ [⟨.newline, 6, 7⟩] ∧
      ofSource "\n b".toList = ⟨.newline, 0, 1⟩ :: back ∧
      ofSource "a //é\r\n b".toList = front ++ ⟨.newline, 6, 8⟩ :: back.map (shift 7) := by
  have hcarriage : "a //é\r".toList.getLast? = some '\r' := rfl
  have hbreak : ∀ c ∈ "a //é\r".toList.getLast?, isBreak c = true := by
    rw [hcarriage]
    simp [isBreak]
  exact ⟨hbreak, (ofSource_append_behind_break hbreak "\n b".toList).2 ⟨hcarriage, rfl⟩⟩

end PlacedLexeme
end Offside
