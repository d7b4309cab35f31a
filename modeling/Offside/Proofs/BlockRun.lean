import Offside.Proofs.DepthAccount
import Offside.Proofs.OpenLevels

/-!
# Levels that a run opens and closes

The tokens of a run go up and down with the number of open levels.  A line whose
width is not less than that of a level leaves the level open, with what is inside
it changed; a narrower line closes it, behind the levels inside it.  A level is
therefore closed by the first narrower line, or at the end, and the tokens before
that close exactly the levels inside it (`exists_closing`).
-/

namespace Offside
namespace StateView

open Layout

variable {v : StateView}

/-- The levels behind a line with content are those that are not wider than it, and
its own width where it opened a level. -/
theorem levels_afterContent
    (h : v.Increasing)
    (measure : Measure) :
    (v.afterLine (some measure)).2.levels =
      v.levels.filter (· ≤ measure.width) ++
        if Token.indent ∈ (v.afterLine (some measure)).1 then [measure.width] else [] := by
  show (v.settle measure.width).2.levels =
    _ ++ if Token.indent ∈ (v.settle measure.width).1 then _ else _
  rcases settle_cases h measure.width with
    ⟨hwider, htokens, hlevels⟩ | ⟨landing, hindent, -, htokens, hlevels⟩
  · have hall := filter_le_eq_self fun level hlevel => UInt32.le_of_lt (hwider level hlevel)
    rw [hlevels, htokens, if_pos (List.mem_singleton_self _), hall]
  · have hnot :
        Token.indent ∉
          List.replicate (v.levels.countP (measure.width < ·)) .dedent ++ landing := by
      simp [hindent, List.mem_replicate]
    rw [hlevels, htokens, if_neg hnot, List.append_nil]

/-- A line with content closes as many levels as are wider than it. -/
theorem count_dedent_afterContent
    (h : v.Increasing)
    (measure : Measure) :
    (v.afterLine (some measure)).1.count .dedent = v.levels.countP (measure.width < ·) := by
  show (v.settle measure.width).1.count .dedent = _
  rcases settle_cases h measure.width with
    ⟨hwider, htokens, -⟩ | ⟨landing, -, hdedent, htokens, -⟩
  · have hnone := countP_lt_eq_zero fun level hlevel => UInt32.le_of_lt (hwider level hlevel)
    rw [htokens, hnone]
    rfl
  · rw [htokens, List.count_append, List.count_replicate_self,
      List.count_eq_zero_of_not_mem hdedent, Nat.add_zero]

theorem Increasing.after
    (h : v.Increasing)
    (measures : List (Option Measure)) :
    (v.after measures).Increasing := by
  induction measures generalizing v with
  | nil => exact h
  | cons measure rest ih => exact ih (h.afterLine measure)

/-- The tokens up to the end close as many blocks as are open, and never more. -/
theorem height_tokensToEnd
    (h : v.Increasing)
    (measures : List (Option Measure))
    (count : Nat) :
    -(v.levels.length : Int) ≤ height (v.tokensToEnd measures) count := by
  induction measures generalizing v count with
  | nil => exact le_height_replicate_dedent v.levels.length count
  | cons measure rest ih =>
      obtain ⟨hbalance, hheight⟩ := v.height_afterLine measure
      rw [tokensToEnd_cons]
      refine le_height_append ?_ ?_ count
      · intro count
        have hcount := hheight count
        omega
      · intro count
        have hcount := ih (h.afterLine measure) count
        rw [hbalance]
        omega

/-- Whether a line has content and is narrower than a level. -/
def narrower
    (level : UInt32) :
    Option Measure → Bool
  | some measure => decide (measure.width < level)
  | none => false

variable {outer inside : List UInt32} {level : UInt32} {measure : Option Measure}

/-- A line that is not narrower than a level leaves it open, with other levels
inside it. -/
theorem exists_levels_of_not_narrower
    (h : v.Increasing)
    (hlevels : v.levels = outer ++ level :: inside)
    (hwide : narrower level measure = false) :
    ∃ inside', (v.afterLine measure).2.levels = outer ++ level :: inside' := by
  cases measure with
  | none => exact ⟨inside, hlevels⟩
  | some measure =>
      have hle : level ≤ measure.width := by
        simpa [narrower] using hwide
      have hbelow : ∀ width ∈ outer, width ≤ measure.width := by
        rw [Increasing, hlevels, List.pairwise_append] at h
        intro width hwidth
        have hlt := h.2.2 width hwidth level List.mem_cons_self
        exact UInt32.le_trans (UInt32.le_of_lt hlt) hle
      rw [levels_afterContent h, hlevels, List.filter_append, filter_le_eq_self hbelow,
        List.filter_cons_of_pos (by simpa using hle), List.append_assoc, List.cons_append]
      exact ⟨_, rfl⟩

/-- A narrower line closes a level right behind the levels inside it. -/
theorem exists_tokens_of_narrower
    (h : v.Increasing)
    (hlevels : v.levels = outer ++ level :: inside)
    (hnarrow : narrower level measure = true) :
    ∃ rest,
      (v.afterLine measure).1 = List.replicate inside.length .dedent ++ .dedent :: rest := by
  cases measure with
  | none => cases hnarrow
  | some measure =>
      have hlt : measure.width < level := by
        simpa [narrower] using hnarrow
      have hcount :
          v.levels.countP (measure.width < ·) =
            outer.countP (measure.width < ·) + (inside.length + 1) := by
        have hinside : ∀ width ∈ level :: inside, measure.width < width := by
          rw [Increasing, hlevels, List.pairwise_append, List.pairwise_cons] at h
          intro width hwidth
          rcases List.mem_cons.1 hwidth with rfl | hwidth
          · exact hlt
          · exact UInt32.lt_trans hlt (h.2.1.1 width hwidth)
        have hall : (level :: inside).countP (measure.width < ·) = inside.length + 1 := by
          rw [List.countP_eq_length.2 (by simpa using hinside), List.length_cons]
        rw [hlevels, List.countP_append, hall]
      show ∃ rest, (v.settle measure.width).1 = _
      rcases settle_cases h measure.width with ⟨hwider, -, -⟩ | ⟨landing, -, -, htokens, -⟩
      · have hlevel := hwider level (by rw [hlevels]; simp)
        exact absurd (UInt32.lt_trans hlt hlevel) (UInt32.lt_irrefl _)
      · refine ⟨List.replicate (outer.countP (measure.width < ·)) .dedent ++ landing, ?_⟩
        rw [htokens, hcount, Nat.add_comm, List.replicate_add, List.replicate_succ',
          List.append_assoc, List.append_assoc]
        rfl

/-- An open level is closed by the first narrower line, or else at the end.  The
tokens before that close the levels inside it, and no more. -/
theorem exists_closing
    (h : v.Increasing)
    (hlevels : v.levels = outer ++ level :: inside)
    (measures : List (Option Measure)) :
    let closer := measures.findIdx (narrower level)
    ∃ inner after,
      v.tokensToEnd measures = inner ++ .dedent :: after ∧
      balance inner = -(inside.length : Int) ∧
      (∀ count, -(inside.length : Int) ≤ height inner count) ∧
      (v.tokensOver (measures.take closer)).length ≤ inner.length ∧
      (closer < measures.length →
        inner.length < (v.tokensOver (measures.take (closer + 1))).length) := by
  induction measures generalizing v inside with
  | nil =>
      refine ⟨List.replicate inside.length .dedent, List.replicate outer.length .dedent, ?_,
        balance_replicate_dedent _, le_height_replicate_dedent _, Nat.zero_le _,
        fun hlt => absurd hlt (Nat.not_lt_zero _)⟩
      show List.replicate v.levels.length Token.dedent = _
      rw [← List.replicate_succ, ← List.replicate_add, hlevels, List.length_append,
        List.length_cons]
      congr 1
      omega
  | cons measure rest ih =>
      rw [tokensToEnd_cons]
      cases hnarrow : narrower level measure with
      | true =>
          obtain ⟨more, htokens⟩ := exists_tokens_of_narrower h hlevels hnarrow
          rw [List.findIdx_cons, hnarrow, htokens]
          refine ⟨List.replicate inside.length .dedent,
            more ++ (v.afterLine measure).2.tokensToEnd rest, ?_, balance_replicate_dedent _,
            le_height_replicate_dedent _, Nat.zero_le _, fun _ => ?_⟩
          · rw [List.append_assoc, List.cons_append]
          · show _ < ((v.afterLine measure).1 ++ []).length
            rw [htokens]
            simp
      | false =>
          obtain ⟨inside', hlevels'⟩ := exists_levels_of_not_narrower h hlevels hnarrow
          obtain ⟨inner, after, htokens, hbalance, hheight, hstart, hstop⟩ :=
            ih (h.afterLine measure) hlevels'
          obtain ⟨hline, hlineHeight⟩ := v.height_afterLine measure
          rw [hlevels, hlevels', List.length_append, List.length_append, List.length_cons,
            List.length_cons] at hline hlineHeight
          rw [List.findIdx_cons, hnarrow, htokens]
          refine ⟨(v.afterLine measure).1 ++ inner, after, (List.append_assoc ..).symm, ?_,
            le_height_append ?_ ?_, ?_, ?_⟩
          · rw [balance_append, hline, hbalance]
            omega
          · intro count
            have hcount := hlineHeight count
            omega
          · intro count
            have hcount := hheight count
            omega
          · simpa [tokensOver] using hstart
          · simpa [tokensOver] using hstop

/-- A token that opens a block stands alone on its line, and that line's width
becomes the innermost level. -/
theorem exists_line_of_indent
    (h : v.Increasing)
    {measures : List (Option Measure)}
    {position : Nat}
    (hindent : (v.tokensToEnd measures)[position]? = some .indent) :
    ∃ before measure rest,
      measures = before ++ some measure :: rest ∧
      position = (v.tokensOver before).length ∧
      ((v.after before).afterLine (some measure)).1 = [.indent] ∧
      ((v.after before).afterLine (some measure)).2.levels =
        (v.after before).levels ++ [measure.width] := by
  induction measures generalizing v position with
  | nil =>
      have hmem := List.mem_of_getElem? hindent
      simp [tokensToEnd, tokensOver, List.mem_replicate] at hmem
  | cons measure rest ih =>
      rw [tokensToEnd_cons] at hindent
      by_cases hposition : position < (v.afterLine measure).1.length
      · rw [List.getElem?_append_left hposition] at hindent
        have hmem := List.mem_of_getElem? hindent
        cases measure with
        | none => cases hmem
        | some measure =>
            rcases settle_cases h measure.width with
              ⟨-, htokens, hlevels⟩ | ⟨landing, hnone, -, htokens, -⟩
            · have hzero : position = 0 := by
                have hlength : (v.afterLine (some measure)).1.length = 1 :=
                  congrArg List.length htokens
                omega
              exact ⟨[], measure, rest, rfl, hzero, htokens, hlevels⟩
            · have hmem' : Token.indent ∈ (v.settle measure.width).1 := hmem
              rw [htokens] at hmem'
              simp [hnone, List.mem_replicate] at hmem'
      · rw [List.getElem?_append_right (Nat.le_of_not_lt hposition)] at hindent
        obtain ⟨before, measure', rest', hrest, hbefore, htokens, hlevels⟩ :=
          ih (h.afterLine measure) hindent
        refine ⟨measure :: before, measure', rest', by rw [hrest]; rfl, ?_, htokens, hlevels⟩
        rw [tokensOver, List.length_append, ← hbefore]
        omega

/-- A block that a line opens is closed by the first narrower line behind it, or
else at the end. -/
theorem Increasing.exists_closes_of_indent
    (h : v.Increasing)
    {measures : List (Option Measure)}
    {first : Nat}
    (hindent : (v.tokensToEnd measures)[first]? = some .indent) :
    ∃ before measure rest last,
      measures = before ++ some measure :: rest ∧
      Closes (v.tokensToEnd measures) first last ∧
      first = (v.tokensOver before).length ∧
      first < (v.tokensOver (before ++ [some measure])).length ∧
      let closer := rest.findIdx (narrower measure.width)
      (v.tokensOver (before ++ some measure :: rest.take closer)).length ≤ last ∧
      (closer < rest.length →
        last < (v.tokensOver (before ++ some measure :: rest.take (closer + 1))).length) := by
  obtain ⟨before, measure, rest, hmeasures, hfirst, hline, hlevels⟩ :=
    exists_line_of_indent h hindent
  obtain ⟨inner, after, htokens, hbalance, hheight, hstart, hstop⟩ :=
    exists_closing ((h.after before).afterLine (some measure)) hlevels rest
  have hall :
      v.tokensToEnd measures =
        v.tokensOver before ++ .indent :: (inner ++ .dedent :: after) := by
    rw [hmeasures, tokensToEnd_append, tokensToEnd_cons, hline, htokens]
    rfl
  have hlength (count : Nat) :
      (v.tokensOver (before ++ some measure :: rest.take count)).length =
        (v.tokensOver before).length +
          ((((v.after before).afterLine (some measure)).2.tokensOver (rest.take count)).length +
            1) := by
    rw [tokensOver_append, List.length_append, tokensOver, hline, List.length_append,
      List.length_singleton, Nat.add_comm 1]
  have hopened := hlength 0
  rw [List.take_zero] at hopened
  refine ⟨before, measure, rest, (v.tokensOver before).length + (inner.length + 1), hmeasures, ?_,
    hfirst, by omega, ?_, fun hcloser => ?_⟩
  · rw [hall, hfirst]
    exact closes_append _ _ ⟨hbalance, hheight⟩
  · rw [hlength]
    omega
  · have hlast := hstop hcloser
    rw [hlength]
    omega

end StateView
end Offside
