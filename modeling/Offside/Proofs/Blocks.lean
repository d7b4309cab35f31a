import Mathlib.Data.Nat.Find
import Mathlib.Tactic.ByContra
import Offside.Layout.Basic

/-!
# Blocks in a run of layout tokens

An indent opens a block and a dedent closes one.  Which dedent closes which block
is read off the tokens alone: as many blocks are open before the dedent as behind
the indent, and never fewer in between.

An indent has at most one such dedent and a dedent at most one such indent, and
two blocks lie apart or one inside the other, whatever the tokens are.  That a
dedent has an indent at all takes tokens that never close more than is open.
-/

namespace Offside
namespace Layout

/-- What a token adds to the number of open blocks. -/
def Token.weight : Token → Int
  | indent => 1
  | dedent => -1
  | newline => 0
  | misdent => 0

/-- The blocks that some tokens open, less those that they close. -/
def balance : List Token → Int
  | [] => 0
  | t :: ts => t.weight + balance ts

@[simp] theorem balance_nil : balance [] = 0 := rfl

@[simp] theorem balance_cons
    (t : Token)
    (ts : List Token) :
    balance (t :: ts) = t.weight + balance ts := rfl

@[simp] theorem balance_append (ts us : List Token) :
    balance (ts ++ us) = balance ts + balance us := by
  induction ts with
  | nil => simp
  | cons t ts ih => simp [ih, Int.add_assoc]

@[simp] theorem balance_replicate_dedent (n : Nat) :
    balance (List.replicate n .dedent) = -(n : Int) := by
  induction n with
  | zero => rfl
  | succ n ih =>
      rw [List.replicate_succ, balance_cons, ih, Token.weight]
      omega

/-- Tokens that neither open nor close a block weigh nothing. -/
theorem balance_eq_zero
    {ts : List Token}
    (hindent : Token.indent ∉ ts)
    (hdedent : Token.dedent ∉ ts) :
    balance ts = 0 := by
  induction ts with
  | nil => rfl
  | cons t ts ih =>
      simp only [List.mem_cons, not_or] at hindent hdedent
      rw [balance_cons, ih hindent.2 hdedent.2]
      cases t with
      | indent => exact absurd rfl hindent.1
      | dedent => exact absurd rfl hdedent.1
      | newline => rfl
      | misdent => rfl

/-- The balance counts the tokens that open a block and those that close one. -/
theorem balance_eq_count (ts : List Token) :
    balance ts = (ts.count .indent : Int) - ts.count .dedent := by
  induction ts with
  | nil => rfl
  | cons t ts ih =>
      rw [balance_cons, ih]
      cases t with
      | indent =>
          rw [List.count_cons_self, List.count_cons_of_ne (by decide), Token.weight]
          omega
      | dedent =>
          rw [List.count_cons_self, List.count_cons_of_ne (by decide), Token.weight]
          omega
      | newline | misdent =>
          rw [List.count_cons_of_ne (by decide), List.count_cons_of_ne (by decide), Token.weight]
          omega

/-- The number of blocks that are open behind the first tokens. -/
def height
    (tokens : List Token)
    (count : Nat) :
    Int :=
  balance (tokens.take count)

@[simp] theorem height_zero (tokens : List Token) : height tokens 0 = 0 := rfl

theorem height_succ
    {tokens : List Token}
    {position : Nat}
    {t : Token}
    (h : tokens[position]? = some t) :
    height tokens (position + 1) = height tokens position + t.weight := by
  rw [height, height, List.take_add_one, h]
  simp

/-- The height goes over the first tokens, and from their end over the others. -/
theorem height_append
    (before after : List Token)
    (count : Nat) :
    height (before ++ after) count = height before count + height after (count - before.length) := by
  rw [height, List.take_append, balance_append]
  rfl

/-- Behind all tokens the height is their balance. -/
theorem height_of_length_le
    {tokens : List Token}
    {count : Nat}
    (h : tokens.length ≤ count) :
    height tokens count = balance tokens := by
  rw [height, List.take_of_length_le h]

theorem height_append_length
    (before after : List Token)
    (count : Nat) :
    height (before ++ after) (before.length + count) = balance before + height after count := by
  rw [height, List.take_length_add_append, balance_append]
  rfl

/-- Behind some tokens the height goes on from their balance. -/
theorem le_height_append
    {before after : List Token}
    {bound : Int}
    (hbefore : ∀ count, bound ≤ height before count)
    (hafter : ∀ count, bound ≤ balance before + height after count)
    (count : Nat) :
    bound ≤ height (before ++ after) count := by
  by_cases hcount : count ≤ before.length
  · rw [height, List.take_append_of_le_length hcount]
    exact hbefore count
  · obtain ⟨rest, rfl⟩ : ∃ rest, count = before.length + rest :=
      ⟨count - before.length, by omega⟩
    rw [height_append_length]
    exact hafter rest

theorem le_height_replicate_dedent
    (n count : Nat) :
    -(n : Int) ≤ height (List.replicate n .dedent) count := by
  rw [height, List.take_replicate, balance_replicate_dedent]
  omega

theorem height_eq_zero
    {ts : List Token}
    (hindent : Token.indent ∉ ts)
    (hdedent : Token.dedent ∉ ts)
    (count : Nat) :
    height ts count = 0 :=
  balance_eq_zero
    (fun h => hindent (List.mem_of_mem_take h))
    (fun h => hdedent (List.mem_of_mem_take h))

/-- Tokens that only close blocks at first go down to that many and stay there. -/
theorem height_replicate_dedent_append
    (n : Nat)
    {ts : List Token}
    (hindent : Token.indent ∉ ts)
    (hdedent : Token.dedent ∉ ts)
    (count : Nat) :
    height (List.replicate n .dedent ++ ts) count = -((min count n : Nat) : Int) := by
  rw [height_append, height_eq_zero hindent hdedent, height, List.take_replicate,
    balance_replicate_dedent, Int.add_zero]

/-- Whether the token at the second position closes the block that the token at the
first one opens. -/
structure Closes
    (tokens : List Token)
    (first last : Nat) :
    Prop where
  lt : first < last
  opens : tokens[first]? = some .indent
  closes : tokens[last]? = some .dedent
  height_eq : height tokens last = height tokens (first + 1)
  le_height : ∀ position,
    first < position → position ≤ last → height tokens (first + 1) ≤ height tokens position

namespace Closes

variable {tokens : List Token} {first last first' last' : Nat}

theorem height_first (h : Closes tokens first last) :
    height tokens (first + 1) = height tokens first + 1 :=
  height_succ h.opens

theorem height_last (h : Closes tokens first last) :
    height tokens (last + 1) = height tokens last - 1 :=
  height_succ h.closes

/-- A block is closed only once. -/
theorem last_le
    (h : Closes tokens first last)
    (h' : Closes tokens first last') :
    last' ≤ last := by
  by_contra hlt
  have hbelow := h'.le_height (last + 1) (by have := h.lt; omega) (by omega)
  have hlast := h.height_last
  have heq := h.height_eq
  omega

theorem last_unique
    (h : Closes tokens first last)
    (h' : Closes tokens first last') :
    last = last' :=
  Nat.le_antisymm (h'.last_le h) (h.last_le h')

/-- A token closes only one block. -/
theorem first_le
    (h : Closes tokens first last)
    (h' : Closes tokens first' last) :
    first' ≤ first := by
  by_contra hlt
  have hbelow := h.le_height first' (by omega) (Nat.le_of_lt h'.lt)
  have hfirst := h'.height_first
  have heq := h.height_eq
  have heq' := h'.height_eq
  omega

theorem first_unique
    (h : Closes tokens first last)
    (h' : Closes tokens first' last) :
    first = first' :=
  Nat.le_antisymm (h'.first_le h) (h.first_le h')

/-- Of two blocks, the one that opens later opens behind the other or closes inside it. -/
theorem nested
    (h : Closes tokens first last)
    (h' : Closes tokens first' last')
    (hlt : first < first') :
    last < first' ∨ last' < last := by
  by_contra hcross
  have hne : last ≠ last' := by
    rintro rfl
    have hle := h.first_le h'
    omega
  have hinside := h.le_height first' hlt (by omega)
  have hbelow := h'.le_height (last + 1) (by omega) (by omega)
  have hfirst := h'.height_first
  have hlast := h.height_last
  have heq := h.height_eq
  omega

end Closes

/-- Before a height there is a last place that lies below it. -/
theorem exists_last_below
    {tokens : List Token}
    {last : Nat}
    (hpos : 0 < height tokens last) :
    ∃ first < last,
      height tokens first < height tokens last ∧
      ∀ position, first < position → position ≤ last →
        height tokens last ≤ height tokens position := by
  have hbelow :=
    Nat.findGreatest_spec (P := (height tokens · < height tokens last)) (Nat.zero_le last) hpos
  have hgreatest (position : Nat) :=
    @Nat.findGreatest_is_greatest position (height tokens · < height tokens last) _ last
  have hle := Nat.findGreatest_le (P := (height tokens · < height tokens last)) last
  generalize Nat.findGreatest (height tokens · < height tokens last) last = first at *
  have hlt : first < last := by
    refine Nat.lt_of_le_of_ne hle ?_
    rintro rfl
    exact Int.lt_irrefl _ hbelow
  refine ⟨first, hlt, hbelow, ?_⟩
  intro position hposition hle
  exact Int.not_lt.1 (hgreatest position hposition hle)

/-- A token that closes a block while one is open closes a block that was opened. -/
theorem exists_closes_of_dedent
    {tokens : List Token}
    {last : Nat}
    (hdedent : tokens[last]? = some .dedent)
    (hopen : 0 ≤ height tokens (last + 1)) :
    ∃ first, Closes tokens first last := by
  have hlast := height_succ hdedent
  rw [Token.weight] at hlast
  obtain ⟨first, hlt, hfirst, hgreatest⟩ :=
    exists_last_below (show 0 < height tokens last by omega)
  obtain ⟨hlength, -⟩ := List.getElem?_eq_some_iff.1 hdedent
  have ht : tokens[first]? = some tokens[first] := List.getElem?_eq_getElem (by omega)
  have hnext := height_succ ht
  have hrises := hgreatest (first + 1) (by omega) (by omega)
  have hindent : tokens[first] = .indent := by
    cases hcase : tokens[first] with
    | indent => rfl
    | dedent | newline | misdent =>
        rw [hcase, Token.weight] at hnext
        omega
  rw [hindent] at ht hnext
  rw [Token.weight] at hnext
  have heq : height tokens last = height tokens (first + 1) := by omega
  exact ⟨first, hlt, ht, hdedent, heq, by rwa [← heq]⟩

/-- Tokens that close all that they open, and nothing else. -/
structure Balanced (tokens : List Token) : Prop where
  balance_eq : balance tokens = 0
  height_nonneg : ∀ count, 0 ≤ height tokens count

/-- A block is closed behind balanced tokens. -/
theorem closes_append
    (before after : List Token)
    {inner : List Token}
    (h : Balanced inner) :
    Closes (before ++ .indent :: (inner ++ .dedent :: after)) before.length
      (before.length + (inner.length + 1)) := by
  have hheight (count : Nat) (hcount : count ≤ inner.length) :
      height (before ++ .indent :: (inner ++ .dedent :: after)) (before.length + (count + 1)) =
        balance before + 1 + height inner count := by
    rw [height_append_length, height, List.take_succ_cons, balance_cons,
      List.take_append_of_le_length hcount, Token.weight, height]
    omega
  have hinner : height inner inner.length = 0 := by
    rw [height, List.take_length, h.balance_eq]
  have hopen := hheight 0 (Nat.zero_le _)
  rw [Nat.zero_add, height_zero] at hopen
  refine ⟨by omega, by simp, ?_, ?_, ?_⟩
  · rw [List.getElem?_append_right (by omega), Nat.add_sub_cancel_left, List.getElem?_cons_succ,
      List.getElem?_append_right (Nat.le_refl _), Nat.sub_self]
    rfl
  · rw [hheight inner.length (Nat.le_refl _), hopen, hinner]
  · intro position hlt hle
    obtain ⟨count, rfl⟩ : ∃ count, position = before.length + (count + 1) :=
      ⟨position - before.length - 1, by omega⟩
    have hnonneg := h.height_nonneg count
    rw [hheight count (by omega), hopen]
    omega

end Layout
end Offside
