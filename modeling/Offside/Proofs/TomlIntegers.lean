import Mathlib.Data.List.TakeWhile
import Mathlib.Tactic.IntervalCases
import Offside.Toml.Value

/-!
# Whole numbers in documents

A whole number is written in decimal digits with an optional sign, or in hexadecimal, octal or
binary digits behind two characters that name the base, with at most one underscore between two
digits (`Spells`).  Whatever the way, the reader of values takes it for the number that it
spells, or refuses it when the number does not have 64 bits (`value?_of_spells`).  No such
number reads as a date, a time or a fraction before it comes to that.
-/

namespace Offside
namespace Toml

/-- The digits of a base with their values; letters among them may be capital. -/
def IsDigit
    (base : Nat)
    (c : Char)
    (d : Nat) :
    Prop :=
  d < base ∧ (c = d.digitChar ∨ c = d.digitChar.toUpper)

/-- One or more digits, with at most one underscore between two of them, and the number that
they spell. -/
inductive SpellsNatural (base : Nat) : List Char → Nat → Prop
  | digit
      {c : Char}
      {d : Nat}
      (hdigit : IsDigit base c d) :
      SpellsNatural base [c] d
  | next
      {cs : List Char}
      {n : Nat}
      {c : Char}
      {d : Nat}
      (hfront : SpellsNatural base cs n)
      (hdigit : IsDigit base c d) :
      SpellsNatural base (cs ++ [c]) (base * n + d)
  | nextBehindUnderscore
      {cs : List Char}
      {n : Nat}
      {c : Char}
      {d : Nat}
      (hfront : SpellsNatural base cs n)
      (hdigit : IsDigit base c d) :
      SpellsNatural base (cs ++ ['_', c]) (base * n + d)

/-- Decimal digits of which only zero itself starts with a zero, and the number that they
spell. -/
structure SpellsDecimal
    (cs : List Char)
    (n : Nat) :
    Prop where
  spells : SpellsNatural 10 cs n
  no_leading_zero : cs.head? = some '0' → cs.length = 1

/-- The ways to write a whole number. -/
inductive Spells : List Char → Int → Prop
  | decimal
      {cs : List Char}
      {n : Nat}
      (h : SpellsDecimal cs n) :
      Spells cs (Int.ofNat n)
  | plus
      {cs : List Char}
      {n : Nat}
      (h : SpellsDecimal cs n) :
      Spells ('+' :: cs) (Int.ofNat n)
  | minus
      {cs : List Char}
      {n : Nat}
      (h : SpellsDecimal cs n) :
      Spells ('-' :: cs) (-Int.ofNat n)
  | hexadecimal
      {cs : List Char}
      {n : Nat}
      (h : SpellsNatural 16 cs n) :
      Spells ('0' :: 'x' :: cs) (Int.ofNat n)
  | octal
      {cs : List Char}
      {n : Nat}
      (h : SpellsNatural 8 cs n) :
      Spells ('0' :: 'o' :: cs) (Int.ofNat n)
  | binary
      {cs : List Char}
      {n : Nat}
      (h : SpellsNatural 2 cs n) :
      Spells ('0' :: 'b' :: cs) (Int.ofNat n)

/-- Whether a number, a truth value or a date ends before a text. -/
def EndsToken (behind : List Char) : Prop :=
  ∀ c ∈ behind.head?, endsToken c = true

/-- Whether a character may stand among digits of some base, or in its name. -/
def IsNumeralChar (c : Char) : Prop :=
  c.isAlphanum = true ∨ c = '_'

instance : DecidablePred IsNumeralChar := fun c =>
  inferInstanceAs (Decidable (c.isAlphanum = true ∨ c = '_'))

theorem IsDigit.isAlphanum
    {base d : Nat}
    {c : Char}
    (h : IsDigit base c d)
    (hbase : base ≤ 16) :
    c.isAlphanum = true := by
  obtain ⟨hd, hc⟩ := h
  have hd16 : d < 16 := Nat.lt_of_lt_of_le hd hbase
  rcases hc with rfl | rfl
  all_goals
    clear hd
    interval_cases d <;> decide

theorem IsDigit.isDigit
    {d : Nat}
    {c : Char}
    (h : IsDigit 10 c d) :
    c.isDigit = true := by
  obtain ⟨hd, hc⟩ := h
  rcases hc with rfl | rfl
  all_goals interval_cases d <;> decide

theorem IsDigit.digit?_eq
    {base d : Nat}
    {c : Char}
    (h : IsDigit base c d)
    (hbase : base ≤ 16) :
    digit? base c = some d := by
  obtain ⟨hd, hc⟩ := h
  have hd16 : d < 16 := Nat.lt_of_lt_of_le hd hbase
  have hvalue : Hex.digitValue? c = some d := by
    clear hd
    rcases hc with rfl | rfl
    all_goals interval_cases d <;> decide
  rw [digit?, hvalue, Option.filter_some, decide_eq_true hd, if_pos rfl]

theorem ne_underscore_of_digit?
    {base d : Nat}
    {c : Char}
    (h : digit? base c = some d) :
    c ≠ '_' := by
  rintro rfl
  cases h

theorem digitsAfter?_cons
    {c : Char}
    (hc : c ≠ '_')
    (base : Nat)
    (rest : List Char) :
    digitsAfter? base (c :: rest) =
      (digit? base c).bind fun d => (digitsAfter? base rest).map (d :: ·) := by
  rw [digitsAfter?]
  · cases digit? base c with
    | none => rfl
    | some d => cases digitsAfter? base rest <;> rfl
  · exact fun _ _ heq => absurd heq hc

theorem digitsAfter?_append
    {base : Nat}
    {cs : List Char}
    {ds : List Nat}
    (h : digitsAfter? base cs = some ds)
    (more : List Char) :
    digitsAfter? base (cs ++ more) = (digitsAfter? base more).map (ds ++ ·) := by
  fun_induction digitsAfter? base cs generalizing ds with
  | case1 =>
      cases h
      simp
  | case2 c rest ih =>
      simp only [Option.bind_eq_bind, Option.bind_eq_some_iff, Option.pure_def,
        Option.some.injEq] at h
      obtain ⟨d, hd, es, hes, rfl⟩ := h
      simp only [List.cons_append, digitsAfter?, hd, ih hes, Option.bind_eq_bind, Option.bind_some,
        Option.pure_def]
      cases digitsAfter? base more <;> rfl
  | case3 c rest hmark ih =>
      simp only [Option.bind_eq_bind, Option.bind_eq_some_iff, Option.pure_def,
        Option.some.injEq] at h
      obtain ⟨d, hd, es, hes, rfl⟩ := h
      rw [List.cons_append, digitsAfter?_cons (ne_underscore_of_digit? hd), hd, ih hes,
        Option.bind_some]
      cases digitsAfter? base more <;> rfl

theorem digits?_append
    {base : Nat}
    {cs : List Char}
    {ds : List Nat}
    (h : digits? base cs = some ds)
    (more : List Char) :
    digits? base (cs ++ more) = (digitsAfter? base more).map (ds ++ ·) := by
  cases cs with
  | nil => cases h
  | cons c rest =>
      simp only [digits?, Option.bind_eq_bind, Option.bind_eq_some_iff, Option.pure_def,
        Option.some.injEq] at h
      obtain ⟨d, hd, es, hes, rfl⟩ := h
      simp only [List.cons_append, digits?, hd, digitsAfter?_append hes, Option.bind_eq_bind,
        Option.bind_some, Option.pure_def]
      cases digitsAfter? base more <;> rfl

theorem numeral_concat
    (base : Nat)
    (ds : List Nat)
    (d : Nat) :
    numeral base (ds ++ [d]) = base * numeral base ds + d := by
  rw [numeral, List.foldl_append]
  rfl

/-- The digits of a number are read, and come to it. -/
theorem SpellsNatural.exists_digits?
    {base n : Nat}
    {cs : List Char}
    (h : SpellsNatural base cs n)
    (hbase : base ≤ 16) :
    ∃ ds, digits? base cs = some ds ∧ numeral base ds = n := by
  induction h with
  | @digit c d hdigit =>
      refine ⟨[d], ?_, ?_⟩
      · rw [digits?, hdigit.digit?_eq hbase]
        rfl
      · simp [numeral]
  | @next cs n c d _ hdigit ih =>
      obtain ⟨ds, hds, rfl⟩ := ih
      have hd := hdigit.digit?_eq hbase
      refine ⟨ds ++ [d], ?_, numeral_concat base ds d⟩
      rw [digits?_append hds, digitsAfter?_cons (ne_underscore_of_digit? hd), hd]
      rfl
  | @nextBehindUnderscore cs n c d _ hdigit ih =>
      obtain ⟨ds, hds, rfl⟩ := ih
      refine ⟨ds ++ [d], ?_, numeral_concat base ds d⟩
      rw [digits?_append hds, digitsAfter?, hdigit.digit?_eq hbase]
      rfl

/-- What holds of the digits of a base and of the underscore holds of all characters of a
number in that base. -/
theorem SpellsNatural.forall_mem
    {base n : Nat}
    {cs : List Char}
    {P : Char → Prop}
    (h : SpellsNatural base cs n)
    (hdigit : ∀ c d, IsDigit base c d → P c)
    (hmark : P '_') :
    ∀ c ∈ cs, P c := by
  induction h with
  | digit hlast => simpa using hdigit _ _ hlast
  | next _ hlast ih =>
      simp only [List.forall_mem_append, List.forall_mem_singleton]
      exact ⟨ih, hdigit _ _ hlast⟩
  | nextBehindUnderscore _ hlast ih =>
      simp only [List.forall_mem_append, List.forall_mem_cons]
      exact ⟨ih, hmark, hdigit _ _ hlast, List.forall_mem_nil P⟩

theorem SpellsNatural.isNumeralChar
    {base n : Nat}
    {cs : List Char}
    (h : SpellsNatural base cs n)
    (hbase : base ≤ 16) :
    ∀ c ∈ cs, IsNumeralChar c :=
  h.forall_mem (fun _ _ hdigit => .inl (hdigit.isAlphanum hbase)) (.inr rfl)

theorem SpellsNatural.exists_cons
    {base n : Nat}
    {cs : List Char}
    (h : SpellsNatural base cs n) :
    ∃ c d rest, cs = c :: rest ∧ IsDigit base c d := by
  induction h with
  | digit hdigit => exact ⟨_, _, [], rfl, hdigit⟩
  | next _ _ ih =>
      obtain ⟨c, d, rest, rfl, hdigit⟩ := ih
      exact ⟨c, d, _, rfl, hdigit⟩
  | nextBehindUnderscore _ _ ih =>
      obtain ⟨c, d, rest, rfl, hdigit⟩ := ih
      exact ⟨c, d, _, rfl, hdigit⟩

theorem SpellsDecimal.forall_isDecimalChar
    {cs : List Char}
    {n : Nat}
    (h : SpellsDecimal cs n) :
    ∀ c ∈ cs, isDecimalChar c = true :=
  h.spells.forall_mem
    (fun _ _ hdigit => Bool.or_eq_true_iff.2 (.inl hdigit.isDigit)) rfl

theorem SpellsDecimal.exists_decimalDigits?
    {cs : List Char}
    {n : Nat}
    (h : SpellsDecimal cs n) :
    ∃ ds, decimalDigits? cs = some ds ∧ numeral 10 ds = n := by
  obtain ⟨ds, hds, hn⟩ := h.spells.exists_digits? (by decide)
  refine ⟨ds, ?_, hn⟩
  have hzero : ¬ (cs.head? = some '0' ∧ cs.length ≠ 1) :=
    fun ⟨hhead, hlength⟩ => hlength (h.no_leading_zero hhead)
  rw [decimalDigits?, hds]
  simp only [Option.bind_eq_bind, Option.bind_some, if_neg hzero, Option.pure_def]

theorem SpellsDecimal.splitSign_eq
    {cs : List Char}
    {n : Nat}
    (h : SpellsDecimal cs n) :
    splitSign cs = (false, cs) := by
  obtain ⟨c, d, rest, rfl, hdigit⟩ := h.spells.exists_cons
  have hc := hdigit.isDigit
  unfold splitSign
  split
  · next heq =>
      obtain rfl := (List.cons.inj heq).1
      cases hc
  · next heq =>
      obtain rfl := (List.cons.inj heq).1
      cases hc
  · rfl

theorem int64?_toInt (i : Int64) : int64? i.toInt = some i := by
  have hlow := i.le_toInt
  have hhigh := i.toInt_lt
  rw [int64?, if_pos (by omega), Int64.ofInt_toInt]

/-- A number in decimal digits is no fraction. -/
theorem SpellsDecimal.float?_eq_none
    {cs body : List Char}
    {n : Nat}
    {negative : Bool}
    (h : SpellsDecimal body n)
    (hcs : splitSign cs = (negative, body)) :
    float? cs = none := by
  obtain ⟨c, d, rest, hbody, hdigit⟩ := h.spells.exists_cons
  have hwhole := h.forall_isDecimalChar
  have hinf : body ≠ ['i', 'n', 'f'] := by
    rintro rfl
    exact absurd (hwhole 'i' (by decide)) (by decide)
  have hnan : body ≠ ['n', 'a', 'n'] := by
    rintro rfl
    exact absurd (hwhole 'n' (by decide)) (by decide)
  have hafter : body.dropWhile isDecimalChar = [] := by
    rw [List.dropWhile_eq_nil_iff]
    exact hwhole
  rw [float?, hcs]
  dsimp only
  rw [if_neg hinf, if_neg hnan, hafter]
  cases decimalDigits? (body.takeWhile isDecimalChar) <;> rfl

/-- A number behind the name of its base is no fraction. -/
theorem float?_of_base_eq_none
    {c : Char}
    (hc : c = 'x' ∨ c = 'o' ∨ c = 'b')
    (cs : List Char) :
    float? ('0' :: c :: cs) = none := by
  rcases hc with rfl | rfl | rfl <;> rfl

theorem integer?_of_sign
    {cs body : List Char}
    {n : Nat}
    {negative : Bool}
    (h : SpellsDecimal body n)
    (hcs : splitSign cs = (negative, body))
    (hbase : ∀ c rest, cs = '0' :: c :: rest → c ≠ 'x' ∧ c ≠ 'o' ∧ c ≠ 'b') :
    integer? cs = int64? (if negative then -Int.ofNat n else Int.ofNat n) := by
  obtain ⟨ds, hds, rfl⟩ := h.exists_decimalDigits?
  rw [integer?, hcs]
  · dsimp only
    rw [hds]
    rfl
  · exact fun rest heq => (hbase 'x' rest heq).1 rfl
  · exact fun rest heq => (hbase 'o' rest heq).2.1 rfl
  · exact fun rest heq => (hbase 'b' rest heq).2.2 rfl

/-- A whole number reads as what it spells, and not as a fraction. -/
theorem Spells.integer?_eq
    {cs : List Char}
    {n : Int}
    (h : Spells cs n) :
    float? cs = none ∧ integer? cs = int64? n := by
  cases h with
  | decimal h =>
      refine ⟨h.float?_eq_none h.splitSign_eq, integer?_of_sign h h.splitSign_eq ?_⟩
      intro c rest heq
      have hc := h.forall_isDecimalChar c (by simp [heq])
      refine ⟨?_, ?_, ?_⟩
      all_goals
        rintro rfl
        cases hc
  | @plus cs n h =>
      have hsign : splitSign ('+' :: cs) = (false, cs) := rfl
      refine ⟨h.float?_eq_none hsign, integer?_of_sign h hsign ?_⟩
      intro c rest heq
      cases heq
  | @minus cs n h =>
      have hsign : splitSign ('-' :: cs) = (true, cs) := rfl
      refine ⟨h.float?_eq_none hsign, integer?_of_sign h hsign ?_⟩
      intro c rest heq
      cases heq
  | hexadecimal h =>
      obtain ⟨ds, hds, rfl⟩ := h.exists_digits? (by decide)
      refine ⟨float?_of_base_eq_none (.inl rfl) _, ?_⟩
      rw [integer?, hds]
      rfl
  | octal h =>
      obtain ⟨ds, hds, rfl⟩ := h.exists_digits? (by decide)
      refine ⟨float?_of_base_eq_none (.inr (.inl rfl)) _, ?_⟩
      rw [integer?, hds]
      rfl
  | binary h =>
      obtain ⟨ds, hds, rfl⟩ := h.exists_digits? (by decide)
      refine ⟨float?_of_base_eq_none (.inr (.inr rfl)) _, ?_⟩
      rw [integer?, hds]
      rfl

/-- A whole number has a sign or a digit in front, and then letters, digits and underscores. -/
theorem Spells.exists_cons
    {cs : List Char}
    {n : Int}
    (h : Spells cs n) :
    ∃ c rest,
      cs = c :: rest ∧
      (c.isDigit = true ∨ c = '+' ∨ c = '-') ∧
      ∀ d ∈ rest, IsNumeralChar d := by
  cases h with
  | decimal h =>
      obtain ⟨c, d, rest, rfl, hdigit⟩ := h.spells.exists_cons
      obtain ⟨-, hrest⟩ := List.forall_mem_cons.1 (h.spells.isNumeralChar (by decide))
      exact ⟨c, rest, rfl, .inl hdigit.isDigit, hrest⟩
  | plus h => exact ⟨_, _, rfl, .inr (.inl rfl), h.spells.isNumeralChar (by decide)⟩
  | minus h => exact ⟨_, _, rfl, .inr (.inr rfl), h.spells.isNumeralChar (by decide)⟩
  | hexadecimal h | octal h | binary h =>
      have hrest := h.isNumeralChar (by decide)
      exact ⟨_, _, rfl, .inl rfl, List.forall_mem_cons.2 ⟨.inl rfl, hrest⟩⟩

theorem mem_of_after?
    {c : Char}
    {cs rest : List Char}
    (h : after? c cs = some rest) :
    c ∈ cs := by
  cases cs with
  | nil => cases h
  | cons d cs =>
      rw [after?] at h
      split at h
      next heq => exact heq ▸ List.mem_cons_self
      next => cases h

theorem eq_drop_of_digitsExactly?
    {width n : Nat}
    {cs rest : List Char}
    (h : digitsExactly? width cs = some (n, rest)) :
    rest = cs.drop width := by
  rw [digitsExactly?] at h
  split at h
  next => exact (Prod.mk.inj (Option.some.inj h)).2.symm
  next => cases h

/-- A date has a hyphen behind its first character. -/
theorem date?_eq_none
    {cs : List Char}
    (h : '-' ∉ cs.tail) :
    date? cs = none := by
  rw [Option.eq_none_iff_forall_ne_some]
  intro r hdate
  simp only [date?, Option.bind_eq_bind, Option.bind_eq_some_iff, Prod.exists] at hdate
  obtain ⟨year, rest, hyear, after, hafter, -⟩ := hdate
  have hhyphen := mem_of_after? hafter
  rw [eq_drop_of_digitsExactly? hyear, ← List.drop_tail] at hhyphen
  exact h (List.mem_of_mem_drop hhyphen)

/-- A time has a colon. -/
theorem time?_eq_none
    {cs : List Char}
    (h : ':' ∉ cs) :
    time? cs = none := by
  rw [Option.eq_none_iff_forall_ne_some]
  intro r htime
  simp only [time?, numberWithin?, Option.bind_eq_bind, Option.bind_eq_some_iff,
    Prod.exists] at htime
  obtain ⟨hour, rest, ⟨n, digits, hdigits, hrest⟩, after, hafter, -⟩ := htime
  have hcolon := mem_of_after? hafter
  split at hrest
  next =>
    rw [← (Prod.mk.inj (Option.some.inj hrest)).2, eq_drop_of_digitsExactly? hdigits] at hcolon
    exact h (List.mem_of_mem_drop hcolon)
  next => cases hrest

theorem endsToken_eq_false
    {c : Char}
    (h : IsNumeralChar c ∨ c = '+' ∨ c = '-') :
    endsToken c = false := by
  rw [Bool.eq_false_iff]
  intro hends
  simp only [endsToken, isBlank, Bool.or_eq_true, beq_iff_eq] at hends
  rcases hends with (((((((rfl | rfl) | rfl) | rfl) | rfl) | rfl) | rfl) | rfl) <;>
    revert h <;> decide

/-- A whole number is the token that it is meant for. -/
theorem Spells.token?_eq
    {cs : List Char}
    {n : Int}
    (h : Spells cs n) :
    date? cs = none ∧ token? cs = (int64? n).map .int := by
  obtain ⟨hfloat, hinteger⟩ := h.integer?_eq
  obtain ⟨c, rest, rfl, hfirst, hrest⟩ := h.exists_cons
  have hdate : date? (c :: rest) = none :=
    date?_eq_none fun hmem => absurd (hrest '-' hmem) (by decide)
  have htime : time? (c :: rest) = none := by
    refine time?_eq_none fun hmem => ?_
    rcases List.mem_cons.1 hmem with rfl | hmem
    · exact absurd hfirst (by decide)
    · exact absurd (hrest ':' hmem) (by decide)
  have hword : c :: rest ≠ ['t', 'r', 'u', 'e'] ∧ c :: rest ≠ ['f', 'a', 'l', 's', 'e'] := by
    constructor
    all_goals
      intro heq
      obtain rfl := (List.cons.inj heq).1
      exact absurd hfirst (by decide)
  have hdateTime : dateTime? (c :: rest) = none := by
    rw [dateTime?, hdate]
    dsimp only
    rw [htime]
  refine ⟨hdate, ?_⟩
  rw [token?, if_neg hword.1, if_neg hword.2, hdateTime]
  dsimp only
  rw [hfloat]
  dsimp only
  rw [hinteger]

/-- A whole number in front of the end of a token is read up to there, whatever follows. -/
theorem scalar?_of_spells
    {cs behind : List Char}
    {n : Int}
    (h : Spells cs n)
    (hbehind : EndsToken behind) :
    scalar? (cs ++ behind) = (int64? n).map fun i => (.int i, behind) := by
  obtain ⟨hdate, htoken⟩ := h.token?_eq
  have hinside : ∀ c ∈ cs, (!endsToken c) = true := by
    obtain ⟨c, rest, rfl, hfirst, hrest⟩ := h.exists_cons
    have hc : IsNumeralChar c ∨ c = '+' ∨ c = '-' :=
      hfirst.imp_left fun hdigit => .inl (Bool.or_eq_true_iff.2 (.inr hdigit))
    rw [List.forall_mem_cons, endsToken_eq_false hc]
    exact ⟨rfl, fun d hd => by rw [endsToken_eq_false (.inl (hrest d hd)), Bool.not_false]⟩
  have hstop : behind.takeWhile (fun c => !endsToken c) = [] ∧
      behind.dropWhile (fun c => !endsToken c) = behind := by
    cases behind with
    | nil => exact ⟨rfl, rfl⟩
    | cons c behind =>
        have hc : ¬ (!endsToken c) = true := by simp [hbehind c rfl]
        exact ⟨List.takeWhile_cons_of_neg hc, List.dropWhile_cons_of_neg hc⟩
  unfold scalar?
  simp only [List.takeWhile_append_of_pos hinside, List.dropWhile_append_of_pos hinside, hstop,
    List.append_nil, hdate, htoken, Option.map_map]
  rfl

/-- The reader of values takes a whole number for what it spells, whatever follows behind the
end of the token; a number that does not have 64 bits is refused. -/
theorem value?_of_spells
    {cs behind : List Char}
    {n : Int}
    (h : Spells cs n)
    (hbehind : EndsToken behind)
    (fuel depth : Nat) :
    value? (fuel + 1) depth (cs ++ behind) = (int64? n).map fun i => (.int i, behind) := by
  rw [← scalar?_of_spells h hbehind]
  obtain ⟨c, rest, rfl, hfirst, -⟩ := h.exists_cons
  rw [List.cons_append, value?]
  all_goals
    rintro tail heq
    obtain rfl := (List.cons.inj heq).1
    exact absurd hfirst (by decide)

end Toml
end Offside
