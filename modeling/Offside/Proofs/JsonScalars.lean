import Offside.Proofs.JsonGrammar

/-!
# Numbers and strings in the grammar

From the digits of a number that number is read, and nothing else, when what follows ends it:
no zero leads other digits, and neither a fraction nor an exponent can be found.  From the
escaped form of a string that string is read (`readsString_iff`), whatever its characters are.
-/

namespace Offside
namespace Json

namespace Numeral

/-- Only zero is printed with a zero in front. -/
theorem head?_toDigits_ne_zero
    {n : Nat}
    (h : n ≠ 0) :
    (Nat.toDigits 10 n).head? ≠ some '0' := by
  induction n using Nat.strongRecOn with
  | ind n ih =>
      rw [Nat.toDigits_eq_if (by decide)]
      split
      next hlt =>
        have hdigit : ∀ d : Fin 10, d.val ≠ 0 → d.val.digitChar ≠ '0' := by decide
        intro hhead
        exact hdigit ⟨n, hlt⟩ h (Option.some.inj hhead)
      next hge =>
        have hrest := ih (n / 10) (Nat.div_lt_self (by omega) (by decide)) (by omega)
        obtain ⟨d, ds, hdigits⟩ :=
          List.exists_cons_of_ne_nil (@Nat.toDigits_ne_nil (n / 10) 10)
        rw [hdigits] at hrest ⊢
        exact hrest

theorem whole_toDigits (n : Nat) : Whole (Nat.toDigits 10 n) where
  ne_nil := Nat.toDigits_ne_nil
  isDigit _ hc := Nat.isDigit_of_mem_toDigits (by decide) (by decide) hc
  no_leading_zero h := by
    by_cases hzero : n = 0
    · subst hzero
      rfl
    · exact absurd h (head?_toDigits_ne_zero hzero)

/-- The digits of a number spell it. -/
theorem spelled_toDigits (n : Nat) : (natural n).Spelled (Nat.toDigits 10 n) := by
  have h := Spelled.plain (Unsigned.mk (whole_toDigits n) Fraction.missing Exponent.missing)
  rw [List.append_nil, List.append_nil, List.append_nil, Nat.ofDigitChars_ten_toDigits] at h
  exact h

theorem not_isDigit_exponent
    {power : Int}
    {text rest : List Char}
    (h : Exponent power text)
    (hrest : Ends rest) :
    ∀ c, (text ++ rest).head? = some c → c.isDigit = false := by
  have hmark : ∀ e, IsMark e → e.isDigit = false := by
    rintro e (rfl | rfl) <;> decide
  intro c hc
  cases h with
  | missing => exact (hrest c hc).1
  | plain he _ | plus he _ | minus he _ =>
      rw [← Option.some.inj hc]
      exact hmark _ he

theorem not_isDigit_fraction
    {digits fraction rest : List Char}
    (h : Fraction digits fraction)
    (hrest : ∀ c, rest.head? = some c → c.isDigit = false) :
    ∀ c, (fraction ++ rest).head? = some c → c.isDigit = false := by
  intro c hc
  cases h with
  | missing => exact hrest c hc
  | digits _ =>
      rw [← Option.some.inj hc]
      decide

/-- Neither a fraction nor an exponent goes on with a number that ends. -/
theorem missing_of_ends
    {digits fraction exponent after : List Char}
    {power : Int}
    (hfraction : Fraction digits fraction)
    (hexponent : Exponent power exponent)
    (h : Ends (fraction ++ (exponent ++ after))) :
    digits = [] ∧ fraction = [] ∧ power = 0 ∧ exponent = [] := by
  cases hfraction with
  | digits _ => exact absurd rfl (h '.' rfl).2.1
  | missing =>
      cases hexponent with
      | missing => exact ⟨rfl, rfl, rfl, rfl⟩
      | plain he _ | plus he _ | minus he _ => exact absurd he (h _ rfl).2.2

/-- What the digits of a number spell is the number, when what follows ends it. -/
theorem eq_of_spelled_toDigits
    {m : Numeral}
    {n : Nat}
    {text rest after : List Char}
    (h : m.Spelled text)
    (htext : Nat.toDigits 10 n ++ rest = text ++ after)
    (hrest : Ends rest)
    (hafter : Ends after) :
    m = natural n ∧ after = rest := by
  have hdigits := (whole_toDigits n).isDigit
  cases h with
  | minus _ =>
      obtain ⟨d, ds, hn⟩ := List.exists_cons_of_ne_nil (@Nat.toDigits_ne_nil n 10)
      rw [hn, List.cons_append, List.cons_append, List.cons.injEq] at htext
      have hminus := hdigits d (by rw [hn]; exact List.mem_cons_self)
      rw [htext.1] at hminus
      exact absurd hminus (by decide)
  | plain hunsigned =>
      obtain ⟨hwhole, hfraction, hexponent⟩ := hunsigned
      rw [List.append_assoc, List.append_assoc] at htext
      obtain ⟨htake, hdrop⟩ := Decimal.span_isDigit_append hdigits fun c hc => (hrest c hc).1
      obtain ⟨htake', hdrop'⟩ :=
        Decimal.span_isDigit_append hwhole.isDigit
          (not_isDigit_fraction hfraction (not_isDigit_exponent hexponent hafter))
      rw [htext, htake'] at htake
      rw [htext, hdrop'] at hdrop
      subst hdrop
      obtain ⟨rfl, rfl, rfl, rfl⟩ := missing_of_ends hfraction hexponent hrest
      rw [htake, List.append_nil, Nat.ofDigitChars_ten_toDigits]
      exact ⟨rfl, rfl⟩

end Numeral

/-- The escape of a control character spells its code. -/
theorem codeUnit?_control
    {n : Nat}
    (h : n < 256) :
    codeUnit? '0' '0' (Hex.digit (n / 16)) (Hex.digit (n % 16)) = some n := by
  have hzero : Hex.digitValue? '0' = some 0 := by decide
  have hvalue : 4096 * 0 + 256 * 0 + 16 * (n / 16) + n % 16 = n := by omega
  simp only [codeUnit?, hzero, Hex.digitValue?_digit (show n / 16 < 16 by omega),
    Hex.digitValue?_digit (show n % 16 < 16 by omega), Option.bind_eq_bind, Option.bind_some,
    Option.pure_def, hvalue]

/-- A character of a string is written as an escape of two characters, as a code, or as
itself. -/
theorem escapeChar_cases (c : Char) :
    (∃ e, escapeChar c = ['\x5c', e] ∧ escaped? e = some c) ∨
    (c.toNat < 32 ∧
      escapeChar c =
        ['\x5c', 'u', '0', '0', Hex.digit (c.toNat / 16), Hex.digit (c.toNat % 16)]) ∨
    (c ≠ '\x22' ∧ c ≠ '\x5c' ∧ 32 ≤ c.toNat ∧ escapeChar c = [c]) := by
  unfold escapeChar
  split
  next h => exact .inl ⟨'\x22', rfl, by rw [h]; rfl⟩
  next hquote =>
    split
    next h => exact .inl ⟨'\x5c', rfl, by rw [h]; rfl⟩
    next hbackslash =>
      split
      next h => exact .inl ⟨'b', rfl, by rw [h]; rfl⟩
      next =>
        split
        next h => exact .inl ⟨'f', rfl, by rw [h]; rfl⟩
        next =>
          split
          next h => exact .inl ⟨'n', rfl, by rw [h]; rfl⟩
          next =>
            split
            next h => exact .inl ⟨'r', rfl, by rw [h]; rfl⟩
            next =>
              split
              next h => exact .inl ⟨'t', rfl, by rw [h]; rfl⟩
              next =>
                split
                next h => exact .inr (.inl ⟨h, rfl⟩)
                next h => exact .inr (.inr ⟨hquote, hbackslash, Nat.le_of_not_lt h, rfl⟩)

theorem readsChar_escape_iff
    {c d e : Char}
    {rest after : List Char}
    (h : escaped? e = some c) :
    ReadsChar d ('\x5c' :: e :: rest) after ↔ d = c ∧ after = rest := by
  constructor
  · intro hread
    cases hread with
    | plain _ hbackslash _ => exact absurd rfl hbackslash
    | escape hescape =>
        rw [h] at hescape
        exact ⟨(Option.some.inj hescape).symm, rfl⟩
    | unit | pair => cases h
  · rintro ⟨rfl, rfl⟩
    exact ReadsChar.escape h

theorem readsChar_control_iff
    {n : Nat}
    {d : Char}
    {rest after : List Char}
    (h : n < 32) :
    ReadsChar d ('\x5c' :: 'u' :: '0' :: '0' :: Hex.digit (n / 16) :: Hex.digit (n % 16) :: rest)
        after ↔
      d = Char.ofNat n ∧ after = rest := by
  have hcode := codeUnit?_control (show n < 256 by omega)
  constructor
  · intro hread
    cases hread with
    | plain _ hbackslash _ => exact absurd rfl hbackslash
    | escape hescape => cases hescape
    | unit hunit _ =>
        rw [hcode] at hunit
        rw [Option.some.inj hunit]
        exact ⟨rfl, rfl⟩
    | pair hhigh _ hle =>
        rw [hcode] at hhigh
        rw [← Option.some.inj hhigh] at hle
        omega
  · rintro ⟨rfl, rfl⟩
    exact ReadsChar.unit hcode (.inl (by omega))

theorem readsChar_plain_iff
    {c d : Char}
    {rest after : List Char}
    (hquote : c ≠ '\x22')
    (hbackslash : c ≠ '\x5c')
    (hcontrol : 32 ≤ c.toNat) :
    ReadsChar d (c :: rest) after ↔ d = c ∧ after = rest := by
  constructor
  · intro hread
    cases hread with
    | plain => exact ⟨rfl, rfl⟩
    | escape | unit | pair => exact absurd rfl hbackslash
  · rintro ⟨rfl, rfl⟩
    exact ReadsChar.plain hquote hbackslash hcontrol

/-- A character is read from its escaped form, and nothing else is. -/
theorem readsChar_escapeChar_iff
    {c d : Char}
    {rest after : List Char} :
    ReadsChar d (escapeChar c ++ rest) after ↔ d = c ∧ after = rest := by
  rcases escapeChar_cases c with
    ⟨e, hescape, hvalue⟩ | ⟨hcontrol, hescape⟩ | ⟨hquote, hbackslash, hcontrol, hescape⟩
  · rw [hescape]
    exact readsChar_escape_iff hvalue
  · have hread := @readsChar_control_iff c.toNat d rest after hcontrol
    rw [Char.ofNat_toNat] at hread
    rw [hescape]
    exact hread
  · rw [hescape]
    exact readsChar_plain_iff hquote hbackslash hcontrol

theorem head?_escapeChar_ne_quote
    (c : Char)
    (rest : List Char) :
    (escapeChar c ++ rest).head? ≠ some '\x22' := by
  rcases escapeChar_cases c with
    ⟨e, hescape, -⟩ | ⟨-, hescape⟩ | ⟨hquote, -, -, hescape⟩
  · rw [hescape]
    exact fun h => absurd (Option.some.inj h) (by decide)
  · rw [hescape]
    exact fun h => absurd (Option.some.inj h) (by decide)
  · rw [hescape]
    exact fun h => hquote (Option.some.inj h)

/-- A string is read from its escaped form, and nothing else is. -/
theorem readsString_iff
    {s t : List Char}
    {rest after : List Char} :
    ReadsString t (s.flatMap escapeChar ++ '\x22' :: rest) after ↔ t = s ∧ after = rest := by
  induction s generalizing t with
  | nil =>
      constructor
      · intro hread
        cases hread with
        | close => exact ⟨rfl, rfl⟩
        | char hchar _ =>
            cases hchar with
            | plain hquote _ _ => exact absurd rfl hquote
      · rintro ⟨rfl, rfl⟩
        exact ReadsString.close
  | cons c s ih =>
      rw [List.flatMap_cons, List.append_assoc]
      constructor
      · intro hread
        generalize htext : escapeChar c ++ (s.flatMap escapeChar ++ '\x22' :: rest) = text at hread
        cases hread with
        | close =>
            have hhead := head?_escapeChar_ne_quote c (s.flatMap escapeChar ++ '\x22' :: rest)
            rw [htext] at hhead
            exact absurd rfl hhead
        | char hchar hrest =>
            rw [← htext] at hchar
            obtain ⟨rfl, rfl⟩ := readsChar_escapeChar_iff.1 hchar
            obtain ⟨rfl, rfl⟩ := ih.1 hrest
            exact ⟨rfl, rfl⟩
      · rintro ⟨rfl, rfl⟩
        exact ReadsString.char (readsChar_escapeChar_iff.2 ⟨rfl, rfl⟩) (ih.2 ⟨rfl, rfl⟩)

theorem quote_append (cs rest : List Char) :
    quote cs ++ rest = '\x22' :: (cs.flatMap escapeChar ++ '\x22' :: rest) := by
  simp [quote]

/-- A number starts with a digit or with its sign. -/
theorem Numeral.Spelled.ne_of_not_isDigit
    {n : Numeral}
    {text cs rest : List Char}
    {c : Char}
    (h : n.Spelled text)
    (hdigit : c.isDigit = false)
    (hsign : c ≠ '-') :
    c :: cs ≠ text ++ rest := by
  intro htext
  cases h with
  | minus _ => exact hsign (List.cons.inj htext).1
  | plain hunsigned =>
      obtain ⟨hwhole, -, -⟩ := hunsigned
      obtain ⟨d, ds, rfl⟩ := List.exists_cons_of_ne_nil hwhole.ne_nil
      have hd := hwhole.isDigit d List.mem_cons_self
      rw [← (List.cons.inj htext).1, hdigit] at hd
      cases hd

/-- What starts with a digit is read as a number. -/
theorem exists_spelled_of_reads
    {d : Datum}
    {c : Char}
    {cs after : List Char}
    (h : Reads d (c :: cs) after)
    (hdigit : c.isDigit = true) :
    ∃ n text, d = .number n ∧ n.Spelled text ∧ c :: cs = text ++ after := by
  cases h with
  | number hspelled htext => exact ⟨_, _, rfl, hspelled, htext⟩
  | null | yes | no | string | array | object =>
      exact absurd hdigit (by decide)

theorem reads_number_iff
    {n : Nat}
    {rest after : List Char}
    {d : Datum}
    (hrest : Ends rest)
    (hafter : Ends after) :
    Reads d (Nat.toDigits 10 n ++ rest) after ↔ d = .number (.natural n) ∧ after = rest := by
  constructor
  · intro hread
    obtain ⟨c, cs, hdigits⟩ := List.exists_cons_of_ne_nil (@Nat.toDigits_ne_nil n 10)
    have hdigit := (Numeral.whole_toDigits n).isDigit c (by rw [hdigits]; exact List.mem_cons_self)
    rw [hdigits, List.cons_append] at hread
    obtain ⟨m, text, rfl, hspelled, htext⟩ := exists_spelled_of_reads hread hdigit
    rw [← List.cons_append, ← hdigits] at htext
    obtain ⟨rfl, rfl⟩ := Numeral.eq_of_spelled_toDigits hspelled htext hrest hafter
    exact ⟨rfl, rfl⟩
  · rintro ⟨rfl, rfl⟩
    exact Reads.number (Numeral.spelled_toDigits n) rfl

theorem reads_string_iff
    {s rest after : List Char}
    {d : Datum} :
    Reads d (quote s ++ rest) after ↔ d = .string s ∧ after = rest := by
  rw [quote_append]
  constructor
  · intro hread
    cases hread with
    | number hspelled htext =>
        exact absurd htext (hspelled.ne_of_not_isDigit (by decide) (by decide))
    | string hstring =>
        obtain ⟨rfl, rfl⟩ := readsString_iff.1 hstring
        exact ⟨rfl, rfl⟩
  · rintro ⟨rfl, rfl⟩
    exact Reads.string (readsString_iff.2 ⟨rfl, rfl⟩)

end Json
end Offside
