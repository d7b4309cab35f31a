import Offside.Proofs.JsonScalars

/-!
# The indented form in the grammar

The indented form of a value is a JSON text, and all that the grammar finds in it is that
value (`isText_render_iff`).  The proof follows the way in which the form is printed
(`readsOnly_indented`).  What is printed behind a value ends a number (`Ends`), and so does
what can follow it in a row, and with this every value is cut off where it was printed.
-/

namespace Offside
namespace Json

theorem indented_array_append
    (depth : Nat)
    (item : Json)
    (more : List Json)
    (rest : List Char) :
    indented depth (.array (item :: more)) ++ rest =
      '[' :: (freshLine (depth + 1) ++ (indented (depth + 1) item ++
        (indentedItems (depth + 1) more ++ (freshLine depth ++ ']' :: rest)))) := by
  simp [indented]

theorem indentedItems_append
    (depth : Nat)
    (item : Json)
    (more : List Json)
    (rest : List Char) :
    indentedItems depth (item :: more) ++ rest =
      ',' :: (freshLine depth ++ (indented depth item ++ (indentedItems depth more ++ rest))) := by
  simp [indentedItems]

theorem indented_object_append
    (depth : Nat)
    (name : List Char)
    (value : Json)
    (more : List (List Char × Json))
    (rest : List Char) :
    indented depth (.object ((name, value) :: more)) ++ rest =
      '\x7b' :: (freshLine (depth + 1) ++ '\x22' :: (name.flatMap escapeChar ++ '\x22' :: ':' ::
        ' ' :: (indented (depth + 1) value ++
          (indentedFields (depth + 1) more ++ (freshLine depth ++ '\x7d' :: rest))))) := by
  simp [indented, quote]

theorem indentedFields_append
    (depth : Nat)
    (name : List Char)
    (value : Json)
    (more : List (List Char × Json))
    (rest : List Char) :
    indentedFields depth ((name, value) :: more) ++ rest =
      ',' :: (freshLine depth ++ '\x22' :: (name.flatMap escapeChar ++ '\x22' :: ':' ::
        ' ' :: (indented depth value ++ (indentedFields depth more ++ rest)))) := by
  simp [indentedFields, quote]

/-- A value starts neither with a blank nor with the mark that closes an array. -/
theorem exists_cons_indented
    (depth : Nat)
    (v : Json) :
    ∃ c cs, v.indented depth = c :: cs ∧ isBlank c = false ∧ c ≠ ']' := by
  cases v with
  | number n =>
      obtain ⟨d, ds, hdigits⟩ := List.exists_cons_of_ne_nil (@Nat.toDigits_ne_nil n 10)
      have hdigit := (Numeral.whole_toDigits n).isDigit d (by rw [hdigits]; exact List.mem_cons_self)
      refine ⟨d, ds, by rw [indented, hdigits], ?_, ?_⟩
      · by_contra h
        simp only [isBlank, Bool.not_eq_false, Bool.or_eq_true, beq_iff_eq] at h
        rcases h with ((rfl | rfl) | rfl) | rfl <;> exact absurd hdigit (by decide)
      · rintro rfl
        exact absurd hdigit (by decide)
  | string cs => exact ⟨'\x22', _, rfl, by decide, by decide⟩
  | array items => cases items <;> exact ⟨'[', _, rfl, by decide, by decide⟩
  | object fields => cases fields <;> exact ⟨'\x7b', _, rfl, by decide, by decide⟩

theorem skipBlanks_indented_append
    (depth : Nat)
    (v : Json)
    (rest : List Char) :
    skipBlanks (v.indented depth ++ rest) = v.indented depth ++ rest := by
  obtain ⟨c, cs, hindented, hblank, -⟩ := exists_cons_indented depth v
  rw [hindented]
  exact skipBlanks_cons hblank _

/-- Behind a bracket the elements of an array are read. -/
theorem reads_array_iff
    {text rest after : List Char}
    {xs : List Datum}
    {d : Datum}
    (hrow : ∀ items, ReadsRow ']' Reads items text after ↔ items = xs ∧ after = rest) :
    Reads d ('[' :: text) after ↔ d = .array xs ∧ after = rest := by
  constructor
  · intro hread
    cases hread with
    | number hspelled htext =>
        exact absurd htext (hspelled.ne_of_not_isDigit (by decide) (by decide))
    | array hitems =>
        obtain ⟨rfl, rfl⟩ := (hrow _).1 hitems
        exact ⟨rfl, rfl⟩
  · rintro ⟨rfl, rfl⟩
    exact Reads.array ((hrow xs).2 ⟨rfl, rfl⟩)

/-- Behind a brace the fields of an object are read. -/
theorem reads_object_iff
    {text rest after : List Char}
    {xs : List (List Char × Datum)}
    {d : Datum}
    (hrow : ∀ fields,
      ReadsRow '\x7d' (ReadsField Reads) fields text after ↔ fields = xs ∧ after = rest) :
    Reads d ('\x7b' :: text) after ↔ d = .object xs ∧ after = rest := by
  constructor
  · intro hread
    cases hread with
    | number hspelled htext =>
        exact absurd htext (hspelled.ne_of_not_isDigit (by decide) (by decide))
    | object hfields =>
        obtain ⟨rfl, rfl⟩ := (hrow _).1 hfields
        exact ⟨rfl, rfl⟩
  · rintro ⟨rfl, rfl⟩
    exact Reads.object ((hrow xs).2 ⟨rfl, rfl⟩)

section

variable {α : Type} {ReadsOne : α → List Char → List Char → Prop} {close : Char}
variable {text next rest after : List Char} {value : α} {items more : List α}

/-- What is read from a text is one value only, and one text only remains, among the texts
that end a number. -/
def ReadsOnly
    (ReadsOne : α → List Char → List Char → Prop)
    (text rest : List Char)
    (value : α) :
    Prop :=
  ∀ d after, Ends after → (ReadsOne d text after ↔ d = value ∧ after = rest)

theorem readsMore_close_iff (hclose : IsClosing close) :
    ReadsMore close ReadsOne items (close :: rest) after ↔ items = [] ∧ after = rest := by
  constructor
  · intro hread
    cases hread with
    | close => exact ⟨rfl, rfl⟩
    | next => exact absurd rfl hclose.ne_comma
  · rintro ⟨rfl, rfl⟩
    exact ReadsMore.close

/-- Behind a comma one more element is read, and then the others. -/
theorem readsMore_next_iff
    (hclose : IsClosing close)
    (hfirst : ReadsOnly ReadsOne (skipBlanks text) next value)
    (hmore : ∀ items,
      ReadsMore close ReadsOne items (skipBlanks next) after ↔ items = more ∧ after = rest) :
    ReadsMore close ReadsOne items (',' :: text) after ↔ items = value :: more ∧ after = rest := by
  constructor
  · intro hread
    cases hread with
    | close => exact absurd rfl hclose.ne_comma
    | next hitem hitems =>
        obtain ⟨rfl, rfl⟩ := (hfirst _ _ (ends_of_skipBlanks (hitems.ends hclose))).1 hitem
        obtain ⟨rfl, rfl⟩ := (hmore _).1 hitems
        exact ⟨rfl, rfl⟩
  · rintro ⟨rfl, rfl⟩
    have hitems := (hmore more).2 ⟨rfl, rfl⟩
    exact ReadsMore.next
      ((hfirst _ _ (ends_of_skipBlanks (hitems.ends hclose))).2 ⟨rfl, rfl⟩) hitems

theorem readsRow_empty_iff
    (hclose : IsClosing close)
    (hone : ∀ d next, ¬ ReadsOne d (close :: rest) next) :
    ReadsRow close ReadsOne items (close :: rest) after ↔ items = [] ∧ after = rest := by
  have hskip : skipBlanks (close :: rest) = close :: rest := skipBlanks_cons hclose.not_blank rest
  constructor
  · intro hread
    cases hread with
    | empty hempty =>
        rw [hskip] at hempty
        exact ⟨rfl, (List.cons.inj hempty).2.symm⟩
    | items hfirst _ =>
        rw [hskip] at hfirst
        exact absurd hfirst (hone _ _)
  · rintro ⟨rfl, rfl⟩
    exact ReadsRow.empty hskip

/-- A row is read from its first element and the others. -/
theorem readsRow_items_iff
    (hclose : IsClosing close)
    (hopen : ∀ cs, skipBlanks text ≠ close :: cs)
    (hfirst : ReadsOnly ReadsOne (skipBlanks text) next value)
    (hmore : ∀ items,
      ReadsMore close ReadsOne items (skipBlanks next) after ↔ items = more ∧ after = rest) :
    ReadsRow close ReadsOne items text after ↔ items = value :: more ∧ after = rest := by
  constructor
  · intro hread
    cases hread with
    | empty hempty => exact absurd hempty (hopen _)
    | items hitem hitems =>
        obtain ⟨rfl, rfl⟩ := (hfirst _ _ (ends_of_skipBlanks (hitems.ends hclose))).1 hitem
        obtain ⟨rfl, rfl⟩ := (hmore _).1 hitems
        exact ⟨rfl, rfl⟩
  · rintro ⟨rfl, rfl⟩
    have hitems := (hmore more).2 ⟨rfl, rfl⟩
    exact ReadsRow.items
      ((hfirst _ _ (ends_of_skipBlanks (hitems.ends hclose))).2 ⟨rfl, rfl⟩) hitems

/-- A field is read from its name and its value. -/
theorem readsOnly_field
    (name : List Char)
    (hblank : skipBlanks text = text)
    (h : ReadsOnly ReadsOne text rest value) :
    ReadsOnly (ReadsField ReadsOne)
      ('\x22' :: (name.flatMap escapeChar ++ '\x22' :: ':' :: ' ' :: text)) rest
      (name, value) := by
  have hcolon : skipBlanks (':' :: ' ' :: text) = ':' :: ' ' :: text :=
    skipBlanks_cons (by decide) _
  have hspace : skipBlanks (' ' :: text) = text := hblank
  intro field after hafter
  constructor
  · intro hread
    cases hread with
    | mk hname hmark hvalue =>
        obtain ⟨rfl, rfl⟩ := readsString_iff.1 hname
        rw [hcolon] at hmark
        rw [← (List.cons.inj hmark).2, hspace] at hvalue
        obtain ⟨rfl, rfl⟩ := (h _ _ hafter).1 hvalue
        exact ⟨rfl, rfl⟩
  · rintro ⟨rfl, rfl⟩
    refine ReadsField.mk (readsString_iff.2 ⟨rfl, rfl⟩) hcolon ?_
    rw [hspace]
    exact (h _ _ hafter).2 ⟨rfl, rfl⟩

end

theorem not_reads_closing_bracket
    (d : Datum)
    (rest after : List Char) :
    ¬ Reads d (']' :: rest) after := by
  intro hread
  cases hread with
  | number hspelled htext =>
      exact absurd htext (hspelled.ne_of_not_isDigit (by decide) (by decide))

theorem ends_indentedItems_append
    (depth outer : Nat)
    (more : List Json)
    (cs : List Char) :
    Ends (indentedItems depth more ++ (freshLine outer ++ cs)) := by
  cases more with
  | nil => exact ends_freshLine_append outer cs
  | cons item more => exact ends_cons (by decide) _

theorem ends_indentedFields_append
    (depth outer : Nat)
    (more : List (List Char × Json))
    (cs : List Char) :
    Ends (indentedFields depth more ++ (freshLine outer ++ cs)) := by
  cases more with
  | nil => exact ends_freshLine_append outer cs
  | cons field more => exact ends_cons (by decide) _

theorem skipBlanks_freshLine_quote
    (depth : Nat)
    (cs : List Char) :
    skipBlanks (freshLine depth ++ '\x22' :: cs) = '\x22' :: cs := by
  rw [skipBlanks_freshLine_append]
  exact skipBlanks_cons (by decide) cs

mutual

/-- From the indented form of a value that value is read, and nothing else. -/
theorem readsOnly_indented
    (depth : Nat)
    {rest : List Char}
    (hrest : Ends rest) :
    (v : Json) → ReadsOnly Reads (v.indented depth ++ rest) rest v.datum
  | .number n => by
      intro d after hafter
      rw [indented]
      exact reads_number_iff hrest hafter
  | .string cs => by
      intro d after _
      rw [indented]
      exact reads_string_iff
  | .array [] => by
      intro d after _
      refine reads_array_iff fun items => readsRow_empty_iff isClosing_bracket ?_
      exact fun d next => not_reads_closing_bracket d rest next
  | .array (item :: more) => by
      intro d after _
      have hitem :=
        readsOnly_indented (depth + 1)
          (ends_indentedItems_append (depth + 1) depth more (']' :: rest)) item
      rw [← skipBlanks_indented_append, ← skipBlanks_freshLine_append (depth + 1)] at hitem
      rw [indented_array_append]
      refine reads_array_iff fun items => readsRow_items_iff isClosing_bracket ?_ hitem
        (readsMore_indentedItems (depth + 1) depth rest after more)
      intro cs hbracket
      obtain ⟨c, _, hindented, -, hne⟩ := exists_cons_indented (depth + 1) item
      rw [skipBlanks_freshLine_append, skipBlanks_indented_append, hindented] at hbracket
      exact hne (List.cons.inj hbracket).1
  | .object [] => by
      intro d after _
      refine reads_object_iff fun fields => readsRow_empty_iff isClosing_brace ?_
      rintro field next ⟨⟩
  | .object ((name, value) :: more) => by
      intro d after _
      have hvalue :=
        readsOnly_indented (depth + 1)
          (ends_indentedFields_append (depth + 1) depth more ('\x7d' :: rest)) value
      have hfield := readsOnly_field name (skipBlanks_indented_append _ _ _) hvalue
      rw [← skipBlanks_freshLine_quote (depth + 1)] at hfield
      rw [indented_object_append]
      refine reads_object_iff fun fields => readsRow_items_iff isClosing_brace ?_ hfield
        (readsMore_indentedFields (depth + 1) depth rest after more)
      intro cs hbrace
      rw [skipBlanks_freshLine_quote] at hbrace
      exact absurd (List.cons.inj hbrace).1 (by decide)

/-- The elements of an array after the first one are read from their indented form. -/
theorem readsMore_indentedItems
    (depth outer : Nat)
    (rest after : List Char) :
    (more : List Json) → ∀ items,
      ReadsMore ']' Reads items
          (skipBlanks (indentedItems depth more ++ (freshLine outer ++ ']' :: rest))) after ↔
        items = data more ∧ after = rest
  | [] => by
      intro items
      rw [indentedItems, List.nil_append, skipBlanks_freshLine_append,
        skipBlanks_cons isClosing_bracket.not_blank]
      exact readsMore_close_iff isClosing_bracket
  | item :: more => by
      intro items
      have hitem :=
        readsOnly_indented depth (ends_indentedItems_append depth outer more (']' :: rest)) item
      rw [← skipBlanks_indented_append, ← skipBlanks_freshLine_append depth] at hitem
      rw [indentedItems_append, skipBlanks_cons (by decide)]
      exact readsMore_next_iff isClosing_bracket hitem
        (readsMore_indentedItems depth outer rest after more)

/-- The fields of an object after the first one are read from their indented form. -/
theorem readsMore_indentedFields
    (depth outer : Nat)
    (rest after : List Char) :
    (more : List (List Char × Json)) → ∀ fields,
      ReadsMore '\x7d' (ReadsField Reads) fields
          (skipBlanks (indentedFields depth more ++ (freshLine outer ++ '\x7d' :: rest))) after ↔
        fields = dataOfFields more ∧ after = rest
  | [] => by
      intro fields
      rw [indentedFields, List.nil_append, skipBlanks_freshLine_append,
        skipBlanks_cons isClosing_brace.not_blank]
      exact readsMore_close_iff isClosing_brace
  | (name, value) :: more => by
      intro fields
      have hvalue :=
        readsOnly_indented depth (ends_indentedFields_append depth outer more ('\x7d' :: rest))
          value
      have hfield := readsOnly_field name (skipBlanks_indented_append _ _ _) hvalue
      rw [← skipBlanks_freshLine_quote depth] at hfield
      rw [indentedFields_append, skipBlanks_cons (by decide)]
      exact readsMore_next_iff isClosing_brace hfield
        (readsMore_indentedFields depth outer rest after more)

end

/-- The indented form of a value is a text, and it spells that value only. -/
theorem isText_render_iff
    (v : Json)
    (d : Datum) :
    IsText d v.render ↔ d = v.datum := by
  have hread := readsOnly_indented 0 ends_nil v
  have hblank := skipBlanks_indented_append 0 v []
  rw [List.append_nil] at hread hblank
  rw [IsText, render, hblank]
  constructor
  · rintro ⟨after, hafter, hend⟩
    have hends : Ends after := ends_of_skipBlanks (hend.symm ▸ ends_nil)
    exact ((hread d after hends).1 hafter).1
  · rintro rfl
    exact ⟨[], (hread _ _ ends_nil).2 ⟨rfl, rfl⟩, rfl⟩

end Json
end Offside
