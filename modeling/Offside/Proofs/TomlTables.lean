import Mathlib.Data.List.Basic
import Offside.Toml.Document

/-!
# Tables of documents

Some keys lead to a number in a document through tables, written under headers, through keys with
several parts or in braces (`Leads`).  What has once been defined is never changed by what
follows: whatever is defined or opened later, the keys still lead there (`Keeps`).  An array of
tables may get more elements, though, and a table may turn out to stand for a date; what keys
lead to in there is left open.

Headers and keys with several parts go through tables in the same way, and what one step does to
the table that it goes through is said once (`StepsInto`).
-/

namespace Offside
namespace Toml

namespace Node

/-- The entries of a table. -/
def entries? : Node → Option Entries
  | .inline entries => some entries
  | .table _ entries => some entries
  | _ => none

/-- Whether some keys lead to a number.  Nothing is said about what is in an array of tables or
in a date. -/
inductive Leads (i : Int64) : List String → Node → Prop
  | here : Leads i [] (.int i)
  | inside
      {key : String}
      {keys : List String}
      {node inner : Node}
      {entries : Entries}
      (hentries : node.entries? = some entries)
      (hkey : entries.find? key = some inner)
      (hinner : Leads i keys inner) :
      Leads i (key :: keys) node
  | elements
      {key : String}
      {keys : List String}
      {items : List Node} :
      Leads i (key :: keys) (.tables items)
  | date
      {key : String}
      {keys : List String}
      {text : String} :
      Leads i (key :: keys) (.dateTime text)

theorem leads_cons_iff
    {i : Int64}
    {key : String}
    {keys : List String}
    {node : Node}
    {entries : Entries}
    (h : node.entries? = some entries) :
    node.Leads i (key :: keys) ↔ ∃ inner, entries.find? key = some inner ∧ inner.Leads i keys := by
  constructor
  · intro hleads
    cases hleads with
    | inside hentries hkey hinner =>
        obtain rfl := Option.some.inj (h.symm.trans hentries)
        exact ⟨_, hkey, hinner⟩
    | elements | date => cases h
  · rintro ⟨inner, hkey, hinner⟩
    exact .inside h hkey hinner

/-- Whether keys that lead to a number in one node lead to it in another one too. -/
def Keeps (old new : Node) : Prop :=
  ∀ i keys, old.Leads i keys → new.Leads i keys

theorem keeps_tables (items others : List Node) : (tables items).Keeps (tables others) := by
  intro i keys h
  cases h with
  | elements => exact .elements
  | inside hentries => cases hentries

end Node

namespace Entries

/-- Whether some keys lead to a number in a table with the entries. -/
def Leads
    (i : Int64)
    (keys : List String)
    (entries : Entries) :
    Prop :=
  Node.Leads i keys (.inline entries)

/-- Whether everything under a key of one table is kept in another one. -/
def Keeps (old new : Entries) : Prop :=
  ∀ key node, old.find? key = some node → ∃ after, new.find? key = some after ∧ node.Keeps after

theorem leads_cons_iff
    {i : Int64}
    {key : String}
    {keys : List String}
    {entries : Entries} :
    entries.Leads i (key :: keys) ↔ ∃ node, entries.find? key = some node ∧ node.Leads i keys :=
  Node.leads_cons_iff rfl

/-- Keys that lead to a number in a table are not empty. -/
theorem exists_cons_of_leads
    {i : Int64}
    {keys : List String}
    {entries : Entries}
    (h : entries.Leads i keys) :
    ∃ key rest, keys = key :: rest := by
  cases h with
  | inside => exact ⟨_, _, rfl⟩

/-- How a table is written makes no difference to where its keys lead. -/
theorem Leads.table
    {i : Int64}
    {keys : List String}
    {entries : Entries}
    (h : entries.Leads i keys)
    (kind : TableKind) :
    Node.Leads i keys (.table kind entries) := by
  obtain ⟨key, rest, rfl⟩ := exists_cons_of_leads h
  exact (Node.leads_cons_iff rfl).2 (leads_cons_iff.1 h)

theorem Keeps.refl (entries : Entries) : entries.Keeps entries :=
  fun _ node hnode => ⟨node, hnode, fun _ _ h => h⟩

theorem Keeps.leads
    {i : Int64}
    {keys : List String}
    {old new : Entries}
    (h : old.Keeps new)
    (hold : old.Leads i keys) :
    new.Leads i keys := by
  obtain ⟨key, rest, rfl⟩ := exists_cons_of_leads hold
  obtain ⟨node, hnode, hleads⟩ := leads_cons_iff.1 hold
  obtain ⟨after, hafter, hkeeps⟩ := h key node hnode
  exact leads_cons_iff.2 ⟨after, hafter, hkeeps i rest hleads⟩

theorem Keeps.table
    {old new : Entries}
    (h : old.Keeps new)
    (kind other : TableKind) :
    (Node.table kind old).Keeps (Node.table other new) := by
  intro i keys hold
  cases hold with
  | inside hentries hkey hinner =>
      cases hentries
      exact (h.leads (leads_cons_iff.2 ⟨_, hkey, hinner⟩)).table other

theorem find?_put_self
    (key : String)
    (node : Node)
    (entries : Entries) :
    (put key node entries).find? key = some node := by
  induction entries with
  | nil => simp [put, find?]
  | cons entry rest ih =>
      obtain ⟨k, old⟩ := entry
      rw [put]
      split
      next heq => simp [find?, heq]
      next hne =>
        rw [find?, List.find?_cons_of_neg (by simpa using hne)]
        exact ih

theorem find?_put_of_ne
    {key other : String}
    (hne : other ≠ key)
    (node : Node)
    (entries : Entries) :
    (put key node entries).find? other = entries.find? other := by
  induction entries with
  | nil => simp [put, find?, hne.symm]
  | cons entry rest ih =>
      obtain ⟨k, old⟩ := entry
      rw [put]
      split
      next heq =>
        subst heq
        simp [find?, hne.symm]
      next =>
        by_cases hk : k = other
        · simp [find?, hk]
        · rw [find?, find?, List.find?_cons_of_neg (by simpa using hk),
            List.find?_cons_of_neg (by simpa using hk)]
          exact ih

/-- What is put under a key that is free takes nothing away. -/
theorem keeps_put_of_none
    {key : String}
    {entries : Entries}
    (hkey : entries.find? key = none)
    (node : Node) :
    entries.Keeps (put key node entries) := by
  intro other old hold
  have hne : other ≠ key := by
    rintro rfl
    rw [hkey] at hold
    cases hold
  exact ⟨old, by rw [find?_put_of_ne hne, hold], fun _ _ h => h⟩

/-- What takes the place of something has to keep it. -/
theorem keeps_put_of_some
    {key : String}
    {old node : Node}
    {entries : Entries}
    (hkey : entries.find? key = some old)
    (hnode : old.Keeps node) :
    entries.Keeps (put key node entries) := by
  intro other found hfound
  by_cases heq : other = key
  · subst heq
    obtain rfl := Option.some.inj (hkey.symm.trans hfound)
    exact ⟨node, find?_put_self other node entries, hnode⟩
  · exact ⟨found, by rw [find?_put_of_ne heq, hfound], fun _ _ h => h⟩

/-- What a step through a key does to a table: the table under the key, which may be a new one,
is changed, or an array of tables is. -/
inductive StepsInto
    (change : Entries → Entries → Prop)
    (key : String)
    (entries : Entries) :
    Entries → Prop
  | fresh
      {kind : TableKind}
      {inner : Entries}
      (hkey : entries.find? key = none)
      (hchange : change [] inner) :
      StepsInto change key entries (put key (.table kind inner) entries)
  | table
      {kind : TableKind}
      {old inner : Entries}
      (hkey : entries.find? key = some (.table kind old))
      (hchange : change old inner) :
      StepsInto change key entries (put key (.table kind inner) entries)
  | tables
      {items others : List Node}
      {old inner : Entries}
      (hkey : entries.find? key = some (.tables items))
      (hchange : change old inner) :
      StepsInto change key entries (put key (.tables others) entries)

theorem StepsInto.keeps
    {change : Entries → Entries → Prop}
    {key : String}
    {entries after : Entries}
    (h : StepsInto change key entries after)
    (hchange : ∀ old new, change old new → old.Keeps new) :
    entries.Keeps after := by
  cases h with
  | fresh hkey _ => exact keeps_put_of_none hkey _
  | table hkey hinner => exact keeps_put_of_some hkey ((hchange _ _ hinner).table _ _)
  | tables hkey _ => exact keeps_put_of_some hkey (Node.keeps_tables _ _)

theorem StepsInto.leads
    {change : Entries → Entries → Prop}
    {i : Int64}
    {key : String}
    {keys : List String}
    {entries after : Entries}
    (h : StepsInto change key entries after)
    (hchange : ∀ old new, change old new → new.Leads i keys) :
    after.Leads i (key :: keys) := by
  rw [leads_cons_iff]
  cases h with
  | fresh _ hinner => exact ⟨_, find?_put_self _ _ _, (hchange _ _ hinner).table _⟩
  | table _ hinner => exact ⟨_, find?_put_self _ _ _, (hchange _ _ hinner).table _⟩
  | tables _ hinner =>
      obtain ⟨next, keys, rfl⟩ := exists_cons_of_leads (hchange _ _ hinner)
      exact ⟨_, find?_put_self _ _ _, .elements⟩

theorem stepsInto_of_define
    {last key : String}
    {node : Node}
    {path : List String}
    {kind : TableKind}
    {throughKey : Bool}
    {entries after : Entries}
    (h : define last node (key :: path) kind throughKey entries = some after) :
    StepsInto
      (fun old new => ∃ kind throughKey, define last node path kind throughKey old = some new)
      key entries after := by
  rw [define] at h
  split at h
  next hkey =>
    obtain ⟨inner, hinner, hafter⟩ := Option.bind_eq_some_iff.1 h
    cases hafter
    exact .fresh hkey ⟨_, _, hinner⟩
  next => cases h
  next hkey =>
    obtain ⟨inner, hinner, hafter⟩ := Option.bind_eq_some_iff.1 h
    cases hafter
    exact .table hkey ⟨_, _, hinner⟩
  next hkey =>
    split at h
    next =>
      obtain ⟨inner, hinner, hafter⟩ := Option.bind_eq_some_iff.1 h
      cases hafter
      exact .tables hkey ⟨_, _, hinner⟩
    next => cases h
  next => cases h

theorem stepsInto_of_within
    {change : Entries → Option Entries}
    {key : String}
    {path : List String}
    {entries after : Entries}
    (h : within change (key :: path) entries = some after) :
    StepsInto (fun old new => within change path old = some new) key entries after := by
  rw [within] at h
  split at h
  next hkey =>
    obtain ⟨inner, hinner, hafter⟩ := Option.bind_eq_some_iff.1 h
    cases hafter
    exact .fresh hkey hinner
  next hkey =>
    obtain ⟨inner, hinner, hafter⟩ := Option.bind_eq_some_iff.1 h
    cases hafter
    exact .table hkey hinner
  next hkey =>
    split at h
    next =>
      obtain ⟨inner, hinner, hafter⟩ := Option.bind_eq_some_iff.1 h
      cases hafter
      exact .tables hkey hinner
    next => cases h
  next => cases h

/-- Where a key of one part may be defined there is nothing yet. -/
theorem eq_put_of_define
    {last : String}
    {node : Node}
    {kind : TableKind}
    {throughKey : Bool}
    {entries after : Entries}
    (h : define last node [] kind throughKey entries = some after) :
    entries.find? last = none ∧ after = put last node entries := by
  rw [define] at h
  split at h
  next => cases h
  next =>
    split at h
    next => cases h
    next hfree => exact ⟨Option.not_isSome_iff_eq_none.1 hfree, (Option.some.inj h).symm⟩

theorem keeps_of_define
    {last : String}
    {node : Node}
    {path : List String}
    {kind : TableKind}
    {throughKey : Bool}
    {entries after : Entries}
    (h : define last node path kind throughKey entries = some after) :
    entries.Keeps after := by
  induction path generalizing kind throughKey entries after with
  | nil =>
      obtain ⟨hfree, rfl⟩ := eq_put_of_define h
      exact keeps_put_of_none hfree node
  | cons key path ih => exact (stepsInto_of_define h).keeps fun _ _ ⟨_, _, hinner⟩ => ih hinner

theorem leads_of_define
    {i : Int64}
    {last : String}
    {node : Node}
    {keys path : List String}
    {kind : TableKind}
    {throughKey : Bool}
    {entries after : Entries}
    (h : define last node path kind throughKey entries = some after)
    (hnode : node.Leads i keys) :
    after.Leads i (path ++ last :: keys) := by
  induction path generalizing kind throughKey entries after with
  | nil =>
      obtain ⟨-, rfl⟩ := eq_put_of_define h
      exact leads_cons_iff.2 ⟨node, find?_put_self last node entries, hnode⟩
  | cons key path ih =>
      exact (stepsInto_of_define h).leads fun _ _ ⟨_, _, hinner⟩ => ih hinner

theorem keeps_of_within
    {change : Entries → Option Entries}
    {path : List String}
    {entries after : Entries}
    (h : within change path entries = some after)
    (hchange : ∀ old new, change old = some new → old.Keeps new) :
    entries.Keeps after := by
  induction path generalizing entries after with
  | nil => exact hchange _ _ h
  | cons key path ih => exact (stepsInto_of_within h).keeps fun _ _ hinner => ih hinner

theorem leads_of_within
    {change : Entries → Option Entries}
    {i : Int64}
    {keys path : List String}
    {entries after : Entries}
    (h : within change path entries = some after)
    (hchange : ∀ old new, change old = some new → new.Leads i keys) :
    after.Leads i (path ++ keys) := by
  induction path generalizing entries after with
  | nil => exact hchange _ _ h
  | cons key path ih =>
      exact (stepsInto_of_within h).leads fun _ _ hinner => ih hinner

theorem find?_putLast_self
    (key : String)
    (node : Node)
    (entries : Entries) :
    (putLast key node entries).find? key = some node := by
  have hnone : (List.filter (fun entry => entry.1 != key) entries).find?
      (fun entry => entry.1 == key) = none := by
    rw [List.find?_eq_none]
    intro entry hentry
    simpa using (List.mem_filter.1 hentry).2
  rw [putLast, find?, List.find?_append, hnone]
  simp

theorem find?_putLast_of_ne
    {key other : String}
    (hne : other ≠ key)
    (node : Node)
    (entries : Entries) :
    (putLast key node entries).find? other = entries.find? other := by
  have hkept : (List.filter (fun entry => entry.1 != key) entries).find?
      (fun entry => entry.1 == other) = List.find? (fun entry => entry.1 == other) entries := by
    rw [List.find?_filter]
    congr 1
    funext entry
    by_cases heq : entry.1 = other
    · simp [heq, hne]
    · simp [heq]
  rw [putLast, find?, find?, List.find?_append, hkept]
  simp [hne.symm]

/-- A table that was only led through keeps what it has when a header opens it. -/
theorem keeps_of_openTable
    {key : String}
    {entries after : Entries}
    (h : openTable key entries = some after) :
    entries.Keeps after := by
  rw [openTable] at h
  split at h
  next hkey =>
    cases h
    exact keeps_put_of_none hkey _
  next hkey =>
    cases h
    intro other old hold
    by_cases heq : other = key
    · subst heq
      obtain rfl := Option.some.inj (hkey.symm.trans hold)
      exact ⟨_, find?_putLast_self _ _ _, (Keeps.refl _).table _ _⟩
    · exact ⟨old, by rw [find?_putLast_of_ne heq, hold], fun _ _ h => h⟩
  next => cases h

theorem keeps_of_openElement
    {key : String}
    {entries after : Entries}
    (h : openElement key entries = some after) :
    entries.Keeps after := by
  rw [openElement] at h
  split at h
  next hkey =>
    cases h
    exact keeps_put_of_none hkey _
  next hkey =>
    cases h
    exact keeps_put_of_some hkey (Node.keeps_tables _ _)
  next => cases h

end Entries

theorem keeps_of_defineKey
    {parts : List String}
    {node : Node}
    {entries after : Entries}
    (h : defineKey parts node entries = some after) :
    entries.Keeps after := by
  rw [defineKey] at h
  split at h
  next => cases h
  next => exact Entries.keeps_of_define h

theorem leads_of_defineKey
    {i : Int64}
    {parts keys : List String}
    {node : Node}
    {entries after : Entries}
    (h : defineKey parts node entries = some after)
    (hnode : node.Leads i keys) :
    after.Leads i (parts ++ keys) := by
  rw [defineKey] at h
  split at h
  next => cases h
  next last hlast =>
    have hparts : parts ++ keys = parts.dropLast ++ last :: keys := by
      rw [← List.dropLast_append_getLast? last hlast, List.append_assoc]
      simp
    rw [hparts]
    exact Entries.leads_of_define h hnode

namespace Document

theorem keeps_of_openHeader
    {d after : Document}
    {parts : List String}
    {element : Bool}
    (h : d.openHeader parts element = some after) :
    d.root.Keeps after.root := by
  simp only [openHeader, Option.bind_eq_bind, Option.bind_eq_some_iff, Option.pure_def,
    Option.some.injEq] at h
  obtain ⟨last, -, root, hroot, rfl⟩ := h
  refine Entries.keeps_of_within hroot fun old new hchange => ?_
  cases element with
  | true => exact Entries.keeps_of_openElement hchange
  | false => exact Entries.keeps_of_openTable hchange

theorem exists_root_of_define
    {d after : Document}
    {parts : List String}
    {node : Node}
    (h : d.define parts node = some after) :
    Entries.within (defineKey parts node) d.header d.root = some after.root := by
  simp only [define, Option.bind_eq_bind, Option.bind_eq_some_iff, Option.pure_def,
    Option.some.injEq] at h
  obtain ⟨root, hroot, rfl⟩ := h
  exact hroot

theorem keeps_of_define
    {d after : Document}
    {parts : List String}
    {node : Node}
    (h : d.define parts node = some after) :
    d.root.Keeps after.root :=
  Entries.keeps_of_within (exists_root_of_define h) fun _ _ => keeps_of_defineKey

theorem leads_of_define
    {d after : Document}
    {i : Int64}
    {parts keys : List String}
    {node : Node}
    (h : d.define parts node = some after)
    (hnode : node.Leads i keys) :
    after.root.Leads i (d.header ++ (parts ++ keys)) :=
  Entries.leads_of_within (exists_root_of_define h) fun _ _ hchange =>
    leads_of_defineKey hchange hnode

end Document

/-- What settles under a key is what is there, settled. -/
theorem exists_settle_of_settleEntries?
    {key : String}
    {node : Node}
    {entries settled : Entries}
    (h : settleEntries? entries = some settled)
    (hkey : entries.find? key = some node) :
    ∃ after, node.settle? = some after ∧ settled.find? key = some after := by
  induction entries generalizing settled with
  | nil => cases hkey
  | cons entry rest ih =>
      obtain ⟨k, old⟩ := entry
      simp only [settleEntries?, Option.bind_eq_bind, Option.bind_eq_some_iff, Option.pure_def,
        Option.some.injEq] at h
      obtain ⟨after, hafter, others, hothers, rfl⟩ := h
      by_cases heq : k = key
      · subst heq
        obtain rfl : old = node := by simpa [Entries.find?] using hkey
        exact ⟨after, hafter, by simp [Entries.find?]⟩
      · rw [Entries.find?, List.find?_cons_of_neg (by simpa using heq)] at hkey ⊢
        exact ih hothers hkey

/-- A table may settle to a date; else it keeps what keys lead to. -/
theorem Node.Leads.settle
    {i : Int64}
    {keys : List String}
    {node after : Node}
    (h : node.Leads i keys)
    (hafter : node.settle? = some after) :
    after.Leads i keys := by
  induction h generalizing after with
  | here =>
      rw [Node.settle?] at hafter
      cases hafter
      exact .here
  | @inside key keys node inner entries hentries hkey _ ih =>
      have htable : ∀ settled, settleEntries? entries = some settled →
          ∃ other, Entries.find? key settled = some other ∧ other.Leads i keys := by
        intro settled hsettled
        obtain ⟨other, hother, hfound⟩ := exists_settle_of_settleEntries? hsettled hkey
        exact ⟨other, hfound, ih hother⟩
      cases node with
      | inline | table =>
          cases hentries
          rw [Node.settle?] at hafter
          split at hafter
          next =>
            obtain ⟨text, -, rfl⟩ := Option.map_eq_some_iff.1 hafter
            exact .date
          next =>
            obtain ⟨settled, hsettled, rfl⟩ := Option.map_eq_some_iff.1 hafter
            obtain ⟨other, hfound, hother⟩ := htable settled hsettled
            exact .inside rfl hfound hother
      | _ => cases hentries
  | elements =>
      rw [Node.settle?] at hafter
      obtain ⟨items, -, rfl⟩ := Option.map_eq_some_iff.1 hafter
      exact .elements
  | date =>
      rw [Node.settle?] at hafter
      cases hafter
      exact .date

theorem leads_of_content?
    {i : Int64}
    {keys : List String}
    {entries after : Entries}
    (h : entries.Leads i keys)
    (hafter : entries.content? = some (.entries after)) :
    after.Leads i keys := by
  rw [Entries.content?] at hafter
  split at hafter
  next =>
    obtain ⟨text, -, heq⟩ := Option.map_eq_some_iff.1 hafter
    cases heq
  next hdate =>
    obtain ⟨settled, hsettled, heq⟩ := Option.map_eq_some_iff.1 hafter
    cases heq
    refine Node.Leads.settle h ?_
    rw [Node.settle?, if_neg hdate, hsettled]
    rfl

end Toml
end Offside
