import Offside.Proofs.LoadOrder
import Offside.Proofs.SparedSettings
import Offside.Proofs.TomlPlaces

/-!
# Settings that a file writes

A document has a number for a leaf where its keys lead to one: under the name of the leaf in a
table of the group, or under a key at the top level that is the whole path.  If nothing behind
that place touches the leaf (`LastAt`), the number stands at the leaf once the document is set,
whatever was there before (`stands_of_lastAt`).  The document is set in the order of its text; if
no two of its keys lead to one place, the number stands there in every order
(`FileWrites.exists_stands_of_filesLead`).
-/

namespace Offside
namespace Toml

/-- The entries behind the first one of a key. -/
def Entries.behind
    (key : String)
    (entries : Entries) :
    Entries :=
  (entries.dropWhile fun entry => entry.1 != key).tail

theorem Entries.exists_append_of_find?
    {key : String}
    {node : Node}
    {entries : Entries}
    (h : entries.find? key = some node) :
    ∃ before, entries = before ++ (key, node) :: entries.behind key := by
  induction entries with
  | nil => cases h
  | cons entry rest ih =>
      obtain ⟨k, old⟩ := entry
      by_cases heq : k = key
      · subst heq
        obtain rfl : old = node := by simpa [Entries.find?] using h
        exact ⟨[], by simp [Entries.behind]⟩
      · rw [Entries.find?, List.find?_cons_of_neg (by simpa using heq)] at h
        obtain ⟨before, hbefore⟩ := ih h
        have hbehind : Entries.behind key ((k, old) :: rest) = Entries.behind key rest := by
          simp [Entries.behind, heq]
        exact ⟨(k, old) :: before, by rw [hbehind, List.cons_append, ← hbefore]⟩

end Toml

namespace Settings

/-- Whether a value stands at a leaf, so that to set it there changes nothing. -/
def Value.Stands
    (leaf : Leaf)
    (value root : Value) :
    Prop :=
  root.set leaf.keyPath value = root

/-- Whether some keys are those of a leaf in a document, and nothing behind them touches the
leaf. -/
inductive LastAt
    (leaf : Leaf)
    (origin : Option String)
    (entries : Toml.Entries) :
    List String → Prop
  | path
      {key : String}
      (hkey : (Value.pathOfKey key).names? = some leaf.path)
      (hbehind : ∀ a ∈ assignments origin (entries.behind key), a.Spares leaf) :
      LastAt leaf origin entries [key]
  | inGroup
      {key name : String}
      {group : Toml.Node}
      {inner : Toml.Entries}
      (hkey : (Value.pathOfKey key).names? = some [leaf.group.key])
      (hname : Lowercase.ofString name = leaf.name)
      (hgroup : entries.find? key = some group)
      (hinner : group.entries? = some inner)
      (hafter : ∀ entry ∈ inner.behind name, Lowercase.ofString entry.1 ≠ leaf.name)
      (hbehind : ∀ a ∈ assignments origin (entries.behind key), a.Spares leaf) :
      LastAt leaf origin entries [key, name]

theorem Value.ofEntries_eq_map
    (origin : Option String)
    (entries : Toml.Entries) :
    ofEntries origin entries = entries.map fun entry => (entry.1, ofNode origin entry.2) := by
  induction entries with
  | nil => rw [ofEntries, List.map_nil]
  | cons entry rest ih =>
      obtain ⟨key, node⟩ := entry
      rw [ofEntries, ih, List.map_cons]

theorem Value.ofNode_of_entries?
    {node : Toml.Node}
    {entries : Toml.Entries}
    (h : node.entries? = some entries)
    (origin : Option String) :
    ofNode origin node =
      .table origin (entries.map fun entry => (entry.1, ofNode origin entry.2)) := by
  cases node with
  | inline | table =>
      cases h
      rw [ofNode, ofEntries_eq_map]
  | _ => cases h

/-- What stands at a leaf still stands there after assignments that leave the leaf alone. -/
theorem Value.Stands.foldl_set
    {leaf : Leaf}
    {value root : Value}
    {as : List Assignment}
    (h : value.Stands leaf root)
    (has : ∀ a ∈ as, a.Spares leaf) :
    value.Stands leaf (as.foldl (fun root a => root.set a.1 a.2) root) := by
  rw [Value.Stands, Value.foldl_set_comm_of_spares has, h]

/-- A document sets its entries up to one, this one, and those behind it. -/
theorem exists_setDocument_of_find?
    {key : String}
    {node : Toml.Node}
    {entries : Toml.Entries}
    (h : entries.find? key = some node)
    (origin : Option String)
    (root : Value) :
    ∃ before : Value,
      root.setDocument origin entries =
        (assignments origin (entries.behind key)).foldl (fun root a => root.set a.1 a.2)
          (before.set (Value.pathOfKey key) (Value.ofNode origin node)) := by
  obtain ⟨front, hfront⟩ := Toml.Entries.exists_append_of_find? h
  refine ⟨root.setDocument origin front, ?_⟩
  rw [setDocument_eq_foldl, setDocument_eq_foldl]
  conv => lhs; rw [hfront]
  rw [assignments, List.map_append, List.foldl_append, List.map_cons, List.foldl_cons]
  rfl

/-- A number that the keys of a leaf lead to stands at the leaf once the document is set. -/
theorem stands_of_lastAt
    {leaf : Leaf}
    {origin : Option String}
    {entries : Toml.Entries}
    {keys : List String}
    {i : Int64}
    (h : LastAt leaf origin entries keys)
    (hleads : entries.Leads i keys)
    (root : Value) :
    (Value.scalar origin (.int i)).Stands leaf (root.setDocument origin entries) := by
  cases h with
  | path hkey hbehind =>
      obtain ⟨node, hnode, hhere⟩ := Toml.Entries.leads_cons_iff.1 hleads
      obtain ⟨before, hbefore⟩ := exists_setDocument_of_find? hnode origin root
      cases hhere
      rw [hbefore]
      refine Value.Stands.foldl_set ?_ hbehind
      rw [Value.Stands, Value.ofNode, Value.set_eq_set_keyPath hkey]
      exact Value.set_keyPath_set_keyPath rfl before _
  | inGroup hkey hname hgroup hinner hafter hbehind =>
      obtain ⟨node, hnode, hthere⟩ := Toml.Entries.leads_cons_iff.1 hleads
      obtain ⟨before, hbefore⟩ := exists_setDocument_of_find? hnode origin root
      obtain rfl := Option.some.inj (hgroup.symm.trans hnode)
      obtain ⟨number, hnumber, hhere⟩ := (Toml.Node.leads_cons_iff hinner).1 hthere
      obtain ⟨front, hfront⟩ := Toml.Entries.exists_append_of_find? hnumber
      cases hhere
      rw [hbefore, Value.ofNode_of_entries? hinner]
      refine Value.Stands.foldl_set ?_ hbehind
      conv => rw [hfront]
      rw [List.map_append, List.map_cons]
      refine Value.set_keyPath_of_group_table hkey hname rfl ?_ before
      intro entry hentry
      obtain ⟨original, horiginal, rfl⟩ := List.mem_map.1 hentry
      exact hafter original horiginal

/-- Whether a file is found, and reads if a literal in it is read as a number, and then has the
number for a leaf with nothing behind it that touches the leaf. -/
inductive FileWrites
    (view : FileView)
    (leaf : Leaf)
    (name : String)
    (literal : List Char)
    (i : Int64) :
    Prop
  | intro
      {found text : String}
      {entries : Toml.Entries}
      {keys : List String}
      (hfound : findFile view name = .ok found)
      (htext : (view found).readText = .ok text)
      (hwrites : Toml.Writes text.toList literal i keys entries)
      (hlast : LastAt leaf (some (shownName found)) entries keys)

/-- A number that a file writes for a leaf stands there once the file is set. -/
theorem FileWrites.exists_stands
    {view : FileView}
    {leaf : Leaf}
    {name : String}
    {literal : List Char}
    {i : Int64}
    (h : FileWrites view leaf name literal i)
    (hspells : Toml.Spells literal i.toInt)
    (root : Value) :
    ∃ (value : Value) (next : Value),
      value.integer? = some i.toInt ∧
      setFile view root name = .ok next ∧
      value.Stands leaf next := by
  cases h with
  | @intro found text entries keys hfound htext hwrites hlast =>
      obtain ⟨hparse, hleads⟩ := hwrites.parse?_eq hspells
      refine ⟨_, _, rfl, ?_, stands_of_lastAt hlast hleads root⟩
      simp only [setFile, hfound, bind, Except.bind, htext, hparse]

/-- If no two keys of the file lead to one place, the number stands there in any order of the
keys. -/
theorem FileWrites.exists_stands_of_filesLead
    {view : FileView}
    {leaf : Leaf}
    {name : String}
    {literal : List Char}
    {i : Int64}
    (h : FileWrites view leaf name literal i)
    (hspells : Toml.Spells literal i.toInt)
    (hapart : FileApart view name)
    {root : Value}
    {outcome : Except Error Value}
    (hlead : FilesLead view [name] root outcome) :
    ∃ (value : Value) (next : Value),
      value.integer? = some i.toInt ∧
      outcome = .ok next ∧
      value.Stands leaf next := by
  obtain ⟨value, next, hvalue, hset, hstands⟩ := h.exists_stands hspells root
  refine ⟨value, next, hvalue, ?_, hstands⟩
  have hfiles : ∀ file ∈ [name], FileApart view file := by
    intro file hfile
    rw [List.mem_singleton.1 hfile]
    exact hapart
  rw [(filesLead_iff_of_apart hfiles).1 hlead, List.foldlM_cons, hset]
  rfl

namespace Layer

/-- Whether a layer is no override, or one that leaves a leaf alone. -/
def OverrideSpares
    (leaf : Leaf)
    (layer : Layer) :
    Prop :=
  ∀ a ∈ layer.assignment?, a.Spares leaf

instance (leaf : Leaf) : DecidablePred (OverrideSpares leaf) := fun layer =>
  inferInstanceAs (Decidable (∀ a ∈ layer.assignment?, a.Spares leaf))

/-- Whether a layer is no file, or one whose entries leave a leaf alone. -/
def FileSpares
    (view : FileView)
    (leaf : Leaf)
    (layer : Layer) :
    Prop :=
  ∀ name ∈ layer.fileName?, ∀ as ∈ fileAssignments? view name, ∀ a ∈ as, a.Spares leaf

end Layer

/-- What stands at a leaf still stands there after files that leave the leaf alone. -/
theorem Value.Stands.foldlM_setFile
    {view : FileView}
    {leaf : Leaf}
    {files : List String}
    {value root next : Value}
    (h : value.Stands leaf root)
    (hfiles : ∀ name ∈ files, ∀ as ∈ fileAssignments? view name, ∀ a ∈ as, a.Spares leaf)
    (hnext : files.foldlM (setFile view) root = .ok next) :
    value.Stands leaf next := by
  induction files generalizing root with
  | nil =>
      cases hnext
      exact h
  | cons name files ih =>
      obtain ⟨hname, hrest⟩ := List.forall_mem_cons.1 hfiles
      rw [List.foldlM_cons, bind_eq_ok_iff] at hnext
      obtain ⟨after, hafter, hnext⟩ := hnext
      obtain ⟨as, has, rfl⟩ := exists_fileAssignments?_of_setFile hafter
      exact ih (h.foldl_set (hname as has)) hrest hnext

namespace Plan

/-- An override keeps its place before those that come after it, whatever its value is. -/
theorem exists_ofLayers_of_override
    {key : String}
    {path : KeyPath}
    (hkey : KeyPath.parse? key = some path)
    {before after : List Layer}
    {value : Value}
    {plan : Plan}
    (hafter : ∀ layer ∈ after, ∀ a ∈ layer.assignment?, a.1 ≠ path)
    (hplan : ofLayers (before ++ .override key value :: after) = .ok plan) :
    ∃ files front back,
      (∀ o ∈ back, ∃ layer ∈ after, layer.assignment? = some o) ∧
      ∀ other, ofLayers (before ++ .override key other :: after) =
        .ok ⟨files, front ++ (path, other) :: back⟩ := by
  induction after using List.reverseRecOn generalizing plan with
  | nil =>
      rw [ofLayers_append_singleton, bind_eq_ok_iff] at hplan
      obtain ⟨start, hstart, -⟩ := hplan
      refine
        ⟨start.files, start.overrides.filter fun o => o.1 != path, [],
          fun o ho => absurd ho List.not_mem_nil, fun other => ?_⟩
      rw [ofLayers_append_singleton, hstart]
      change start.addOverride key other = _
      rw [addOverride, hkey]
  | append_singleton after layer ih =>
      have hassoc : ∀ other, before ++ .override key other :: (after ++ [layer]) =
          (before ++ .override key other :: after) ++ [layer] := by simp
      rw [hassoc, ofLayers_append_singleton, bind_eq_ok_iff] at hplan
      obtain ⟨start, hstart, hlayer⟩ := hplan
      obtain ⟨files, front, back, hback, hplans⟩ :=
        ih (fun l hl => hafter l (List.mem_append_left _ hl)) hstart
      have hearlier : ∀ o ∈ back, ∃ other ∈ after ++ [layer], other.assignment? = some o := by
        intro o ho
        obtain ⟨other, hother, hasked⟩ := hback o ho
        exact ⟨other, List.mem_append_left _ hother, hasked⟩
      rcases addLayer_cases hlayer with
        ⟨name, rfl, -⟩ | ⟨last, lastValue, lastPath, rfl, hasked, hadds⟩
      · refine ⟨files ++ [name], front, back, hearlier, fun other => ?_⟩
        rw [hassoc, ofLayers_append_singleton, hplans]
        rfl
      · have hne : path ≠ lastPath :=
          (hafter _ (List.mem_append_right _ List.mem_cons_self) _ hasked).symm
        refine
          ⟨files, front.filter fun o => o.1 != lastPath,
            (back.filter fun o => o.1 != lastPath) ++ [(lastPath, lastValue)],
            fun o ho => ?_, fun other => ?_⟩
        · rcases List.mem_append.1 ho with hkept | hnew
          · exact hearlier o (List.mem_filter.1 hkept).1
          · rw [List.mem_singleton.1 hnew]
            exact ⟨_, List.mem_append_right _ List.mem_cons_self, hasked⟩
        · rw [hassoc, ofLayers_append_singleton, hplans]
          refine (hadds _).trans ?_
          simp [List.filter_append, hne]

theorem values_eq_ok_iff
    {view : FileView}
    {plan : Plan}
    {root : Value} :
    plan.values view = .ok root ↔
      ∃ start,
        plan.files.foldlM (setFile view) defaults = .ok start ∧
        root = plan.overrides.foldl (fun v o => v.set o.1 o.2) start := by
  rw [values, bind_eq_ok_iff]
  constructor
  · rintro ⟨start, hstart, hroot⟩
    exact ⟨start, hstart, (Except.ok.inj hroot).symm⟩
  · rintro ⟨start, hstart, rfl⟩
    exact ⟨start, hstart, rfl⟩

theorem ofLayers_eq_decode
    {view : FileView}
    {layers : List Layer}
    {plan : Plan}
    {root : Value}
    (hplan : ofLayers layers = .ok plan)
    (hroot : plan.values view = .ok root) :
    Settings.ofLayers view layers = decode root := by
  rw [Settings.ofLayers, hplan]
  change plan.settings view = _
  rw [settings, hroot]
  rfl

/-- Settings that are there come from a plan and its values. -/
theorem exists_values_of_ofLayers
    {view : FileView}
    {layers : List Layer}
    {outcome : Settings}
    (h : Settings.ofLayers view layers = .ok outcome) :
    ∃ plan root,
      ofLayers layers = .ok plan ∧ plan.values view = .ok root ∧ decode root = .ok outcome := by
  obtain ⟨plan, hplan, hsettings⟩ := bind_eq_ok_iff.1 h
  obtain ⟨root, hroot, hdecode⟩ := bind_eq_ok_iff.1 hsettings
  exact ⟨plan, root, hplan, hroot, hdecode⟩

/-- An override of a leaf comes behind overrides that leave the leaf alone. -/
theorem addOverride_of_spares
    {leaf : Leaf}
    {plan : Plan}
    (h : ∀ a ∈ plan.overrides, Assignment.Spares leaf a)
    (value : Value) :
    plan.addOverride leaf.key value =
      .ok { plan with overrides := plan.overrides ++ [(leaf.keyPath, value)] } := by
  have hkept : (plan.overrides.filter fun o => o.1 != leaf.keyPath) = plan.overrides := by
    rw [List.filter_eq_self]
    intro o ho
    rw [bne_iff_ne]
    intro heq
    exact Assignment.not_spares_of_names? (heq ▸ leaf.names?_keyPath) (h o ho)
  rw [addOverride, leaf.parse?_key]
  dsimp only
  rw [hkept]

/-- A number that a file writes for a leaf stands there in the end, if neither later files nor
overrides touch the leaf. -/
theorem exists_stands_of_writes
    {view : FileView}
    {leaf : Leaf}
    {plan : Plan}
    {name : String}
    {front back : List String}
    {literal : List Char}
    {i : Int64}
    {root : Value}
    (hspells : Toml.Spells literal i.toInt)
    (hwrites : FileWrites view leaf name literal i)
    (hfiles : plan.files = front ++ name :: back)
    (hback : ∀ file ∈ back, ∀ as ∈ fileAssignments? view file, ∀ a ∈ as, a.Spares leaf)
    (hoverrides : ∀ a ∈ plan.overrides, Assignment.Spares leaf a)
    (hroot : plan.values view = .ok root) :
    ∃ value : Value, value.integer? = some i.toInt ∧ value.Stands leaf root := by
  obtain ⟨start, hstart, rfl⟩ := values_eq_ok_iff.1 hroot
  rw [hfiles, List.foldlM_append, bind_eq_ok_iff] at hstart
  obtain ⟨before, -, hstart⟩ := hstart
  rw [List.foldlM_cons, bind_eq_ok_iff] at hstart
  obtain ⟨written, hwritten, hstart⟩ := hstart
  obtain ⟨value, next, hvalue, hnext, hstands⟩ := hwrites.exists_stands hspells before
  obtain rfl := Except.ok.inj (hnext.symm.trans hwritten)
  exact ⟨value, hvalue, (hstands.foldlM_setFile hback hstart).foldl_set hoverrides⟩

end Plan
end Settings
end Offside
