import Offside.Proofs.LoadOrder

/-!
# The last layer wins in any order

Plain layers have the four winning values at the leaves in whatever order the keys of a file are
set, since a plain file gives no leaf a value twice: what it comes down to gives each leaf the same
(`filterMap_given?_spread`).  The same holds for the overrides if those of one leaf have one key, as
then only the last one of them is kept.  What is left open is which one of several complaints is
made (`loads_iff_of_plain`).
-/

namespace Offside
namespace Settings

theorem stepNames?_append_child
    (steps : List Segment)
    (name : String) :
    stepNames? (steps ++ [.child name]) =
      (stepNames? steps).map (· ++ [Lowercase.ofString name]) := by
  induction steps with
  | nil => rfl
  | cons step steps ih =>
      cases step with
      | index i => rfl
      | child first =>
          rw [List.cons_append, stepNames?, stepNames?, ih]
          cases stepNames? steps <;> rfl

theorem KeyPath.names?_child
    (path : KeyPath)
    (name : String) :
    (path.child name).names? = path.names?.map (· ++ [Lowercase.ofString name]) := by
  rw [KeyPath.names?, KeyPath.child, stepNames?_append_child, KeyPath.names?]
  cases stepNames? path.steps <;> rfl

theorem KeyPath.ne_nil_of_names?
    {path : KeyPath}
    {names : List String}
    (h : path.names? = some names) :
    names ≠ [] := by
  obtain ⟨more, -, rfl⟩ := Option.map_eq_some_iff.1 h
  exact List.cons_ne_nil _ more

namespace Value

/-- An entry of a table whose keys differ is what the table has under its key. -/
theorem lookup?_of_mem
    {entries : List (String × Value)}
    {entry : String × Value}
    (hplain : entries.Pairwise KeysDiffer)
    (hentry : entry ∈ entries)
    (origin : Option String) :
    lookup? (Lowercase.ofString entry.1) (.table origin entries) = some entry.2 := by
  induction entries with
  | nil => cases hentry
  | cons first rest ih =>
      obtain ⟨key, value⟩ := first
      obtain ⟨hfirst, hrest⟩ := List.pairwise_cons.1 hplain
      rcases List.mem_cons.1 hentry with rfl | hmem
      · exact lookup?_cons_of_eq rfl origin value rest
      · rw [lookup?_cons_of_ne (hfirst entry hmem)]
        exact ih hrest hmem

/-- At most one entry of a table whose keys differ has a name. -/
theorem filterMap_eq_lookup?
    {entries : List (String × Value)}
    (hplain : entries.Pairwise KeysDiffer)
    (name : String)
    (origin : Option String) :
    entries.filterMap
        (fun entry => if Lowercase.ofString entry.1 = name then some entry.2 else none) =
      (lookup? name (.table origin entries)).toList := by
  induction entries with
  | nil => rfl
  | cons first rest ih =>
      obtain ⟨key, value⟩ := first
      obtain ⟨hfirst, hrest⟩ := List.pairwise_cons.1 hplain
      rw [List.filterMap_cons]
      by_cases hname : Lowercase.ofString key = name
      · have hnone :
            rest.filterMap
                (fun entry => if Lowercase.ofString entry.1 = name then some entry.2 else none) =
              [] := by
          rw [List.filterMap_eq_nil_iff]
          intro entry hentry
          rw [if_neg]
          rintro rfl
          exact hfirst entry hentry hname
        rw [if_pos hname, hnone, lookup?_cons_of_eq hname]
        rfl
      · rw [if_neg hname, ih hrest, lookup?_cons_of_ne hname]

end Value

namespace Assignment

variable {leaf : Leaf}
variable {path : KeyPath}
variable {origin : Option String}
variable {entries : List (String × Value)}

/-- No table stands at the path of a leaf. -/
theorem Fits.names?_ne
    (h : Fits (path, .table origin entries))
    (leaf : Leaf) :
    path.names? ≠ some leaf.path := by
  intro hpath
  have hvalue := h.leaf_value leaf leaf.mem_all _ (given?_of_leaf hpath)
  cases hvalue

theorem Fits.keysDiffer
    (h : Fits (path, .table origin entries))
    (hpath : path.names? = some [leaf.group.key]) :
    entries.Pairwise Value.KeysDiffer :=
  h.group_table leaf leaf.mem_all hpath

theorem Fits.exists_names
    {a : Assignment}
    (h : Fits a) :
    ∃ names, names ≠ [] ∧ a.1.names? = some names := by
  obtain ⟨names, hnames⟩ := Option.isSome_iff_exists.1 h.no_position
  exact ⟨names, KeyPath.ne_nil_of_names? hnames, hnames⟩

/-- No entry of a table stands at the path of a group. -/
theorem Fits.names?_child_ne
    (h : Fits (path, .table origin entries))
    (name key : String) :
    (path.child name).names? ≠ some [key] := by
  obtain ⟨names, hne, hnames⟩ := h.exists_names
  rw [KeyPath.names?_child, hnames, Option.map_some]
  cases names with
  | nil => exact absurd rfl hne
  | cons first more => simp

/-- An entry of a table stands at the path of a leaf if the table stands at the path of the group
and the entry has the name of the leaf. -/
theorem Fits.names?_child_eq_iff
    (h : Fits (path, .table origin entries))
    (name : String)
    (leaf : Leaf) :
    (path.child name).names? = some leaf.path ↔
      path.names? = some [leaf.group.key] ∧ Lowercase.ofString name = leaf.name := by
  obtain ⟨names, -, hnames⟩ := h.exists_names
  have hsplit : leaf.path = [leaf.group.key] ++ [leaf.name] := rfl
  rw [KeyPath.names?_child, hnames, Option.map_some, Option.some.injEq, Option.some.injEq, hsplit,
    List.append_singleton_inj]

/-- An entry of the table of a group gives a leaf its value under the name of the leaf. -/
theorem Fits.given?_child_of_group
    (h : Fits (path, .table origin entries))
    (hpath : path.names? = some [leaf.group.key])
    (entry : String × Value) :
    given? leaf (path.child entry.1, entry.2) =
      if Lowercase.ofString entry.1 = leaf.name then some entry.2 else none := by
  by_cases hname : Lowercase.ofString entry.1 = leaf.name
  · have hleaf := (h.names?_child_eq_iff entry.1 leaf).2 ⟨hpath, hname⟩
    rw [if_pos hname, @given?_of_leaf leaf (path.child entry.1, entry.2) hleaf]
  · rw [if_neg hname, given?_of_ne]
    · exact fun hleaf => hname ((h.names?_child_eq_iff entry.1 leaf).1 hleaf).2
    · exact h.names?_child_ne entry.1 leaf.group.key

/-- An entry of any other table gives a leaf nothing. -/
theorem Fits.given?_child_of_ne
    (h : Fits (path, .table origin entries))
    (hpath : path.names? ≠ some [leaf.group.key])
    (entry : String × Value) :
    given? leaf (path.child entry.1, entry.2) = none := by
  rw [given?_of_ne]
  · exact fun hleaf => hpath ((h.names?_child_eq_iff entry.1 leaf).1 hleaf).1
  · exact h.names?_child_ne entry.1 leaf.group.key

/-- The entries of a table that fits fit. -/
theorem Fits.child
    (h : Fits (path, .table origin entries))
    {entry : String × Value}
    (hentry : entry ∈ entries) :
    Fits (path.child entry.1, entry.2) where
  no_position := by
    obtain ⟨names, -, hnames⟩ := h.exists_names
    rw [KeyPath.names?_child, hnames]
    rfl
  group_table leaf _ hgroup := absurd hgroup (h.names?_child_ne entry.1 leaf.group.key)
  leaf_last leaf _ after hafter hstart := by
    obtain ⟨names, -, hnames⟩ := h.exists_names
    rw [KeyPath.names?_child, hnames, Option.map_some, Option.mem_def, Option.some.injEq] at hafter
    subst hafter
    rcases List.prefix_concat_iff.1 hstart with heq | hbefore
    · exact heq.symm
    · have hpath := h.leaf_last leaf leaf.mem_all names hnames hbefore
      rw [hpath] at hnames
      exact absurd hnames (h.names?_ne leaf)
  leaf_value leaf _ value hvalue := by
    by_cases hpath : path.names? = some [leaf.group.key]
    · rw [h.given?_child_of_group hpath] at hvalue
      split at hvalue
      next hname =>
        cases hvalue
        have hlookup := Value.lookup?_of_mem (h.keysDiffer hpath) hentry origin
        rw [hname] at hlookup
        have hgiven := @given?_of_group leaf (path, .table origin entries) hpath
        exact h.leaf_value leaf leaf.mem_all _ (hgiven.trans hlookup)
      next => cases hvalue
    · rw [h.given?_child_of_ne hpath] at hvalue
      cases hvalue

/-- The entries of a table give a leaf what the table gives it. -/
theorem Fits.filterMap_given?_child
    (h : Fits (path, .table origin entries))
    (leaf : Leaf) :
    entries.filterMap (fun entry => given? leaf (path.child entry.1, entry.2)) =
      (given? leaf (path, .table origin entries)).toList := by
  by_cases hpath : path.names? = some [leaf.group.key]
  · have hgiven := @given?_of_group leaf (path, .table origin entries) hpath
    simp only [h.given?_child_of_group hpath, hgiven]
    exact Value.filterMap_eq_lookup? (h.keysDiffer hpath) leaf.name origin
  · have hgiven := @given?_of_ne leaf (path, .table origin entries) (h.names?_ne leaf) hpath
    simp only [h.given?_child_of_ne hpath, hgiven]
    exact List.filterMap_none entries

theorem filterMap_singleton
    {α β : Type}
    (f : α → Option β)
    (a : α) :
    [a].filterMap f = (f a).toList := by
  cases h : f a with
  | none => rw [List.filterMap_cons_none h]; rfl
  | some b => rw [List.filterMap_cons_some h]; rfl

mutual

/-- What an assignment that fits comes down to fits, and gives a leaf what the assignment gives
it. -/
theorem Fits.spreadValue
    (leaf : Leaf)
    (path : KeyPath) :
    ∀ value : Value, Fits (path, value) →
      (∀ a ∈ spreadValue path value, Fits a) ∧
      (spreadValue path value).filterMap (given? leaf) = (given? leaf (path, value)).toList
  | .scalar origin content, h => by
      rw [Assignment.spreadValue]
      exact ⟨fun a ha => List.mem_singleton.1 ha ▸ h, filterMap_singleton _ _⟩
  | .array origin items, h => by
      rw [Assignment.spreadValue]
      exact ⟨fun a ha => List.mem_singleton.1 ha ▸ h, filterMap_singleton _ _⟩
  | .table origin entries, h => by
      rw [Assignment.spreadValue]
      split
      next => exact ⟨fun a ha => List.mem_singleton.1 ha ▸ h, filterMap_singleton _ _⟩
      next =>
        rw [← h.filterMap_given?_child leaf]
        exact Fits.spreadEntries leaf path entries fun entry hentry => h.child hentry

theorem Fits.spreadEntries
    (leaf : Leaf)
    (path : KeyPath) :
    ∀ entries : List (String × Value), (∀ entry ∈ entries, Fits (path.child entry.1, entry.2)) →
      (∀ a ∈ spreadEntries path entries, Fits a) ∧
      (spreadEntries path entries).filterMap (given? leaf) =
        entries.filterMap fun entry => given? leaf (path.child entry.1, entry.2)
  | [], _ => by
      rw [Assignment.spreadEntries]
      exact ⟨fun a ha => absurd ha List.not_mem_nil, rfl⟩
  | (key, value) :: rest, h => by
      obtain ⟨hfirst, hrest⟩ := List.forall_mem_cons.1 h
      obtain ⟨hfits, hgiven⟩ := Fits.spreadValue leaf (path.child key) value hfirst
      obtain ⟨hfitsRest, hgivenRest⟩ := Fits.spreadEntries leaf path rest hrest
      rw [Assignment.spreadEntries, List.filterMap_append, hgiven, hgivenRest]
      refine ⟨fun a ha => (List.mem_append.1 ha).elim (hfits a) (hfitsRest a), ?_⟩
      rw [List.filterMap_cons]
      cases given? leaf (path.child key, value) <;> rfl

end

/-- What assignments that fit come down to fits, and gives a leaf what they give it. -/
theorem filterMap_given?_spread
    {as : List Assignment}
    (h : ∀ a ∈ as, Fits a)
    (leaf : Leaf) :
    (∀ a ∈ spread as, Fits a) ∧
    (spread as).filterMap (given? leaf) = as.filterMap (given? leaf) := by
  induction as with
  | nil => exact ⟨fun a ha => absurd ha List.not_mem_nil, rfl⟩
  | cons a as ih =>
      obtain ⟨ha, has⟩ := List.forall_mem_cons.1 h
      obtain ⟨hfits, hgiven⟩ := Fits.spreadValue leaf a.1 a.2 ha
      obtain ⟨hfitsRest, hgivenRest⟩ := ih has
      rw [spread] at hfitsRest hgivenRest ⊢
      rw [List.flatMap_cons, List.filterMap_append, hgiven, hgivenRest, List.filterMap_cons]
      refine ⟨fun b hb => (List.mem_append.1 hb).elim (hfits b) (hfitsRest b), ?_⟩
      cases given? leaf a <;> rfl

/-- If a leaf is given one value at most, it has that value in the end, in any order. -/
theorem Lead.leaf?
    {as : List Assignment}
    {root next v : Value}
    (h : Lead as root next)
    (hfits : ∀ a ∈ as, Fits a)
    (honce : (as.filterMap (given? leaf)).length ≤ 1)
    (hroot : root.leaf? leaf = some v) :
    next.leaf? leaf = some ((as.filterMap (given? leaf)).getLast?.getD v) := by
  obtain ⟨bs, hperm, rfl⟩ := h.exists_perm
  obtain ⟨hspreadFits, hspreadGiven⟩ := filterMap_given?_spread hfits leaf
  have hgiven : (bs.filterMap (given? leaf)).Perm (as.filterMap (given? leaf)) := by
    rw [← hspreadGiven]
    exact hperm.filterMap (given? leaf)
  have hsame : bs.filterMap (given? leaf) = as.filterMap (given? leaf) := by
    cases hvalues : as.filterMap (given? leaf) with
    | nil =>
        rw [hvalues] at hgiven
        exact hgiven.eq_nil
    | cons value rest =>
        rw [hvalues] at hgiven honce
        obtain rfl := List.eq_nil_of_length_eq_zero (Nat.le_zero.1 (Nat.le_of_succ_le_succ honce))
        exact hgiven.eq_singleton
  rw [leaf?_foldl_set (fun b hb => hspreadFits b (hperm.subset hb)) hroot, hsame]

/-- At most one of some assignments gives a value if no two of them do. -/
theorem length_filterMap_given?_le
    {as : List Assignment}
    (h : as.Pairwise fun a b => (given? leaf a).isNone ∨ (given? leaf b).isNone) :
    (as.filterMap (given? leaf)).length ≤ 1 := by
  induction as with
  | nil => exact Nat.zero_le 1
  | cons a as ih =>
      obtain ⟨hfirst, hrest⟩ := List.pairwise_cons.1 h
      cases hgiven : given? leaf a with
      | none =>
          rw [List.filterMap_cons_none hgiven]
          exact ih hrest
      | some value =>
          have hnone : as.filterMap (given? leaf) = [] := by
            rw [List.filterMap_eq_nil_iff]
            intro b hb
            simpa [hgiven] using hfirst b hb
          rw [List.filterMap_cons_some hgiven, hnone]
          exact Nat.le_refl 1

end Assignment

/-- Plain files lead to the values of the last file with one for a leaf, in any order of their
keys. -/
theorem FilesLead.exists_leaves
    {view : FileView}
    {files : List String}
    {root : Value}
    {outcome : Except Error Value}
    {values : Leaf → Value}
    (h : FilesLead view files root outcome)
    (hfiles : ∀ name ∈ files, ∃ as ∈ fileAssignments? view name, IsPlain as)
    (hroot : ∀ leaf, root.leaf? leaf = some (values leaf)) :
    ∃ after,
      outcome = .ok after ∧
      ∀ leaf, after.leaf? leaf =
        some ((files.filterMap (fileValue? view leaf)).getLast?.getD (values leaf)) := by
  induction h generalizing values with
  | nil root => exact ⟨root, rfl, hroot⟩
  | refused hfile =>
      obtain ⟨⟨as, has, -⟩, -⟩ := List.forall_mem_cons.1 hfiles
      rw [setFile_of_fileAssignments? has] at hfile
      cases hfile
  | @file name files root next as outcome hfile hnext hrest ih =>
      obtain ⟨⟨same, hsame, hplain⟩, hlater⟩ := List.forall_mem_cons.1 hfiles
      obtain rfl := Option.some.inj (hfile.symm.trans hsame)
      have hleaf : ∀ leaf, next.leaf? leaf =
          some ((fileValue? view leaf name).getD (values leaf)) := by
        intro leaf
        have honce := Assignment.length_filterMap_given?_le (hplain.once leaf leaf.mem_all)
        rw [hnext.leaf? hplain.fits honce (hroot leaf), hplain.getLast?_filterMap, fileValue?,
          hfile, Option.bind_some]
      obtain ⟨after, hafter, hleaves⟩ := ih hlater hleaf
      refine ⟨after, hafter, fun leaf => ?_⟩
      rw [hleaves, Assignment.getLast?_filterMap_cons_getD]

/-- Whether two overrides of one path in letters of any case have one key. -/
def Layer.SpelledAlike (first second : Layer) : Prop :=
  ∀ a ∈ first.assignment?, ∀ b ∈ second.assignment?, a.1.names? = b.1.names? → a.1 = b.1

namespace Plan

/-- An override takes the place of those of the same key. -/
theorem pairwise_ne_of_ofLayers
    {layers : List Layer}
    {plan : Plan}
    (h : ofLayers layers = .ok plan) :
    plan.overrides.Pairwise fun a b => a.1 ≠ b.1 := by
  induction layers using List.reverseRecOn generalizing plan with
  | nil =>
      cases h
      exact List.Pairwise.nil
  | append_singleton layers layer ih =>
      rw [ofLayers_append_singleton, bind_eq_ok_iff] at h
      obtain ⟨before, hbefore, hlayer⟩ := h
      rcases addLayer_cases hlayer with ⟨name, rfl, rfl⟩ | ⟨key, value, path, rfl, -, hadds⟩
      · exact @ih before hbefore
      · obtain rfl := Except.ok.inj (hlayer.symm.trans (hadds before))
        rw [List.pairwise_append]
        refine ⟨(ih hbefore).filter _, List.pairwise_singleton _ _, fun a ha b hb => ?_⟩
        rw [List.mem_singleton.1 hb]
        exact bne_iff_ne.1 (List.mem_filter.1 ha).2

/-- A leaf is given one value at most by overrides that are spelled alike. -/
theorem length_overrides_le
    {view : FileView}
    {layers : List Layer}
    {plan : Plan}
    (hplan : ofLayers layers = .ok plan)
    (h : ∀ layer ∈ layers, layer.Plain view)
    (hspelled : ∀ first ∈ layers, ∀ second ∈ layers, first.SpelledAlike second)
    (leaf : Leaf) :
    (plan.overrides.filterMap (Assignment.given? leaf)).length ≤ 1 := by
  obtain ⟨-, hasked⟩ := of_ofLayers hplan
  have hpath : ∀ a ∈ plan.overrides, ∀ value ∈ Assignment.given? leaf a,
      a.1.names? = some leaf.path := by
    intro a ha value hvalue
    obtain ⟨layer, hlayer, hgives⟩ := hasked a ha
    cases layer with
    | file name => cases hgives
    | override key given =>
        obtain ⟨⟨other, -, hother⟩, -⟩ := h _ hlayer
        obtain ⟨path, hkey, rfl⟩ := Option.map_eq_some_iff.1 hgives
        rw [hkey, Option.bind_some] at hother
        by_cases hsame : other = leaf
        · rw [← hsame]
          exact hother
        · have hnone := @Assignment.given?_of_other_leaf leaf (path, given) other hother hsame
          rw [hnone] at hvalue
          cases hvalue
  refine Assignment.length_filterMap_given?_le ?_
  refine (pairwise_ne_of_ofLayers hplan).imp_of_mem fun {a b} ha hb hne => ?_
  cases hfirst : Assignment.given? leaf a with
  | none => exact .inl rfl
  | some v =>
      cases hsecond : Assignment.given? leaf b with
      | none => exact .inr rfl
      | some w =>
          obtain ⟨first, hfirstLayer, hfirstGives⟩ := hasked a ha
          obtain ⟨second, hsecondLayer, hsecondGives⟩ := hasked b hb
          have hnames := (hpath a ha v hfirst).trans (hpath b hb w hsecond).symm
          exact absurd
            (hspelled first hfirstLayer second hsecondLayer a hfirstGives b hsecondGives hnames) hne

end Plan

/-- The settings of plain layers, with one key for all overrides of a leaf, are the four winning
values converted, in any order of the keys of a file, of the overrides and of the conversions. -/
theorem loads_iff_of_plain
    {view : FileView}
    {layers : List Layer}
    (h : ∀ layer ∈ layers, layer.Plain view)
    (hspelled : ∀ first ∈ layers, ∀ second ∈ layers, first.SpelledAlike second)
    {outcome : Except Error Settings} :
    Loads view layers outcome ↔ ∃ order, outcome = ofLeavesIn order (winning view layers) := by
  obtain ⟨plan, hplan, hholds⟩ := Plan.exists_holds_of_plain h
  have hfiles := hholds.plain_files h
  have honce := Plan.length_overrides_le hplan h hspelled
  have hdecode : ∀ {start root : Value},
      FilesLead view plan.files defaults (.ok start) →
      Assignment.Lead plan.overrides start root →
      ∀ order, decodeIn order root = ofLeavesIn order (winning view layers) := by
    intro start root hstart hroot order
    obtain ⟨same, hsame, hleaves⟩ := hstart.exists_leaves hfiles Leaf.leaf?_defaults
    obtain rfl := Except.ok.inj hsame
    refine decodeIn_of_leaf? (fun leaf => ?_) order
    rw [hroot.leaf? hholds.fits (honce leaf) (hleaves leaf), hholds.last, hholds.files, winning,
      Option.getD_or]
  constructor
  · intro hloads
    rcases (loads_iff_of_plan hplan).1 hloads with
      ⟨e, hrefused, rfl⟩ | ⟨start, root, order, hstart, hroot, rfl⟩
    · obtain ⟨after, hafter, -⟩ := hrefused.exists_leaves hfiles Leaf.leaf?_defaults
      cases hafter
    · exact ⟨order, hdecode hstart hroot order⟩
  · rintro ⟨order, rfl⟩
    have hlead := filesLead_foldlM view plan.files defaults
    obtain ⟨start, hstart, -⟩ := hlead.exists_leaves hfiles Leaf.leaf?_defaults
    rw [hstart] at hlead
    have hroot := Assignment.lead_foldl plan.overrides start
    rw [← hdecode hlead hroot order]
    exact .converted hplan hlead hroot order

/-- What the four values are refused for is any one of them that does not convert, in some
order. -/
theorem exists_ofLeavesIn_eq_error_iff
    {values : Leaf → Value}
    {e : Error} :
    (∃ order, ofLeavesIn order values = .error e) ↔
      (decodeWord Leaf.tabWidth.key (values .tabWidth) = .error e ∨
        decodeBool Leaf.commentsAreBlank.key (values .commentsAreBlank) = .error e) ∨
      decodeFormat (values .format) = .error e ∨
      decodeBool Leaf.showCheckpoints.key (values .showCheckpoints) = .error e := by
  constructor
  · rintro ⟨order, h⟩
    rw [ofLeavesIn, bind_eq_error_iff] at h
    rcases h with h | ⟨p, -, hpair⟩
    · exact (inOrder_eq_error h).imp inOrder_eq_error inOrder_eq_error
    · cases hpair
  · rintro (h | h)
    · obtain ⟨secondFirst, hlayout⟩ := exists_inOrder_eq_error_iff.2 h
      refine ⟨⟨false, fun _ => secondFirst⟩, ?_⟩
      rw [ofLeavesIn, hlayout]
      rfl
    · obtain ⟨secondFirst, hinspect⟩ := exists_inOrder_eq_error_iff.2 h
      refine ⟨⟨true, fun _ => secondFirst⟩, ?_⟩
      rw [ofLeavesIn, hinspect]
      rfl

end Settings
end Offside
