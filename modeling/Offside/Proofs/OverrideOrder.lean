import Offside.Proofs.ApartPaths
import Offside.Proofs.LastLayerWins

/-!
# The position of overrides

Overrides are set behind all files, wherever they stood among the layers, and of two overrides
of one key only the later one is.  So their position among the files does not matter.  Their
order among each other does not matter either, as long as no path leads through another one:
assignments at paths that part commute.
-/

namespace Offside
namespace Settings
namespace Layer

/-- The assignment that an override asks for, if its key is a path. -/
def assignment? : Layer → Option Assignment
  | file _ => none
  | override key value => (KeyPath.parse? key).map fun path => (path, value)

/-- The lowercased names on the path of an override, unless it has a position. -/
def names? : Layer → Option (List String)
  | file _ => none
  | override key _ => (KeyPath.parse? key).bind KeyPath.names?

/-- Whether a layer is a file, or an override at a path of names. -/
def IsPlainlyKeyed : Layer → Prop
  | file _ => True
  | override key _ => ((KeyPath.parse? key).bind KeyPath.names?).isSome

instance : DecidablePred IsPlainlyKeyed
  | file _ => isTrue trivial
  | override key _ =>
      inferInstanceAs (Decidable ((KeyPath.parse? key).bind KeyPath.names?).isSome)

/-- Whether the paths of two layers, if they have any, neither are the same nor lead through
each other. -/
def Apart (first second : Layer) : Prop :=
  ∀ names ∈ first.names?, ∀ others ∈ second.names?, ¬ names <+: others ∧ ¬ others <+: names

instance : DecidableRel Apart := fun first second =>
  inferInstanceAs
    (Decidable
      (∀ names ∈ first.names?, ∀ others ∈ second.names?, ¬ names <+: others ∧ ¬ others <+: names))

theorem names?_of_assignment?
    {layer : Layer}
    {a : Assignment}
    (hlayer : layer.IsPlainlyKeyed)
    (ha : layer.assignment? = some a) :
    ∃ names, a.1.names? = some names ∧ layer.names? = some names := by
  cases layer with
  | file name => cases ha
  | override key value =>
      obtain ⟨path, hkey, rfl⟩ := Option.map_eq_some_iff.1 ha
      obtain ⟨names, hnames⟩ := Option.isSome_iff_exists.1 hlayer
      refine ⟨names, ?_, hnames⟩
      rwa [hkey, Option.bind_some] at hnames

/-- Overrides that are apart ask for assignments at paths that part. -/
theorem Apart.assignments
    {first second : Layer}
    {a b : Assignment}
    (h : first.Apart second)
    (hfirst : first.IsPlainlyKeyed)
    (hsecond : second.IsPlainlyKeyed)
    (ha : first.assignment? = some a)
    (hb : second.assignment? = some b) :
    a.1.Apart b.1 := by
  obtain ⟨names, hnames, hfirstNames⟩ := names?_of_assignment? hfirst ha
  obtain ⟨others, hothers, hsecondNames⟩ := names?_of_assignment? hsecond hb
  obtain ⟨hstart, hback⟩ := h names hfirstNames others hsecondNames
  exact KeyPath.apart_of_names? hnames hothers hstart hback

end Layer

namespace Plan

theorem addLayer_eq_error
    {plan : Plan}
    {layer : Layer}
    {e : Error}
    (h : plan.addLayer layer = .error e) :
    e = .malformedKey := by
  cases layer with
  | file name => cases h
  | override key value =>
      rw [addLayer, addOverride] at h
      split at h
      next => exact (Except.error.inj h).symm
      next => cases h

theorem foldlM_addLayer_eq_error
    {plan : Plan}
    {layers : List Layer}
    {e : Error}
    (h : layers.foldlM addLayer plan = .error e) :
    e = .malformedKey := by
  induction layers generalizing plan with
  | nil => cases h
  | cons layer layers ih =>
      rw [List.foldlM_cons] at h
      cases hlayer : plan.addLayer layer with
      | error cause =>
          rw [hlayer] at h
          cases h
          exact addLayer_eq_error hlayer
      | ok after =>
          rw [hlayer] at h
          exact ih h

/-- Layers whose overrides are apart are the files and the overrides of their plan. -/
theorem ofLayers_of_apart
    {layers : List Layer}
    (hkeys : ∀ layer ∈ layers, layer.IsPlainlyKeyed)
    (hapart : layers.Pairwise Layer.Apart) :
    ofLayers layers =
      .ok ⟨layers.filterMap Layer.fileName?, layers.filterMap Layer.assignment?⟩ := by
  induction layers using List.reverseRecOn with
  | nil => rfl
  | append_singleton layers layer ih =>
      obtain ⟨hbefore, -, hlast⟩ := List.pairwise_append.1 hapart
      have hplan := ih (fun l hl => hkeys l (List.mem_append_left _ hl)) hbefore
      have hlayer := hkeys layer (List.mem_append_right _ List.mem_cons_self)
      rw [ofLayers_append_singleton, hplan]
      cases layer with
      | file name =>
          have hassignment : (Layer.file name).assignment? = none := rfl
          rw [filterMap_concat_of_none hassignment, List.filterMap_append]
          rfl
      | override key value =>
          obtain ⟨names, hnames⟩ := Option.isSome_iff_exists.1 hlayer
          obtain ⟨path, hkey, -⟩ := Option.bind_eq_some_iff.1 hnames
          have hassignment : (Layer.override key value).assignment? = some (path, value) := by
            rw [Layer.assignment?, hkey, Option.map_some]
          have hkept :
              (layers.filterMap Layer.assignment?).filter (fun o => o.1 != path) =
                layers.filterMap Layer.assignment? := by
            rw [List.filter_eq_self]
            intro o ho
            obtain ⟨earlier, hearlier, hgives⟩ := List.mem_filterMap.1 ho
            have hparted :=
              (hlast earlier hearlier _ List.mem_cons_self).assignments
                (hkeys earlier (List.mem_append_left _ hearlier)) hlayer hgives hassignment
            exact bne_iff_ne.2 hparted.ne
          have hfile : (Layer.override key value).fileName? = none := rfl
          rw [filterMap_concat_of_none hfile, List.filterMap_append,
            List.filterMap_cons_some hassignment]
          change addOverride _ key value = _
          rw [addOverride, hkey]
          dsimp only
          rw [hkept]
          rfl

/-- What one more layer does to a plan. -/
theorem addLayer_cases
    {plan next : Plan}
    {layer : Layer}
    (h : plan.addLayer layer = .ok next) :
    (∃ name, layer = .file name ∧ next = plan.addFile name) ∨
      ∃ key value path,
        layer = .override key value ∧
        layer.assignment? = some (path, value) ∧
        ∀ other : Plan, other.addLayer layer = .ok { other with
          overrides := (other.overrides.filter fun o => o.1 != path) ++ [(path, value)] } := by
  cases layer with
  | file name => exact .inl ⟨name, rfl, (Except.ok.inj h).symm⟩
  | override key value =>
      rw [addLayer, addOverride] at h
      split at h
      next => cases h
      next path hkey =>
        refine .inr ⟨key, value, path, rfl, ?_, fun other => ?_⟩
        · rw [Layer.assignment?, hkey, Option.map_some]
        · rw [addLayer, addOverride, hkey]

/-- A plan has the files of its layers, and overrides that its layers ask for. -/
theorem of_ofLayers
    {layers : List Layer}
    {plan : Plan}
    (h : ofLayers layers = .ok plan) :
    plan.files = layers.filterMap Layer.fileName? ∧
    ∀ o ∈ plan.overrides, ∃ layer ∈ layers, layer.assignment? = some o := by
  induction layers using List.reverseRecOn generalizing plan with
  | nil =>
      cases h
      exact ⟨rfl, fun o ho => absurd ho List.not_mem_nil⟩
  | append_singleton layers layer ih =>
      rw [ofLayers_append_singleton, bind_eq_ok_iff] at h
      obtain ⟨before, hbefore, h⟩ := h
      obtain ⟨hfiles, hoverrides⟩ := ih hbefore
      have hearlier : ∀ o ∈ before.overrides,
          ∃ other ∈ layers ++ [layer], other.assignment? = some o := by
        intro o ho
        obtain ⟨other, hother, hasked⟩ := hoverrides o ho
        exact ⟨other, List.mem_append_left _ hother, hasked⟩
      rcases addLayer_cases h with ⟨name, rfl, rfl⟩ | ⟨key, value, path, rfl, hasked, hadds⟩
      · rw [List.filterMap_append, ← hfiles]
        exact ⟨rfl, hearlier⟩
      · obtain rfl := Except.ok.inj (h.symm.trans (hadds before))
        have hfile : (Layer.override key value).fileName? = none := rfl
        refine ⟨by rw [filterMap_concat_of_none hfile, hfiles], fun o ho => ?_⟩
        rcases List.mem_append.1 ho with hkept | hlast
        · exact hearlier o (List.mem_filter.1 hkept).1
        · rw [List.mem_singleton.1 hlast]
          exact ⟨_, List.mem_append_right _ List.mem_cons_self, hasked⟩

/-- Layers that were moved with their files in the same order have the same files and the same
overrides, whose paths part. -/
theorem ofLayers_of_perm
    {layers reordered : List Layer}
    (hkeys : ∀ layer ∈ layers, layer.IsPlainlyKeyed)
    (hapart : layers.Pairwise Layer.Apart)
    (hperm : reordered.Perm layers)
    (hfiles : reordered.filterMap Layer.fileName? = layers.filterMap Layer.fileName?) :
    ∃ files overrides others,
      ofLayers reordered = .ok ⟨files, overrides⟩ ∧
      ofLayers layers = .ok ⟨files, others⟩ ∧
      overrides.Perm others ∧
      overrides.Pairwise fun a b => a.1.Apart b.1 := by
  have hapartAgain : reordered.Pairwise Layer.Apart :=
    (hperm.pairwise_iff fun h names hnames others hothers =>
      (h others hothers names hnames).symm).2 hapart
  have hplan := ofLayers_of_apart hkeys hapart
  have hplanAgain := ofLayers_of_apart (fun l hl => hkeys l (hperm.subset hl)) hapartAgain
  rw [hfiles] at hplanAgain
  refine ⟨_, _, _, hplanAgain, hplan, hperm.filterMap Layer.assignment?, ?_⟩
  rw [List.pairwise_filterMap]
  refine hapartAgain.imp_of_mem fun hfirst hsecond h a ha b hb => ?_
  exact h.assignments (hkeys _ (hperm.subset hfirst)) (hkeys _ (hperm.subset hsecond)) ha hb

/-- The order of overrides at paths that part does not matter. -/
theorem values_of_perm
    {files : List String}
    {overrides others : List Assignment}
    (hperm : overrides.Perm others)
    (hapart : overrides.Pairwise fun a b => a.1.Apart b.1)
    (view : FileView) :
    values ⟨files, overrides⟩ view = values ⟨files, others⟩ view := by
  rw [values, values]
  congr 1
  funext root
  exact congrArg pure (Value.foldl_set_of_perm hperm hapart root)

/-- Whether two plans differ in overrides of one path only. -/
structure Agree
    (path : KeyPath)
    (first second : Plan) :
    Prop where
  files : first.files = second.files
  overrides :
    (first.overrides.filter fun o => o.1 != path) = second.overrides.filter fun o => o.1 != path

/-- An override of the path puts an end to the difference. -/
theorem Agree.addOverride_eq
    {path : KeyPath}
    {first second : Plan}
    (h : Agree path first second)
    {key : String}
    (hkey : KeyPath.parse? key = some path)
    (value : Value) :
    first.addOverride key value = second.addOverride key value := by
  rw [addOverride, addOverride, hkey]
  dsimp only
  rw [h.files, h.overrides]

/-- One more layer is refused by both plans, or leaves the difference as it is. -/
theorem Agree.addLayer
    {path : KeyPath}
    {first second : Plan}
    (h : Agree path first second)
    (layer : Layer) :
    (∃ e, first.addLayer layer = .error e ∧ second.addLayer layer = .error e) ∨
      ∃ after other,
        first.addLayer layer = .ok after ∧
        second.addLayer layer = .ok other ∧
        Agree path after other := by
  cases layer with
  | file name =>
      exact .inr ⟨_, _, rfl, rfl, congrArg (· ++ [name]) h.files, h.overrides⟩
  | override key value =>
      simp only [Plan.addLayer, addOverride]
      cases KeyPath.parse? key with
      | none => exact .inl ⟨_, rfl, rfl⟩
      | some other =>
          refine .inr ⟨_, _, rfl, rfl, h.files, ?_⟩
          have hfilter : ∀ overrides : List Assignment,
              (overrides.filter fun o => o.1 != other).filter (fun o => o.1 != path) =
                (overrides.filter fun o => o.1 != path).filter (fun o => o.1 != other) := by
            intro overrides
            rw [List.filter_filter, List.filter_filter]
            exact List.filter_congr fun o _ => Bool.and_comm _ _
          rw [List.filter_append, List.filter_append, hfilter, hfilter, h.overrides]

theorem Agree.foldlM_addLayer
    {path : KeyPath}
    {first second : Plan}
    (h : Agree path first second)
    (layers : List Layer) :
    (∃ e, layers.foldlM Plan.addLayer first = .error e ∧
        layers.foldlM Plan.addLayer second = .error e) ∨
      ∃ after other,
        layers.foldlM Plan.addLayer first = .ok after ∧
        layers.foldlM Plan.addLayer second = .ok other ∧
        Agree path after other := by
  induction layers generalizing first second with
  | nil => exact .inr ⟨first, second, rfl, rfl, h⟩
  | cons layer layers ih =>
      rw [List.foldlM_cons, List.foldlM_cons]
      rcases h.addLayer layer with ⟨e, hfirst, hsecond⟩ | ⟨after, other, hfirst, hsecond, hagree⟩
      · rw [hfirst, hsecond]
        exact .inl ⟨e, rfl, rfl⟩
      · rw [hfirst, hsecond]
        exact ih hagree

/-- A key that is no path is what the layers are refused for, whatever stands before it. -/
theorem foldlM_addLayer_of_malformed
    {key : String}
    (hkey : KeyPath.parse? key = none)
    (plan : Plan)
    (before after : List Layer)
    (value : Value) :
    (before ++ .override key value :: after).foldlM addLayer plan = .error .malformedKey := by
  rw [List.foldlM_append]
  cases hbefore : before.foldlM addLayer plan with
  | error e =>
      rw [foldlM_addLayer_eq_error hbefore]
      rfl
  | ok next =>
      change (Layer.override key value :: after).foldlM addLayer next = _
      rw [List.foldlM_cons, addLayer, addOverride, hkey]
      rfl

/-- An override is lost when a later one has its path. -/
theorem ofLayers_of_overridden
    {key other : String}
    (hkey : KeyPath.parse? key = KeyPath.parse? other)
    (before between after : List Layer)
    (dropped kept : Value) :
    ofLayers (before ++ .override key dropped :: (between ++ .override other kept :: after)) =
      ofLayers (before ++ (between ++ .override other kept :: after)) := by
  cases hother : KeyPath.parse? other with
  | none =>
      have hrest : before ++ (between ++ .override other kept :: after) =
          (before ++ between) ++ .override other kept :: after := by
        rw [List.append_assoc]
      rw [hother] at hkey
      rw [ofLayers, ofLayers, hrest, foldlM_addLayer_of_malformed hkey,
        foldlM_addLayer_of_malformed hother]
  | some path =>
      rw [hother] at hkey
      rw [ofLayers, ofLayers, List.foldlM_append, List.foldlM_append]
      cases before.foldlM addLayer initial with
      | error e => rfl
      | ok plan =>
          obtain ⟨next, hnext, hagree⟩ :
              ∃ next, plan.addLayer (.override key dropped) = .ok next ∧ Agree path next plan := by
            refine
              ⟨⟨plan.files, _ ++ [(path, dropped)]⟩, by rw [addLayer, addOverride, hkey], rfl, ?_⟩
            simp [List.filter_append, List.filter_filter]
          change
            (Layer.override key dropped :: (between ++ .override other kept :: after)).foldlM
                Plan.addLayer plan =
              (between ++ .override other kept :: after).foldlM Plan.addLayer plan
          rw [List.foldlM_cons, hnext]
          change (between ++ .override other kept :: after).foldlM Plan.addLayer next = _
          rw [List.foldlM_append, List.foldlM_append]
          rcases hagree.foldlM_addLayer between with
            ⟨e, hfirst, hsecond⟩ | ⟨last, same, hfirst, hsecond, hlast⟩
          · rw [hfirst, hsecond]
          · rw [hfirst, hsecond]
            change (Layer.override other kept :: after).foldlM Plan.addLayer last =
              (Layer.override other kept :: after).foldlM Plan.addLayer same
            rw [List.foldlM_cons, List.foldlM_cons, Plan.addLayer, Plan.addLayer,
              hlast.addOverride_eq hother]

end Plan

/-- Overrides whose paths neither are the same nor lead through each other may stand anywhere
among the layers: the layers come to the same settings, or are refused alike, as long as their
files keep their order.  And an override counts for nothing when a later one has the same key.
The order of the conversions is that of the declarations on both sides; `loads_iff_of_perm` is
about every order. -/
theorem moved_overrides_change_nothing (view : FileView) :
    (∀ layers reordered : List Layer,
      (∀ layer ∈ layers, layer.IsPlainlyKeyed) →
      layers.Pairwise Layer.Apart →
      reordered.Perm layers →
      reordered.filterMap Layer.fileName? = layers.filterMap Layer.fileName? →
      ofLayers view reordered = ofLayers view layers) ∧
    ∀ (before between after : List Layer) (key other : String) (dropped kept : Value),
      KeyPath.parse? key = KeyPath.parse? other →
      ofLayers view
          (before ++ .override key dropped :: (between ++ .override other kept :: after)) =
        ofLayers view (before ++ (between ++ .override other kept :: after)) := by
  refine ⟨fun layers reordered hkeys hapart hperm hfiles => ?_, ?_⟩
  · obtain ⟨files, overrides, others, hreordered, hlayers, hsame, hparted⟩ :=
      Plan.ofLayers_of_perm hkeys hapart hperm hfiles
    have hvalues := @Plan.values_of_perm files _ _ hsame hparted view
    rw [ofLayers, ofLayers, hreordered, hlayers]
    change Plan.settings _ view = Plan.settings _ view
    rw [Plan.settings, Plan.settings, hvalues]
  · intro before between after key other dropped kept hkey
    rw [ofLayers, ofLayers, Plan.ofLayers_of_overridden hkey]

/-- Both overrides lead into a number that the file has, and turn it into a table; the one that
is dropped would not convert. -/
theorem moved_overrides_change_nothing_in_number :
    let view := (Directory.ofFiles [("a.toml", "x = 1\ninspect.format = \"json\"".toUTF8)]).view
    ofLayers view
        [ .override "X.z" (.scalar none (.bool true)),
          .override "layout.tab_width" (.scalar none (.int 8)),
          .file "a.toml",
          .override "x.y" (.table none [("K", .scalar none (.int 2))]) ] =
      ofLayers view
        [ .file "a.toml",
          .override "x.y" (.table none [("K", .scalar none (.int 2))]),
          .override "X.z" (.scalar none (.bool true)),
          .override "layout.tab_width" (.scalar none (.int 8)) ] ∧
    ofLayers view
        [ .override "layout.tab_width" (.scalar none (.string "wide")),
          .file "a.toml",
          .override "layout.tab_width" (.scalar none (.int 8)) ] =
      ofLayers view
        [ .file "a.toml",
          .override "layout.tab_width" (.scalar none (.int 8)) ] ∧
    (ofLayers view
        [ .file "a.toml",
          .override "layout.tab_width" (.scalar none (.int 8)) ]).toOption =
      some ⟨⟨8, true⟩, .json, true⟩ := by
  intro view
  refine
    ⟨(moved_overrides_change_nothing view).1 _ _ ?_ ?_ (@List.perm_append_comm _ [_, _] [_, _]) rfl,
      (moved_overrides_change_nothing view).2 [] [.file "a.toml"] [] _ _ _ _ rfl, ?_⟩
  · decide +kernel
  · decide +kernel
  · decide +kernel

end Settings
end Offside
