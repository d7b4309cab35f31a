import Offside.Layout.Scan
import Offside.Proofs.WrittenSettings

/-!
# The range of tab widths

A whole number that stands for the tab width is the tab width, or it is refused: no number is
cut down to 32 bits, wherever it came from.  All ways of setting it end alike, with the number
set at the path of the tab width in values that are right otherwise (`widthKept_of_set`).  For an
override that is so because what comes after it leaves the tab width alone.  For a file it is so
because the keys in the text lead to the number that the literal spells, and it stands there
until the end.
-/

namespace Offside
namespace Settings

/-- Whether an outcome keeps a whole number as the tab width beside settings that are given
otherwise: they are there if and only if the number is a 32-bit word. -/
structure WidthKept
    (n : Int)
    (rest : Settings)
    (outcome : Except Error Settings) :
    Prop where
  builds : (∃ settings, outcome = .ok settings) ↔ 0 ≤ n ∧ n ≤ 4294967295
  exact : ∀ settings, outcome = .ok settings →
    Int.ofNat settings.layout.tabWidth.toNat = n ∧
    settings = { rest with layout.tabWidth := settings.layout.tabWidth }
  /-- The complaint is about the type, and names the number itself. -/
  refused : ¬ (0 ≤ n ∧ n ≤ 4294967295) →
    ∃ found expected origin,
      found.integer? = some n ∧
      outcome = .error (.wrongType found expected Leaf.tabWidth.key origin)
  scans : ∀ settings, outcome = .ok settings → 1 ≤ n → ∀ source,
    ∃ scan,
      Layout.Scan.ofSource source settings.layout = .ok scan ∧
      Int.ofNat scan.options.tabWidth.toNat = n ∧
      Layout.traceOf source settings.layout = .ok scan.trace

/-- A tab width that is not zero is the one that the scan goes by. -/
theorem exists_scan_of_tabWidth
    {options : Layout.Options}
    (h : options.tabWidth ≠ 0)
    (source : List Char) :
    ∃ scan,
      Layout.Scan.ofSource source options = .ok scan ∧
      scan.options = options ∧
      Layout.traceOf source options = .ok scan.trace := by
  have hscan : Layout.Scan.ofSource source options = .ok ⟨source, options, Layout.Cursor.start⟩ := by
    rw [Layout.Scan.ofSource, if_neg h]
  refine ⟨_, hscan, rfl, ?_⟩
  rw [Layout.traceOf, hscan]
  rfl

theorem exists_word
    {n : Int}
    (h : 0 ≤ n ∧ n ≤ 4294967295) :
    ∃ w : UInt32, Int.ofNat w.toNat = n := by
  have hlt : n.toNat < 2 ^ 32 := by omega
  refine ⟨UInt32.ofNatLT n.toNat hlt, ?_⟩
  rw [UInt32.toNat_ofNatLT]
  exact Int.toNat_of_nonneg h.1

theorem widthKept_of_ok
    {n : Int}
    {rest settings : Settings}
    {outcome : Except Error Settings}
    (h : outcome = .ok settings)
    (hwidth : Int.ofNat settings.layout.tabWidth.toNat = n)
    (hrest : settings = { rest with layout.tabWidth := settings.layout.tabWidth }) :
    WidthKept n rest outcome := by
  have hrange : 0 ≤ n ∧ n ≤ 4294967295 := by
    have hlt := settings.layout.tabWidth.toNat_lt
    simp only [Int.ofNat_eq_natCast] at hwidth
    omega
  subst h
  refine ⟨⟨fun _ => hrange, fun _ => ⟨settings, rfl⟩⟩, ?_, fun hout => absurd hrange hout, ?_⟩
  · intro other hother
    obtain rfl := Except.ok.inj hother
    exact ⟨hwidth, hrest⟩
  · intro other hother hpos source
    obtain rfl := Except.ok.inj hother
    have hne : settings.layout.tabWidth ≠ 0 := by
      intro hzero
      rw [hzero] at hwidth
      have hnone : (0 : UInt32).toNat = 0 := rfl
      simp only [hnone, Int.ofNat_eq_natCast] at hwidth
      omega
    obtain ⟨scan, hscan, hoptions, htrace⟩ := exists_scan_of_tabWidth hne source
    exact ⟨scan, hscan, by rw [hoptions, hwidth], htrace⟩

theorem widthKept_of_error
    {n : Int}
    {rest : Settings}
    {outcome : Except Error Settings}
    {found : Found}
    {expected : Expected}
    {origin : Option String}
    (h : outcome = .error (.wrongType found expected Leaf.tabWidth.key origin))
    (hfound : found.integer? = some n)
    (hrange : ¬ (0 ≤ n ∧ n ≤ 4294967295)) :
    WidthKept n rest outcome := by
  subst h
  refine ⟨⟨?_, fun hin => absurd hin hrange⟩, ?_, fun _ => ⟨_, _, _, hfound, rfl⟩, ?_⟩
  · rintro ⟨settings, hsettings⟩
    cases hsettings
  · intro settings hsettings
    cases hsettings
  · intro settings hsettings
    cases hsettings

theorem names?_tabWidth :
    Leaf.tabWidth.keyPath.names? = some [Group.layout.key, Group.layout.fields.1] :=
  Leaf.tabWidth.names?_keyPath

theorem inspectOf_set_tabWidth
    (order : Order)
    (root value : Value) :
    inspectOf order (root.set Leaf.tabWidth.keyPath value) = inspectOf order root :=
  decodeFrom_congr (find?_set_first_other names?_tabWidth (by decide) root) _ _ _

theorem byPosition_set_tabWidth
    {value : Value}
    (h : value.isTable = false)
    (root : Value) :
    (root.set Leaf.tabWidth.keyPath value).byPosition .layout = false := by
  obtain ⟨origin, entries, hgroup, -⟩ := exists_group_of_set_first names?_tabWidth h root
  rw [Value.byPosition, hgroup]
  rfl

/-- A whole number is kept as the tab width in place of another value with which all is right. -/
theorem widthKept_of_set
    {root value standIn : Value}
    {n : Int}
    {rest : Settings}
    (hvalue : value.integer? = some n)
    (hstandIn : standIn.isTable = false)
    (h : decode (root.set Leaf.tabWidth.keyPath standIn) = .ok rest) :
    WidthKept n rest (decode (root.set Leaf.tabWidth.keyPath value)) := by
  have htable := isTable_of_integer? hvalue
  obtain ⟨hword, hrefused⟩ := decodeWord_of_integer? Leaf.tabWidth.key hvalue
  obtain ⟨hlayout, hinspect⟩ := decodeIn_eq_ok_iff.1 h
  rw [inspectOf_set_tabWidth, ← inspectOf_set_tabWidth _ root value] at hinspect
  by_cases hrange : 0 ≤ n ∧ n ≤ 4294967295
  · obtain ⟨width, hwidth⟩ := exists_word hrange
    have hkept := decodeFrom_set_first_of_ok names?_tabWidth htable hlayout (hword width hwidth)
    rw [Value.set_keyPath_set_keyPath htable, byPosition_set_tabWidth hstandIn,
      if_neg Bool.false_ne_true] at hkept
    let settings : Settings := { rest with layout.tabWidth := width }
    have hsettings : decode (root.set Leaf.tabWidth.keyPath value) = .ok settings :=
      decodeIn_eq_ok_iff.2 ⟨hkept, hinspect⟩
    exact widthKept_of_ok hsettings hwidth rfl
  · obtain ⟨found, expected, origin, hfound, herror⟩ := hrefused (by omega)
    have hrefusedLayout :
        layoutOf .declared (root.set Leaf.tabWidth.keyPath value) =
          .error (.wrongType found expected Leaf.tabWidth.key origin) :=
      decodeFrom_set_first_of_error names?_tabWidth htable hstandIn hlayout herror
    obtain ⟨hlayoutFound, hinspectFound⟩ := isSome_find?_of_decodeIn h
    have hfoundAgain := Value.isSome_find?_set hlayoutFound Leaf.tabWidth.keyPath value
    have hotherAgain := Value.isSome_find?_set hinspectFound Leaf.tabWidth.keyPath value
    rw [Value.set_keyPath_set_keyPath htable] at hfoundAgain hotherAgain
    have hdecode :
        decode (root.set Leaf.tabWidth.keyPath value) =
          .error (.wrongType found expected Leaf.tabWidth.key origin) := by
      rw [decode, decodeIn_eq_error_iff_of_found hfoundAgain hotherAgain, hinspect]
      exact inOrder_of_error_of_ok hrefusedLayout _
    exact widthKept_of_error hdecode hfound hrange

theorem widthKept_of_override
    {view : FileView}
    {before after : List Layer}
    {key : String}
    {value standIn : Value}
    {n : Int}
    {rest : Settings}
    (hvalue : value.integer? = some n)
    (hkey : (KeyPath.parse? key).bind KeyPath.names? = some Leaf.tabWidth.path)
    (hafter : ∀ layer ∈ after, layer.OverrideSpares .tabWidth)
    (hstandIn : standIn.isTable = false)
    (h : ofLayers view (before ++ .override key standIn :: after) = .ok rest) :
    WidthKept n rest (ofLayers view (before ++ .override key value :: after)) := by
  obtain ⟨path, hparse, hnames⟩ := Option.bind_eq_some_iff.1 hkey
  have hne : ∀ layer ∈ after, ∀ a ∈ layer.assignment?, a.1 ≠ path := by
    rintro layer hlayer a ha rfl
    exact Assignment.not_spares_of_names? hnames (hafter layer hlayer a ha)
  obtain ⟨plan, root, hplan, hroot, hdecode⟩ := Plan.exists_values_of_ofLayers h
  obtain ⟨files, front, back, hback, hplans⟩ := Plan.exists_ofLayers_of_override hparse hne hplan
  have hspares : ∀ a ∈ back, Assignment.Spares .tabWidth a := by
    intro a ha
    obtain ⟨layer, hlayer, hasked⟩ := hback a ha
    exact hafter layer hlayer a hasked
  obtain rfl := Except.ok.inj (hplan.symm.trans (hplans standIn))
  obtain ⟨start, hstart, hset⟩ := Plan.values_eq_ok_iff.1 hroot
  rw [List.foldl_append, List.foldl_cons, Value.set_eq_set_keyPath hnames] at hset
  have hvalues : ∀ late : Value, late.isTable = false →
      Plan.values ⟨files, front ++ (path, late) :: back⟩ view =
        .ok (root.set Leaf.tabWidth.keyPath late) := by
    intro late hlate
    refine Plan.values_eq_ok_iff.2 ⟨start, hstart, ?_⟩
    rw [hset, Value.foldl_set_comm_of_spares hspares, Value.set_keyPath_set_keyPath hlate,
      List.foldl_append, List.foldl_cons, Value.set_eq_set_keyPath hnames]
  have htried := Except.ok.inj (hroot.symm.trans (hvalues standIn hstandIn))
  rw [Plan.ofLayers_eq_decode (hplans value) (hvalues value (isTable_of_integer? hvalue))]
  rw [htried] at hdecode
  exact widthKept_of_set hvalue hstandIn hdecode

theorem widthKept_of_file
    {view : FileView}
    {before after : List Layer}
    {name : String}
    {literal : List Char}
    {standIn : Value}
    {i : Int64}
    {rest : Settings}
    (hspells : Toml.Spells literal i.toInt)
    (hwrites : FileWrites view .tabWidth name literal i)
    (hafter : ∀ layer ∈ after, layer.FileSpares view .tabWidth)
    (hoverrides : ∀ layer ∈ before ++ after, layer.OverrideSpares .tabWidth)
    (hstandIn : standIn.isTable = false)
    (h : ofLayers view (before ++ .file name :: after ++ [.override Leaf.tabWidth.key standIn]) =
      .ok rest) :
    WidthKept i.toInt rest (ofLayers view (before ++ .file name :: after)) := by
  obtain ⟨last, final, hlast, hfinal, hdecode⟩ := Plan.exists_values_of_ofLayers h
  rw [Plan.ofLayers_append_singleton, bind_eq_ok_iff] at hlast
  obtain ⟨plan, hplan, hlast⟩ := hlast
  obtain ⟨hfiles, hasked⟩ := Plan.of_ofLayers hplan
  have hname : (Layer.file name).fileName? = some name := rfl
  rw [List.filterMap_append, List.filterMap_cons_some hname] at hfiles
  have hback : ∀ file ∈ after.filterMap Layer.fileName?,
      ∀ as ∈ fileAssignments? view file, ∀ a ∈ as, a.Spares .tabWidth := by
    intro file hfile
    obtain ⟨layer, hlayer, hlater⟩ := List.mem_filterMap.1 hfile
    exact hafter layer hlayer file hlater
  have hspares : ∀ a ∈ plan.overrides, Assignment.Spares .tabWidth a := by
    intro a ha
    obtain ⟨layer, hlayer, hgives⟩ := hasked a ha
    rcases List.mem_append.1 hlayer with hbefore | hrest
    · exact hoverrides layer (List.mem_append_left _ hbefore) a hgives
    · rcases List.mem_cons.1 hrest with rfl | hlater
      · cases hgives
      · exact hoverrides layer (List.mem_append_right _ hlater) a hgives
  rw [Plan.addLayer, Plan.addOverride_of_spares hspares] at hlast
  obtain rfl := Except.ok.inj hlast
  obtain ⟨start, hstart, rfl⟩ := Plan.values_eq_ok_iff.1 hfinal
  rw [List.foldl_append, List.foldl_cons, List.foldl_nil] at hdecode
  have hroot := (@Plan.values_eq_ok_iff view plan _).2 ⟨start, hstart, rfl⟩
  obtain ⟨value, hvalue, hstands⟩ :=
    Plan.exists_stands_of_writes hspells hwrites hfiles hback hspares hroot
  rw [Plan.ofLayers_eq_decode hplan hroot, ← hstands]
  exact widthKept_of_set hvalue hstandIn hdecode

/-- A whole number that an override or a file sets as the tab width is the tab width if it is a
32-bit word, and else it is refused for its type; all other settings are as they are with some
other value in its place.  A file may write the number in any base, with underscores, under a
header, behind a key with several parts or in braces; it reads whatever number of 64 bits it
is. -/
theorem tab_width_is_kept (view : FileView) :
    (∀ (before after : List Layer) (key : String) (value standIn : Value) (n : Int)
        (rest : Settings),
      value.integer? = some n →
      (KeyPath.parse? key).bind KeyPath.names? = some Leaf.tabWidth.path →
      (∀ layer ∈ after, layer.OverrideSpares .tabWidth) →
      standIn.isTable = false →
      ofLayers view (before ++ .override key standIn :: after) = .ok rest →
      WidthKept n rest (ofLayers view (before ++ .override key value :: after))) ∧
    (∀ (name : String) (literal : List Char) (i : Int64),
      Toml.Spells literal i.toInt →
      FileWrites view .tabWidth name literal i →
      ∃ as, fileAssignments? view name = some as) ∧
    ∀ (before after : List Layer) (name : String) (literal : List Char) (i : Int64)
        (standIn : Value) (rest : Settings),
      Toml.Spells literal i.toInt →
      FileWrites view .tabWidth name literal i →
      (∀ layer ∈ after, layer.FileSpares view .tabWidth) →
      (∀ layer ∈ before ++ after, layer.OverrideSpares .tabWidth) →
      standIn.isTable = false →
      ofLayers view (before ++ .file name :: after ++ [.override Leaf.tabWidth.key standIn]) =
        .ok rest →
      WidthKept i.toInt rest (ofLayers view (before ++ .file name :: after)) := by
  refine ⟨?_, ?_, ?_⟩
  · intro before after key value standIn n rest hvalue hkey hafter hstandIn h
    exact widthKept_of_override hvalue hkey hafter hstandIn h
  · intro name literal i hspells hwrites
    obtain ⟨_, next, -, hset, -⟩ := hwrites.exists_stands hspells defaults
    obtain ⟨as, has, -⟩ := exists_fileAssignments?_of_setFile hset
    exact ⟨as, has⟩
  · intro before after name literal i standIn rest hspells hwrites hafter hoverrides hstandIn h
    exact widthKept_of_file hspells hwrites hafter hoverrides hstandIn h

/-- A file with a number in hexadecimal digits under a header, and a comment behind it. -/
theorem fileWrites_hexadecimal :
    FileWrites
      (Directory.ofFiles [("a.toml", "[layout]\ntab_width = 0xF_f # wide".toUTF8)]).view
      .tabWidth "a.toml" "0xF_f".toList 255 := by
  have hfound : findFile
      (Directory.ofFiles [("a.toml", "[layout]\ntab_width = 0xF_f # wide".toUTF8)]).view "a.toml" =
        .ok "a.toml" :=
    eq_ok_of_toOption (by decide +kernel)
  have htext :
      ((Directory.ofFiles [("a.toml", "[layout]\ntab_width = 0xF_f # wide".toUTF8)]).view
        "a.toml").readText = .ok "[layout]\ntab_width = 0xF_f # wide" :=
    eq_ok_of_toOption (by decide +kernel)
  have hlines : Toml.Reaches (Toml.trimMark "[layout]\ntab_width = 0xF_f # wide".toList) 33
      ⟨[("layout", .table .opened [])], ["layout"]⟩ "tab_width = 0xF_f # wide".toList :=
    .line .start (by rfl)
  have hkey : Toml.key? ("tab_width = 0xF_f # wide".toList.dropWhile Toml.isBlank) =
      some (["tab_width"], '=' :: " 0xF_f # wide".toList) := by
    rfl
  have hends : Toml.EndsToken " # wide".toList := by
    rintro c ⟨⟩
    rfl
  have hvalue : Toml.HoldsValue "0xF_f".toList 255 (" 0xF_f # wide".toList.length + 1)
      Toml.greatestDepth (" 0xF_f # wide".toList.dropWhile Toml.isBlank) [] (.int 255)
      " # wide".toList := by
    have hbehind : " 0xF_f # wide".toList.dropWhile Toml.isBlank =
        "0xF_f".toList ++ " # wide".toList := by
      rfl
    rw [hbehind]
    exact .here hends
  have hwrites : Toml.Writes "[layout]\ntab_width = 0xF_f # wide".toList "0xF_f".toList 255
      ["layout", "tab_width"] [("layout", .table .opened [("tab_width", .int 255)])] :=
    .intro hlines hkey hvalue (by rfl) (by rfl) (by rfl) (by rfl)
  have hlast : LastAt .tabWidth (some (shownName "a.toml"))
      [("layout", .table .opened [("tab_width", .int 255)])] ["layout", "tab_width"] := by
    refine .inGroup (by decide +kernel) (by decide +kernel) rfl rfl ?_ ?_
    · exact fun entry hentry => absurd hentry List.not_mem_nil
    · exact fun a ha => absurd ha List.not_mem_nil
  exact .intro hfound htext hwrites hlast

/-- The first number of all that have more than 63 bits, and one in hexadecimal digits under a
header. -/
theorem tab_width_is_kept_hexadecimal :
    let text := "[layout]\ntab_width = 0xF_f # wide"
    let view := (Directory.ofFiles [("a.toml", text.toUTF8)]).view
    let usual : Settings := ⟨⟨4, true⟩, .text, true⟩
    WidthKept 9223372036854775808 usual
        (ofLayers view
          [ .override "Layout.Tab_Width" (.scalar none (.unsigned 9223372036854775808)),
            .override "inspect.format" (.scalar none (.string "text")) ]) ∧
      (∃ as, fileAssignments? view "a.toml" = some as) ∧
      WidthKept 255 usual (ofLayers view [.file "a.toml"]) ∧
      (ofLayers view [.file "a.toml"]).toOption = some ⟨⟨255, true⟩, .text, true⟩ := by
  intro text view usual
  obtain ⟨hoverride, hreads, hfile⟩ := tab_width_is_kept view
  have hcapital : Toml.IsDigit 16 'F' 15 := ⟨by decide, .inr (by decide)⟩
  have hsmall : Toml.IsDigit 16 'f' 15 := ⟨by decide, .inl (by decide)⟩
  have hspells : Toml.Spells "0xF_f".toList (255 : Int64).toInt :=
    .hexadecimal (.nextBehindUnderscore (.digit hcapital) hsmall)
  refine
    ⟨hoverride [] [.override "inspect.format" _] "Layout.Tab_Width" _ (.scalar none (.int 4)) _ _
        rfl ?_ ?_ rfl (eq_ok_of_toOption ?_),
      hreads "a.toml" _ _ hspells fileWrites_hexadecimal,
      hfile [] [] "a.toml" "0xF_f".toList 255 (.scalar none (.int 4)) _ hspells
        fileWrites_hexadecimal ?_ ?_ rfl (eq_ok_of_toOption ?_), ?_⟩
  · decide +kernel
  · decide +kernel
  · decide +kernel
  · exact fun layer hlayer => absurd hlayer List.not_mem_nil
  · decide
  · decide +kernel
  · decide +kernel

end Settings
end Offside
