/-
Templates of a folder, and where their files are.

The components of a path are known from the parts between its slashes. Joining a
path to a folder puts their parts together, and another extension changes the
last name alone, wherever that stands. So the file of a template is below the
folder as soon as the template's name has a name among its components. A name
made of dots and slashes alone has none; then the last name is that of the
folder itself, and the file lies beside it.

* `FilePath.componentsOf_eq`: components from parts;
* `FilePath.componentsOf_joinChars`, `FilePath.componentsOf_withExtensionChars`:
  what joining and another extension do to the components;
* `FilePath.IsBelow`: a file below a folder;
* `Template.path?_isBelow_iff`: **containment**, when the file of a template is
  below the folder;
* `Template.not_path?_isBelow`: a template whose file is beside the folder.
-/
import Mathlib.Data.List.Basic
import Mathlib.Data.List.TakeWhile
import Mathlib.Tactic.Common
import PageTree.Template

namespace PageTree

namespace FilePath

/-! ### Parts -/

lemma splitSlashes_ne_nil (cs : List Char) : splitSlashes cs ≠ [] := by
  cases cs with
  | nil => simp [splitSlashes]
  | cons c cs =>
    rw [splitSlashes]
    split_ifs
    · simp
    · split <;> simp

/-- A slash ends a part at once. -/
lemma splitSlashes_slash (cs : List Char) : splitSlashes ('/' :: cs) = [] :: splitSlashes cs := by
  simp [splitSlashes]

/-- A part continues up to the next slash. -/
lemma splitSlashes_cons {c : Char} (h : c ≠ '/') (cs : List Char) :
    ∃ part parts, splitSlashes cs = part :: parts ∧
      splitSlashes (c :: cs) = (c :: part) :: parts := by
  obtain ⟨part, parts, hcs⟩ := List.exists_cons_of_ne_nil (splitSlashes_ne_nil cs)
  refine ⟨part, parts, hcs, ?_⟩
  rw [splitSlashes, if_neg h, hcs]

/-- A slash between two texts parts them. -/
lemma splitSlashes_append (as bs : List Char) :
    splitSlashes (as ++ '/' :: bs) = splitSlashes as ++ splitSlashes bs := by
  induction as with
  | nil => exact splitSlashes_slash bs
  | cons c as ih =>
    by_cases h : c = '/'
    · rw [h, List.cons_append, splitSlashes_slash, splitSlashes_slash, ih, List.cons_append]
    · obtain ⟨part, parts, has, hcons⟩ := splitSlashes_cons h as
      rw [List.cons_append, splitSlashes, if_neg h, ih, hcons, has]
      rfl

/-- No part has a slash. -/
lemma slash_notMem_of_mem {cs part : List Char} (h : part ∈ splitSlashes cs) : '/' ∉ part := by
  induction cs generalizing part with
  | nil => simp_all [splitSlashes]
  | cons c cs ih =>
    by_cases hc : c = '/'
    · rw [hc, splitSlashes_slash] at h
      rcases List.mem_cons.mp h with rfl | h
      · simp
      · exact ih h
    · obtain ⟨first, parts, hcs, hcons⟩ := splitSlashes_cons hc cs
      rw [hcons] at h
      rcases List.mem_cons.mp h with rfl | h
      · have hfirst : '/' ∉ first := ih (by simp [hcs])
        simp [Ne.symm hc, hfirst]
      · exact ih (by simp [hcs, h])

/-- A text without slashes is its only part. -/
lemma splitSlashes_of_notMem {cs : List Char} (h : '/' ∉ cs) : splitSlashes cs = [cs] := by
  induction cs with
  | nil => rfl
  | cons c cs ih =>
    rw [List.mem_cons, not_or] at h
    rw [splitSlashes, if_neg (Ne.symm h.1), ih h.2]

/-- Parts that were put together are found again. -/
lemma splitSlashes_joinParts {parts : List (List Char)} (hne : parts ≠ [])
    (h : ∀ part ∈ parts, '/' ∉ part) : splitSlashes (joinParts parts) = parts := by
  fun_induction joinParts parts with
  | case1 => exact absurd rfl hne
  | case2 part => exact splitSlashes_of_notMem (h part (by simp))
  | case3 part next rest ih =>
    have hrest := ih (by simp) fun p hp => h p (List.mem_cons_of_mem part hp)
    rw [splitSlashes_append, splitSlashes_of_notMem (h part (by simp)), hrest]
    rfl

/-! ### Components from parts -/

/-- The component that only the start of a path can have. -/
def start (parts : List (List Char)) : List Component :=
  if parts.head? = some [] ∧ 2 ≤ parts.length then [.root]
  else if parts.head? = some ['.'] then [.current]
  else []

lemma two_le_length_append {α : Type} {as bs : List α} (ha : as ≠ []) (hb : bs ≠ []) :
    2 ≤ (as ++ bs).length := by
  have hlength := List.length_pos_of_ne_nil ha
  have hlength' := List.length_pos_of_ne_nil hb
  rw [List.length_append]
  omega

/-- Only the first part decides how a path starts, once there is another one. -/
lemma start_append {parts more more' : List (List Char)} (h : parts ≠ []) (hmore : more ≠ [])
    (hmore' : more' ≠ []) : start (parts ++ more) = start (parts ++ more') := by
  have hhead : ∀ l : List (List Char), (parts ++ l).head? = parts.head? := fun l =>
    List.head?_append_of_ne_nil parts h
  simp only [start, hhead, two_le_length_append h hmore, two_le_length_append h hmore']

/-- How a path starts that is not empty does not change when more is added. -/
lemma start_splitSlashes_append {base : List Char} (h : base ≠ []) (more : List (List Char)) :
    start (splitSlashes base ++ more) = start (splitSlashes base) := by
  obtain ⟨c, cs, rfl⟩ := List.exists_cons_of_ne_nil h
  by_cases hc : c = '/'
  · have hlength : 2 ≤ (splitSlashes (c :: cs)).length := by
      rw [hc, splitSlashes_slash]
      exact two_le_length_append (List.cons_ne_nil [] []) (splitSlashes_ne_nil cs)
    have hlength' : 2 ≤ (splitSlashes (c :: cs) ++ more).length :=
      Nat.le_trans hlength (by simp)
    simp only [start, hlength, hlength',
      List.head?_append_of_ne_nil _ (splitSlashes_ne_nil (c :: cs))]
  · obtain ⟨part, parts, -, hcons⟩ := splitSlashes_cons hc cs
    simp [start, hcons]

@[simp] lemma laterComponents_append (as bs : List (List Char)) :
    laterComponents (as ++ bs) = laterComponents as ++ laterComponents bs := by
  simp [laterComponents]

/-- A part that is skipped is no component. -/
lemma laterComponents_cons_of_skipped {part : List Char} (h : isSkipped part = true)
    (parts : List (List Char)) : laterComponents (part :: parts) = laterComponents parts := by
  simp [laterComponents, h]

/-- Any other part is one. -/
lemma laterComponents_cons {part : List Char} (h : isSkipped part = false)
    (parts : List (List Char)) :
    laterComponents (part :: parts) = componentOf part :: laterComponents parts := by
  simp [laterComponents, h]

lemma laterComponents_of_skipped {parts : List (List Char)}
    (h : ∀ part ∈ parts, isSkipped part = true) : laterComponents parts = [] := by
  rw [laterComponents, List.map_eq_nil_iff, List.filter_eq_nil_iff]
  intro part hpart
  simp [h part hpart]

lemma start_cons {part : List Char} (h : isSkipped part = false) (parts : List (List Char)) :
    start (part :: parts) = [] := by
  simp only [isSkipped, Bool.or_eq_false_iff, decide_eq_false_iff_not] at h
  rw [start, if_neg (by simp [h.1]), if_neg (by simp [h.2])]

/-- The components of a path are the one at its start and those of its parts. -/
lemma componentsOf_eq (path : List Char) :
    componentsOf path = start (splitSlashes path) ++ laterComponents (splitSlashes path) := by
  rw [componentsOf.eq_def]
  split
  · rfl
  · next cs =>
    have hlength : 2 ≤ (splitSlashes ('/' :: cs)).length := by
      rw [splitSlashes_slash]
      exact two_le_length_append (List.cons_ne_nil [] []) (splitSlashes_ne_nil cs)
    have hstart : start (splitSlashes ('/' :: cs)) = [.root] :=
      if_pos ⟨by rw [splitSlashes_slash]; rfl, hlength⟩
    rw [hstart, List.singleton_append]
  · next parts _ _ hparts =>
    rw [hparts, laterComponents_cons_of_skipped rfl]
    rfl
  · next path _ _ hempty hslash hdot =>
    obtain ⟨c, cs, rfl⟩ := List.exists_cons_of_ne_nil hempty
    have hc : c ≠ '/' := fun heq => hslash cs (by rw [heq])
    obtain ⟨part, parts, -, hcons⟩ := splitSlashes_cons hc cs
    have hfirst : c :: part ≠ ['.'] := fun heq => hdot parts (by rw [hcons, heq])
    have hskipped : isSkipped (c :: part) = false := by simpa [isSkipped] using hfirst
    rw [hcons, start_cons hskipped, List.nil_append]

/-! ### Joining -/

/-- A relative path below a folder adds its own components, but for the one at
its start. -/
lemma componentsOf_joinChars {base path : List Char} (hbase : base ≠ [])
    (hpath : path.head? ≠ some '/') :
    componentsOf (joinChars base path) =
      componentsOf base ++ laterComponents (splitSlashes path) := by
  rw [joinChars, if_neg hpath, componentsOf_eq base]
  split_ifs with hlast
  · -- the folder ends with a slash: its last part is empty, and gives way
    have hgetLast : base.getLast? = some '/' := by
      cases hc : base.getLast? with
      | none => exact absurd (List.getLast?_eq_none_iff.mp hc) hbase
      | some c => simpa [hc] using hlast
    obtain ⟨front, rfl⟩ := List.getLast?_eq_some_iff.mp hgetLast
    have hparts : splitSlashes (front ++ ['/']) = splitSlashes front ++ [[]] :=
      splitSlashes_append front []
    have hjoined : front ++ ['/'] ++ path = front ++ '/' :: path := by simp
    have hstart := start_append (splitSlashes_ne_nil front) (List.cons_ne_nil [] [])
      (splitSlashes_ne_nil path)
    have hskipped : laterComponents [[]] = [] := rfl
    rw [hjoined, componentsOf_eq, splitSlashes_append, hparts, hstart, laterComponents_append,
      laterComponents_append, hskipped, List.append_nil, List.append_assoc]
  · rw [componentsOf_eq, splitSlashes_append, start_splitSlashes_append hbase,
      laterComponents_append, List.append_assoc]

/-! ### Another extension -/

/-- Either all parts are skipped, or one of them is the last that is not. -/
lemma all_skipped_or_exists_last (parts : List (List Char)) :
    (∀ part ∈ parts, isSkipped part = true) ∨
      ∃ front last skipped, parts = front ++ last :: skipped ∧ isSkipped last = false ∧
        ∀ part ∈ skipped, isSkipped part = true := by
  induction parts with
  | nil => exact .inl (by simp)
  | cons part parts ih =>
    rcases ih with hall | ⟨front, last, skipped, rfl, hlast, hskipped⟩
    · cases hpart : isSkipped part with
      | true => exact .inl (List.forall_mem_cons.mpr ⟨hpart, hall⟩)
      | false => exact .inr ⟨[], part, parts, rfl, hpart, hall⟩
    · exact .inr ⟨part :: front, last, skipped, rfl, hlast, hskipped⟩

/-- Where the last component of a path is a name, it is the last part that is
not skipped. -/
lemma exists_parts_of_getLast? {path name : List Char}
    (h : (componentsOf path).getLast? = some (.name name)) :
    ∃ front skipped, splitSlashes path = front ++ name :: skipped ∧ isSkipped name = false ∧
      name ≠ ['.', '.'] ∧ ∀ part ∈ skipped, isSkipped part = true := by
  rw [componentsOf_eq] at h
  rcases all_skipped_or_exists_last (splitSlashes path) with
    hall | ⟨front, last, skipped, hparts, hlast, hskipped⟩
  · -- the last component could only be the one at the start, which is no name
    rw [laterComponents_of_skipped hall, List.append_nil, start] at h
    split_ifs at h <;> simp at h
  · have hcomponent : componentOf last = .name name := by
      rw [hparts, laterComponents_append, laterComponents_cons hlast,
        laterComponents_of_skipped hskipped] at h
      simpa using h
    rw [componentOf] at hcomponent
    split_ifs at hcomponent with hdots
    obtain rfl : last = name := Component.name.inj hcomponent
    exact ⟨front, skipped, hparts, hlast, hdots, hskipped⟩

/-- The stem of a name has no characters but those of the name. -/
lemma splitExtension_fst_subset (name : List Char) : (splitExtension name).1 ⊆ name := by
  rw [splitExtension]
  split
  · next c before hbefore =>
    split_ifs
    · exact List.Subset.refl _
    · intro d hd
      have hmem : d ∈ name.reverse.dropWhile (· ≠ '.') := by
        rw [hbefore]
        exact List.mem_cons_of_mem c (List.mem_reverse.mp hd)
      exact List.mem_reverse.mp ((List.dropWhile_sublist _).subset hmem)
  · exact List.Subset.refl _

/-- With another extension a path is its parts up to the last name, and that name
with the extension. -/
lemma withExtensionChars_eq {path name ext : List Char} {front skipped : List (List Char)}
    (hparts : splitSlashes path = front ++ name :: skipped) (hname : isSkipped name = false)
    (hdots : name ≠ ['.', '.']) (hskipped : ∀ part ∈ skipped, isSkipped part = true) :
    withExtensionChars path ext =
      joinParts (front ++ [(splitExtension name).1 ++ '.' :: ext]) := by
  have htoName : partsToName path = front ++ [name] := by
    have hreverse : ∀ part ∈ skipped.reverse, isSkipped part = true := fun part hpart =>
      hskipped part (List.mem_reverse.mp hpart)
    rw [partsToName, hparts, List.reverse_append, List.reverse_cons, List.append_assoc,
      List.dropWhile_append_of_pos hreverse]
    simp [hname]
  have hnameOf : nameOf? path = some name := by
    rw [nameOf?, htoName]
    simp [hdots]
  rw [withExtensionChars, hnameOf, htoName]
  simp

/-- A part with a character that is no dot is a name. -/
lemma name_of_ne_dot {part : List Char} (h : ∃ c ∈ part, c ≠ '.') :
    isSkipped part = false ∧ componentOf part = .name part := by
  obtain ⟨c, hc, hne⟩ := h
  have hne' : ∀ dots : List Char, (∀ d ∈ dots, d = '.') → part ≠ dots := by
    rintro dots hall rfl
    exact hne (hall c hc)
  refine ⟨?_, if_neg (hne' _ (by simp))⟩
  simp [isSkipped, hne' [] (by simp), hne' ['.'] (by simp)]

/-- A path starts as before if a part that is not skipped gives way to another one. -/
lemma start_append_cons {part part' : List Char} (h : isSkipped part = false)
    (h' : isSkipped part' = false) (front more more' : List (List Char)) :
    start (front ++ part :: more) = start (front ++ part' :: more') := by
  cases front with
  | nil => rw [List.nil_append, List.nil_append, start_cons h, start_cons h']
  | cons first front => exact start_append (by simp) (by simp) (by simp)

/-- Another extension changes the last name and nothing else. -/
lemma componentsOf_withExtensionChars {path name ext : List Char}
    (h : (componentsOf path).getLast? = some (.name name)) (hslash : '/' ∉ ext)
    (hdot : ∃ c ∈ ext, c ≠ '.') :
    componentsOf (withExtensionChars path ext) =
      (componentsOf path).dropLast ++ [.name ((splitExtension name).1 ++ '.' :: ext)] := by
  obtain ⟨front, skipped, hparts, hname, hdots, hskipped⟩ := exists_parts_of_getLast? h
  let renamed := (splitExtension name).1 ++ '.' :: ext
  obtain ⟨c, hc, hne⟩ := hdot
  have hrenamed : isSkipped renamed = false ∧ componentOf renamed = .name renamed :=
    name_of_ne_dot ⟨c, List.mem_append_right _ (List.mem_cons_of_mem _ hc), hne⟩
  have hnoSlash : ∀ part ∈ front ++ name :: skipped, '/' ∉ part := fun part hpart =>
    slash_notMem_of_mem (hparts ▸ hpart)
  have hsplit : splitSlashes (joinParts (front ++ [renamed])) = front ++ [renamed] := by
    refine splitSlashes_joinParts (by simp) fun part hpart => ?_
    rcases List.mem_append.mp hpart with hfront | hlast
    · exact hnoSlash part (List.mem_append_left _ hfront)
    · obtain rfl := List.mem_singleton.mp hlast
      have hstem : '/' ∉ (splitExtension name).1 := fun hmem =>
        hnoSlash name (by simp) (splitExtension_fst_subset name hmem)
      simp [renamed, hstem, hslash]
  have hstart : start (front ++ [renamed]) = start (front ++ name :: skipped) :=
    start_append_cons hrenamed.1 hname front [] skipped
  rw [withExtensionChars_eq hparts hname hdots hskipped, componentsOf_eq, hsplit, componentsOf_eq,
    hparts, hstart, laterComponents_append, laterComponents_append,
    laterComponents_cons hrenamed.1, laterComponents_cons hname,
    laterComponents_of_skipped hskipped, hrenamed.2, ← List.append_assoc, ← List.append_assoc,
    List.dropLast_concat]
  rfl

/-! ### Files below a folder -/

/-- Whether a path is below a folder: its components are those of the folder and
then at least one more, all of which are names. -/
def IsBelow (root path : String) : Prop :=
  ∃ below, components path = components root ++ below ∧ below ≠ [] ∧
    ∀ c ∈ below, ∃ name, c = .name name

end FilePath

namespace Template

open FilePath

/-- The components that the name of a template has after its start are names. -/
lemma names_of_staysInside {name : String}
    (h : (components name).all staysInside = true) :
    ∀ c ∈ laterComponents (splitSlashes name.toList), ∃ part, c = .name part := by
  intro c hc
  have hmem : c ∈ components name := by
    rw [components, componentsOf_eq]
    exact List.mem_append_right _ hc
  obtain ⟨part, -, rfl⟩ := List.mem_map.mp hc
  have hinside := List.all_eq_true.mp h _ hmem
  rw [componentOf] at hinside ⊢
  split_ifs at hinside ⊢ with hdots
  · simp [staysInside] at hinside
  · exact ⟨part, rfl⟩

/-- A name that stays inside is no absolute path. -/
lemma head_ne_slash_of_staysInside {name : String}
    (h : (components name).all staysInside = true) : name.toList.head? ≠ some '/' := by
  intro hhead
  obtain ⟨rest, hrest⟩ : ∃ rest, name.toList = '/' :: rest := by
    cases hname : name.toList with
    | nil => simp [hname] at hhead
    | cons c rest => exact ⟨rest, by rw [hname] at hhead; simpa using hhead⟩
  have hroot : Component.root ∈ components name := by
    rw [components, hrest]
    exact List.mem_cons_self
  simpa [staysInside] using List.all_eq_true.mp h _ hroot

/-- The names in a path come after its start. -/
lemma exists_name_iff {path : String} (h : ∀ c ∈ laterComponents (splitSlashes path.toList),
    ∃ part, c = .name part) :
    (∃ part, Component.name part ∈ components path) ↔
      laterComponents (splitSlashes path.toList) ≠ [] := by
  have hstart : ∀ part, Component.name part ∉ start (splitSlashes path.toList) := by
    intro part hmem
    rw [start] at hmem
    split_ifs at hmem <;> simp at hmem
  constructor
  · rintro ⟨part, hpart⟩ hnil
    rw [components, componentsOf_eq, hnil, List.append_nil] at hpart
    exact hstart part hpart
  · intro hne
    obtain ⟨c, rest, hrest⟩ := List.exists_cons_of_ne_nil hne
    obtain ⟨part, rfl⟩ := h c (by simp [hrest])
    refine ⟨part, ?_⟩
    rw [components, componentsOf_eq, hrest]
    simp

/-- The last name of a path that only has skipped parts after its start is none,
and so it has no extension. -/
lemma extension?_eq_none {path : String}
    (h : laterComponents (splitSlashes path.toList) = []) : extension? path = none := by
  have hskipped : ∀ part ∈ (splitSlashes path.toList).reverse, isSkipped part = true := by
    rw [laterComponents, List.map_eq_nil_iff, List.filter_eq_nil_iff] at h
    intro part hpart
    simpa using h part (List.mem_reverse.mp hpart)
  have hparts : partsToName path.toList = [] := by
    rw [partsToName, List.dropWhile_eq_nil_iff.mpr hskipped, List.reverse_nil]
  rw [extension?, extensionOf?, nameOf?, hparts]
  rfl

/-- A template that has a file stays inside, and the file is the joined path,
with the default extension where the name has none. -/
lemma eq_of_path? {name root path : String} (h : path? name root = some path) :
    (components name).all staysInside = true ∧
      path = if (extension? name).isSome then join root name
        else withExtension (join root name) defaultExtension := by
  rw [path?] at h
  split_ifs at h with hname hextension
  all_goals
    simp only [not_or, Bool.not_eq_true', Bool.not_eq_false] at hname
    refine ⟨hname.2, ?_⟩
    simpa [hextension] using (Option.some.inj h).symm

variable {root : String} {folder : List Char}

/-- A template's name adds its components to those of the folder. -/
lemma components_join (hroot : (components root).getLast? = some (.name folder)) {name : String}
    (h : (components name).all staysInside = true) :
    components (join root name) =
      components root ++ laterComponents (splitSlashes name.toList) := by
  have hne : root.toList ≠ [] := by
    intro hnil
    rw [components, hnil] at hroot
    simp [componentsOf] at hroot
  rw [components, join, String.toList_ofList,
    componentsOf_joinChars hne (head_ne_slash_of_staysInside h)]
  rfl

/-- With the default extension, the last name of the joined path is another
one. -/
lemma components_withExtension {path : String} {last : List Char}
    (h : (components path).getLast? = some (.name last)) :
    components (withExtension path defaultExtension) =
      (components path).dropLast ++
        [.name ((splitExtension last).1 ++ '.' :: defaultExtension.toList)] := by
  rw [components, withExtension, String.toList_ofList]
  exact componentsOf_withExtensionChars h (by decide) ⟨'j', by decide, by decide⟩

/-- A template whose name has names among its components has its file below the
folder. -/
lemma isBelow_of_path? (hroot : (components root).getLast? = some (.name folder))
    {name path : String} (hpath : path? name root = some path)
    (hne : laterComponents (splitSlashes name.toList) ≠ []) : IsBelow root path := by
  obtain ⟨hinside, heq⟩ := eq_of_path? hpath
  have hjoin := components_join hroot hinside
  have hnames := names_of_staysInside hinside
  obtain ⟨before, c, hlater⟩ := List.eq_nil_or_concat'
    (laterComponents (splitSlashes name.toList)) |>.resolve_left hne
  rw [hlater] at hjoin hnames
  obtain ⟨last, rfl⟩ := hnames c (by simp)
  split_ifs at heq with hextension
  · exact ⟨before ++ [.name last], heq ▸ hjoin, by simp, hnames⟩
  · have hlast : (components (join root name)).getLast? = some (.name last) := by
      rw [hjoin]
      simp
    have hdropLast : (components (join root name)).dropLast = components root ++ before := by
      rw [hjoin, ← List.append_assoc, List.dropLast_concat]
    have hpath := components_withExtension hlast
    rw [hdropLast, ← heq, List.append_assoc] at hpath
    refine ⟨_, hpath, by simp, fun d hd => ?_⟩
    rcases List.mem_append.mp hd with hbefore | hd
    · exact hnames d (List.mem_append_left _ hbefore)
    · exact ⟨_, List.mem_singleton.mp hd⟩

/-- Any other template has its file beside the folder. -/
lemma components_of_path? (hroot : (components root).getLast? = some (.name folder))
    {name path : String} (hpath : path? name root = some path)
    (hnil : laterComponents (splitSlashes name.toList) = []) :
    components path = (components root).dropLast ++
      [.name ((splitExtension folder).1 ++ '.' :: defaultExtension.toList)] := by
  obtain ⟨hinside, heq⟩ := eq_of_path? hpath
  have hjoin := components_join hroot hinside
  rw [hnil, List.append_nil] at hjoin
  rw [extension?_eq_none hnil, if_neg (by simp)] at heq
  rw [heq, components_withExtension (hjoin ▸ hroot), hjoin]

/-- **Containment**: the file of a template is below the folder exactly if there
is a name among the components of the template's name. Otherwise it is a file
beside the folder, called like the folder itself with the default extension. What
a folder has for a template is the text of that file and of no other. -/
theorem path?_isBelow_iff (hroot : (components root).getLast? = some (.name folder))
    (name : String) :
    (∀ path, path? name root = some path →
      (IsBelow root path ↔ ∃ part, Component.name part ∈ components name) ∧
        ((∀ part, Component.name part ∉ components name) →
          components path = (components root).dropLast ++
            [.name ((splitExtension folder).1 ++ '.' :: defaultExtension.toList)])) ∧
      ∀ (files : Files) (text : String), Templates.ofFolder files root name = some text →
        ∃ path, path? name root = some path ∧ files path = .ok text := by
  refine ⟨fun path hpath => ?_, fun files text htext => ?_⟩
  · have hiff := exists_name_iff (names_of_staysInside (eq_of_path? hpath).1)
    refine ⟨⟨fun hbelow => hiff.mpr fun hnil => ?_, fun hname =>
      isBelow_of_path? hroot hpath (hiff.mp hname)⟩, fun hno => ?_⟩
    · -- a path beside the folder is no longer than that of the folder
      obtain ⟨below, hpath', hne, -⟩ := hbelow
      have hlength := congrArg List.length (components_of_path? hroot hpath hnil)
      have hbelow := List.length_pos_of_ne_nil hne
      have hroot' : 0 < (components root).length :=
        List.length_pos_of_ne_nil fun h => by simp [h] at hroot
      rw [hpath', List.length_append, List.length_append, List.length_dropLast,
        List.length_singleton] at hlength
      omega
    · refine components_of_path? hroot hpath ?_
      by_contra hne
      obtain ⟨part, hpart⟩ := hiff.mpr hne
      exact hno part hpart
  · obtain ⟨path, hpath, hread⟩ := Option.bind_eq_some_iff.mp htext
    refine ⟨path, hpath, ?_⟩
    cases hfile : files path with
    | error reason => simp [hfile, Except.toOption] at hread
    | ok content => simpa [hfile, Except.toOption] using hread

/-- A name with dots and slashes around its two names, below a folder with a
slash behind it. -/
theorem path?_isBelow_iff_partials :
    let root := "site/templates/"
    let name := "./partials//nav/."
    let files : Files := fun path =>
      if path = "site/templates/./partials//nav.json" then .ok "nav" else .error .missing
    (components root).getLast? = some (.name "templates".toList) ∧
      (∀ path, path? name root = some path →
        (IsBelow root path ↔ ∃ part, Component.name part ∈ components name) ∧
          ((∀ part, Component.name part ∉ components name) →
            components path = (components root).dropLast ++
              [.name ((splitExtension "templates".toList).1 ++ '.' :: defaultExtension.toList)])) ∧
      (∃ path, path? name root = some path ∧ files path = .ok "nav") := by
  intro root name files
  have hroot : (components root).getLast? = some (.name "templates".toList) := by decide +kernel
  have htext : Templates.ofFolder files root name = some "nav" := by decide +kernel
  have hall := path?_isBelow_iff hroot name
  exact ⟨hroot, hall.1, hall.2 files "nav" htext⟩

/-- The template `.` of a folder has its file beside the folder. -/
theorem not_path?_isBelow :
    ¬ ∀ (root name path : String) (folder : List Char),
      (components root).getLast? = some (.name folder) → path? name root = some path →
        IsBelow root path := by
  intro h
  have hroot : (components "templates").getLast? = some (.name "templates".toList) := by
    decide +kernel
  have hpath : path? "." "templates" = some "templates.json" := by decide +kernel
  obtain ⟨below, hbelow, -⟩ := h _ _ _ _ hroot hpath
  have hfolder : components "templates" = [.name "templates".toList] := by decide +kernel
  have hfile : components "templates.json" = [.name "templates.json".toList] := by decide +kernel
  rw [hfolder, hfile] at hbelow
  have hsame : "templates.json".toList = "templates".toList :=
    Component.name.inj (List.cons.inj hbelow).1
  exact absurd hsame (by decide)

end Template

end PageTree
