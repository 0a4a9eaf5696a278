import Mathlib.Data.List.TakeWhile
import Mailshot.Proofs.Settings.Leaf
import Mailshot.Proofs.Table

/-!
# Settings through the layers

A layer goes over the tree below one key at a time, and each key changes what the tree has for the
settings that it names, nothing else.  So of two layers the upper one decides on the settings it
gives, and the lower one on the others, whatever sections they share.

* `Layer.find_mergeMembers`: a table over another one decides on the names that it has;
* `Layer.Gives`, `Layer.Regular`: what a file gives for a setting, and files that name settings by
  plain keys and sections by tables;
* `Layer.at?_assign_member`, `Layer.onto_file`: one member of a file over a tree, and a whole file;
* `Leaf.at?_assign`, `Leaf.onto_leaves`: one setting over a tree, and a layer of settings.
-/

namespace Mailshot

/-- A value that takes the place of what was there, being no table. -/
def Json.IsScalar (v : Json) : Prop := ∀ ms, v ≠ .object ms

namespace Layer

variable {key name : String} {v below : Json} {ms sub : List (String × Json)}

theorem merge_of_isScalar (h : v.IsScalar) (below : Json) : merge below v = v := by
  cases v with
  | object ms => exact absurd rfl (h ms)
  | null | bool | int | double | text | list => rfl

theorem exists_mergeMembers (ms sub : List (String × Json)) :
    ∃ out, mergeMembers (.object ms) sub = .object out := by
  induction sub generalizing ms with
  | nil => exact ⟨ms, rfl⟩
  | cons m rest ih => exact ih _

/-- What the last of the members with a name has, whatever its case. -/
def lastNamed (name : String) : List (String × Json) → Option Json
  | [] => none
  | (key, v) :: rest => (lastNamed name rest).or (if lowerCase key = name then some v else none)

theorem exists_of_lastNamed (h : lastNamed name ms = some v) :
    ∃ key, (key, v) ∈ ms ∧ lowerCase key = name := by
  induction ms with
  | nil => cases h
  | cons m rest ih =>
      obtain ⟨key, w⟩ := m
      rw [lastNamed, Option.or_eq_some_iff] at h
      rcases h with hrest | ⟨-, hfirst⟩
      · obtain ⟨other, hmem, hother⟩ := ih hrest
        exact ⟨other, List.mem_cons_of_mem _ hmem, hother⟩
      · obtain ⟨hkey, rfl⟩ := Option.ite_none_right_eq_some.mp hfirst |>.imp_right Option.some.inj
        exact ⟨key, List.mem_cons_self, hkey⟩

theorem lastNamed_isSome (h : (key, v) ∈ ms) (hkey : lowerCase key = name) :
    (lastNamed name ms).isSome := by
  induction ms with
  | nil => cases h
  | cons m rest ih =>
      rw [lastNamed, Option.isSome_or, Bool.or_eq_true]
      rcases List.mem_cons.mp h with rfl | hrest
      · exact .inr (by simp [hkey])
      · exact .inl (ih hrest)

/-- **A table over another one** gives what it has under a name, and leaves the other names. -/
theorem find_mergeMembers (below : Json)
    (hscalar : ∀ key v, (key, v) ∈ sub → lowerCase key = name → v.IsScalar) :
    Table.find name (membersOf (mergeMembers below sub)) =
      (lastNamed name sub).or (Table.find name (membersOf below)) := by
  induction sub generalizing below with
  | nil => rfl
  | cons m rest ih =>
      obtain ⟨key, v⟩ := m
      rw [mergeMembers, ih _ fun key v hmem => hscalar key v (List.mem_cons_of_mem _ hmem)]
      show (lastNamed name rest).or (Table.find name (Table.put _ _ _)) = _
      rw [Table.find_put, lastNamed, Option.or_assoc]
      by_cases hkey : lowerCase key = name
      · rw [if_pos hkey, if_pos hkey, merge_of_isScalar (hscalar key v List.mem_cons_self hkey),
          Option.some_or]
      · rw [if_neg hkey, if_neg hkey, Option.none_or]

/-- A key changes what is under its root only. -/
theorem find_assign_of_ne (h : lowerCase (Path.ofKey key).root ≠ name) (tree : Json) :
    Table.find name (membersOf (assign tree key v)) = Table.find name (membersOf tree) := by
  show Table.find name (Table.put _ _ _) = _
  rw [Table.find_put, if_neg h]

end Layer

/-! ### Plain keys -/

namespace Path

theorem isName_of_lowerChar {c : Char} (h : isName (lowerChar c) = true)
    (hkelvin : lowerChar c ≠ 'k') : isName c = true := by
  rw [lowerChar] at h hkelvin
  split at h
  · next hc => exact absurd (if_pos hc) hkelvin
  · by_cases hupper : 'A' ≤ c ∧ c ≤ 'Z'
    · simp [isName, hupper]
    · have hsame : c.toLower = c := dif_neg hupper
      rwa [hsame] at h

/-- The key of what is at the top is a single name, whatever its case. -/
theorem ofKey_of_mem_fields {key : String} (h : lowerCase key ∈ Settings.fields) :
    ofKey key = ⟨key, []⟩ := by
  have hfields : ∀ name ∈ Settings.fields, name ≠ "" ∧
      (name.toList.all fun d => isName d && d != 'k') = true := by decide
  obtain ⟨hne, hchars⟩ := hfields _ h
  have hlist : (lowerCase key).toList = key.toList.map lowerChar := String.toList_ofList
  have hname : ∀ c ∈ key.toList, isName c = true := by
    intro c hc
    have hlower := List.all_eq_true.mp hchars (lowerChar c) (hlist ▸ List.mem_map_of_mem hc)
    obtain ⟨hisName, hkelvin⟩ := Bool.and_eq_true_iff.mp hlower
    exact isName_of_lowerChar hisName (bne_iff_ne.mp hkelvin)
  have htake : key.toList.takeWhile isName = key.toList := List.takeWhile_eq_self_iff.mpr hname
  have hdrop : key.toList.dropWhile isName = [] := List.dropWhile_eq_nil_iff.mpr hname
  have hnonempty : key.toList ≠ [] := by
    intro hnil
    refine hne ?_
    rw [lowerCase, hnil]
    rfl
  simp [ofKey, parse?, name?, htake, hdrop, hnonempty, stepsFrom]

end Path

/-! ### Files -/

/-- What a value at the top gives for a setting: itself, or what a table of it has under the name of
the setting, whatever its case. -/
def Leaf.Inside (leaf : Leaf) (w v : Json) : Prop :=
  match leaf.name? with
  | none => v = w
  | some name => ∃ key, (key, v) ∈ Layer.membersOf w ∧ lowerCase key = name

/-- A file gives a value for a setting. -/
def Layer.Gives (file : Layer) (leaf : Leaf) (v : Json) : Prop :=
  ∃ key w, (key, w) ∈ file ∧ lowerCase key = leaf.top ∧ leaf.Inside w v

/-- A file names settings by plain keys and their sections by tables. -/
structure Layer.Regular (file : Layer) : Prop where
  plain {key : String} {v : Json} : (key, v) ∈ file →
    lowerCase (Path.ofKey key).root ∈ Settings.fields → lowerCase key ∈ Settings.fields
  table {key : String} {v : Json} : (key, v) ∈ file → lowerCase key ∈ Settings.sections →
    ∃ sub, v = .object sub

namespace Leaf

/-- The last value that is inside. -/
def lastInside (leaf : Leaf) (w : Json) : Option Json :=
  match leaf.name? with
  | none => some w
  | some name => Layer.lastNamed name (Layer.membersOf w)

/-- The last value that a file gives for a setting. -/
def lastGiven (leaf : Leaf) : Layer → Option Json
  | [] => none
  | (key, w) :: rest =>
    (lastGiven leaf rest).or (if lowerCase key = leaf.top then leaf.lastInside w else none)

variable {leaf : Leaf} {key : String} {v w : Json} {file rest : Layer} {ms : List (String × Json)}

theorem inside_of_lastInside (h : leaf.lastInside w = some v) : leaf.Inside w v := by
  rw [lastInside] at h
  rw [Inside]
  split at h
  · exact (Option.some.inj h).symm
  · exact Layer.exists_of_lastNamed h

theorem lastInside_isSome (h : leaf.Inside w v) : (leaf.lastInside w).isSome := by
  rw [Inside] at h
  rw [lastInside]
  split at h
  · rfl
  · obtain ⟨key, hmem, hkey⟩ := h
    exact Layer.lastNamed_isSome hmem hkey

theorem gives_of_lastGiven (h : leaf.lastGiven file = some v) : file.Gives leaf v := by
  induction file with
  | nil => cases h
  | cons m rest ih =>
      obtain ⟨key, w⟩ := m
      rw [lastGiven, Option.or_eq_some_iff] at h
      rcases h with hrest | ⟨-, hfirst⟩
      · obtain ⟨other, u, hmem, hother, hinside⟩ := ih hrest
        exact ⟨other, u, List.mem_cons_of_mem _ hmem, hother, hinside⟩
      · obtain ⟨hkey, hinside⟩ := Option.ite_none_right_eq_some.mp hfirst
        exact ⟨key, w, List.mem_cons_self, hkey, inside_of_lastInside hinside⟩

theorem lastGiven_isSome (h : file.Gives leaf v) : (leaf.lastGiven file).isSome := by
  obtain ⟨key, w, hmem, hkey, hinside⟩ := h
  induction file with
  | nil => cases hmem
  | cons m rest ih =>
      rw [lastGiven, Option.isSome_or, Bool.or_eq_true]
      rcases List.mem_cons.mp hmem with rfl | hrest
      · exact .inr (by rw [if_pos hkey]; exact lastInside_isSome hinside)
      · exact .inl (ih hrest)

/-- What a tree has for a setting, told by what it has at the top. -/
theorem at?_eq (leaf : Leaf) (ms : List (String × Json)) :
    leaf.at? (.object ms) = (Table.find leaf.top ms).bind leaf.within? :=
  rfl

/-- A section that is missing is as good as an empty one. -/
theorem find_getD {name : String} (hname : leaf.name? = some name) (table? : Option Json) :
    Table.find name (Layer.membersOf (table?.getD (.object []))) =
      table?.bind leaf.within? := by
  cases table? with
  | none => rfl
  | some w => simp only [Option.getD_some, Option.bind_some, within?, hname]

end Leaf

section Member

variable {key : String} {v : Json} {file : Layer} {ms : List (String × Json)}

/-- Where a member of a file goes. -/
theorem Layer.Regular.root (hfile : file.Regular) (hmem : (key, v) ∈ file) {name : String}
    (hname : name ∈ Settings.fields) :
    lowerCase (Path.ofKey key).root = name ↔ lowerCase key = name := by
  refine ⟨fun hroot => ?_, fun hkey => ?_⟩
  · have hplain := hfile.plain hmem (hroot ▸ hname)
    rwa [Path.ofKey_of_mem_fields hplain] at hroot
  · rwa [Path.ofKey_of_mem_fields (hkey ▸ hname)]

/-- A plain key puts its value over what was there. -/
theorem Layer.find_assign (hfile : file.Regular) (hmem : (key, v) ∈ file) {name : String}
    (hname : name ∈ Settings.fields) (ms : List (String × Json)) :
    Table.find name (membersOf (assign (.object ms) key v)) =
      if lowerCase key = name then some (merge ((Table.find name ms).getD (.object [])) v)
      else Table.find name ms := by
  split
  · next hkey =>
      subst hkey
      rw [assign, Path.ofKey_of_mem_fields hname]
      show Table.find _ (Table.put _ _ _) = _
      rw [Table.find_put, if_pos rfl]
      rfl
  · next hkey =>
      exact find_assign_of_ne (fun hroot => hkey ((hfile.root hmem hname).mp hroot)) _

/-- Tables stay tables under a member of a file. -/
theorem Layer.sectioned_assign (hfile : file.Regular) (hmem : (key, v) ∈ file)
    (hms : Sectioned ms) : Sectioned (membersOf (assign (.object ms) key v)) where
  table {name w} hname hfind := by
    have hfield : name ∈ Settings.fields := List.mem_cons_of_mem _ hname
    rw [find_assign hfile hmem hfield] at hfind
    split at hfind
    · next hkey =>
        obtain ⟨sub, rfl⟩ := hfile.table hmem (hkey ▸ hname)
        obtain ⟨old, hold⟩ : ∃ old, (Table.find name ms).getD (.object []) = .object old := by
          cases hfound : Table.find name ms with
          | none => exact ⟨[], rfl⟩
          | some u => exact hms.table hname hfound
        obtain ⟨out, hout⟩ := exists_mergeMembers old sub
        refine ⟨out, ?_⟩
        rw [hold, merge, hout] at hfind
        exact (Option.some.inj hfind).symm
    · exact hms.table hname hfind

/-- **One member of a file over a tree** gives what is inside, and leaves the other settings. -/
theorem Layer.at?_assign_member (hfile : file.Regular) (hmem : (key, v) ∈ file)
    (hscalar : ∀ leaf w, file.Gives leaf w → w.IsScalar) (leaf : Leaf) (ms : List (String × Json)) :
    leaf.at? (assign (.object ms) key v) =
      (if lowerCase key = leaf.top then leaf.lastInside v else none).or
        (leaf.at? (.object ms)) := by
  rw [Leaf.at?, find_assign hfile hmem leaf.top_mem, Leaf.at?_eq]
  split
  · next hkey =>
      have hinside {w : Json} (h : leaf.Inside v w) : w.IsScalar :=
        hscalar leaf w ⟨key, v, hmem, hkey, h⟩
      rw [Option.bind_some]
      cases hname : leaf.name? with
      | none =>
          have hv : v.IsScalar := hinside (by rw [Leaf.Inside, hname])
          simp only [Leaf.within?, Leaf.lastInside, hname, merge_of_isScalar hv, Option.some_or]
      | some name =>
          have hsection : leaf.top ∈ Settings.sections := by
            rw [leaf.top_mem_sections_iff, hname]
            rfl
          obtain ⟨sub, rfl⟩ := hfile.table hmem (hkey ▸ hsection)
          simp only [Leaf.within?, Leaf.lastInside, hname]
          show Table.find name (membersOf (mergeMembers _ sub)) = (lastNamed name sub).or _
          rw [← Leaf.find_getD hname]
          refine find_mergeMembers _ fun other w hw hother => hinside ?_
          rw [Leaf.Inside, hname]
          exact ⟨other, hw, hother⟩
  · rw [Option.none_or]

/-- **A file over a tree** decides on the settings that it gives. -/
theorem Layer.onto_file (hfile : file.Regular)
    (hscalar : ∀ leaf w, file.Gives leaf w → w.IsScalar) (hms : Sectioned ms) :
    ∃ out, onto (.object ms) file = .object out ∧ Sectioned out ∧
      ∀ leaf : Leaf, leaf.at? (.object out) =
        (leaf.lastGiven file).or (leaf.at? (.object ms)) := by
  induction file generalizing ms with
  | nil => exact ⟨ms, rfl, hms, fun _ => rfl⟩
  | cons m rest ih =>
      obtain ⟨key, v⟩ := m
      have hrest : Regular rest :=
        ⟨fun hmem => hfile.plain (List.mem_cons_of_mem _ hmem),
          fun hmem => hfile.table (List.mem_cons_of_mem _ hmem)⟩
      have hrestScalar : ∀ leaf w, Gives rest leaf w → w.IsScalar :=
        fun leaf w ⟨other, u, hmem, hgives⟩ =>
          hscalar leaf w ⟨other, u, List.mem_cons_of_mem _ hmem, hgives⟩
      obtain ⟨out, hout, hsectioned, hat⟩ :=
        ih hrest hrestScalar (sectioned_assign hfile List.mem_cons_self hms)
      refine ⟨out, hout, hsectioned, fun leaf => ?_⟩
      have hstep := at?_assign_member hfile List.mem_cons_self hscalar leaf ms
      rw [hat leaf, Leaf.lastGiven, Option.or_assoc, ← hstep]
      rfl

end Member

/-! ### Single settings -/

namespace Leaf

variable {leaf other : Leaf} {v : Json} {ms : List (String × Json)}

theorem ofKey_key (leaf : Leaf) :
    Path.ofKey leaf.key = ⟨leaf.top, (leaf.name?.map Step.child).toList⟩ := by
  cases leaf <;> decide +kernel

theorem lowerCase_top (leaf : Leaf) : lowerCase leaf.top = leaf.top := by
  cases leaf <;> decide

theorem lowerCase_name {name : String} (h : leaf.name? = some name) : lowerCase name = name := by
  cases leaf <;> cases h <;> decide

/-- A setting is told by its place. -/
theorem eq_of_place (htop : leaf.top = other.top) (hname : leaf.name? = other.name?) :
    leaf = other := by
  cases leaf <;> cases other <;> first | rfl | exact absurd hname (by decide)

theorem key_injective (h : leaf.key = other.key) : leaf = other := by
  have hplace : Path.ofKey leaf.key = Path.ofKey other.key := congrArg Path.ofKey h
  rw [ofKey_key, ofKey_key, Path.mk.injEq] at hplace
  have hsteps : leaf.name?.map Step.child = other.name?.map Step.child := by
    simpa using congrArg List.head? hplace.2
  exact eq_of_place hplace.1 (Option.map_injective (fun _ _ => Step.child.inj) hsteps)

/-- What is at the top once a setting has its value. -/
def raise (leaf : Leaf) (v below : Json) : Json :=
  match leaf.name? with
  | none => v
  | some name => .object (Table.put name v (Layer.membersOf below))

theorem find_assign_key (leaf : Leaf) (hv : v.IsScalar) (ms : List (String × Json))
    (name : String) :
    Table.find name (Layer.membersOf (Layer.assign (.object ms) leaf.key v)) =
      if leaf.top = name then some (leaf.raise v ((Table.find leaf.top ms).getD (.object [])))
      else Table.find name ms := by
  rw [Layer.assign, leaf.ofKey_key]
  show Table.find name (Table.put (lowerCase leaf.top) _ ms) = _
  rw [Table.find_put, leaf.lowerCase_top]
  congr 2
  rw [raise]
  cases hname : leaf.name? with
  | none => exact Layer.merge_of_isScalar hv _
  | some n =>
      show Json.object (Table.put (lowerCase n) (Layer.merge _ v) _) = _
      rw [lowerCase_name hname, Layer.merge_of_isScalar hv]
      rfl

theorem sectioned_assign (leaf : Leaf) (hv : v.IsScalar) (hms : Sectioned ms) :
    Sectioned (Layer.membersOf (Layer.assign (.object ms) leaf.key v)) where
  table {name w} hname hfind := by
    rw [find_assign_key leaf hv] at hfind
    split at hfind
    · next htop =>
        obtain ⟨n, hn⟩ := Option.isSome_iff_exists.mp (leaf.top_mem_sections_iff.mp (htop ▸ hname))
        rw [raise, hn] at hfind
        exact ⟨_, (Option.some.inj hfind).symm⟩
    · exact hms.table hname hfind

/-- **One setting over a tree** gets its value, and leaves the others. -/
theorem at?_assign (leaf other : Leaf) (hv : v.IsScalar) (ms : List (String × Json)) :
    other.at? (Layer.assign (.object ms) leaf.key v) =
      if leaf = other then some v else other.at? (.object ms) := by
  rw [at?, find_assign_key leaf hv, at?_eq]
  by_cases htop : leaf.top = other.top
  · rw [if_pos htop, Option.bind_some]
    have hsections : leaf.name?.isSome ↔ other.name?.isSome := by
      rw [← leaf.top_mem_sections_iff, ← other.top_mem_sections_iff, htop]
    cases hname : leaf.name? with
    | none =>
        have hother : other.name? = none := by simpa [hname] using hsections
        obtain rfl := eq_of_place htop (hname.trans hother.symm)
        rw [if_pos rfl]
        simp only [raise, within?, hname]
    | some name =>
        obtain ⟨name', hother⟩ : ∃ name', other.name? = some name' :=
          Option.isSome_iff_exists.mp (hsections.mp (by rw [hname]; rfl))
        have hsame : name = name' ↔ leaf = other := by
          refine ⟨fun h => eq_of_place htop (by rw [hname, hother, h]), ?_⟩
          rintro rfl
          exact Option.some.inj (hname.symm.trans hother)
        rw [htop, ← find_getD hother]
        simp only [raise, within?, hname, hother]
        show Table.find name' (Table.put name v _) = _
        rw [Table.find_put]
        simp only [hsame]
  · have hne : leaf ≠ other := fun h => htop (congrArg top h)
    rw [if_neg htop, if_neg hne]

/-- **A layer of settings over a tree** decides on the settings that it gives. -/
theorem onto_leaves {vars : Layer} (hkeys : (vars.map (·.1)).Nodup)
    (hvars : ∀ key v, (key, v) ∈ vars → (∃ leaf : Leaf, key = leaf.key) ∧ v.IsScalar)
    (hms : Sectioned ms) :
    ∃ out, Layer.onto (.object ms) vars = .object out ∧ Sectioned out ∧
      ∀ leaf : Leaf, leaf.at? (.object out) =
        (Table.find leaf.key vars).or (leaf.at? (.object ms)) := by
  induction vars generalizing ms with
  | nil => exact ⟨ms, rfl, hms, fun _ => rfl⟩
  | cons entry rest ih =>
      obtain ⟨key, v⟩ := entry
      obtain ⟨hfresh, hrest⟩ := List.nodup_cons.mp hkeys
      obtain ⟨⟨given, rfl⟩, hv⟩ := hvars key v List.mem_cons_self
      obtain ⟨out, hout, hsectioned, hat⟩ :=
        ih hrest (fun key v hmem => hvars key v (List.mem_cons_of_mem _ hmem))
          (sectioned_assign given hv hms)
      refine ⟨out, hout, hsectioned, fun leaf => ?_⟩
      have hstep := at?_assign given leaf hv ms
      rw [hat leaf]
      show (Table.find leaf.key rest).or (leaf.at? (Layer.assign (.object ms) given.key v)) = _
      rw [hstep, Table.find]
      by_cases hgiven : given = leaf
      · subst hgiven
        have hnone : Table.find given.key rest = none := by
          cases hfind : Table.find given.key rest with
          | none => rfl
          | some u => exact absurd (List.mem_map.mpr ⟨_, Table.mem_of_find hfind, rfl⟩) hfresh
        simp [hnone]
      · have hkey : given.key ≠ leaf.key := fun h => hgiven (key_injective h)
        simp [hgiven, hkey]

end Leaf

end Mailshot
