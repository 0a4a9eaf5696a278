import Mathlib
import Mailshot.Proofs.Settings.Layer

/-!
# Settings loaded

The environment goes over the file, and the file over the defaults, one setting at a time.  A variable
decides on the setting that it names and on no other, so the other settings of its section stay with
the file or the default.

* `Environment.Sets`, `Environment.Clear`: what variables set, and variables that name settings, each
  once and with a value of its kind;
* `Environment.Clear.find_layer`: the layer of such variables has what they set;
* `Layer.Clear`: files that give settings, each once and with a value of its kind;
* `Settings.Layered`, `Settings.load_layered`: what a setting is between them, and that all settings
  are loaded so.
-/

namespace Mailshot

/-- Where names differ by more than their case, one member has a name. -/
theorem eq_of_nodup_lowerCase {α : Type} {ms : List (String × α)} {key other name : String}
    {v w : α} (h : (ms.map (lowerCase ·.1)).Nodup) (hv : (key, v) ∈ ms)
    (hkey : lowerCase key = name) (hw : (other, w) ∈ ms) (hother : lowerCase other = name) :
    v = w :=
  congrArg Prod.snd (List.inj_on_of_nodup_map h hv hw (hkey.trans hother.symm))

theorem exists_of_isOk {ε α : Type} {result : Except ε α} (h : result.isOk = true) :
    ∃ x, result = .ok x := by
  cases result with
  | ok x => exact ⟨x, rfl⟩
  | error e => cases h

namespace Environment

variable {vars : List (String × String)} {name text key : String} {leaf : Leaf} {v : Json}

/-- A variable, in whatever case its name is, sets a setting. -/
def Sets (vars : List (String × String)) (leaf : Leaf) (text : String) : Prop :=
  ∃ name, (name, text) ∈ vars ∧ lowerCase name = leaf.var

/-- Variables that are settings name them in full. -/
def Regular (vars : List (String × String)) : Prop :=
  ∀ name text, (name, text) ∈ vars → key? name = none ∨ ∃ leaf : Leaf, lowerCase name = leaf.var

theorem points_place (leaf : Leaf) :
    String.ofList (points (leaf.place "__").toList) = leaf.key := by
  cases leaf <;> decide +kernel

theorem key?_of_var (h : lowerCase name = leaf.var) : key? name = some leaf.key := by
  have hvar : (lowerCase name).toList = opening ++ (leaf.place "__").toList := by
    rw [h]
    exact String.toList_append
  have hstart : opening.isPrefixOf (opening ++ (leaf.place "__").toList) = true :=
    List.isPrefixOf_iff_prefix.mpr (List.prefix_append ..)
  rw [key?, hvar]
  simp only [hstart, if_true, List.drop_left, points_place]

/-- What a text spells is no table. -/
theorem isScalar_value (text : String) : (value text).IsScalar := by
  intro ms
  simp only [value]
  repeat' split
  all_goals exact Json.noConfusion

theorem layer_snoc (vars : List (String × String)) (name text : String) :
    layer (vars ++ [(name, text)]) =
      match key? name with
      | some key => Table.put key (value text) (layer vars)
      | none => layer vars := by
  rw [layer, List.foldl_append]
  rfl

theorem nodup_layer (vars : List (String × String)) : ((layer vars).map (·.1)).Nodup := by
  induction vars using List.reverseRecOn with
  | nil => exact List.nodup_nil
  | append_singleton vars m ih =>
      rw [layer_snoc]
      split
      · next key _ =>
          have hnodup : (Table.mk (layer vars)).keys.Nodup := ih
          exact Table.nodup_insert hnodup key _
      · exact ih

/-- What is in the layer of some variables comes from one of them. -/
theorem exists_of_mem_layer (h : (key, v) ∈ layer vars) :
    ∃ name text, (name, text) ∈ vars ∧ key? name = some key ∧ v = value text := by
  induction vars using List.reverseRecOn with
  | nil => cases h
  | append_singleton vars m ih =>
      obtain ⟨other, text⟩ := m
      have hbefore (h : (key, v) ∈ layer vars) : ∃ name text', (name, text') ∈ vars ++
          [(other, text)] ∧ key? name = some key ∧ v = value text' := by
        obtain ⟨name, text', hmem, hkey, hv⟩ := ih h
        exact ⟨name, text', List.mem_append_left _ hmem, hkey, hv⟩
      rw [layer_snoc] at h
      split at h
      · next found hfound =>
          rcases Table.mem_of_mem_put h with hlast | h
          · obtain ⟨rfl, rfl⟩ := Prod.mk.inj hlast
            exact ⟨other, text, List.mem_append_right _ List.mem_cons_self, hfound, rfl⟩
          · exact hbefore h
      · exact hbefore h

/-- A variable that is a setting is in the layer. -/
theorem find_layer_isSome (h : (name, text) ∈ vars) (hkey : key? name = some key) :
    (Table.find key (layer vars)).isSome := by
  induction vars using List.reverseRecOn with
  | nil => cases h
  | append_singleton vars m ih =>
      obtain ⟨other, last⟩ := m
      rw [layer_snoc]
      rcases List.mem_append.mp h with h | h
      · have hbefore := ih h
        split
        · rw [Table.find_put]
          split
          · rfl
          · exact hbefore
        · exact hbefore
      · obtain ⟨rfl, rfl⟩ := Prod.mk.inj (List.mem_singleton.mp h)
        rw [hkey, Table.find_put, if_pos rfl]
        rfl

/-- **The layer of variables** has for a setting what a variable sets. -/
theorem exists_of_find_layer (hvars : Regular vars)
    (h : Table.find leaf.key (layer vars) = some v) :
    ∃ text, Sets vars leaf text ∧ v = value text := by
  obtain ⟨name, text, hmem, hkey, rfl⟩ := exists_of_mem_layer (Table.mem_of_find h)
  rcases hvars name text hmem with hnone | ⟨other, hother⟩
  · rw [hkey] at hnone
    cases hnone
  · have hsame : other = leaf :=
      Leaf.key_injective (Option.some.inj ((key?_of_var hother).symm.trans hkey))
    exact ⟨text, ⟨name, hmem, hsame ▸ hother⟩, rfl⟩

/-- Every key of the layer is that of a setting. -/
theorem exists_leaf_of_mem_layer (hvars : Regular vars) (h : (key, v) ∈ layer vars) :
    (∃ leaf : Leaf, key = leaf.key) ∧ v.IsScalar := by
  obtain ⟨name, text, hmem, hkey, rfl⟩ := exists_of_mem_layer h
  refine ⟨?_, isScalar_value text⟩
  rcases hvars name text hmem with hnone | ⟨leaf, hleaf⟩
  · rw [hkey] at hnone
    cases hnone
  · exact ⟨leaf, Option.some.inj (hkey.symm.trans (key?_of_var hleaf))⟩

/-- Variables that name settings, one for a setting at most, with values of the right kinds. -/
structure Clear (vars : List (String × String)) : Prop where
  regular : Regular vars
  once {leaf : Leaf} {text other : String} : Sets vars leaf text → Sets vars leaf other →
    text = other
  converts {leaf : Leaf} {text : String} : Sets vars leaf text →
    ∃ x, leaf.convert (value text) = .ok x

/-- What a variable sets is what the layer has. -/
theorem Clear.find_layer (hvars : Clear vars) (h : Sets vars leaf text) :
    Table.find leaf.key (layer vars) = some (value text) := by
  obtain ⟨name, hmem, hname⟩ := h
  obtain ⟨v, hv⟩ := Option.isSome_iff_exists.mp (find_layer_isSome hmem (key?_of_var hname))
  obtain ⟨other, hsets, rfl⟩ := exists_of_find_layer hvars.regular hv
  rw [hv, hvars.once hsets ⟨name, hmem, hname⟩]

/-- Variables whose names differ by more than their case set a setting once. -/
theorem clear_of_nodup (h : (vars.map (lowerCase ·.1)).Nodup)
    (hvars : ∀ name text, (name, text) ∈ vars → key? name = none ∨
      ∃ leaf : Leaf, lowerCase name = leaf.var ∧ (leaf.convert (value text)).isOk = true) :
    Clear vars where
  regular := fun name text hmem =>
    (hvars name text hmem).imp_right fun ⟨leaf, hleaf, _⟩ => ⟨leaf, hleaf⟩
  once := fun ⟨_, hv, hkey⟩ ⟨_, hw, hother⟩ => eq_of_nodup_lowerCase h hv hkey hw hother
  converts {leaf text} := by
    rintro ⟨name, hmem, hname⟩
    rcases hvars name text hmem with hnone | ⟨other, hother, hok⟩
    · rw [key?_of_var hname] at hnone
      cases hnone
    · have hkey : some leaf.key = some other.key :=
        (key?_of_var hname).symm.trans (key?_of_var hother)
      obtain rfl := Leaf.key_injective (Option.some.inj hkey)
      exact exists_of_isOk hok

end Environment

/-- Only what is no table is of the kind of a setting. -/
theorem Leaf.isScalar_of_convert {leaf : Leaf} {v : Json} {x : Value}
    (h : leaf.convert v = .ok x) : v.IsScalar := by
  rintro ms rfl
  cases leaf <;> cases h

/-- A file that gives settings by plain keys and tables, each at most once, with values of the right
kinds. -/
structure Layer.Clear (file : Layer) : Prop extends file.Regular where
  once {leaf : Leaf} {v w : Json} : file.Gives leaf v → file.Gives leaf w → v = w
  converts {leaf : Leaf} {v : Json} : file.Gives leaf v → ∃ x, leaf.convert v = .ok x

/-- What a file gives is the last that it gives. -/
theorem Layer.Clear.lastGiven {file : Layer} (hfile : file.Clear) {leaf : Leaf} {v : Json}
    (h : file.Gives leaf v) : leaf.lastGiven file = some v := by
  obtain ⟨w, hw⟩ := Option.isSome_iff_exists.mp (Leaf.lastGiven_isSome h)
  rw [hw, hfile.once (Leaf.gives_of_lastGiven hw) h]

/-- A file whose names differ by more than their case gives a setting one value. -/
theorem Layer.clear_of_nodup {file : Layer} (hfile : file.Regular)
    (h : (file.map (lowerCase ·.1)).Nodup)
    (htables : ∀ m ∈ file, ((membersOf m.2).map (lowerCase ·.1)).Nodup)
    (hconverts : ∀ leaf : Leaf, (leaf.lastGiven file).all fun v => (leaf.convert v).isOk) :
    file.Clear := by
  have honce {leaf : Leaf} {v w : Json} (hv : file.Gives leaf v) (hw : file.Gives leaf w) :
      v = w := by
    obtain ⟨key, a, ha, hkey, hv⟩ := hv
    obtain ⟨other, b, hb, hother, hw⟩ := hw
    obtain rfl := eq_of_nodup_lowerCase h ha hkey hb hother
    cases hname : leaf.name? with
    | none =>
        simp only [Leaf.Inside, hname] at hv hw
        exact hv.trans hw.symm
    | some name =>
        simp only [Leaf.Inside, hname] at hv hw
        obtain ⟨_, hv, hvname⟩ := hv
        obtain ⟨_, hw, hwname⟩ := hw
        exact eq_of_nodup_lowerCase (htables _ ha) hv hvname hw hwname
  refine { hfile with once := honce, converts := fun {leaf v} hgives => ?_ }
  obtain ⟨w, hw⟩ := Option.isSome_iff_exists.mp (Leaf.lastGiven_isSome hgives)
  have hok := hconverts leaf
  rw [hw, honce (Leaf.gives_of_lastGiven hw) hgives] at hok
  exact exists_of_isOk hok

/-- The layer of a file, if there is one. -/
def SettingsFile.layerOf : Option SettingsFile → Except LoadFlaw Layer
  | some f => f.layer
  | none => .ok []

namespace Settings

open Environment (Sets value layer)

variable {file? : Option SettingsFile} {file : Layer} {vars : List (String × String)}

/-- A setting is what its variable sets, else what the file gives, else its default. -/
def Layered (file : Layer) (vars : List (String × String)) (leaf : Leaf) (x : Value) : Prop :=
  (∀ text, Sets vars leaf text → leaf.convert (value text) = .ok x) ∧
  ((∀ text, ¬ Sets vars leaf text) →
    (∀ v, file.Gives leaf v → leaf.convert v = .ok x) ∧
    ((∀ v, ¬ file.Gives leaf v) → x = leaf.default))

theorem exists_load (hlayer : SettingsFile.layerOf file? = .ok file) (hfile : file.Clear)
    (hvars : Environment.Clear vars) :
    ∃ s, load file? vars = .ok s ∧ ∀ leaf : Leaf, Layered file vars leaf (leaf.get s) := by
  have hempty : Sectioned [] := ⟨fun _ hfind => by cases hfind⟩
  have hscalar : ∀ leaf w, file.Gives leaf w → w.IsScalar := fun leaf w hgives =>
    (hfile.converts hgives).elim fun _ => Leaf.isScalar_of_convert
  obtain ⟨below, hbelow, hsectioned, hat⟩ := Layer.onto_file hfile.toRegular hscalar hempty
  obtain ⟨tree, htree, hsectioned, hat'⟩ := Leaf.onto_leaves (Environment.nodup_layer vars)
    (fun _ _ => Environment.exists_leaf_of_mem_layer hvars.regular) hsectioned
  have hfound (leaf : Leaf) : leaf.at? (.object tree) =
      (Table.find leaf.key (layer vars)).or (leaf.lastGiven file) := by
    rw [hat', hat]
    show (Table.find leaf.key (layer vars)).or ((leaf.lastGiven file).or none) = _
    rw [Option.or_none]
  have hread (leaf : Leaf) : ∃ x, leaf.read (leaf.at? (.object tree)) = .ok x := by
    rw [hfound]
    cases hfind : Table.find leaf.key (layer vars) with
    | some v =>
        obtain ⟨text, hsets, rfl⟩ := Environment.exists_of_find_layer hvars.regular hfind
        exact hvars.converts hsets
    | none =>
        cases hgiven : leaf.lastGiven file with
        | some v => exact hfile.converts (Leaf.gives_of_lastGiven hgiven)
        | none => exact ⟨leaf.default, rfl⟩
  obtain ⟨s, hs, hget⟩ := ofTree_sectioned hsectioned hread
  refine ⟨s, ?_, fun leaf => ⟨fun text hsets => ?_, fun hunset => ?_⟩⟩
  · have hstack : Layer.stack [file, layer vars] = .object tree := by
      show Layer.onto (Layer.onto (.object []) file) (layer vars) = _
      rw [hbelow, htree]
    have hload : load file? vars = (SettingsFile.layerOf file?).bind fun below =>
        (ofTree (Layer.stack [below, layer vars])).mapError .field := by
      cases file? <;> rfl
    rw [hload, hlayer]
    show (ofTree (Layer.stack [file, layer vars])).mapError _ = _
    rw [hstack, hs]
    rfl
  · have := hget leaf
    rwa [hfound, hvars.find_layer hsets, Option.some_or] at this
  · have hnone : Table.find leaf.key (layer vars) = none := by
      cases hfind : Table.find leaf.key (layer vars) with
      | none => rfl
      | some v =>
          obtain ⟨text, hsets, -⟩ := Environment.exists_of_find_layer hvars.regular hfind
          exact absurd hsets (hunset text)
    have hbelow := hget leaf
    rw [hfound, hnone, Option.none_or] at hbelow
    refine ⟨fun v hgives => ?_, fun hungiven => ?_⟩
    · rwa [hfile.lastGiven hgives] at hbelow
    · cases hgiven : leaf.lastGiven file with
      | some v => exact absurd (Leaf.gives_of_lastGiven hgiven) (hungiven v)
      | none =>
          rw [hgiven] at hbelow
          exact (Except.ok.inj hbelow).symm

/-- There is one thing that a setting can be. -/
theorem Layered.unique {other : List (String × String)} {leaf : Leaf} {x y : Value}
    (hx : Layered file vars leaf x) (hy : Layered file other leaf y)
    (hsame : ∀ text, Sets other leaf text ↔ Sets vars leaf text) : x = y := by
  by_cases hset : ∃ text, Sets vars leaf text
  · obtain ⟨text, hsets⟩ := hset
    exact Except.ok.inj ((hx.1 text hsets).symm.trans (hy.1 text ((hsame text).mpr hsets)))
  · have hunset : ∀ text, ¬ Sets vars leaf text := not_exists.mp hset
    obtain ⟨hxfile, hxdefault⟩ := hx.2 hunset
    obtain ⟨hyfile, hydefault⟩ := hy.2 fun text hsets => hunset text ((hsame text).mp hsets)
    by_cases hgiven : ∃ v, file.Gives leaf v
    · obtain ⟨v, hgives⟩ := hgiven
      exact Except.ok.inj ((hxfile v hgives).symm.trans (hyfile v hgives))
    · have hungiven : ∀ v, ¬ file.Gives leaf v := not_exists.mp hgiven
      exact (hxdefault hungiven).trans (hydefault hungiven).symm

/-- **Settings are layered one by one.**  Where a file and variables name settings, each by one value
of its kind, they are loaded, and every setting is what its variable sets, else what the file gives,
else its default.  So other variables leave all settings alone but those whose own variables differ.
-/
theorem load_layered (hlayer : SettingsFile.layerOf file? = .ok file) (hfile : file.Clear)
    (hvars : Environment.Clear vars) :
    ∃ s, load file? vars = .ok s ∧
      (∀ leaf : Leaf,
        (∀ text, Sets vars leaf text → leaf.convert (value text) = .ok (leaf.get s)) ∧
        ((∀ text, ¬ Sets vars leaf text) →
          (∀ v, file.Gives leaf v → leaf.convert v = .ok (leaf.get s)) ∧
          ((∀ v, ¬ file.Gives leaf v) → leaf.get s = leaf.default))) ∧
      ∀ other, Environment.Clear other → ∃ t, load file? other = .ok t ∧
        ∀ leaf : Leaf, (∀ text, Sets other leaf text ↔ Sets vars leaf text) →
          leaf.get t = leaf.get s := by
  obtain ⟨s, hs, hlayered⟩ := exists_load hlayer hfile hvars
  refine ⟨s, hs, hlayered, fun other hother => ?_⟩
  obtain ⟨t, ht, hlayered'⟩ := exists_load hlayer hfile hother
  exact ⟨t, ht, fun leaf hsame => ((hlayered leaf).unique (hlayered' leaf) hsame).symm⟩

/-- A file that gives settings in three places. -/
def studioFile : SettingsFile where
  name := "studio.toml"
  text := "Node_ID = \"studio\"\n[dispatch]\nmax_concurrency = 3\naudience_page_size = \"50\"\n"

/-- The settings in that file. -/
def studioLayer : Layer :=
  [("Node_ID", .text "studio"),
    ("dispatch", .object [("max_concurrency", .int 3), ("audience_page_size", .text "50")])]

/-- Variables that set two of the settings, one of which the file gives. -/
def studioVars : List (String × String) :=
  [("CAMPAIGN_DISPATCH__dispatch__MAX_CONCURRENCY", "7"), ("PATH", "/bin"),
    ("campaign_dispatch__email__open_tracking", "off")]

theorem layerOf_studioFile : SettingsFile.layerOf (some studioFile) = .ok studioLayer := by
  cbv

theorem clear_studioLayer : studioLayer.Clear := by
  refine Layer.clear_of_nodup ⟨fun {key v} hmem => ?_, fun {key v} hmem hsection => ?_⟩
    (by decide +kernel) (by decide +kernel) fun leaf => by cases leaf <;> decide +kernel
  · have hplain : ∀ m ∈ studioLayer, lowerCase (Path.ofKey m.1).root ∈ fields →
        lowerCase m.1 ∈ fields := by decide +kernel
    exact hplain (key, v) hmem
  · simp only [studioLayer, List.mem_cons, Prod.mk.injEq, List.not_mem_nil, or_false] at hmem
    rcases hmem with ⟨rfl, -⟩ | ⟨-, rfl⟩
    · exact absurd hsection (by decide)
    · exact ⟨_, rfl⟩

theorem clear_studioVars : Environment.Clear studioVars := by
  refine Environment.clear_of_nodup (by decide +kernel) fun name text hmem => ?_
  simp only [studioVars, List.mem_cons, Prod.mk.injEq, List.not_mem_nil, or_false] at hmem
  rcases hmem with ⟨rfl, rfl⟩ | ⟨rfl, rfl⟩ | ⟨rfl, rfl⟩
  · exact .inr ⟨.maxConcurrency, by decide +kernel⟩
  · exact .inl (by decide +kernel)
  · exact .inr ⟨.openTracking, by decide +kernel⟩

theorem load_layered_of_studio :
    SettingsFile.layerOf (some studioFile) = .ok studioLayer ∧ studioLayer.Clear ∧
      Environment.Clear studioVars ∧
      ∃ s, load (some studioFile) studioVars = .ok s ∧ Leaf.nodeId.get s = .text "studio" ∧
        Leaf.maxConcurrency.get s = .count 7 ∧ Leaf.audiencePageSize.get s = .count 50 ∧
        Leaf.openTracking.get s = .flag false := by
  obtain ⟨s, hload, hlayered, -⟩ :=
    load_layered layerOf_studioFile clear_studioLayer clear_studioVars
  have hunset (leaf : Leaf) (h : ∀ m ∈ studioVars, lowerCase m.1 ≠ leaf.var) (text : String) :
      ¬ Sets studioVars leaf text := fun ⟨name, hmem, hname⟩ => h (name, text) hmem hname
  have hvalue {leaf : Leaf} {v : Json} {x y : Value} (hx : leaf.convert v = .ok x)
      (hy : (leaf.convert v).toOption = some y) : x = y := by
    rw [hx] at hy
    exact Option.some.inj hy
  have hsection : ("dispatch", Json.object [("max_concurrency", .int 3),
      ("audience_page_size", .text "50")]) ∈ studioLayer :=
    List.mem_cons_of_mem _ List.mem_cons_self
  have hnode := ((hlayered .nodeId).2 (hunset .nodeId (by decide +kernel))).1 (.text "studio")
    ⟨"Node_ID", .text "studio", List.mem_cons_self, by decide, rfl⟩
  have hworkers := (hlayered .maxConcurrency).1 "7"
    ⟨"CAMPAIGN_DISPATCH__dispatch__MAX_CONCURRENCY", by decide +kernel, by decide +kernel⟩
  have hpage := ((hlayered .audiencePageSize).2
    (hunset .audiencePageSize (by decide +kernel))).1 (.text "50")
    ⟨"dispatch", _, hsection, by decide, "audience_page_size",
      List.mem_cons_of_mem _ List.mem_cons_self, by decide⟩
  have hopens := (hlayered .openTracking).1 "off"
    ⟨"campaign_dispatch__email__open_tracking", by decide +kernel, by decide +kernel⟩
  exact ⟨layerOf_studioFile, clear_studioLayer, clear_studioVars, s, hload,
    hvalue hnode (by decide +kernel), hvalue hworkers (by decide +kernel),
    hvalue hpage (by decide +kernel), hvalue hopens (by decide +kernel)⟩

end Settings

end Mailshot
